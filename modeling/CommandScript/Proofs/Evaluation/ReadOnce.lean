import CommandScript.Proofs.Evaluation.CachedForms

/-!
# A script is read from its text once

To evaluate a text is to make a value with the text, to read the value as a script, and to run that.
The text is looked at when it is read, and not for anything else that happens on the way to the run:
new values for the fixed texts of the script are made, and the script is kept by the value. So what
is run depends only on what the text is read as. Two texts that are read alike are run as the same
script, with the same values in it, in interpreters that differ in nothing but the text of the value
that was made for them.

## Main definitions

* `StoreM.Heedless` — the computation leaves a value alone, and does not look at its text.
* `Interp.runRead` — runs what a value was read as.
* `Interp.SameRun` — two texts are run as the same script.

## Main results

* `Script.heedless_load` — new values for the fixed texts of a script.
* `Store.asScript_of_read_eq` — reading of values whose texts are read alike.
* `Interp.sameRun_of_read_eq` — texts that are read alike are run alike.
-/

set_option autoImplicit false

namespace CommandScript

open EvalM

/-! ## Computations that leave a value alone -/

/-- The computation leaves the value alone, and does the same whatever the text of the value is. -/
def StoreM.Heedless {α : Type} (r : Ref) (m : StoreM α) : Prop :=
  ∀ v : Store, r.index < v.cells.size →
    r.index < (m v).2.cells.size ∧ (m v).2.cell r = v.cell r ∧
    ∀ text, m (Store.fixText r text v).2 = ((m v).1, (Store.fixText r text (m v).2).2)

namespace StoreM.Heedless

variable {α β : Type} {r : Ref}

/-- A result that is there already depends on no text. -/
lemma pure (a : α) : Heedless r (Pure.pure a : StoreM α) :=
  fun _ hr => ⟨hr, rfl, fun _ => rfl⟩

/-- One thing after another. -/
lemma bind {m : StoreM α} {f : α → StoreM β} (hm : Heedless r m) (hf : ∀ a, Heedless r (f a)) :
    Heedless r (m >>= f) := by
  intro v hr
  obtain ⟨hsize, hcell, hsame⟩ := hm v hr
  obtain ⟨hsize', hcell', hsame'⟩ := hf (m v).1 (m v).2 hsize
  refine ⟨hsize', hcell'.trans hcell, fun text => ?_⟩
  change f (m _).1 (m _).2 = _
  rw [hsame text]
  exact hsame' text

/-- A new value comes after those that are there. -/
lemma alloc (c : Cell) : Heedless r (Store.alloc c) := by
  intro v hr
  refine ⟨?_, ?_, fun text => ?_⟩
  · rw [Store.alloc, Array.size_push]
    exact Nat.lt_succ_of_lt hr
  · rw [Store.alloc, Store.cell, Store.cell, Array.getElem?_push_lt hr,
      Array.getElem?_eq_getElem hr]
  · have hpush : (v.cells.modify r.index fun c => { c with text := some text }).push c =
        (v.cells.push c).modify r.index fun c => { c with text := some text } := by
      refine Array.ext (by simp) fun i hi hi' => ?_
      simp only [Array.getElem_modify, Array.getElem_push, Array.size_modify]
      split
      · rfl
      · rw [if_neg (by omega)]
    unfold Store.alloc Store.fixText
    dsimp only
    rw [hpush, Array.size_modify]

end StoreM.Heedless

namespace Script

open StoreM

mutual

/-- New values for the fixed texts of a word. -/
lemma heedless_loadWord (r : Ref) : ∀ w, Heedless r (loadWord w)
  | .literal _ => (Heedless.alloc _).bind fun _ => .pure _
  | .var _ => .pure _
  | .substitution script => (heedless_load r script).bind fun _ => .pure _
  | .joined parts => (heedless_loadWords r parts).bind fun _ => .pure _

/-- New values for the fixed texts of words. -/
lemma heedless_loadWords (r : Ref) : ∀ words, Heedless r (loadWords words)
  | [] => .pure _
  | w :: rest => (heedless_loadWord r w).bind fun _ => (heedless_loadWords r rest).bind fun _ =>
      .pure _

/-- New values for the fixed texts of a script. -/
lemma heedless_load (r : Ref) : ∀ script, Heedless r (load script)
  | [] => .pure _
  | c :: rest => (heedless_loadWords r c).bind fun _ => (heedless_load r rest).bind fun _ =>
      .pure _

end

end Script

/-! ## Values whose texts are read alike -/

namespace Store

variable {r : Ref} {text text' : String} {v : Store}

/-- A value with another text. -/
lemma cell_fixText (hr : r.index < v.cells.size) (text : String) :
    (fixText r text v).2.cell r = { v.cell r with text := some text } := by
  have hcell : v.cell r = v.cells[r.index] := by
    rw [cell, Array.getElem?_eq_getElem hr, Option.getD_some]
  have hmodify : (v.cells.modify r.index fun c => { c with text := some text })[r.index]? =
      some { v.cells[r.index] with text := some text } := by
    rw [Array.getElem?_eq_getElem (by simpa using hr), Array.getElem_modify_self]
  rw [hcell, cell, fixText, hmodify, Option.getD_some]

/-- A new value with one text is a new value with another, and then with the one. -/
lemma ofText_eq_fixText (text text' : String) (v : Store) :
    (ofText text' v).2 = (fixText ⟨v.cells.size⟩ text' (ofText text v).2).2 := by
  have hcells : v.cells.push { text := some text' } =
      (v.cells.push { text := some text }).modify v.cells.size
        fun c => { c with text := some text' } := by
    refine Array.ext (by simp) fun i _ _ => ?_
    simp only [Array.getElem_modify, Array.getElem_push]
    split
    · rw [if_neg (by omega)]
    · rw [if_pos (by simp_all; omega)]
  unfold ofText alloc fixText
  dsimp only
  rw [hcells]

/-- To keep a form of a value that has only its text is to set its form. -/
lemma cache_of_text (hcell : v.cell r = { text := some text }) (rep : Rep) :
    cache r rep v = setRep r rep v := by
  have htext : (Store.text r v).2 = v := by rw [text_apply, hcell]
  have hobject : (Store.text r v).2.objectOf? r = none := by rw [htext, objectOf?, hcell]
  rw [cache_apply hobject, htext]

/-- The text of a value and its form are set in either order. -/
lemma setRep_fixText (rep : Rep) (text : String) (v : Store) :
    setRep r rep (fixText r text v).2 = ((), (fixText r text (setRep r rep v).2).2) := by
  have hcells : ((v.cells.modify r.index fun c => { c with text := some text }).modify r.index
      fun c => { c with rep }) = (v.cells.modify r.index fun c => { c with rep }).modify r.index
      fun c => { c with text := some text } := by
    refine Array.ext (by simp) fun i _ _ => ?_
    simp only [Array.getElem_modify]
    split
    · rfl
    · rfl
  unfold setRep fixText
  dsimp only
  rw [hcells]

/-- What a text was read as is loaded, and kept by the value. -/
def keepRead (r : Ref) : Script.Outcome (Script String) → StoreM (Script.Outcome (Script Ref))
  | .failed e => pure (.failed e)
  | .stuck => pure .stuck
  | .done script => do
    let commands ← Script.load script
    cache r (.script commands)
    return .done commands

/-- What becomes of a value that has only its text when it is read as a script. -/
lemma asScript_of_text (hcell : v.cell r = { text := some text }) :
    asScript r v = keepRead r (Script.read text) v := by
  have htext : Store.text r v = (text, v) := by rw [text_apply, hcell]
  unfold asScript
  rw [StoreM.getBind_apply, hcell]
  change keepRead r (Script.read (Store.text r v).1) (Store.text r v).2 = _
  rw [htext]

/-- **A value is read from its text once.** Of a value that has only its text, what it is read as
and all that changes depend on what the text is read as, but for the text itself. -/
lemma asScript_of_read_eq (hr : r.index < v.cells.size) (hcell : v.cell r = { text := some text })
    (hread : Script.read text' = Script.read text) :
    asScript r (fixText r text' v).2 =
      ((asScript r v).1, (fixText r text' (asScript r v).2).2) := by
  have hcell' : (fixText r text' v).2.cell r = { text := some text' } := by
    rw [cell_fixText hr, hcell]
  rw [asScript_of_text hcell, asScript_of_text hcell', hread]
  cases Script.read text with
  | failed e => rfl
  | stuck => rfl
  | done script =>
    obtain ⟨hr', hkept, hsame⟩ := Script.heedless_load r script v hr
    have hloaded : (fixText r text' (Script.load script v).2).2.cell r =
        { text := some text' } := by
      rw [cell_fixText hr', hkept, hcell]
    have hkeep : ∀ u, keepRead r (.done script) u =
        (.done (Script.load script u).1,
          (cache r (.script (Script.load script u).1) (Script.load script u).2).2) := fun _ => rfl
    rw [hkeep, hkeep, hsame text', cache_of_text hloaded, cache_of_text (hkept.trans hcell),
      setRep_fixText]

end Store

/-! ## Texts that are read alike -/

namespace Interp

/-- Runs a script that was read, or raises the error for one that could not be. -/
def runOutcome (E : Engine Empty) : Script.Outcome (Script Ref) → EvalM Empty Ref
  | .done script => runScript E none script
  | .failed e => fail (.script e)
  | .stuck => throw .diverged

/-- Runs what a value was read as, one level deeper. -/
def runRead (bound : Nat) (read : Script.Outcome (Script Ref)) : EvalM Empty Ref :=
  bracket enterNested (runOutcome (engine bound) read) release

/-- **The two texts are run as the same script**: what the first is read as is run for both of them,
in interpreters that differ in nothing but the text of the value that was made. -/
def SameRun (bound : Nat) (text text' : String) (s : Interp Empty) : Prop :=
  let made := Store.ofText text s.values
  let read := Store.asScript made.1 made.2
  evaluateText (bound + 1) text s = runRead bound read.1 ⟨read.2, s.context⟩ ∧
    evaluateText (bound + 1) text' s =
      runRead bound read.1 ⟨(Store.fixText made.1 text' read.2).2, s.context⟩

/-- A value is read before anything is run. -/
lemma script_apply (E : Engine Empty) (r : Ref) (v : Store) (c : Context Empty) :
    (scriptOf r >>= runScript E none) ⟨v, c⟩ =
      runOutcome E (Store.asScript r v).1 ⟨(Store.asScript r v).2, c⟩ := by
  change ((match (Store.asScript r v).1 with
    | .done script => Pure.pure script
    | .failed e => fail (.script e)
    | .stuck => throw .diverged : EvalM Empty (Script Ref)) >>= runScript E none)
      ⟨(Store.asScript r v).2, c⟩ = _
  cases (Store.asScript r v).1 with
  | done script => rfl
  | failed e => rfl
  | stuck => rfl

/-- So it is one level deeper, if evaluation may be nested so deep. -/
lemma evaluate_eq_runRead (bound : Nat) (r : Ref) (v : Store) {c : Context Empty}
    (hlevel : c.level < c.limit) :
    evaluate (bound + 1) r ⟨v, c⟩ =
      runRead bound (Store.asScript r v).1 ⟨(Store.asScript r v).2, c⟩ := by
  have henter : enterNested c = .ok ({ c with level := c.level + 1 },
      fun c => { c with level := c.level - 1 }) := if_neg (Nat.not_lt.2 hlevel)
  have hobserve : observe (scriptOf r >>= runScript (engine bound) none)
        ⟨v, { c with level := c.level + 1 }⟩ =
      observe (runOutcome (engine bound) (Store.asScript r v).1)
        ⟨(Store.asScript r v).2, { c with level := c.level + 1 }⟩ := by
    unfold observe
    rw [script_apply]
  change evalNested (engine bound) r ⟨v, c⟩ = _
  rw [evalNested_eq]
  unfold runRead bracket
  dsimp only
  rw [henter]
  change EStateM.bind (observe _) _ _ = EStateM.bind (observe _) _ _
  unfold EStateM.bind
  rw [hobserve]

/-- **Texts that are read alike are run alike.** -/
lemma sameRun_of_read_eq (bound : Nat) {text text' : String}
    (hread : Script.read text' = Script.read text) {s : Interp Empty}
    (hlevel : s.context.level < s.context.limit) : SameRun bound text text' s := by
  obtain ⟨v, c⟩ := s
  let r : Ref := ⟨v.cells.size⟩
  have hr : r.index < (Store.ofText text v).2.cells.size :=
    Nat.lt_of_lt_of_eq (Nat.lt_succ_self _) (Array.size_push _).symm
  have hcell : (Store.ofText text v).2.cell r = { text := some text } := by
    rw [Store.cell, Store.ofText, Store.alloc, Array.getElem?_push_size, Option.getD_some]
  -- the new value is read as a script, and what was read is run
  have htyped : ∀ text, evaluateText (bound + 1) text ⟨v, c⟩ =
      runRead bound (Store.asScript r (Store.ofText text v).2).1
        ⟨(Store.asScript r (Store.ofText text v).2).2, c⟩ := fun text =>
    evaluate_eq_runRead bound r (Store.ofText text v).2 hlevel
  refine ⟨htyped text, (htyped text').trans ?_⟩
  -- the other text makes the same value but for its text, and that is read once
  rw [Store.ofText_eq_fixText text text', Store.asScript_of_read_eq hr hcell hread]
  rfl

end Interp

end CommandScript
