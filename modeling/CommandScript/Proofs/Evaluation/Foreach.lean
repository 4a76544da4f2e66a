import CommandScript.Proofs.Evaluation.Binding
import CommandScript.Proofs.Evaluation.ErrorTrace
import CommandScript.Proofs.Evaluation.KnownTexts
import CommandScript.Proofs.Value.Wording

/-!
# Rounds of a loop over a list

A loop over a list takes its variables and its items from two values before the first round, and it
deals the items out to the variables, so many in each round as there are variables. What the body
does makes no difference to this: a script may change any variable, or convert the values that the
list and the names were taken from, but it can neither put other items into the list that the loop
has taken nor change a text that is known. And the names are known: they were asked for when the
variables were bound for the first time. What they came to then could be read off the values before:
it is how these are worded, even if something was added to the store by then.

The states that the loop goes through are told as a chain of rounds. In each of them the variables
are bound, and then the body is evaluated in the state that this leads to. So how often the body was
evaluated can be counted on the chain, and what the variables hold just before can be read off it.

## Main definitions

* `Store.Extended` — something was added to the values, and nothing else has happened.
* `Store.Answers` — the text that asking for it gives, now and when something has been added.
* `Builtin.Holds` — what a variable holds that was given an item.
* `Builtin.Dealt` — what the variables hold when items have been dealt out.
* `Builtin.roundCount` — how many rounds there are at most.
* `Builtin.Rounded` — the rounds after which the loop went on.
* `Builtin.Ends` — how the loop ends.

## Main results

* `Builtin.bindLoopVars_apply` — what binding the variables of a loop does.
* `Builtin.completes_left` — what a loop does from any state between two rounds.
* `Builtin.foreach_snapshot` — the loop deals out the items that it has taken at the start.
-/

set_option autoImplicit false

namespace CommandScript

open EvalM

/-! ## What is added to the values -/

namespace Store

variable {b s t u : Store} {r q : Ref} {name : String}

/-- **Something was added** to the values of `s`, and nothing else has happened. There may be new
values, which belong to no script, and new objects; and texts may be known now that were not known,
texts of values of the store `b`, as they are worded there. -/
structure Extended (b s t : Store) : Prop where
  /-- No cell is lost. -/
  size : s.cells.size ≤ t.cells.size
  /-- What was there is as it was, or its text is known now. -/
  cell : ∀ q, q.index < s.cells.size → t.cell q = s.cell q ∨
    q.index < b.cells.size ∧ (s.cell q).text = none ∧
      t.cell q = { s.cell q with text := some (b.wording q) }
  /-- What is new belongs to no script. -/
  fresh : ∀ q, s.cells.size ≤ q.index → t.isLiteral q = false
  /-- The objects are what they were. -/
  object : ∀ o x, s.object? o = some x → t.object? o = some x
  /-- Where a text is not known, it can still be found out. -/
  founded : s.Founded → t.Founded

/-- Nothing was added. -/
lemma Extended.refl (b s : Store) : Extended b s s :=
  ⟨Nat.le_refl _, fun _ _ => .inl rfl, fun _ => isLiteral_of_size_le, fun _ _ => id, id⟩

/-- What is there stays there. -/
lemma Extended.lt (h : Extended b s t) (hq : q.index < s.cells.size) : q.index < t.cells.size :=
  Nat.lt_of_lt_of_le hq h.size

/-- No value becomes one that belongs to a script, and none ceases to be one. -/
lemma Extended.isLiteral_eq (h : Extended b s t) (q : Ref) : t.isLiteral q = s.isLiteral q := by
  by_cases hq : q.index < s.cells.size
  · obtain hsame | ⟨-, -, hknown⟩ := h.cell q hq
    · exact congrArg Cell.literal hsame
    · rw [isLiteral, hknown, isLiteral]
  · have hge := Nat.le_of_not_lt hq
    rw [h.fresh q hge, isLiteral_of_size_le hge]

/-- A value whose text is known is as it was. -/
lemma Extended.cell_eq (h : Extended b s t) (hq : q.index < s.cells.size)
    (hknown : (s.cell q).text ≠ none) : t.cell q = s.cell q :=
  (h.cell q hq).resolve_right fun hnew => hknown hnew.2.1

/-- Something was added, and then something else. -/
lemma Extended.trans (h : Extended b s t) (h' : Extended b t u) : Extended b s u where
  size := Nat.le_trans h.size h'.size
  cell q hq := by
    obtain hsame' | ⟨hold, hnone, hknown⟩ := h'.cell q (h.lt hq)
    · rw [hsame']
      exact h.cell q hq
    · obtain hsame | ⟨-, -, hknown'⟩ := h.cell q hq
      · rw [hsame] at hnone hknown
        exact .inr ⟨hold, hnone, hknown⟩
      · -- a text that is known does not become known again
        rw [hknown'] at hnone
        cases hnone
  fresh q hq := (h'.isLiteral_eq q).trans (h.fresh q hq)
  object o x ho := h'.object o x (h.object o x ho)
  founded := h'.founded ∘ h.founded

/-- Values and objects may be new. -/
lemma Enlarged.extended (h : Enlarged s t) (hfounded : s.Founded → t.Founded) : Extended b s t :=
  ⟨h.size, fun q hq => .inl (h.cell q hq), h.fresh, h.object, hfounded⟩

/-- A new text is added. -/
lemma extended_ofText (b : Store) (text : String) (s : Store) : Extended b s (ofText text s).2 :=
  (enlarges_alloc (c := { text := some text }) rfl s).extended fun hs => hs.alloc nofun nofun

/-- What a variable can hold of a value may be a copy, which is added. -/
lemma extended_own (b : Store) (r : Ref) (s : Store) : Extended b s (own r s).2 :=
  (enlarges_own r s).extended fun hs => hs.own r

/-- Values of `b` are worded as before. -/
lemma Extended.wording_eq (h : Extended b b t) (hb : b.Founded) (hq : q.index < b.cells.size) :
    t.wording q = b.wording q := by
  refine SameWording.wording_eq ⟨h.object, fun p hp => ?_⟩ hb (h.founded hb) hq
  obtain hsame | ⟨-, -, hknown⟩ := h.cell p hp
  · exact text_eq_or_of_cell_eq hsame
  · rw [hknown]
    exact .inl rfl

/-- Asking for the text of the value gives `name`, which is known then, and does nothing but make
texts known, as values are worded in `b`; and so it is when something has been added to `s`. -/
def Answers (b s : Store) (r : Ref) (name : String) : Prop :=
  r.index < s.cells.size ∧ ∀ t, Extended b s t → (text r t).1 = name ∧ Extended b t (text r t).2

/-- What a variable holds, it holds when the store has grown. -/
lemma Answers.mono (h : Answers b s r name) (hst : Extended b s t) : Answers b t r name :=
  ⟨hst.lt h.1, fun u hu => h.2 u (hst.trans hu)⟩

/-- A text that is known is what is asked for. -/
lemma answers_of_text (b : Store) (hr : r.index < s.cells.size)
    (htext : (s.cell r).text = some name) : Answers b s r name := by
  refine ⟨hr, fun t ht => ?_⟩
  have hsame := ht.cell_eq hr (htext ▸ Option.some_ne_none name)
  rw [text_apply, hsame, htext]
  exact ⟨rfl, .refl b t⟩

/-- A text that is not known is how the value is worded. Nothing that was added has anything to do
with it, since what a value is written with is older than the value. -/
lemma answers_wording (hb : b.Founded) (hr : r.index < b.cells.size) :
    Answers b b r (b.wording r) := by
  refine ⟨hr, fun t ht => ?_⟩
  have htells := tells_text_of_lt (ht.founded hb) hr
  refine ⟨htells.1.trans (ht.wording_eq hb hr), ?_⟩
  constructor
  case size => exact Nat.le_of_eq htells.2.size.symm
  case fresh => exact fun q hq => isLiteral_of_size_le (htells.2.size.symm ▸ hq)
  case object => exact fun o x ho => (object?_congr htells.2.objects o).trans ho
  case founded => exact htells.2.founded
  case cell =>
    refine fun q _ => (htells.2.cell q).imp_right fun ⟨hold, hnone, hknown⟩ => ⟨hold, hnone, ?_⟩
    rw [hknown, ht.wording_eq hb hold]

end Store

/-! ## Variables of the top frame -/

namespace ScopeStack

variable {s t : ScopeStack} {name : String} {r : Ref}

/-- What a variable was given can be read at the same address. -/
lemma valueAt?_of_set_self {level : Int} {place : Nat} (hplace : s.place? level = .ok place)
    (h : s.set name r level = .ok t) : t.valueAt? name place = some r := by
  have hbind := find?_frame_of_set hplace h
  have hslot : t.slot name place = s.slot name place := by
    obtain ⟨hslot, hlink⟩ | ⟨hslot, -⟩ := slot_cases s name place
    · refine slot_congr ?_
      rw [hbind, if_pos ⟨rfl, hslot.symm⟩]
      simp [hlink]
    · by_cases hzero : place = 0
      · rw [hzero, slot_zero, slot_zero]
      · refine slot_congr ?_
        rw [hbind, if_neg fun hboth => hzero (hboth.2.trans hslot)]
  rw [valueAt?_eq_stored?, hslot, stored?, hbind, if_pos ⟨rfl, rfl⟩]

/-- What a variable of the top frame was given can be read there. -/
lemma get_of_set_top (h : s.set name r (-1) = .ok t) : t.get name (-1) = .ok r := by
  have hplace := place?_top s
  rw [get_of_place? ((place?_of_depth_eq (depth_of_set h) _).trans hplace),
    valueAt?_of_set_self hplace h]
  rfl

/-- No other variable reads differently, in whatever frame. -/
lemma get_of_set_ne {level : Int} (h : s.set name r (-1) = .ok t) {other : String}
    (hother : other ≠ name) : t.get other level = s.get other level := by
  have hbind := find?_frame_of_set (place?_top s) h
  have hkept : ∀ i, (t.frame i).find? other = (s.frame i).find? other := fun i => by
    rw [hbind, if_neg fun hboth => hother hboth.1]
  have hvalue : ∀ i, t.valueAt? other i = s.valueAt? other i := by
    intro i
    have hglobal : t.globals.find? other = s.globals.find? other := hkept 0
    unfold valueAt? globalValue?
    rw [hkept, hglobal]
  unfold get
  rw [place?_of_depth_eq (depth_of_set h)]
  simp only [hvalue]

end ScopeStack

namespace Builtin

variable {κ : Type} {s t u : Interp κ}

/-! ## Dealing out -/

/-- **What a variable holds that was given an item** between two stores: the item, or a copy of it;
and if there is no item, a new value that is the empty text. Something may have been added
meanwhile, and texts of values of `b` may be known. -/
def Holds (b v w : Store) (r : Ref) : Option Ref → Prop
  | some item => Procedure.Given (Store.Extended b) v w item r
  | none => v.cells.size ≤ r.index ∧ r.index < w.cells.size ∧ w.cell r = { text := some "" }

/-- **Items have been dealt out** between `s` and `t`: the variable at place `i` has been given what
there is at this place. Of variables with one name, the last one counts. The texts that became known
are those of values of `b`. -/
structure Dealt (b : Store) (names : List String) (given : Nat → Option Ref) (s t : Interp κ) :
    Prop where
  /-- Something is added to the values, perhaps. -/
  values : Store.Extended b s.values t.values
  /-- Nothing changes but variables. -/
  context : t.context = { s.context with scopes := t.context.scopes }
  /-- There are as many frames as before. -/
  depth : t.context.scopes.depth = s.context.scopes.depth
  /-- What the variables hold. -/
  bound : ∀ i name, names[i]? = some name → (∀ j, i < j → names[j]? ≠ some name) →
    ∃ r, t.context.scopes.get name (-1) = .ok r ∧ Holds b s.values t.values r (given i)
  /-- Other variables hold what they did, in all frames. -/
  other : ∀ name level, name ∉ names →
    t.context.scopes.get name level = s.context.scopes.get name level

section Dealing

variable {b : Store} {names : List String} {name : String} {given : Nat → Option Ref}
  {item : Option Ref}

/-- More may have been added before and after. -/
lemma Holds.mono {v v' w w' : Store} {r : Ref} (hv : Store.Extended b v v')
    (hw : Store.Extended b w w') (h : Holds b v' w r item) : Holds b v w' r item := by
  cases item with
  | some item => exact Procedure.Given.mono (fun _ _ _ => .trans) (hv.isLiteral_eq item) hv hw h
  | none =>
    obtain ⟨hnew, hvalid, hcell⟩ := h
    have hknown : (w.cell r).text ≠ none := hcell ▸ Option.some_ne_none ""
    exact ⟨Nat.le_trans hv.size hnew, hw.lt hvalid, (hw.cell_eq hvalid hknown).trans hcell⟩

/-- Without variables there is nothing to deal out. -/
lemma dealt_nil (b : Store) (given : Nat → Option Ref) (s : Interp κ) : Dealt b [] given s s where
  values := .refl b _
  context := rfl
  depth := rfl
  bound _ _ h := nomatch h
  other _ _ _ := rfl

/-- The first variable is bound, and then the others. -/
lemma Dealt.cons (h : Dealt b [name] (fun _ => given 0) s t)
    (h' : Dealt b names (fun i => given (i + 1)) t u) : Dealt b (name :: names) given s u where
  values := h.values.trans h'.values
  context := by rw [h'.context, h.context]
  depth := h'.depth.trans h.depth
  bound i other hi hlast := by
    cases i with
    | zero =>
      obtain rfl : name = other := by simpa using hi
      have hnone : name ∉ names := by
        intro hmem
        obtain ⟨j, hj⟩ := List.mem_iff_getElem?.1 hmem
        exact hlast (j + 1) (Nat.succ_pos j) hj
      have hlast' : ∀ j, 0 < j → [name][j]? ≠ some name := by
        intro j hj
        rw [List.getElem?_eq_none (Nat.succ_le_of_lt hj)]
        exact nofun
      obtain ⟨r, hget, hr⟩ := h.bound 0 name rfl hlast'
      exact ⟨r, (h'.other name (-1) hnone).trans hget, hr.mono (.refl b _) h'.values⟩
    | succ i =>
      obtain ⟨r, hget, hr⟩ := h'.bound i other hi fun j hj hname =>
        hlast (j + 1) (Nat.succ_lt_succ hj) hname
      exact ⟨r, hget, hr.mono h.values (.refl b _)⟩
  other other level hother := by
    rw [List.mem_cons, not_or] at hother
    rw [h'.other other level hother.2, h.other other level (by simpa using hother.1)]

/-- Where there is nothing to deal out in the places that matter, it makes no difference. -/
lemma Dealt.congr {given' : Nat → Option Ref} (h : Dealt b names given s t)
    (hgiven : ∀ i, i < names.length → given i = given' i) : Dealt b names given' s t where
  values := h.values
  context := h.context
  depth := h.depth
  bound i name hi hlast := by
    rw [← hgiven i (List.getElem?_eq_some_iff.1 hi).1]
    exact h.bound i name hi hlast
  other := h.other

end Dealing

/-! ## Binding the variables of a loop -/

/-- The value for a variable is the next item, or a new value with the empty text. The variable
holds it, even if some text is asked for in between. -/
lemma exists_loopValue (b : Store) (items : List Ref) (s : Interp κ) :
    ∃ a v, loopValue items s = .ok a ⟨v, s.context⟩ ∧ Store.Extended b s.values v ∧
      ∀ w, Store.Extended b v w →
        Holds b s.values (Store.own a w).2 (Store.own a w).1 items.head? := by
  cases items with
  | cons item items =>
    exact ⟨item, s.values, rfl, .refl b _, fun w hw =>
      Procedure.given_own (hw.isLiteral_eq item) hw (.refl b _)⟩
  | nil =>
    let fresh := Store.ofText "" s.values
    have hcell : fresh.2.cell fresh.1 = { text := some "" } := Store.cell_alloc_self _ s.values
    have hvalid : fresh.1.index < fresh.2.cells.size :=
      Nat.lt_of_lt_of_eq (Nat.lt_succ_self _) (Store.size_alloc _ s.values).symm
    refine ⟨fresh.1, fresh.2, rfl, Store.extended_ofText b "" s.values, fun w hw => ?_⟩
    have hsame : w.cell fresh.1 = { text := some "" } := by
      rw [hw.cell_eq hvalid (hcell ▸ Option.some_ne_none ""), hcell]
    rw [Store.own_of_not_literal (congrArg Cell.literal hsame)]
    exact ⟨Nat.le_refl _, hw.lt hvalid, hsame⟩

/-- A variable of the top frame is given a value, and nothing else happens. -/
lemma exists_setVar_dealt {b : Store} (name : String) (a : Ref) {v : Store} {item : Option Ref}
    {s : Interp κ} (hv : Store.Extended b s.values v)
    (ha : Holds b s.values (Store.own a v).2 (Store.own a v).1 item) :
    ∃ r t, setVar name a (-1) ⟨v, s.context⟩ = .ok r t ∧ Store.Extended b v t.values ∧
      Dealt b [name] (fun _ => item) s t := by
  obtain ⟨scopes, hset⟩ : ∃ t, s.context.scopes.set name (Store.own a v).1 (-1) = .ok t := by
    unfold ScopeStack.set
    rw [ScopeStack.place?_top]
    exact ⟨_, rfl⟩
  refine ⟨_, _, ScopeStack.setVar_apply hset, Store.extended_own b a v,
    hv.trans (Store.extended_own b a v), rfl, ScopeStack.depth_of_set hset, fun i other hi _ => ?_,
    fun other level hother => ScopeStack.get_of_set_ne hset (by simpa using hother)⟩
  obtain ⟨rfl, rfl⟩ : i = 0 ∧ name = other := by
    cases i with
    | zero => exact ⟨rfl, by simpa using hi⟩
    | succ i => simp at hi
  exact ⟨_, ScopeStack.get_of_set_top hset, ha⟩

/-- One variable is given its value, and the others come after. -/
lemma exists_bindFirst {b : Store} {var : Ref} {name : String} (vars items : List Ref)
    {s : Interp κ} (hvar : Store.Answers b s.values var name) :
    ∃ t, bindLoopVars (var :: vars) items s = bindLoopVars vars items.tail t ∧
      (t.values.cell var).text = some name ∧ Dealt b [name] (fun _ => items.head?) s t := by
  obtain ⟨a, v, hvalue, hv, hholds⟩ := exists_loopValue b items s
  obtain ⟨hname, hasked⟩ := hvar.2 v hv
  have htext : (text var : EvalM κ String) ⟨v, s.context⟩ =
      .ok name ⟨(Store.text var v).2, s.context⟩ := hname ▸ rfl
  obtain ⟨r, t, hset, hwt, hdealt⟩ := exists_setVar_dealt name a (hv.trans hasked) (hholds _ hasked)
  refine ⟨t, ?_, ?_, hdealt⟩
  · rw [bindLoopVars_cons, bind_of_ok hvalue, bind_of_ok htext, bind_of_ok hset]
  · have hvalid := (hv.trans hasked).lt hvar.1
    have hknown := Store.cell_text_text var v
    rw [hwt.cell_eq hvalid (hknown ▸ Option.some_ne_none _), hknown, hname]

/-- **Binding the variables of a loop** deals the items out to them. The names are known
afterwards.

**Proof sketch.** Induction on the variables: the first one gets the first item, and the others get
what is left. -/
lemma bindLoopVars_apply {b : Store} {vars : List Ref} {names : List String} (items : List Ref)
    {s : Interp κ} (hvars : List.Forall₂ (Store.Answers b s.values) vars names) :
    ∃ t, bindLoopVars vars items s = .ok () t ∧ t.values.Known vars names ∧
      Dealt b names (fun i => items[i]?) s t := by
  induction vars generalizing items names s with
  | nil =>
    cases hvars
    exact ⟨s, rfl, .nil, dealt_nil b _ s⟩
  | cons var vars ih =>
    obtain ⟨name, names, hvar, hrest, rfl⟩ := List.forall₂_cons_left_iff.1 hvars
    obtain ⟨t, hfirst, hname, hdealt⟩ := exists_bindFirst vars items hvar
    obtain ⟨u, hothers, hknown, hdealt'⟩ := ih items.tail
      (hrest.imp fun _ _ h => h.mono hdealt.values)
    have hvalid := hdealt.values.lt hvar.1
    refine ⟨u, hfirst.trans hothers, .cons ⟨hdealt'.values.lt hvalid, ?_⟩ hknown,
      Dealt.cons (t := t) ?_ ?_⟩
    · rw [hdealt'.values.cell_eq hvalid (hname ▸ Option.some_ne_none name), hname]
    · rw [← List.head?_eq_getElem?]
      exact hdealt
    · simpa only [List.getElem?_tail] using hdealt'

/-! ## Rounds -/

/-- The body of a loop lets the loop go on: it has a result, or it asks for the next round. -/
inductive GoesOn (E : Engine κ) (body : Ref) (s t : Interp κ) : Prop
  /-- It has a result. -/
  | result {r : Ref} (h : E.eval body s = .ok r t)
  /-- It asks for the next round. -/
  | continued {e : Exception} (hcode : e.code = .continued)
    (h : E.eval body s = .error (.raised e) t)

/-- How often the body is evaluated at most: as often as there are pieces of the items, each as long
as the list of names, where the last one may be shorter. -/
def roundCount (names : List String) (items : List Ref) : Nat :=
  (items.length + names.length - 1) / names.length

/-- What is dealt out in round `k`, which is the piece that comes after the pieces of `k` rounds. -/
def itemAt (names : List String) (items : List Ref) (k i : Nat) : Option Ref :=
  items[k * names.length + i]?

/-- **After so many rounds**, each of which has dealt out the next items and evaluated the body
once, the loop goes on. -/
inductive Rounded (E : Engine κ) (body : Ref) (names : List String) (items : List Ref)
    (s : Interp κ) : Nat → Interp κ → Prop
  /-- There was no round yet. -/
  | start : Rounded E body names items s 0 s
  /-- There was one more. -/
  | step {k : Nat} {t u w : Interp κ} (h : Rounded E body names items s k t)
    (hdealt : Dealt t.values names (itemAt names items k) t u) (hbody : GoesOn E body u w) :
    Rounded E body names items s (k + 1) w

/-- **How a loop ends** that has gone on after `k` rounds and come to the state `t`. -/
inductive Ends (E : Engine κ) (body : Ref) (names : List String) (items : List Ref) (k : Nat)
    (t : Interp κ) : EStateM.Result Stop (Interp κ) (Option Ref) → Prop
  /-- There are no more items. -/
  | done (hk : k = roundCount names items) : Ends E body names items k t (.ok none t)
  /-- The body breaks the loop in round `k`. -/
  | broke {u w : Interp κ} {e : Exception} (hk : k < roundCount names items)
    (hdealt : Dealt t.values names (itemAt names items k) t u) (hcode : e.code = .broke)
    (hbody : E.eval body u = .error (.raised e) w) : Ends E body names items k t (.ok none w)
  /-- The body stops in another way in round `k`, and nothing comes after that. -/
  | stopped {u w : Interp κ} {stop : Stop} (hk : k < roundCount names items)
    (hdealt : Dealt t.values names (itemAt names items k) t u)
    (hstop : ∀ e, stop = .raised e → ¬ e.ForLoop)
    (hbody : E.eval body u = .error stop w) : Ends E body names items k t (.error stop w)

section Rounds

variable {E : Engine κ} {body : Ref} {vars items left : List Ref} {names : List String} {k : Nat}

/-- What a round yields says how the body was evaluated. -/
lemma round_cases (E : Engine κ) (body : Ref) (s : Interp κ) :
    (∃ t, GoesOn E body s t ∧ round E body s = .ok true t) ∨
    (∃ e t, e.code = .broke ∧ E.eval body s = .error (.raised e) t ∧
      round E body s = .ok false t) ∨
    ∃ stop t, (∀ e, stop = .raised e → ¬ e.ForLoop) ∧ E.eval body s = .error stop t ∧
      round E body s = .error stop t := by
  cases hbody : E.eval body s with
  | ok r t =>
    have hobserved : observe (E.eval body) s = .ok (.ok r) t := by rw [observe, hbody]
    exact .inl ⟨t, .result hbody, bind_of_ok hobserved⟩
  | error stop t =>
    cases stop with
    | raised e =>
      have hobserved : observe (E.eval body) s = .ok (.error e) t := by rw [observe, hbody]
      have hround : round E body s = _ := bind_of_ok hobserved
      dsimp only at hround
      cases hcode : e.code with
      | broke => exact .inr (.inl ⟨e, t, hcode, rfl, by rw [hround, hcode]; rfl⟩)
      | continued => exact .inl ⟨t, .continued hcode hbody, by rw [hround, hcode]; rfl⟩
      | _ =>
        refine .inr (.inr ⟨.raised e, t, ?_, rfl, by rw [hround, hcode]; rfl⟩)
        rintro _ ⟨⟩ (hloop | hloop) <;> cases hcode.symm.trans hloop
    | exited status =>
      refine .inr (.inr ⟨.exited status, t, ?_, rfl, bind_of_error (by rw [observe, hbody])⟩)
      rintro _ ⟨⟩
    | fault =>
      refine .inr (.inr ⟨.fault, t, ?_, rfl, bind_of_error (by rw [observe, hbody])⟩)
      rintro _ ⟨⟩
    | diverged =>
      refine .inr (.inr ⟨.diverged, t, ?_, rfl, bind_of_error (by rw [observe, hbody])⟩)
      rintro _ ⟨⟩

/-- The body of a loop takes no known text away, so that a loop that goes on knows its names. -/
lemma GoesOn.known (hE : E.Retains) (h : GoesOn E body s t)
    (hs : s.values.Known vars names) : t.values.Known vars names := by
  have hretained : s.values.Retained t.values := by
    have hbody := hE body s
    cases h with
    | result h => rwa [h] at hbody
    | continued _ h => rwa [h] at hbody
  exact hs.imp fun r text hr =>
    ⟨Nat.lt_of_lt_of_le hr.1 hretained.cells, hretained.text r text hr.1 hr.2⟩

/-- Names that are known are what is asked for. -/
lemma answers_of_known {v : Store} (hknown : v.Known vars names) :
    List.Forall₂ (Store.Answers v v) vars names :=
  hknown.imp fun _ _ h => Store.answers_of_text v h.1 h.2

/-- The first piece of what is left after `k` rounds is what is dealt out in round `k`. -/
lemma getElem?_take_eq_itemAt (hleft : items.drop (k * names.length) = left) {i : Nat}
    (hi : i < names.length) : (left.take names.length)[i]? = itemAt names items k i := by
  rw [List.getElem?_take_of_lt hi, ← hleft, List.getElem?_drop]
  rfl

/-- What is left after one more round. -/
lemma drop_next (hleft : items.drop (k * names.length) = left) :
    items.drop ((k + 1) * names.length) = left.drop names.length := by
  rw [← hleft, List.drop_drop, Nat.succ_mul]

/-- While items are left, there is another round. -/
lemma lt_roundCount (hnames : 0 < names.length)
    (hleft : items.drop (k * names.length) ≠ []) : k < roundCount names items := by
  have hlength : k * names.length < items.length := by
    by_contra hle
    exact hleft (List.drop_eq_nil_of_le (Nat.le_of_not_lt hle))
  rw [roundCount, ← Nat.succ_le_iff, Nat.le_div_iff_mul_le hnames, Nat.succ_mul]
  omega

/-- When no items are left, all rounds are over. -/
lemma roundCount_le (hnames : 0 < names.length)
    (hleft : items.drop (k * names.length) = []) : roundCount names items ≤ k := by
  have hlength : items.length ≤ k * names.length := List.drop_eq_nil_iff.1 hleft
  rw [roundCount, ← Nat.lt_succ_iff, Nat.div_lt_iff_lt_mul hnames, Nat.succ_mul]
  omega

/-- What is left of the command when its list has been cut into pieces. -/
def loopOver (E : Engine κ) (vars : List Ref) (body : Ref) (pieces : List (List Ref)) :
    EvalM κ (Option Ref) := do
  foreachLoop E vars body pieces
  done

/-- The outcome is that of the loop that starts in `s`: there are rounds after which it goes on, and
then it ends. -/
def Completes (E : Engine κ) (body : Ref) (names : List String) (items : List Ref) (s : Interp κ)
    (outcome : EStateM.Result Stop (Interp κ) (Option Ref)) : Prop :=
  ∃ k t, Rounded E body names items s k t ∧ Ends E body names items k t outcome

/-- **One round.** When the variables have been bound to the first piece of what is left, the body
is evaluated. What the loop does with the other pieces is only of interest if the body lets it go
on, and then one more round is over and the names are still known. -/
lemma completes_cons {size : Nat} {a : Ref} {rest : List Ref} (hE : E.Retains)
    (hsize : names.length = size + 1) (ht : Rounded E body names items s k t)
    (hleft : items.drop (k * names.length) = a :: rest)
    (hbind : bindLoopVars vars (a :: rest.take size) t = .ok () u)
    (hknown : u.values.Known vars names)
    (hdealt : Dealt t.values names (fun i => (a :: rest.take size)[i]?) t u)
    (hrest : ∀ w, Rounded E body names items s (k + 1) w → w.values.Known vars names →
      k + 1 ≤ roundCount names items → items.drop ((k + 1) * names.length) = rest.drop size →
      Completes E body names items s (loopOver E vars body (chunks size (rest.drop size)) w)) :
    Completes E body names items s (loopOver E vars body (chunks size (a :: rest)) t) := by
  have hlt : k < roundCount names items :=
    lt_roundCount (hsize ▸ Nat.succ_pos size) (hleft ▸ List.cons_ne_nil a rest)
  have hpiece : a :: rest.take size = (a :: rest).take names.length := by
    rw [hsize, List.take_succ_cons]
  have hdealt' : Dealt t.values names (itemAt names items k) t u :=
    hdealt.congr fun i hi => by rw [hpiece, getElem?_take_eq_itemAt hleft hi]
  -- the loop is the first round, and then the loop over the other pieces
  have hloop : loopOver E vars body (chunks size (a :: rest)) t = (do
      if ← round E body then loopOver E vars body (chunks size (rest.drop size))
      else done : EvalM κ (Option Ref)) u := by
    rw [chunks, loopOver, foreachLoop, bind_assoc, bind_of_ok hbind, bind_assoc]
    refine congrFun (bind_congr fun goes => ?_) u
    cases goes with
    | true => rfl
    | false => rfl
  rw [hloop]
  -- the round goes on, leaves the loop, or stops the evaluation
  obtain ⟨w, hgoes, hround⟩ | ⟨e, w, hcode, hbody, hround⟩ | ⟨stop, w, hstop, hbody, hround⟩ :=
    round_cases E body u
  · rw [bind_of_ok hround]
    refine hrest w (ht.step hdealt' hgoes) (hgoes.known hE hknown) hlt ?_
    rw [drop_next hleft, hsize, List.drop_succ_cons]
  · rw [bind_of_ok hround]
    exact ⟨k, t, ht, .broke hlt hdealt' hcode hbody⟩
  · rw [bind_of_error hround]
    exact ⟨k, t, ht, .stopped hlt hdealt' hstop hbody⟩

/-- **A loop whose names are known** goes on with what is left, from any state between two rounds.

**Proof sketch.** Induction on how what is left is cut into pieces. The names of the variables are
known, so they are bound by these names in the next round, too, and the body takes none of them
away. -/
lemma completes_left {size : Nat} (hE : E.Retains) (hsize : names.length = size + 1)
    (ht : Rounded E body names items s k t) (hknown : t.values.Known vars names)
    (hk : k ≤ roundCount names items) (hleft : items.drop (k * names.length) = left) :
    Completes E body names items s (loopOver E vars body (chunks size left) t) := by
  induction left using chunks.induct size generalizing k t with
  | case1 =>
    have hlast := roundCount_le (hsize ▸ Nat.succ_pos size) hleft
    rw [chunks]
    exact ⟨k, t, ht, .done (Nat.le_antisymm hk hlast)⟩
  | case2 a rest ih =>
    obtain ⟨u, hbind, hknown', hdealt⟩ :=
      bindLoopVars_apply (a :: rest.take size) (answers_of_known hknown)
    exact completes_cons hE hsize ht hleft hbind hknown' hdealt fun w => ih

/-- **A loop over a list deals out the items that it has taken at the start**, to the variables that
were named at the start. Let its variables be the elements of the value `names`, at least one, and
its items those of the value `list`; in `w` both have been converted, and the names of the variables
are how these elements are worded there. Then there are rounds, in each of which the next items are
dealt out to the variables, and then the body is evaluated. The loop ends

* without a result after the last of the items, which is when the body was evaluated as often as
  there are pieces of them;
* without a result if the body breaks it;
* in the same way as the body if the body stops in another way.

This is so whatever the body does, since the names and the items of the rounds are the same ones
throughout. The values named have to be there, as the elements of a list are, and texts that are not
known have to be such as can be found out, as they are in every state that an interpreter comes to.

**Proof sketch.** Where there are no items, nothing happens. Otherwise the variables are bound for
the first time, so that their names are known afterwards, and the loop goes on with what is left. -/
theorem foreach_snapshot [HostCommands κ] (hhost : HostCommands.Retain κ) (bound : Nat)
    {word names list body : Ref} {vars items : List Ref} {s : Interp κ} {v w : Store}
    (hfounded : s.values.Founded)
    (hnames : Store.asList names s.values = .ok vars v)
    (hlist : Store.asList list v = .ok items w)
    (hvars : vars ≠ []) (hthere : ∀ r ∈ vars, r.index < w.cells.size) :
    ∃ k t, Rounded (Interp.engine bound) body (vars.map w.wording) items ⟨w, s.context⟩ k t ∧
      Ends (Interp.engine bound) body (vars.map w.wording) items k t
        (Builtin.foreach (Interp.engine bound) [word, names, list, body] s) := by
  have hE : (Interp.engine bound : Engine κ).Retains := Interp.retains_engine hhost bound
  have hv : v.Founded := by
    have hconverted := hfounded.asList names
    rwa [hnames] at hconverted
  have hw : w.Founded := by
    have hconverted := hv.asList list
    rwa [hlist] at hconverted
  obtain ⟨var, others, rfl⟩ := List.exists_cons_of_ne_nil hvars
  -- both lists are fetched before the first round, and not again
  have hloop : Builtin.foreach (Interp.engine bound) [word, names, list, body] s =
      loopOver (Interp.engine bound) (var :: others) body (chunks others.length items)
        ⟨w, s.context⟩ :=
    (bind_of_ok (liftConv_of_ok hnames)).trans (bind_of_ok (liftConv_of_ok hlist))
  rw [hloop]
  have hsize : ((var :: others).map w.wording).length = others.length + 1 := by
    rw [List.length_map, List.length_cons]
  cases items with
  | nil =>
    refine ⟨0, _, .start, ?_⟩
    rw [chunks]
    exact .done (Nat.le_antisymm (Nat.zero_le _)
      (roundCount_le (hsize ▸ Nat.succ_pos _) List.drop_nil))
  | cons a rest =>
    have hanswers : List.Forall₂ (Store.Answers w w) (var :: others)
        ((var :: others).map w.wording) := by
      refine List.forall₂_map_right_iff.2 (List.forall₂_same.2 fun r hr => ?_)
      exact Store.answers_wording hw (hthere r hr)
    -- to bind the variables is to ask for their names, which are known from then on
    obtain ⟨u, hbind, hknown, hdealt⟩ :=
      bindLoopVars_apply (s := (⟨w, s.context⟩ : Interp κ)) (a :: rest.take others.length) hanswers
    refine completes_cons hE hsize .start ?_ hbind hknown hdealt fun w' => ?_
    · rw [Nat.zero_mul, List.drop_zero]
    · exact completes_left hE hsize

/-- Three values for two variables, one of which is named by a number that was computed, and a body
that breaks the loop. -/
def pairsOfThree : Interp Empty where
  values :=
    let texts := (Store.ofTexts ["x", "1", "2", "3", "break"] {}).2
    let number := (Store.ofInt 7 texts).2
    (Store.ofList [⟨1⟩, ⟨2⟩, ⟨3⟩] (Store.ofList [⟨0⟩, ⟨5⟩] number).2).2
  context := (Interp.standard : Interp Empty).context

/-- The rounds of a loop over three values, two at a time. -/
theorem foreach_snapshot_pairsOfThree :
    pairsOfThree.values.Founded ∧ [(⟨0⟩ : Ref), ⟨5⟩] ≠ [] ∧
      (∀ r ∈ [(⟨0⟩ : Ref), ⟨5⟩], r.index < pairsOfThree.values.cells.size) ∧
      ∃ k t, Rounded (Interp.engine 5) ⟨4⟩ ["x", "7"] [⟨1⟩, ⟨2⟩, ⟨3⟩] pairsOfThree k t ∧
        Ends (Interp.engine 5) ⟨4⟩ ["x", "7"] [⟨1⟩, ⟨2⟩, ⟨3⟩] k t
          (Builtin.foreach (Interp.engine 5) [⟨4⟩, ⟨6⟩, ⟨7⟩, ⟨4⟩] pairsOfThree) := by
  have htexts : (Store.ofTexts ["x", "1", "2", "3", "break"] {}).2.Founded :=
    (Store.appends_ofTexts _ _).founded Store.founded_empty
  have hnumber := htexts.alloc (c := { text := none, rep := .int 7 }) (by nofun) (by nofun)
  have hlist := hnumber.alloc (c := { text := none, rep := .list (.ofList [⟨0⟩, ⟨5⟩]) })
    (fun _ => by decide) (by nofun)
  have hfounded : pairsOfThree.values.Founded :=
    hlist.alloc (c := { text := none, rep := .list (.ofList [⟨1⟩, ⟨2⟩, ⟨3⟩]) })
      (fun _ => by decide) (by nofun)
  have hnames : Store.asList ⟨6⟩ pairsOfThree.values = .ok [⟨0⟩, ⟨5⟩] pairsOfThree.values := rfl
  have hlist : Store.asList ⟨7⟩ pairsOfThree.values = .ok [⟨1⟩, ⟨2⟩, ⟨3⟩] pairsOfThree.values := rfl
  have hvars : [(⟨0⟩ : Ref), ⟨5⟩] ≠ [] := List.cons_ne_nil _ _
  have hthere : ∀ r ∈ [(⟨0⟩ : Ref), ⟨5⟩], r.index < pairsOfThree.values.cells.size := by decide
  have hwordings : [(⟨0⟩ : Ref), ⟨5⟩].map pairsOfThree.values.wording = ["x", "7"] := by decide
  refine ⟨hfounded, hvars, hthere, ?_⟩
  rw [← hwordings]
  exact foreach_snapshot HostCommands.retain_empty 5 hfounded hnames hlist hvars hthere

end Rounds

end Builtin

end CommandScript
