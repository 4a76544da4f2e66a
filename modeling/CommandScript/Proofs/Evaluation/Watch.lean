import CommandScript.Proofs.Evaluation.Signals

/-!
# Evaluation that is watched

What goes on within an evaluation does not show in its outcome. To say something about it, the
evaluation is *watched*: something is done before each command is dispatched, and something is done
wherever the reading of a script does not come to an end, however deep that happens. A watch does
not disturb the evaluation if it does nothing as long as evaluation is nested no deeper than it may
be; then the outcome is that of the evaluation itself. So a watch that stops the evaluation where a
command is dispatched too deep is never set off.

## Main definitions

* `Watch` — what is done within an evaluation.
* `Watch.runScript`, `Watch.evalNested`, `Watch.evaluate` — evaluation that is watched.
* `Watch.Quiet` — the watch does nothing where evaluation is nested no deeper than it may be.
* `Watch.idle`, `Watch.ofDepth` — watches that are quiet.

## Main results

* `Interp.Run.limit_eq` — evaluation does not change how deep it may be nested.
* `Watch.Quiet.evaluate_eq` — a quiet watch does not disturb.
-/

set_option autoImplicit false

namespace CommandScript

open EvalM
open Interp (Run)

/-! ## Watches -/

/-- What is done within an evaluation. -/
structure Watch (κ : Type) where
  /-- What is done before a command is dispatched. -/
  beforeCall : EvalM κ Unit
  /-- What is done where the reading of a script does not come to an end. -/
  whenStuck : EvalM κ (Script Ref)

namespace Watch

section Evaluation

variable {κ : Type} [HostCommands κ]

mutual

/-- Runs the commands of a script, and is watched. `last` is the result of the commands before. -/
def runScript (W : Watch κ) (E : Engine κ) (last : Option Ref) :
    List (List (Word Ref)) → EvalM κ Ref
  | [] => Command.resultOf last
  | words :: rest => do
    let argv ← W.evalWords E words
    W.beforeCall
    let r ← Interp.runCommand E argv
    W.runScript E (some r) rest

/-- Evaluates words from left to right, and is watched. -/
def evalWords (W : Watch κ) (E : Engine κ) : List (Word Ref) → EvalM κ (List Ref)
  | [] => return []
  | w :: rest => do
    let r ← W.evalWord E w
    let rs ← W.evalWords E rest
    return r :: rs

/-- Evaluates a word, and is watched. -/
def evalWord (W : Watch κ) (E : Engine κ) : Word Ref → EvalM κ Ref
  | .literal r => return r
  | .var name => getVar name (-1)
  | .substitution script => W.runScript E none script
  | .joined parts => do
    match ← W.evalWords E parts with
    | [r] => return r
    | rs =>
      let texts ← (Store.texts rs : StoreM (List String))
      (Store.ofText (texts.foldr (· ++ ·) "") : StoreM Ref)

end

/-- The script that a value is, if reading it comes to an end. -/
def scriptOf (W : Watch κ) (r : Ref) : EvalM κ (Script Ref) := do
  match ← (Store.asScript r : StoreM (Script.Outcome (Script Ref))) with
  | .done script => return script
  | .failed e => fail (.script e)
  | .stuck => W.whenStuck

/-- Evaluates a value as a script, one level deeper, and is watched. -/
def evalNested (W : Watch κ) (E : Engine κ) (r : Ref) : EvalM κ Ref := do
  let c ← getContext
  if c.limit < c.level + 1 then fail .nestingTooDeep
  else
    modifyContext fun c => { c with level := c.level + 1 }
    let outcome ← observe (W.scriptOf r >>= W.runScript E none)
    modifyContext fun c => { c with level := c.level - 1 }
    Interp.release outcome

/-- Evaluates a value as a script with a bound, and is watched, as is all that is nested in it. -/
def evaluate (W : Watch κ) : Nat → Ref → EvalM κ Ref
  | 0, _ => throw .diverged
  | bound + 1, r => W.evalNested ⟨fun r => W.evaluate bound r, bound⟩ r

end Evaluation

end Watch

/-! ## How deep evaluation is nested -/

namespace Interp

variable {κ : Type} {A : Builtin → Prop} {s t : Interp κ}

/-- Evaluation does not change how deep it may be nested. -/
lemma Run.limit_eq (h : Run A s t) : t.context.limit = s.context.limit := by
  induction h with
  | trans _ _ ih ih' => exact ih'.trans ih
  | call _ ih => exact ih
  | nest _ ih => exact ih
  | upeval _ _ _ ih => exact ih
  | _ => rfl

/-- Evaluation is nested no deeper than it may be. -/
def WithinLimit (s : Interp κ) : Prop :=
  s.context.level ≤ s.context.limit

/-- A run that begins within the limit stays within it. -/
lemma Run.withinLimit (h : Run A s t) (hs : s.WithinLimit) : t.WithinLimit := by
  have hlevel := h.sameHeight.level
  have hlimit := h.limit_eq
  unfold WithinLimit at hs ⊢
  omega

end Interp

open Interp (WithinLimit)

namespace EvalM

variable {κ α β : Type} {s : Interp κ}

/-- What comes second need be the same only where the first may come to. -/
lemma bind_eq_bind {m m' : EvalM κ α} {f f' : α → EvalM κ β} (hs : s.WithinLimit)
    (hm : m s = m' s) (ht : Traced (fun _ => True) m')
    (hf : ∀ a t, WithinLimit t → f a t = f' a t) : (m >>= f) s = (m' >>= f') s := by
  have hout := ht s (.all s)
  cases h : m' s with
  | ok a t =>
    rw [h] at hm hout
    have hrun : Run (fun _ => True) s t := hout
    rw [bind_of_ok hm, bind_of_ok h]
    exact hf a t (hrun.withinLimit hs)
  | error e t =>
    rw [h] at hm
    rw [bind_of_error hm, bind_of_error h]

/-- What is observed of two computations is the same if they do the same. -/
lemma observe_eq_observe {m m' : EvalM κ α} (hm : m s = m' s) : observe m s = observe m' s := by
  unfold observe
  rw [hm]

end EvalM

/-! ## Quiet watches -/

namespace Watch

/-- Nothing is done where evaluation is nested no deeper than it may be, and if reading does not
come to an end, neither does evaluation. -/
structure Quiet {κ : Type} (W : Watch κ) : Prop where
  /-- Nothing is done before a command is dispatched. -/
  beforeCall : ∀ s, WithinLimit s → W.beforeCall s = .ok () s
  /-- Evaluation gets stuck where reading does. -/
  whenStuck : W.whenStuck = throw .diverged

variable {W : Watch Empty} {E : Engine Empty}

mutual

/-- A watch that is quiet does not disturb the commands of a script. -/
theorem Quiet.runScript_eq (hW : W.Quiet) (hE : ∀ r, Traced (fun _ => True) (E.eval r))
    (last : Option Ref) :
    ∀ script s, WithinLimit s → W.runScript E last script s = Interp.runScript E last script s
  | [], _, _ => rfl
  | words :: rest, s, hs => by
    refine bind_eq_bind hs (hW.evalWords_eq hE words s hs) (Interp.traced_evalWords hE words)
      fun argv t ht => ?_
    rw [bind_of_ok (hW.beforeCall t ht)]
    exact bind_eq_bind ht rfl (Interp.traced_runCommand hE argv) fun r u hu =>
      hW.runScript_eq hE (some r) rest u hu

/-- A quiet watch changes no evaluation of words. -/
theorem Quiet.evalWords_eq (hW : W.Quiet) (hE : ∀ r, Traced (fun _ => True) (E.eval r)) :
    ∀ words s, WithinLimit s → W.evalWords E words s = Interp.evalWords E words s
  | [], _, _ => rfl
  | w :: rest, s, hs =>
    bind_eq_bind hs (hW.evalWord_eq hE w s hs) (Interp.traced_evalWord hE w) fun _ t ht =>
      bind_eq_bind ht (hW.evalWords_eq hE rest t ht) (Interp.traced_evalWords hE rest)
        fun _ _ _ => rfl

/-- Nor of a single word. -/
theorem Quiet.evalWord_eq (hW : W.Quiet) (hE : ∀ r, Traced (fun _ => True) (E.eval r)) :
    ∀ w s, WithinLimit s → W.evalWord E w s = Interp.evalWord E w s
  | .literal _, _, _ => rfl
  | .var _, _, _ => rfl
  | .substitution script, s, hs => hW.runScript_eq hE none script s hs
  | .joined parts, s, hs =>
    bind_eq_bind hs (hW.evalWords_eq hE parts s hs) (Interp.traced_evalWords hE parts)
      fun _ _ _ => rfl

end

/-- Nor of a value that is read as a script. -/
lemma Quiet.scriptOf_eq (hW : W.Quiet) (r : Ref) : W.scriptOf r = Interp.scriptOf r := by
  refine bind_congr fun outcome => ?_
  cases outcome with
  | done script => rfl
  | failed e => rfl
  | stuck => exact hW.whenStuck

/-- One level deeper, evaluation is still nested no deeper than it may be, as this has been checked
before. -/
lemma Quiet.evalNested_eq (hW : W.Quiet) (hE : ∀ r, Traced (fun _ => True) (E.eval r)) (r : Ref) :
    W.evalNested E r = Interp.evalNested E r := by
  funext ⟨v, c⟩
  rw [Interp.evalNested_apply]
  unfold evalNested
  rw [getContextBind_apply]
  by_cases hlimit : c.limit < c.level + 1
  · rw [if_pos hlimit, if_pos hlimit]
  · rw [if_neg hlimit, if_neg hlimit]
    have hs : WithinLimit (⟨v, { c with level := c.level + 1 }⟩ : Interp Empty) :=
      Nat.le_of_not_lt hlimit
    have hscript : (W.scriptOf r >>= W.runScript E none) ⟨v, { c with level := c.level + 1 }⟩ =
        (Interp.scriptOf r >>= Interp.runScript E none) ⟨v, { c with level := c.level + 1 }⟩ := by
      rw [hW.scriptOf_eq]
      exact bind_eq_bind hs rfl (Interp.traced_scriptOf r) (hW.runScript_eq hE none)
    have henter : (modifyContext fun c => { c with level := c.level + 1 } :
        EvalM Empty Unit) ⟨v, c⟩ = .ok () ⟨v, { c with level := c.level + 1 }⟩ := rfl
    rw [bind_of_ok henter, bind_of_ok henter]
    have hobserve := observe_eq_observe hscript
    cases h : observe (Interp.scriptOf r >>= Interp.runScript E none)
        ⟨v, { c with level := c.level + 1 }⟩ with
    | ok outcome t => rw [bind_of_ok h, bind_of_ok (hobserve.trans h)]
    | error e t => rw [bind_of_error h, bind_of_error (hobserve.trans h)]

/-- **A quiet watch does not disturb evaluation.**

**Proof sketch.** Induction on the bound. Evaluation starts the commands of a script only where it
is nested no deeper than it may be, and comes back to the same level after each of them. -/
theorem Quiet.evaluate_eq (hW : W.Quiet) (bound : Nat) :
    W.evaluate bound = Interp.evaluate bound := by
  induction bound with
  | zero => rfl
  | succ bound ih =>
    funext r
    change W.evalNested ⟨W.evaluate bound, bound⟩ r = Interp.evalNested ⟨_, bound⟩ r
    rw [ih]
    exact hW.evalNested_eq (Interp.traced_evaluate bound) r

/-- Nothing is done. -/
def idle {κ : Type} : Watch κ :=
  ⟨pure (), throw .diverged⟩

/-- To watch nothing is quiet. -/
lemma quiet_idle : (idle : Watch Empty).Quiet :=
  ⟨fun _ _ => rfl, rfl⟩

/-- If a command is dispatched deeper than evaluation may be nested, the evaluation stops. -/
def ofDepth {κ : Type} (stop : Stop) : Watch κ where
  beforeCall := do
    let c ← getContext
    if c.limit < c.level then throw stop
  whenStuck := throw .diverged

/-- A watch over the depth of nesting is quiet, as long as nesting stays within the limit. -/
lemma quiet_ofDepth (stop : Stop) : (ofDepth stop : Watch Empty).Quiet where
  beforeCall s hs := by
    have hdepth : ¬ s.context.limit < s.context.level := Nat.not_lt.2 hs
    change (if s.context.limit < s.context.level then throw stop else pure () :
      EvalM Empty Unit) s = .ok () s
    rw [if_neg hdepth]
    rfl
  whenStuck := rfl

end Watch

end CommandScript
