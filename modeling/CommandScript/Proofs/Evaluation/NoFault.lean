import CommandScript.Proofs.Evaluation.Trace

/-!
# No argument is used that is not there

A command uses its words by their places. It is run with a word at least, its name, since all
commands of a script have words; and the number of its arguments is checked before it is run, or by
itself. So no word is used that is not there: whatever else may end an evaluation, a fault does not.

Scripts are kept by the values that they were read from. That the commands in them have words is
therefore something that the store keeps up (`Store.Filled`), and evaluation with it.

## Main definitions

* `EvalM.NeverFaults` — the computation does not end with a fault, wherever it starts.
* `EvalM.Safe` — it does not if all commands of the scripts that are kept have words, and this is
  kept up.
* `Interp.Reachable` — the states that can come about.

## Main results

* `EvalM.Scriptless.neverFaults` — what runs no script.
* `EvalM.Scripted.safe` — what runs scripts.
* `Interp.safe_evaluate` — evaluation.
* `Interp.Reachable.evaluate_ne_fault` — evaluation does not fault, whatever happened before.
-/

set_option autoImplicit false

namespace CommandScript

namespace EvalM

variable {κ α β : Type}

/-! ## Computations without faults -/

/-- The computation does not end with a fault. -/
def NeverFaults (m : EvalM κ α) : Prop :=
  ∀ s t, m s ≠ .error .fault t

/-- One thing after another, where the first has had a result. -/
lemma NeverFaults.bindOf {m : EvalM κ α} {f : α → EvalM κ β} (hm : NeverFaults m)
    (hf : ∀ a s t, m s = .ok a t → NeverFaults (f a)) : NeverFaults (m >>= f) := by
  intro s t h
  cases hms : m s with
  | ok a u =>
    rw [bind_of_ok hms] at h
    exact hf a s u hms u t h
  | error e u =>
    rw [bind_of_error hms] at h
    cases h
    exact hm s t hms

/-- The error for a failure is no fault. -/
lemma neverFaults_fail (f : Failure) : NeverFaults (fail f : EvalM κ α) := by
  intro s t h
  cases h

/-- A conversion ends with a result, or with the error for a failure. -/
lemma NeverFaults.liftConv (m : ConvM α) : NeverFaults (liftM m : EvalM κ α) := by
  rintro ⟨v, c⟩ t h
  rw [liftConv_apply] at h
  cases hm : m v with
  | ok a values =>
    rw [hm] at h
    cases h
  | error f values =>
    rw [hm] at h
    exact neverFaults_fail f _ t h

/-- A replacement of the context ends with a result, or with the error for a failure. -/
lemma neverFaults_update (f : Context κ → Except Failure (Context κ)) :
    NeverFaults (update f) := by
  rintro ⟨v, c⟩ t h
  unfold update at h
  dsimp only at h
  split at h
  · cases h
  next e _ => exact neverFaults_fail e _ t h

/-- **What runs no script does not fault.**

**Proof sketch.** Induction on how it is put together: among the kinds of steps, there is none that
uses an argument that is not there. -/
theorem Scriptless.neverFaults {A : Builtin → Prop} {e : Effects} {m : EvalM κ α}
    (h : Scriptless A e m) : NeverFaults m := by
  induction h with
  | convert => exact .liftConv _
  | fail f => exact neverFaults_fail f
  | update f => exact neverFaults_update f
  | bindOf _ _ ihm ihf => exact ihm.bindOf ihf
  | weaken _ _ ih => exact ih
  | _ => exact fun _ _ h => nomatch h

/-! ## Computations that keep scripts in order -/

/-- The outcome is no fault, and all commands of the scripts that are kept have words. -/
def SafeOutcome : EStateM.Result Stop (Interp κ) α → Prop
  | .ok _ t => t.values.Filled
  | .error .fault _ => False
  | .error _ t => t.values.Filled

/-- If all commands of the scripts that are kept have words, the computation does not end with a
fault, and they still have. -/
def Safe (m : EvalM κ α) : Prop :=
  ∀ s : Interp κ, s.values.Filled → SafeOutcome (m s)

/-- What runs no script makes values in order only. -/
lemma Scriptless.safe {e : Effects} {m : EvalM κ α} (h : Scriptless (fun _ => True) e m) :
    Safe m := by
  intro s hs
  have hfilled := ((h.traced s).grown (.all s)).filled hs
  cases hms : m s with
  | ok a t =>
    rw [hms] at hfilled
    exact hfilled
  | error e t =>
    rw [hms] at hfilled
    cases e with
    | raised e => exact hfilled
    | exited status => exact hfilled
    | fault => exact absurd hms (h.neverFaults s t)
    | diverged => exact hfilled

/-- What comes second may depend on that the first has a result, and on where it started. -/
lemma Safe.bindOf {m : EvalM κ α} {f : α → EvalM κ β} (hm : Safe m)
    (hf : ∀ a (s t : Interp κ), s.values.Filled → m s = .ok a t → Safe (f a)) :
    Safe (m >>= f) := by
  intro s hs
  have hout := hm s hs
  cases h : m s with
  | ok a t =>
    rw [h] at hout
    rw [bind_of_ok h]
    exact hf a s t hs h t hout
  | error e t =>
    rw [h] at hout
    rw [bind_of_error h]
    cases e with
    | raised e => exact hout
    | exited status => exact hout
    | fault => exact hout
    | diverged => exact hout

/-- Making an exception a result leaves the values alone. -/
lemma Safe.observe {m : EvalM κ α} (hm : Safe m) : Safe (observe m) := by
  intro s hs
  have hout := hm s hs
  unfold EvalM.observe
  cases h : m s with
  | ok a t =>
    rw [h] at hout
    exact hout
  | error e t =>
    rw [h] at hout
    cases e with
    | raised e => exact hout
    | exited status => exact hout
    | fault => exact hout
    | diverged => exact hout

/-- The error for a failure is a value with a text. -/
lemma safe_fail (f : Failure) : Safe (fail f : EvalM κ α) :=
  Scriptless.safe (.fail f)

/-- Scripts are kept by values, not by the context. -/
lemma safe_modifyContext (f : Context κ → Context κ) : Safe (modifyContext f) :=
  fun _ hs => hs

/-- What is done before and after does not concern the scripts that are kept. -/
lemma safe_bracket {enter : Context κ → Except Failure (Context κ × (Context κ → Context κ))}
    {m : EvalM κ α} {k : Except Exception α → EvalM κ β} (hm : Safe m)
    (hk : ∀ outcome, Safe (k outcome)) : Safe (bracket enter m k) := by
  rintro ⟨v, c⟩ hs
  unfold bracket
  dsimp only
  split
  next f _ => exact safe_fail f ⟨v, c⟩ hs
  next c' leave _ =>
    refine Safe.bindOf (safe_modifyContext _) (fun _ _ _ _ _ => ?_) ⟨v, c⟩ hs
    refine hm.observe.bindOf fun outcome _ _ _ _ => ?_
    exact (safe_modifyContext leave).bindOf fun _ _ _ _ _ => hk outcome

/-- **What runs scripts does not fault**, and keeps the scripts in order, if the evaluations of its
engine do and it does not stop for a fault of its own. There are no commands but those of the
language from here on.

**Proof sketch.** Induction on how it is put together. -/
theorem Scripted.safe {E : Engine Empty} {α : Type} {m : EvalM Empty α}
    (h : Scripted (fun _ => True) (· ≠ .fault) E m) (hE : ∀ r, Safe (E.eval r)) : Safe m := by
  induction h with
  | scriptless h => exact h.safe
  | eval r => exact hE r
  | host action _ => exact action.elim
  | raise e => exact fun _ hs => hs
  | @stop _ e h =>
    cases e with
    | fault => exact absurd rfl h
    | _ => exact fun _ hs => hs
  | context _ ih => exact fun s hs => ih s.context (fun _ _ _ _ _ => trivial) s hs
  | resolve tag _ ih => exact fun s hs => ih _ (fun _ _ _ _ => trivial) _ hs
  | observe _ ih => exact ih.observe
  | bracket _ _ _ _ ihm ihk => exact safe_bracket ihm ihk
  | bindOf _ _ ihm ihf => exact ihm.bindOf fun a s t _ h => ihf a s t h

end EvalM

open EvalM
open Interp (Run)

/-! ## Evaluation -/

namespace Interp

variable {E : Engine Empty}

/-- What a value is as a script is kept by it, or has just been read. -/
lemma filled_of_scriptOf {r : Ref} {script : Script Ref} {s t : Interp Empty}
    (hs : s.values.Filled) (h : scriptOf r s = .ok script t) : Script.Filled script := by
  have hfilled : (Store.asScript r s.values).1.Filled := Store.filled_asScript r hs
  obtain ⟨outcome, u, hread, h⟩ := ok_of_bind h
  obtain rfl : (Store.asScript r s.values).1 = outcome := by
    cases hread
    rfl
  cases hscript : (Store.asScript r s.values).1 with
  | done commands =>
    rw [hscript] at h hfilled
    cases h
    exact hfilled
  | failed e =>
    rw [hscript] at h
    cases h
  | stuck =>
    rw [hscript] at h
    cases h

/-- The commands of a script that is kept all have words, so what is run is never nothing. -/
lemma safe_script (hE : ∀ r, Safe (E.eval r)) (r : Ref) :
    Safe (scriptOf r >>= runScript E none) := by
  have hread : Safe (scriptOf r : EvalM Empty (Script Ref)) :=
    Scripted.safe (scripted_scriptOf nofun r) hE
  refine hread.bindOf fun script _ _ hs h => ?_
  have hfilled := filled_of_scriptOf hs h
  exact Scripted.safe (scripted_runScript (fun _ => nofun) none script (.inl hfilled)) hE

/-- Evaluation one level deeper. -/
lemma safe_evalNested (hE : ∀ r, Safe (E.eval r)) (r : Ref) : Safe (evalNested E r) := by
  rw [evalNested_eq]
  exact safe_bracket (safe_script hE r) fun outcome => Scripted.safe (scripted_release outcome) hE

/-- **Evaluation does not fault** if the commands of the scripts that are kept all have words; and
they still have then.

**Proof sketch.** Induction on the bound: what is nested is evaluated with a smaller one. -/
theorem safe_evaluate (bound : Nat) (r : Ref) : Safe (evaluate bound r : EvalM Empty Ref) := by
  induction bound generalizing r with
  | zero => exact fun s hs => hs
  | succ bound ih => exact safe_evalNested ih r

/-- The states of an interpreter that can come about, seen from its values: there are none at first,
and then something is evaluated. What is not a value may be changed at will, so that all states
within an evaluation are among these, and all that an application can bring about. -/
inductive Reachable : Interp Empty → Prop
  | start (c : Context Empty) : Reachable ⟨{}, c⟩
  | run {s t : Interp Empty} (hs : Reachable s) (h : Run (fun _ => True) s t) : Reachable t
  | amid {s : Interp Empty} (hs : Reachable s) (c : Context Empty) : Reachable ⟨s.values, c⟩

/-- In every reachable interpreter the scripts that values hold have no empty command. -/
lemma Reachable.filled {s : Interp Empty} (hs : Reachable s) : s.values.Filled := by
  induction hs with
  | start c => exact fun _ => trivial
  | run _ h ih => exact h.grown.filled ih
  | amid _ _ ih => exact ih

/-- **No evaluation faults.** -/
theorem Reachable.evaluate_ne_fault {s : Interp Empty} (hs : Reachable s) (bound : Nat) (r : Ref)
    (t : Interp Empty) : evaluate bound r s ≠ .error .fault t := by
  intro h
  have hout := safe_evaluate bound r s hs.filled
  rw [h] at hout
  exact hout

end Interp

end CommandScript
