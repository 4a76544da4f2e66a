import CommandScript.Proofs.Evaluation.Signals

/-!
# Exceptions that are new

What runs no script raises no exception of something else: if it raises an exception, then one of
its own, which has unwound through no command yet. So it is with the access to variables and
commands, the search for a command, the binding of parameters, and each command that runs no script.

## Main definitions

* `EvalM.RaisesNew` — the computation raises nothing but new exceptions.

## Main results

* `EvalM.Scriptless.raisesNew` — what runs no script raises new exceptions only.
* `EvalM.exists_settle_of_forLoop` — where a signal to a loop becomes an error, the error is new.
-/

set_option autoImplicit false

namespace CommandScript

namespace EvalM

variable {κ α : Type}

/-- Nothing but new exceptions are raised, that have unwound through no command. -/
abbrev RaisesNew (m : EvalM κ α) : Prop :=
  Throws (fun e => e.frames = []) m

/-- The error for a failure is made when it is raised. -/
lemma raisesNew_fail (f : Failure) : RaisesNew (fail f : EvalM κ α) :=
  fun _ => rfl

/-- If a conversion fails, the error for that is raised. -/
lemma RaisesNew.liftConv (m : ConvM α) : RaisesNew (liftM m : EvalM κ α) := by
  rintro ⟨v, c⟩
  rw [liftConv_apply]
  cases m v with
  | ok a values => trivial
  | error f values => exact raisesNew_fail f _

/-- **What runs no script raises new exceptions only.**

**Proof sketch.** Induction on how it is put together. Each step that raises an exception
makes it. -/
theorem Scriptless.raisesNew {e : Effects} {m : EvalM κ α}
    (h : Scriptless (fun _ => True) e m) : RaisesNew m := by
  induction h with
  | convert => exact .liftConv _
  | fail f => exact raisesNew_fail f
  | raise _ _ hnew => exact fun s => hnew s.values
  --  update f _|the context is replaced, or the failure is raised
  | update f _ =>
    rintro ⟨v, c⟩
    unfold EvalM.update
    dsimp only
    split
    · trivial
    next f _ => exact raisesNew_fail f _
  | bindOf _ _ ihm ihf => exact fun s => (ihm s).bind fun a t h => ihf a s t h t
  | weaken _ _ ih => exact ih
  | _ => exact fun _ => trivial

/-- A word that is not there is no exception. -/
lemma raisesNew_arg (argv : List Ref) (place : Nat) :
    RaisesNew (arg argv place : EvalM κ Ref) := by
  unfold arg
  split
  · exact .pure _
  · exact throws_fault

/-- **A signal to a loop that comes out of a procedure or of everything becomes a new error**,
whatever it has unwound through. -/
lemma exists_settle_of_forLoop {e : Exception} (h : e.ForLoop) (s : Interp κ) :
    ∃ e' t, settle (.error e) s = .error (.raised e') t ∧ e'.isError = true ∧ e'.frames = [] := by
  unfold settle
  dsimp only
  obtain hcode | hcode := h
  · rw [hcode]
    exact ⟨_, _, rfl, rfl, rfl⟩
  · rw [hcode]
    exact ⟨_, _, rfl, rfl, rfl⟩

end EvalM

end CommandScript
