import CommandScript.Proofs.Evaluation.Scripted

/-!
# Evaluation takes no known text away

Whatever a script does, the text of a value that was known before is its text afterwards: evaluation
touches the values only by making new ones, by asking for texts and by converting. This holds on
every way out, also where the program is to end or time has run out. So it is not enough to look at
what a computation returns; the predicate here speaks of the state in which it ends.

The commands of an application are given by the application. All that is asked of them is that they,
too, take no text away, if the scripts that they evaluate do not.

## Main definitions

* `EvalM.Retains` — the computation takes no known text away, whatever its outcome.
* `Engine.Retains` — nor does the evaluation of scripts.
* `HostCommands.Retain` — nor do the commands of an application.

## Main results

* `EvalM.Scriptless.retains` — what runs no script.
* `EvalM.Scripted.retains` — what runs scripts.
* `Interp.retains_evaluate` — evaluation.
-/

set_option autoImplicit false

namespace CommandScript

/-! ## Computations -/

namespace EvalM

variable {κ α β : Type}

/-- The computation takes no known text away, whatever its outcome. -/
def Retains (m : EvalM κ α) : Prop :=
  ∀ s : Interp κ, s.values.Retained (finalState (m s)).values

/-- One thing after another, where the first has had a result. -/
lemma Retains.bindOf {m : EvalM κ α} {f : α → EvalM κ β} (hm : Retains m)
    (hf : ∀ a s t, m s = .ok a t → Retains (f a)) : Retains (m >>= f) := by
  intro s
  have hs := hm s
  cases h : m s with
  | ok a t =>
    rw [h] at hs
    rw [bind_of_ok h]
    exact hs.trans (hf a s t h t)
  | error e t =>
    rw [h] at hs
    rw [bind_of_error h]
    exact hs

/-- Making an exception a result changes nothing. -/
lemma Retains.observe {m : EvalM κ α} (hm : Retains m) : Retains (observe m) := by
  intro s
  have hs := hm s
  unfold EvalM.observe
  cases h : m s with
  | ok a t =>
    rw [h] at hs
    exact hs
  | error e t =>
    rw [h] at hs
    cases e with
    | raised e => exact hs
    | exited status => exact hs
    | fault => exact hs
    | diverged => exact hs

/-- To raise an error is to make values. -/
lemma retains_fail (f : Failure) : Retains (fail f : EvalM κ α) :=
  fun s => (Exception.adds_ofFailure f s.values).retained

/-- A conversion keeps the texts, and so does the error for its failure. -/
lemma Retains.liftConv {m : ConvM α} (hm : m.Retains) : Retains (liftM m : EvalM κ α) := by
  rintro ⟨v, c⟩
  have hv := hm v
  rw [liftConv_apply]
  cases h : m v with
  | ok a values =>
    rw [h] at hv
    exact hv
  | error f values =>
    rw [h] at hv
    exact hv.trans (retains_fail (α := α) f ⟨values, c⟩)

/-- The texts are not in the context. -/
lemma retains_modifyContext (f : Context κ → Context κ) : Retains (modifyContext f) :=
  fun _ => .refl _

/-- Nor does it matter how the context is replaced. -/
lemma retains_update (f : Context κ → Except Failure (Context κ)) : Retains (update f) := by
  rintro ⟨v, c⟩
  unfold update
  dsimp only
  split
  · exact .refl _
  next e _ => exact retains_fail (α := Unit) e ⟨v, c⟩

/-- What is done with the context before and after does not concern the texts. -/
lemma retains_bracket {enter : Context κ → Except Failure (Context κ × (Context κ → Context κ))}
    {m : EvalM κ α} {k : Except Exception α → EvalM κ β} (hm : Retains m)
    (hk : ∀ outcome, Retains (k outcome)) : Retains (bracket enter m k) := by
  rintro ⟨v, c⟩
  unfold bracket
  dsimp only
  split
  next f _ => exact retains_fail (α := β) f ⟨v, c⟩
  next c' leave _ =>
    refine Retains.bindOf (retains_modifyContext _) (fun _ _ _ _ => ?_) ⟨v, c⟩
    refine hm.observe.bindOf fun outcome _ _ _ => ?_
    exact (retains_modifyContext leave).bindOf fun _ _ _ _ => hk outcome

/-- **What runs no script takes no known text away.**

**Proof sketch.** Induction on how it is put together. That the steps with values take none away is
a part of what it means to run no script. -/
theorem Scriptless.retains {A : Builtin → Prop} {e : Effects} {m : EvalM κ α}
    (h : Scriptless A e m) : Retains m := by
  induction h with
  | values _ hretains => exact fun s => hretains s.values
  | convert _ hretains => exact .liftConv hretains
  | fail f => exact retains_fail f
  | raise _ hretains _ => exact fun s => hretains s.values
  | update f => exact retains_update f
  | bindOf _ _ ihm ihf => exact ihm.bindOf ihf
  | weaken _ _ ih => exact ih
  | _ => exact fun _ => .refl _

end EvalM

open EvalM

/-! ## Engines -/

/-- The evaluation of scripts takes no known text away. -/
def Engine.Retains {κ : Type} (E : Engine κ) : Prop :=
  ∀ r, (E.eval r).Retains

/-- The commands of the application take no known text away, if the scripts that they evaluate do
not. -/
def HostCommands.Retain (κ : Type) [HostCommands κ] : Prop :=
  ∀ (E : Engine κ), E.Retains → ∀ (action : κ) argv, (HostCommands.run E action argv).Retains

/-- Where there are no commands of an application, none takes anything away. -/
lemma HostCommands.retain_empty : HostCommands.Retain Empty :=
  fun _ _ action => action.elim

/-- A truth value is a text that says so, or what a script has as its result. -/
lemma Builtin.retains_condition {κ : Type} {E : Engine κ} (hE : E.Retains) (cond : Ref) :
    Retains (condition E cond) := by
  have hbool : Retains (liftM (Store.bool? cond) : EvalM κ (Option Bool)) :=
    fun s => Store.retains_bool? cond s.values
  refine hbool.bindOf fun known _ _ _ => ?_
  cases known with
  | some b => exact fun _ => .refl _
  | none => exact (hE cond).bindOf fun r _ _ _ => .liftConv (Store.retains_asBool r)

/-! ## Evaluation -/

variable {κ : Type} [HostCommands κ]

/-- **What runs scripts takes no known text away**, if its engine and the commands of the
application do not.

**Proof sketch.** Induction on how it is put together. -/
theorem EvalM.Scripted.retains {E : Engine κ} {α : Type} {m : EvalM κ α}
    (h : Scripted (fun _ => True) (fun _ => True) E m) (hhost : HostCommands.Retain κ)
    (hE : E.Retains) : Retains m := by
  induction h with
  | scriptless h => exact h.retains
  | eval r => exact hE r
  | host action argv => exact hhost E hE action argv
  | context _ ih => exact fun s => ih s.context (fun _ _ _ _ _ => trivial) s
  | resolve tag _ ih =>
    exact fun ⟨v, c⟩ => ih (c.typeCommands.resolve tag).1 (fun _ _ _ _ => trivial)
      ⟨v, { c with typeCommands := (c.typeCommands.resolve tag).2 }⟩
  | observe _ ih => exact ih.observe
  | bracket _ _ _ _ ihm ihk => exact retains_bracket ihm ihk
  | bindOf _ _ ihm ihf => exact ihm.bindOf ihf
  | _ => exact fun _ => .refl _

namespace Interp

/-- **Evaluation takes no known text away**, whatever the bound.

**Proof sketch.** Induction on the bound: what is nested is evaluated with a smaller one. -/
theorem retains_evaluate (hhost : HostCommands.Retain κ) (bound : Nat) (r : Ref) :
    Retains (evaluate bound r : EvalM κ Ref) := by
  induction bound generalizing r with
  | zero => exact fun _ => .refl _
  | succ bound ih =>
    exact Scripted.retains (scripted_evalNested trivial trivial r) hhost ih

/-- The engine of an interpreter evaluates with a bound. -/
lemma retains_engine (hhost : HostCommands.Retain κ) (bound : Nat) :
    (engine bound : Engine κ).Retains :=
  retains_evaluate hhost bound

end Interp

end CommandScript
