import CommandScript.Proofs.Evaluation.Scripted

/-!
# Evaluation keeps to its ways

Evaluation is put together from a few kinds of steps, and each of them changes the interpreter in a
way of `Interp.Run` or not at all. So all that runs no script is traced, and what runs scripts is
traced if the evaluations of its engine are. Evaluation with a bound is an engine of this kind, by
induction on the bound, which nesting uses up.

## Main results

* `EvalM.Scriptless.traced` — what runs no script.
* `EvalM.Scripted.traced` — what runs scripts.
* `Interp.traced_evaluate` — evaluation.
-/

set_option autoImplicit false

namespace CommandScript

open Interp (Run)

/-- What is nested starts with the same commands at hand. -/
lemma Context.Nested.within {κ : Type} {A : Builtin → Prop} {v : Store} {c c' : Context κ}
    (h : c.Nested c') (hc : Interp.Within A ⟨v, c⟩) : Interp.Within A ⟨v, c'⟩ where
  byName name command hfind := hc.byName name command (h.commands ▸ hfind)
  byType tag command hfound := hc.byType tag command (h.typeCommands ▸ hfound)

namespace EvalM

variable {A : Builtin → Prop}

/-- A replacement of the context is one of those that it consists of, or a failure. -/
lemma traced_update {κ : Type} {f : Context κ → Except Failure (Context κ)}
    (h : ∀ v c c', f c = .ok c' → Run A ⟨v, c⟩ ⟨v, c'⟩) : Traced A (update f) := by
  rintro ⟨v, c⟩
  unfold update
  dsimp only
  cases hf : f c with
  | ok c' => exact fun _ => h v c c' hf
  | error e => exact traced_fail e ⟨v, c⟩

/-- **What runs no script is traced.**

**Proof sketch.** Induction on how it is put together: each kind of step is traced, and so is one
thing after another. -/
theorem Scriptless.traced {κ α : Type} {e : Effects} {m : EvalM κ α} (h : Scriptless A e m) :
    Traced A m := by
  induction h with
  | pure a => exact .pure a
  | values hgrows _ => exact .lift hgrows
  | convert hgrows _ => exact .liftConv hgrows
  | look f => exact fun s _ => .refl s
  | fail f => exact traced_fail f
  | raise hgrows _ _ => exact (Traced.lift hgrows).bind traced_raise
  | exit _ status => exact traced_throw _
  | change f h => exact fun s _ => h s.values s.context
  | update f h => exact traced_update h
  | bindOf _ _ ihm ihf => exact ihm.bindOf ihf
  | weaken _ _ ih => exact ih

/-- A bracket is a nested change. -/
lemma traced_bracket {κ α β : Type}
    {enter : Context κ → Except Failure (Context κ × (Context κ → Context κ))} {m : EvalM κ α}
    {k : Except Exception α → EvalM κ β}
    (hin : ∀ c c' leave, enter c = .ok (c', leave) → c.Nested c')
    (hrun : ∀ v c c' leave t, enter c = .ok (c', leave) →
      Run A ⟨v, c'⟩ t → Run A ⟨v, c⟩ ⟨t.values, leave t.context⟩)
    (hm : Traced A m) (hk : ∀ outcome, Traced A (k outcome)) : Traced A (bracket enter m k) := by
  rintro ⟨v, c⟩
  unfold bracket
  dsimp only
  split
  next f _ => exact traced_fail f ⟨v, c⟩
  next c' leave henter =>
    exact tracedFrom_nested _ _ (hin c c' leave henter).within hm hk fun t =>
      hrun v c c' leave t henter

/-- **What runs scripts is traced if the evaluations of its engine are.** There are no commands but
those of the language from here on.

**Proof sketch.** Induction on how it is put together. Where a command is looked up, it is among
those at hand; that was assumed in the walk. -/
theorem Scripted.traced {α : Type} {E : Engine Empty} {m : EvalM Empty α}
    (h : Scripted A (fun _ => True) E m) (hE : ∀ r, Traced A (E.eval r)) : Traced A m := by
  induction h with
  | scriptless h => exact h.traced
  | eval r => exact hE r
  | host action _ => exact action.elim
  | raise e => exact traced_raise e
  | stop _ => exact traced_throw _
  | context _ ih => exact .getContextBind ih
  | resolve tag _ ih => exact .typeCommandBind tag ih
  | observe _ ih => exact ih.observe
  | bracket hin hrun _ _ ihm ihk => exact traced_bracket hin hrun ihm ihk
  | bindOf _ _ ihm ihf => exact ihm.bindOf ihf

end EvalM

open EvalM

/-! ## Evaluation -/

namespace Interp

variable {A : Builtin → Prop} {E : Engine Empty}

/-- A command that is run, whether there are words for it or not. -/
lemma traced_runCommand (hE : ∀ r, Traced A (E.eval r)) (argv : List Ref) :
    Traced A (runCommand E argv) :=
  Scripted.traced (scripted_runCommand (fun _ => trivial) (.inr trivial)) hE

/-- Commands that are run one after another. -/
lemma traced_runScript (hE : ∀ r, Traced A (E.eval r)) (last : Option Ref) (script : Script Ref) :
    Traced A (runScript E last script) :=
  Scripted.traced (scripted_runScript (fun _ => trivial) last script (.inr trivial)) hE

/-- Words that are evaluated one after another. -/
lemma traced_evalWords (hE : ∀ r, Traced A (E.eval r)) (words : List (Word Ref)) :
    Traced A (evalWords E words) :=
  Scripted.traced (scripted_evalWords (fun _ => trivial) words (.inr trivial)) hE

/-- A word that is evaluated. -/
lemma traced_evalWord (hE : ∀ r, Traced A (E.eval r)) (w : Word Ref) :
    Traced A (evalWord E w) :=
  Scripted.traced (scripted_evalWord (fun _ => trivial) w (.inr trivial)) hE

/-- What becomes of the outcome of a nested evaluation does not depend on the engine. -/
lemma traced_release (outcome : Except Exception Ref) :
    Traced A (release outcome : EvalM Empty Ref) :=
  Scripted.traced (E := ⟨pure, 0⟩) (scripted_release outcome) .pure

/-- What a value is as a script is looked up, or read. -/
lemma traced_scriptOf (r : Ref) : Traced A (scriptOf r : EvalM Empty (Script Ref)) := by
  refine (Traced.lift (Store.grows_asScript r)).bind fun outcome => ?_
  cases outcome with
  | done script => exact .pure script
  | failed e => exact traced_fail _
  | stuck => exact traced_throw _

/-- **Evaluation is traced**, whatever the bound.

**Proof sketch.** Induction on the bound: what is nested is evaluated with a smaller one. -/
theorem traced_evaluate (bound : Nat) (r : Ref) :
    Traced A (evaluate bound r : EvalM Empty Ref) := by
  induction bound generalizing r with
  | zero => exact traced_throw _
  | succ bound ih => exact Scripted.traced (scripted_evalNested trivial trivial r) ih

end Interp

end CommandScript
