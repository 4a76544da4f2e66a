import CommandScript.Proofs.Evaluation.Trace
import CommandScript.Proofs.Scope.Frames

/-!
# Evaluation leaves the stack of frames as it was

A script may call procedures, evaluate scripts at other levels and be left by errors and signals at
any point; when its evaluation returns, the stack of frames is as high as before and the evaluation
is nested as deeply as before. Evaluation at another level moreover leaves the frames above that
level alone, each at its place.

## Main definitions

* `EvalM.OnReturn` — what holds of the interpreter when a computation returns.
* `Interp.SameHeight` — two interpreters are equally high and equally deep.

## Main results

* `Interp.Run.sameHeight` — whatever evaluation may do keeps the height.
* `Interp.stack_restored` — evaluation, here and at another level.
-/

set_option autoImplicit false

namespace CommandScript

open Interp (Run)

namespace EvalM

variable {κ α β : Type} {A : Builtin → Prop}

/-- What holds of the interpreter if the computation returns: with a result, or with an error or a
signal. -/
def OnReturn (P : Interp κ → Prop) : EStateM.Result Stop (Interp κ) α → Prop
  | .ok _ t => P t
  | .error (.raised _) t => P t
  | .error _ _ => True

/-- What every run keeps holds where a computation returns. -/
lemma OnReturn.of_tracedFrom {P : Interp κ → Prop} {s : Interp κ}
    {o : EStateM.Result Stop (Interp κ) α} (h : TracedFrom (fun _ => True) s o)
    (hP : ∀ t, Run (fun _ => True) s t → P t) : OnReturn P o := by
  have ho := h (.all s)
  cases o with
  | ok a t => exact hP t ho
  | error e t =>
    cases e with
    | raised e => exact hP t ho
    | exited status => trivial
    | fault => trivial
    | diverged => trivial

/-- What holds when a nested change returns follows from what holds when what is nested returns, if
what comes after it keeps it. -/
lemma onReturn_nested {P : Interp κ → Prop} {v : Store} {c : Context κ} {m : EvalM κ α}
    {k : Except Exception α → EvalM κ β} (enter leave : Context κ → Context κ)
    (hin : Interp.Within A ⟨v, enter c⟩) (hm : Traced A m)
    (hk : ∀ x t, P t → OnReturn P (k x t))
    (hP : ∀ t : Interp κ, Run A ⟨v, enter c⟩ t → P ⟨t.values, leave t.context⟩) :
    OnReturn P ((do
      modifyContext enter
      let result ← observe m
      modifyContext leave
      k result) ⟨v, c⟩) := by
  have hs := hm ⟨v, enter c⟩ hin
  change OnReturn P (EStateM.bind (observe m)
    (fun result => modifyContext leave >>= fun _ => k result) ⟨v, enter c⟩)
  unfold EStateM.bind observe
  cases ho : m ⟨v, enter c⟩ with
  | ok a t =>
    rw [ho] at hs
    exact hk (.ok a) ⟨t.values, leave t.context⟩ (hP t hs)
  | error e t =>
    rw [ho] at hs
    cases e with
    | raised e => exact hk (.error e) ⟨t.values, leave t.context⟩ (hP t hs)
    | exited status => trivial
    | fault => trivial
    | diverged => trivial

/-- To conclude changes nothing. -/
lemma onReturn_conclude {P : Interp κ → Prop} (x : Except Exception α) (t : Interp κ) (ht : P t) :
    OnReturn P ((conclude x : EvalM κ α) t) := by
  cases x with
  | ok a => exact ht
  | error e => exact ht

end EvalM

namespace Interp

variable {κ : Type} {A : Builtin → Prop}

/-- There are as many frames, and evaluation is nested as deeply. -/
structure SameHeight (s t : Interp κ) : Prop where
  /-- There are as many frames. -/
  depth : t.context.scopes.depth = s.context.scopes.depth
  /-- Evaluation is nested as deeply. -/
  level : t.context.level = s.context.level

/-- The height is that of the same interpreter. -/
lemma SameHeight.refl (s : Interp κ) : SameHeight s s :=
  ⟨rfl, rfl⟩

/-- Heights may be compared by way of a third interpreter. -/
lemma SameHeight.trans {s t u : Interp κ} (h : SameHeight s t) (h' : SameHeight t u) :
    SameHeight s u :=
  ⟨h'.depth.trans h.depth, h'.level.trans h.level⟩

/-- **Whatever evaluation may do keeps the height.**

**Proof sketch.** Induction on what is done. A nested change starts one frame or level higher, or
some frames lower, and by induction ends so; leaving it undoes the difference. -/
lemma Run.sameHeight {s t : Interp κ} (h : Run A s t) : SameHeight s t := by
  induction h with
  | refl s => exact .refl s
  | trans _ _ ih ih' => exact ih.trans ih'
  | set name r h => exact ⟨ScopeStack.depth_of_set h, rfl⟩
  | unset name h => exact ⟨ScopeStack.depth_of_unset h, rfl⟩
  | link name hA => exact ⟨ScopeStack.depth_linkGlobal _ name, rfl⟩
  | call _ ih => exact ⟨ScopeStack.depth_pop_of_depth_push ih.depth, ih.level⟩
  | nest _ ih => exact ⟨ih.depth, congrArg (· - 1) ih.level⟩
  | upeval _ _ _ ih => exact ⟨ScopeStack.depth_pushMany_popMany ih.depth, ih.level⟩
  | values h => exact ⟨rfl, rfl⟩
  | define name p => exact ⟨rfl, rfl⟩
  | rename old new h => exact ⟨rfl, rfl⟩
  | addAlias old new h => exact ⟨rfl, rfl⟩
  | resolve tag => exact ⟨rfl, rfl⟩
  | note errorStack => exact ⟨rfl, rfl⟩
  | write output console => exact ⟨rfl, rfl⟩
  | tick => exact ⟨rfl, rfl⟩

open EvalM

/-- A bad level is an error, and the context is untouched. -/
lemma evalAt_of_badLevel (E : Engine κ) (script : Ref) {level : Int} {s : Interp κ}
    (h : s.context.scopes.evalPlace? level = .error (.badLevel level)) :
    ∃ (e : Exception) (values : Store),
      Builtin.evalAt E script level s = .error (.raised e) ⟨values, s.context⟩ ∧
        e.code = .error ∧ e.message = (Failure.badLevel level).message := by
  obtain ⟨v, c⟩ := s
  rw [Builtin.evalAt_apply, h]
  exact ⟨_, _, rfl, rfl, rfl⟩

/-- **Evaluation at another level leaves the frames above it alone**, each at its place.

**Proof sketch.** The script is evaluated with the frames above taken off, and by the previous lemma
ends with as many frames as were left; then the frames taken off are put back on top of these. -/
lemma onReturn_evalAt {E : Engine κ} (hE : ∀ r, Traced (fun _ => True) (E.eval r)) (script : Ref)
    {level : Int} {place : Nat} {s : Interp κ}
    (hplace : s.context.scopes.evalPlace? level = .ok place)
    (hdepth : place < s.context.scopes.depth) :
    OnReturn (fun t => SameHeight s t ∧
      ∀ i, place < i → t.context.scopes.frame i = s.context.scopes.frame i)
      (Builtin.evalAt E script level s) := by
  obtain ⟨v, c⟩ := s
  rw [Builtin.evalAt_apply, hplace]
  refine onReturn_nested _ _ (.all _) (hE script) onReturn_conclude fun t h => ?_
  have hsame := h.sameHeight
  have hcount : c.scopes.depth - 1 - place < c.scopes.depth := by
    dsimp only at hdepth
    omega
  refine ⟨⟨ScopeStack.depth_pushMany_popMany hsame.depth, hsame.level⟩, fun i hi => ?_⟩
  refine ScopeStack.frame_pushMany_popMany hcount hsame.depth ?_
  dsimp only at hdepth
  omega

/-- **The stack of frames is restored.** In any state of an interpreter without commands of an
application, and for every script:

* when evaluation returns, with a result, an error or a signal, there are as many frames as before
  and evaluation is nested as deeply as before;
* when evaluation at another level returns, this holds as well, and every frame above the one that
  the level means is the same and at the same place;
* if the level means no frame, the answer is the error that says so, and all but the values is
  untouched. -/
theorem stack_restored (bound : Nat) (script : Ref) (s : Interp Empty) :
    OnReturn (SameHeight s) (evaluate bound script s) ∧
      ∀ level : Int32,
        match s.context.scopes.evalPlace? level.toInt with
        | .ok place =>
          OnReturn (fun t => SameHeight s t ∧
            ∀ i, place < i → t.context.scopes.frame i = s.context.scopes.frame i)
            (Builtin.evalAt (engine bound) script level.toInt s)
        | .error _ => ∃ (e : Exception) (values : Store),
          Builtin.evalAt (engine bound) script level.toInt s =
            .error (.raised e) ⟨values, s.context⟩ ∧
          e.code = .error ∧ e.message = (Failure.badLevel level.toInt).message := by
  refine ⟨.of_tracedFrom (traced_evaluate bound script s) fun t h => h.sameHeight, fun level => ?_⟩
  obtain ⟨place, hplace, hdepth⟩ | hbad := s.context.scopes.evalPlace?_cases level.toInt
  · rw [hplace]
    exact onReturn_evalAt (traced_evaluate bound) script hplace hdepth
  · rw [hbad]
    exact evalAt_of_badLevel (engine bound) script hbad

end Interp

end CommandScript
