import CommandScript.Proofs.Evaluation.Agreement
import CommandScript.Proofs.Evaluation.Trace

/-!
# Computations that do alike

Two computations do alike if, from interpreters that agree on texts, they come to interpreters that
agree on texts, with outcomes that agree: results that do, exceptions that do, or neither comes to
an end. The rules here derive that of computations from their parts.

A computation that makes an object leaves what is said here: objects are more than texts. So some
computations do alike only if no object is made. As no object is ever lost, it is enough to look for
objects at the end.

## Main definitions

* `AlikeOutcome` — outcomes that agree.
* `EvalM.Alike` — computations that do alike.
* `EvalM.AlikeObjectFree` — computations that do alike if no object is made.

## Main results

* `EvalM.Alike.bind`, `EvalM.Alike.bindObjectFree`, `EvalM.AlikeObjectFree.bind` — computations made
  of others; `EvalM.Alike.bindEqual` and others, where the same is passed on.
* `EvalM.Alike.lift`, `EvalM.Alike.liftConv` — computations on values.
* `EvalM.Alike.observe`, `EvalM.AlikeObjectFree.observe` — catching exceptions.
-/

set_option autoImplicit false

namespace CommandScript

open Store (TextOf Coherent)
open StoreM (Exactly Each)

/-- **The outcomes of two computations agree.** Both have results, both raise exceptions, or neither
returns; where they return, there are the texts of `W` and perhaps more, by which results,
exceptions and interpreters agree. -/
inductive AlikeOutcome {α : Type} (W : World) (R : World → α → α → Prop) :
    EStateM.Result Stop (Interp Empty) α → EStateM.Result Stop (Interp Empty) α → Prop
  /-- Both have results. -/
  | ok {a b : α} {s t : Interp Empty} {W' : World} (hW : W ≤ W') (hst : SameInterp W' s t)
    (h : R W' a b) : AlikeOutcome W R (.ok a s) (.ok b t)
  /-- Both raise exceptions. -/
  | raised {e f : Exception} {s t : Interp Empty} {W' : World} (hW : W ≤ W')
    (hst : SameInterp W' s t) (h : SameException W' e f) :
    AlikeOutcome W R (.error (.raised e) s) (.error (.raised f) t)
  /-- In both an argument is not there. -/
  | fault {s t : Interp Empty} : AlikeOutcome W R (.error .fault s) (.error .fault t)
  /-- Neither comes to an end. -/
  | diverged {s t : Interp Empty} : AlikeOutcome W R (.error .diverged s) (.error .diverged t)

namespace AlikeOutcome

variable {α : Type} {W : World} {R : World → α → α → Prop}

/-- Outcomes that agree in a later world agree in an earlier one. -/
lemma of_le {W' : World} {o p : EStateM.Result Stop (Interp Empty) α} (hW : W ≤ W')
    (h : AlikeOutcome W' R o p) : AlikeOutcome W R o p := by
  cases h with
  | ok hW' hst h => exact .ok (hW.trans hW') hst h
  | raised hW' hst h => exact .raised (hW.trans hW') hst h
  | fault => exact .fault
  | diverged => exact .diverged

/-- What is said of the results may be weakened. -/
lemma imp {R' : World → α → α → Prop} {o p : EStateM.Result Stop (Interp Empty) α}
    (h : AlikeOutcome W R o p) (hR : ∀ W' a b, W ≤ W' → R W' a b → R' W' a b) :
    AlikeOutcome W R' o p := by
  cases h with
  | ok hW hst h => exact .ok hW hst (hR _ _ _ hW h)
  | raised hW hst h => exact .raised hW hst h
  | fault => exact .fault
  | diverged => exact .diverged

end AlikeOutcome

namespace EvalM

variable {α β : Type} {W : World} {R : World → α → α → Prop} {S : World → β → β → Prop}

/-- From interpreters that agree on texts, the computations come to outcomes that agree. -/
def Alike (W : World) (R : World → α → α → Prop) (m n : EvalM Empty α) : Prop :=
  ∀ s t, SameInterp W s t → AlikeOutcome W R (m s) (n t)

/-- From interpreters that agree on texts, the computations come to outcomes that agree, if the one
makes no object. -/
def AlikeObjectFree (W : World) (R : World → α → α → Prop) (m n : EvalM Empty α) : Prop :=
  ∀ s t, SameInterp W s t → (finalState (m s)).values.objects = #[] → AlikeOutcome W R (m s) (n t)

/-- No value and no object is lost. -/
def Grows (m : EvalM Empty α) : Prop :=
  ∀ s : Interp Empty, s.values.Grown (finalState (m s)).values

/-! ## Computations made of others -/

/-- What agrees in any case agrees if no object is made. -/
lemma Alike.objectFree {m n : EvalM Empty α} (h : Alike W R m n) : AlikeObjectFree W R m n :=
  fun s t hst _ => h s t hst

/-- What is said of the results of two computations may be weakened. -/
lemma Alike.imp {R' : World → α → α → Prop} {m n : EvalM Empty α} (h : Alike W R m n)
    (hR : ∀ W' a b, W ≤ W' → R W' a b → R' W' a b) : Alike W R' m n :=
  fun s t hst => (h s t hst).imp hR

/-- Results that agree are there already. -/
lemma Alike.pure {a b : α} (h : R W a b) : Alike W R (Pure.pure a) (Pure.pure b) :=
  fun _ _ hst => .ok (le_refl W) hst h

/-- One thing after another agrees, if both do. -/
lemma Alike.bind {m n : EvalM Empty α} {f g : α → EvalM Empty β} (hm : Alike W R m n)
    (hf : ∀ W' a b, W ≤ W' → R W' a b → Alike W' S (f a) (g b)) :
    Alike W S (m >>= f) (n >>= g) := by
  intro s t hst
  have hout := hm s t hst
  change AlikeOutcome W S (EStateM.bind m f s) (EStateM.bind n g t)
  unfold EStateM.bind
  generalize m s = o at hout ⊢
  generalize n t = p at hout ⊢
  cases hout with
  | ok hW hst' hab => exact (hf _ _ _ hW hab _ _ hst').of_le hW
  | raised hW hst' he => exact .raised hW hst' he
  | fault => exact .fault
  | diverged => exact .diverged

/-- What comes first makes no object anyway. -/
lemma Alike.bindObjectFree {m n : EvalM Empty α} {f g : α → EvalM Empty β} (hm : Alike W R m n)
    (hf : ∀ W' a b, W ≤ W' → R W' a b → AlikeObjectFree W' S (f a) (g b)) :
    AlikeObjectFree W S (m >>= f) (n >>= g) := by
  intro s t hst hfree
  have hout := hm s t hst
  change (finalState (EStateM.bind m f s)).values.objects = #[] at hfree
  change AlikeOutcome W S (EStateM.bind m f s) (EStateM.bind n g t)
  unfold EStateM.bind at hfree ⊢
  generalize m s = o at hout hfree ⊢
  generalize n t = p at hout ⊢
  cases hout with
  | ok hW hst' hab => exact (hf _ _ _ hW hab _ _ hst' hfree).of_le hW
  | raised hW hst' he => exact .raised hW hst' he
  | fault => exact .fault
  | diverged => exact .diverged

/-- What comes first has the same result in both. -/
lemma Alike.bindEqual {m n : EvalM Empty α} {f g : α → EvalM Empty β} (hm : Alike W Equal m n)
    (hf : ∀ W' a, W ≤ W' → Alike W' S (f a) (g a)) : Alike W S (m >>= f) (n >>= g) := by
  refine hm.bind fun W' a b hW hab => ?_
  obtain rfl : a = b := hab
  exact hf W' a hW

/-- One thing after another agrees, if the first has the same result and the second makes no
object. -/
lemma Alike.bindEqualObjectFree {m n : EvalM Empty α} {f g : α → EvalM Empty β}
    (hm : Alike W Equal m n) (hf : ∀ W' a, W ≤ W' → AlikeObjectFree W' S (f a) (g a)) :
    AlikeObjectFree W S (m >>= f) (n >>= g) := by
  refine hm.bindObjectFree fun W' a b hW hab => ?_
  obtain rfl : a = b := hab
  exact hf W' a hW

/-- If there is no object in the end, there was none before. -/
lemma objects_eq_empty_of_grown {s t : Store} (h : s.Grown t) (ht : t.objects = #[]) :
    s.objects = #[] := by
  have hsize := h.objects
  rw [ht] at hsize
  exact Array.eq_empty_of_size_eq_zero (Nat.le_zero.1 hsize)

/-- **One computation after another.** An object that the first one makes is still there after the
second. -/
lemma AlikeObjectFree.bind {m n : EvalM Empty α} {f g : α → EvalM Empty β}
    (hm : AlikeObjectFree W R m n) (hgrows : ∀ a, Grows (f a))
    (hf : ∀ W' a b, W ≤ W' → R W' a b → AlikeObjectFree W' S (f a) (g b)) :
    AlikeObjectFree W S (m >>= f) (n >>= g) := by
  intro s t hst hfree
  have hout := hm s t hst
  change (finalState (EStateM.bind m f s)).values.objects = #[] at hfree
  change AlikeOutcome W S (EStateM.bind m f s) (EStateM.bind n g t)
  unfold EStateM.bind at hfree ⊢
  generalize m s = o at hout hfree ⊢
  generalize n t = p at hout ⊢
  have hmiddle : (finalState o).values.objects = #[] := by
    cases o with
    | ok a s' => exact objects_eq_empty_of_grown (hgrows a s') hfree
    | error e s' => exact hfree
  cases hout hmiddle with
  | ok hW hst' hab => exact (hf _ _ _ hW hab _ _ hst' hfree).of_le hW
  | raised hW hst' he => exact .raised hW hst' he
  | fault => exact .fault
  | diverged => exact .diverged

/-- So it is if the first makes no object, either. -/
lemma AlikeObjectFree.bindEqual {m n : EvalM Empty α} {f g : α → EvalM Empty β}
    (hm : AlikeObjectFree W Equal m n) (hgrows : ∀ a, Grows (f a))
    (hf : ∀ W' a, W ≤ W' → AlikeObjectFree W' S (f a) (g a)) :
    AlikeObjectFree W S (m >>= f) (n >>= g) := by
  refine hm.bind hgrows fun W' a b hW hab => ?_
  obtain rfl : a = b := hab
  exact hf W' a hW

/-! ## What is lost by no computation -/

/-- What leads along a run loses no cell. -/
lemma Traced.grows {m : EvalM Empty α} (h : Traced (fun _ => True) m) : Grows m :=
  fun s => (h s).grown (.all s)

/-- To change the context loses none. -/
lemma grows_modifyContext (f : Context Empty → Context Empty) : Grows (modifyContext f) :=
  fun s => .refl s.values

/-- Nor does one thing after another, if neither does. -/
lemma Grows.bind {m : EvalM Empty α} {f : α → EvalM Empty β} (hm : Grows m)
    (hf : ∀ a, Grows (f a)) : Grows (m >>= f) := by
  intro s
  have hs := hm s
  change s.values.Grown (finalState (EStateM.bind m f s)).values
  unfold EStateM.bind
  generalize m s = o at hs ⊢
  cases o with
  | ok a s' => exact hs.trans (hf a s')
  | error e s' => exact hs

/-! ## Computations on values -/

/-- Work on values agrees if it stands for the same on both sides. -/
lemma Alike.lift {K : List String → α → β → Prop} {m n : StoreM α} {b : β}
    (hm : m.Denotes W.left K b) (hn : n.Denotes W.right K b) :
    Alike W (Both K) (liftM m) (liftM n) := by
  rintro ⟨v, c⟩ ⟨w, d⟩ hst
  obtain ⟨σ, hσ, hleft, ha⟩ := hm v hst.left
  obtain ⟨τ, hτ, hright, hb⟩ := hn w hst.right
  have hW : W ≤ ⟨σ, τ⟩ := ⟨hσ, hτ⟩
  exact .ok hW ⟨hleft, hright, hst.context.mono hW⟩ ⟨b, ha, hb⟩

/-- It has the same result if that is what it stands for. -/
lemma Alike.liftExactly {m n : StoreM α} {a : α} (hm : m.Denotes W.left Exactly a)
    (hn : n.Denotes W.right Exactly a) : Alike W Equal (liftM m) (liftM n) :=
  (Alike.lift hm hn).imp fun _ _ _ _ h => h.eq_of_exactly

/-- Raising the error for a failure. -/
lemma alike_fail (f : Failure) : Alike W R (fail f) (fail f) := by
  rintro ⟨v, c⟩ ⟨w, d⟩ hst
  obtain ⟨σ, hσ, hleft, ha⟩ := Exception.denotes_ofFailure f v hst.left
  obtain ⟨τ, hτ, hright, hb⟩ := Exception.denotes_ofFailure f w hst.right
  have hW : W ≤ ⟨σ, τ⟩ := ⟨hσ, hτ⟩
  exact .raised hW ⟨hleft, hright, hst.context.mono hW⟩ ⟨_, ha, hb⟩

/-- Conversions agree if they stand for the same on both sides. -/
lemma Alike.liftConv {K : List String → α → β → Prop} {m n : ConvM α} {x : Except Failure β}
    (hm : m.Denotes W.left K x) (hn : n.Denotes W.right K x) :
    Alike W (Both K) (liftM m) (liftM n) := by
  rintro ⟨v, c⟩ ⟨w, d⟩ hst
  have hv := hm v hst.left
  have hw := hn w hst.right
  rw [liftConv_apply, liftConv_apply]
  generalize m v = o at hv ⊢
  generalize n w = p at hw ⊢
  cases hv with
  | @ok _ b _ σ hσ hleft ha =>
    cases hw with
    | @ok _ _ _ τ hτ hright hb =>
      have hW : W ≤ ⟨σ, τ⟩ := ⟨hσ, hτ⟩
      exact .ok hW ⟨hleft, hright, hst.context.mono hW⟩ ⟨b, ha, hb⟩
  | @error f _ σ hσ hleft =>
    cases hw with
    | @error _ _ τ hτ hright =>
      have hW : W ≤ ⟨σ, τ⟩ := ⟨hσ, hτ⟩
      have hfail := alike_fail (W := ⟨σ, τ⟩) (R := Both K) f ⟨_, c⟩ ⟨_, d⟩
        ⟨hleft, hright, hst.context.mono hW⟩
      exact hfail.of_le hW

/-- They have the same result if that is what they stand for. -/
lemma Alike.liftConvExactly {m n : ConvM α} {x : Except Failure α}
    (hm : m.Denotes W.left Exactly x) (hn : n.Denotes W.right Exactly x) :
    Alike W Equal (liftM m) (liftM n) :=
  (Alike.liftConv hm hn).imp fun _ _ _ _ h => h.eq_of_exactly

/-- Values that agree have the same text. -/
lemma alike_text {r q : Ref} (h : Same W r q) : Alike W Equal (text r) (text q) := by
  obtain ⟨t, hr, hq⟩ := h
  exact .liftExactly (Store.denotes_text hr) (Store.denotes_text hq)

/-- They are taken as the same integer. -/
lemma alike_asInt {r q : Ref} (h : Same W r q) :
    Alike W Equal (liftM (Store.asInt r)) (liftM (Store.asInt q)) := by
  obtain ⟨t, hr, hq⟩ := h
  exact .liftConvExactly (Store.denotes_asInt hr) (Store.denotes_asInt hq)

/-- They are taken as lists that agree. -/
lemma alike_asList {r q : Ref} (h : Same W r q) :
    Alike W SameAll (liftM (Store.asList r)) (liftM (Store.asList q)) := by
  obtain ⟨t, hr, hq⟩ := h
  exact (Alike.liftConv (Store.denotes_asList hr) (Store.denotes_asList hq)).imp
    fun _ _ _ _ h => sameAll_iff_both.2 h

/-! ## Looking and changing -/

/-- The contexts agree. -/
lemma alike_getContext : Alike W SameContext getContext getContext :=
  fun _ _ hst => .ok (le_refl W) hst hst.context

/-- They do so after changes that keep them in agreement. -/
lemma alike_modifyContext {f g : Context Empty → Context Empty}
    (h : ∀ c d, SameContext W c d → SameContext W (f c) (g d)) :
    Alike W Equal (modifyContext f) (modifyContext g) :=
  fun _ _ hst => .ok (le_refl W) ⟨hst.left, hst.right, h _ _ hst.context⟩ rfl

/-- Attempts agree if they fail for the same reason or have results that agree. -/
lemma alike_attempt {x y : Except Failure α} (h : SameExcept (R W) x y) :
    Alike W R (attempt x) (attempt y) := by
  cases h with
  | ok h => exact .pure h
  | error f => exact alike_fail f

/-- The same attempt on both sides agrees. -/
lemma alike_attempt_self (x : Except Failure α) : Alike W Equal (attempt x) (attempt x) := by
  cases x with
  | ok a => exact .pure rfl
  | error f => exact alike_fail f

/-! ## Failing and catching -/

/-- The outcomes of observed computations agree. -/
inductive SameObserved (R : World → α → α → Prop) (W : World) :
    Except Exception α → Except Exception α → Prop
  | ok {a b : α} (h : R W a b) : SameObserved R W (.ok a) (.ok b)
  | error {e f : Exception} (h : SameException W e f) : SameObserved R W (.error e) (.error f)

/-- What is observed agrees when there are more values. -/
lemma SameObserved.mono {W' : World} (hR : Stable R) (hW : W ≤ W') {x y : Except Exception α}
    (h : SameObserved R W x y) : SameObserved R W' x y := by
  cases h with
  | ok h => exact .ok (hR hW h)
  | error h => exact .error (stable_sameException hW h)

/-- Exceptions that agree may be raised. -/
lemma alike_raise {e f : Exception} (h : SameException W e f) : Alike W R (raise e) (raise f) :=
  fun _ _ hst => .raised (le_refl W) hst h

/-- An argument that is not there is not there on either side. -/
lemma alike_fault : Alike W R fault fault :=
  fun _ _ _ => .fault

/-- Time may run out on both sides. -/
lemma alike_diverged : Alike W R (throw .diverged) (throw .diverged) :=
  fun _ _ _ => .diverged

/-- What is observed leads to the same state. -/
lemma finalState_observe (m : EvalM Empty α) (s : Interp Empty) :
    finalState (observe m s) = finalState (m s) := by
  unfold observe
  cases m s with
  | ok a t => rfl
  | error e t =>
    cases e with
    | raised e => rfl
    | exited status => rfl
    | fault => rfl
    | diverged => rfl

/-- Catching exceptions. -/
lemma observe_of_alikeOutcome {m n : EvalM Empty α} {s t : Interp Empty}
    (h : AlikeOutcome W R (m s) (n t)) :
    AlikeOutcome W (SameObserved R) (observe m s) (observe n t) := by
  unfold observe
  generalize m s = o at h ⊢
  generalize n t = p at h ⊢
  cases h with
  | ok hW hst hab => exact .ok hW hst (.ok hab)
  | raised hW hst he => exact .ok hW hst (.error he)
  | fault => exact .fault
  | diverged => exact .diverged

/-- What is observed of computations that agree agrees. -/
lemma Alike.observe {m n : EvalM Empty α} (h : Alike W R m n) :
    Alike W (SameObserved R) (observe m) (observe n) :=
  fun s t hst => observe_of_alikeOutcome (h s t hst)

/-- So it is if no object is made. -/
lemma AlikeObjectFree.observe {m n : EvalM Empty α} (h : AlikeObjectFree W R m n) :
    AlikeObjectFree W (SameObserved R) (observe m) (observe n) := by
  intro s t hst hfree
  rw [finalState_observe] at hfree
  exact observe_of_alikeOutcome (h s t hst hfree)

/-- The ends of evaluations at another level agree. -/
lemma alike_conclude {x y : Except Exception α} (h : SameObserved R W x y) :
    Alike W R (conclude x) (conclude y) := by
  cases h with
  | ok h => exact .pure h
  | error h => exact alike_raise h

/-- So do the ends of calls. -/
lemma alike_settle {x y : Except Exception Ref} (h : SameObserved Same W x y) :
    Alike W Same (settle x) (settle y) := by
  cases h with
  | ok h => exact .pure h
  | @error e f h =>
    unfold settle
    dsimp only
    rw [← code_eq_of_sameException h]
    split
    · exact .pure (same_value_of_sameException h)
    · exact alike_fail _
    · exact alike_fail _
    · exact alike_raise h
    · exact alike_raise h

end EvalM

end CommandScript
