import CommandScript.Proofs.Evaluation.Atomic
import CommandScript.Proofs.Evaluation.Bound
import CommandScript.Proofs.Evaluation.Isolation

/-!
# Only one loop can run forever

Whatever a script does, evaluation is nested at most as deep as it may be: a procedure that calls
itself, a script that evaluates itself and all that takes turns in doing so runs into the limit, and
that is an error. On each level there are finitely many commands, those of a script that has been
read, with finitely many brackets in them. A command goes through its words, through a list or
through a number of rounds, all of which are there before it starts. Only `while` may go on as long
as it likes. Where it is not at hand, evaluation comes to an end.

Reading a script may itself not come to an end. So this is said of the evaluation that gives up
there instead, and then of every evaluation that meets no such script.

## Main definitions

* `Interp.Ready` — the commands at hand, the limit of nesting and how deep evaluation is nested.
* `EvalM.Settles` — wherever these are such, the computation comes to an end.
* `Interp.Ended` — the outcome is a result or an exception, or the program was ended.
* `Interp.ReadsAll` — the evaluation meets no script that cannot be read to its end.

## Main results

* `EvalM.Scripted.settles` — what runs scripts, without `while`.
* `Watch.settles_evaluate` — evaluation, if the bound is larger than the number of levels left.
* `Interp.only_while_diverges` — all of this, for every state that can come about.
-/

set_option autoImplicit false

namespace CommandScript

open EvalM
open Interp (Run)

/-! ## What lasts through an evaluation -/

/-- The built-in commands at hand are among `A`, evaluation may be nested as deep as `limit`, and it
is nested at least as deep as `level`. -/
structure Interp.Ready {κ : Type} (A : Builtin → Prop) (limit level : Nat) (s : Interp κ) :
    Prop where
  /-- The commands at hand. -/
  within : s.Within A
  /-- How deep evaluation may be nested. -/
  limit : s.context.limit = limit
  /-- How deep it is nested. -/
  level : level ≤ s.context.level

open Interp (Ready)

/-- All of this lasts. -/
lemma Interp.Ready.run {κ : Type} {A : Builtin → Prop} {limit level : Nat} {s t : Interp κ}
    (hs : Ready A limit level s) (h : Run A s t) : Ready A limit level t where
  within := h.within hs.within
  limit := h.limit_eq.trans hs.limit
  level := h.sameHeight.level.symm ▸ hs.level

/-- It does so where something nested starts. -/
lemma Context.Nested.ready {κ : Type} {A : Builtin → Prop} {limit level : Nat} {v : Store}
    {c c' : Context κ} (h : c.Nested c') (hc : Ready A limit level ⟨v, c⟩) :
    Ready A limit level ⟨v, c'⟩ where
  within := h.within hc.within
  limit := h.limit.trans hc.limit
  level := Nat.le_trans hc.level h.level

namespace EvalM

variable {κ α β : Type} {A : Builtin → Prop} {limit level : Nat}

/-- The outcome is a result or an exception, or the program ends, for which there is a command among
`A`. -/
abbrev Ends (A : Builtin → Prop) (o : EStateM.Result Stop (Interp κ) α) : Prop :=
  EndsIn (fun _ => True) (fun _ => True) (A (.plain .exit)) o

/-- Wherever the commands at hand are among `A` and evaluation is nested like this, the computation
comes to an end. -/
def Settles (A : Builtin → Prop) (limit level : Nat) (m : EvalM κ α) : Prop :=
  ∀ s, Ready A limit level s → Ends A (m s)

/-- A computation that ends in a result or in an exception does not go on for ever. -/
lemma EndsIn.not_diverged {P Q : Context κ → Prop} {mayExit : Prop}
    {o : EStateM.Result Stop (Interp κ) α} (h : EndsIn P Q mayExit o) : ¬ Diverged o := by
  cases o with
  | ok a t => exact id
  | error e t =>
    cases e with
    | diverged => exact h.elim
    | _ => exact id

/-- What runs no script comes to an end. -/
lemma Scriptless.settles {e : Effects} {m : EvalM κ α} (h : Scriptless A e m) :
    Settles A limit level m :=
  fun s _ => (h.endsIn s).imp (fun _ _ => trivial) (fun _ _ => trivial) id

/-- What comes second starts where the first has come to, and there the same commands are at
hand. -/
lemma Settles.bindOf {m : EvalM κ α} {f : α → EvalM κ β} (hm : Settles A limit level m)
    (ht : Traced A m) (hf : ∀ a s t, m s = .ok a t → Settles A limit level (f a)) :
    Settles A limit level (m >>= f) := by
  intro s hs
  refine (hm s hs).bind fun a t h _ => ?_
  have hrun := ht s hs.within
  rw [h] at hrun
  exact hf a s t h t (hs.run hrun)

/-- What is raised has become a result. -/
lemma Settles.observe {m : EvalM κ α} (hm : Settles A limit level m) :
    Settles A limit level (observe m) := by
  intro s hs
  have hends := hm s hs
  unfold EvalM.observe
  cases h : m s with
  | ok a t => trivial
  | error e t =>
    rw [h] at hends
    cases e with
    | raised e => trivial
    | exited status => exact hends
    | fault => trivial
    | diverged => exact hends

/-- **A nested change comes to an end if what is nested does**, perhaps on a deeper level, and if
what comes after it does. -/
lemma settles_bracket (deeper : Nat)
    {enter : Context κ → Except Failure (Context κ × (Context κ → Context κ))} {m : EvalM κ α}
    {k : Except Exception α → EvalM κ β}
    (hin : ∀ v c c' leave, enter c = .ok (c', leave) → Ready A limit level ⟨v, c⟩ →
      Settles A limit deeper m ∧ Ready A limit deeper ⟨v, c'⟩)
    (hrun : ∀ v c c' leave t, enter c = .ok (c', leave) →
      Run A ⟨v, c'⟩ t → Run A ⟨v, c⟩ ⟨t.values, leave t.context⟩)
    (ht : Traced A m) (hk : ∀ outcome, Settles A limit level (k outcome)) :
    Settles A limit level (bracket enter m k) := by
  rintro ⟨v, c⟩ hs
  unfold bracket
  dsimp only
  split
  next f _ => trivial
  next c' leave henter =>
    obtain ⟨hm, hc'⟩ := hin v c c' leave henter hs
    refine EndsIn.bind (s := ⟨v, c'⟩) (hm.observe ⟨v, c'⟩ hc') fun outcome t h _ => ?_
    have hout := ht.observe ⟨v, c'⟩ hc'.within
    rw [h] at hout
    exact hk outcome ⟨t.values, leave t.context⟩ (hs.run (hrun v c c' leave t henter hout))

/-- **What runs scripts comes to an end, without `while`**, if the evaluations of its engine do:
there is nothing else that stops because there is no time left.

**Proof sketch.** Induction on how it is put together. Each part starts where the one before it has
come to, and a step of evaluation brings no command back that is not at hand. -/
theorem Scripted.settles {E : Engine Empty} {α : Type} {m : EvalM Empty α}
    (h : Scripted A (· = .fault) E m) (ht : ∀ r, Traced A (E.eval r))
    (hE : ∀ r, Settles A limit level (E.eval r)) : Settles A limit level m := by
  induction h with
  | scriptless h => exact h.settles
  | eval r => exact hE r
  | host action _ => exact action.elim
  | raise e => exact fun _ _ => trivial
  | stop h => exact fun _ _ => h ▸ trivial
  | context _ ih => exact fun s hs => ih s.context hs.within.byName s hs
  | resolve tag _ ih =>
    exact fun ⟨_, c⟩ hs => ih (c.typeCommands.resolve tag).1 (hs.within.byType tag) _
      (hs.run (.resolve tag))
  | observe _ ih => exact ih.observe
  | bracket hin hrun hm _ ihm ihk =>
    have htraced := (hm.mono fun _ _ => trivial).traced ht
    refine settles_bracket level (fun v c c' leave henter hc => ?_) hrun htraced ihk
    exact ⟨ihm, (hin c c' leave henter).ready hc⟩
  | bindOf hm _ ihm ihf => exact ihm.bindOf ((hm.mono fun _ _ => trivial).traced ht) ihf

end EvalM

/-! ## Evaluation -/

namespace Watch

variable {A : Builtin → Prop} {limit level : Nat} {E : Engine Empty}

mutual

/-- Where nothing is done before a command is dispatched, the commands of a script are run as they
would be. -/
theorem runScript_givingUp (f : Failure) (last : Option Ref) :
    ∀ script, (givingUp f).runScript E last script = Interp.runScript E last script
  | [] => rfl
  | words :: rest => by
    unfold runScript Interp.runScript
    rw [evalWords_givingUp f words]
    refine bind_congr fun argv => (pure_bind () _).trans ?_
    exact bind_congr fun r => runScript_givingUp f (some r) rest

/-- So it is with words. -/
theorem evalWords_givingUp (f : Failure) :
    ∀ words, (givingUp f).evalWords E words = Interp.evalWords E words
  | [] => rfl
  | w :: rest => by
    unfold evalWords Interp.evalWords
    rw [evalWord_givingUp f w, evalWords_givingUp f rest]

/-- So it is with a word. -/
theorem evalWord_givingUp (f : Failure) :
    ∀ w, (givingUp f).evalWord E w = Interp.evalWord E w
  | .literal _ => rfl
  | .var _ => rfl
  | .substitution script => runScript_givingUp f none script
  | .joined parts => by
    unfold evalWord Interp.evalWord
    exact congrArg (· >>= _) (evalWords_givingUp f parts)

end

/-- A script that cannot be read to its end is an error. -/
lemma scriptless_scriptOf (f : Failure) (r : Ref) :
    Scriptless A .failing ((givingUp f).scriptOf r : EvalM Empty (Script Ref)) := by
  have hread : Scriptless A .nothing
      (liftM (Store.asScript r) : EvalM Empty (Script.Outcome (Script Ref))) :=
    .values (Store.grows_asScript r) (Store.retains_asScript r)
  refine hread.bind (e := .failing) fun outcome => ?_
  cases outcome with
  | done script => exact .idle script
  | failed e => exact .fail _
  | stuck => exact .fail f

/-- **The commands of a script come to an end.** Brackets go no level deeper, but are part of the
script. -/
lemma scripted_script (f : Failure) (hwhile : ¬ A (.control .while)) (r : Ref) :
    Scripted A (· = .fault) E ((givingUp f).scriptOf r >>= (givingUp f).runScript E none) := by
  refine (scriptless_scriptOf f r).bindScripted fun script => ?_
  rw [runScript_givingUp]
  exact Interp.scripted_runScript (fun h => absurd h hwhile) none script (.inr rfl)

/-- Evaluation one level deeper is a nested change here, too. -/
lemma evalNested_givingUp (f : Failure) (r : Ref) :
    (givingUp f).evalNested E r = bracket Interp.enterNested
      ((givingUp f).scriptOf r >>= (givingUp f).runScript E none) Interp.release := by
  funext ⟨v, c⟩
  unfold evalNested
  rw [getContextBind_apply]
  unfold bracket Interp.enterNested
  dsimp only
  split
  · rfl
  · rfl

/-- Evaluation that gives up is traced.

**Proof sketch.** Induction on the bound. -/
lemma traced_evaluate (f : Failure) (hwhile : ¬ A (.control .while)) (bound : Nat) (r : Ref) :
    Traced A ((givingUp f).evaluate bound r : EvalM Empty Ref) := by
  induction bound generalizing r with
  | zero => exact traced_throw _
  | succ bound ih =>
    change Traced A ((givingUp f).evalNested ⟨(givingUp f).evaluate bound, bound⟩ r)
    rw [evalNested_givingUp]
    have hscript := scripted_script (E := ⟨(givingUp f).evaluate bound, bound⟩) f hwhile r
    exact traced_bracket (fun _ _ _ => Interp.nested_of_enterNested)
      (fun _ _ _ _ _ => Interp.run_of_enterNested) ((hscript.mono fun _ _ => trivial).traced ih)
      Interp.traced_release

/-- **Evaluation comes to an end** if the bound is larger than the number of levels that are left.

**Proof sketch.** Induction on the bound, for all levels: what is nested is evaluated one level
deeper, with a bound smaller by one. -/
theorem settles_evaluate (f : Failure) (hwhile : ¬ A (.control .while)) {bound : Nat}
    (hbound : limit - level < bound) (r : Ref) :
    Settles A limit level ((givingUp f).evaluate bound r : EvalM Empty Ref) := by
  induction bound generalizing level r with
  | zero => exact absurd hbound (Nat.not_lt_zero _)
  | succ bound ih =>
    -- one level deeper there is one level less to go, and the bound is smaller by one
    have ht := traced_evaluate (A := A) f hwhile bound
    have hscript := scripted_script (E := ⟨(givingUp f).evaluate bound, bound⟩) f hwhile r
    have hrelease : ∀ outcome, Settles A limit level (Interp.release outcome : EvalM Empty Ref) :=
      fun outcome => Scripted.settles (E := ⟨pure, 0⟩) (Interp.scripted_release outcome) .pure
        fun r => (Scriptless.pure r).settles
    change Settles A limit level ((givingUp f).evalNested ⟨(givingUp f).evaluate bound, bound⟩ r)
    rw [evalNested_givingUp]
    refine settles_bracket (level + 1) (fun v c c' leave henter hs => ?_)
      (fun _ _ _ _ _ => Interp.run_of_enterNested)
      ((hscript.mono fun _ _ => trivial).traced ht) hrelease
    obtain ⟨hlimit, hdeeper⟩ := Interp.level_of_enterNested henter
    have hlevel : level ≤ c.level := hs.level
    have hbelow : c.limit = limit := hs.limit
    have hc' := (Interp.nested_of_enterNested henter).ready hs
    refine ⟨hscript.settles ht (ih (by omega)), ⟨hc'.within, hc'.limit, ?_⟩⟩
    exact hdeeper.symm ▸ Nat.succ_le_succ hlevel

end Watch

namespace Interp

/-- A result or an exception has come out, or the program was ended by the command for that, which
was at hand. -/
def Ended (s : Interp Empty) : EStateM.Result Stop (Interp Empty) Ref → Prop
  | .ok _ _ => True
  | .error (.raised _) _ => True
  | .error (.exited _) _ => ¬ s.Lacks (.plain .exit)
  | .error .fault _ => False
  | .error .diverged _ => False

/-- Every script that is met can be read to its end: it makes no difference what would be done about
one that cannot. -/
def ReadsAll (bound : Nat) (r : Ref) (s : Interp Empty) : Prop :=
  ∀ f, (Watch.givingUp f).evaluate bound r s = evaluate bound r s

/-- The built-in commands at hand are those that are not lacking. -/
lemma within_not_lacks (s : Interp Empty) : s.Within fun b => ¬ s.Lacks b where
  byName := by
    rintro name _ hfind b rfl hlacks
    exact hlacks.byName name hfind
  byType := by
    rintro tag _ hfound b rfl hlacks
    exact hlacks.byType tag hfound

/-- What comes to an end and does not fault has ended. -/
lemma ended_of_endsIn {P Q : Context Empty → Prop} {s : Interp Empty}
    {o : EStateM.Result Stop (Interp Empty) Ref} (h : EndsIn P Q (¬ s.Lacks (.plain .exit)) o)
    (hfault : ∀ t, o ≠ .error .fault t) : Ended s o := by
  cases o with
  | ok a t => trivial
  | error e t =>
    cases e with
    | raised e => trivial
    | exited status => exact h
    | fault => exact hfault t rfl
    | diverged => exact h

/-- **Only `while` can run forever.** In every state that can come about in an interpreter without
commands of an application where `while` is not at hand, whatever is evaluated, with a bound larger
than the number of levels left below the limit:

* if evaluation gives up wherever a script cannot be read to its end, it comes to an end;
* so if there is no such script, evaluation comes to an end: with a result or an exception, or with
  the end of the program, if the command for that is at hand. It comes to the same end with every
  larger bound;
* no command is ever dispatched deeper than evaluation may be nested: the evaluation that stops
  where one is, in whichever way, is the same, whatever the bound. -/
theorem only_while_diverges {s : Interp Empty} (hs : Reachable s)
    (hwhile : s.Lacks (.control .while)) {bound : Nat}
    (hbound : s.context.limit - s.context.level < bound) (r : Ref) :
    (∀ f, ¬ Diverged ((Watch.givingUp f).evaluate bound r s)) ∧
    (ReadsAll bound r s →
      Ended s (evaluate bound r s) ∧
      ∀ bound', bound ≤ bound' → evaluate bound' r s = evaluate bound r s) ∧
    ∀ stop bound', (Watch.ofDepth stop).evaluate bound' r s = evaluate bound' r s := by
  have hready : Ready (fun b => ¬ s.Lacks b) s.context.limit s.context.level s :=
    ⟨s.within_not_lacks, rfl, Nat.le_refl _⟩
  have hends := fun f => Watch.settles_evaluate f (not_not_intro hwhile) hbound r s hready
  refine ⟨fun f => (hends f).not_diverged, fun hreads => ?_, fun stop bound' => ?_⟩
  · -- it does not matter which failure there would be
    have hend := hends .nestingTooDeep
    rw [hreads .nestingTooDeep] at hend
    exact ⟨ended_of_endsIn hend (hs.evaluate_ne_fault bound r),
      fun bound' hle => evaluate_eq_of_le hend.not_diverged hle⟩
  -- the context of every state on the way is within the limit, so the watch never calls a halt
  · rw [(Watch.quiet_ofDepth stop).evaluate_eq]

/-- The interpreter, with a script as its only value that does nothing but evaluate itself.
Evaluation may be nested two deep. -/
def withEndlessScript (s : Interp Empty) : Interp Empty :=
  { values := (Store.ofTexts ["eval $x"] {}).2
    context := { s.context with
      limit := 2
      level := 0
      scopes := { globals := Table.empty.insert "x" (.value ⟨0⟩) } } }

/-- The endless script is a value, so it binds no command. -/
lemma Lacks.withEndlessScript {b : Builtin} {s : Interp Empty} (h : s.Lacks b) :
    s.withEndlessScript.Lacks b :=
  ⟨h.byName, h.byType⟩

/-- One more value is a run of its own from a reachable interpreter. -/
lemma reachable_withEndlessScript (s : Interp Empty) : Reachable s.withEndlessScript :=
  (Reachable.start s.withEndlessScript.context).run (.values (Store.grows_ofTexts _ {}))

/-- The script runs into the limit, and a larger bound does not take it further. -/
theorem only_while_diverges_withEndlessScript :
    raisedCode? (evaluate 3 ⟨0⟩ (without [.control .while]).withEndlessScript) = some .error ∧
    Ended (without [.control .while]).withEndlessScript
      (evaluate 3 ⟨0⟩ (without [.control .while]).withEndlessScript) ∧
    ∀ bound, 3 ≤ bound → evaluate bound ⟨0⟩ (without [.control .while]).withEndlessScript =
      evaluate 3 ⟨0⟩ (without [.control .while]).withEndlessScript := by
  have hraised : raisedCode? (evaluate 3 ⟨0⟩ (without [.control .while]).withEndlessScript) =
      some .error := by decide +kernel
  have hwhile : (without [.control .while]).Lacks (.control .while) := lacks_without (by decide)
  -- the script is not to be evaluated again
  generalize without [.control .while] = s at *
  obtain ⟨e, t, hout, -⟩ := raised_of_raisedCode? hraised
  have hend : ¬ Diverged (evaluate 3 ⟨0⟩ s.withEndlessScript) := by
    rw [hout]
    exact id
  have hbound : s.withEndlessScript.context.limit - s.withEndlessScript.context.level < 3 :=
    Nat.lt_succ_self 2
  obtain ⟨-, hends, -⟩ := only_while_diverges (reachable_withEndlessScript s)
    hwhile.withEndlessScript hbound ⟨0⟩
  exact ⟨hraised, hends (evaluate_givingUp_eq hend)⟩

end Interp

end CommandScript
