import CommandScript.Proofs.Evaluation.Watch

/-!
# The bound of an evaluation does not matter

Evaluation is given a bound so that it comes to an end in any case. An evaluation that comes to an
end by itself does not notice: with a larger bound it comes to the same. Nor does it notice what
would be done about a script that cannot be read to its end, since it has met none.

Both are cases of one relation: a computation is *extended* by another if, wherever it comes to an
end, the other comes to the same. A command is extended if the evaluation of scripts is, and it may
make more rounds.

## Main definitions

* `EvalM.Diverged` — the outcome is no end, `EvalM.Extends` — the relation.
* `Engine.Extends`, `Watch.Extends` — the same for what evaluation depends on.
* `Watch.givingUp` — where reading does not come to an end, an error is raised instead.

## Main results

* `Builtin.extends_control` — the commands that run scripts.
* `Watch.Extends.evaluate` — evaluation that is watched.
* `Interp.evaluate_eq_of_le`, `Interp.evaluate_givingUp_eq` — what comes to an end does so with
  every larger bound, and without giving up.
-/

set_option autoImplicit false

namespace CommandScript

/-! ## Computations -/

namespace EvalM

variable {κ α β : Type}

/-- The computation has not come to an end. -/
def Diverged : EStateM.Result Stop (Interp κ) α → Prop
  | .error .diverged _ => True
  | _ => False

/-- Wherever the first computation comes to an end, the second one comes to the same. -/
def Extends (m m' : EvalM κ α) : Prop :=
  ∀ s, ¬ Diverged (m s) → m' s = m s

/-- Every computation extends itself. -/
lemma Extends.refl (m : EvalM κ α) : Extends m m :=
  fun _ _ => rfl

/-- What does not come to an end is extended by everything. -/
lemma extends_diverged (m : EvalM κ α) : Extends (throw .diverged) m :=
  fun _ h => absurd trivial h

/-- One thing after another is extended by what extends both. -/
lemma Extends.bind {m m' : EvalM κ α} {f f' : α → EvalM κ β} (hm : Extends m m')
    (hf : ∀ a, Extends (f a) (f' a)) : Extends (m >>= f) (m' >>= f') := by
  intro s h
  have hs := hm s
  cases hms : m s with
  | ok a t =>
    rw [hms] at hs
    rw [bind_of_ok hms] at h ⊢
    rw [bind_of_ok (hs id)]
    exact hf a t h
  | error e t =>
    rw [hms] at hs
    rw [bind_of_error hms] at h ⊢
    cases e with
    | raised e => exact bind_of_error (hs id)
    | exited status => exact bind_of_error (hs id)
    | fault => exact bind_of_error (hs id)
    | diverged => exact absurd trivial h

/-- What is observed is extended, too. -/
lemma Extends.observe {m m' : EvalM κ α} (hm : Extends m m') :
    Extends (observe m) (observe m') := by
  intro s h
  refine observe_eq_observe (hm s fun hdiverged => h ?_)
  unfold EvalM.observe
  cases hms : m s with
  | ok a t =>
    rw [hms] at hdiverged
    exact hdiverged.elim
  | error e t =>
    rw [hms] at hdiverged
    cases e with
    | raised e => exact hdiverged
    | exited status => exact hdiverged
    | fault => exact hdiverged
    | diverged => trivial

end EvalM

open EvalM

/-- Wherever the first comes to an end with a value, the second comes to the same; and it may make
more rounds. -/
structure Engine.Extends {κ : Type} (E E' : Engine κ) : Prop where
  /-- The evaluation of a value. -/
  eval : ∀ r, EvalM.Extends (E.eval r) (E'.eval r)
  /-- The rounds that a loop may make. -/
  rounds : E.rounds ≤ E'.rounds

/-! ## Commands that run scripts -/

namespace Builtin

variable {κ : Type} {E E' : Engine κ}

/-- A condition that comes to an end does so within a larger bound. -/
lemma extends_condition (hE : E.Extends E') (cond : Ref) :
    Extends (condition E cond) (condition E' cond) := by
  refine (Extends.refl _).bind fun truth => ?_
  cases truth with
  | some b => exact .refl _
  | none => exact (hE.eval cond).bind fun r => .refl _

/-- So does a round of a loop. -/
lemma extends_round (hE : E.Extends E') (body : Ref) : Extends (round E body) (round E' body) :=
  (hE.eval body).observe.bind fun _ => .refl _

/-- So does a script whose result is wanted. -/
lemma extends_evalResult (hE : E.Extends E') (script : Ref) :
    Extends (evalResult E script) (evalResult E' script) :=
  (hE.eval script).bind fun _ => .refl _

/-- So does a chain of conditions. -/
lemma extends_ifChain (hE : E.Extends E') (words : List Ref) :
    Extends (ifChain E words) (ifChain E' words) := by
  fun_induction ifChain E words with
  | case1 cond body rest ih =>
    cases rest with
    | nil =>
      rw [ifChain.eq_1 E']
      refine (extends_condition hE cond).bind fun holds => ?_
      split
      · exact extends_evalResult hE body
      · exact .refl _
    | cons word rest =>
      rw [ifChain.eq_2 E']
      refine (extends_condition hE cond).bind fun holds => ?_
      split
      · exact extends_evalResult hE body
      · refine (Extends.refl _).bind fun keyword => ?_
        split
        · exact ih
        · split
          · exact extends_evalResult hE _
          · exact .refl _
  | case2 words hwords =>
    rw [ifChain.eq_3 E' words hwords]
    exact .refl _

/-- With more rounds to make, a loop ends as it ended. -/
lemma extends_whileLoop (hE : E.Extends E') (cond body : Ref) {rounds rounds' : Nat}
    (h : rounds ≤ rounds') :
    Extends (whileLoop E cond body rounds) (whileLoop E' cond body rounds') := by
  induction rounds generalizing rounds' with
  | zero => exact extends_diverged _
  | succ rounds ih =>
    obtain ⟨rounds', rfl⟩ := Nat.exists_eq_add_one_of_ne_zero (Nat.ne_zero_of_lt h)
    have hrest := ih (Nat.le_of_succ_le_succ h)
    refine (extends_condition hE cond).bind fun holds => ?_
    split
    · refine (extends_round hE body).bind fun goes => ?_
      split
      · exact hrest
      · exact .refl _
    · exact .refl _

/-- So does a loop over pieces. -/
lemma extends_foreachLoop (hE : E.Extends E') (vars : List Ref) (body : Ref)
    (pieces : List (List Ref)) :
    Extends (foreachLoop E vars body pieces) (foreachLoop E' vars body pieces) := by
  induction pieces with
  | nil => exact .refl _
  | cons items pieces ih =>
    refine (Extends.refl _).bind fun _ => (extends_round hE body).bind fun goes => ?_
    split
    · exact ih
    · exact .refl _

/-- So does a script that is evaluated a number of times. -/
lemma extends_repeatEval (hE : E.Extends E') (script : Ref) (count : Nat) :
    Extends (repeatEval E script count) (repeatEval E' script count) := by
  induction count with
  | zero => exact .refl _
  | succ count ih => exact (hE.eval script).bind fun _ => ih

/-- So does evaluation at another level. -/
lemma extends_evalAt (hE : E.Extends E') (script : Ref) (level : Int) :
    Extends (evalAt E script level) (evalAt E' script level) := by
  refine (Extends.refl _).bind fun c => (Extends.refl _).bind fun place => ?_
  refine (Extends.refl _).bind fun _ => (hE.eval script).observe.bind fun outcome => ?_
  exact .refl _

/-- So does `eval`. -/
lemma extends_eval (hE : E.Extends E') (argv : List Ref) :
    Extends (Builtin.eval E argv) (Builtin.eval E' argv) := by
  unfold Builtin.eval
  split
  · exact extends_evalResult hE _
  · exact .refl _

/-- So does `catch`. -/
lemma extends_catchSignal (hE : E.Extends E') (argv : List Ref) :
    Extends (catchSignal E argv) (catchSignal E' argv) := by
  rw [catchSignal_eq, catchSignal_eq]
  exact (Extends.refl _).bind fun script => (hE.eval script).observe.bind fun _ => .refl _

/-- So does `upeval`. -/
lemma extends_upeval (hE : E.Extends E') (argv : List Ref) :
    Extends (Builtin.upeval E argv) (Builtin.upeval E' argv) := by
  unfold Builtin.upeval
  split
  · exact (extends_evalAt hE _ _).bind fun _ => .refl _
  · exact (Extends.refl _).bind fun level => (extends_evalAt hE _ _).bind fun _ => .refl _
  · exact .refl _

/-- So does `time`. -/
lemma extends_time (hE : E.Extends E') (argv : List Ref) :
    Extends (Builtin.time E argv) (Builtin.time E' argv) := by
  rw [time_eq, time_eq]
  refine (Extends.refl _).bind fun count => (Extends.refl _).bind fun script => ?_
  exact (Extends.refl _).bind fun _ => (extends_repeatEval hE script _).bind fun _ => .refl _

/-- So does `while`, where there is room for more rounds. -/
lemma extends_loopWhile (hE : E.Extends E') (argv : List Ref) :
    Extends (loopWhile E argv) (loopWhile E' argv) := by
  unfold loopWhile
  split
  · exact (extends_whileLoop hE _ _ hE.rounds).bind fun _ => .refl _
  · exact .refl _

/-- So does `foreach`. -/
lemma extends_foreach (hE : E.Extends E') (argv : List Ref) :
    Extends (Builtin.foreach E argv) (Builtin.foreach E' argv) := by
  unfold Builtin.foreach
  split
  · refine (Extends.refl _).bind fun vars => (Extends.refl _).bind fun items => ?_
    cases vars with
    | nil => exact .refl _
    | cons var others => exact (extends_foreachLoop hE _ _ _).bind fun _ => .refl _
  · exact .refl _

/-- **A command that runs scripts is extended** if the evaluation of scripts is. -/
lemma extends_control (hE : E.Extends E') (b : Control) (argv : List Ref) :
    Extends (b.run E argv) (b.run E' argv) :=
  match b with
  | .eval => extends_eval hE argv
  | .catch => extends_catchSignal hE argv
  | .upeval => extends_upeval hE argv
  | .time => extends_time hE argv
  | .if => extends_ifChain hE argv.tail
  | .while => extends_loopWhile hE argv
  | .foreach => extends_foreach hE argv

end Builtin

/-! ## Commands and scripts -/

namespace Procedure

/-- So does the call of a procedure. -/
lemma extends_call {κ : Type} {E E' : Engine κ} (hE : E.Extends E') (p : Procedure)
    (argv : List Ref) : Extends (p.call E argv) (p.call E' argv) := by
  have hbody : Extends (do
      p.bind argv
      E.eval p.body) (do
      p.bind argv
      E'.eval p.body) := (Extends.refl _).bind fun _ => hE.eval p.body
  exact (Extends.refl _).bind fun _ => hbody.observe.bind fun _ => .refl _

end Procedure

namespace Command

variable {E E' : Engine Empty}

/-- So does the call of an object. -/
lemma extends_callObject (hE : E.Extends E') (argv : List Ref) (value : Ref)
    (object : Option Object) :
    Extends (callObject E argv value object) (callObject E' argv value object) := by
  unfold callObject
  split
  · exact Procedure.extends_call hE _ argv
  · exact .refl _

/-- So does the call of a value. -/
lemma extends_invokeValue (hE : E.Extends E') (argv : List Ref) :
    Extends (invokeValue E argv) (invokeValue E' argv) := by
  rw [invokeValue_eq, invokeValue_eq]
  refine (Extends.refl _).bind fun value => (Extends.refl _).bind fun o => ?_
  cases o with
  | some o => exact (Extends.refl _).bind fun object => extends_callObject hE argv value object
  | none => exact extends_callObject hE argv value none

/-- So does every command. -/
lemma extends_execute (hE : E.Extends E') (argv : List Ref) (command : Command Empty) :
    Extends (command.execute E argv) (command.execute E' argv) := by
  cases command with
  | builtin b =>
    refine (Extends.refl _).bind fun _ => ?_
    cases b with
    | plain b => exact .refl _
    | control b => exact (Builtin.extends_control hE b argv).bind fun _ => .refl _
  | host _ _ action => exact action.elim
  | procedure p => exact Procedure.extends_call hE p argv
  | invoke => exact extends_invokeValue hE argv

end Command

namespace Interp

variable {E E' : Engine Empty}

/-- So does a command that is looked up. -/
lemma extends_dispatch (hE : E.Extends E') (argv : List Ref) :
    Extends (dispatch E argv) (dispatch E' argv) := by
  refine (Extends.refl _).bind fun head => (Extends.refl _).bind fun name => ?_
  refine (Extends.refl _).bind fun c => ?_
  split
  next command _ => exact Command.extends_execute hE argv command
  next =>
    refine (Extends.refl _).bind fun tag => (Extends.refl _).bind fun found => ?_
    cases found with
    | some command => exact Command.extends_execute hE argv command
    | none => exact .refl _

/-- So does one whose errors are traced. -/
lemma extends_runCommand (hE : E.Extends E') (argv : List Ref) :
    Extends (runCommand E argv) (runCommand E' argv) :=
  (extends_dispatch hE argv).observe.bind fun _ => .refl _

end Interp

/-! ## Evaluation -/

/-- Wherever what the first does comes to an end, what the second does comes to the same. -/
structure Watch.Extends {κ : Type} (W W' : Watch κ) : Prop where
  /-- What is done before a command is dispatched. -/
  beforeCall : EvalM.Extends W.beforeCall W'.beforeCall
  /-- What is done where reading does not come to an end. -/
  whenStuck : EvalM.Extends W.whenStuck W'.whenStuck

namespace Watch

variable {W W' : Watch Empty} {E E' : Engine Empty}

mutual

/-- The commands of a script are extended if what is nested in them is. -/
theorem Extends.runScript (hW : W.Extends W') (hE : E.Extends E') (last : Option Ref) :
    ∀ script, EvalM.Extends (W.runScript E last script) (W'.runScript E' last script)
  | [] => .refl _
  | words :: rest => by
    refine (hW.evalWords hE words).bind fun argv => hW.beforeCall.bind fun _ => ?_
    exact (Interp.extends_runCommand hE argv).bind fun r => hW.runScript hE (some r) rest

/-- So do the words of a command. -/
theorem Extends.evalWords (hW : W.Extends W') (hE : E.Extends E') :
    ∀ words, EvalM.Extends (W.evalWords E words) (W'.evalWords E' words)
  | [] => .refl _
  | w :: rest =>
    (hW.evalWord hE w).bind fun _ => (hW.evalWords hE rest).bind fun _ => .refl _

/-- So does a single word. -/
theorem Extends.evalWord (hW : W.Extends W') (hE : E.Extends E') :
    ∀ w, EvalM.Extends (W.evalWord E w) (W'.evalWord E' w)
  | .literal _ => .refl _
  | .var _ => .refl _
  | .substitution script => hW.runScript hE none script
  | .joined parts => (hW.evalWords hE parts).bind fun _ => .refl _

end

/-- So does the reading of a script. -/
lemma Extends.scriptOf (hW : W.Extends W') (r : Ref) :
    EvalM.Extends (W.scriptOf r) (W'.scriptOf r) := by
  refine (EvalM.Extends.refl _).bind fun outcome => ?_
  cases outcome with
  | done script => exact .refl _
  | failed e => exact .refl _
  | stuck => exact hW.whenStuck

/-- So does a nested evaluation. -/
lemma Extends.evalNested (hW : W.Extends W') (hE : E.Extends E') (r : Ref) :
    EvalM.Extends (W.evalNested E r) (W'.evalNested E' r) := by
  refine (EvalM.Extends.refl _).bind fun c => ?_
  split
  · exact .refl _
  · refine (EvalM.Extends.refl _).bind fun _ => ?_
    have hscript := (hW.scriptOf r).bind fun script => hW.runScript hE none script
    exact hscript.observe.bind fun _ => .refl _

/-- **Evaluation with a larger bound comes to the same**, if it has come to an end, whatever is done
where it would not.

**Proof sketch.** Induction on the smaller bound; if it is not zero, neither is the larger one. -/
theorem Extends.evaluate (hW : W.Extends W') {bound bound' : Nat} (h : bound ≤ bound') (r : Ref) :
    EvalM.Extends (W.evaluate bound r) (W'.evaluate bound' r) := by
  induction bound generalizing bound' r with
  | zero => exact extends_diverged _
  | succ bound ih =>
    obtain ⟨bound', rfl⟩ := Nat.exists_eq_add_one_of_ne_zero (Nat.ne_zero_of_lt h)
    have hle := Nat.le_of_succ_le_succ h
    have hE : Engine.Extends ⟨W.evaluate bound, bound⟩ ⟨W'.evaluate bound', bound'⟩ :=
      ⟨ih hle, hle⟩
    exact hW.evalNested hE r

/-- Where reading does not come to an end, an error is raised. -/
def givingUp {κ : Type} (f : Failure) : Watch κ :=
  ⟨pure (), fail f⟩

/-- To give up extends waiting for ever. -/
lemma extends_givingUp (f : Failure) : (idle : Watch Empty).Extends (givingUp f) :=
  ⟨.refl _, extends_diverged _⟩

end Watch

namespace Interp

variable {bound : Nat} {r : Ref} {s : Interp Empty}

/-- **What comes to an end does so with every larger bound.** -/
theorem evaluate_eq_of_le (h : ¬ Diverged (evaluate bound r s)) {bound' : Nat}
    (hle : bound ≤ bound') : evaluate bound' r s = evaluate bound r s := by
  rw [← Watch.quiet_idle.evaluate_eq] at h ⊢
  rw [← Watch.quiet_idle.evaluate_eq]
  exact Watch.Extends.evaluate ⟨.refl _, .refl _⟩ hle r s h

/-- **What comes to an end has not given up.** -/
theorem evaluate_givingUp_eq (h : ¬ Diverged (evaluate bound r s)) (f : Failure) :
    (Watch.givingUp f).evaluate bound r s = evaluate bound r s := by
  rw [← Watch.quiet_idle.evaluate_eq] at h ⊢
  exact (Watch.extends_givingUp f).evaluate (Nat.le_refl bound) r s h

end Interp

end CommandScript
