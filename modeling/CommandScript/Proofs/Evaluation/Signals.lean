import CommandScript.Proofs.Evaluation.NoFault
import CommandScript.Proofs.Evaluation.StackRestoration
import CommandScript.Proofs.Scope.Variables

/-!
# Signals stay where they belong

A script that returns, leaves a loop or goes on with it raises a signal, and a signal travels as an
error does, until something takes it. Each construct takes signals of its own: a procedure and the
outermost evaluation take all of them, `catch` takes whatever is raised, and a loop takes those that
its body raises for loops. So there are places that no signal gets past.

## Main definitions

* `EvalM.RaisesOnly` — what holds of the exception, if the computation ends with one.
* `Exception.ForLoop` — the exception is a signal to a loop.
* `Builtin.Rounds` — the states between the rounds of a loop.
* `Builtin.Caught` — what `catch` makes of the way in which its script ended.

## Main results

* `Interp.raisesOnly_evaluate` — the outermost evaluation raises errors only.
* `Procedure.onlyErrors_call` — so does every call of a procedure.
* `Builtin.caught_execute` — `catch` has a result whatever its script raises.
* `Builtin.raisesOnly_whileLoop` — a signal to a loop comes from the condition of the loop, if it
  gets out at all.
* `Interp.signals_contained` — all of this.
-/

set_option autoImplicit false

namespace CommandScript

/-- The exception is a signal to a loop. -/
def Exception.ForLoop (e : Exception) : Prop :=
  e.code = .broke ∨ e.code = .continued

/-- An error is no signal to a loop. -/
lemma Exception.not_forLoop_of_isError {e : Exception} (h : e.isError = true) : ¬ e.ForLoop := by
  unfold isError at h
  rintro (hcode | hcode)
  · rw [hcode] at h
    cases h
  · rw [hcode] at h
    cases h

/-! ## What is raised -/

namespace EvalM

variable {κ α β : Type} {P Q : Exception → Prop}

/-- What holds of the exception, if the outcome is one. -/
def RaisesOnly (P : Exception → Prop) : EStateM.Result Stop (Interp κ) α → Prop
  | .error (.raised e) _ => P e
  | _ => True

/-- What holds of all exceptions that the computation ends with, wherever it starts. -/
def Throws (P : Exception → Prop) (m : EvalM κ α) : Prop :=
  ∀ s, RaisesOnly P (m s)

/-- What holds of the exceptions that may come may be weakened. -/
lemma RaisesOnly.imp {o : EStateM.Result Stop (Interp κ) α} (h : RaisesOnly P o)
    (hPQ : ∀ e, P e → Q e) : RaisesOnly Q o := by
  cases o with
  | ok a t => trivial
  | error e t =>
    cases e with
    | raised e => exact hPQ e h
    | exited status => trivial
    | fault => trivial
    | diverged => trivial

/-- It holds of the exception that has come. -/
lemma RaisesOnly.of_raised {o : EStateM.Result Stop (Interp κ) α} {e : Exception} {t : Interp κ}
    (h : RaisesOnly P o) (ho : o = .error (.raised e) t) : P e := by
  subst ho
  exact h

/-- What comes second starts from where the first has come to. -/
lemma RaisesOnly.bind {m : EvalM κ α} {f : α → EvalM κ β} {s : Interp κ} (hm : RaisesOnly P (m s))
    (hf : ∀ a t, m s = .ok a t → RaisesOnly P (f a t)) : RaisesOnly P ((m >>= f) s) := by
  change RaisesOnly P (EStateM.bind m f s)
  unfold EStateM.bind
  cases h : m s with
  | ok a t => exact hf a t h
  | error e t =>
    rw [h] at hm
    cases e with
    | raised e => exact hm
    | exited status => trivial
    | fault => trivial
    | diverged => trivial

/-- So it is for computations. -/
lemma Throws.imp {m : EvalM κ α} (h : Throws P m) (hPQ : ∀ e, P e → Q e) : Throws Q m :=
  fun s => (h s).imp hPQ

/-- A result that is there already raises nothing. -/
lemma Throws.pure (a : α) : Throws P (Pure.pure a : EvalM κ α) :=
  fun _ => trivial

/-- One thing after another raises what the one or the other raises. -/
lemma Throws.bind {m : EvalM κ α} {f : α → EvalM κ β} (hm : Throws P m)
    (hf : ∀ a, Throws P (f a)) : Throws P (m >>= f) :=
  fun s => (hm s).bind fun a t _ => hf a t

/-- Work on values raises nothing. -/
lemma Throws.lift (m : StoreM α) : Throws P (liftM m : EvalM κ α) :=
  fun _ => trivial

/-- A variable is looked up. -/
lemma getVar_apply {s : Interp κ} {name : String} {level : Int} {r : Ref}
    (h : s.context.scopes.get name level = .ok r) : getVar name level s = .ok r s := by
  change attempt (s.context.scopes.get name level) s = _
  rw [h]
  rfl

/-- A conversion that succeeds changes nothing but the values. -/
lemma liftConv_of_ok {m : ConvM α} {s : Interp κ} {a : α} {v : Store}
    (h : m s.values = .ok a v) : (liftM m : EvalM κ α) s = .ok a ⟨v, s.context⟩ := by
  obtain ⟨values, c⟩ := s
  rw [liftConv_apply, show m values = .ok a v from h]

/-- What follows a computation on the values goes on with what it yields. -/
lemma liftBind_apply (m : StoreM α) (f : α → EvalM κ β) (s : Interp κ) :
    ((liftM m : EvalM κ α) >>= f) s = f (m s.values).1 ⟨(m s.values).2, s.context⟩ :=
  rfl

/-- What follows a look at the context goes on with it. -/
lemma getContextBind_apply (f : Context κ → EvalM κ β) (s : Interp κ) :
    (getContext >>= f) s = f s.context s :=
  rfl

/-- Nor does a look at the context. -/
lemma throws_getContext : Throws P (getContext : EvalM κ (Context κ)) :=
  fun _ => trivial

/-- Nor does a change of the context. -/
lemma throws_modifyContext (f : Context κ → Context κ) : Throws P (modifyContext f) :=
  fun _ => trivial

/-- An argument that is missing is no exception. -/
lemma throws_fault : Throws P (fault : EvalM κ α) :=
  fun _ => trivial

/-- To raise an exception raises that one. -/
lemma throws_raise {e : Exception} (h : P e) : Throws P (raise e : EvalM κ α) :=
  fun _ => h

/-- An exception that is made a result is not raised. -/
lemma throws_observe (m : EvalM κ α) : Throws P (observe m) := by
  intro s
  unfold observe
  cases m s with
  | ok a t => trivial
  | error e t =>
    cases e with
    | raised e => trivial
    | exited status => trivial
    | fault => trivial
    | diverged => trivial

/-! ## Errors only -/

/-- Nothing but errors are raised. -/
abbrev OnlyErrors (m : EvalM κ α) : Prop :=
  Throws (fun e => e.isError = true) m

/-- The exception for a failure is an error. -/
lemma onlyErrors_fail (f : Failure) : OnlyErrors (fail f : EvalM κ α) :=
  fun _ => rfl

/-- A conversion that fails raises an error. -/
lemma onlyErrors_liftConv (m : ConvM α) : OnlyErrors (liftM m : EvalM κ α) := by
  rintro ⟨v, c⟩
  rw [liftConv_apply]
  cases m v with
  | ok a values => trivial
  | error f values => exact onlyErrors_fail f _

/-- So does an attempt that fails. -/
lemma onlyErrors_attempt (x : Except Failure α) : OnlyErrors (attempt x : EvalM κ α) := by
  cases x with
  | ok a => exact .pure a
  | error f => exact onlyErrors_fail f

/-- So does setting a variable at a level that there is not. -/
lemma onlyErrors_setVar (name : String) (r : Ref) (level : Int) :
    OnlyErrors (setVar name r level : EvalM κ Ref) := by
  refine throws_getContext.bind fun c => (onlyErrors_attempt _).bind fun _ => ?_
  refine (Throws.lift _).bind fun r => Throws.bind ?_ fun _ => .pure r
  refine throws_getContext.bind fun c => (onlyErrors_attempt _).bind fun _ => ?_
  exact throws_modifyContext _

/-- Returning becomes a result, and signals to loops become errors. -/
lemma onlyErrors_settle (x : Except Exception Ref) : OnlyErrors (settle x : EvalM κ Ref) := by
  cases x with
  | ok r => exact .pure r
  | error e =>
    unfold settle
    dsimp only
    split
    next => exact .pure e.value
    next => exact onlyErrors_fail _
    next => exact onlyErrors_fail _
    next hcode => exact throws_raise (by simp [Exception.isError, hcode, Code.isError])
    next hcode => exact throws_raise (by simp [Exception.isError, hcode, Code.isError])

/-- What is observed is what has happened. -/
lemma observe_eq_ok {m : EvalM κ α} {s t : Interp κ} {x : Except Exception α}
    (h : observe m s = .ok x t) :
    (∃ a, x = .ok a ∧ m s = .ok a t) ∨ ∃ e, x = .error e ∧ m s = .error (.raised e) t := by
  unfold observe at h
  split at h
  next a u hm =>
    cases h
    exact .inl ⟨a, rfl, hm⟩
  next e u hm =>
    cases h
    exact .inr ⟨e, rfl, hm⟩
  all_goals cases h

/-- After a nested change, only what comes last can raise an exception. -/
lemma raisesOnly_nested {m : EvalM κ α} {k : Except Exception α → EvalM κ β} {v : Store}
    {c : Context κ} (enter leave : Context κ → Context κ)
    (hk : ∀ x t, observe m ⟨v, enter c⟩ = .ok x t →
      RaisesOnly P (k x ⟨t.values, leave t.context⟩)) :
    RaisesOnly P ((do
      modifyContext enter
      let result ← observe m
      modifyContext leave
      k result) ⟨v, c⟩) :=
  RaisesOnly.bind (m := observe m) (throws_observe m ⟨v, enter c⟩) hk

end EvalM

open EvalM

/-! ## Procedures -/

/-- **A call of a procedure raises nothing but errors.** -/
lemma Procedure.onlyErrors_call {κ : Type} (E : Engine κ) (p : Procedure) (argv : List Ref) :
    OnlyErrors (p.call E argv) := by
  refine (throws_modifyContext _).bind fun _ => (throws_observe _).bind fun result => ?_
  exact (throws_modifyContext _).bind fun _ => onlyErrors_settle result

namespace Command

variable (E : Engine Empty) (argv : List Ref)

/-- What is called as an object raises errors only. -/
lemma onlyErrors_callObject (value : Ref) (object : Option Object) :
    OnlyErrors (callObject E argv value object) := by
  unfold callObject
  split
  next p => exact p.onlyErrors_call E argv
  next => exact (Throws.lift _).bind fun _ => onlyErrors_fail _

/-- A call of a value raises nothing but errors, whether the value is a procedure or not. -/
lemma onlyErrors_invokeValue : OnlyErrors (invokeValue E argv) := by
  rw [invokeValue_eq]
  refine Throws.bind ?_ fun value => Throws.bind (fun _ => trivial) fun o => ?_
  · unfold arg
    split
    · exact .pure _
    · exact throws_fault
  · cases o with
    | some o => exact Throws.bind (fun _ => trivial) (onlyErrors_callObject E argv value)
    | none => exact onlyErrors_callObject E argv value none

end Command

/-! ## The outermost evaluation -/

namespace Interp

/-- An outcome is raised again as it is. -/
lemma raisesOnly_noted {P : Exception → Prop} {x : Except Exception Ref}
    (hx : ∀ e, x = .error e → P e) : Throws P (noted x : EvalM Empty Ref) := by
  cases x with
  | ok r => exact .pure r
  | error e =>
    refine Throws.bind ?_ fun _ => throws_raise (hx e rfl)
    unfold noteError
    split
    · exact (Throws.lift _).bind fun _ => throws_modifyContext _
    · exact .pure _

/-- At the outermost level, nothing but errors come out. -/
lemma raisesOnly_release {s : Interp Empty} (hs : s.context.level = 0)
    (outcome : Except Exception Ref) :
    RaisesOnly (fun e => e.isError = true) (release outcome s) := by
  change RaisesOnly _ ((if s.context.level = 0 then observe (settle outcome) >>= noted
    else noted outcome) s)
  rw [if_pos hs]
  refine RaisesOnly.bind (throws_observe _ s) fun x t hx => raisesOnly_noted ?_ t
  rintro e rfl
  obtain ⟨a, ha, -⟩ | ⟨e', he', hsettle⟩ := observe_eq_ok hx
  · cases ha
  · cases he'
    exact (onlyErrors_settle outcome s).of_raised hsettle

/-- **The outermost evaluation raises nothing but errors.**

**Proof sketch.** When the script has ended, evaluation is nested as deeply as it was before, so it
is at the outermost level that its outcome is released. -/
lemma raisesOnly_evaluate (bound : Nat) (r : Ref) {s : Interp Empty} (hs : s.context.level = 0) :
    RaisesOnly (fun e => e.isError = true) (evaluate bound r s) := by
  cases bound with
  | zero => trivial
  | succ bound =>
    obtain ⟨v, c⟩ := s
    change RaisesOnly _ (evalNested _ r ⟨v, c⟩)
    rw [evalNested_apply]
    split
    · exact onlyErrors_fail _ _
    · refine raisesOnly_nested _ _ fun x t hx => raisesOnly_release ?_ x
      have htraced : Traced (fun _ => True) (scriptOf r >>= runScript (engine bound) none) :=
        (traced_scriptOf r).bind fun script => traced_runScript (traced_evaluate bound) none script
      have hrun := htraced.observe ⟨v, { c with level := c.level + 1 }⟩ (.all _)
      rw [show observe (scriptOf r >>= runScript (engine bound) none) _ = _ from hx] at hrun
      have hlevel : t.context.level = c.level + 1 := hrun.sameHeight.level
      change c.level = 0 at hs
      dsimp only
      omega

/-- Evaluation at another level raises what the script raises there. -/
lemma raisesOnly_evalAt (bound : Nat) (r : Ref) (level : Int) {s : Interp Empty}
    (hs : s.context.level = 0) :
    RaisesOnly (fun e => e.isError = true) (Builtin.evalAt (engine bound) r level s) := by
  obtain ⟨v, c⟩ := s
  rw [Builtin.evalAt_apply]
  split
  next => exact onlyErrors_fail _ _
  next place _ =>
    refine raisesOnly_nested _ _ fun x t hx => ?_
    obtain ⟨a, rfl, -⟩ | ⟨e, rfl, hraised⟩ := observe_eq_ok hx
    · trivial
    · have hscript : RaisesOnly (fun e => e.isError = true) (evaluate bound r ⟨v, { c with
          scopes := (c.scopes.popMany [] (c.scopes.depth - 1 - place)).2 }⟩) :=
        raisesOnly_evaluate bound r hs
      exact hscript.of_raised hraised

end Interp

/-! ## Loops -/

namespace Builtin

variable {κ : Type} {E : Engine κ} {cond body : Ref} {s : Interp κ}

/-- A round of a loop takes the signals to loops. -/
lemma throws_round (E : Engine κ) (body : Ref) : Throws (fun e => ¬ e.ForLoop) (round E body) := by
  refine (throws_observe _).bind fun outcome => ?_
  cases outcome with
  | ok r => exact .pure true
  | error e =>
    dsimp only
    split
    next => exact .pure false
    next => exact .pure true
    next hbroke hcontinued =>
      refine throws_raise ?_
      rintro (hcode | hcode)
      · exact hbroke hcode
      · exact hcontinued hcode

/-- The next item is there, or an empty value is made. -/
lemma throws_loopValue {P : Exception → Prop} (items : List Ref) :
    Throws P (loopValue items : EvalM κ Ref) := by
  unfold loopValue
  split
  · exact .pure _
  · exact .lift _

/-- Binding the loop variables raises what setting a variable raises. -/
lemma throws_bindLoopVars {P : Exception → Prop}
    (hset : ∀ name r, Throws P (setVar name r (-1) : EvalM κ Ref)) (vars items : List Ref) :
    Throws P (bindLoopVars vars items : EvalM κ Unit) := by
  induction vars generalizing items with
  | nil => exact .pure _
  | cons var vars ih =>
    rw [bindLoopVars_cons]
    refine (throws_loopValue items).bind fun r => (Throws.lift _).bind fun name => ?_
    exact (hset name r).bind fun _ => ih items.tail

/-- No signal to a loop gets out of the rounds of `foreach`. -/
lemma throws_foreachLoop (vars : List Ref) (body : Ref) (pieces : List (List Ref)) :
    Throws (fun e => ¬ e.ForLoop) (foreachLoop E vars body pieces) := by
  induction pieces with
  | nil => exact .pure _
  | cons items pieces ih =>
    refine Throws.bind ?_ fun _ => (throws_round E body).bind fun goes => ?_
    · exact throws_bindLoopVars (fun name r => (onlyErrors_setVar name r (-1)).imp fun e =>
        Exception.not_forLoop_of_isError) vars items
    · split
      · exact ih
      · exact .pure _

/-- No signal to a loop gets out of `foreach`. -/
lemma throws_foreach (argv : List Ref) :
    Throws (fun e => ¬ e.ForLoop) (Builtin.foreach E argv) := by
  have herror : ∀ e : Exception, e.isError = true → ¬ e.ForLoop :=
    fun e => Exception.not_forLoop_of_isError
  unfold Builtin.foreach
  split
  · refine ((onlyErrors_liftConv _).imp herror).bind fun vars => ?_
    refine ((onlyErrors_liftConv _).imp herror).bind fun items => ?_
    cases vars with
    | nil => exact (onlyErrors_fail _).imp herror
    | cons var others => exact (throws_foreachLoop _ _ _).bind fun _ => .pure none
  · exact throws_fault

/-- The states between the rounds of a loop that starts with `s`: before each round the condition
holds, and after it the loop goes on. -/
inductive Rounds (E : Engine κ) (cond body : Ref) (s : Interp κ) : Interp κ → Prop where
  /-- Before the first round. -/
  | start : Rounds E cond body s s
  /-- After one more round. -/
  | step {t u w : Interp κ} (h : Rounds E cond body s t) (hcond : condition E cond t = .ok true u)
      (hround : round E body u = .ok true w) : Rounds E cond body s w

/-- The condition is a script, and its evaluation raises the exception. -/
def ConditionRaises (E : Engine κ) (cond : Ref) (s : Interp κ) (e : Exception) : Prop :=
  ∃ values t, Store.bool? cond s.values = (none, values) ∧
    E.eval cond ⟨values, s.context⟩ = .error (.raised e) t

/-- A condition is a truth value, or a script whose result is one. -/
lemma condition_apply (E : Engine κ) (cond : Ref) (s : Interp κ) :
    condition E cond s =
      match Store.bool? cond s.values with
      | (some b, values) => .ok b ⟨values, s.context⟩
      | (none, values) => (do
        let r ← E.eval cond
        (Store.asBool r : ConvM Bool) : EvalM κ Bool) ⟨values, s.context⟩ := by
  unfold condition
  rw [liftBind_apply]
  obtain ⟨known, values⟩ := Store.bool? cond s.values
  cases known with
  | some b => rfl
  | none => rfl

/-- A condition raises errors, and what its script raises. -/
lemma raisesOnly_condition (E : Engine κ) (cond : Ref) (s : Interp κ) :
    RaisesOnly (fun e => e.isError = true ∨ ConditionRaises E cond s e) (condition E cond s) := by
  rw [condition_apply]
  split
  · trivial
  next values hknown =>
    refine RaisesOnly.bind ?_ fun r u _ => (onlyErrors_liftConv _ u).imp fun e => .inl
    cases heval : E.eval cond ⟨values, s.context⟩ with
    | ok r t => trivial
    | error e t =>
      cases e with
      | raised e => exact .inr ⟨values, t, hknown, heval⟩
      | exited status => trivial
      | fault => trivial
      | diverged => trivial

/-- **A signal to a loop that gets out of `while` comes from its condition.**

**Proof sketch.** Induction on the rounds that are left, from any state between two rounds: a round
takes the signals to loops, and what a condition raises is an error or what its script raises. -/
lemma raisesOnly_whileLoop {t : Interp κ} (ht : Rounds E cond body s t) (rounds : Nat) :
    RaisesOnly (fun e => e.ForLoop → ∃ u, Rounds E cond body s u ∧ ConditionRaises E cond u e)
      (whileLoop E cond body rounds t) := by
  induction rounds generalizing t with
  | zero => trivial
  | succ rounds ih =>
    refine RaisesOnly.bind ?_ fun holds u hcond => ?_
    · refine (raisesOnly_condition E cond t).imp ?_
      rintro e (herror | hraises) hloop
      · exact absurd hloop (Exception.not_forLoop_of_isError herror)
      · exact ⟨t, ht, hraises⟩
    · cases holds with
      | false => trivial
      | true =>
        refine RaisesOnly.bind ?_ fun goes w hround => ?_
        · exact (throws_round E body u).imp fun e hnot hloop => absurd hloop hnot
        · cases goes with
          | false => trivial
          | true => exact ih (ht.step hcond hround)

/-! ## Catching -/

/-- What `catch` makes of the way in which its script ended: whatever was raised, there is a result,
and it is zero exactly if nothing was raised. If the script ends the program or does not come to an
end, so it is with `catch`; there is no other way to end. -/
def Caught (script outcome : EStateM.Result Stop (Interp κ) Ref) : Prop :=
  match script with
  | .ok _ _ => ∃ r t, outcome = .ok r t ∧ (t.values.cell r).rep = .int 0
  | .error (.raised e) _ => ∃ r t, outcome = .ok r t ∧
    (t.values.cell r).rep = .int e.code.status ∧ e.code.status ∈ ([1, 2, 3, 4] : List Int32)
  | .error (.exited status) t => outcome = .error (.exited status) t
  | .error .diverged t => outcome = .error .diverged t
  | .error .fault _ => False

/-- The statuses of the codes; a custom code has that of an error. -/
lemma status_mem (code : Code) : code.status ∈ ([1, 2, 3, 4] : List Int32) := by
  cases code with
  | error => decide
  | returned => decide
  | broke => decide
  | continued => decide
  | custom label => exact List.mem_cons_self

/-- The result for a status is held as that integer. -/
lemma result_ofInt (status : Int32) (s : Interp κ) :
    ∃ r t, (result (Store.ofInt status) : EvalM κ (Option Ref)) s = .ok (some r) t ∧
      (t.values.cell r).rep = .int status := by
  refine ⟨⟨s.values.cells.size⟩, _, rfl, ?_⟩
  change ((s.values.cells.push { text := none, rep := .int status })[s.values.cells.size]?.getD
    Store.blank).rep = _
  rw [Array.getElem?_push_size]
  rfl

/-- A variable of the top frame can always be given a value. -/
lemma exists_setVar_top (name : String) (r : Ref) (s : Interp κ) :
    ∃ r' t, setVar name r (-1) s = .ok r' t := by
  obtain ⟨v, c⟩ := s
  have hset : ∃ t, c.scopes.set name (Store.own r v).1 (-1) = .ok t := by
    unfold ScopeStack.set
    rw [ScopeStack.place?_top]
    exact ⟨_, rfl⟩
  obtain ⟨t, ht⟩ := hset
  exact ⟨_, _, ScopeStack.setVar_apply ht⟩

/-- The answer is never an exception. -/
lemma exists_answer (argv : List Ref) (caught : Int32 × Ref) (s : Interp κ) :
    ∃ r t, answer argv caught s = .ok (some r) t ∧ (t.values.cell r).rep = .int caught.1 := by
  unfold answer
  split
  next name =>
    have htext : (text name : EvalM κ String) s = .ok (Store.text name s.values).1
        ⟨(Store.text name s.values).2, s.context⟩ := rfl
    obtain ⟨r', t, hset⟩ := exists_setVar_top (Store.text name s.values).1 caught.2
      ⟨(Store.text name s.values).2, s.context⟩
    rw [bind_of_ok htext, bind_of_ok hset]
    exact result_ofInt caught.1 t
  next => exact result_ofInt caught.1 s

/-- The words of a `catch` with one or two arguments. -/
lemma arity_catch {argv : List Ref} {script : Ref} (hscript : argv[1]? = some script)
    (hlength : argv.length ≤ 3) :
    (Builtin.control .catch).arity.check (argv.length - 1) = .ok () := by
  have hlt : 1 < argv.length := (List.getElem?_eq_some_iff.1 hscript).1
  obtain hlen | hlen : argv.length = 2 ∨ argv.length = 3 := by omega
  · rw [hlen]
    rfl
  · rw [hlen]
    rfl

/-- With one or two arguments, `catch` observes its script and answers. -/
lemma execute_catch [HostCommands κ] (E : Engine κ) {argv : List Ref} {script : Ref} (s : Interp κ)
    (hscript : argv[1]? = some script) (hlength : argv.length ≤ 3) :
    Command.execute E argv (.builtin (.control .catch)) s = (do
      let outcome ← observe (E.eval script)
      let r ← answer argv (caught outcome)
      Command.resultOf r : EvalM κ Ref) s := by
  have harity : (attempt ((Builtin.control .catch).arity.check (argv.length - 1)) :
      EvalM κ Unit) s = .ok () s := by
    rw [arity_catch hscript hlength]
    rfl
  have harg : (arg argv 1 : EvalM κ Ref) s = .ok script s := by
    unfold arg
    rw [hscript]
    rfl
  have hrun : catchSignal E argv s =
      (observe (E.eval script) >>= fun outcome => answer argv (caught outcome)) s := by
    rw [catchSignal_eq, bind_of_ok harg]
  have hexecute : Command.execute E argv (.builtin (.control .catch)) s =
      (catchSignal E argv >>= Command.resultOf) s :=
    bind_of_ok harity
  rw [hexecute, ← bind_assoc]
  change EStateM.bind (catchSignal E argv) _ s = EStateM.bind _ _ s
  unfold EStateM.bind
  rw [hrun]

/-- **Whatever its script raises, `catch` has a result**: the status of what was raised, or zero. -/
lemma caught_execute (E : Engine Empty) {argv : List Ref} {script : Ref} (s : Interp Empty)
    (hscript : argv[1]? = some script) (hlength : argv.length ≤ 3)
    (hfault : ∀ t, E.eval script s ≠ .error .fault t) :
    Caught (E.eval script s) (Command.execute E argv (.builtin (.control .catch)) s) := by
  rw [execute_catch E s hscript hlength]
  have hanswer : ∀ x t, observe (E.eval script) s = .ok x t → ∃ r u,
      (do
        let outcome ← observe (E.eval script)
        let r ← answer argv (caught outcome)
        Command.resultOf r : EvalM Empty Ref) s = .ok r u ∧
      (u.values.cell r).rep = .int (caught x).1 := by
    intro x t hx
    obtain ⟨r, u, hr, hrep⟩ := exists_answer argv (caught x) t
    refine ⟨r, u, ?_, hrep⟩
    rw [bind_of_ok hx, bind_of_ok hr]
    rfl
  cases heval : E.eval script s with
  | ok r t =>
    refine hanswer (.ok r) t ?_
    rw [observe, heval]
  | error e t =>
    cases e with
    | raised e =>
      obtain ⟨r, u, hr, hrep⟩ := hanswer (.error e) t (by rw [observe, heval])
      exact ⟨r, u, hr, hrep, status_mem e.code⟩
    | exited status => exact bind_of_error (by rw [observe, heval])
    | fault => exact absurd heval (hfault t)
    | diverged => exact bind_of_error (by rw [observe, heval])

/-! ## The commands for loops -/

/-- What a built-in command raises is an error of the check of its arguments, or raised by what it
does. -/
lemma raisesOnly_execute_control {P : Exception → Prop} (E : Engine Empty) (b : Control)
    (argv : List Ref) {s : Interp Empty} (hP : ∀ e, e.isError = true → P e)
    (h : RaisesOnly P (b.run E argv s)) :
    RaisesOnly P (Command.execute E argv (.builtin (.control b)) s) := by
  refine RaisesOnly.bind ((onlyErrors_attempt _ s).imp hP) fun _ t ht => ?_
  have hst : t = s := by
    cases hcheck : (Builtin.control b).arity.check (argv.length - 1) with
    | ok _ =>
      rw [hcheck] at ht
      cases ht
      rfl
    | error f =>
      rw [hcheck] at ht
      cases ht
  subst hst
  refine h.bind fun r u _ => ?_
  cases r with
  | some r => trivial
  | none => trivial

end Builtin

namespace Interp

/-- **Signals stay where they belong.** In any state of an interpreter without commands of an
application:

* evaluation at the outermost level, of a value, of a text, or at another level, raises nothing but
  errors;
* so does every call of a procedure, by its name or as a value;
* with one or two arguments, `catch` has a result whatever its script raises, a status of one to
  four, and zero if the script has a result; nothing but the end of the program or a script that
  does not come to an end keeps it from having one, in any state that can come about;
* `foreach` raises no signal to a loop, and `while` only if the script that is its condition raised
  it, after some rounds. -/
theorem signals_contained (bound : Nat) (s : Interp Empty) :
    (s.context.level = 0 →
      (∀ r, RaisesOnly (fun e => e.isError = true) (evaluate bound r s)) ∧
      (∀ script, RaisesOnly (fun e => e.isError = true) ((do
        let r ← (Store.ofText script : StoreM Ref)
        evaluate bound r : EvalM Empty Ref) s)) ∧
      ∀ r level, RaisesOnly (fun e => e.isError = true)
        (Builtin.evalAt (engine bound) r level s)) ∧
    (∀ argv, (∀ p, RaisesOnly (fun e => e.isError = true)
        (Command.execute (engine bound) argv (.procedure p) s)) ∧
      RaisesOnly (fun e => e.isError = true) (Command.execute (engine bound) argv .invoke s)) ∧
    (Reachable s → ∀ argv script, argv[1]? = some script → argv.length ≤ 3 →
      Builtin.Caught (evaluate bound script s)
        (Command.execute (engine bound) argv (.builtin (.control .catch)) s)) ∧
    (∀ argv, RaisesOnly (fun e => ¬ e.ForLoop)
      (Command.execute (engine bound) argv (.builtin (.control .foreach)) s)) ∧
    ∀ argv, RaisesOnly (fun e => e.ForLoop → ∃ name cond body t, argv = [name, cond, body] ∧
        Builtin.Rounds (engine bound) cond body s t ∧
        Builtin.ConditionRaises (engine bound) cond t e)
      (Command.execute (engine bound) argv (.builtin (.control .while)) s) := by
  refine ⟨fun hs => ⟨fun r => raisesOnly_evaluate bound r hs, fun script => ?_,
    fun r level => raisesOnly_evalAt bound r level hs⟩, fun argv => ⟨fun p => ?_, ?_⟩,
    fun hs argv script hscript hlength => Builtin.caught_execute (engine bound) s hscript hlength
      (hs.evaluate_ne_fault bound script),
    fun argv => ?_, fun argv => ?_⟩
  · rw [liftBind_apply]
    exact raisesOnly_evaluate bound _ hs
  · exact p.onlyErrors_call (engine bound) argv s
  · exact Command.onlyErrors_invokeValue (engine bound) argv s
  · exact Builtin.raisesOnly_execute_control _ _ _ (fun e => Exception.not_forLoop_of_isError)
      (Builtin.throws_foreach argv s)
  · refine Builtin.raisesOnly_execute_control _ _ _
      (fun e herror hloop => absurd hloop (Exception.not_forLoop_of_isError herror)) ?_
    change RaisesOnly _ (Builtin.loopWhile (engine bound) argv s)
    unfold Builtin.loopWhile
    split
    next name cond body =>
      refine RaisesOnly.bind ?_ fun _ _ _ => trivial
      refine (Builtin.raisesOnly_whileLoop .start _).imp fun e h hloop => ?_
      obtain ⟨t, ht, hraises⟩ := h hloop
      exact ⟨name, cond, body, t, rfl, ht, hraises⟩
    next => trivial

/-- Two words: the name of a command, and a script that leaves a loop. -/
def catchBreak : StoreM Ref := do
  let _ ← Store.ofText "catch"
  Store.ofText "break"

/-- An interpreter with a script that leaves a loop, nested as deeply as it says. -/
def withBreak (level : Nat) : Interp Empty :=
  let start : Interp Empty := standard
  { values := (catchBreak {}).2
    context := { start.context with level } }

/-- The interpreter of the example can be reached. -/
lemma reachable_withBreak (level : Nat) : Reachable (withBreak level) := by
  have hgrows : catchBreak.Grows :=
    (Store.grows_alloc (by trivial)).bind fun _ => Store.grows_alloc trivial
  exact (Reachable.start _).run (.values (hgrows {}))

/-- The code of the exception that is raised, if one is. -/
def raisedCode? : EStateM.Result Stop (Interp Empty) Ref → Option Code
  | .error (.raised e) _ => some e.code
  | _ => none

/-- An outcome with a code is an exception with that code. -/
lemma raised_of_raisedCode? {o : EStateM.Result Stop (Interp Empty) Ref} {code : Code}
    (h : raisedCode? o = some code) : ∃ e t, o = .error (.raised e) t ∧ e.code = code := by
  unfold raisedCode? at h
  split at h
  next e t => exact ⟨e, t, rfl, Option.some.inj h⟩
  next => cases h

/-- Where there is no loop to leave, leaving a loop is an error; but it can be caught as the signal
that it is. -/
theorem signals_contained_withBreak :
    (∃ e t, evaluate 1 ⟨1⟩ (withBreak 0) = .error (.raised e) t ∧ e.isError = true) ∧
      ∃ r t, Command.execute (engine 1) [⟨0⟩, ⟨1⟩] (.builtin (.control .catch)) (withBreak 1) =
        .ok r t ∧ (t.values.cell r).rep = .int 3 := by
  constructor
  · have hraised : raisedCode? (evaluate 1 ⟨1⟩ (withBreak 0)) = some .error := by decide +kernel
    have hlevel : (withBreak 0).context.level = 0 := rfl
    generalize withBreak 0 = s at *
    obtain ⟨⟨hevaluate, -⟩, -⟩ := (signals_contained 1 s).imp_left fun h => h hlevel
    obtain ⟨e, t, heval, -⟩ := raised_of_raisedCode? hraised
    exact ⟨e, t, heval, (hevaluate ⟨1⟩).of_raised heval⟩
  · have hbroke : raisedCode? (evaluate 1 ⟨1⟩ (withBreak 1)) = some .broke := by decide +kernel
    have hreachable := reachable_withBreak 1
    generalize withBreak 1 = s at *
    obtain ⟨-, -, hcatch, -⟩ := signals_contained 1 s
    have hcaught := hcatch hreachable [⟨0⟩, ⟨1⟩] ⟨1⟩ rfl (by decide)
    obtain ⟨e, t, heval, hcode⟩ := raised_of_raisedCode? hbroke
    rw [heval] at hcaught
    obtain ⟨r, u, hexecute, hrep, -⟩ := hcaught
    rw [hcode] at hrep
    exact ⟨r, u, hexecute, hrep⟩

end Interp

end CommandScript
