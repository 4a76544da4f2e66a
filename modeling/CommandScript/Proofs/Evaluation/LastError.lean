import CommandScript.Proofs.Evaluation.Signals
import CommandScript.Proofs.Value.Additions

/-!
# The last error

When an evaluation ends with an error, the interpreter notes what is known of it: what the error
was, and the commands that it has come through. The note is made on every way out but one. An
evaluation that would be nested too deeply is refused before it begins, and this error is not noted:
the next evaluation outwards notes it, if it comes that far. Where it is caught before, the
interpreter still tells of an error before it.

## Main definitions

* `ErrorStack.Describes` — the note tells of the exception.
* `EvalM.Noted` — if the outcome is an error, it is the one that is noted.
* `EvalM.KeepsNote` — the computation adds values at most, and leaves the note alone.

## Main results

* `Interp.noted_evaluate` — what an evaluation that is not nested too deeply ends with is noted.
* `Builtin.intro_errorStack` — `intro errorstack` shows the note.
* `Interp.lastError_noted` — the two together, after an error was caught.
* `Interp.lastError_stale` — an error that is not noted.
-/

set_option autoImplicit false

namespace CommandScript

open EvalM

/-! ## Notes -/

/-- The note tells of the exception: its first entry is a list of the kind and the value of the
exception, and its other entries are the commands that the exception has come through, the innermost
first. -/
def ErrorStack.Describes (values : Store) (stack : ErrorStack) (e : Exception) : Prop :=
  ∃ head code, stack.toList = head :: e.trace ∧
    (head.index < values.cells.size ∧
      (values.cell head).rep = .list (.ofList [code, e.value])) ∧
    code.index < values.cells.size ∧ (values.cell code).text = some e.code.write

/-- A note tells what it told when there are more values. -/
lemma ErrorStack.Describes.added {v w : Store} {stack : ErrorStack} {e : Exception}
    (h : stack.Describes v e) (hvw : v.Added w) : stack.Describes w e := by
  obtain ⟨head, code, hlist, ⟨hhead, hrep⟩, hcode, htext⟩ := h
  refine ⟨head, code, hlist, ⟨?_, ?_⟩, ?_, ?_⟩
  · exact Nat.lt_of_lt_of_le hhead hvw.cells
  · rw [hvw.rep head hhead, hrep]
  · exact Nat.lt_of_lt_of_le hcode hvw.cells
  · exact hvw.text code _ hcode htext

/-- What an interpreter keeps of an exception tells of it. -/
lemma Exception.describes_diagnosis (e : Exception) (s : Store) :
    (e.diagnosis s).1.Describes (e.diagnosis s).2 e := by
  let code := Store.ofText e.code.write s
  let head := Store.ofList [code.1, e.value] code.2
  have hcode : code.1.index < code.2.cells.size := by
    change s.cells.size < (s.cells.push _).size
    simp
  have hhead : head.1.index < head.2.cells.size := by
    change code.2.cells.size < (code.2.cells.push _).size
    simp
  have hadded : code.2.Added head.2 := Store.adds_alloc _ code.2
  have htext : (code.2.cell code.1).text = some e.code.write := by
    rw [show code.2.cell code.1 = { text := some e.code.write } from Store.cell_alloc_self _ s]
  have hrep : (head.2.cell head.1).rep = .list (.ofList [code.1, e.value]) := by
    rw [show head.2.cell head.1 = { text := none, rep := .list (.ofList [code.1, e.value]) } from
      Store.cell_alloc_self _ code.2]
  exact ⟨head.1, code.1, rfl, ⟨hhead, hrep⟩, Nat.lt_of_lt_of_le hcode hadded.cells,
    hadded.text _ _ hcode htext⟩

/-! ## What evaluation notes -/

namespace EvalM

variable {κ α β : Type}

/-- If the outcome is an error, it is the one that is noted. -/
def Noted : EStateM.Result Stop (Interp κ) α → Prop
  | .error (.raised e) t => e.isError = true → t.context.errorStack.Describes t.values e
  | _ => True

/-- After something that is observed, only what comes then can end with an error. -/
lemma Noted.observeBind {m : EvalM κ α} {k : Except Exception α → EvalM κ β}
    (hk : ∀ x t, Noted (k x t)) (s : Interp κ) : Noted ((observe m >>= k) s) := by
  cases hm : m s with
  | ok a t =>
    rw [bind_of_ok (a := .ok a) (t := t) (by rw [observe, hm])]
    exact hk (.ok a) t
  | error stop t =>
    cases stop with
    | raised e =>
      rw [bind_of_ok (a := .error e) (t := t) (by rw [observe, hm])]
      exact hk (.error e) t
    | exited status =>
      rw [bind_of_error (e := .exited status) (t := t) (by rw [observe, hm])]
      trivial
    | fault =>
      rw [bind_of_error (e := .fault) (t := t) (by rw [observe, hm])]
      trivial
    | diverged =>
      rw [bind_of_error (e := .diverged) (t := t) (by rw [observe, hm])]
      trivial

end EvalM

namespace Interp

variable {κ : Type}

/-- An error is noted before it is raised again. -/
lemma noted_noted (outcome : Except Exception Ref) (s : Interp κ) : Noted (noted outcome s) := by
  cases outcome with
  | ok r => trivial
  | error e =>
    change Noted ((noteError e >>= fun _ => raise e : EvalM κ Ref) s)
    by_cases herror : e.isError = true
    · have hnote : noteError e s = .ok () ⟨(e.diagnosis s.values).2,
          { s.context with errorStack := (e.diagnosis s.values).1 }⟩ := by
        unfold noteError
        rw [if_pos herror]
        rfl
      rw [bind_of_ok hnote]
      exact fun _ => e.describes_diagnosis s.values
    · have hnote : noteError e s = .ok () s := by
        unfold noteError
        rw [if_neg herror]
        rfl
      rw [bind_of_ok hnote]
      exact fun h => absurd h herror

/-- Every release of an evaluation is noted, be it a result or an exception. -/
lemma noted_release (outcome : Except Exception Ref) (s : Interp κ) :
    Noted (release outcome s) := by
  change Noted ((if s.context.level = 0 then observe (settle outcome) >>= noted
    else noted outcome) s)
  split
  · exact Noted.observeBind noted_noted s
  · exact noted_noted outcome s

variable [HostCommands κ]

/-- **An evaluation that is not nested too deeply notes the error that it ends with.** -/
lemma noted_evaluate (bound : Nat) (r : Ref) {s : Interp κ}
    (hs : s.context.level < s.context.limit) : Noted (evaluate bound r s) := by
  cases bound with
  | zero => trivial
  | succ bound =>
    obtain ⟨v, c⟩ := s
    change Noted (evalNested _ r ⟨v, c⟩)
    rw [evalNested_apply, if_neg (by change c.level < c.limit at hs; omega)]
    exact Noted.observeBind (fun x t => noted_release x _) ⟨v, { c with level := c.level + 1 }⟩

/-- An evaluation that would be nested too deeply is refused, and nothing is noted. -/
lemma evaluate_of_limit_le (bound : Nat) (r : Ref) {s : Interp κ}
    (hs : s.context.limit ≤ s.context.level) :
    evaluate (bound + 1) r s = fail .nestingTooDeep s := by
  obtain ⟨v, c⟩ := s
  change evalNested _ r ⟨v, c⟩ = _
  rw [evalNested_apply, if_pos (Nat.lt_succ_of_le hs)]

end Interp

/-! ## Catching an error, and asking for it -/

namespace EvalM

variable {κ α β : Type}

/-- If the computation has a result, values were added at most, and the note is the same. -/
def KeepsNote (m : EvalM κ α) : Prop :=
  ∀ s a t, m s = .ok a t →
    s.values.Added t.values ∧ t.context.errorStack = s.context.errorStack

/-- The note is kept along one thing after another. -/
lemma KeepsNote.bind {m : EvalM κ α} {f : α → EvalM κ β} (hm : KeepsNote m)
    (hf : ∀ a, KeepsNote (f a)) : KeepsNote (m >>= f) := by
  intro s b u hbind
  cases hms : m s with
  | ok a t =>
    rw [bind_of_ok hms] at hbind
    obtain ⟨hadded, hnote⟩ := hm s a t hms
    obtain ⟨hadded', hnote'⟩ := hf a t b u hbind
    exact ⟨hadded.trans hadded', hnote'.trans hnote⟩
  | error e t =>
    rw [bind_of_error hms] at hbind
    cases hbind

/-- A result that is there already keeps it. -/
lemma KeepsNote.pure (a : α) : KeepsNote (Pure.pure a : EvalM κ α) := by
  intro s b t h
  cases h
  exact ⟨.refl _, rfl⟩

/-- So does work on values that only adds to them. -/
lemma KeepsNote.lift {m : StoreM α} (hm : m.Adds) : KeepsNote (liftM m : EvalM κ α) := by
  intro s b t h
  cases h
  exact ⟨hm s.values, rfl⟩

/-- So does an attempt that may fail. -/
lemma keepsNote_attempt (x : Except Failure α) : KeepsNote (attempt x : EvalM κ α) := by
  cases x with
  | ok a => exact .pure a
  | error f => exact fun s a t h => nomatch h

/-- So does a look at the context. -/
lemma keepsNote_getContext : KeepsNote (getContext : EvalM κ (Context κ)) := by
  intro s c t h
  cases h
  exact ⟨.refl _, rfl⟩

/-- So does a change of the frames. -/
lemma keepsNote_updateScopes (f : ScopeStack → Except Failure ScopeStack) :
    KeepsNote (updateScopes f : EvalM κ Unit) := by
  refine keepsNote_getContext.bind fun c => (keepsNote_attempt _).bind fun scopes => ?_
  intro s a t h
  cases h
  exact ⟨.refl _, rfl⟩

/-- So does setting a variable. -/
lemma keepsNote_setVar (name : String) (r : Ref) (level : Int) :
    KeepsNote (setVar name r level : EvalM κ Ref) := by
  refine keepsNote_getContext.bind fun c => (keepsNote_attempt _).bind fun _ => ?_
  refine (KeepsNote.lift (Store.enlarges_own r).adds).bind fun r => ?_
  exact (keepsNote_updateScopes _).bind fun _ => .pure r

end EvalM

namespace Builtin

variable {κ : Type}

/-- The answer of a command that catches keeps it. -/
lemma keepsNote_answer (argv : List Ref) (caught : Int32 × Ref) :
    KeepsNote (answer argv caught : EvalM κ (Option Ref)) := by
  have hstatus : KeepsNote (result (Store.ofInt caught.1) : EvalM κ (Option Ref)) :=
    (KeepsNote.lift (Store.adds_alloc _)).bind fun _ => .pure _
  unfold answer
  split
  · refine (KeepsNote.lift (Store.adds_text _)).bind fun name => ?_
    exact (keepsNote_setVar name _ _).bind fun _ => hstatus
  · exact hstatus

/-- Only errors have the status of an error. -/
lemma isError_of_status {e : Exception} (h : e.code.status = 1) : e.isError = true := by
  unfold Exception.isError
  cases hcode : e.code with
  | error => rfl
  | custom label => rfl
  | returned =>
    rw [hcode] at h
    exact absurd h (by decide)
  | broke =>
    rw [hcode] at h
    exact absurd h (by decide)
  | continued =>
    rw [hcode] at h
    exact absurd h (by decide)

variable [HostCommands κ]

/-- What `catch` observes it answers with, and after `catch` the note is what it was when the script
had ended. -/
lemma exists_execute_catch (E : Engine κ) {argv : List Ref} {script : Ref} {s t : Interp κ}
    {outcome : Except Exception Ref} (hscript : argv[1]? = some script) (hlength : argv.length ≤ 3)
    (hobserve : observe (E.eval script) s = .ok outcome t) :
    ∃ q u, Command.execute E argv (.builtin (.control .catch)) s = .ok q u ∧
      (u.values.cell q).rep = .int (caught outcome).1 ∧
      t.values.Added u.values ∧ u.context.errorStack = t.context.errorStack := by
  obtain ⟨q, u, hanswer, hrep⟩ := exists_answer argv (caught outcome) t
  obtain ⟨hadded, hnote⟩ := keepsNote_answer argv (caught outcome) t _ _ hanswer
  refine ⟨q, u, ?_, hrep, hadded, hnote⟩
  rw [execute_catch E s hscript hlength, bind_of_ok hobserve, bind_of_ok hanswer]
  rfl

/-- **If `catch` answers with one, its script has raised an error.** -/
lemma exists_raised_of_catch (E : Engine κ) {argv : List Ref} {script q : Ref} {s u : Interp κ}
    (hscript : argv[1]? = some script) (hlength : argv.length ≤ 3)
    (hcatch : Command.execute E argv (.builtin (.control .catch)) s = .ok q u)
    (hone : (u.values.cell q).rep = .int 1) :
    ∃ e t, E.eval script s = .error (.raised e) t ∧ e.isError = true ∧
      t.values.Added u.values ∧ u.context.errorStack = t.context.errorStack := by
  cases hobserve : observe (E.eval script) s with
  | error stop t =>
    rw [execute_catch E s hscript hlength, bind_of_error hobserve] at hcatch
    cases hcatch
  | ok outcome t =>
    obtain ⟨q', u', hcatch', hrep, hadded, hnote⟩ :=
      exists_execute_catch E hscript hlength hobserve
    rw [hcatch'] at hcatch
    cases hcatch
    have hstatus : (caught outcome).1 = 1 := Rep.int.inj (hrep.symm.trans hone)
    obtain ⟨a, rfl, -⟩ | ⟨e, rfl, hraised⟩ := observe_eq_ok hobserve
    · exact absurd hstatus (by decide : (0 : Int32) ≠ 1)
    · exact ⟨e, t, hraised, isError_of_status hstatus, hadded, hnote⟩

/-- **`intro errorstack` shows the note**, as a list of its entries. -/
lemma intro_errorStack (E : Engine κ) (name topic : Ref) {u : Interp κ}
    (htopic : (Store.text topic u.values).1 = "errorstack") :
    ∃ shown w, Command.execute E [name, topic] (.builtin (.plain .intro)) u = .ok shown w ∧
      (w.values.cell shown).rep = .list (.ofList u.context.errorStack.toList) ∧
      u.values.Added w.values := by
  let known := (Store.text topic u.values).2
  let list := Store.ofList u.context.errorStack.toList known
  have htext : (text topic : EvalM κ String) u = .ok "errorstack" ⟨known, u.context⟩ := by
    rw [← htopic]
    rfl
  have htopics : (subcommand [name, topic] 1 topics : EvalM κ Topic) u =
      .ok .errorStack ⟨known, u.context⟩ := by
    change (text topic >>= fun name => attempt (findSubcommand topics name) : EvalM κ Topic) u = _
    rw [bind_of_ok htext]
    rfl
  have hintro : (Builtin.intro [name, topic] : EvalM κ (Option Ref)) u =
      .ok (some list.1) ⟨list.2, u.context⟩ := by
    unfold Builtin.intro
    rw [bind_of_ok htopics]
    rfl
  have hrun : Command.execute E [name, topic] (.builtin (.plain .intro)) u =
      .ok list.1 ⟨list.2, u.context⟩ := by
    change (Builtin.intro [name, topic] >>= Command.resultOf : EvalM κ Ref) u = _
    rw [bind_of_ok hintro]
    rfl
  refine ⟨list.1, ⟨list.2, u.context⟩, hrun, ?_, ?_⟩
  · change (list.2.cell list.1).rep = _
    rw [show list.2.cell list.1 = { text := none, rep := .list (.ofList _) } from
      Store.cell_alloc_self _ known]
  · exact (Store.adds_text topic u.values).trans (Store.adds_alloc _ known)

end Builtin

namespace Interp

variable {κ : Type} [HostCommands κ]

/-- **The note tells of the last error**, if evaluation is not nested too deeply. Whatever the
commands of an application do, if the evaluation of a value ends with an error:

* below the limit to nesting, the note tells of it on return;
* at the limit, the error says so, and nothing but a value for its message was made;
* below the limit, if `catch` answers with one, the script has raised an error, and the note tells
  of it; and then `intro errorstack` shows the note, which still tells of it. -/
theorem lastError_noted (bound : Nat) (r : Ref) (s : Interp κ) :
    (∀ e t, evaluate bound r s = .error (.raised e) t → e.isError = true →
      (s.context.level < s.context.limit → t.context.errorStack.Describes t.values e) ∧
      (s.context.limit ≤ s.context.level → e.message = Failure.nestingTooDeep.message ∧
        t.context = s.context ∧ s.values.Added t.values)) ∧
    (s.context.level < s.context.limit → ∀ argv q u, argv[1]? = some r → argv.length ≤ 3 →
      Command.execute (engine bound) argv (.builtin (.control .catch)) s = .ok q u →
      (u.values.cell q).rep = .int 1 →
      ∃ e t, evaluate bound r s = .error (.raised e) t ∧ e.isError = true ∧
        u.context.errorStack.Describes u.values e ∧
        ∀ name topic, (Store.text topic u.values).1 = "errorstack" → ∃ shown w,
          Command.execute (engine bound) [name, topic] (.builtin (.plain .intro)) u =
            .ok shown w ∧
          (w.values.cell shown).rep = .list (.ofList u.context.errorStack.toList) ∧
          u.context.errorStack.Describes w.values e) := by
  have hnoted : ∀ e t, evaluate bound r s = .error (.raised e) t → e.isError = true →
      s.context.level < s.context.limit → t.context.errorStack.Describes t.values e := by
    intro e t heval herror hlevel
    have h := noted_evaluate bound r hlevel
    rw [heval] at h
    exact h herror
  refine ⟨fun e t heval herror => ⟨hnoted e t heval herror, fun hlimit => ?_⟩, ?_⟩
  -- at the limit the evaluation is refused before it begins
  · cases bound with
    | zero => cases heval
    | succ bound =>
      rw [evaluate_of_limit_le bound r hlimit] at heval
      cases heval
      exact ⟨rfl, rfl, Store.adds_alloc _ s.values⟩
  -- what is caught has been noted on its way out, and `catch` adds values at most
  · intro hlevel argv q u hargv hlength hcatch hone
    obtain ⟨e, t, heval, herror, hadded, hnote⟩ :=
      Builtin.exists_raised_of_catch (engine bound) hargv hlength hcatch hone
    have hdescribes : u.context.errorStack.Describes u.values e := by
      rw [hnote]
      exact (hnoted e t heval herror hlevel).added hadded
    refine ⟨e, t, heval, herror, hdescribes, fun name topic htopic => ?_⟩
    obtain ⟨shown, w, hintro, hrep, hshown⟩ :=
      Builtin.intro_errorStack (engine bound) name topic htopic
    exact ⟨shown, w, hintro, hrep, hdescribes.added hshown⟩

/-- An interpreter that has caught an error, and now runs a command one level deep, with a limit to
nesting. Its first values are words and a script. -/
def afterCatch (limit : Nat) : Interp Empty :=
  let start : Interp Empty := standard
  let texts := ["catch {throw old}", "throw new", "errorstack"]
  let caught := finalState (evaluate 2 ⟨0⟩ { start with values := (Store.ofTexts texts {}).2 })
  { caught with context := { caught.context with level := 1, limit } }

/-- **At the limit to nesting, the note is stale.** An error that says that evaluation is nested too
deeply is caught, and the interpreter still tells of the error before it. -/
theorem lastError_stale : ∃ e t q u,
    evaluate 1 ⟨1⟩ (afterCatch 1) = .error (.raised e) t ∧ e.isError = true ∧
      ¬ t.context.errorStack.Describes t.values e ∧
      Command.execute (engine 1) [⟨0⟩, ⟨1⟩] (.builtin (.control .catch)) (afterCatch 1) = .ok q u ∧
      (u.values.cell q).rep = .int 1 ∧
      u.context.errorStack = (afterCatch 1).context.errorStack := by
  have hlimit : (afterCatch 1).context.limit ≤ (afterCatch 1).context.level := Nat.le_refl _
  have hentries : (afterCatch 1).context.errorStack.toList.length = 2 := by decide +kernel
  generalize afterCatch 1 = s at *
  obtain ⟨e, t, heval, hcode, htrace, hcontext⟩ : ∃ e t, evaluate 1 ⟨1⟩ s = .error (.raised e) t ∧
      e.code = .error ∧ e.trace = [] ∧ t.context = s.context :=
    ⟨_, _, evaluate_of_limit_le 0 ⟨1⟩ hlimit, rfl, rfl, rfl⟩
  have hobserve : observe (evaluate 1 ⟨1⟩) s = .ok (.error e) t := by rw [observe, heval]
  have hscript : ([⟨0⟩, ⟨1⟩] : List Ref)[1]? = some ⟨1⟩ := rfl
  obtain ⟨q, u, hcatch, hrep, -, hnote⟩ :=
    Builtin.exists_execute_catch (engine 1) hscript (by decide) hobserve
  have hdescribes : ¬ t.context.errorStack.Describes t.values e := by
    -- the error has come through no command, so that a note of it would have one entry
    rintro ⟨head, code, hlist, -⟩
    rw [hcontext, htrace] at hlist
    rw [hlist] at hentries
    cases hentries
  refine ⟨e, t, q, u, heval, ?_, hdescribes, hcatch, ?_, ?_⟩
  · rw [Exception.isError, hcode]
    rfl
  · rw [hrep, Builtin.caught, hcode]
    rfl
  · rw [hnote, hcontext]

/-- An error is caught below the limit to nesting, and the interpreter tells of it. -/
theorem lastError_noted_afterCatch : ∃ e t q u shown w,
    evaluate 2 ⟨1⟩ (afterCatch 2) = .error (.raised e) t ∧ e.isError = true ∧
      t.context.errorStack.Describes t.values e ∧
      Command.execute (engine 2) [⟨0⟩, ⟨1⟩] (.builtin (.control .catch)) (afterCatch 2) =
        .ok q u ∧
      Command.execute (engine 2) [⟨0⟩, ⟨2⟩] (.builtin (.plain .intro)) u = .ok shown w ∧
      (w.values.cell shown).rep = .list (.ofList u.context.errorStack.toList) ∧
      u.context.errorStack.Describes w.values e := by
  have hraised : raisedCode? (evaluate 2 ⟨1⟩ (afterCatch 2)) = some .error := by decide +kernel
  have htopic : (Store.text ⟨2⟩ (finalState (Command.execute (engine 2) [⟨0⟩, ⟨1⟩]
      (.builtin (.control .catch)) (afterCatch 2))).values).1 = "errorstack" := by
    decide +kernel
  have hlevel : (afterCatch 2).context.level < (afterCatch 2).context.limit := Nat.lt_succ_self 1
  generalize afterCatch 2 = s at *
  obtain ⟨e, t, heval, hcode⟩ := raised_of_raisedCode? hraised
  have herror : e.isError = true := by
    unfold Exception.isError
    rw [hcode]
    rfl
  have hobserve : observe (evaluate 2 ⟨1⟩) s = .ok (.error e) t := by rw [observe, heval]
  have hscript : ([⟨0⟩, ⟨1⟩] : List Ref)[1]? = some ⟨1⟩ := rfl
  obtain ⟨q, u, hcatch, hrep, -⟩ :=
    Builtin.exists_execute_catch (engine 2) hscript (by decide) hobserve
  have hone : (u.values.cell q).rep = .int 1 := by
    rw [hrep, Builtin.caught, hcode]
    rfl
  rw [hcatch] at htopic
  obtain ⟨hdescribes, hshown⟩ := lastError_noted 2 ⟨1⟩ s
  obtain ⟨e', t', heval', -, -, hintro⟩ :=
    hshown hlevel [⟨0⟩, ⟨1⟩] q u hscript (by decide) hcatch hone
  obtain ⟨shown, w, hlist, hitems, hnote⟩ := hintro ⟨0⟩ ⟨2⟩ htopic
  rw [heval] at heval'
  cases heval'
  exact ⟨e, t, q, u, shown, w, heval, herror, (hdescribes e t heval herror).1 hlevel, hcatch, hlist,
    hitems, hnote⟩

end Interp

end CommandScript
