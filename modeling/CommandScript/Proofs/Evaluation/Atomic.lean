import CommandScript.Proofs.Evaluation.Signals

/-!
# Failing commands are atomic

A command that runs no script does all that can fail before it changes anything: it asks for texts,
converts its arguments and looks up what it needs, and only then gives a variable a value or binds a
name to a command. So if it ends in an exception, the variables and the commands are what they were.
The same holds of every command whose words are too few or too many, and of `upeval` where there is
no such level, since nothing has been run yet.

How a computation ends is told here by what becomes of the context. All that commands do without
running scripts comes to an end, and that is part of it.

## Main definitions

* `EvalM.EndsIn` — the computation comes to an end, and the context is of this kind.
* `Interp.callOf` — the command that is dispatched to, and where it starts from.
* `Interp.Untouched` — the same frames, version, commands and registrations.

## Main results

* `EvalM.EndsIn.bind` — one thing after another.
* `EvalM.Scriptless.endsIn` — what runs no script comes to an end, and does no more than is said.
* `Command.not_raisesLate_execute` — no command that runs no script fails late.
* `Interp.failing_dispatch_atomic` — a command that is dispatched to and fails has changed nothing.
-/

set_option autoImplicit false

namespace CommandScript

/-! ## How computations end -/

namespace EvalM

variable {κ α β : Type}

/-- The outcome is an end: if it is a result, the context is of the first kind, and if it is an
exception, of the second. The program ends only if it may. -/
def EndsIn (onResult onRaise : Context κ → Prop) (mayExit : Prop) :
    EStateM.Result Stop (Interp κ) α → Prop
  | .ok _ t => onResult t.context
  | .error (.raised _) t => onRaise t.context
  | .error (.exited _) _ => mayExit
  | .error .fault _ => True
  | .error .diverged _ => False

variable {P P' Q Q' : Context κ → Prop} {mayExit mayExit' : Prop}

/-- An end of one kind is one of another if all contexts of the one kind are of the other. -/
lemma EndsIn.imp {o : EStateM.Result Stop (Interp κ) α} (h : EndsIn P Q mayExit o)
    (hP : ∀ c, P c → P' c) (hQ : ∀ c, Q c → Q' c) (hexit : mayExit → mayExit') :
    EndsIn P' Q' mayExit' o := by
  cases o with
  | ok a t => exact hP _ h
  | error e t =>
    cases e with
    | raised e => exact hQ _ h
    | exited status => exact hexit h
    | fault => trivial
    | diverged => exact h

/-- **What comes second starts in the context in which the first has ended.** -/
lemma EndsIn.bind {m : EvalM κ α} {f : α → EvalM κ β} {s : Interp κ}
    (hm : EndsIn P Q mayExit (m s))
    (hf : ∀ a t, m s = .ok a t → P t.context → EndsIn P' Q mayExit (f a t)) :
    EndsIn P' Q mayExit ((m >>= f) s) := by
  cases hms : m s with
  | ok a t =>
    rw [hms] at hm
    rw [bind_of_ok hms]
    exact hf a t hms hm
  | error e t =>
    rw [hms] at hm
    rw [bind_of_error hms]
    cases e with
    | raised e => exact hm
    | exited status => exact hm
    | fault => trivial
    | diverged => exact hm

end EvalM

/-! ## What effects say -/

namespace Effects

/-- The context after a result: it is the same, unless it may be changed. -/
def OnResult {κ : Type} (e : Effects) (c c' : Context κ) : Prop :=
  e.changes = false → c' = c

/-- The context after an exception: there may be one, and it is the same, unless the exception may
come late. -/
def OnRaise {κ : Type} (e : Effects) (c c' : Context κ) : Prop :=
  e.raises = true ∧ (e.raisesLate = false → c' = c)

variable {κ : Type} {d e : Effects} {c c' c'' : Context κ}

/-- What may do less keeps to more. -/
lemma OnResult.mono (h : OnResult d c c') (hle : d ≤ e) : OnResult e c c' := by
  intro hchanges
  refine h (Bool.eq_false_iff.2 fun hd => ?_)
  exact Bool.false_ne_true (hchanges.symm.trans (hle.2.1 hd))

/-- What may do less keeps to more. -/
lemma OnRaise.mono (h : OnRaise d c c') (hle : d ≤ e) : OnRaise e c c' := by
  refine ⟨hle.1 h.1, fun hlate => h.2 (Bool.eq_false_iff.2 fun hd => ?_)⟩
  exact Bool.false_ne_true (hlate.symm.trans (hle.2.2 hd))

/-- If neither of two may change the context, both together do not. -/
lemma OnResult.andThen (h : OnResult d c c') (h' : OnResult e c' c'') :
    OnResult (d.andThen e) c c'' := by
  intro hchanges
  obtain ⟨hd, he⟩ := Bool.or_eq_false_iff.1 hchanges
  exact (h' he).trans (h hd)

/-- An exception in the first of two is one in both together. -/
lemma OnRaise.left (h : OnRaise d c c') : OnRaise (d.andThen e) c c' := by
  refine ⟨by rw [Effects.andThen, h.1, Bool.true_or], fun hlate => h.2 ?_⟩
  exact (Bool.or_eq_false_iff.1 (Bool.or_eq_false_iff.1 hlate).1).1

/-- **An exception in the second of two comes late if the first has changed the context.** -/
lemma OnRaise.right (h : OnResult d c c') (h' : OnRaise e c' c'') :
    OnRaise (d.andThen e) c c'' := by
  refine ⟨by rw [Effects.andThen, h'.1, Bool.or_true], fun hlate => ?_⟩
  obtain ⟨hearly, hchanges⟩ := Bool.or_eq_false_iff.1 hlate
  rw [h'.1, Bool.and_true] at hchanges
  exact (h'.2 (Bool.or_eq_false_iff.1 hearly).2).trans (h hchanges)

end Effects

namespace EvalM

/-- The error for a failure is raised where the computation is. -/
lemma endsIn_fail {κ α : Type} (f : Failure) {mayExit : Prop} (s : Interp κ) :
    EndsIn (Effects.failing.OnResult s.context) (Effects.failing.OnRaise s.context) mayExit
      (fail f s : EStateM.Result Stop (Interp κ) α) :=
  ⟨rfl, fun _ => rfl⟩

/-- **What runs no script comes to an end, and does no more than is said of it**: it changes the
context if it may, raises an exception if it may, and has changed nothing then unless exceptions may
come late. It ends the program only if the command for that is at hand.

**Proof sketch.** Induction on how it is put together. -/
theorem Scriptless.endsIn {κ α : Type} {A : Builtin → Prop} {e : Effects} {m : EvalM κ α}
    (h : Scriptless A e m) (s : Interp κ) :
    EndsIn (e.OnResult s.context) (e.OnRaise s.context) (A (.plain .exit)) (m s) := by
  induction h generalizing s with
  | pure a => exact fun _ => rfl
  | values _ _ => exact fun _ => rfl
  | @convert _ m _ _ =>
    obtain ⟨v, c⟩ := s
    rw [liftConv_apply]
    cases m v with
    | ok a values => exact fun _ => rfl
    | error f values => exact endsIn_fail f ⟨values, c⟩
  | look f => exact fun _ => rfl
  | fail f => exact endsIn_fail f s
  | raise _ _ _ => exact ⟨rfl, fun _ => rfl⟩
  | exit hA status => exact hA
  | change f _ => exact nofun
  | update f _ =>
    obtain ⟨v, c⟩ := s
    unfold EvalM.update
    dsimp only
    split
    · exact nofun
    next f _ => exact ⟨rfl, fun _ => rfl⟩
  --  @bindOf|an exception of the second computation is late if the first one has changed something
  | @bindOf _ _ d e m _ _ _ ihm ihf =>
    have hfirst : EndsIn (d.OnResult s.context) ((d.andThen e).OnRaise s.context)
        (A (.plain .exit)) (m s) := (ihm s).imp (fun _ => id) (fun _ => Effects.OnRaise.left) id
    refine hfirst.bind fun a t hms ht => ?_
    exact (ihf a s t hms t).imp (fun _ => ht.andThen) (fun _ => .right ht) id
  | weaken _ hle ih => exact (ih s).imp (fun _ h => h.mono hle) (fun _ h => h.mono hle) id

end EvalM

open EvalM

namespace Command

/-- No command that runs no script fails when it has changed something. -/
lemma not_raisesLate_execute (b : Builtin.Plain) :
    (Effects.failing.andThen (b.effects.andThen .nothing)).raisesLate = false := by
  cases b <;> rfl

end Command

/-! ## Commands that are refused -/

namespace Builtin

variable {κ : Type}

/-- There is no level that the words of `upeval` ask for, or what they ask for is no integer. -/
def BadLevel (argv : List Ref) (s : Interp κ) : Prop :=
  match argv with
  | [_, _] => ∃ f, s.context.scopes.evalPlace? (-1) = .error f
  | [_, level, _] =>
    match Store.asInt level s.values with
    | .ok n _ => ∃ f, s.context.scopes.evalPlace? n.toInt = .error f
    | .error _ _ => True
  | _ => False

/-- An exception is raised, and the context is what it was. -/
def Refused (o : EStateM.Result Stop (Interp κ) Ref) (s : Interp κ) : Prop :=
  ∃ e t, o = .error (.raised e) t ∧ t.context = s.context

/-- Where there is no such level, nothing is evaluated. -/
lemma refused_evalAt (E : Engine κ) (script : Ref) {level : Int} {f : Failure} {s : Interp κ}
    (h : s.context.scopes.evalPlace? level = .error f) : Refused (evalAt E script level s) s := by
  obtain ⟨v, c⟩ := s
  rw [evalAt_apply, h]
  exact ⟨_, _, rfl, rfl⟩

variable [HostCommands κ]

/-- With too few or too many words, a command is not run. -/
lemma refused_of_arity (E : Engine κ) {b : Builtin} {argv : List Ref} {f : Failure}
    (h : b.arity.check (argv.length - 1) = .error f) (s : Interp κ) :
    Refused (Command.execute E argv (.builtin b) s) s := by
  have hcheck : (attempt (b.arity.check (argv.length - 1)) : EvalM κ Unit) s = fail f s := by
    rw [h]
    rfl
  exact ⟨_, _, bind_of_error hcheck, rfl⟩

/-- A command whose words are neither too few nor too many is run. -/
lemma execute_control (E : Engine κ) {b : Control} {argv : List Ref}
    (h : b.arity.check (argv.length - 1) = .ok ()) :
    Command.execute E argv (.builtin (.control b)) = b.run E argv >>= Command.resultOf := by
  change (attempt (b.arity.check (argv.length - 1)) >>= fun _ =>
    b.run E argv >>= Command.resultOf) = _
  rw [h]
  rfl

/-- Where there is no such level, no script is run. -/
lemma refused_of_badLevel (E : Engine κ) {argv : List Ref} {s : Interp κ} (h : BadLevel argv s) :
    Refused (Command.execute E argv (.builtin (.control .upeval)) s) s := by
  unfold BadLevel at h
  split at h
  next command script =>
    obtain ⟨f, hplace⟩ := h
    obtain ⟨e, t, heval, ht⟩ := refused_evalAt E script hplace
    have hupeval : Builtin.upeval E [command, script] s = .error (.raised e) t :=
      bind_of_error heval
    rw [execute_control E rfl]
    exact ⟨e, t, bind_of_error hupeval, ht⟩
  next command level script =>
    rw [execute_control E rfl]
    -- the level is no integer, or there is no such level
    cases hlevel : Store.asInt level s.values with
    | error f values =>
      have hint : (liftM (Store.asInt level) : EvalM κ Int32) s = fail f ⟨values, s.context⟩ := by
        rw [show s = ⟨s.values, s.context⟩ from rfl, liftConv_apply, hlevel]
      have hupeval : Builtin.upeval E [command, level, script] s = _ := bind_of_error hint
      exact ⟨_, _, bind_of_error hupeval, rfl⟩
    | ok n values =>
      rw [hlevel] at h
      obtain ⟨f, hplace⟩ := h
      have hint : (liftM (Store.asInt level) : EvalM κ Int32) s = .ok n ⟨values, s.context⟩ := by
        rw [show s = ⟨s.values, s.context⟩ from rfl, liftConv_apply, hlevel]
      obtain ⟨e, t, heval, ht⟩ := refused_evalAt E script (s := ⟨values, s.context⟩) hplace
      have hupeval : Builtin.upeval E [command, level, script] s = .error (.raised e) t :=
        (bind_of_ok hint).trans (bind_of_error heval)
      exact ⟨e, t, bind_of_error hupeval, ht⟩
  next => exact h.elim

end Builtin

/-! ## Dispatch -/

namespace TypeCommands

variable {α : Type}

/-- Finding the command for a type registers nothing, and makes no type known. -/
lemma resolve_registrations (t : TypeCommands α) (tag : TypeTag) :
    (t.resolve tag).2.entries = t.entries ∧ (t.resolve tag).2.known = t.known := by
  unfold resolve
  split
  · exact ⟨rfl, rfl⟩
  · split
    · exact ⟨rfl, rfl⟩
    · exact ⟨rfl, rfl⟩

end TypeCommands

namespace Interp

variable {κ : Type}

/-- The frames and their version, the table of commands, the commands registered for types, and the
types that are known by name are the same. -/
structure Untouched (s t : Interp κ) : Prop where
  /-- All frames, and how often they have changed. -/
  scopes : t.context.scopes = s.context.scopes
  /-- What the names of commands stand for, and their order. -/
  commands : t.context.commands = s.context.commands
  /-- The commands registered for types. -/
  entries : t.context.typeCommands.entries = s.context.typeCommands.entries
  /-- The types that are known by name. -/
  known : t.context.typeCommands.known = s.context.typeCommands.known

/-- Only the contexts count. -/
lemma Untouched.of_context_eq {s t u : Interp κ} (h : Untouched s t)
    (hcontext : u.context = t.context) : Untouched s u := by
  obtain ⟨hscopes, hcommands, hentries, hknown⟩ := h
  refine ⟨?_, ?_, ?_, ?_⟩
  · rw [hcontext, hscopes]
  · rw [hcontext, hcommands]
  · rw [hcontext, hentries]
  · rw [hcontext, hknown]

/-- The command that the words are dispatched to, by the first of them or by its type, and the state
in which it starts. By then the text of the first word is known. -/
def callOf (argv : List Ref) (s : Interp κ) : Option (Command κ × Interp κ) :=
  match argv[0]? with
  | none => none
  | some head =>
    let values := (Store.text head s.values).2
    match s.context.commands.find? (Store.text head s.values).1 with
    | some command => some (command, ⟨values, s.context⟩)
    | none =>
      let byType := s.context.typeCommands.resolve (values.typeOf head)
      byType.1.map fun command => (command, ⟨values, { s.context with typeCommands := byType.2 }⟩)

/-- There are two ways to find a command. -/
lemma callOf_cases {argv : List Ref} {s t : Interp κ} {command : Command κ}
    (h : callOf argv s = some (command, t)) :
    ∃ head, argv[0]? = some head ∧
      (s.context.commands.find? (Store.text head s.values).1 = some command ∧
        t = ⟨(Store.text head s.values).2, s.context⟩ ∨
      s.context.commands.find? (Store.text head s.values).1 = none ∧
        ∃ typeCommands, s.context.typeCommands.resolve
            ((Store.text head s.values).2.typeOf head) = (some command, typeCommands) ∧
          t = ⟨(Store.text head s.values).2, { s.context with typeCommands }⟩) := by
  unfold callOf at h
  split at h
  · cases h
  next head hhead =>
    refine ⟨head, hhead, ?_⟩
    dsimp only at h
    split at h
    next found hfound =>
      cases h
      exact .inl ⟨hfound, rfl⟩
    next hfound =>
      obtain ⟨found, hresolve, hpair⟩ := Option.map_eq_some_iff.1 h
      cases hpair
      exact .inr ⟨hfound, _, Prod.ext hresolve rfl, rfl⟩

/-- To find a command changes nothing. -/
lemma untouched_of_callOf {argv : List Ref} {s t : Interp κ} {command : Command κ}
    (h : callOf argv s = some (command, t)) : Untouched s t := by
  obtain ⟨head, -, ⟨-, rfl⟩ | ⟨-, typeCommands, hresolve, rfl⟩⟩ := callOf_cases h
  · exact ⟨rfl, rfl, rfl, rfl⟩
  · have hsame := s.context.typeCommands.resolve_registrations
      ((Store.text head s.values).2.typeOf head)
    rw [hresolve] at hsame
    exact ⟨rfl, rfl, hsame.1, hsame.2⟩

/-- The built-in command that the words are a call of, if they are a call of one. -/
def calledBuiltin? (argv : List Ref) (s : Interp κ) : Option Builtin :=
  match callOf argv s with
  | some (.builtin b, _) => some b
  | _ => none

/-- The call of a built-in command goes to that command. -/
lemma exists_callOf {argv : List Ref} {s : Interp κ} {b : Builtin}
    (h : calledBuiltin? argv s = some b) : ∃ t, callOf argv s = some (.builtin b, t) := by
  unfold calledBuiltin? at h
  split at h
  next b' t hcall =>
    cases h
    exact ⟨t, hcall⟩
  next => cases h

variable [HostCommands κ]

/-- **Words are dispatched to the command that they are a call of.** -/
lemma dispatch_of_callOf (E : Engine κ) {argv : List Ref} {s t : Interp κ} {command : Command κ}
    (h : callOf argv s = some (command, t)) : dispatch E argv s = command.execute E argv t := by
  obtain ⟨head, hhead, hfound⟩ := callOf_cases h
  have harg : (arg argv 0 : EvalM κ Ref) s = .ok head s := by
    unfold arg
    rw [hhead]
    rfl
  have htext : (text head : EvalM κ String) s =
      .ok (Store.text head s.values).1 ⟨(Store.text head s.values).2, s.context⟩ := rfl
  unfold dispatch
  rw [bind_of_ok harg, bind_of_ok htext, getContextBind_apply]
  obtain ⟨hname, rfl⟩ | ⟨hname, typeCommands, hresolve, rfl⟩ := hfound
  · rw [hname]
  · have htype : (typeCommand ((Store.text head s.values).2.typeOf head) :
        EvalM κ (Option (Command κ))) ⟨(Store.text head s.values).2, s.context⟩ =
          .ok (some command) ⟨(Store.text head s.values).2, { s.context with typeCommands }⟩ := by
      unfold typeCommand
      rw [getContextBind_apply]
      dsimp only
      rw [hresolve]
      rfl
    have htag : (typeOf head : EvalM κ TypeTag) ⟨(Store.text head s.values).2, s.context⟩ =
      .ok ((Store.text head s.values).2.typeOf head) _ := rfl
    dsimp only
    rw [hname]
    exact (bind_of_ok htag).trans (bind_of_ok htype)

/-- **A command that fails has changed nothing.** Whatever the state, the commands of an application
and the way in which what is nested is evaluated, if the words are dispatched to a built-in command:

* if it runs no script and an exception is raised, all frames and their version, all commands and
  all registrations are what they were before the dispatch;
* if the words are too few or too many for the command, or it is `upeval` and there is no such level
  or what is asked for is no integer, then an exception is raised, and so it is, too. -/
theorem failing_dispatch_atomic (E : Engine κ) {argv : List Ref} {s t : Interp κ} {b : Builtin}
    (hcall : callOf argv s = some (.builtin b, t)) :
    (∀ p, b = .plain p → ∀ e u, dispatch E argv s = .error (.raised e) u → Untouched s u) ∧
    ((∃ f, b.arity.check (argv.length - 1) = .error f) ∨
        b = .control .upeval ∧ Builtin.BadLevel argv t →
      ∃ e u, dispatch E argv s = .error (.raised e) u ∧ Untouched s u) := by
  rw [dispatch_of_callOf E hcall]
  have hfound := untouched_of_callOf hcall
  have hargv : argv ≠ [] := by
    rintro rfl
    cases hcall
  constructor
  · rintro p rfl e u hraised
    have hrun : Scriptless (fun _ => True) _ (Command.execute E argv (.builtin (.plain p))) :=
      Command.scriptless_execute E trivial hargv
    have hends := hrun.endsIn t
    rw [hraised] at hends
    exact hfound.of_context_eq (hends.2 (Command.not_raisesLate_execute p))
  · intro hrefused
    have hexecute : Builtin.Refused (Command.execute E argv (.builtin b) t) t := by
      obtain ⟨f, hcheck⟩ | ⟨rfl, hlevel⟩ := hrefused
      · exact Builtin.refused_of_arity E hcheck t
      · exact Builtin.refused_of_badLevel E hlevel
    obtain ⟨e, u, hraised, hcontext⟩ := hexecute
    exact ⟨e, u, hraised, hfound.of_context_eq hcontext⟩

/-- An interpreter with a variable that holds no integer. Its first values are words, and the text
that the variable holds. -/
def withText : Interp Empty :=
  let start : Interp Empty := standard
  { values := (Store.ofTexts ["incr", "x", "abc", "upeval"] {}).2
    context := { start.context with
      scopes := { globals := Table.empty.insert "x" (.value ⟨2⟩) } } }

/-- The variable cannot be counted up, a name alone is too little, and there is no level below that
of the global variables: all three fail, and change nothing. -/
theorem failing_dispatch_atomic_withText :
    (∃ e u, dispatch (engine 0) [⟨0⟩, ⟨1⟩] withText = .error (.raised e) u ∧
      Untouched withText u) ∧
    (∃ e u, dispatch (engine 0) [⟨0⟩] withText = .error (.raised e) u ∧ Untouched withText u) ∧
    ∃ e u, dispatch (engine 0) [⟨3⟩, ⟨1⟩] withText = .error (.raised e) u ∧
      Untouched withText u := by
  have hincr : calledBuiltin? [⟨0⟩, ⟨1⟩] withText = some (.plain .incr) := by decide +kernel
  have hshort : calledBuiltin? [⟨0⟩] withText = some (.plain .incr) := by decide +kernel
  have hupeval : calledBuiltin? [⟨3⟩, ⟨1⟩] withText = some (.control .upeval) := by decide +kernel
  have hraised : raisedCode? (dispatch (engine 0) [⟨0⟩, ⟨1⟩] withText) = some .error := by
    decide +kernel
  have hlevel : withText.context.scopes.evalPlace? (-1) = .error (.badLevel (-1)) := rfl
  generalize withText = s at *
  refine ⟨?_, ?_, ?_⟩
  · obtain ⟨t, hcall⟩ := exists_callOf hincr
    obtain ⟨e, u, hraised, -⟩ := raised_of_raisedCode? hraised
    exact ⟨e, u, hraised, (failing_dispatch_atomic (engine 0) hcall).1 _ rfl e u hraised⟩
  · obtain ⟨t, hcall⟩ := exists_callOf hshort
    exact (failing_dispatch_atomic (engine 0) hcall).2 (.inl ⟨_, rfl⟩)
  · obtain ⟨t, hcall⟩ := exists_callOf hupeval
    refine (failing_dispatch_atomic (engine 0) hcall).2 (.inr ⟨rfl, .badLevel (-1), ?_⟩)
    rw [(untouched_of_callOf hcall).scopes, hlevel]

end Interp

end CommandScript
