import CommandScript.Proofs.Evaluation.Trace
import CommandScript.Proofs.Scope.Frames
import CommandScript.Proofs.Value.Literals

/-!
# What an interpreter has in its keeping

An interpreter keeps references in many places: in variables, in procedures, in what it knows of the
last error. All of them go to values that are there, and the values of variables belong to no
script. Computations keep it so: what they pass on, as a result or with an exception, is there, and
what they put into a variable is copied if it belongs to a script.

Some commands collect the values that they are given in a list: `list` and `lappend`, a procedure
with its last parameter, and `throw`, since what is known of an error is a list. Where none of them
is at hand, lists are *tidy*: no element of a list belongs to a script.

## Main definitions

* `Builtin.collectors` — the commands that collect the values that they are given.
* `ScopeStack.Closed`, `Context.Closed`, `Interp.Closed` — what an interpreter has in its keeping.
* `EvalM.KeptOutcome`, `EvalM.Keeps` — the computation keeps an interpreter closed, whatever its
  outcome.

## Main results

* `EvalM.Keeps.bind`, `EvalM.Keeps.observe`, `EvalM.Keeps.lift`, `EvalM.Keeps.liftConv` —
  computations made of others.
* `EvalM.keeps_setVar`, `EvalM.keeps_getVar` — variables.
* `Procedure.keeps_call` — calls of procedures.
-/

set_option autoImplicit false

namespace CommandScript

open Marks

/-! ## Variables -/

/-- The values of the variables in a frame belong to no script. -/
def Frame.Closed (μ : Marks) (f : Frame) : Prop :=
  ∀ r, Binding.value r ∈ f.values → μ.Free r

/-- A frame is closed when there are more values. -/
lemma Frame.Closed.mono {μ μ' : Marks} {f : Frame} (h : Frame.Closed μ f) (hμ : μ <+: μ') :
    Frame.Closed μ' f :=
  fun r hr => (h r hr).mono hμ

/-- What a variable is bound to belongs to no script. -/
lemma Frame.Closed.find? {μ : Marks} {f : Frame} {name : String} {r : Ref} (h : Frame.Closed μ f)
    (hfind : f.find? name = some (.value r)) : μ.Free r :=
  h r (Table.mem_values_of_find? hfind)

namespace ScopeStack

variable {μ μ' : Marks} {s t : ScopeStack}

/-- The values of all variables belong to no script. -/
structure Closed (μ : Marks) (s : ScopeStack) : Prop where
  /-- The frame at the bottom. -/
  globals : Frame.Closed μ s.globals
  /-- The frames above it. -/
  locals : ∀ f ∈ s.locals.toList, Frame.Closed μ f

/-- There are no variables at the start. -/
lemma closed_empty : Closed μ {} :=
  ⟨fun _ h => (nomatch h), fun _ h => (nomatch h)⟩

/-- Frames are closed when there are more values. -/
lemma Closed.mono (hs : s.Closed μ) (hμ : μ <+: μ') : s.Closed μ' :=
  ⟨hs.globals.mono hμ, fun f hf => (hs.locals f hf).mono hμ⟩

/-- To count a change leaves the frames alone. -/
lemma Closed.touch (hs : s.Closed μ) : s.touch.Closed μ :=
  ⟨hs.globals, hs.locals⟩

/-- Each single frame is closed. -/
lemma Closed.frame (hs : s.Closed μ) (place : Nat) : Frame.Closed μ (s.frame place) := by
  cases place with
  | zero => exact hs.globals
  | succ place =>
    rw [frame_succ]
    cases hf : s.locals.toList[place]? with
    | some f => exact hs.locals f (List.mem_of_getElem? hf)
    | none => exact fun r hr => nomatch hr

/-- A closed frame may be put at a place. -/
lemma Closed.setFrame {f : Frame} (hs : s.Closed μ) (hf : Frame.Closed μ f) (place : Nat) :
    (s.setFrame place f).Closed μ := by
  cases place with
  | zero => exact ⟨hf, hs.locals⟩
  | succ place =>
    refine ⟨hs.globals, fun g hg => ?_⟩
    change g ∈ (s.locals.set place f).toList at hg
    rw [Stack.toList_set] at hg
    obtain hg | rfl := List.mem_or_eq_of_mem_set hg
    · exact hs.locals g hg
    · exact hf

/-- What a name stands for at a place belongs to no script. -/
lemma Closed.valueAt? (hs : s.Closed μ) {name : String} {place : Nat} {r : Ref}
    (h : s.valueAt? name place = some r) : μ.Free r := by
  unfold ScopeStack.valueAt? globalValue? at h
  split at h
  next hfind =>
    cases h
    exact (hs.frame place).find? hfind
  next =>
    split at h
    next hfind =>
      cases h
      exact hs.globals.find? hfind
    next => cases h
  next => cases h

/-- So does the value that is looked up. -/
lemma Closed.get (hs : s.Closed μ) {name : String} {level : Int} {r : Ref}
    (h : s.get name level = .ok r) : μ.Free r := by
  unfold ScopeStack.get at h
  split at h
  · cases h
  · split at h
    next hvalue =>
      cases h
      exact hs.valueAt? hvalue
    next => cases h

/-- A value that belongs to no script may be given to a variable. -/
lemma Closed.set (hs : s.Closed μ) {name : String} {r : Ref} {level : Int} (hr : μ.Free r)
    (h : s.set name r level = .ok t) : t.Closed μ := by
  unfold ScopeStack.set at h
  split at h
  · cases h
  next place _ =>
    cases h
    refine (hs.setFrame (fun q hq => ?_) _).touch
    obtain hq | hq := Table.mem_values_insert hq
    · cases hq
      exact hr
    · exact hs.frame _ q hq

/-- A variable may be removed. -/
lemma Closed.unset (hs : s.Closed μ) {name : String} {level : Int}
    (h : s.unset name level = .ok t) : t.Closed μ := by
  unfold ScopeStack.unset at h
  split at h
  · cases h
  next place _ =>
    have herased : (s.setFrame place ((s.frame place).erase name)).Closed μ :=
      hs.setFrame (fun r hr => hs.frame place r (Table.mem_values_erase hr)) place
    split at h
    · cases h
    · cases h
      split
      · exact ⟨fun r hr => herased.globals r (Table.mem_values_erase hr), herased.locals⟩
      · exact herased.touch

/-- A closed frame may be put on top. -/
lemma Closed.pushFrame {f : Frame} (hs : s.Closed μ) (hf : Frame.Closed μ f) :
    (s.pushFrame f).Closed μ := by
  refine ⟨hs.globals, fun g hg => ?_⟩
  change g ∈ (s.locals.push f).toList at hg
  rw [Stack.toList_push] at hg
  obtain hg | hg := List.mem_append.1 hg
  · exact hs.locals g hg
  · rw [List.mem_singleton.1 hg]
    exact hf

/-- So may an empty one. -/
lemma Closed.push (hs : s.Closed μ) : s.push.Closed μ :=
  hs.pushFrame fun _ hr => nomatch hr

/-- A link to a global variable holds no value. -/
lemma Closed.linkGlobal (hs : s.Closed μ) (name : String) : (s.linkGlobal name).Closed μ := by
  unfold ScopeStack.linkGlobal
  split
  · exact hs
  next f locals hpop =>
    have hlist := Stack.toList_of_pop hpop
    have hbelow : Closed μ { s with locals } := ⟨hs.globals, fun g hg =>
      hs.locals g (hlist ▸ List.mem_append_left _ hg)⟩
    refine hbelow.pushFrame fun r hr => ?_
    obtain hr | hr := Table.mem_values_insert hr
    · cases hr
    · exact hs.locals f (hlist ▸ List.mem_append_right _ List.mem_cons_self) r hr

/-- A frame that is taken off, and those that are left. -/
lemma Closed.pop (hs : s.Closed μ) :
    s.pop.2.Closed μ ∧ ∀ f, s.pop.1 = some f → Frame.Closed μ f := by
  unfold ScopeStack.pop
  cases hpop : s.locals.pop with
  | none => exact ⟨hs, fun _ h => nomatch h⟩
  | some top =>
    have hlist := Stack.toList_of_pop hpop
    refine ⟨⟨hs.globals, fun g hg => hs.locals g (hlist ▸ List.mem_append_left _ hg)⟩, ?_⟩
    intro f hf
    cases hf
    exact hs.locals _ (hlist ▸ List.mem_append_right _ List.mem_cons_self)

/-- Frames may be taken away, and are closed. -/
lemma Closed.popMany (hs : s.Closed μ) (count : Nat) {taken : List Frame}
    (htaken : ∀ f ∈ taken, Frame.Closed μ f) : (popMany taken count s).2.Closed μ ∧
      ∀ f ∈ (popMany taken count s).1, Frame.Closed μ f := by
  induction count generalizing taken s with
  | zero => exact ⟨hs, htaken⟩
  | succ count ih =>
    obtain ⟨hrest, htop⟩ := hs.pop
    unfold ScopeStack.popMany
    cases hpop : s.pop with
    | mk top rest =>
      rw [hpop] at hrest htop
      cases top with
      | none => exact ⟨hrest, htaken⟩
      | some f =>
        refine ih hrest fun g hg => ?_
        obtain rfl | hg := List.mem_cons.1 hg
        · exact htop _ rfl
        · exact htaken g hg

/-- They may be put back. -/
lemma Closed.pushMany {frames : List Frame} (hs : s.Closed μ)
    (hframes : ∀ f ∈ frames, Frame.Closed μ f) : (s.pushMany frames).Closed μ := by
  induction frames generalizing s with
  | nil => exact hs
  | cons f frames ih =>
    exact ih (hs.pushFrame (hframes f List.mem_cons_self))
      fun g hg => hframes g (List.mem_cons_of_mem _ hg)

end ScopeStack

/-! ## Commands and contexts -/

/-- The commands that put the values they are given into a list: in their result, in a variable, or
in what is known of an error. A procedure does so with the arguments that are left. -/
def Builtin.collectors : List Builtin :=
  [.plain .list, .plain .lappend, .plain .throw, .plain .proc]

/-- The values that a command is made of are there. If lists are to be tidy, it collects no
values. -/
def Command.Closed (tidy : Prop) (μ : Marks) : Command Empty → Prop
  | .builtin b => tidy → b ∉ Builtin.collectors
  | .procedure p => ¬ tidy ∧ p.Valid μ
  | _ => True

/-- What a context has in its keeping is there. -/
structure Context.Closed (tidy : Prop) (μ : Marks) (c : Context Empty) : Prop where
  /-- What a name stands for. -/
  byName : ∀ name command, c.commands.find? name = some command → command.Closed tidy μ
  /-- What is found for a type. -/
  byType : ∀ tag command, (c.typeCommands.resolve tag).1 = some command → command.Closed tidy μ
  /-- The variables. -/
  scopes : c.scopes.Closed μ
  /-- What is known of the last error. -/
  errorStack : c.errorStack.Closed μ

/-- What an interpreter has in its keeping is there. -/
structure Interp.Closed (tidy : Prop) (μ : Marks) (s : Interp Empty) : Prop where
  /-- Its values. -/
  values : s.values.Closed tidy μ
  /-- All else. -/
  context : s.context.Closed tidy μ

/-- A command is closed when there are more values. -/
lemma Command.Closed.mono {tidy : Prop} {μ μ' : Marks} {command : Command Empty}
    (h : command.Closed tidy μ) (hμ : μ <+: μ') : command.Closed tidy μ' := by
  cases command with
  | builtin b => exact h
  | procedure p => exact ⟨h.1, h.2.mono hμ⟩
  | _ => trivial

/-- So is a context. -/
lemma Context.Closed.mono {tidy : Prop} {μ μ' : Marks} {c : Context Empty} (h : c.Closed tidy μ)
    (hμ : μ <+: μ') : c.Closed tidy μ' :=
  ⟨fun name command hfind => (h.byName name command hfind).mono hμ,
    fun tag command hfound => (h.byType tag command hfound).mono hμ, h.scopes.mono hμ,
    firm_free.all hμ h.errorStack⟩

namespace EvalM

variable {α β : Type} {tidy : Prop} {μ : Marks} {R : Marks → α → Prop} {S : Marks → β → Prop}

/-- **The outcome of a computation** that started with the marks `μ`: there are these marks and
perhaps more, the interpreter is closed, and what is passed on is of this kind. -/
inductive KeptOutcome (tidy : Prop) (μ : Marks) (R : Marks → α → Prop) :
    EStateM.Result Stop (Interp Empty) α → Prop
  /-- There is a result. -/
  | ok {a : α} {s : Interp Empty} {μ' : Marks} (hμ : μ <+: μ') (hs : s.Closed tidy μ')
    (h : R μ' a) : KeptOutcome tidy μ R (.ok a s)
  /-- An exception is raised. -/
  | raised {e : Exception} {s : Interp Empty} {μ' : Marks} (hμ : μ <+: μ') (hs : s.Closed tidy μ')
    (h : e.Closed tidy μ') : KeptOutcome tidy μ R (.error (.raised e) s)
  /-- The program is to end. -/
  | exited {status : Int32} {s : Interp Empty} {μ' : Marks} (hμ : μ <+: μ')
    (hs : s.Closed tidy μ') : KeptOutcome tidy μ R (.error (.exited status) s)
  /-- An argument is not there. -/
  | fault {s : Interp Empty} {μ' : Marks} (hμ : μ <+: μ') (hs : s.Closed tidy μ') :
    KeptOutcome tidy μ R (.error .fault s)
  /-- Time has run out. -/
  | diverged {s : Interp Empty} {μ' : Marks} (hμ : μ <+: μ') (hs : s.Closed tidy μ') :
    KeptOutcome tidy μ R (.error .diverged s)

/-- From closed interpreters with the marks `μ`, the computation comes to closed ones. -/
def Keeps (tidy : Prop) (μ : Marks) (R : Marks → α → Prop) (m : EvalM Empty α) : Prop :=
  ∀ s, s.Closed tidy μ → KeptOutcome tidy μ R (m s)

/-! ## Outcomes -/

/-- What is kept from later marks on is kept from earlier ones on. -/
lemma KeptOutcome.of_le {μ' : Marks} {o : EStateM.Result Stop (Interp Empty) α}
    (hμ : μ <+: μ') (h : KeptOutcome tidy μ' R o) : KeptOutcome tidy μ R o := by
  cases h with
  | ok hμ' hs h => exact .ok (hμ.trans hμ') hs h
  | raised hμ' hs h => exact .raised (hμ.trans hμ') hs h
  | exited hμ' hs => exact .exited (hμ.trans hμ') hs
  | fault hμ' hs => exact .fault (hμ.trans hμ') hs
  | diverged hμ' hs => exact .diverged (hμ.trans hμ') hs

/-- Whatever the outcome, the interpreter is closed. -/
lemma KeptOutcome.closed {o : EStateM.Result Stop (Interp Empty) α} (h : KeptOutcome tidy μ R o) :
    ∃ μ', μ <+: μ' ∧ (finalState o).Closed tidy μ' := by
  cases h with
  | ok hμ hs _ => exact ⟨_, hμ, hs⟩
  | raised hμ hs _ => exact ⟨_, hμ, hs⟩
  | exited hμ hs => exact ⟨_, hμ, hs⟩
  | fault hμ hs => exact ⟨_, hμ, hs⟩
  | diverged hμ hs => exact ⟨_, hμ, hs⟩

/-! ## Computations made of others -/

/-- What is said of the result may be weakened. -/
lemma Keeps.imp {R' : Marks → α → Prop} {m : EvalM Empty α} (hm : Keeps tidy μ R m)
    (h : ∀ μ' a, μ <+: μ' → R μ' a → R' μ' a) : Keeps tidy μ R' m := by
  intro s hs
  have hout := hm s hs
  generalize m s = o at hout ⊢
  cases hout with
  | ok hμ hs' ha => exact .ok hμ hs' (h _ _ hμ ha)
  | raised hμ hs' he => exact .raised hμ hs' he
  | exited hμ hs' => exact .exited hμ hs'
  | fault hμ hs' => exact .fault hμ hs'
  | diverged hμ hs' => exact .diverged hμ hs'

/-- A result that is there already keeps everything. -/
lemma Keeps.pure {a : α} (h : R μ a) : Keeps tidy μ R (Pure.pure a) :=
  fun _ hs => .ok List.prefix_rfl hs h

/-- One thing after another keeps everything, if both do. -/
lemma Keeps.bind {m : EvalM Empty α} {f : α → EvalM Empty β} (hm : Keeps tidy μ R m)
    (hf : ∀ μ' a, μ <+: μ' → R μ' a → Keeps tidy μ' S (f a)) : Keeps tidy μ S (m >>= f) := by
  intro s hs
  have hout := hm s hs
  change KeptOutcome tidy μ S (EStateM.bind m f s)
  unfold EStateM.bind
  generalize m s = o at hout ⊢
  cases hout with
  | ok hμ hs' ha => exact (hf _ _ hμ ha _ hs').of_le hμ
  | raised hμ hs' he => exact .raised hμ hs' he
  | exited hμ hs' => exact .exited hμ hs'
  | fault hμ hs' => exact .fault hμ hs'
  | diverged hμ hs' => exact .diverged hμ hs'

/-- What comes first does not matter to what comes second. -/
lemma Keeps.bindAny {m : EvalM Empty α} {f : α → EvalM Empty β} (hm : Keeps tidy μ R m)
    (hf : ∀ μ' a, Keeps tidy μ' S (f a)) : Keeps tidy μ S (m >>= f) :=
  hm.bind fun μ' a _ _ => hf μ' a

/-- So does what is done for each of many things. -/
lemma Keeps.forM {f : α → EvalM Empty PUnit}
    (hf : ∀ μ' a, μ <+: μ' → Keeps tidy μ' Anything (f a)) (as : List α) :
    Keeps tidy μ Anything (as.forM f) := by
  induction as generalizing μ with
  | nil => exact .pure trivial
  | cons a as ih =>
    exact (hf μ a List.prefix_rfl).bind fun μ₁ _ h₁ _ => ih fun μ' a h' => hf μ' a (h₁.trans h')

/-- So does work on values. -/
lemma Keeps.lift {m : StoreM α} (hm : m.Makes tidy μ R) : Keeps tidy μ R (liftM m) := by
  rintro ⟨v, c⟩ hs
  obtain ⟨μ', hμ, hv, ha⟩ := hm v hs.values
  exact .ok hμ ⟨hv, hs.context.mono hμ⟩ ha

/-- Raising the error for a failure. -/
lemma keeps_fail (f : Failure) : Keeps tidy μ R (fail f) := by
  rintro ⟨v, c⟩ hs
  obtain ⟨μ', hμ, hv, he⟩ := Exception.makes_ofFailure f v hs.values
  exact .raised hμ ⟨hv, hs.context.mono hμ⟩ he

/-- So does a conversion. -/
lemma Keeps.liftConv {m : ConvM α} (hm : m.Makes tidy μ R) : Keeps tidy μ R (liftM m) := by
  rintro ⟨v, c⟩ hs
  obtain ⟨μ', hμ, hv, ha⟩ := hm v hs.values
  rw [liftConv_apply]
  cases hmv : m v with
  | ok a v' =>
    rw [hmv] at hv
    exact .ok hμ ⟨hv, hs.context.mono hμ⟩ (ha a v' hmv)
  | error f v' =>
    rw [hmv] at hv
    exact (keeps_fail f ⟨v', c⟩ ⟨hv, hs.context.mono hμ⟩).of_le hμ

/-! ## Looking and changing -/

/-- A look at the context. -/
lemma Keeps.getContextBind {f : Context Empty → EvalM Empty β}
    (hf : ∀ c, c.Closed tidy μ → Keeps tidy μ S (f c)) : Keeps tidy μ S (getContext >>= f) :=
  fun s hs => hf s.context hs.context s hs

/-- So does a change that leaves contexts closed. -/
lemma keeps_modifyContext {f : Context Empty → Context Empty}
    (h : ∀ c, c.Closed tidy μ → (f c).Closed tidy μ) : Keeps tidy μ Anything (modifyContext f) :=
  fun _ hs => .ok List.prefix_rfl ⟨hs.values, h _ hs.context⟩ trivial

/-- To ask for the type of a value changes nothing. -/
lemma keeps_typeOf (r : Ref) : Keeps tidy μ Anything (typeOf r) :=
  fun _ hs => .ok List.prefix_rfl hs trivial

/-- Nor does asking for the object that it is. -/
lemma keeps_objectOf? (r : Ref) : Keeps tidy μ Anything (objectOf? r) :=
  fun _ hs => .ok List.prefix_rfl hs trivial

/-- An object that is looked up is in the keeping of the interpreter. -/
lemma keeps_object? (o : ObjectRef) :
    Keeps tidy μ (fun μ' object => ∀ q, object = some q → q.Closed tidy μ') (object? o) :=
  fun _ hs => .ok List.prefix_rfl hs fun q hq => hs.values.objects o q hq

/-- The text of a value may be asked for. -/
lemma keeps_text (r : Ref) : Keeps tidy μ Anything (text r) :=
  .lift (Store.makes_text r)

/-- A value may be taken as an integer. -/
lemma keeps_asInt (r : Ref) : Keeps tidy μ Anything (liftM (Store.asInt r)) :=
  .liftConv (Store.makes_asInt r)

/-! ## Failing and catching -/

/-- A closed exception may be raised. -/
lemma keeps_raise {e : Exception} (h : e.Closed tidy μ) : Keeps tidy μ R (raise e) :=
  fun _ hs => .raised List.prefix_rfl hs h

/-- Where an argument is missing, nothing has changed. -/
lemma keeps_fault : Keeps tidy μ R fault :=
  fun _ hs => .fault List.prefix_rfl hs

/-- Nor has anything when the program ends. -/
lemma keeps_exit (status : Int32) : Keeps tidy μ R (throw (.exited status)) :=
  fun _ hs => .exited List.prefix_rfl hs

/-- Nor has anything when time has run out. -/
lemma keeps_diverged : Keeps tidy μ R (throw .diverged) :=
  fun _ hs => .diverged List.prefix_rfl hs

/-- An attempt changes nothing. -/
lemma keeps_attempt {x : Except Failure α} (h : ∀ a, x = .ok a → R μ a) :
    Keeps tidy μ R (attempt x) := by
  cases x with
  | ok a => exact .pure (h a rfl)
  | error f => exact keeps_fail f

/-- What is passed on by an observed computation. -/
def Observed (tidy : Prop) (R : Marks → α → Prop) (μ : Marks) : Except Exception α → Prop
  | .ok a => R μ a
  | .error e => e.Closed tidy μ

/-- What is observed is in the keeping of the interpreter when there are more values. -/
lemma firm_observed (hR : Firm R) : Firm (Observed tidy R) := by
  intro μ μ' hμ x h
  cases x with
  | ok a => exact hR hμ h
  | error e => exact Exception.firm_closed hμ h

/-- What is observed of a computation is in its keeping, if it keeps everything. -/
lemma Keeps.observe {m : EvalM Empty α} (hm : Keeps tidy μ R m) :
    Keeps tidy μ (Observed tidy R) (observe m) := by
  intro s hs
  have hout := hm s hs
  unfold EvalM.observe
  generalize m s = o at hout ⊢
  cases hout with
  | ok hμ hs' ha => exact .ok hμ hs' ha
  | raised hμ hs' he => exact .ok hμ hs' he
  | exited hμ hs' => exact .exited hμ hs'
  | fault hμ hs' => exact .fault hμ hs'
  | diverged hμ hs' => exact .diverged hμ hs'

/-- The end of an evaluation at another level keeps everything. -/
lemma keeps_conclude {x : Except Exception α} (h : Observed tidy R μ x) :
    Keeps tidy μ R (conclude x) := by
  cases x with
  | ok a => exact .pure h
  | error e => exact keeps_raise h

/-- So does the end of a call. -/
lemma keeps_settle {x : Except Exception Ref} (h : Observed tidy Valid μ x) :
    Keeps tidy μ Valid (settle x) := by
  cases x with
  | ok r => exact .pure h
  | error e =>
    unfold settle
    dsimp only
    split
    · exact .pure h.value
    · exact keeps_fail _
    · exact keeps_fail _
    · exact keeps_raise h
    · exact keeps_raise h

/-- **A nested change**: the context is changed before a computation and after it. -/
lemma keeps_nested {enter leave : Context Empty → Context Empty} {m : EvalM Empty α}
    {k : Except Exception α → EvalM Empty β} (hR : Firm R)
    (henter : ∀ μ' c, μ <+: μ' → c.Closed tidy μ' → (enter c).Closed tidy μ')
    (hm : ∀ μ', μ <+: μ' → Keeps tidy μ' R m)
    (hleave : ∀ μ' c, μ <+: μ' → c.Closed tidy μ' → (leave c).Closed tidy μ')
    (hk : ∀ μ' x, Observed tidy R μ' x → Keeps tidy μ' S (k x)) :
    Keeps tidy μ S (do
      modifyContext enter
      let outcome ← EvalM.observe m
      modifyContext leave
      k outcome) := by
  refine (keeps_modifyContext (henter μ · List.prefix_rfl)).bind fun μ₁ _ h₁ _ => ?_
  refine (hm μ₁ h₁).observe.bind fun μ₂ outcome h₂ houtcome => ?_
  refine (keeps_modifyContext (hleave μ₂ · (h₁.trans h₂))).bind fun μ₃ _ h₃ _ => ?_
  exact hk μ₃ outcome (firm_observed hR h₃ houtcome)

/-! ## Arguments -/

/-- An argument is there. -/
lemma keeps_arg {argv : List Ref} (h : All Valid μ argv) (place : Nat) :
    Keeps tidy μ Valid (arg argv place) := by
  unfold arg
  split
  next r hr => exact .pure (h r (List.mem_of_getElem? hr))
  next => exact keeps_fault

/-- To check the number of arguments makes no more than an error. -/
lemma keeps_checkArgs (names : Nat) (argv : List Ref) (least most : Nat) (form : String) :
    Keeps tidy μ Anything (checkArgs names argv least most form) := by
  have husage : ∀ μ', Keeps tidy μ' Anything (do
      let name ← (Store.listText (argv.take names) : StoreM String)
      fail (.usage (name ++ " " ++ form)) : EvalM Empty Unit) := fun _ =>
    (Keeps.lift (Store.makes_listText _)).bindAny fun _ _ => keeps_fail _
  unfold checkArgs
  split
  · split
    · exact (keeps_fault (R := Anything)).bindAny fun μ' _ => husage μ'
    · exact husage μ
  · exact .pure trivial

/-- Nor does it to look for a subcommand. -/
lemma keeps_subcommand {argv : List Ref} (h : All Valid μ argv) (place : Nat)
    (ensemble : List (String × α)) : Keeps tidy μ Anything (subcommand argv place ensemble) :=
  (keeps_checkArgs _ _ _ _ _).bind fun _ _ hμ _ =>
    (keeps_arg (firm_valid.all hμ h) place).bindAny fun _ r => (keeps_text r).bindAny fun _ _ =>
      keeps_attempt fun _ _ => trivial

/-! ## Variables -/

/-- So does a change that leaves the frames closed. -/
lemma keeps_updateScopes {f : ScopeStack → Except Failure ScopeStack}
    (h : ∀ s t : ScopeStack, s.Closed μ → f s = .ok t → t.Closed μ) :
    Keeps tidy μ Anything (updateScopes f) := by
  refine .getContextBind fun c hc => ?_
  refine (keeps_attempt (R := fun μ' s => s.Closed μ') fun t ht => h _ t hc.scopes ht).bind
    fun μ' scopes hμ hscopes => keeps_modifyContext fun c hc => ?_
  exact ⟨hc.byName, hc.byType, hscopes, hc.errorStack⟩

/-- The value of a variable belongs to no script. -/
lemma keeps_getVar (name : String) (level : Int) : Keeps tidy μ Free (getVar name level) :=
  .getContextBind fun _ hc => keeps_attempt fun _ hr => hc.scopes.get hr

/-- **What is put into a variable** belongs to no script. -/
lemma keeps_setVar (name : String) {r : Ref} (hr : μ.Valid r) (level : Int) :
    Keeps tidy μ Free (setVar name r level) := by
  refine .getContextBind fun c _ => ?_
  refine (keeps_attempt (R := Anything) fun _ _ => trivial).bind fun μ₁ _ h₁ _ => ?_
  refine (Keeps.lift (Store.makes_own (hr.mono h₁))).bind fun μ₂ q _ hq => ?_
  refine (keeps_updateScopes fun s t hs ht => hs.set hq ht).bind fun μ₃ _ h₃ _ => ?_
  exact .pure (hq.mono h₃)

/-- A variable may be removed. -/
lemma keeps_unsetVar (name : String) (level : Int) : Keeps tidy μ Anything (unsetVar name level) :=
  keeps_updateScopes fun _ _ hs ht => hs.unset ht

/-- To ask whether it is there changes nothing. -/
lemma keeps_hasVar (name : String) (level : Int) : Keeps tidy μ Anything (hasVar name level) :=
  .getContextBind fun _ _ => .pure trivial

/-- A link may be made to a global variable. -/
lemma keeps_linkGlobal (name : String) : Keeps tidy μ Anything (linkGlobal name) :=
  keeps_modifyContext fun _ hc => ⟨hc.byName, hc.byType, hc.scopes.linkGlobal name, hc.errorStack⟩

/-- To ask for the names of variables changes nothing. -/
lemma keeps_varNames (level : Int) : Keeps tidy μ Anything (varNames level) :=
  .getContextBind fun _ _ => keeps_attempt fun _ _ => trivial

/-! ## Commands and output -/

/-- A procedure that is there may be defined, if lists are not to be tidy. -/
lemma keeps_addProcedure (name : String) {p : Procedure} (htidy : ¬ tidy) (hp : p.Valid μ) :
    Keeps tidy μ Anything (addCommand name (.procedure p)) := by
  refine keeps_modifyContext fun c hc => ⟨?_, hc.byType, hc.scopes, hc.errorStack⟩
  have hcommand : Command.Closed tidy μ (.procedure p) := ⟨htidy, hp⟩
  exact Registry.forall_of_add hcommand hc.byName name

/-- A change of the table of commands that keeps them closed keeps everything. -/
lemma keeps_updateCommands
    {f : Registry (Command Empty) → Except Failure (Registry (Command Empty))}
    (h : ∀ commands commands', f commands = .ok commands' →
      (∀ name c, commands.find? name = some c → c.Closed tidy μ) →
      ∀ name c, commands'.find? name = some c → c.Closed tidy μ) :
    Keeps tidy μ Anything (updateCommands f) := by
  refine .getContextBind fun c hc => ?_
  have hupdate : Keeps tidy μ (fun μ' commands => ∀ name c, Table.find? commands name = some c →
      c.Closed tidy μ') (attempt (f c.commands)) :=
    keeps_attempt fun commands' hf => h _ commands' hf hc.byName
  refine hupdate.bind fun μ' commands _ hcommands => keeps_modifyContext fun c hc => ?_
  exact ⟨hcommands, hc.byType, hc.scopes, hc.errorStack⟩

/-- A command may be renamed. -/
lemma keeps_renameCommand (old new : String) : Keeps tidy μ Anything (renameCommand old new) :=
  keeps_updateCommands fun _ _ hf h => Registry.forall_of_rename hf h

/-- It may get a further name. -/
lemma keeps_aliasCommand (old new : String) : Keeps tidy μ Anything (aliasCommand old new) :=
  keeps_updateCommands fun _ _ hf h => Registry.forall_of_addAlias hf h

/-- A procedure that is looked up is there. -/
lemma keeps_procedureNamed (name : String) :
    Keeps tidy μ (fun μ' p => p.Valid μ') (procedureNamed name) := by
  refine .getContextBind fun c hc => ?_
  split
  next p hp => exact .pure (hc.byName name _ hp).2
  next => exact keeps_fail _

/-- To ask for the names of procedures changes nothing. -/
lemma keeps_procedureNames : Keeps tidy μ Anything procedureNames :=
  .getContextBind fun _ _ => .pure trivial

/-- The command for a type is one of those at hand. -/
lemma keeps_typeCommand (tag : TypeTag) :
    Keeps tidy μ (fun μ' found => ∀ command, found = some command → command.Closed tidy μ')
      (typeCommand tag) := by
  refine .getContextBind fun c hc => ?_
  have hresolve : Keeps tidy μ Anything (modifyContext fun c' =>
      { c' with typeCommands := (c.typeCommands.resolve tag).2 }) := by
    refine keeps_modifyContext fun c' hc' => ⟨hc'.byName, fun tag' command hfound => ?_,
      hc'.scopes, hc'.errorStack⟩
    obtain hsame | hsame := c.typeCommands.resolve_resolve tag' tag
    · exact hc.byType tag' command (hsame ▸ hfound)
    · exact hc.byType tag command (hsame ▸ hfound)
  refine hresolve.bind fun μ' _ hμ _ => .pure fun command hfound => ?_
  exact (hc.byType tag command hfound).mono hμ

/-- The clocks are not values. -/
lemma keeps_readClock : Keeps tidy μ Anything readClock :=
  fun _ hs => .ok List.prefix_rfl ⟨hs.values, ⟨hs.context.byName, hs.context.byType,
    hs.context.scopes, hs.context.errorStack⟩⟩ trivial

/-- To write a line changes no value. -/
lemma keeps_writeLine (line : String) : Keeps tidy μ Anything (writeLine line) := by
  refine keeps_modifyContext fun c hc => ?_
  split
  · exact ⟨hc.byName, hc.byType, hc.scopes, hc.errorStack⟩
  · exact ⟨hc.byName, hc.byType, hc.scopes, hc.errorStack⟩

end EvalM

open EvalM

/-! ## Procedures -/

namespace Procedure

variable {tidy : Prop} {μ : Marks}

/-- The arguments that are left are collected in a list. -/
lemma keeps_bindParams (htidy : ¬ tidy) {params : List Parameter} {args : List Ref}
    (hparams : All Parameter.Valid μ params) (hargs : All Marks.Valid μ args) :
    Keeps tidy μ Anything (bindParams params args) := by
  induction params generalizing args μ with
  | nil => exact .pure trivial
  | cons p rest ih =>
    have hrest : All Parameter.Valid μ rest := fun q hq => hparams q (List.mem_cons_of_mem _ hq)
    unfold bindParams
    split
    · refine (Keeps.lift (Store.makes_ofList (hargs.parts htidy))).bind fun μ₁ r _ hr => ?_
      exact (keeps_setVar _ hr.valid _).bindAny fun _ _ => .pure trivial
    · split
      next a args =>
        refine (keeps_setVar _ (hargs a List.mem_cons_self) _).bind fun μ₁ _ h₁ _ => ?_
        refine ih (Parameter.firm_valid.all h₁ hrest) (Marks.firm_valid.all h₁ ?_)
        exact fun r hr => hargs r (List.mem_cons_of_mem _ hr)
      next =>
        split
        next d hd =>
          refine (keeps_setVar _ (hparams p List.mem_cons_self d hd) _).bind fun μ₁ _ h₁ _ => ?_
          exact ih (Parameter.firm_valid.all h₁ hrest) fun _ hr => absurd hr List.not_mem_nil
        next => exact .pure trivial

/-- Parameters are bound to arguments, to defaults or to new lists. -/
lemma keeps_bind (htidy : ¬ tidy) {p : Procedure} {argv : List Ref} (hp : p.Valid μ)
    (hargv : All Marks.Valid μ argv) : Keeps tidy μ Anything (p.bind argv) := by
  unfold Procedure.bind
  split
  · exact keeps_fault
  next name args =>
    have hargs : All Marks.Valid μ args := fun r hr => hargv r (List.mem_cons_of_mem _ hr)
    refine (keeps_bindParams htidy hp.fallback hargs).bindAny fun _ fits => ?_
    split
    · exact .pure trivial
    · exact (keeps_text _).bindAny fun _ _ => keeps_fail _

/-- **A call** has a frame of its own, which holds no value that belongs to a script either. -/
lemma keeps_call {E : Engine Empty} (hE : ∀ μ r, Keeps tidy μ Marks.Valid (E.eval r))
    (htidy : ¬ tidy) {p : Procedure} {argv : List Ref} (hp : p.Valid μ)
    (hargv : All Marks.Valid μ argv) : Keeps tidy μ Marks.Valid (p.call E argv) := by
  refine keeps_nested Marks.firm_valid (fun μ' c _ hc => ?_) (fun μ' hμ => ?_)
    (fun μ' c _ hc => ?_) fun μ' x hx => keeps_settle hx
  · exact ⟨hc.byName, hc.byType, hc.scopes.push, hc.errorStack⟩
  · exact (keeps_bind htidy (hp.mono hμ) (Marks.firm_valid.all hμ hargv)).bindAny fun μ₂ _ =>
      hE μ₂ p.body
  · exact ⟨hc.byName, hc.byType, hc.scopes.pop.1, hc.errorStack⟩

end Procedure

end CommandScript
