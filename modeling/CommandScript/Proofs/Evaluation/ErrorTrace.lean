import CommandScript.Proofs.Evaluation.Active
import CommandScript.Proofs.Evaluation.LiteralIsolation
import CommandScript.Proofs.Evaluation.NewExceptions
import CommandScript.Proofs.Value.Additions

/-!
# The trace of an error

An error that comes out of a command notes the command, and when it comes out of the evaluation it
has a trace. The trace tells which commands were active when the error came about: it has the words
of each of them, written as a list, the innermost first, and nothing else. Commands whose words were
being evaluated are not in it, nor are commands that have come back, and no command is in it twice.

What an error has noted so far are the commands between where it came about and where it is now.
Those that are still active are to come.

## Main definitions

* `Store.Names` — the value is the text of the words of a command, written as a list.
* `Accounted` — an exception has noted the commands from where it came about to where it is.
* `TrackedM.AccountedOutcome`, `TrackedM.Accounts` — a computation raises exceptions that have done
  so.
* `Interp.Traces` — the trace of each error tells which commands were active when it came about.

## Main results

* `Tracked.accounts_control`, `Tracked.accounts_runScript`, `Tracked.accounts_evaluate` — evaluation
  raises no others.
* `Interp.Reached.traces_active` — the trace of an error.
-/

set_option autoImplicit false

namespace CommandScript

open Marks EvalM

/-! ## What is noted -/

namespace Store

variable {s t : Store} {frame : Ref} {argv : List Ref}

/-- The texts of the values are known, and they are these. -/
def Known (s : Store) (rs : List Ref) (texts : List String) : Prop :=
  List.Forall₂ (fun r text => r.index < s.cells.size ∧ (s.cell r).text = some text) rs texts

/-- The value is a text, the words written as a list. -/
def Names (s : Store) (frame : Ref) (argv : List Ref) : Prop :=
  ∃ texts, s.Known argv texts ∧ frame.index < s.cells.size ∧
    (s.cell frame).text = some (ListText.write texts)

/-- Texts that are known stay so when something is added. -/
lemma Known.mono {texts : List String} (h : s.Known argv texts) (hst : Added s t) :
    t.Known argv texts :=
  h.imp fun r text hr => ⟨Nat.lt_of_lt_of_le hr.1 hst.cells, hst.text r text hr.1 hr.2⟩

/-- A frame of a trace goes on naming its command. -/
lemma Names.mono (h : s.Names frame argv) (hst : Added s t) : t.Names frame argv := by
  obtain ⟨texts, hknown, hlt, htext⟩ := h
  exact ⟨texts, hknown.mono hst, Nat.lt_of_lt_of_le hlt hst.cells, hst.text frame _ hlt htext⟩

/-- Texts that have been asked for are known. -/
lemma known_texts (hargv : ∀ r ∈ argv, r.index < s.cells.size) :
    (texts argv s).2.Known argv (texts argv s).1 := by
  induction argv generalizing s with
  | nil => exact .nil
  | cons r rs ih =>
    have hadded := adds_text r s
    have hrest : Added (text r s).2 (texts rs (text r s).2).2 := StoreM.Adds.mapM adds_text rs _
    have hr : r.index < (text r s).2.cells.size :=
      Nat.lt_of_lt_of_le (hargv r List.mem_cons_self) hadded.cells
    rw [texts_cons]
    refine .cons ⟨Nat.lt_of_lt_of_le hr hrest.cells, ?_⟩ (ih fun q hq => ?_)
    · exact hrest.text r _ hr (cell_text_text r s)
    · exact Nat.lt_of_lt_of_le (hargv q (List.mem_cons_of_mem _ hq)) hadded.cells

/-- Texts that are known are what there is when they are asked for. -/
lemma Known.texts_eq {texts' : List String} (h : s.Known argv texts') :
    texts argv s = (texts', s) := by
  induction h with
  | nil => rfl
  | @cons r text' rs texts' hr _ ih =>
    have hfirst : text r s = (text', s) := by rw [text_apply, hr.2]
    rw [texts_cons, hfirst, ih]

/-- The text of a frame is the command, written as a list. -/
lemma Names.text_eq (h : s.Names frame argv) : (text frame s).1 = (listText argv s).1 := by
  obtain ⟨texts', hknown, -, htext⟩ := h
  have hframe : text frame s = (ListText.write texts', s) := by rw [text_apply, htext]
  change _ = ListText.write (texts argv s).1
  rw [hknown.texts_eq, hframe]

/-- The texts of a trace are the commands, one by one. -/
lemma map_text_eq {frames : List Ref} {left : Active} (h : List.Forall₂ s.Names frames left) :
    frames.map (fun frame => (text frame s).1) = left.map fun argv => (listText argv s).1 := by
  induction h with
  | nil => rfl
  | cons hfirst _ ih => rw [List.map_cons, List.map_cons, hfirst.text_eq, ih]

/-- **What is noted of a command** is its words, written as a list. -/
lemma names_ofText (hargv : ∀ r ∈ argv, r.index < s.cells.size) :
    (ofText (listText argv s).1 (listText argv s).2).2.Names
      (ofText (listText argv s).1 (listText argv s).2).1 argv := by
  have hadded : Added (texts argv s).2 (ofText (listText argv s).1 (listText argv s).2).2 :=
    adds_alloc _ _
  refine ⟨(texts argv s).1, (known_texts hargv).mono hadded, ?_, ?_⟩
  · change (listText argv s).2.cells.size < ((listText argv s).2.cells.push _).size
    rw [Array.size_push]
    exact Nat.lt_succ_self _
  · exact congrArg Cell.text (cell_alloc_self _ _)

end Store

/-- The exception came about when the commands `origin` were active. Of these, `act` are still
active now, and if it is an error, it has noted the others. -/
def Accounted (act : Active) (s : Store) (e : Exception) (origin : Active) : Prop :=
  ∃ left : Active, origin = left ++ act ∧
    (e.isError = true → List.Forall₂ s.Names e.trace left)

section Accounted

variable {act origin : Active} {s t : Store} {e : Exception}

/-- An exception stays accounted for when something is added. -/
lemma Accounted.mono (h : Accounted act s e origin) (hst : Store.Added s t) :
    Accounted act t e origin := by
  obtain ⟨left, horigin, hnoted⟩ := h
  exact ⟨left, horigin, fun he => (hnoted he).imp fun _ _ hnames => hnames.mono hst⟩

/-- An exception that is new came about where it is. -/
lemma accounted_of_new (h : e.frames = []) : Accounted act s e act := by
  refine ⟨[], rfl, fun _ => ?_⟩
  rw [Exception.trace, h]
  exact .nil

/-- An error that comes out of a command notes it. -/
lemma Accounted.addFrame {argv : List Ref} {frame : Ref}
    (h : Accounted (argv :: act) s e origin) (hframe : s.Names frame argv) :
    Accounted act s (e.addFrame frame) origin := by
  obtain ⟨left, horigin, hnoted⟩ := h
  refine ⟨left ++ [argv], by rw [horigin, List.append_assoc]; rfl, fun he => ?_⟩
  rw [Exception.trace_addFrame]
  exact List.rel_append (hnoted he) (.cons hframe .nil)

/-- A signal that comes out of a command notes nothing. -/
lemma Accounted.leave {argv : List Ref} (h : Accounted (argv :: act) s e origin)
    (he : ¬ e.isError = true) : Accounted act s e origin := by
  obtain ⟨left, horigin, -⟩ := h
  exact ⟨left ++ [argv], by rw [horigin, List.append_assoc]; rfl, fun herror => absurd herror he⟩

end Accounted

/-! ## Computations that raise what is accounted for -/

namespace TrackedM

variable {α β : Type} {μ : Marks} {act : Active} {R : Marks → α → Prop} {S : Marks → β → Prop}

/-- **The outcome of a computation** that started with the marks `μ` while the commands `act` were
active: there are these marks and perhaps more, the interpreter is closed, what is passed on is of
this kind, and an exception has noted what came out of its commands. -/
inductive AccountedOutcome (μ : Marks) (act : Active) (R : Marks → α → Prop) :
    EStateM.Result (Stop × Active) (Interp Empty) α → Prop
  /-- There is a result. -/
  | ok {a : α} {s : Interp Empty} {μ' : Marks} (hμ : μ <+: μ') (hs : s.Closed False μ')
    (h : R μ' a) : AccountedOutcome μ act R (.ok a s)
  /-- An exception is raised. -/
  | raised {e : Exception} {origin : Active} {s : Interp Empty} {μ' : Marks} (hμ : μ <+: μ')
    (hs : s.Closed False μ') (he : e.Closed False μ') (h : Accounted act s.values e origin) :
    AccountedOutcome μ act R (.error (.raised e, origin) s)
  /-- It stops otherwise. -/
  | stopped {e : Stop} {origin : Active} {s : Interp Empty} (he : ∀ e', e ≠ .raised e') :
    AccountedOutcome μ act R (.error (e, origin) s)

/-- From closed interpreters with the marks `μ`, while the commands `act` are active, the
computation comes to closed ones, and its exceptions are accounted for. -/
def Accounts (μ : Marks) (act : Active) (R : Marks → α → Prop) (m : TrackedM Empty α) : Prop :=
  ∀ s, s.Closed False μ → AccountedOutcome μ act R (m act s)

/-- What is passed on by an observed computation. -/
def Settled (μ : Marks) (act : Active) (R : Marks → α → Prop) (s : Store) :
    Except (Exception × Active) α → Prop
  | .ok a => R μ a
  | .error (e, origin) => e.Closed False μ ∧ Accounted act s e origin

/-- Outcomes that are accounted for from later marks on are so from earlier ones on. -/
lemma AccountedOutcome.of_le {μ' : Marks} {o : EStateM.Result (Stop × Active) (Interp Empty) α}
    (hμ : μ <+: μ') (h : AccountedOutcome μ' act R o) : AccountedOutcome μ act R o := by
  cases h with
  | ok hμ' hs h => exact .ok (hμ.trans hμ') hs h
  | raised hμ' hs he h => exact .raised (hμ.trans hμ') hs he h
  | stopped he => exact .stopped he

/-- A result that is there already raises nothing. -/
lemma Accounts.pure {a : α} (h : R μ a) : Accounts μ act R (Pure.pure a) :=
  fun _ hs => .ok List.prefix_rfl hs h

/-- **A step that runs no script**: its exceptions are new, so they come about where they are. -/
lemma Accounts.step {m : EvalM Empty α} (hm : Keeps False μ R m) (hnew : RaisesNew m) :
    Accounts μ act R (step m) := by
  intro s hs
  have hout := hm s hs
  have hraises := hnew s
  unfold TrackedM.step
  generalize m s = o at hout hraises ⊢
  cases hout with
  | ok hμ hs' h => exact .ok hμ hs' h
  | raised hμ hs' he => exact .raised hμ hs' he (accounted_of_new hraises)
  | exited => exact .stopped (by nofun)
  | fault => exact .stopped (by nofun)
  | diverged => exact .stopped (by nofun)

/-- One thing after another is accounted for, if both are. -/
lemma Accounts.bind {m : TrackedM Empty α} {f : α → TrackedM Empty β} (hm : Accounts μ act R m)
    (hf : ∀ μ' a, μ <+: μ' → R μ' a → Accounts μ' act S (f a)) : Accounts μ act S (m >>= f) := by
  intro s hs
  have hout := hm s hs
  rw [bind_apply]
  generalize m act s = o at hout ⊢
  cases hout with
  | ok hμ hs' h => exact (hf _ _ hμ h _ hs').of_le hμ
  | raised hμ hs' he h => exact .raised hμ hs' he h
  | stopped he => exact .stopped he

/-- What comes first does not matter to what comes second. -/
lemma Accounts.bindAny {m : TrackedM Empty α} {f : α → TrackedM Empty β} (hm : Accounts μ act R m)
    (hf : ∀ μ' a, Accounts μ' act S (f a)) : Accounts μ act S (m >>= f) :=
  hm.bind fun μ' a _ _ => hf μ' a

/-- A look at the context. -/
lemma Accounts.getContextBind {f : Context Empty → TrackedM Empty β}
    (hf : ∀ c, c.Closed False μ → Accounts μ act S (f c)) :
    Accounts μ act S (TrackedM.step getContext >>= f) :=
  fun s hs => hf s.context hs.context s hs

/-- An exception that is raised again has noted no more than it had. -/
lemma accounted_raise {e : Exception} {origin : Active} {s : Interp Empty} (hs : s.Closed False μ)
    (h : Settled μ act R s.values (.error (e, origin))) :
    AccountedOutcome μ act S (raise e origin act s) :=
  .raised List.prefix_rfl hs h.1 h.2

/-- The end of an evaluation at another level passes an account on. -/
lemma accounted_conclude {x : Except (Exception × Active) α} {s : Interp Empty}
    (hs : s.Closed False μ) (h : Settled μ act R s.values x) :
    AccountedOutcome μ act R (conclude x act s) := by
  cases x with
  | ok a => exact .ok List.prefix_rfl hs h
  | error x => exact accounted_raise (R := R) hs h

/-- What comes after something observed starts where that has come to. More commands may have been
active in it. -/
lemma accounted_observeBind {m : TrackedM Empty α} {act' : Active}
    {f : Except (Exception × Active) α → TrackedM Empty β} {s : Interp Empty}
    (hm : AccountedOutcome μ act' R (m act s))
    (hf : ∀ μ' x t, μ <+: μ' → t.Closed False μ' → Settled μ' act' R t.values x →
      AccountedOutcome μ' act S (f x act t)) :
    AccountedOutcome μ act S ((observe m >>= f) act s) := by
  rw [bind_apply]
  unfold observe
  generalize m act s = o at hm ⊢
  cases hm with
  | ok hμ hs h => exact (hf _ (.ok _) _ hμ hs h).of_le hμ
  | raised hμ hs he h => exact (hf _ (.error (_, _)) _ hμ hs ⟨he, h⟩).of_le hμ
  | @stopped e origin s he =>
    cases e with
    | raised e => exact absurd rfl (he e)
    | exited status => exact .stopped (by nofun)
    | fault => exact .stopped (by nofun)
    | diverged => exact .stopped (by nofun)

/-- **A nested change**: the context is changed before a computation and after it. -/
lemma accounts_nested {enter leave : Context Empty → Context Empty} {m : TrackedM Empty α}
    {k : Except (Exception × Active) α → TrackedM Empty β}
    (henter : ∀ c, c.Closed False μ → (enter c).Closed False μ) (hm : Accounts μ act R m)
    (hleave : ∀ μ' c, μ <+: μ' → c.Closed False μ' → (leave c).Closed False μ')
    (hk : ∀ μ' x s, s.Closed False μ' → Settled μ' act R s.values x →
      AccountedOutcome μ' act S (k x act s)) :
    Accounts μ act S (do
      TrackedM.step (modifyContext enter)
      let outcome ← observe m
      TrackedM.step (modifyContext leave)
      k outcome) := by
  intro s hs
  change AccountedOutcome μ act S ((observe m >>= fun outcome =>
    TrackedM.step (modifyContext leave) >>= fun _ => k outcome) act ⟨s.values, enter s.context⟩)
  refine accounted_observeBind (hm _ ⟨hs.values, henter _ hs.context⟩) fun μ' x t hμ ht hx => ?_
  exact hk μ' x ⟨t.values, leave t.context⟩ ⟨ht.values, hleave μ' _ hμ ht.context⟩ hx

end TrackedM

open TrackedM (Accounts AccountedOutcome Settled accounted_observeBind accounted_raise
  accounts_nested)

namespace Tracked

variable {μ : Marks} {act : Active} {argv : List Ref}

/-- The exception for a failure is new, so that all commands are still active. -/
lemma accounts_fail {α : Type} {R : Marks → α → Prop} (f : Failure) :
    Accounts μ act R (TrackedM.step (fail f)) :=
  .step (keeps_fail f) (raisesNew_fail f)

/-- An argument that is missing is no exception. -/
lemma accounts_fault {α : Type} {R : Marks → α → Prop} :
    Accounts μ act R (TrackedM.step fault) :=
  .step keeps_fault throws_fault

/-- There may be no result. -/
lemma accounts_none : Accounts μ act (Optional Valid) (pure none) :=
  .pure optional_none

/-- A text raises nothing. -/
lemma accounts_text (r : Ref) : Accounts μ act Anything (TrackedM.step (text r)) :=
  .step (keeps_text r) (Throws.lift _)

/-- Nor does a reading of the clocks. -/
lemma accounts_readClock : Accounts μ act Anything (TrackedM.step readClock) :=
  .step keeps_readClock scriptless_readClock.raisesNew

/-! ## Commands that run scripts -/

section Control

variable {E : TrackedEngine Empty}

/-- The exceptions of a condition are accounted for, if those of evaluations are. -/
lemma accounts_condition (hE : ∀ μ act r, Accounts μ act Valid (E.eval r)) (cond : Ref) :
    Accounts μ act Anything (condition E cond) := by
  refine (Accounts.step (Keeps.lift (Store.makes_bool? cond)) (Throws.lift _)).bindAny
    fun μ₁ known => ?_
  cases known with
  | some b => exact .pure trivial
  | none =>
    exact (hE μ₁ act cond).bindAny fun _ r =>
      .step (.liftConv (Store.makes_asBool r)) (RaisesNew.liftConv _)

/-- The signals that a loop catches leave nothing behind; all else goes on as it is. -/
lemma accounts_round (hE : ∀ μ act r, Accounts μ act Valid (E.eval r)) (body : Ref) :
    Accounts μ act Anything (round E body) := by
  intro s hs
  refine accounted_observeBind (hE μ act body s hs) fun μ' x t _ ht hx => ?_
  cases x with
  | ok r => exact .ok List.prefix_rfl ht trivial
  | error x =>
    obtain ⟨e, origin⟩ := x
    dsimp only
    cases e.code with
    | broke => exact .ok List.prefix_rfl ht trivial
    | continued => exact .ok List.prefix_rfl ht trivial
    | _ => exact accounted_raise ht hx

/-- So are those of a script whose result is wanted. -/
lemma accounts_evalResult (hE : ∀ μ act r, Accounts μ act Valid (E.eval r)) (script : Ref) :
    Accounts μ act (Optional Valid) (evalResult E script) := by
  refine (hE μ act script).bind fun μ' r _ hr => .pure fun q hq => ?_
  cases hq
  exact hr

/-- So are those of a chain of conditions. -/
lemma accounts_ifChain (hE : ∀ μ act r, Accounts μ act Valid (E.eval r)) (words : List Ref) :
    Accounts μ act (Optional Valid) (ifChain E words) := by
  fun_induction ifChain E words generalizing μ with
  | case1 cond body rest ih =>
    refine (accounts_condition hE cond).bindAny fun _ holds => ?_
    split
    · exact accounts_evalResult hE body
    · split
      · exact accounts_none
      · refine (accounts_text _).bindAny fun _ keyword => ?_
        split
        · exact ih
        · split
          · exact accounts_evalResult hE _
          · exact accounts_fail _
  | case2 => exact accounts_fail _

/-- So are those of a loop with a condition. -/
lemma accounts_whileLoop (hE : ∀ μ act r, Accounts μ act Valid (E.eval r)) (cond body : Ref)
    (rounds : Nat) : Accounts μ act Anything (whileLoop E cond body rounds) := by
  induction rounds generalizing μ with
  | zero => exact .step keeps_diverged fun _ => trivial
  | succ rounds ih =>
    refine (accounts_condition hE cond).bindAny fun _ holds => ?_
    split
    · refine (accounts_round hE body).bindAny fun _ goes => ?_
      split
      · exact ih
      · exact .pure trivial
    · exact .pure trivial

/-- So are those of a loop over pieces. -/
lemma accounts_foreachLoop (hE : ∀ μ act r, Accounts μ act Valid (E.eval r)) (vars : List Ref)
    (body : Ref) {pieces : List (List Ref)} (hpieces : ∀ piece ∈ pieces, All Valid μ piece) :
    Accounts μ act Anything (foreachLoop E vars body pieces) := by
  induction pieces generalizing μ with
  | nil => exact .pure trivial
  | cons items pieces ih =>
    have hvars : Keeps False μ Anything (Builtin.bindLoopVars vars items) :=
      Builtin.keeps_bindLoopVars vars (hpieces items List.mem_cons_self)
    refine (Accounts.step hvars (Builtin.scriptless_bindLoopVars vars items).raisesNew).bind
      fun μ₁ _ h₁ _ => ?_
    refine (accounts_round hE body).bind fun μ₂ goes h₂ _ => ?_
    split
    · refine ih fun piece hpiece => firm_valid.all (h₁.trans h₂) ?_
      exact hpieces piece (List.mem_cons_of_mem _ hpiece)
    · exact .pure trivial

/-- So are those of a script that is evaluated a number of times. -/
lemma accounts_repeatEval (hE : ∀ μ act r, Accounts μ act Valid (E.eval r)) (script : Ref)
    (count : Nat) : Accounts μ act Anything (repeatEval E script count) := by
  induction count generalizing μ with
  | zero => exact .pure trivial
  | succ count ih => exact (hE μ act script).bindAny fun _ _ => ih

/-- The frames that are set aside are put back as they were. -/
lemma accounts_evalAt (hE : ∀ μ act r, Accounts μ act Valid (E.eval r)) (script : Ref)
    (level : Int) : Accounts μ act Valid (evalAt E script level) := by
  refine .getContextBind fun c hc => ?_
  have hplace : Keeps False μ Anything (attempt (c.scopes.evalPlace? level)) :=
    keeps_attempt fun _ _ => trivial
  refine (Accounts.step hplace (scriptless_attempt _).raisesNew).bind fun μ₁ place h₁ _ => ?_
  obtain ⟨hleft, htaken⟩ := hc.scopes.popMany (c.scopes.depth - 1 - place)
    fun f (hf : f ∈ []) => nomatch hf
  refine accounts_nested (fun c' hc' => ?_) (hE μ₁ act script) (fun μ' c' hμ hc' => ?_)
    fun μ' x s hs hx => TrackedM.accounted_conclude hs hx
  · exact ⟨hc'.byName, hc'.byType, hleft.mono h₁, hc'.errorStack⟩
  · have hback := hc'.scopes.pushMany fun f hf => (htaken f hf).mono (h₁.trans hμ)
    exact ⟨hc'.byName, hc'.byType, hback, hc'.errorStack⟩

/-- So are those of `eval`. -/
lemma accounts_eval (hE : ∀ μ act r, Accounts μ act Valid (E.eval r)) (argv : List Ref) :
    Accounts μ act (Optional Valid) (eval E argv) := by
  unfold eval
  split
  · exact accounts_evalResult hE _
  · exact accounts_fault

/-- The last thing that `catch` does is a step. -/
lemma accounts_answer {caught : Int32 × Ref} (hcaught : μ.Valid caught.2) :
    Accounts μ act (Optional Valid) (TrackedM.step (Builtin.answer argv caught)) :=
  .step (Builtin.keeps_answer hcaught) (Builtin.scriptless_answer argv caught).raisesNew

/-- `catch` leaves nothing behind of what it catches, but for its value. -/
lemma accounts_catchSignal (hE : ∀ μ act r, Accounts μ act Valid (E.eval r))
    (hargv : All Valid μ argv) : Accounts μ act (Optional Valid) (catchSignal E argv) := by
  refine (Accounts.step (keeps_arg hargv 1) (raisesNew_arg argv 1)).bind fun μ₁ script _ _ => ?_
  intro s hs
  refine accounted_observeBind (hE μ₁ act script s hs) fun μ' x t _ ht hx => ?_
  cases x with
  | ok r =>
    refine accounts_answer ?_ t ht
    exact hx
  | error x => exact accounts_answer hx.1.value t ht

/-- The exception of a value that is no integer is new. -/
lemma accounts_asInt (r : Ref) :
    Accounts μ act Anything (TrackedM.step (liftM (Store.asInt r) : EvalM Empty Int32)) :=
  .step (keeps_asInt r) (RaisesNew.liftConv _)

/-- The exceptions of `upeval` are accounted for. -/
lemma accounts_upeval (hE : ∀ μ act r, Accounts μ act Valid (E.eval r)) (argv : List Ref) :
    Accounts μ act (Optional Valid) (upeval E argv) := by
  have hresult : ∀ μ script level, Accounts μ act (Optional Valid) (do
      let r ← evalAt E script level
      return some r) := by
    refine fun μ script level => (accounts_evalAt hE script level).bind fun μ' r _ hr =>
      .pure fun q hq => ?_
    cases hq
    exact hr
  unfold upeval
  split
  · exact hresult μ _ _
  · exact (accounts_asInt _).bindAny fun μ' level => hresult μ' _ _
  · exact accounts_fault

/-- So are those of `time`. -/
lemma accounts_time (hE : ∀ μ act r, Accounts μ act Valid (E.eval r)) (hargv : All Valid μ argv) :
    Accounts μ act (Optional Valid) (time E argv) := by
  have hcount : Keeps False μ Anything (Builtin.timeCount argv) := Builtin.keeps_timeCount argv
  refine (Accounts.step hcount (Builtin.scriptless_timeCount argv).raisesNew).bind
    fun μ₁ count h₁ _ => ?_
  refine (Accounts.step (keeps_arg (firm_valid.all h₁ hargv) 1) (raisesNew_arg argv 1)).bindAny
    fun μ₂ script => accounts_readClock.bindAny fun _ _ => ?_
  refine (accounts_repeatEval hE script _).bindAny fun μ₃ _ => accounts_readClock.bindAny
    fun _ _ => ?_
  exact .step (Builtin.keeps_longResult _) (Builtin.scriptless_newLong _).raisesNew

/-- So are those of `while`. -/
lemma accounts_loopWhile (hE : ∀ μ act r, Accounts μ act Valid (E.eval r)) (argv : List Ref) :
    Accounts μ act (Optional Valid) (loopWhile E argv) := by
  unfold loopWhile
  split
  · exact (accounts_whileLoop hE _ _ _).bindAny fun _ _ => accounts_none
  · exact accounts_fault

/-- So are those of `foreach`. -/
lemma accounts_foreach (hE : ∀ μ act r, Accounts μ act Valid (E.eval r)) (argv : List Ref) :
    Accounts μ act (Optional Valid) (foreach E argv) := by
  unfold foreach
  split
  · refine (Accounts.step (.liftConv (Store.makes_asList _)) (RaisesNew.liftConv _)).bindAny
      fun μ₁ vars => ?_
    refine (Accounts.step (.liftConv (Store.makes_asList _)) (RaisesNew.liftConv _)).bind
      fun μ₂ items _ hitems => ?_
    cases vars with
    | nil => exact accounts_fail _
    | cons var others =>
      refine (accounts_foreachLoop hE _ _ fun piece hpiece r hr => ?_).bindAny
        fun _ _ => accounts_none
      exact (hitems r (Builtin.mem_of_mem_chunks hpiece hr)).1
  · exact accounts_fault

/-- **Commands that run scripts** account for what they raise, if evaluation does. -/
lemma accounts_control (hE : ∀ μ act r, Accounts μ act Valid (E.eval r)) (b : Builtin.Control)
    (hargv : All Valid μ argv) : Accounts μ act (Optional Valid) (control E b argv) :=
  match b with
  | .eval => accounts_eval hE argv
  | .catch => accounts_catchSignal hE hargv
  | .upeval => accounts_upeval hE argv
  | .time => accounts_time hE hargv
  | .if => accounts_ifChain hE argv.tail
  | .while => accounts_loopWhile hE argv
  | .foreach => accounts_foreach hE argv

/-! ## Procedures -/

/-- The error that a signal becomes comes about here; other errors go on as they are. -/
lemma accounted_settle {x : Except (Exception × Active) Ref} {s : Interp Empty}
    (hs : s.Closed False μ) (hx : Settled μ act Valid s.values x) :
    AccountedOutcome μ act Valid (settle x act s) := by
  cases x with
  | ok r => exact .ok List.prefix_rfl hs hx
  | error x =>
    obtain ⟨e, origin⟩ := x
    unfold settle
    dsimp only
    cases e.code with
    | returned => exact .ok List.prefix_rfl hs hx.1.value
    | broke => exact accounts_fail .strayBreak s hs
    | continued => exact accounts_fail .strayContinue s hs
    | _ => exact accounted_raise hs hx

/-- So are those of the call of a procedure. -/
lemma accounts_call (hE : ∀ μ act r, Accounts μ act Valid (E.eval r)) {p : Procedure}
    (hp : p.Valid μ) (hne : argv ≠ []) (hargv : All Valid μ argv) :
    Accounts μ act Valid (call E p argv) := by
  refine accounts_nested (fun c hc => ?_) ?_ (fun μ' c _ hc => ?_)
    fun μ' x s hs hx => accounted_settle hs hx
  · exact ⟨hc.byName, hc.byType, hc.scopes.push, hc.errorStack⟩
  · have hbind := p.keeps_bind id hp hargv
    exact (Accounts.step hbind (p.scriptless_bind hne).raisesNew).bindAny fun μ' _ =>
      hE μ' act p.body
  · exact ⟨hc.byName, hc.byType, hc.scopes.pop.1, hc.errorStack⟩

end Control

/-! ## Commands and scripts -/

section Scripts

variable {E : TrackedEngine Empty}

/-- The command that is found is in the keeping of the interpreter. -/
lemma keeps_findCommand (hargv : All Valid μ argv) :
    Keeps False μ (fun μ' command => command.Closed False μ') (Interp.findCommand argv) := by
  refine (keeps_arg hargv 0).bindAny fun μ₁ head => (keeps_text head).bindAny fun μ₂ name => ?_
  refine .getContextBind fun c hc => ?_
  split
  next command hcommand => exact .pure (hc.byName name command hcommand)
  next =>
    refine (keeps_typeOf head).bindAny fun μ₃ tag => (keeps_typeCommand tag).bind
      fun μ₄ found _ hfound => ?_
    cases found with
    | some command => exact .pure (hfound command rfl)
    | none =>
      refine (keeps_objectOf? head).bindAny fun _ o => ?_
      cases o with
      | some o => exact keeps_fail _
      | none => exact keeps_fail _

/-- That there is none is a new exception. -/
lemma raisesNew_findCommand (argv : List Ref) :
    RaisesNew (Interp.findCommand argv : EvalM Empty (Command Empty)) := by
  refine (raisesNew_arg argv 0).bind fun head => (Throws.lift _).bind fun name => ?_
  refine throws_getContext.bind fun c => ?_
  split
  · exact .pure _
  · refine Throws.bind (fun _ => trivial) fun tag => (scriptless_typeCommand tag).raisesNew.bind
      fun found => ?_
    cases found with
    | some command => exact .pure _
    | none =>
      refine Throws.bind (fun _ => trivial) fun o => ?_
      cases o with
      | some o => exact raisesNew_fail _
      | none => exact raisesNew_fail _

/-- The procedure that a value is called as is in the keeping of the interpreter. -/
lemma keeps_procedureIn (value : Ref) {object : Option Object}
    (hobject : Optional (Object.Closed False) μ object) :
    Keeps False μ (fun μ' p => p.Valid μ') (Command.procedureIn value object) := by
  unfold Command.procedureIn
  split
  next p => exact .pure (hobject _ rfl).2
  next => exact (keeps_text value).bindAny fun _ _ => keeps_fail _

/-- So is the procedure that the first argument is called as. -/
lemma keeps_procedureOf (hargv : All Valid μ argv) :
    Keeps False μ (fun μ' p => p.Valid μ') (Command.procedureOf argv) := by
  refine (keeps_arg hargv 0).bindAny fun μ₁ value => (keeps_objectOf? value).bindAny fun μ₂ o => ?_
  cases o with
  | some o => exact (keeps_object? o).bind fun μ' _ _ hobject => keeps_procedureIn value hobject
  | none => exact keeps_procedureIn value optional_none

/-- That a value cannot be called is a new exception. -/
lemma raisesNew_procedureIn (value : Ref) (object : Option Object) :
    RaisesNew (Command.procedureIn value object : EvalM Empty Procedure) := by
  unfold Command.procedureIn
  split
  · exact .pure _
  · exact (Throws.lift _).bind fun _ => raisesNew_fail _

/-- So it is for the first argument. -/
lemma raisesNew_procedureOf (argv : List Ref) :
    RaisesNew (Command.procedureOf argv : EvalM Empty Procedure) := by
  refine (raisesNew_arg argv 0).bind fun value => Throws.bind (fun _ => trivial) fun o => ?_
  cases o with
  | some o => exact Throws.bind (fun _ => trivial) (raisesNew_procedureIn value)
  | none => exact raisesNew_procedureIn value none

/-- There is always a result in the end. -/
lemma raisesNew_resultOf (r : Option Ref) : RaisesNew (Command.resultOf r : EvalM Empty Ref) :=
  (Command.scriptless_resultOf r).raisesNew

/-- A command that runs no script is one step, whatever engine there is. -/
lemma execute_plain (E : TrackedEngine Empty) (E' : Engine Empty) (b : Builtin.Plain) :
    execute E argv (.builtin (.plain b)) =
      TrackedM.step (Command.execute E' argv (.builtin (.plain b))) :=
  (TrackedM.step_bind _ _).symm

/-- Every command accounts for what it raises, if evaluation does. -/
lemma accounts_execute (hE : ∀ μ act r, Accounts μ act Valid (E.eval r)) (hne : argv ≠ [])
    (hargv : All Valid μ argv) {c : Command Empty} (hc : c.Closed False μ) :
    Accounts μ act Valid (execute E argv c) := by
  cases c with
  | builtin b =>
    have hcheck : Keeps False μ Anything (attempt (b.arity.check (argv.length - 1))) :=
      keeps_attempt fun _ _ => trivial
    cases b with
    | plain b =>
      -- a plain command evaluates nothing, so that what it raises is new
      rw [execute_plain E ⟨pure, 0⟩]
      have hnew : RaisesNew
          (Command.execute ⟨pure, 0⟩ argv (.builtin (.plain b)) : EvalM Empty Ref) :=
        (Command.scriptless_execute _ trivial hne).raisesNew
      refine .step (hcheck.bind fun μ₁ _ h₁ _ => ?_) hnew
      exact (Builtin.keeps_plain b hc (firm_valid.all h₁ hargv)).bind fun _ _ _ hr =>
        Command.keeps_resultOf hr
    | control b =>
      refine (Accounts.step hcheck (scriptless_attempt _).raisesNew).bind fun μ₁ _ h₁ _ => ?_
      exact (accounts_control hE b (firm_valid.all h₁ hargv)).bind fun _ r _ hr =>
        .step (Command.keeps_resultOf hr) (raisesNew_resultOf r)
  | host _ _ action => exact action.elim
  | procedure p => exact accounts_call hE hc.2 hne hargv
  | invoke =>
    refine (Accounts.step (keeps_procedureOf hargv) (raisesNew_procedureOf argv)).bind
      fun μ₁ p h₁ hp => accounts_call hE hp hne (firm_valid.all h₁ hargv)

/-- Without words there is nothing to find. -/
lemma accounts_dispatch (hE : ∀ μ act r, Accounts μ act Valid (E.eval r))
    (hargv : All Valid μ argv) : Accounts μ act Valid (dispatch E argv) := by
  by_cases hne : argv = []
  · subst hne
    exact fun _ _ => .stopped (by nofun)
  · exact (Accounts.step (keeps_findCommand hargv) (raisesNew_findCommand argv)).bind
      fun _ _ h₁ hcommand => accounts_execute hE hne (firm_valid.all h₁ hargv) hcommand

/-- **An error that comes out of a command** has noted what was active below it; now it notes the
command. -/
lemma accounts_runCommand (hE : ∀ μ act r, Accounts μ act Valid (E.eval r))
    (hargv : All Valid μ argv) : Accounts μ act Valid (runCommand E argv) := by
  intro s hs
  have hout : AccountedOutcome μ (argv :: act) Valid
      (TrackedM.during argv (dispatch E argv) act s) := accounts_dispatch hE hargv s hs
  refine accounted_observeBind hout fun μ' x t hμ ht hx => ?_
  cases x with
  | ok r => exact .ok List.prefix_rfl ht hx
  | error x =>
    obtain ⟨e, origin⟩ := x
    obtain ⟨he, haccounted⟩ := hx
    dsimp only
    -- an error gets a frame with the words of the command; a signal goes on as it is
    split
    next =>
      have hframe : StoreM.Makes False μ' Free (do Store.ofText (← Store.listText argv)) :=
        (Store.makes_listText argv).bind fun _ _ _ _ => Store.makes_ofText _
      obtain ⟨μ₂, h₂, hv, hfree⟩ := hframe t.values ht.values
      have hadds : (do Store.ofText (← Store.listText argv) : StoreM Ref).Adds :=
        ((StoreM.Adds.mapM Store.adds_text argv).bind fun _ => .pure _).bind fun _ =>
          Store.adds_alloc _
      have hthere : ∀ r ∈ argv, r.index < t.values.cells.size := fun r hr =>
        ht.values.length_eq ▸ (hargv r hr).mono hμ
      refine .raised h₂ ⟨hv, ht.context.mono h₂⟩ ((Exception.firm_closed h₂ he).addFrame hfree) ?_
      exact (haccounted.mono (hadds t.values)).addFrame (Store.names_ofText hthere)
    next hsignal => exact .raised List.prefix_rfl ht he (haccounted.leave hsignal)

mutual

/-- **The commands of a script** account for what they raise. Their words are evaluated before they
are active. -/
theorem accounts_runScript (hE : ∀ μ act r, Accounts μ act Valid (E.eval r)) (μ : Marks)
    (act : Active) (last : Option Ref) (hlast : Optional Valid μ last) :
    ∀ script, All Valid μ (Script.literals script) →
      Accounts μ act Valid (runScript E last script)
  | [], _ => .step (Command.keeps_resultOf hlast) (raisesNew_resultOf last)
  | words :: rest, h => by
    rw [Script.literals] at h
    have hwords : All Valid μ (Script.wordsLiterals words) := fun r hr =>
      h r (List.mem_append_left _ hr)
    have hrest : All Valid μ (Script.literals rest) := fun r hr => h r (List.mem_append_right _ hr)
    refine (accounts_evalWords hE μ act words hwords).bind fun μ₁ argv h₁ hargv => ?_
    refine (accounts_runCommand hE hargv).bind fun μ₂ r h₂ hr => ?_
    refine accounts_runScript hE μ₂ act (some r) (fun q hq => ?_) rest
      (firm_valid.all (h₁.trans h₂) hrest)
    cases hq
    exact hr

/-- The exceptions of the words of a command are accounted for. -/
theorem accounts_evalWords (hE : ∀ μ act r, Accounts μ act Valid (E.eval r)) (μ : Marks)
    (act : Active) : ∀ words, All Valid μ (Script.wordsLiterals words) →
      Accounts μ act (All Valid) (evalWords E words)
  | [], _ => .pure fun _ hr => nomatch hr
  | w :: rest, h => by
    rw [Script.wordsLiterals] at h
    have hw : All Valid μ (Script.wordLiterals w) := fun r hr => h r (List.mem_append_left _ hr)
    have hrest : All Valid μ (Script.wordsLiterals rest) := fun r hr =>
      h r (List.mem_append_right _ hr)
    refine (accounts_evalWord hE μ act w hw).bind fun μ₁ r h₁ hr => ?_
    refine (accounts_evalWords hE μ₁ act rest (firm_valid.all h₁ hrest)).bind
      fun μ₂ rs h₂ hrs => .pure fun q hq => ?_
    obtain rfl | hq := List.mem_cons.1 hq
    · exact hr.mono h₂
    · exact hrs q hq

/-- So are those of a single word. -/
theorem accounts_evalWord (hE : ∀ μ act r, Accounts μ act Valid (E.eval r)) (μ : Marks)
    (act : Active) : ∀ w, All Valid μ (Script.wordLiterals w) →
      Accounts μ act Valid (evalWord E w)
  | .literal r, h => .pure (h r (by simp [Script.wordLiterals]))
  | .var name, _ =>
    .step ((keeps_getVar name (-1)).imp fun _ _ _ hr => hr.valid)
      (scriptless_getVar name (-1)).raisesNew
  | .substitution script, h => by
    rw [Script.wordLiterals] at h
    exact accounts_runScript hE μ act none optional_none script h
  | .joined parts, h => by
    rw [Script.wordLiterals] at h
    refine (accounts_evalWords hE μ act parts h).bind fun μ₁ rs _ hrs => ?_
    split
    next r => exact .pure (hrs r List.mem_cons_self)
    next =>
      refine .step ?_ ((Throws.lift _).bind fun _ => Throws.lift _)
      refine (Keeps.lift (Store.makes_texts rs)).bindAny fun _ _ => ?_
      exact (Keeps.lift (Store.makes_ofText _)).imp fun _ _ _ hr => hr.valid

end

/-- That a script cannot be read is a new exception. -/
lemma raisesNew_scriptOf (r : Ref) :
    RaisesNew (Interp.scriptOf r : EvalM Empty (Script Ref)) := by
  refine (Throws.lift _).bind fun outcome => ?_
  cases outcome with
  | done script => exact .pure script
  | failed e => exact raisesNew_fail _
  | stuck => exact fun _ => trivial

/-- To note what is known of an error adds to the values. -/
lemma exists_noteError {e : Exception} {s : Interp Empty} (hs : s.Closed False μ)
    (he : e.Closed False μ) :
    ∃ t μ', Interp.noteError e s = .ok () t ∧ μ <+: μ' ∧ t.Closed False μ' ∧
      Store.Added s.values t.values := by
  unfold Interp.noteError
  split
  next herror =>
    obtain ⟨μ', hμ, hv, hstack⟩ := e.makes_diagnosis he herror s.values hs.values
    have hcontext := hs.context.mono hμ
    have hadds : e.diagnosis.Adds := (Store.adds_alloc _).bind fun _ =>
      (Store.adds_alloc _).bind fun _ => .pure _
    refine ⟨_, μ', rfl, hμ, ⟨hv, ?_⟩, hadds s.values⟩
    exact ⟨hcontext.byName, hcontext.byType, hcontext.scopes, hstack⟩
  next => exact ⟨s, μ, rfl, List.prefix_rfl, hs, .refl s.values⟩

/-- An exception is noted as it is accounted for. -/
lemma accounted_noted {x : Except (Exception × Active) Ref} {s : Interp Empty}
    (hs : s.Closed False μ) (hx : Settled μ act Valid s.values x) :
    AccountedOutcome μ act Valid (noted x act s) := by
  cases x with
  | ok r => exact .ok List.prefix_rfl hs hx
  | error x =>
    obtain ⟨e, origin⟩ := x
    obtain ⟨he, haccounted⟩ := hx
    obtain ⟨t, μ', hnote, hμ, ht, hadded⟩ := exists_noteError hs he
    change AccountedOutcome μ act Valid
      ((TrackedM.step (Interp.noteError e) >>= fun _ => TrackedM.raise e origin) act s)
    rw [TrackedM.bind_apply]
    unfold TrackedM.step
    rw [hnote]
    exact .raised hμ ht (Exception.firm_closed hμ he) (haccounted.mono hadded)

/-- So it is on the way out of an evaluation. -/
lemma accounted_release {x : Except (Exception × Active) Ref} {s : Interp Empty}
    (hs : s.Closed False μ) (hx : Settled μ act Valid s.values x) :
    AccountedOutcome μ act Valid (release x act s) := by
  change AccountedOutcome μ act Valid ((if s.context.level = 0 then
    TrackedM.observe (settle x) >>= noted else noted x) act s)
  split
  · exact accounted_observeBind (accounted_settle hs hx) fun μ' y t _ ht hy => accounted_noted ht hy
  · exact accounted_noted hs hx

/-- The exceptions of a nested evaluation are accounted for. -/
lemma accounts_evalNested (hE : ∀ μ act r, Accounts μ act Valid (E.eval r)) (r : Ref) :
    Accounts μ act Valid (evalNested E r) := by
  refine .getContextBind fun c _ => ?_
  split
  · exact accounts_fail _
  · refine accounts_nested (fun _ hc => ?_) ?_ (fun _ _ _ hc => ?_)
      fun μ' x s hs hx => accounted_release hs hx
    · exact ⟨hc.byName, hc.byType, hc.scopes, hc.errorStack⟩
    · exact (Accounts.step (Interp.keeps_scriptOf r) (raisesNew_scriptOf r)).bind
        fun μ₁ script _ hscript =>
          accounts_runScript hE μ₁ act none optional_none script hscript
    · exact ⟨hc.byName, hc.byType, hc.scopes, hc.errorStack⟩

/-- **Evaluation accounts for what it raises**, whatever the bound and whatever commands are active.

**Proof sketch.** Induction on the bound: what is nested is evaluated with a smaller one. -/
theorem accounts_evaluate (bound : Nat) (μ : Marks) (act : Active) (r : Ref) :
    Accounts μ act Valid (evaluate bound r) := by
  induction bound generalizing μ act r with
  | zero => exact .step keeps_diverged fun _ => trivial
  | succ bound ih => exact accounts_evalNested ih r

end Scripts

end Tracked

/-! ## Traces -/

namespace Interp

/-- **The trace of each error tells which commands were active when it came about.** The evaluation
`m` does what the evaluation `m'` does that knows which commands are active, starting with none; and
if it ends with an error, this one tells which were active when the error came about. These are the
commands of the trace: each of its values has the words of one of them for its text, written as a
list, in the order of the commands, the innermost first. -/
def Traces (m' : TrackedM Empty Ref) (m : EvalM Empty Ref) (s : Interp Empty) : Prop :=
  TrackedM.forget (m' [] s) = m s ∧
    ∀ e t, m s = .error (.raised e) t → e.isError = true →
      ∃ origin, m' [] s = .error (.raised e, origin) t ∧
        e.trace.map (fun frame => (Store.text frame t.values).1) =
          origin.map fun argv => (Store.listText argv t.values).1

/-- What is accounted for while no commands are active has noted all of them. -/
lemma traces_of_accounts {m' : TrackedM Empty Ref} {m : EvalM Empty Ref} {s : Interp Empty}
    {μ : Marks} (herases : TrackedM.Erases m' m) (hs : s.Closed False μ)
    (haccounts : Accounts μ [] Valid m') : Traces m' m s := by
  have hforget := herases [] s
  refine ⟨hforget, fun e t hm he => ?_⟩
  have hout := haccounts s hs
  rw [hm] at hforget
  generalize m' [] s = o at hforget hout
  cases hout with
  | ok => cases hforget
  | stopped hother =>
    cases hforget
    exact absurd rfl (hother e)
  | @raised e' origin s' μ' hμ hs' he' haccounted =>
    cases hforget
    obtain ⟨left, rfl, hnoted⟩ := haccounted
    refine ⟨left ++ [], rfl, ?_⟩
    rw [List.append_nil]
    exact Store.map_text_eq (hnoted he)

/-- **Error traces name exactly the active commands.** In every state that evaluations lead to, for
the evaluation of a value, of a text, and at another level: the evaluation that knows which commands
are active does the same, and the trace of an error has the words of the commands that were active
when the error came about, each once, written as lists, the innermost first. Where a procedure or
the outermost evaluation ends with a signal to a loop, the error that comes about has an empty trace
to begin with.

**Proof sketch.** An exception has noted the commands between where it came about and where it is:
so it is for the exceptions that come about, since they are new, and it stays so when an error comes
out of a command, as it notes just that one. When it comes out of everything, no command is active,
so it has noted all that were. -/
theorem Reached.traces_active {start s : Interp Empty} (hstart : start.Fresh)
    (hs : Reached start s) (bound : Nat) :
    (∀ r, Traces (Tracked.evaluate bound r) (evaluate bound r) s) ∧
      (∀ script, Traces
        (do
          let r ← TrackedM.step (Store.ofText script : StoreM Ref)
          Tracked.evaluate bound r)
        (do
          let r ← (Store.ofText script : StoreM Ref)
          evaluate bound r) s) ∧
      (∀ r level, Traces (Tracked.evalAt (Tracked.engine bound) r level)
        (Builtin.evalAt (engine bound) r level) s) ∧
      ∀ signal : Exception, signal.ForLoop → ∀ u : Interp Empty, ∃ e t,
        settle (.error signal) u = .error (.raised e) t ∧ e.isError = true ∧ e.trace = [] := by
  obtain ⟨μ, hclosed⟩ := hs.closed (hstart.closed False.elim)
  have herases := Tracked.erases_evaluate bound
  have haccounts := Tracked.accounts_evaluate bound
  refine ⟨fun r => traces_of_accounts (herases r) hclosed (haccounts μ [] r), fun script => ?_,
    fun r level => ?_, fun signal hsignal u => ?_⟩
  · refine traces_of_accounts (.stepBind herases) hclosed ?_
    exact (Accounts.step (.lift (Store.makes_ofText script)) (Throws.lift _)).bindAny
      fun μ' r => haccounts μ' [] r
  · exact traces_of_accounts (Tracked.erases_evalAt herases r level) hclosed
      (Tracked.accounts_evalAt haccounts r level)
  · obtain ⟨e, t, hsettle, herror, hnew⟩ := exists_settle_of_forLoop hsignal u
    exact ⟨e, t, hsettle, herror, by rw [Exception.trace, hnew]; rfl⟩

/-- The texts of the trace, if the outcome is an error. -/
def traceTexts? : EStateM.Result Stop (Interp Empty) Ref → Option (List String)
  | .error (.raised e) t =>
    if e.isError then some (e.trace.map fun frame => (Store.text frame t.values).1) else none
  | _ => none

lemma raised_of_traceTexts? {o : EStateM.Result Stop (Interp Empty) Ref} {texts : List String}
    (h : traceTexts? o = some texts) :
    ∃ e t, o = .error (.raised e) t ∧ e.isError = true ∧
      e.trace.map (fun frame => (Store.text frame t.values).1) = texts := by
  unfold traceTexts? at h
  split at h
  next e t =>
    split at h
    next he => exact ⟨e, t, rfl, he, Option.some.inj h⟩
    next => cases h
  next => cases h

/-- A script in which a command fails that was to yield a word of another one. -/
def failingWord : String :=
  "eval \x7bset a [lindex x]\x7d"

/-- The command `set` was not active: its words were being evaluated. -/
theorem Reached.traces_active_failingWord :
    ∃ e t origin, e.isError = true ∧
      (do
        let r ← TrackedM.step (Store.ofText failingWord : StoreM Ref)
        Tracked.evaluate 2 r : TrackedM Empty Ref) [] standard = .error (.raised e, origin) t ∧
      origin.map (fun argv => (Store.listText argv t.values).1) =
        ["lindex x", "eval \x7bset a [lindex x]\x7d"] := by
  have htexts : traceTexts? ((do
      let r ← (Store.ofText failingWord : StoreM Ref)
      evaluate 2 r : EvalM Empty Ref) standard) =
        some ["lindex x", "eval \x7bset a [lindex x]\x7d"] := by decide +kernel
  obtain ⟨e, t, heval, herror, htrace⟩ := raised_of_traceTexts? htexts
  obtain ⟨-, htraces, -⟩ := Reached.traces_active fresh_standard Reached.start 2
  obtain ⟨origin, htracked, horigin⟩ := (htraces failingWord).2 e t heval herror
  exact ⟨e, t, origin, herror, htracked, horigin.symm.trans htrace⟩

end Interp

end CommandScript
