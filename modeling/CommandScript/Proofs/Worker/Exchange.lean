import CommandScript.Worker
import Mathlib.Logic.Function.Basic
import Mathlib.Tactic.Simps.Basic
import Mathlib.Tactic.Lemma

/-!
# Clients and a worker

A worker has a thread of its own. Any number of clients use it: each sends a script together with a
new channel for the answer, and waits on this channel. The requests are in one queue. The worker
takes the first of them, evaluates its script, sends the answer on the channel of the request, and
goes on. A client may stop waiting at any time; then nobody listens on the channel any more, and the
answer is dropped.

All these are steps that may come in any order, as long as each of them is possible. What is
assumed of the channels is that they deliver each message once and in order: the queue is a list,
and a channel for an answer holds at most one.

## Main definitions

* `Worker.Mail` — a request with the channel for its answer.
* `Worker.System` — the worker's thread, the queue, the channels and the clients.
* `Worker.Event`, `Worker.Step`, `Worker.Run` — what may happen.
* `Worker.sent`, `Worker.dequeued`, `Worker.evaluations`, `Worker.finished` — what has happened.

## Main results

* `Worker.serveAll_concat` — one more request is served in the state left by those before.
* `Worker.after_eq_none_iff` — there is an interpreter after every answer but one.
-/

set_option autoImplicit false

namespace CommandScript.Worker

variable {κ : Type}

/-! ## The parts of the system -/

/-- A request on its way to the worker. -/
structure Mail extends Request where
  /-- The number of the channel on which the answer is awaited. -/
  reply : Nat
deriving DecidableEq, Repr

/-- A channel for one answer. -/
inductive Channel where
  /-- There is no answer yet. -/
  | empty
  /-- The answer has been sent. -/
  | holding (answer : Answer)
  /-- Nobody listens. -/
  | closed

/-- Sends an answer. If nobody listens it is dropped. -/
def Channel.send (channel : Channel) (answer : Answer) : Channel :=
  match channel with
  | .closed => .closed
  | _ => .holding answer

/-- What the worker's thread does. -/
inductive Thread (κ : Type) where
  /-- It waits for a request. -/
  | waiting (interp : Interp κ)
  /-- It evaluates the script of a request. -/
  | evaluating (interp : Interp κ) (mail : Mail)
  /-- It has the answer to a request. -/
  | replying (interp : Interp κ) (mail : Mail) (answer : Answer)
  /-- It has ended. -/
  | stopped

namespace Thread

/-- The requests that were taken from the queue and are not evaluated yet. -/
def inHand : Thread κ → List Mail
  | .evaluating _ m => [m]
  | _ => []

/-- The requests that were taken from the queue and are not answered yet. -/
def unanswered : Thread κ → List Mail
  | .evaluating _ m => [m]
  | .replying _ m _ => [m]
  | _ => []

/-- The interpreter in which the script in hand, or the next one, is evaluated. -/
def interp? : Thread κ → Option (Interp κ)
  | .waiting i => some i
  | .evaluating i _ => some i
  | .replying i _ _ => some i
  | .stopped => none

/-- The thread after an evaluation. Without an interpreter it ends, and there is no answer. -/
def afterEvaluation (m : Mail) (a : Answer) : Option (Interp κ) → Thread κ
  | some i => .replying i m a
  | none => .stopped

end Thread

/-- The worker and its clients. -/
structure System (κ : Type) where
  /-- The worker's thread. -/
  thread : Thread κ
  /-- The requests that were sent and not taken yet, the oldest first. -/
  queue : List Mail
  /-- The channels for answers. -/
  channel : Nat → Channel
  /-- How many channels have been made. -/
  created : Nat
  /-- The channel on which a client waits, if it does. -/
  waitsOn : Nat → Option Nat
  /-- Whether the worker has been told to end. -/
  shut : Bool

namespace System

/-- A client sends a script, with a new channel, and waits on it. -/
@[simps] def send (s : System κ) (client : Nat) (script : String) : System κ :=
  { s with
    queue := s.queue ++ [⟨⟨client, script⟩, s.created⟩]
    channel := Function.update s.channel s.created .empty
    created := s.created + 1
    waitsOn := Function.update s.waitsOn client (some s.created) }

/-- A client does not wait any more. Its channel goes with it. -/
@[simps] def leave (s : System κ) (client channel : Nat) : System κ :=
  { s with
    channel := Function.update s.channel channel .closed
    waitsOn := Function.update s.waitsOn client none }

/-- The answer to a request is sent, and the thread goes on. -/
@[simps] def answered (s : System κ) (i : Interp κ) (m : Mail) (a : Answer) : System κ :=
  { s with
    thread := .waiting i
    channel := Function.update s.channel m.reply ((s.channel m.reply).send a) }

end System

/-! ## Events -/

/-- An evaluation of a script: where it starts, and what it comes to. -/
structure Evaluation (κ : Type) where
  /-- The request. -/
  mail : Mail
  /-- The interpreter in which it starts. -/
  before : Interp κ
  /-- The answer. -/
  answer : Answer
  /-- The interpreter that it leaves, unless it ends it. -/
  after : Option (Interp κ)

/-- The reply to the request that was evaluated. -/
def Evaluation.toReply (e : Evaluation κ) : Reply :=
  ⟨e.mail.client, e.answer⟩

/-- Something that happens. -/
inductive Event (κ : Type) where
  /-- A client has sent a request. -/
  | sent (mail : Mail)
  /-- A client could not send its script: it learns at once that there is nobody to answer. -/
  | refused (client : Nat) (script : String)
  /-- The thread has taken a request from the queue. -/
  | dequeued (mail : Mail)
  /-- The thread has evaluated a script. -/
  | evaluated (evaluation : Evaluation κ)
  /-- The thread has sent an answer. -/
  | replied (mail : Mail)
  /-- A client has got an answer on the channel. -/
  | returned (client channel : Nat) (answer : Answer)
  /-- A client has learnt, instead of an answer, that there is nobody to answer. -/
  | cutOff (client channel : Nat)
  /-- A client has given up waiting. -/
  | gaveUp (client channel : Nat)
  /-- The worker is told to end. -/
  | shut
  /-- The thread has ended because it was told so. -/
  | ended

namespace Event

/-- Whether the thread does something. -/
def isOfThread : Event κ → Bool
  | .dequeued _ => true
  | .evaluated _ => true
  | .replied _ => true
  | .ended => true
  | _ => false

/-- The request that is sent, if one is. -/
def mailSent : Event κ → List Mail
  | .sent m => [m]
  | _ => []

/-- The request that is taken from the queue, if one is. -/
def mailTaken : Event κ → List Mail
  | .dequeued m => [m]
  | _ => []

/-- The evaluation, if there is one. -/
def evaluationMade : Event κ → List (Evaluation κ)
  | .evaluated e => [e]
  | _ => []

/-- The channel on which a client waits no more, if one has waited. -/
def channelLeft : Event κ → List Nat
  | .returned _ k _ => [k]
  | .cutOff _ k => [k]
  | .gaveUp _ k => [k]
  | _ => []

end Event

/-- The requests that were sent, in order. -/
def sent (es : List (Event κ)) : List Mail :=
  es.flatMap Event.mailSent

/-- The requests that were taken from the queue, in order. -/
def dequeued (es : List (Event κ)) : List Mail :=
  es.flatMap Event.mailTaken

/-- The evaluations, in order. -/
def evaluations (es : List (Event κ)) : List (Evaluation κ) :=
  es.flatMap Event.evaluationMade

/-- The channels on which a client waits no more. -/
def finished (es : List (Event κ)) : List Nat :=
  es.flatMap Event.channelLeft

/-- The requests that were evaluated, in order. -/
def served (es : List (Event κ)) : List Request :=
  (evaluations es).map fun e => e.mail.toRequest

section Concat

variable (es : List (Event κ)) (e : Event κ)

/-- What the last event sends is sent last. -/
@[simp] lemma sent_concat : sent (es ++ [e]) = sent es ++ e.mailSent := by
  simp [sent]

/-- What it takes is taken last. -/
@[simp] lemma dequeued_concat : dequeued (es ++ [e]) = dequeued es ++ e.mailTaken := by
  simp [dequeued]

/-- What it evaluates is evaluated last. -/
@[simp] lemma evaluations_concat :
    evaluations (es ++ [e]) = evaluations es ++ e.evaluationMade := by
  simp [evaluations]

/-- The channel that it leaves is left last. -/
@[simp] lemma finished_concat : finished (es ++ [e]) = finished es ++ e.channelLeft := by
  simp [finished]

variable {es} in
/-- What was evaluated stays so. -/
lemma mem_evaluations_concat {v : Evaluation κ} (h : v ∈ evaluations es) :
    v ∈ evaluations (es ++ [e]) := by
  rw [evaluations_concat]
  exact List.mem_append_left _ h

variable {es} in
/-- What has been evaluated so has been at any later time. -/
lemma exists_evaluations_concat {P : Evaluation κ → Prop} (h : ∃ v ∈ evaluations es, P v) :
    ∃ v ∈ evaluations (es ++ [e]), P v := by
  obtain ⟨v, hv, hP⟩ := h
  exact ⟨v, mem_evaluations_concat e hv, hP⟩

variable {es} in
/-- What was sent stays so. -/
lemma exists_sent_concat {P : Mail → Prop} (h : ∃ m ∈ sent es, P m) :
    ∃ m ∈ sent (es ++ [e]), P m := by
  obtain ⟨m, hm, hP⟩ := h
  refine ⟨m, ?_, hP⟩
  rw [sent_concat]
  exact List.mem_append_left _ hm

/-- The request of the last evaluation is served last. -/
lemma served_concat :
    served (es ++ [e]) = served es ++ e.evaluationMade.map fun v => v.mail.toRequest := by
  simp [served]

end Concat

/-! ## Steps and runs -/

variable [HostCommands κ]

/-- One step, in which something happens. -/
inductive Step : System κ → Event κ → System κ → Prop
  /-- A client that does not wait may send a script. -/
  | send {s : System κ} (client : Nat) (script : String) (hidle : s.waitsOn client = none)
    (hthread : s.thread ≠ .stopped) (hopen : s.shut = false) :
    Step s (.sent ⟨⟨client, script⟩, s.created⟩) (s.send client script)
  /-- If the thread has ended, or is told to, a script cannot be sent. -/
  | refuse {s : System κ} (client : Nat) (script : String) (hidle : s.waitsOn client = none)
    (hgone : s.thread = .stopped ∨ s.shut = true) : Step s (.refused client script) s
  /-- The thread takes the oldest request. -/
  | take {s : System κ} {i : Interp κ} {m : Mail} {rest : List Mail}
    (hthread : s.thread = .waiting i) (hqueue : s.queue = m :: rest) :
    Step s (.dequeued m) { s with thread := .evaluating i m, queue := rest }
  /-- The thread evaluates the script of the request in hand. -/
  | evaluate {s : System κ} {i : Interp κ} {m : Mail} {a : Answer} {after : Option (Interp κ)}
    (hthread : s.thread = .evaluating i m) (heval : evalWith i m.script = (a, after)) :
    Step s (.evaluated ⟨m, i, a, after⟩) { s with thread := .afterEvaluation m a after }
  /-- The thread sends the answer. -/
  | reply {s : System κ} {i : Interp κ} {m : Mail} {a : Answer}
    (hthread : s.thread = .replying i m a) : Step s (.replied m) (s.answered i m a)
  /-- A client gets its answer. -/
  | receive {s : System κ} {client channel : Nat} {a : Answer}
    (hwaits : s.waitsOn client = some channel) (hheld : s.channel channel = .holding a) :
    Step s (.returned client channel a) (s.leave client channel)
  /-- The thread has ended and there is no answer. -/
  | cut {s : System κ} {client channel : Nat} (hwaits : s.waitsOn client = some channel)
    (hempty : s.channel channel = .empty) (hthread : s.thread = .stopped) :
    Step s (.cutOff client channel) (s.leave client channel)
  /-- A client gives up. -/
  | giveUp {s : System κ} {client channel : Nat} (hwaits : s.waitsOn client = some channel) :
    Step s (.gaveUp client channel) (s.leave client channel)
  /-- When nobody uses the worker any more it may be told to end. -/
  | shut {s : System κ} (hidle : ∀ client, s.waitsOn client = none) :
    Step s .shut { s with shut := true }
  /-- The thread ends if it is told to, once the queue is empty. -/
  | finish {s : System κ} {i : Interp κ} (hthread : s.thread = .waiting i)
    (hqueue : s.queue = []) (hshut : s.shut = true) :
    Step s .ended { s with thread := .stopped }

/-- The system comes from `s` to another state, and these things happen on the way. -/
inductive Run (s : System κ) : List (Event κ) → System κ → Prop
  /-- Nothing happens. -/
  | refl : Run s [] s
  /-- One more step. -/
  | step {t u : System κ} {es : List (Event κ)} {e : Event κ} (h : Run s es t)
    (hstep : Step t e u) : Run s (es ++ [e]) u

/-- One run may go on where another has ended. -/
lemma Run.trans {s t u : System κ} {es es' : List (Event κ)} (h : Run s es t) (h' : Run t es' u) :
    Run s (es ++ es') u := by
  induction h' with
  | refl => rwa [List.append_nil]
  | step _ hstep ih =>
    rw [← List.append_assoc]
    exact ih.step hstep

/-! ## Serving in order -/

/-- One more request is served in the state left by those before it. -/
lemma serveAll_concat (w : Worker κ) (rs : List Request) (r : Request) :
    w.serveAll (rs ++ [r]) =
      ((w.serveAll rs).1 ++ [((w.serveAll rs).2.serve r).1], ((w.serveAll rs).2.serve r).2) := by
  induction rs generalizing w with
  | nil => rfl
  | cons q rs ih =>
    rw [List.cons_append]
    simp only [serveAll, ih, List.cons_append]

/-- With an interpreter, serving is evaluating. -/
lemma serve_of_interp {w : Worker κ} {i : Interp κ} (h : w.interp = some i) (r : Request) :
    w.serve r = (⟨r.client, (evalWith i r.script).1⟩, ⟨(evalWith i r.script).2⟩) := by
  unfold serve answer
  rw [h]

/-- Without an interpreter there is none later. -/
lemma interp_serveAll_append {w : Worker κ} {rs : List Request}
    (h : (w.serveAll rs).2.interp = none) (rs' : List Request) :
    (w.serveAll (rs ++ rs')).2.interp = none := by
  induction rs' generalizing rs with
  | nil => rwa [List.append_nil]
  | cons r rs' ih =>
    have hnext : (w.serveAll (rs ++ [r])).2.interp = none := by
      rw [serveAll_concat]
      unfold serve answer
      rw [h]
      exact h
    rw [List.append_cons]
    exact ih hnext

/-- A worker that has lost its interpreter does not get it back. -/
lemma interp_served_concat {w : Worker κ} {es : List (Event κ)}
    (h : (w.serveAll (served es)).2.interp = none) (e : Event κ) :
    (w.serveAll (served (es ++ [e]))).2.interp = none := by
  rw [served_concat]
  exact interp_serveAll_append h _

end CommandScript.Worker
