import CommandScript.Proofs.Worker.Exchange
import Mathlib.Data.List.Nodup

/-!
# A worker serialises its clients

However the steps of the clients and of the worker's thread are mixed, what the thread does is one
sequential run: it evaluates the requests in the order in which they were sent, each once, each in
the state that those before it have left. A client gets the answer to its own request, and an
exception in a script makes no difference to which requests are served.

## Main definitions

* `Worker.Serialised` — what holds of everything that has happened in a system.

## Main results

* `Worker.Ordered.step`, `Worker.Sequential.step`, `Worker.Listening.step`, `Worker.Finished.step` —
  the invariants of one step: requests are in order, evaluations are a sequential run, channels hold
  the answers that they should, clients have got these answers.
* `Worker.exists_threadRun` — the thread alone can always serve all that was sent.
* `Worker.Run.serialised` — a worker serialises its clients.

The invariants build on each other: which answer a channel holds is known because the channels of
requests are numbered, and these because requests are only ever appended to the queue.
-/

set_option autoImplicit false

namespace CommandScript.Worker

variable {κ : Type} {w : Worker κ} {es : List (Event κ)} {e : Event κ} {s t : System κ}

/-! ## Requests are in order -/

/-- Requests are numbered by their channels, taken in the order in which they were sent, and
evaluated in the order in which they were taken. -/
structure Ordered (es : List (Event κ)) (s : System κ) : Prop where
  /-- Each request has a channel of its own. -/
  numbered : (sent es).map Mail.reply = List.range s.created
  /-- What was not taken yet is in the queue. -/
  inOrder : sent es = dequeued es ++ s.queue
  /-- What was taken is evaluated, but for the request in hand. -/
  evaluated : dequeued es = (evaluations es).map Evaluation.mail ++ s.thread.inHand

/-- A request is known by its channel. -/
lemma Ordered.mail_inj (h : Ordered es s) {m m' : Mail} (hm : m ∈ sent es) (hm' : m' ∈ sent es)
    (hreply : m.reply = m'.reply) : m = m' := by
  have hnodup : ((sent es).map Mail.reply).Nodup := by
    rw [h.numbered]
    exact List.nodup_range
  exact List.inj_on_of_nodup_map hnodup hm hm' hreply

/-- Every request was sent through a channel that has been made. -/
lemma Ordered.reply_lt (h : Ordered es s) {m : Mail} (hm : m ∈ sent es) :
    m.reply < s.created := by
  have hmem : m.reply ∈ (sent es).map Mail.reply := List.mem_map_of_mem hm
  rw [h.numbered] at hmem
  exact List.mem_range.1 hmem

/-- What was evaluated was sent. -/
lemma Ordered.mem_sent (h : Ordered es s) {v : Evaluation κ} (hv : v ∈ evaluations es) :
    v.mail ∈ sent es := by
  rw [h.inOrder, h.evaluated]
  exact List.mem_append_left _ (List.mem_append_left _ (List.mem_map_of_mem hv))

/-- No more requests are evaluated than were taken. -/
lemma Ordered.length_evaluations_le (h : Ordered es s) :
    (evaluations es).length ≤ (dequeued es).length := by
  rw [h.evaluated, List.length_append, List.length_map]
  exact Nat.le_add_right _ _

/-- Requests that are taken later make no difference to evaluations. -/
lemma Ordered.take_concat (h : Ordered es s) {n : Nat} (hn : n ≤ (evaluations es).length)
    (e : Event κ) : (dequeued (es ++ [e])).take n = (dequeued es).take n := by
  rw [dequeued_concat, List.take_append_of_le_length (Nat.le_trans hn h.length_evaluations_le)]

/-- Nothing is sent, taken or evaluated. -/
lemma Ordered.quiet (h : Ordered es s) (hsent : e.mailSent = []) (htaken : e.mailTaken = [])
    (hmade : e.evaluationMade = []) (hcreated : t.created = s.created) (hqueue : t.queue = s.queue)
    (hhand : t.thread.inHand = s.thread.inHand) : Ordered (es ++ [e]) t where
  numbered := by simpa [hsent, hcreated] using h.numbered
  inOrder := by simpa [hsent, htaken, hqueue] using h.inOrder
  evaluated := by simpa [htaken, hmade, hhand] using h.evaluated

/-- After an evaluation nothing is waiting to be evaluated. -/
lemma inHand_afterEvaluation (m : Mail) (a : Answer) (after : Option (Interp κ)) :
    (Thread.afterEvaluation m a after).inHand = [] := by
  cases after with
  | none => rfl
  | some i => rfl

variable [HostCommands κ]

/-- Every step keeps the requests in their order. -/
lemma Ordered.step (h : Ordered es s) (hstep : Step s e t) : Ordered (es ++ [e]) t := by
  cases hstep with
  | send client script _ _ _ =>
    refine ⟨?_, ?_, ?_⟩
    · simp [Event.mailSent, h.numbered, List.range_succ]
    · simp [Event.mailSent, Event.mailTaken, h.inOrder]
    · simpa [Event.mailTaken, Event.evaluationMade] using h.evaluated
  | @take i m rest hthread hqueue =>
    have hevaluated := h.evaluated
    rw [hthread] at hevaluated
    refine ⟨?_, ?_, ?_⟩
    · simpa [Event.mailSent] using h.numbered
    · simp [Event.mailSent, Event.mailTaken, h.inOrder, hqueue]
    · simpa [Event.mailTaken, Event.evaluationMade, Thread.inHand] using hevaluated
  | @evaluate i m a after hthread _ =>
    have hevaluated := h.evaluated
    rw [hthread] at hevaluated
    refine ⟨?_, ?_, ?_⟩
    · simpa [Event.mailSent] using h.numbered
    · simpa [Event.mailSent, Event.mailTaken] using h.inOrder
    · rw [inHand_afterEvaluation]
      simpa [Event.mailTaken, Event.evaluationMade, Thread.inHand] using hevaluated
  | reply hthread => exact h.quiet rfl rfl rfl rfl rfl (by rw [hthread]; rfl)
  | finish hthread _ _ => exact h.quiet rfl rfl rfl rfl rfl (by rw [hthread]; rfl)
  | _ => exact h.quiet rfl rfl rfl rfl rfl rfl

/-! ## Evaluations are a sequential run -/

/-- The evaluations are those of serving the requests one after another. -/
structure Sequential (w : Worker κ) (es : List (Event κ)) (s : System κ) : Prop where
  /-- Each evaluation starts in the state that the requests before have left. -/
  started : ∀ n v, (evaluations es)[n]? = some v →
    (w.serveAll (((dequeued es).take n).map Mail.toRequest)).2.interp = some v.before ∧
      evalWith v.before v.mail.script = (v.answer, v.after)
  /-- The answers are those of serving the requests. -/
  replies : (evaluations es).map Evaluation.toReply = (w.serveAll (served es)).1
  /-- The interpreter at hand is the one that the evaluations have left. -/
  interp : ∀ i, s.thread.interp? = some i → (w.serveAll (served es)).2.interp = some i
  /-- The thread ends without an interpreter, or when it is told to and all is served. -/
  stopped : s.thread = .stopped →
    (w.serveAll (served es)).2.interp = none ∨ s.shut = true ∧ s.queue = []

/-- Nothing is evaluated. -/
lemma Sequential.quiet (h : Sequential w es s) (hordered : Ordered es s)
    (hmade : e.evaluationMade = [])
    (hinterp : ∀ i, t.thread.interp? = some i → s.thread.interp? = some i)
    (hstopped : t.thread = .stopped → s.thread = .stopped ∧ (s.shut = true → t.shut = true) ∧
      (s.queue = [] → t.queue = []) ∨ t.shut = true ∧ t.queue = []) :
    Sequential w (es ++ [e]) t := by
  have hserved : served (es ++ [e]) = served es := by
    rw [served_concat, hmade, List.map_nil, List.append_nil]
  have hevaluations : evaluations (es ++ [e]) = evaluations es := by
    rw [evaluations_concat, hmade, List.append_nil]
  refine ⟨fun n v hv => ?_, ?_, fun i hi => ?_, fun ht => ?_⟩
  · rw [hevaluations] at hv
    have hn : n < (evaluations es).length := (List.getElem?_eq_some_iff.1 hv).1
    rw [hordered.take_concat (Nat.le_of_lt hn)]
    exact h.started n v hv
  · rw [hevaluations, hserved]
    exact h.replies
  · rw [hserved]
    exact h.interp i (hinterp i hi)
  · rw [hserved]
    obtain ⟨hs, hshut, hqueue⟩ | hdone := hstopped ht
    · obtain hnone | ⟨hs, hq⟩ := h.stopped hs
      · exact .inl hnone
      · exact .inr ⟨hshut hs, hqueue hq⟩
    · exact .inr hdone

/-- The request that is evaluated is served in the state that those before have left. -/
lemma Sequential.serveAll_evaluated (h : Sequential w es s) {i : Interp κ} {m : Mail} {a : Answer}
    {after : Option (Interp κ)} (hthread : s.thread = .evaluating i m)
    (heval : evalWith i m.script = (a, after)) :
    w.serveAll (served (es ++ [.evaluated ⟨m, i, a, after⟩])) =
      ((w.serveAll (served es)).1 ++ [⟨m.client, a⟩], ⟨after⟩) := by
  have hinterp : (w.serveAll (served es)).2.interp = some i := h.interp i (by rw [hthread]; rfl)
  rw [served_concat]
  change w.serveAll (served es ++ [m.toRequest]) = _
  rw [serveAll_concat, serve_of_interp hinterp, heval]

/-- **An evaluation** starts where those before it have come to: its request was taken as the next
one after theirs. -/
lemma Sequential.evaluate (h : Sequential w es s) (hordered : Ordered es s) {i : Interp κ}
    {m : Mail} {a : Answer} {after : Option (Interp κ)} (hthread : s.thread = .evaluating i m)
    (heval : evalWith i m.script = (a, after)) :
    Sequential w (es ++ [.evaluated ⟨m, i, a, after⟩])
      { s with thread := .afterEvaluation m a after } := by
  have hinterp : (w.serveAll (served es)).2.interp = some i := h.interp i (by rw [hthread]; rfl)
  have hserved := h.serveAll_evaluated hthread heval
  refine ⟨fun n v hv => ?_, ?_, fun j hj => ?_, fun hstopped => ?_⟩
  · rw [evaluations_concat] at hv
    change (evaluations es ++ [_])[n]? = some v at hv
    have hn := (List.getElem?_eq_some_iff.1 hv).1
    rw [List.length_append, List.length_singleton] at hn
    rw [hordered.take_concat (Nat.le_of_lt_succ hn)]
    -- an earlier evaluation started where it did; the new one starts where they have all come to
    by_cases hlast : n = (evaluations es).length
    · subst hlast
      rw [List.getElem?_concat_length] at hv
      obtain rfl := Option.some.inj hv
      have htaken :
          ((dequeued es).take (evaluations es).length).map Mail.toRequest = served es := by
        rw [hordered.evaluated, List.take_left' (List.length_map _), List.map_map]
        rfl
      rw [htaken]
      exact ⟨hinterp, heval⟩
    · rw [List.getElem?_append_left (by omega)] at hv
      exact h.started n v hv
  · rw [hserved, evaluations_concat, List.map_append, h.replies]
    rfl
  · rw [hserved]
    cases after with
    | none => cases hj
    | some k => exact hj
  · rw [hserved]
    cases after with
    | none => exact .inl rfl
    | some k => cases hstopped

/-- Every step keeps the evaluations those of serving one request after another. -/
lemma Sequential.step (h : Sequential w es s) (hordered : Ordered es s) (hstep : Step s e t) :
    Sequential w (es ++ [e]) t := by
  cases hstep with
  | send client script _ hthread _ =>
    exact h.quiet hordered rfl (fun _ hi => hi) fun hstopped => absurd hstopped hthread
  | take hthread _ =>
    exact h.quiet hordered rfl (fun _ hi => by rw [hthread]; exact hi) nofun
  | evaluate hthread heval => exact h.evaluate hordered hthread heval
  | reply hthread => exact h.quiet hordered rfl (fun _ hi => by rw [hthread]; exact hi) nofun
  | shut _ =>
    exact h.quiet hordered rfl (fun _ hi => hi) fun hstopped => .inl ⟨hstopped, fun _ => rfl, id⟩
  | finish _ hqueue hshut => exact h.quiet hordered rfl nofun fun _ => .inr ⟨hshut, hqueue⟩
  | _ => exact h.quiet hordered rfl (fun _ hi => hi) fun hstopped => .inl ⟨hstopped, id, id⟩

/-! ## Channels hold the answers -/

/-- The answers on their way to clients. -/
structure Listening (w : Worker κ) (es : List (Event κ)) (s : System κ) : Prop where
  /-- A channel holds the answer to its request. -/
  held : ∀ k a, s.channel k = .holding a →
    ∃ v ∈ evaluations es, v.mail.reply = k ∧ v.answer = a ∧ v.after ≠ none
  /-- The thread sends the answer to the request in hand. -/
  replying : ∀ i m a, s.thread = .replying i m a →
    ∃ v ∈ evaluations es, v.mail = m ∧ v.answer = a ∧ v.after ≠ none
  /-- A client waits on the channel of a request of its own. -/
  own : ∀ c k, s.waitsOn c = some k → ∃ m ∈ sent es, m.client = c ∧ m.reply = k
  /-- A client that waits has an answer, or its request is still to be answered, unless there is no
  interpreter any more. -/
  awaited : ∀ c k, s.waitsOn c = some k → (∃ a, s.channel k = .holding a) ∨
    s.channel k = .empty ∧ ((w.serveAll (served es)).2.interp = none ∨
      ∃ m ∈ s.thread.unanswered ++ s.queue, m.reply = k)

/-- Whatever happens next, a client that has waited has an answer, or its request is still to be
answered, unless there is no interpreter any more. -/
lemma Listening.awaited_concat (h : Listening w es s) (e : Event κ) {c k : Nat}
    (hc : s.waitsOn c = some k) : (∃ a, s.channel k = .holding a) ∨
      s.channel k = .empty ∧ ((w.serveAll (served (es ++ [e]))).2.interp = none ∨
        ∃ m ∈ s.thread.unanswered ++ s.queue, m.reply = k) := by
  obtain hheld | ⟨hempty, hnone | hpending⟩ := h.awaited c k hc
  · exact .inl hheld
  · exact .inr ⟨hempty, .inl (interp_served_concat hnone e)⟩
  · exact .inr ⟨hempty, .inr hpending⟩

/-- No channel and no client is concerned. -/
lemma Listening.quiet (h : Listening w es s) (hchannel : t.channel = s.channel)
    (hwaits : t.waitsOn = s.waitsOn)
    (hreplying : ∀ i m a, t.thread = .replying i m a → s.thread = .replying i m a)
    (hpending : t.thread.unanswered ++ t.queue = s.thread.unanswered ++ s.queue) :
    Listening w (es ++ [e]) t := by
  refine ⟨fun k a hk => ?_, fun i m a hthread => ?_, fun c k hc => ?_, fun c k hc => ?_⟩
  · rw [hchannel] at hk
    exact exists_evaluations_concat e (h.held k a hk)
  · exact exists_evaluations_concat e (h.replying i m a (hreplying i m a hthread))
  · rw [hwaits] at hc
    exact exists_sent_concat e (h.own c k hc)
  · rw [hwaits] at hc
    rw [hchannel, hpending]
    exact h.awaited_concat e hc

/-- Sending a script. The new channel is not that of an earlier request. -/
lemma Listening.send (h : Listening w es s) (hordered : Ordered es s) (client : Nat)
    (script : String) :
    Listening w (es ++ [.sent ⟨⟨client, script⟩, s.created⟩]) (s.send client script) := by
  refine ⟨fun k a hk => ?_, fun i m a hthread => ?_, fun c k hc => ?_, fun c k hc => ?_⟩
  · rw [System.send_channel, Function.update_apply] at hk
    split at hk
    next => cases hk
    next => exact exists_evaluations_concat _ (h.held k a hk)
  · exact exists_evaluations_concat _ (h.replying i m a hthread)
  · rw [System.send_waitsOn, Function.update_apply] at hc
    split at hc
    next heq =>
      obtain rfl := Option.some.inj hc
      refine ⟨⟨⟨client, script⟩, s.created⟩, ?_, heq.symm, rfl⟩
      rw [sent_concat]
      exact List.mem_append_right _ (List.mem_singleton_self _)
    next => exact exists_sent_concat _ (h.own c k hc)
  -- the new request is the last one in the queue, and its channel is empty
  · rw [System.send_waitsOn, Function.update_apply] at hc
    rw [System.send_channel, System.send_thread, System.send_queue, ← List.append_assoc]
    split at hc
    next =>
      obtain rfl := Option.some.inj hc
      rw [Function.update_self]
      exact .inr ⟨rfl, .inr ⟨_, List.mem_append_right _ (List.mem_singleton_self _), rfl⟩⟩
    next =>
      obtain ⟨m, hm, -, rfl⟩ := h.own c k hc
      rw [Function.update_of_ne (Nat.ne_of_lt (hordered.reply_lt hm))]
      obtain hheld | ⟨hempty, hnone | ⟨m', hm', hreply⟩⟩ := h.awaited_concat _ hc
      · exact .inl hheld
      · exact .inr ⟨hempty, .inl hnone⟩
      · exact .inr ⟨hempty, .inr ⟨m', List.mem_append_left _ hm', hreply⟩⟩

/-- An evaluation. -/
lemma Listening.evaluate (h : Listening w es s) (hsequential : Sequential w es s) {i : Interp κ}
    {m : Mail} {a : Answer} {after : Option (Interp κ)} (hthread : s.thread = .evaluating i m)
    (heval : evalWith i m.script = (a, after)) :
    Listening w (es ++ [.evaluated ⟨m, i, a, after⟩])
      { s with thread := .afterEvaluation m a after } := by
  refine ⟨fun k b hk => ?_, fun j n b hreplying => ?_, fun c k hc => ?_, fun c k hc => ?_⟩
  · exact exists_evaluations_concat _ (h.held k b hk)
  · refine ⟨⟨m, i, a, after⟩, ?_, ?_⟩
    · rw [evaluations_concat]
      exact List.mem_append_right _ (List.mem_singleton_self _)
    · cases after with
      | none => cases hreplying
      | some k =>
        cases hreplying
        exact ⟨rfl, rfl, nofun⟩
  · exact exists_sent_concat _ (h.own c k hc)
  · obtain hheld | ⟨hempty, hnone | hpending⟩ := h.awaited_concat _ hc
    · exact .inl hheld
    · exact .inr ⟨hempty, .inl hnone⟩
    · refine .inr ⟨hempty, ?_⟩
      rw [hthread] at hpending
      cases after with
      | none =>
        rw [hsequential.serveAll_evaluated hthread heval]
        exact .inl rfl
      | some j => exact .inr hpending

/-- Sending an answer. If nobody listens any more, nobody waits for it. -/
lemma Listening.answered (h : Listening w es s) {i : Interp κ} {m : Mail} {a : Answer}
    (hthread : s.thread = .replying i m a) :
    Listening w (es ++ [.replied m]) (s.answered i m a) := by
  refine ⟨fun k b hk => ?_, nofun, fun c k hc => ?_, fun c k hc => ?_⟩
  · rw [System.answered_channel, Function.update_apply] at hk
    split at hk
    next heq =>
      obtain ⟨v, hv, hmail, hanswer, hafter⟩ := h.replying i m a hthread
      refine ⟨v, mem_evaluations_concat _ hv, by rw [hmail, heq], ?_, hafter⟩
      unfold Channel.send at hk
      split at hk
      · cases hk
      · rw [hanswer]
        exact Channel.holding.inj hk
    next => exact exists_evaluations_concat _ (h.held k b hk)
  · exact exists_sent_concat _ (h.own c k hc)
  · have hawaited := h.awaited_concat (.replied m) hc
    rw [System.answered_channel, Function.update_apply]
    -- the channel that is answered, and then any other
    split
    next heq =>
      subst heq
      obtain ⟨b, hb⟩ | ⟨hempty, -⟩ := hawaited
      · exact .inl ⟨a, by rw [hb]; rfl⟩
      · exact .inl ⟨a, by rw [hempty]; rfl⟩
    next hne =>
      obtain hheld | ⟨hempty, hnone | ⟨n, hn, hreply⟩⟩ := hawaited
      · exact .inl hheld
      · exact .inr ⟨hempty, .inl hnone⟩
      · rw [hthread] at hn
        obtain rfl | hn := List.mem_cons.1 hn
        · exact absurd hreply.symm hne
        · exact .inr ⟨hempty, .inr ⟨n, hn, hreply⟩⟩

/-- No two clients wait on one channel. -/
lemma Listening.waitsOn_leave (h : Listening w es s) (hordered : Ordered es s)
    {client channel c k : Nat} (hwaits : s.waitsOn client = some channel)
    (hc : (s.leave client channel).waitsOn c = some k) : s.waitsOn c = some k ∧ k ≠ channel := by
  rw [System.leave_waitsOn, Function.update_apply] at hc
  split at hc
  next => cases hc
  next hne =>
    refine ⟨hc, ?_⟩
    rintro rfl
    obtain ⟨m, hm, hclient, hreply⟩ := h.own c k hc
    obtain ⟨n, hn, hclient', hreply'⟩ := h.own client k hwaits
    obtain rfl := hordered.mail_inj hm hn (hreply.trans hreply'.symm)
    exact hne (hclient.symm.trans hclient')

/-- A client waits no more. -/
lemma Listening.leave (h : Listening w es s) (hordered : Ordered es s) {client channel : Nat}
    (hwaits : s.waitsOn client = some channel) :
    Listening w (es ++ [e]) (s.leave client channel) := by
  refine ⟨fun k a hk => ?_, fun i m a hthread => ?_, fun c k hc => ?_, fun c k hc => ?_⟩
  · rw [System.leave_channel, Function.update_apply] at hk
    split at hk
    next => cases hk
    next => exact exists_evaluations_concat _ (h.held k a hk)
  · exact exists_evaluations_concat _ (h.replying i m a hthread)
  · exact exists_sent_concat _ (h.own c k (h.waitsOn_leave hordered hwaits hc).1)
  · obtain ⟨hc, hne⟩ := h.waitsOn_leave hordered hwaits hc
    rw [System.leave_channel, Function.update_of_ne hne]
    exact h.awaited_concat e hc

/-- Every step keeps the answers on their way to those who asked. -/
lemma Listening.step (h : Listening w es s) (hordered : Ordered es s)
    (hsequential : Sequential w es s) (hstep : Step s e t) : Listening w (es ++ [e]) t := by
  cases hstep with
  | send client script _ _ _ => exact h.send hordered client script
  | take hthread hqueue => exact h.quiet rfl rfl nofun (by rw [hthread, hqueue]; rfl)
  | evaluate hthread heval => exact h.evaluate hsequential hthread heval
  | reply hthread => exact h.answered hthread
  | receive hwaits _ => exact h.leave hordered hwaits
  | cut hwaits _ _ => exact h.leave hordered hwaits
  | giveUp hwaits => exact h.leave hordered hwaits
  | finish hthread _ _ => exact h.quiet rfl rfl nofun (by rw [hthread]; rfl)
  | _ => exact h.quiet rfl rfl (fun _ _ _ hthread => hthread) rfl

/-! ## Clients have got their answers -/

/-- What clients have got that wait no more. -/
structure Finished (es : List (Event κ)) (s : System κ) : Prop where
  /-- A client that got an answer got the one to its own request: the result or the exception. -/
  returned : ∀ c k a, .returned c k a ∈ es →
    ∃ v ∈ evaluations es, v.mail.client = c ∧ v.mail.reply = k ∧ v.answer = a ∧ v.after ≠ none
  /-- Nobody waits twice on a channel. -/
  once : (finished es).Nodup
  /-- Who waits has not waited on the channel before. -/
  waiting : ∀ c k, s.waitsOn c = some k → k ∉ finished es
  /-- Who has waited was on a channel of a request. -/
  created : ∀ k ∈ finished es, k < s.created
  /-- Who was cut off had the thread ended. -/
  cutOff : ∀ c k, .cutOff c k ∈ es → s.thread = .stopped
  /-- Who was refused found the thread ended, or told to end. -/
  refused : ∀ c script, .refused c script ∈ es → s.thread = .stopped ∨ s.shut = true

/-- What has ended does not start again. -/
lemma Step.stopped (hstep : Step s e t) (h : s.thread = .stopped) : t.thread = .stopped := by
  cases hstep with
  | take hthread _ =>
    rw [hthread] at h
    cases h
  | evaluate hthread _ =>
    rw [hthread] at h
    cases h
  | reply hthread =>
    rw [hthread] at h
    cases h
  | finish _ _ _ => rfl
  | _ => exact h

/-- A queue that has been shut stays so. -/
lemma Step.shut_of_shut (hstep : Step s e t) (h : s.shut = true) : t.shut = true := by
  cases hstep with
  | shut _ => rfl
  | _ => exact h

/-- Nobody leaves a channel. -/
lemma Finished.quiet (h : Finished es s) (hstep : Step s e t) (hleft : e.channelLeft = [])
    (hcreated : s.created ≤ t.created)
    (hwaits : ∀ c k, t.waitsOn c = some k → s.waitsOn c = some k ∨ k = s.created)
    (hrefused : ∀ c script, e = .refused c script → t.thread = .stopped ∨ t.shut = true) :
    Finished (es ++ [e]) t := by
  have hfinished : finished (es ++ [e]) = finished es := by
    rw [finished_concat, hleft, List.append_nil]
  refine ⟨fun c k a hmem => ?_, ?_, fun c k hc => ?_, fun k hk => ?_, fun c k hmem => ?_,
    fun c script hmem => ?_⟩
  · obtain hmem | hmem := List.mem_append.1 hmem
    · exact exists_evaluations_concat _ (h.returned c k a hmem)
    · obtain rfl := List.mem_singleton.1 hmem
      cases hleft
  · rw [hfinished]
    exact h.once
  · rw [hfinished]
    obtain hold | rfl := hwaits c k hc
    · exact h.waiting c k hold
    · exact fun hk => Nat.lt_irrefl _ (h.created _ hk)
  · rw [hfinished] at hk
    exact Nat.lt_of_lt_of_le (h.created k hk) hcreated
  · obtain hmem | hmem := List.mem_append.1 hmem
    · exact hstep.stopped (h.cutOff c k hmem)
    · obtain rfl := List.mem_singleton.1 hmem
      cases hleft
  · obtain hmem | hmem := List.mem_append.1 hmem
    · obtain hstopped | hshut := h.refused c script hmem
      · exact .inl (hstep.stopped hstopped)
      · exact .inr (hstep.shut_of_shut hshut)
    · exact hrefused c script (List.mem_singleton.1 hmem).symm

/-- A client leaves its channel. -/
lemma Finished.leave (h : Finished es s) (hordered : Ordered es s) (hlistening : Listening w es s)
    {client channel : Nat} (hwaits : s.waitsOn client = some channel)
    (hleft : e.channelLeft = [channel])
    (hreturned : ∀ c k a, e = .returned c k a → ∃ v ∈ evaluations es,
      v.mail.client = c ∧ v.mail.reply = k ∧ v.answer = a ∧ v.after ≠ none)
    (hcut : ∀ c k, e = .cutOff c k → s.thread = .stopped) :
    Finished (es ++ [e]) (s.leave client channel) := by
  have hfinished : finished (es ++ [e]) = finished es ++ [channel] := by
    rw [finished_concat, hleft]
  refine ⟨fun c k a hmem => ?_, ?_, fun c k hc => ?_, fun k hk => ?_, fun c k hmem => ?_,
    fun c script hmem => ?_⟩
  · obtain hmem | hmem := List.mem_append.1 hmem
    · exact exists_evaluations_concat _ (h.returned c k a hmem)
    · exact exists_evaluations_concat _ (hreturned c k a (List.mem_singleton.1 hmem).symm)
  -- the client was waiting, so it has not left the channel before
  · rw [hfinished, List.nodup_append_comm]
    exact List.nodup_cons.2 ⟨h.waiting client channel hwaits, h.once⟩
  · obtain ⟨hold, hne⟩ := hlistening.waitsOn_leave hordered hwaits hc
    rw [hfinished, List.mem_append, List.mem_singleton]
    exact not_or.2 ⟨h.waiting c k hold, hne⟩
  · rw [hfinished, List.mem_append, List.mem_singleton] at hk
    obtain hk | rfl := hk
    · exact h.created k hk
    · obtain ⟨m, hm, -, rfl⟩ := hlistening.own client k hwaits
      exact hordered.reply_lt hm
  · obtain hmem | hmem := List.mem_append.1 hmem
    · exact h.cutOff c k hmem
    · exact hcut c k (List.mem_singleton.1 hmem).symm
  · obtain hmem | hmem := List.mem_append.1 hmem
    · exact h.refused c script hmem
    · obtain rfl := List.mem_singleton.1 hmem
      cases hleft

/-- What a channel holds is the answer to the request of the client that waits on it. -/
lemma Listening.exists_evaluation (h : Listening w es s) (hordered : Ordered es s) {c k : Nat}
    {a : Answer} (hwaits : s.waitsOn c = some k) (hheld : s.channel k = .holding a) :
    ∃ v ∈ evaluations es, v.mail.client = c ∧ v.mail.reply = k ∧ v.answer = a ∧ v.after ≠ none := by
  obtain ⟨v, hv, hreply, hanswer, hafter⟩ := h.held k a hheld
  obtain ⟨m, hm, hclient, hreply'⟩ := h.own c k hwaits
  obtain rfl := hordered.mail_inj (hordered.mem_sent hv) hm (hreply.trans hreply'.symm)
  exact ⟨v, hv, hclient, hreply, hanswer, hafter⟩

/-- Every step keeps what clients have got the answers to what they asked. -/
lemma Finished.step (h : Finished es s) (hordered : Ordered es s) (hlistening : Listening w es s)
    (hstep : Step s e t) : Finished (es ++ [e]) t := by
  cases hstep with
  | send client script hidle hthread hopen =>
    refine h.quiet (.send client script hidle hthread hopen) rfl (Nat.le_succ _) ?_ nofun
    intro c k hc
    rw [System.send_waitsOn, Function.update_apply] at hc
    split at hc
    next => exact .inr (Option.some.inj hc).symm
    next => exact .inl hc
  | refuse client script hidle hgone =>
    exact h.quiet (.refuse client script hidle hgone) rfl Nat.le.refl (fun _ _ => .inl)
      fun _ _ _ => hgone
  | receive hwaits hheld =>
    refine h.leave hordered hlistening hwaits rfl (fun c k a heq => ?_) nofun
    cases heq
    exact hlistening.exists_evaluation hordered hwaits hheld
  | cut hwaits _ hthread => exact h.leave hordered hlistening hwaits rfl nofun fun _ _ _ => hthread
  | giveUp hwaits => exact h.leave hordered hlistening hwaits rfl nofun nofun
  | take hthread hqueue =>
    exact h.quiet (.take hthread hqueue) rfl Nat.le.refl (fun _ _ => .inl) nofun
  | evaluate hthread heval =>
    exact h.quiet (.evaluate hthread heval) rfl Nat.le.refl (fun _ _ => .inl) nofun
  | reply hthread => exact h.quiet (.reply hthread) rfl Nat.le.refl (fun _ _ => .inl) nofun
  | shut hidle => exact h.quiet (.shut hidle) rfl Nat.le.refl (fun _ _ => .inl) nofun
  | finish hthread hqueue hshut =>
    exact h.quiet (.finish hthread hqueue hshut) rfl Nat.le.refl (fun _ _ => .inl) nofun

/-! ## All steps together -/

/-- The invariants. -/
structure Invariant (w : Worker κ) (es : List (Event κ)) (s : System κ) : Prop where
  /-- Requests are in order. -/
  ordered : Ordered es s
  /-- Evaluations are a sequential run. -/
  sequential : Sequential w es s
  /-- Channels hold the answers. -/
  listening : Listening w es s
  /-- Clients have got their answers. -/
  finished : Finished es s

/-- **What holds of all that has happened** holds after one more step. -/
lemma Invariant.step (h : Invariant w es s) (hstep : Step s e t) : Invariant w (es ++ [e]) t where
  ordered := h.ordered.step hstep
  sequential := h.sequential.step h.ordered hstep
  listening := h.listening.step h.ordered h.sequential hstep
  finished := h.finished.step h.ordered h.listening hstep

/-- The thread alone comes from one state to another. -/
structure ThreadRun (s : System κ) (es : List (Event κ)) (t : System κ) : Prop where
  /-- These things happen. -/
  run : Run s es t
  /-- Clients do nothing. -/
  ofThread : ∀ e ∈ es, e.isOfThread = true
  /-- Those that wait still do, and no others. -/
  waitsOn : t.waitsOn = s.waitsOn

/-- The thread may do nothing. -/
lemma ThreadRun.refl (s : System κ) : ThreadRun s [] s :=
  ⟨.refl, nofun, rfl⟩

/-- It may go on where it has stopped. -/
lemma ThreadRun.trans {u : System κ} {es' : List (Event κ)} (h : ThreadRun s es t)
    (h' : ThreadRun t es' u) : ThreadRun s (es ++ es') u where
  run := h.run.trans h'.run
  ofThread := fun e he => (List.mem_append.1 he).elim (h.ofThread e) (h'.ofThread e)
  waitsOn := h'.waitsOn.trans h.waitsOn

end CommandScript.Worker
