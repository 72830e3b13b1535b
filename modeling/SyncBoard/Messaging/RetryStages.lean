import SyncBoard.Messaging.Delivery
import SyncBoard.Lib.Positions

/-!
# A message that keeps failing

Where the one copy of such a message is and what its retry history is, after
each step: ready for delivery, at an await of its handler, in a wait queue, or
dead-lettered. Other messages and their handlers do not touch it.

## Implementation notes

The runs are those in which only the work on the message fails: the broker and
Redis answer the handlers of the message, and no process stops. Other messages
and their handlers may do anything.
-/

namespace SyncBoard.Messaging

open Labelled Positional

variable {Q P R : Type}

/-- The retry history of a message: the attempts whose work has ended, and the
delays of its retries. -/
structure RetryLog where
  attempts : Nat := 0
  delays : List Nat := []

section Properties
variable [DecidableEq Q]

/-- Record what a handler of the message does when it is resumed. -/
def recordRetries (msg : Option (DomainMessage Q)) (log : RetryLog) (s : QueueState Q P R) :
    QueueAction Q → RetryLog
  | .resume i o =>
      match s.handlers[i]? with
      | some h =>
          if h.delivery.message = msg then
            match h.phase with
            | .work => { log with attempts := log.attempts + 1 }
            | .sendToQueue retry =>
                if o.applied then { log with delays := log.delays ++ [retry.delayMs] } else log
            | _ => log
          else log
      | none => log
  | _ => log

/-- The steps of a queue with the retry history of a message. -/
def retryStep (c : Consumer Q P R) (call : Invocation Q) (msg : Option (DomainMessage Q)) :
    QueueState Q P R × RetryLog → QueueAction Q → Option (QueueState Q P R × RetryLog) :=
  track (QueueState.step c call) (recordRetries msg)

/-- The message `e` is published once and its work keeps failing, while the
other calls of its handlers succeed and no process stops. -/
def KeepsFailing (c : Consumer Q P R) (e : Envelope Q) (job : Job P) (s : QueueState Q P R) :
    QueueAction Q → Prop
  | .publish e' =>
      if e'.message = e.message then e' = e ∧ e.message ∉ s.accepted
      else ∀ job', c.validate e'.message = some job' → job'.messageId ≠ job.messageId
  | .resume i o =>
      ∀ h, s.handlers[i]? = some h → h.delivery.message = e.message →
        o = if h.phase = .work then .rejected else .resolved
  | .disconnect _ | .crash _ => False
  | _ => True

/-- A message is tried at most `maxRetries + 1` times, with delays that double from the base;
after so many attempts, and wherever no copy of it is ready, handled or waiting any more, the
last attempt has dead-lettered it. -/
structure RetriesBounded (c : Consumer Q P R) (e : Envelope Q) (s : QueueState Q P R)
    (log : RetryLog) : Prop where
  attempts : log.attempts ≤ c.maxRetries + 1
  delays : log.delays = (List.range log.delays.length).map (computeBackoff · c.retryBaseMs)
  last : log.attempts = c.maxRetries + 1 → (∀ h ∈ s.handlers, h.delivery.message ≠ e.message) →
    ∃ d ∈ s.dlx, d.message = e.message
  ended : e.message ∈ s.accepted → (∀ e' ∈ s.ready, e'.message ≠ e.message) →
    (∀ h ∈ s.handlers, h.delivery.message ≠ e.message) →
    (∀ w ∈ s.waiting, w.envelope.message ≠ e.message) → ∃ d ∈ s.dlx, d.message = e.message

/-- In every run in which only the work on the message fails, its retries are bounded. -/
def BoundedRetries (c : Consumer Q P R) (call : Invocation Q) (store : R) (e : Envelope Q)
    (job : Job P) : Prop :=
  ∀ labels p, Run (retryStep c call e.message) ({ store }, {}) labels p →
    AllSteps (retryStep c call e.message) (fun q => KeepsFailing c e job q.1) ({ store }, {})
      labels →
    RetriesBounded c e p.1 p.2

end Properties

/-- The retry count that a handler of the envelope reads. -/
def countOf (call : Invocation Q) (e : Envelope Q) : Nat :=
  retryCountFrom ((call.args e).raw.bind (·.headers))

/-- The retry that a handler of the envelope publishes. -/
def retryOf (c : Consumer Q P R) (call : Invocation Q) (e : Envelope Q) : Retry where
  routingKey := ((call.args e).raw.bind (·.routingKey)).getD c.routingKey
  delayMs := computeBackoff (countOf call e) c.retryBaseMs
  retryCount := countOf call e + 1

/-- The envelope after so many retries. -/
def redelivery (c : Consumer Q P R) (call : Invocation Q) (e : Envelope Q) : Nat → Envelope Q
  | 0 => e
  | n + 1 =>
      let retry := retryOf c call (redelivery c call e n)
      { message := e.message
        routingKey := retry.routingKey
        headers := { xRetryCount := .number retry.retryCount } }

theorem redelivery_message (c : Consumer Q P R) (call : Invocation Q) (e : Envelope Q) (n : Nat) :
    (redelivery c call e n).message = e.message := by
  cases n <;> rfl

/-- The handler of the envelope publishes a retry when its work fails. -/
def Retries (c : Consumer Q P R) (call : Invocation Q) (e : Envelope Q) : Prop :=
  countOf call e < c.maxRetries ∧ c.hasPublisher = true

theorem retryOrDeadLetter_of_retries {c : Consumer Q P R} {call : Invocation Q} {e : Envelope Q}
    (h : Retries c call e) :
    c.retryOrDeadLetter (call.args e).raw true = .await (.assertQueue (retryOf c call e)) := by
  unfold Consumer.retryOrDeadLetter
  exact if_pos h

theorem retryOrDeadLetter_of_not_retries {c : Consumer Q P R} {call : Invocation Q}
    {e : Envelope Q} {connected : Bool} (h : ¬ Retries c call e) :
    c.retryOrDeadLetter (call.args e).raw connected = .settled .nack := by
  unfold Consumer.retryOrDeadLetter
  exact if_neg h

section Stages
variable [DecidableEq Q]

/-- Where the copies of one message are. -/
@[ext]
structure Copies (Q P : Type) where
  ready : List (Envelope Q) := []
  handlers : List (Handler Q P) := []
  waiting : List (Waiting Q) := []
  dlx : List (Envelope Q) := []

def QueueState.copies (s : QueueState Q P R) (msg : Option (DomainMessage Q)) : Copies Q P where
  ready := s.ready.filter fun e => e.message = msg
  handlers := s.handlers.filter fun h => h.delivery.message = msg
  waiting := s.waiting.filter fun w => w.envelope.message = msg
  dlx := s.dlx.filter fun e => e.message = msg

/-- The history after so many attempts and retries. -/
def logAt (c : Consumer Q P R) (call : Invocation Q) (e : Envelope Q) (attempts retries : Nat) :
    RetryLog where
  attempts := attempts
  delays := (List.range retries).map fun k => (retryOf c call (redelivery c call e k)).delayMs

/-- The handler of an envelope at an await. -/
def handlerOf (call : Invocation Q) (job : Job P) (e : Envelope Q) (process : Nat)
    (phase : Phase) : Handler Q P where
  process := process
  delivery := e
  raw := (call.args e).raw
  job := job
  phase := phase

/-- The one copy of a message that keeps failing, `n` retries after its first delivery. -/
inductive Stage (c : Consumer Q P R) (call : Invocation Q) (e : Envelope Q) (job : Job P)
    (s : QueueState Q P R) (log : RetryLog) : Prop
  | ready (n : Nat) (hcopies : s.copies e.message = { ready := [redelivery c call e n] })
      (hkey : job.messageId ∉ s.keys) (hlog : log = logAt c call e n n)
      (hretries : ∀ k < n, Retries c call (redelivery c call e k))
  | running (n process attempts : Nat) (phase : Phase)
      (hcopies : s.copies e.message =
        { handlers := [handlerOf call job (redelivery c call e n) process phase] })
      (hphase : (phase = .consumeOnce ∧ attempts = n ∧ job.messageId ∉ s.keys) ∨
        (phase = .work ∧ attempts = n) ∨ (phase = .releaseKey ∧ attempts = n + 1) ∨
        ((phase = .assertQueue (retryOf c call (redelivery c call e n)) ∨
            phase = .sendToQueue (retryOf c call (redelivery c call e n))) ∧
          attempts = n + 1 ∧ job.messageId ∉ s.keys ∧
          Retries c call (redelivery c call e n)))
      (hlog : log = logAt c call e attempts n)
      (hretries : ∀ k < n, Retries c call (redelivery c call e k))
  | waiting (n : Nat)
      (hcopies : s.copies e.message =
        { waiting :=
            [{ envelope := redelivery c call e (n + 1)
               delayMs := (retryOf c call (redelivery c call e n)).delayMs }] })
      (hkey : job.messageId ∉ s.keys) (hlog : log = logAt c call e (n + 1) (n + 1))
      (hretries : ∀ k < n + 1, Retries c call (redelivery c call e k))
  | dead (n : Nat) (hcopies : s.copies e.message = { dlx := [redelivery c call e n] })
      (hlog : log = logAt c call e (n + 1) n)
      (hretries : ∀ k < n, Retries c call (redelivery c call e k))

variable {c : Consumer Q P R} {call : Invocation Q} {s s' t : QueueState Q P R}
variable {e : Envelope Q} {msg : Option (DomainMessage Q)} {job : Job P} {h : Handler Q P}
variable {o : Outcome} {i : Nat} {log : RetryLog}

theorem mem_copies_ready {e' : Envelope Q} (he : e' ∈ s.ready) (hmsg : e'.message = msg) :
    e' ∈ (s.copies msg).ready :=
  List.mem_filter.mpr ⟨he, by simpa using hmsg⟩

theorem mem_copies_handlers (hh : h ∈ s.handlers) (hmsg : h.delivery.message = msg) :
    h ∈ (s.copies msg).handlers :=
  List.mem_filter.mpr ⟨hh, by simpa using hmsg⟩

theorem mem_copies_waiting {w : Waiting Q} (hw : w ∈ s.waiting)
    (hmsg : w.envelope.message = msg) : w ∈ (s.copies msg).waiting :=
  List.mem_filter.mpr ⟨hw, by simpa using hmsg⟩

/-- A handler of another message changes no copy. -/
theorem copies_resume_of_ne (hi : s.handlers[i]? = some h) (hne : h.delivery.message ≠ msg)
    (ha : Advance c s h s') (p : Progress) :
    (s'.progress i h p).copies msg = s.copies msg := by
  obtain ⟨ws, hws, hmsg⟩ := ha.waiting
  have hwaiting : (s'.waiting.filter fun w => w.envelope.message = msg) =
      s.waiting.filter fun w => w.envelope.message = msg := by
    rw [hws, List.filter_append, List.append_right_eq_self, List.filter_eq_nil_iff]
    intro w hw
    rw [hmsg w hw]
    simpa using hne
  have hi' : s'.handlers[i]? = some h := by rwa [ha.handlers]
  have hneg : decide (h.delivery.message = msg) = false := by simpa using hne
  cases p with
  | await phase =>
      ext1
      · simp only [QueueState.copies, QueueState.progress, ha.ready]
      · simp only [QueueState.copies, QueueState.progress]
        rw [filter_set_of_neg hi' hneg hneg, ha.handlers]
      · exact hwaiting
      · simp only [QueueState.copies, QueueState.progress, ha.dlx]
  | settled how =>
      have hend : (s'.endHandler i).copies msg = s.copies msg := by
        ext1
        · simp only [QueueState.copies, QueueState.endHandler, ha.ready]
        · simp only [QueueState.copies, QueueState.endHandler]
          rw [filter_eraseIdx_of_neg hi' hneg, ha.handlers]
        · exact hwaiting
        · simp only [QueueState.copies, QueueState.endHandler, ha.dlx]
      rw [← hend]
      simp only [QueueState.progress, QueueState.settle]
      split
      · cases how with
        | ack => rfl
        | nack => simp [QueueState.copies, hne]
        | requeue => simp [QueueState.copies, hne]
      · rfl

/-- The handler of the message goes on to another await. -/
theorem copies_await (hi : s.handlers[i]? = some h) (hmsg : h.delivery.message = msg)
    {h' : Handler Q P} (hc : s.copies msg = { handlers := [h'] }) (phase : Phase) :
    (s.progress i h (.await phase)).copies msg =
      { handlers := [{ h with phase := phase }] } := by
  have hpos : decide (h.delivery.message = msg) = true := by simpa using hmsg
  have hset := filter_set_of_singleton (b := { h with phase := phase }) hi hpos hpos
    (congrArg Copies.handlers hc)
  have hready : (s.copies msg).ready = [] := by rw [hc]
  have hwaiting : (s.copies msg).waiting = [] := by rw [hc]
  have hdlx : (s.copies msg).dlx = [] := by rw [hc]
  ext1
  · exact hready
  · exact hset
  · exact hwaiting
  · exact hdlx

/-- The handler of the message ends, and the broker does what it returned. -/
theorem copies_settled (hi : s.handlers[i]? = some h) (hmsg : h.delivery.message = msg)
    (hu : h.unacked = true) {h' : Handler Q P} (hc : (s.copies msg).handlers = [h'])
    (how : Settlement) :
    (s.progress i h (.settled how)).copies msg =
      { s.copies msg with
        handlers := []
        ready := if how = .requeue then (s.copies msg).ready ++ [h.delivery]
          else (s.copies msg).ready
        dlx := if how = .nack then (s.copies msg).dlx ++ [h.delivery] else (s.copies msg).dlx } := by
  have hpos : decide (h.delivery.message = msg) = true := by simpa using hmsg
  have hnone := (filter_eraseIdx_of_singleton hi hpos hc).2
  simp only [QueueState.progress, QueueState.settle, hu, if_true]
  cases how with
  | ack => exact congrArg (fun hs => { s.copies msg with handlers := hs }) hnone
  | nack =>
      ext1
      · rfl
      · exact hnone
      · rfl
      · simp [QueueState.copies, QueueState.endHandler, hmsg]
  | requeue =>
      ext1
      · simp [QueueState.copies, QueueState.endHandler, hmsg]
      · exact hnone
      · rfl
      · rfl

theorem copies_sendToQueue (hmsg : h.delivery.message = msg) (retry : Retry) :
    (s.sendToQueue h retry).copies msg =
      { s.copies msg with
        waiting := (s.copies msg).waiting ++
          [{ envelope :=
              { message := h.delivery.message
                routingKey := retry.routingKey
                headers := { xRetryCount := .number retry.retryCount } }
             delayMs := retry.delayMs }] } := by
  simp [QueueState.copies, QueueState.sendToQueue, hmsg]

theorem copies_claimKey (id : JsString) : (s.claimKey id).copies msg = s.copies msg := by
  unfold QueueState.claimKey
  split <;> rfl

end Stages

section Calls
variable {c : Consumer Q P R} {call : Invocation Q} {s : QueueState Q P R} {e : Envelope Q}
variable {job : Job P} {process : Nat}

theorem handlers_claimKey (s : QueueState Q P R) (id : JsString) :
    (s.claimKey id).handlers = s.handlers := by
  unfold QueueState.claimKey
  split <;> rfl

theorem resume_claim (hkey : job.messageId ∉ s.keys) (hworks : c.works job = true) :
    c.resume s (handlerOf call job e process .consumeOnce) .resolved =
      (s.claimKey job.messageId, .await .work) := by
  simp [Consumer.resume, handlerOf, Consumer.claimed, Outcome.applied, hkey, hworks]

theorem resume_fail :
    c.resume s (handlerOf call job e process .work) .rejected = (s, .await .releaseKey) := by
  simp [Consumer.resume, handlerOf, Outcome.applied]

theorem resume_retry (hconn : s.connected process = true) (hr : Retries c call e) :
    c.resume s (handlerOf call job e process .releaseKey) .resolved =
      (s.releaseKey job.messageId, .await (.assertQueue (retryOf c call e))) := by
  simp only [Consumer.resume, handlerOf, Outcome.applied, hconn, retryOrDeadLetter_of_retries hr,
    if_true]

theorem resume_deadLetter (hr : ¬ Retries c call e) :
    c.resume s (handlerOf call job e process .releaseKey) .resolved =
      (s.releaseKey job.messageId, .settled .nack) := by
  simp only [Consumer.resume, handlerOf, Outcome.applied, retryOrDeadLetter_of_not_retries hr,
    if_true]

theorem resume_assertQueue (retry : Retry) :
    c.resume s (handlerOf call job e process (.assertQueue retry)) .resolved =
      (s, .await (.sendToQueue retry)) :=
  rfl

theorem resume_sendToQueue (retry : Retry) :
    c.resume s (handlerOf call job e process (.sendToQueue retry)) .resolved =
      (s.sendToQueue (handlerOf call job e process (.sendToQueue retry)) retry, .settled .ack) :=
  rfl

theorem logAt_fail (c : Consumer Q P R) (call : Invocation Q) (e : Envelope Q) (a r : Nat) :
    { logAt c call e a r with attempts := (logAt c call e a r).attempts + 1 } =
      logAt c call e (a + 1) r :=
  rfl

theorem logAt_retry (c : Consumer Q P R) (call : Invocation Q) (e : Envelope Q) (a r : Nat) :
    { logAt c call e a r with
      delays := (logAt c call e a r).delays ++
        [(retryOf c call (redelivery c call e r)).delayMs] } = logAt c call e a (r + 1) := by
  simp [logAt, List.range_succ]

end Calls

section Steps
variable [DecidableEq Q]
variable {c : Consumer Q P R} {call : Invocation Q} {s s' t : QueueState Q P R}
variable {e : Envelope Q} {job : Job P} {h : Handler Q P} {o : Outcome} {i : Nat} {log : RetryLog}

/-- A handler of the message goes on to its next stage. -/
theorem Stage.resume (hs : Stage c call e job s log) (hsound : Sound c s)
    (hworks : c.works job = true) (hi : s.handlers[i]? = some h)
    (hmsg : h.delivery.message = e.message)
    (ho : o = if h.phase = .work then .rejected else .resolved) :
    Stage c call e job ((c.resume s h o).1.progress i h (c.resume s h o).2)
      (recordRetries e.message log s (.resume i o)) := by
  have hh := List.mem_of_getElem? hi
  have hmem := mem_copies_handlers hh hmsg
  simp only [recordRetries, hi, hmsg, if_true]
  cases hs with
  | ready n hc => simp [hc] at hmem
  | waiting n hc => simp [hc] at hmem
  | dead n hc => simp [hc] at hmem
  | running n process attempts phase hc hphase hlog hr =>
      rw [hc, List.mem_singleton] at hmem
      subst hmem
      have hhandlers : (s.copies e.message).handlers = _ := congrArg Copies.handlers hc
      rcases hphase with ⟨rfl, rfl, hkey⟩ | ⟨rfl, rfl⟩ | ⟨rfl, rfl⟩ | ⟨rfl | rfl, rfl, hkey, hretry⟩
      · obtain rfl : o = .resolved := ho
        rw [resume_claim hkey hworks]
        refine .running attempts process attempts .work ?_ (.inr (.inl ⟨rfl, rfl⟩)) hlog hr
        exact copies_await (by rwa [handlers_claimKey]) hmsg ((copies_claimKey _).trans hc) _
      · obtain rfl : o = .rejected := ho
        rw [resume_fail, hlog]
        exact .running attempts process (attempts + 1) .releaseKey (copies_await hi hmsg hc _)
          (.inr (.inr (.inl ⟨rfl, rfl⟩))) (logAt_fail c call e attempts attempts) hr
      · obtain rfl : o = .resolved := ho
        have hconn : s.connected process = true := hsound.linked _ hh rfl
        by_cases hretry : Retries c call (redelivery c call e n)
        · rw [resume_retry hconn hretry]
          refine .running n process (n + 1) _ (copies_await hi hmsg hc _) (.inr (.inr (.inr
            ⟨.inl rfl, rfl, ?_, hretry⟩))) hlog hr
          simp [QueueState.progress, QueueState.releaseKey]
        · rw [resume_deadLetter hretry]
          refine .dead n ?_ hlog hr
          have hc' : (s.releaseKey job.messageId).copies e.message = _ := hc
          dsimp only
          rw [copies_settled (s := s.releaseKey job.messageId) hi hmsg rfl hhandlers, hc']
          rfl
      · obtain rfl : o = .resolved := ho
        rw [resume_assertQueue]
        exact .running n process (n + 1) _ (copies_await hi hmsg hc _) (.inr (.inr (.inr
          ⟨.inr rfl, rfl, hkey, hretry⟩))) hlog hr
      · obtain rfl : o = .resolved := ho
        rw [resume_sendToQueue, hlog]
        refine .waiting n ?_ hkey (logAt_retry c call e (n + 1) n) ?_
        · let retry := retryOf c call (redelivery c call e n)
          let h := handlerOf call job (redelivery c call e n) process (.sendToQueue retry)
          have hsent := copies_sendToQueue (s := s) (h := h) hmsg retry
          dsimp only
          rw [copies_settled (s := s.sendToQueue h retry) hi hmsg rfl (by rw [hsent, hc]), hsent,
            hc, hmsg]
          rfl
        · intro k hk
          rcases Nat.lt_succ_iff_lt_or_eq.mp hk with hk | rfl
          · exact hr k hk
          · exact hretry

/-- A message that was not published yet. -/
structure Unseen (e : Envelope Q) (job : Job P) (s : QueueState Q P R) (log : RetryLog) :
    Prop where
  accepted : e.message ∉ s.accepted
  copies : s.copies e.message = {}
  key : job.messageId ∉ s.keys
  log : log = {}

/-- What holds along a run in which the message `e` keeps failing. -/
structure Tracked (c : Consumer Q P R) (call : Invocation Q) (e : Envelope Q) (job : Job P)
    (s : QueueState Q P R) (log : RetryLog) : Prop where
  sound : Sound c s
  /-- No other message has its id. -/
  distinct : ∀ m ∈ s.accepted, m ≠ e.message → ∀ job', c.validate m = some job' →
    job'.messageId ≠ job.messageId
  stage : Unseen e job s log ∨ e.message ∈ s.accepted ∧ Stage c call e job s log

/-- A step that does not touch the message. -/
structure Untouched (e : Envelope Q) (job : Job P) (s : QueueState Q P R) (log : RetryLog)
    (s' : QueueState Q P R) (log' : RetryLog) : Prop where
  copies : s'.copies e.message = s.copies e.message
  keys : job.messageId ∈ s'.keys → job.messageId ∈ s.keys
  accepted : e.message ∈ s'.accepted ↔ e.message ∈ s.accepted
  log : log' = log

theorem Stage.untouched (hs : Stage c call e job s log) {log' : RetryLog}
    (hu : Untouched e job s log s' log') : Stage c call e job s' log' := by
  rw [hu.log]
  cases hs with
  | ready n hc hkey hlog hr => exact .ready n (hu.copies.trans hc) (mt hu.keys hkey) hlog hr
  | running n process attempts phase hc hphase hlog hr =>
      refine .running n process attempts phase (hu.copies.trans hc) ?_ hlog hr
      rcases hphase with ⟨hp, ha, hkey⟩ | hwork | hrelease | ⟨hp, ha, hkey, hretry⟩
      · exact .inl ⟨hp, ha, mt hu.keys hkey⟩
      · exact .inr (.inl hwork)
      · exact .inr (.inr (.inl hrelease))
      · exact .inr (.inr (.inr ⟨hp, ha, mt hu.keys hkey, hretry⟩))
  | waiting n hc hkey hlog hr => exact .waiting n (hu.copies.trans hc) (mt hu.keys hkey) hlog hr
  | dead n hc hlog hr => exact .dead n (hu.copies.trans hc) hlog hr

theorem stage_untouched {log' : RetryLog} (hu : Untouched e job s log s' log')
    (hs : Unseen e job s log ∨ e.message ∈ s.accepted ∧ Stage c call e job s log) :
    Unseen e job s' log' ∨ e.message ∈ s'.accepted ∧ Stage c call e job s' log' := by
  rcases hs with hs | ⟨hacc, hs⟩
  · left
    exact
      { accepted := mt hu.accepted.mp hs.accepted
        copies := hu.copies.trans hs.copies
        key := mt hu.keys hs.key
        log := hu.log.trans hs.log }
  · exact .inr ⟨hu.accepted.mpr hacc, hs.untouched hu⟩

theorem untouched_publish {e' : Envelope Q} (hne : e'.message ≠ e.message) :
    Untouched e job s log
      { s with
        accepted := s.accepted ++ [e'.message]
        ready := s.ready ++ [e'] } log where
  copies := by simp [QueueState.copies, hne]
  keys := id
  accepted := by simp [hne.symm]
  log := rfl

theorem untouched_deliver {e' : Envelope Q} (hi : s.ready[i]? = some e')
    (hne : e'.message ≠ e.message) (process : Nat) :
    Untouched e job s log ((s.takeReady i).deliver c call process e') log := by
  have hneg : decide (e'.message = e.message) = false := by simpa using hne
  have htake : (s.takeReady i).copies e.message = s.copies e.message := by
    ext1
    · exact filter_eraseIdx_of_neg hi hneg
    · rfl
    · rfl
    · rfl
  unfold QueueState.deliver
  split
  · exact ⟨htake, id, Iff.rfl, rfl⟩
  · refine ⟨?_, id, Iff.rfl, rfl⟩
    rw [← htake]
    simp [QueueState.copies, hne]

theorem untouched_retryDelayOver {w : Waiting Q} (hi : s.waiting[i]? = some w)
    (hne : w.envelope.message ≠ e.message) :
    Untouched e job s log
      { s with
        waiting := s.waiting.eraseIdx i
        ready := s.ready ++ [w.envelope] } log where
  copies := by
    have hneg : decide (w.envelope.message = e.message) = false := by simpa using hne
    ext1
    · simp [QueueState.copies, hne]
    · rfl
    · exact filter_eraseIdx_of_neg hi hneg
    · rfl
  keys := id
  accepted := Iff.rfl
  log := rfl

omit [DecidableEq Q] in
theorem progress_keys (s : QueueState Q P R) (i : Nat) (h : Handler Q P) (p : Progress) :
    (s.progress i h p).keys = s.keys ∧ (s.progress i h p).accepted = s.accepted := by
  unfold QueueState.progress QueueState.settle
  split
  · exact ⟨rfl, rfl⟩
  · split
    · split <;> exact ⟨rfl, rfl⟩
    · exact ⟨rfl, rfl⟩

theorem untouched_resume (ht : Tracked c call e job s log) (hi : s.handlers[i]? = some h)
    (hne : h.delivery.message ≠ e.message) :
    Untouched e job s log ((c.resume s h o).1.progress i h (c.resume s h o).2)
      (recordRetries e.message log s (.resume i o)) := by
  have hh := List.mem_of_getElem? hi
  have ha : Advance c s h (c.resume s h o).1 := advance_resume
  have hid : h.job.messageId ≠ job.messageId :=
    ht.distinct _ (ht.sound.delivered h hh) hne _ (ht.sound.job h hh)
  obtain ⟨hkeys, hacc⟩ := progress_keys (c.resume s h o).1 i h (c.resume s h o).2
  constructor
  · exact copies_resume_of_ne hi hne ha _
  · rw [hkeys]
    exact (ha.keys _ hid.symm).mp
  · rw [hacc, ha.accepted]
  · simp only [recordRetries, hi, if_neg hne]

/-- Its publication puts the one copy of the message into the queue. -/
theorem Unseen.publish (hs : Unseen e job s log) :
    Stage c call e job
      { s with
        accepted := s.accepted ++ [e.message]
        ready := s.ready ++ [e] } log := by
  obtain ⟨hready, hhandlers, hwaiting, hdlx⟩ := Copies.ext_iff.mp hs.copies
  refine .ready 0 ?_ hs.key (hs.log.trans rfl) (fun k hk => absurd hk (Nat.not_lt_zero k))
  ext1
  · simp only [QueueState.copies] at hready
    simp [QueueState.copies, hready, redelivery]
  · exact hhandlers
  · exact hwaiting
  · exact hdlx

/-- The ready copy is delivered: its handler claims the key first. -/
theorem Stage.deliver (hs : Stage c call e job s log) (henabled : c.isEnabled = true)
    (hjob : c.validate e.message = some job) {e' : Envelope Q} (hi : s.ready[i]? = some e')
    (hmsg : e'.message = e.message) (process : Nat) :
    Stage c call e job ((s.takeReady i).deliver c call process e') log := by
  have hmem := mem_copies_ready (List.mem_of_getElem? hi) hmsg
  have hpos : decide (e'.message = e.message) = true := by simpa using hmsg
  cases hs with
  | running n process attempts phase hc => simp [hc] at hmem
  | waiting n hc => simp [hc] at hmem
  | dead n hc => simp [hc] at hmem
  | ready n hc hkey hlog hr =>
      obtain ⟨hready, hhandlers, hwaiting, hdlx⟩ := Copies.ext_iff.mp hc
      obtain ⟨rfl, htaken⟩ := filter_eraseIdx_of_singleton hi hpos hready
      have hstart : c.start (call.args (redelivery c call e n)) = some job := by
        rw [start_of_enabled henabled, hmsg, hjob]
      simp only [QueueState.deliver, hstart]
      refine .running n process n .consumeOnce ?_ (.inl ⟨rfl, rfl, hkey⟩) hlog hr
      ext1
      · exact htaken
      · simp only [QueueState.copies] at hhandlers
        simp [QueueState.copies, QueueState.takeReady, hhandlers, hmsg, handlerOf]
      · exact hwaiting
      · exact hdlx

/-- The delay of the waiting copy is over: it is ready with one more retry. -/
theorem Stage.retryDelayOver (hs : Stage c call e job s log) {w : Waiting Q}
    (hi : s.waiting[i]? = some w) (hmsg : w.envelope.message = e.message) :
    Stage c call e job
      { s with
        waiting := s.waiting.eraseIdx i
        ready := s.ready ++ [w.envelope] } log := by
  have hmem := mem_copies_waiting (List.mem_of_getElem? hi) hmsg
  have hpos : decide (w.envelope.message = e.message) = true := by simpa using hmsg
  cases hs with
  | ready n hc => simp [hc] at hmem
  | running n process attempts phase hc => simp [hc] at hmem
  | dead n hc => simp [hc] at hmem
  | waiting n hc hkey hlog hr =>
      obtain ⟨hready, hhandlers, hwaiting, hdlx⟩ := Copies.ext_iff.mp hc
      obtain ⟨rfl, htaken⟩ := filter_eraseIdx_of_singleton hi hpos hwaiting
      refine .ready (n + 1) ?_ hkey hlog hr
      ext1
      · simp only [QueueState.copies] at hready
        simp [QueueState.copies, hready, redelivery_message]
      · exact hhandlers
      · exact htaken
      · exact hdlx

theorem Unseen.no_ready (hs : Unseen e job s log) {e' : Envelope Q} (he : e' ∈ s.ready) :
    e'.message ≠ e.message := by
  intro hmsg
  have hmem := mem_copies_ready he hmsg
  simp [hs.copies] at hmem

theorem Unseen.no_handler (hs : Unseen e job s log) (hh : h ∈ s.handlers) :
    h.delivery.message ≠ e.message := by
  intro hmsg
  have hmem := mem_copies_handlers hh hmsg
  simp [hs.copies] at hmem

theorem Unseen.no_waiting (hs : Unseen e job s log) {w : Waiting Q} (hw : w ∈ s.waiting) :
    w.envelope.message ≠ e.message := by
  intro hmsg
  have hmem := mem_copies_waiting hw hmsg
  simp [hs.copies] at hmem

/-- The message keeps its stage, or goes on to the next. -/
theorem Tracked.step (ht : Tracked c call e job s log) (henabled : c.isEnabled = true)
    (hjob : c.validate e.message = some job) (hworks : c.works job = true) {a : QueueAction Q}
    (hg : KeepsFailing c e job s a) (h : s.step c call a = some t) :
    Tracked c call e job t (recordRetries e.message log s a) := by
  have hsound := ht.sound.step h
  cases a with
  | publish e' =>
      cases h
      by_cases hmsg : e'.message = e.message
      · simp only [KeepsFailing, if_pos hmsg] at hg
        obtain ⟨rfl, hacc⟩ := hg
        refine ⟨hsound, ?_, .inr ⟨by simp, ?_⟩⟩
        · intro m hm hne
          rcases List.mem_append.mp hm with hm | hm
          · exact ht.distinct m hm hne
          · exact absurd (List.mem_singleton.mp hm) hne
        · rcases ht.stage with hs | ⟨hacc', -⟩
          · exact hs.publish
          · exact absurd hacc' hacc
      · simp only [KeepsFailing, if_neg hmsg] at hg
        refine ⟨hsound, ?_, stage_untouched (untouched_publish hmsg) ht.stage⟩
        intro m hm hne
        rcases List.mem_append.mp hm with hm | hm
        · exact ht.distinct m hm hne
        · exact List.mem_singleton.mp hm ▸ hg
  | deliver i process =>
      simp only [QueueState.step] at h
      split at h
      · obtain ⟨e', hi, rfl⟩ := Option.map_eq_some_iff.mp h
        have hacc : ((s.takeReady i).deliver c call process e').accepted = s.accepted := by
          unfold QueueState.deliver
          split <;> rfl
        refine ⟨hsound, hacc ▸ ht.distinct, ?_⟩
        by_cases hmsg : e'.message = e.message
        · rcases ht.stage with hs | ⟨hacc', hs⟩
          · exact absurd hmsg (hs.no_ready (List.mem_of_getElem? hi))
          · exact .inr ⟨hacc ▸ hacc', hs.deliver henabled hjob hi hmsg process⟩
        · exact stage_untouched (untouched_deliver hi hmsg process) ht.stage
      · cases h
  | resume i o =>
      obtain ⟨h', hi, rfl⟩ := Option.map_eq_some_iff.mp h
      have ha : Advance c s h' (c.resume s h' o).1 := advance_resume
      have hacc := (progress_keys (c.resume s h' o).1 i h' (c.resume s h' o).2).2.trans ha.accepted
      refine ⟨hsound, hacc ▸ ht.distinct, ?_⟩
      by_cases hmsg : h'.delivery.message = e.message
      · rcases ht.stage with hs | ⟨hacc', hs⟩
        · exact absurd hmsg (hs.no_handler (List.mem_of_getElem? hi))
        · exact .inr ⟨hacc ▸ hacc', hs.resume ht.sound hworks hi hmsg (hg h' hi hmsg)⟩
      · exact stage_untouched (untouched_resume ht hi hmsg) ht.stage
  | retryDelayOver i =>
      obtain ⟨w, hi, rfl⟩ := Option.map_eq_some_iff.mp h
      refine ⟨hsound, ht.distinct, ?_⟩
      by_cases hmsg : w.envelope.message = e.message
      · rcases ht.stage with hs | ⟨hacc, hs⟩
        · exact absurd hmsg (hs.no_waiting (List.mem_of_getElem? hi))
        · exact .inr ⟨hacc, hs.retryDelayOver hi hmsg⟩
      · exact stage_untouched (untouched_retryDelayOver hi hmsg) ht.stage
  | keyExpires id =>
      cases h
      have hu : Untouched e job s log (s.releaseKey id) log :=
        ⟨rfl, List.mem_of_mem_filter, Iff.rfl, rfl⟩
      exact ⟨hsound, ht.distinct, stage_untouched hu ht.stage⟩
  | connect process =>
      cases h
      have hu : Untouched e job s log
          { s with connected := Function.update s.connected process true } log :=
        ⟨rfl, id, Iff.rfl, rfl⟩
      exact ⟨hsound, ht.distinct, stage_untouched hu ht.stage⟩
  | disconnect process | crash process => exact hg.elim

end Steps

section Alone
variable [DecidableEq Q]
variable {c : Consumer Q P R} {call : Invocation Q} {store : R} {e : Envelope Q} {job : Job P}

/-- A message alone in the queue, `n` retries after its publication. -/
def queuedAlone (c : Consumer Q P R) (call : Invocation Q) (store : R) (e : Envelope Q) (n : Nat) :
    QueueState Q P R where
  accepted := [e.message]
  ready := [redelivery c call e n]
  store := store
  connected := Function.update (fun _ => false) 0 true

/-- Its handler at an await. -/
def handledAlone (c : Consumer Q P R) (call : Invocation Q) (store : R) (e : Envelope Q)
    (job : Job P) (n : Nat) (phase : Phase) (keys : List JsString) : QueueState Q P R where
  accepted := [e.message]
  handlers := [handlerOf call job (redelivery c call e n) 0 phase]
  keys := keys
  store := store
  connected := Function.update (fun _ => false) 0 true

omit [DecidableEq Q] in
theorem step_queuedAlone (henabled : c.isEnabled = true)
    (hjob : c.validate e.message = some job) (n : Nat) :
    (queuedAlone c call store e n).step c call (.deliver 0 0) =
      some (handledAlone c call store e job n .consumeOnce []) := by
  have hstart : c.start (call.args (redelivery c call e n)) = some job := by
    rw [start_of_enabled henabled, redelivery_message, hjob]
  simp [QueueState.step, queuedAlone, QueueState.takeReady, QueueState.deliver, hstart,
    handledAlone, handlerOf]

omit [DecidableEq Q] in
theorem step_resume_handledAlone (n : Nat) (phase : Phase) (keys : List JsString) (o : Outcome) :
    (handledAlone c call store e job n phase keys).step c call (.resume 0 o) =
      some ((c.resume (handledAlone c call store e job n phase keys)
        (handlerOf call job (redelivery c call e n) 0 phase) o).1.progress 0
          (handlerOf call job (redelivery c call e n) 0 phase)
          (c.resume (handledAlone c call store e job n phase keys)
            (handlerOf call job (redelivery c call e n) 0 phase) o).2) :=
  rfl

theorem keepsFailing_handledAlone {n : Nat} {phase : Phase} {keys : List JsString} {o : Outcome}
    (ho : o = if phase = .work then .rejected else .resolved) :
    KeepsFailing c e job (handledAlone c call store e job n phase keys) (.resume 0 o) := by
  intro h hi _
  obtain rfl : handlerOf call job (redelivery c call e n) 0 phase = h := Option.some.inj hi
  exact ho

theorem recordRetries_handledAlone {n : Nat} (log : RetryLog) (phase : Phase)
    (keys : List JsString) {o : Outcome} :
    recordRetries e.message log (handledAlone c call store e job n phase keys) (.resume 0 o) =
      match phase with
      | .work => { log with attempts := log.attempts + 1 }
      | .sendToQueue retry =>
          if o.applied then { log with delays := log.delays ++ [retry.delayMs] } else log
      | _ => log := by
  simp only [recordRetries, handledAlone, List.getElem?_cons_zero, handlerOf, redelivery_message,
    if_true]

/-- The message `e` keeps failing from the empty queue to this state. -/
abbrev FailsTo (c : Consumer Q P R) (call : Invocation Q) (store : R) (e : Envelope Q)
    (job : Job P) : QueueState Q P R × RetryLog → Prop :=
  Reaches (retryStep c call e.message) (fun q => KeepsFailing c e job q.1) ({ store }, {})

theorem reaches_handledAlone {n : Nat} {phase phase' : Phase} {keys keys' : List JsString}
    {o : Outcome} {log log' : RetryLog}
    (h : FailsTo c call store e job (handledAlone c call store e job n phase keys, log))
    (ho : o = if phase = .work then .rejected else .resolved)
    (hres : c.resume (handledAlone c call store e job n phase keys)
      (handlerOf call job (redelivery c call e n) 0 phase) o =
        ({ handledAlone c call store e job n phase keys with keys := keys' }, .await phase'))
    (hlog : log' = match phase with
      | .work => { log with attempts := log.attempts + 1 }
      | .sendToQueue retry =>
          if o.applied then { log with delays := log.delays ++ [retry.delayMs] } else log
      | _ => log) :
    FailsTo c call store e job (handledAlone c call store e job n phase' keys', log') := by
  refine h.snoc (a := .resume 0 o) (track_eq_some.mpr ⟨?_, ?_⟩) (keepsFailing_handledAlone ho)
  · rw [step_resume_handledAlone, hres]
    rfl
  · rw [recordRetries_handledAlone]
    exact hlog

/-- As long as a handler publishes a retry, the message is tried again. -/
theorem reaches_queuedAlone (henabled : c.isEnabled = true)
    (hjob : c.validate e.message = some job) (hworks : c.works job = true) (n : Nat)
    (hr : ∀ k < n, Retries c call (redelivery c call e k)) :
    FailsTo c call store e job (queuedAlone c call store e n, logAt c call e n n) := by
  induction n with
  | zero =>
      have hpublish : FailsTo c call store e job
          ({ accepted := [e.message], ready := [e], store }, {}) :=
        (Reaches.refl _).snoc (a := .publish e) rfl (by simp [KeepsFailing])
      exact hpublish.snoc (a := .connect 0) rfl trivial
  | succ n ih =>
      have hretry := hr n (Nat.lt_succ_self n)
      let retry := retryOf c call (redelivery c call e n)
      have hqueued := ih fun k hk => hr k (hk.trans (Nat.lt_succ_self n))
      have hdelivered : FailsTo c call store e job
          (handledAlone c call store e job n .consumeOnce [], logAt c call e n n) :=
        hqueued.snoc (a := .deliver 0 0)
          (track_eq_some.mpr ⟨step_queuedAlone henabled hjob n, rfl⟩) trivial
      have hclaimed : FailsTo c call store e job
          (handledAlone c call store e job n .work [job.messageId], logAt c call e n n) :=
        reaches_handledAlone hdelivered rfl (resume_claim (by simp [handledAlone]) hworks) rfl
      have hfailed : FailsTo c call store e job
          (handledAlone c call store e job n .releaseKey [job.messageId],
            logAt c call e (n + 1) n) :=
        reaches_handledAlone hclaimed rfl resume_fail rfl
      have hreleased : FailsTo c call store e job
          (handledAlone c call store e job n (.assertQueue retry) [], logAt c call e (n + 1) n) := by
        refine reaches_handledAlone hfailed rfl ((resume_retry rfl hretry).trans ?_) rfl
        simp [QueueState.releaseKey, handledAlone, retry]
      have hasserted : FailsTo c call store e job
          (handledAlone c call store e job n (.sendToQueue retry) [], logAt c call e (n + 1) n) :=
        reaches_handledAlone hreleased rfl (resume_assertQueue retry) rfl
      have hsent : FailsTo c call store e job
          ({ queuedAlone c call store e n with
              ready := []
              waiting := [{ envelope := redelivery c call e (n + 1), delayMs := retry.delayMs }] },
            logAt c call e (n + 1) (n + 1)) := by
        refine hasserted.snoc (a := .resume 0 .resolved) (track_eq_some.mpr ⟨?_, ?_⟩)
          (keepsFailing_handledAlone rfl)
        · rw [step_resume_handledAlone, resume_sendToQueue]
          simp [QueueState.sendToQueue, QueueState.progress, QueueState.settle,
            QueueState.endHandler, handledAlone, handlerOf, queuedAlone, redelivery_message,
            redelivery, retry]
        · rw [recordRetries_handledAlone]
          exact (logAt_retry c call e (n + 1) n).symm
      exact hsent.snoc (a := .retryDelayOver 0) rfl trivial

end Alone

end SyncBoard.Messaging
