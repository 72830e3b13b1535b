import SyncBoard.Messaging.Message
import SyncBoard.Lib.Run
import Mathlib.Logic.Function.Basic

/-!
# The consumers and their queue

`NotificationConsumerListener.handle` and `EmailConsumer.handle` go through the
same steps: validate, claim the idempotency key, do the work, and on an error
release the key and publish a retry, or dead-letter. They are one definition
here, `Consumer`, with the values in which they differ.

## Implementation notes

A handler is resumed at each of its awaits with the outcome of the awaited
call. What the handler returns settles its delivery: a normal return
acknowledges it, `Nack(false)` dead-letters it, and an error requeues it. A
consumer process that crashes, or whose connection breaks, has its unsettled
deliveries requeued; after a broken connection its handlers run on, and what
they return no longer reaches the broker. A wait queue is its delay: name and
arguments only say where its messages go back to. The store only grows: what
deletes notifications later is no part of the model.
-/

namespace SyncBoard.Messaging

open Labelled

/-- A message that passed validation. -/
structure Job (P : Type) where
  messageId : JsString
  payload : P

/-- How an awaited call ends. An `unanswered` one is rejected although it took effect. -/
inductive Outcome
  | resolved
  | rejected
  | unanswered
  deriving DecidableEq, Repr

def Outcome.applied : Outcome → Bool
  | .resolved | .unanswered => true
  | .rejected => false

/-- The arguments of `publishRetry` besides the message. -/
structure Retry where
  routingKey : JsString
  delayMs : Nat
  retryCount : Nat
  deriving DecidableEq

/-- The await at which a handler is suspended. -/
inductive Phase
  | consumeOnce
  | work
  | releaseKey
  | assertQueue (retry : Retry)
  | sendToQueue (retry : Retry)
  | incr
  | expire
  deriving DecidableEq

/-- What becomes of a delivery when its handler ends. -/
inductive Settlement
  | ack
  | nack
  | requeue
  deriving DecidableEq, Repr

inductive Progress
  | await (phase : Phase)
  | settled (how : Settlement)
  deriving DecidableEq

/-- The values in which the two consumers differ. `work` is `createOnce` or
`sendMail` on what it writes to, and says whether the handler goes on to bump
the unread counter and to push; `works` is false where no call is made. -/
structure Consumer (Q P R : Type) where
  isEnabled : Bool := true
  isValidPayload : Option Q → Option P
  routingKey : JsString
  maxRetries : Nat
  retryBaseMs : Nat
  hasPublisher : Bool := true
  works : Job P → Bool := fun _ => true
  work : Job P → R → R × Bool
  bumpUnreadCounter : Job P → R → R := fun _ r => r
  pushToUser : Job P → R → R := fun _ r => r
  /-- The work on a message has been done. -/
  done : Job P → R → Prop
  done_work : ∀ job r, works job → done job (work job r).1
  done_of_work : ∀ job job' r, done job' r → done job' (work job r).1
  done_of_bump : ∀ job job' r, done job' r → done job' (bumpUnreadCounter job r)
  done_of_push : ∀ job job' r, done job' r → done job' (pushToUser job r)

/-- A delivery that a consumer process handles. The broker waits for its
settlement as long as it is `unacked`. -/
structure Handler (Q P : Type) where
  process : Nat
  delivery : Envelope Q
  raw : Option ConsumeContext
  job : Job P
  phase : Phase := .consumeOnce
  unacked : Bool := true

/-- A message in a wait queue. -/
structure Waiting (Q : Type) where
  envelope : Envelope Q
  delayMs : Nat

/-- A queue with its consumers. `accepted` are the messages that the broker took
in, and `keys` the message ids with a `msg:processed:` key in Redis. -/
structure QueueState (Q P R : Type) where
  accepted : List (Option (DomainMessage Q)) := []
  ready : List (Envelope Q) := []
  handlers : List (Handler Q P) := []
  waiting : List (Waiting Q) := []
  dlx : List (Envelope Q) := []
  keys : List JsString := []
  store : R
  connected : Nat → Bool := fun _ => false

variable {Q P R : Type}

namespace Consumer

/-- The checks that a poison message fails. -/
def validate (c : Consumer Q P R) (msg : Option (DomainMessage Q)) : Option (Job P) := do
  let msg ← msg
  let messageId ← msg.messageId.asString
  let payload ← c.isValidPayload msg.payload
  return { messageId, payload }

/-- `handle` up to its first await; `none` is a return. -/
def start (c : Consumer Q P R) (args : HandleArgs Q) : Option (Job P) :=
  if c.isEnabled then c.validate args.msg else none

/-- `publishRetry` up to its first await; without a connection it returns. -/
def publishRetry (retry : Retry) (connected : Bool) : Progress :=
  if connected then .await (.assertQueue retry) else .settled .ack

/-- The rest of the `catch` block, after the key was released. -/
def retryOrDeadLetter (c : Consumer Q P R) (raw : Option ConsumeContext) (connected : Bool) :
    Progress :=
  let retryCount := retryCountFrom (raw.bind (·.headers))
  if retryCount < c.maxRetries ∧ c.hasPublisher then
    publishRetry
      { routingKey := (raw.bind (·.routingKey)).getD c.routingKey
        delayMs := computeBackoff retryCount c.retryBaseMs
        retryCount := retryCount + 1 }
      connected
  else
    .settled .nack

/-- `consumeOnce` answered: the first delivery goes on to the work. -/
def claimed (c : Consumer Q P R) (job : Job P) (isFirstDelivery : Bool) : Progress :=
  if isFirstDelivery ∧ c.works job then .await .work else .settled .ack

end Consumer

namespace QueueState

def claimKey (s : QueueState Q P R) (messageId : JsString) : QueueState Q P R :=
  if messageId ∈ s.keys then s else { s with keys := s.keys ++ [messageId] }

def releaseKey (s : QueueState Q P R) (messageId : JsString) : QueueState Q P R :=
  { s with keys := s.keys.filter fun key => key ≠ messageId }

/-- The message of a handler, in the wait queue of its retry. -/
def sendToQueue (s : QueueState Q P R) (h : Handler Q P) (retry : Retry) : QueueState Q P R :=
  let envelope :=
    { message := h.delivery.message
      routingKey := retry.routingKey
      headers := { xRetryCount := .number retry.retryCount } }
  { s with waiting := s.waiting ++ [{ envelope, delayMs := retry.delayMs }] }

def mapStore (s : QueueState Q P R) (f : R → R) : QueueState Q P R :=
  { s with store := f s.store }

end QueueState

/-- A handler from one await to the next. -/
def Consumer.resume (c : Consumer Q P R) (s : QueueState Q P R) (h : Handler Q P) (o : Outcome) :
    QueueState Q P R × Progress :=
  match h.phase with
  | .consumeOnce =>
      (if o.applied then s.claimKey h.job.messageId else s,
        if o = .resolved then c.claimed h.job (h.job.messageId ∉ s.keys) else .settled .requeue)
  | .work =>
      (if o.applied then s.mapStore fun r => (c.work h.job r).1 else s,
        if o = .resolved then
          if (c.work h.job s.store).2 then .await .incr else .settled .ack
        else .await .releaseKey)
  | .releaseKey =>
      (if o.applied then s.releaseKey h.job.messageId else s,
        c.retryOrDeadLetter h.raw (s.connected h.process))
  | .assertQueue retry =>
      (s, if o = .resolved then .await (.sendToQueue retry) else .settled .requeue)
  | .sendToQueue retry =>
      (if o.applied then s.sendToQueue h retry else s,
        .settled (if o = .resolved then .ack else .requeue))
  | .incr =>
      let s := if o.applied then s.mapStore (c.bumpUnreadCounter h.job) else s
      if o = .resolved then (s, .await .expire)
      else (s.mapStore (c.pushToUser h.job), .settled .ack)
  | .expire => (s.mapStore (c.pushToUser h.job), .settled .ack)

/-- What happens to a queue. `deliver` and `resume` name a message in the queue
and a running handler by their positions. -/
inductive QueueAction (Q : Type)
  | publish (envelope : Envelope Q)
  | deliver (message : Nat) (process : Nat)
  | resume (handler : Nat) (outcome : Outcome)
  | retryDelayOver (message : Nat)
  | keyExpires (messageId : JsString)
  | connect (process : Nat)
  | disconnect (process : Nat)
  | crash (process : Nat)

namespace QueueState

def takeReady (s : QueueState Q P R) (i : Nat) : QueueState Q P R :=
  { s with ready := s.ready.eraseIdx i }

def endHandler (s : QueueState Q P R) (i : Nat) : QueueState Q P R :=
  { s with handlers := s.handlers.eraseIdx i }

/-- The broker settles a delivery that it still waits for. -/
def settle (s : QueueState Q P R) (h : Handler Q P) (how : Settlement) : QueueState Q P R :=
  if h.unacked then
    match how with
    | .ack => s
    | .nack => { s with dlx := s.dlx ++ [h.delivery] }
    | .requeue => { s with ready := s.ready ++ [h.delivery] }
  else s

def progress (s : QueueState Q P R) (i : Nat) (h : Handler Q P) : Progress → QueueState Q P R
  | .await phase => { s with handlers := s.handlers.set i { h with phase := phase } }
  | .settled how => (s.endHandler i).settle h how

/-- A delivery to a process: a handler runs, unless it returns at once. -/
def deliver (c : Consumer Q P R) (call : Invocation Q) (s : QueueState Q P R) (process : Nat)
    (e : Envelope Q) : QueueState Q P R :=
  match c.start (call.args e) with
  | none => s
  | some job =>
      { s with
        handlers := s.handlers ++ [{ process, delivery := e, raw := (call.args e).raw, job }] }

/-- The unsettled deliveries of a process go back to the queue. -/
def requeueOf (s : QueueState Q P R) (process : Nat) : List (Envelope Q) :=
  (s.handlers.filter fun h => h.process = process ∧ h.unacked).map (·.delivery)

def disconnect (s : QueueState Q P R) (process : Nat) : QueueState Q P R :=
  { s with
    ready := s.ready ++ s.requeueOf process
    handlers := s.handlers.map fun h => if h.process = process then { h with unacked := false } else h
    connected := Function.update s.connected process false }

def crash (s : QueueState Q P R) (process : Nat) : QueueState Q P R :=
  { s with
    ready := s.ready ++ s.requeueOf process
    handlers := s.handlers.filter fun h => h.process ≠ process
    connected := Function.update s.connected process false }

def step (c : Consumer Q P R) (call : Invocation Q) (s : QueueState Q P R) :
    QueueAction Q → Option (QueueState Q P R)
  | .publish e =>
      some { s with
        accepted := s.accepted ++ [e.message]
        ready := s.ready ++ [e] }
  | .deliver i process =>
      if s.connected process then
        s.ready[i]?.map fun e => (s.takeReady i).deliver c call process e
      else none
  | .resume i o =>
      s.handlers[i]?.map fun h =>
        let (s, p) := c.resume s h o
        s.progress i h p
  | .retryDelayOver i =>
      s.waiting[i]?.map fun w =>
        { s with
          waiting := s.waiting.eraseIdx i
          ready := s.ready ++ [w.envelope] }
  | .keyExpires messageId => some (s.releaseKey messageId)
  | .connect process => some { s with connected := Function.update s.connected process true }
  | .disconnect process => some (s.disconnect process)
  | .crash process => some (s.crash process)

end QueueState

/-- What the notification consumer writes: rows, increments of unread counters
(by user) and pushed rows. -/
structure NotificationStore where
  rows : List NotificationRow := []
  increments : List JsString := []
  pushed : List NotificationRow := []

/-- The row that `persistOrScheduleRetry` stores. -/
def notificationRow (job : Job NotificationMessagePayload) : NotificationRow where
  messageId := job.messageId
  userId := job.payload.userId
  workspaceId := job.payload.workspaceId
  type := job.payload.type
  title := job.payload.title
  body := notificationBody job.payload
  entityType := job.payload.entityType
  entityId := job.payload.entityId
  boardId := job.payload.boardId
  cardId := job.payload.cardId

/-- The unique key `(message_id, user_id)` is taken by this row. -/
def NotificationRow.conflicts (row other : NotificationRow) : Bool :=
  row.messageId = other.messageId ∧ row.userId = other.userId

/-- `createOnce`: insert a row, unless its key is taken, and say whether it was. -/
def NotificationStore.createOnce (store : NotificationStore) (row : NotificationRow) :
    NotificationStore × Bool :=
  if store.rows.any row.conflicts then (store, false)
  else ({ store with rows := store.rows ++ [row] }, true)

def notificationConsumer : Consumer RawNotification NotificationMessagePayload NotificationStore where
  isValidPayload := isValidNotificationPayload
  routingKey := js "notification.#"
  maxRetries := defaultMaxRetries
  retryBaseMs := defaultBaseMs
  work job store := store.createOnce (notificationRow job)
  bumpUnreadCounter job store :=
    { store with increments := store.increments ++ [job.payload.userId] }
  pushToUser job store := { store with pushed := store.pushed ++ [notificationRow job] }
  done job store := store.rows.any (notificationRow job).conflicts
  done_work job store _ := by
    unfold NotificationStore.createOnce
    split
    · assumption
    · simp [NotificationRow.conflicts]
  done_of_work job job' store h := by
    unfold NotificationStore.createOnce
    split
    · exact h
    · simp only [List.any_append, h, Bool.true_or]
  done_of_bump _ _ _ h := h
  done_of_push _ _ _ h := h

/-- A mail that was sent for a message. -/
structure SentMail where
  messageId : JsString
  mail : Mail

/-- How an `EmailConsumer` is set up: `RABBITMQ_ENABLE`, and whether there is a
publisher to inject. -/
structure EmailConfig where
  isEnabled : Bool := true
  hasPublisher : Bool := true

def emailConsumer (config : EmailConfig) : Consumer RawEmail EmailSendPayload (List SentMail) where
  isEnabled := config.isEnabled
  isValidPayload := isValidEmailPayload
  routingKey := js "email.send"
  maxRetries := defaultMaxRetries
  retryBaseMs := defaultBaseMs
  hasPublisher := config.hasPublisher
  works job := (mailOf job.payload).isSome
  work job sent :=
    match mailOf job.payload with
    | none => (sent, false)
    | some mail => (sent ++ [{ messageId := job.messageId, mail }], false)
  done job sent := ∃ m ∈ sent, m.messageId = job.messageId ∧ mailOf job.payload = some m.mail
  done_work job sent h := by
    obtain ⟨mail, hmail⟩ := Option.isSome_iff_exists.mp h
    simp only [hmail]
    exact ⟨{ messageId := job.messageId, mail }, by simp, rfl, rfl⟩
  done_of_work job job' sent h := by
    obtain ⟨m, hm, h⟩ := h
    split
    · exact ⟨m, hm, h⟩
    · exact ⟨m, List.mem_append_left _ hm, h⟩
  done_of_bump _ _ _ h := h
  done_of_push _ _ _ h := h

/-- A notification that passes validation. -/
def sampleNotification : Envelope RawNotification where
  message := some
    { messageId := .string (js "m1")
      payload := some
        { userId := .string (js "11111111-1111-4111-8111-111111111111")
          workspaceId := .string (js "22222222-2222-4222-8222-222222222222")
          type := .string (js "card_assigned")
          title := .string (js "Assigned") } }
  routingKey := js "notification.card.assigned"

/-- An email that passes validation. -/
def sampleEmail : Envelope RawEmail where
  message := some
    { messageId := .string (js "m1")
      payload := some
        { template := .string (js "email-verified")
          recipient := .string (js "user@example.com")
          subject := .string (js "Verified")
          data := some {} } }
  routingKey := js "email.send"

example : (notificationConsumer.validate sampleNotification.message).isSome := by decide

example : ((emailConsumer {}).validate sampleEmail.message).isSome := by decide

end SyncBoard.Messaging
