import Mathlib.Algebra.Group.Nat.Defs
import Mathlib.Data.List.Basic
import SyncBoard.Basic

/-!
# Messages of the queues

What travels on `notification.exchange` and `email.exchange`, the headers that
come with it, and the arguments with which a subscriber is called.

## Implementation notes

A payload is read twice: as the parsed JSON, whose fields may hold any value,
and as the typed payload that the guard of its consumer lets through.
`version`, `occurredAt` and `correlationId` are carried along and never read,
so messages are modelled without them.
-/

namespace SyncBoard.Messaging

/-- A value, as far as the code tells values apart. -/
inductive JsValue
  | undefined
  | null
  | string (s : JsString)
  | number (n : Nat)
  | other
  deriving DecidableEq, Repr

namespace JsValue

/-- The guard `typeof v === 'string'`. -/
def asString : JsValue → Option JsString
  | .string s => some s
  | _ => none

/-- The guard `typeof v === 'string' && v.length > 0`. -/
def asNonEmpty (v : JsValue) : Option JsString :=
  v.asString.filter fun s => 0 < s.length

/-- `v ?? ''`. -/
def orEmpty : JsValue → JsValue
  | .undefined | .null => .string []
  | v => v

end JsValue

def isHexDigit (c : Nat) : Bool :=
  (48 ≤ c && c ≤ 57) || (65 ≤ c && c ≤ 70) || (97 ≤ c && c ≤ 102)

/-- `UUID_V4_RE`: one test for each code unit. -/
def uuidV4Pattern : List (Nat → Bool) :=
  let hex := fun n => List.replicate n isHexDigit
  let dash := [fun c => c == 45]
  let variant := [fun c => c == 56 || c == 57 || c == 97 || c == 98 || c == 65 || c == 66]
  hex 8 ++ dash ++ hex 4 ++ dash ++ [fun c => c == 52] ++ hex 3 ++ dash ++ variant ++ hex 3 ++
    dash ++ hex 12

/-- `isUuidV4`, which narrows its argument to a string. -/
def isUuidV4 (value : JsValue) : Option JsString :=
  value.asString.filter fun s =>
    s.length == uuidV4Pattern.length && (List.zipWith (fun test c => test c) uuidV4Pattern s).all id

/-- `DomainMessage`; `payload` is `none` where it is missing. -/
structure DomainMessage (Q : Type) where
  messageId : JsValue
  payload : Option Q
  deriving DecidableEq

/-- The AMQP headers of a message. -/
structure Headers where
  xRetryCount : JsValue := .undefined
  deriving DecidableEq

/-- A message in a queue; `message` is `none` where the body parses to `null`. -/
structure Envelope (Q : Type) where
  message : Option (DomainMessage Q)
  routingKey : JsString
  headers : Headers := {}
  deriving DecidableEq

/-- `ConsumeContext`. -/
structure ConsumeContext where
  headers : Option Headers
  routingKey : Option JsString
  deriving DecidableEq

/-- The arguments of `handle`, by position. The first of the unused two holds
what arrives second, the other what arrives third. -/
structure HandleArgs (Q : Type) where
  msg : Option (DomainMessage Q)
  ctx : Option (JsString × Headers) := none
  channel : Option Headers := none
  raw : Option ConsumeContext := none

/-- How a delivered message becomes the arguments of `handle`. -/
structure Invocation (Q : Type) where
  args : Envelope Q → HandleArgs Q
  args_msg : ∀ e, (args e).msg = e.message

/-- The library calls `handler(message, rawAmqpMessage, headers)`. -/
def subscriberCall (Q : Type) : Invocation Q where
  args e :=
    { msg := e.message
      ctx := some (e.routingKey, e.headers)
      channel := some e.headers }
  args_msg _ := rfl

/-- The unit tests call `handle(msg, undefined, undefined, raw)`. -/
def unitTestCall (Q : Type) : Invocation Q where
  args e :=
    { msg := e.message
      raw := some { headers := some e.headers, routingKey := some e.routingKey } }
  args_msg _ := rfl

/-- `RETRY_DEFAULTS.maxRetries`. -/
def defaultMaxRetries : Nat := 3

/-- `RETRY_DEFAULTS.baseMs`. -/
def defaultBaseMs : Nat := 1000

def computeBackoff (retryCount baseMs : Nat) : Nat :=
  baseMs * 2 ^ retryCount

def retryCountFrom (headers : Option Headers) : Nat :=
  match headers with
  | some { xRetryCount := .number n } => n
  | _ => 0

/-- A notification payload as it was parsed. The optional fields are not
validated, and are taken at their declared types. -/
structure RawNotification where
  userId : JsValue
  workspaceId : JsValue
  type : JsValue
  title : JsValue
  body : Option JsString := none
  entityType : Option JsString := none
  entityId : Option JsString := none
  boardId : Option JsString := none
  cardId : Option JsString := none
  actorName : Option JsString := none
  deriving DecidableEq

structure NotificationMessagePayload where
  userId : JsString
  workspaceId : JsString
  type : JsString
  title : JsString
  body : Option JsString
  entityType : Option JsString
  entityId : Option JsString
  boardId : Option JsString
  cardId : Option JsString
  actorName : Option JsString

def isValidNotificationPayload (payload : Option RawNotification) :
    Option NotificationMessagePayload := do
  let p ← payload
  let userId ← isUuidV4 p.userId
  let workspaceId ← isUuidV4 p.workspaceId
  let type ← p.type.asNonEmpty
  let title ← p.title.asNonEmpty
  return { userId, workspaceId, type, title,
           body := p.body
           entityType := p.entityType
           entityId := p.entityId
           boardId := p.boardId
           cardId := p.cardId
           actorName := p.actorName }

/-- A row of `notifications`, as `createOnce` writes it. -/
structure NotificationRow where
  messageId : JsString
  userId : JsString
  workspaceId : JsString
  type : JsString
  title : JsString
  body : Option JsString
  entityType : Option JsString
  entityId : Option JsString
  boardId : Option JsString
  cardId : Option JsString

/-- The body of a notification: the name of the actor, when there is one, comes first. -/
def notificationBody (p : NotificationMessagePayload) : Option JsString :=
  match p.actorName with
  | none | some [] => p.body
  | some actorName => some ((actorName ++ js ": " ++ p.body.getD []).take 2000)

/-- The entries of `data` that some template reads. -/
structure EmailData where
  displayName : JsValue := .undefined
  verifyUrl : JsValue := .undefined
  resetUrl : JsValue := .undefined
  workspaceName : JsValue := .undefined
  inviterName : JsValue := .undefined
  acceptUrl : JsValue := .undefined
  deriving DecidableEq

/-- An email payload as it was parsed: `recipient` is its `to`, and `data` is
`none` where it is no object. -/
structure RawEmail where
  template : JsValue
  recipient : JsValue
  subject : JsValue
  data : Option EmailData
  deriving DecidableEq

structure EmailSendPayload where
  template : JsString
  recipient : JsString
  subject : JsString
  data : EmailData

def isValidEmailPayload (payload : Option RawEmail) : Option EmailSendPayload := do
  let p ← payload
  let template ← p.template.asNonEmpty
  let recipient ← p.recipient.asNonEmpty
  let subject ← p.subject.asNonEmpty
  let data ← p.data
  return { template, recipient, subject, data }

/-- The argument of `sendMail`. -/
structure Mail where
  recipient : JsString
  subject : JsString
  template : JsString
  context : List (JsString × JsValue)

/-- The mail that `send` sends; an unknown template is logged and nothing is sent. -/
def mailOf (p : EmailSendPayload) : Option Mail :=
  let mail := fun context => some (Mail.mk p.recipient p.subject p.template context)
  if p.template = js "welcome-verify" then
    mail [(js "displayName", p.data.displayName.orEmpty), (js "verifyUrl", p.data.verifyUrl),
      (js "expiresHours", .number 24)]
  else if p.template = js "email-verified" then
    mail [(js "displayName", p.data.displayName.orEmpty)]
  else if p.template = js "password-reset" then
    mail [(js "resetUrl", p.data.resetUrl), (js "expiresMinutes", .number 60)]
  else if p.template = js "invitation" then
    mail [(js "workspaceName", p.data.workspaceName.orEmpty),
      (js "inviterName", p.data.inviterName.orEmpty), (js "acceptUrl", p.data.acceptUrl)]
  else
    none

end SyncBoard.Messaging
