import SyncBoard.Basic
import SyncBoard.Lib.Program
import SyncBoard.Lib.Table

/-!
# Notifications and the cached unread counter

`NotificationService`, the consumer that stores notifications, and the monthly purge,
over the table `notifications` and the Redis keys they share with it. A run is sequential:
each of them goes from its first call to its last without another one in between.

## Implementation notes

A counter's key has the string of an identifier in it. A message spells its user as the
producer was given it; the other calls are made for the user of a token, whose identifier
comes from a row. A Redis key may expire or be evicted before any call, so a time to live
says nothing about when a key goes, and `EXPIRE` is a call without an effect. What the
consumer does after a refused insert besides releasing the idempotency key, and the push to
the client, touch neither the table nor Redis. Counters are integers: nothing else is ever
written to them.
-/

namespace SyncBoard.Notification

open Relational Interleaved Interleaved.Program

/-- A row of `notifications`, as far as it is read here. -/
structure NotificationRow where
  messageId : Uuid
  userId : Uuid
  isRead : Bool := false
  createdAt : Timestamp
  deriving DecidableEq, Repr

/-- The table, the counters under `notifications:unread:{userId}`, and the messages with a
key `msg:processed:{messageId}`. -/
structure Store where
  notifications : Table Uuid NotificationRow := .empty
  unread : UuidText → Option Int := fun _ => none
  processed : Uuid → Bool := fun _ => false

/-- What happens outside before a call: keys go, and the database refuses an insert (the
user or the workspace is gone). -/
structure Outside where
  unread : UuidText → Bool := fun _ => false
  processed : Uuid → Bool := fun _ => false
  refused : Bool := false

inductive Statement
  | setProcessed (messageId : Uuid)
  | delProcessed (messageId : Uuid)
  | createOnce (id : Uuid) (row : NotificationRow)
  | findFirst (id userId : Uuid)
  | update (id : Uuid)
  | updateMany (userId : Uuid)
  | deleteReadOlderThan (cutoff : Int)
  | countUnread (userId : Uuid)
  | get (key : UuidText)
  | set (key : UuidText) (value : Int)
  | incr (key : UuidText)
  | decr (key : UuidText)
  | expire (key : UuidText)
  | del (key : UuidText)

/-- What a call returns. -/
abbrev Answer : Statement → Type
  | .setProcessed _ => Bool
  | .createOnce _ _ => Except DbError (Option NotificationRow)
  | .findFirst _ _ => Option NotificationRow
  | .countUnread _ => Nat
  | .get _ => Option Int
  | _ => Unit

namespace Store

/-- The keys that go are gone. -/
def without (s : Store) (x : Outside) : Store :=
  { s with
    unread := fun key => if x.unread key then none else s.unread key
    processed := fun messageId => !x.processed messageId && s.processed messageId }

/-- The unique key `(message_id, user_id)` is taken. -/
def isTaken (s : Store) (row : NotificationRow) : Bool :=
  (s.notifications.find? fun _ other =>
    other.messageId = row.messageId && other.userId = row.userId).isSome

def isUnreadOf (userId : Uuid) (_id : Uuid) (row : NotificationRow) : Bool :=
  row.userId = userId && !row.isRead

/-- `notification.count({ where: { userId, isRead: false } })`. -/
def countUnread (s : Store) (userId : Uuid) : Nat :=
  s.notifications.count (isUnreadOf userId)

def setUnread (s : Store) (key : UuidText) (value : Option Int) : Store :=
  { s with unread := Function.update s.unread key value }

/-- `createManyAndReturn` with `skipDuplicates`. -/
def createOnce (s : Store) (id : Uuid) (row : NotificationRow) : Option NotificationRow × Store :=
  if s.isTaken row then (none, s)
  else
    match s.notifications.insert? id row with
    | some notifications => (some row, { s with notifications })
    | none => (none, s)

end Store

/-- The answer to a call, and what it leaves. -/
def respond (refused : Bool) : (op : Statement) → Store → Answer op × Store
  | .setProcessed messageId, s =>
      (!s.processed messageId, { s with processed := Function.update s.processed messageId true })
  | .delProcessed messageId, s =>
      ((), { s with processed := Function.update s.processed messageId false })
  | .createOnce id row, s =>
      if refused then (.error .foreignKeyViolation, s)
      else (.ok (s.createOnce id row).1, (s.createOnce id row).2)
  | .findFirst id userId, s => ((s.notifications.get? id).filter (·.userId = userId), s)
  | .update id, s =>
      ((), { s with
        notifications := s.notifications.modify id fun row => { row with isRead := true } })
  | .updateMany userId, s =>
      ((), { s with
        notifications := s.notifications.mapRows fun id row =>
          if Store.isUnreadOf userId id row then { row with isRead := true } else row })
  | .deleteReadOlderThan cutoff, s =>
      ((), { s with
        notifications := s.notifications.deleteWhere fun _ row =>
          row.isRead && decide ((row.createdAt : Int) < cutoff) })
  | .countUnread userId, s => (s.countUnread userId, s)
  | .get key, s => (s.unread key, s)
  | .set key value, s => ((), s.setUnread key (some value))
  | .incr key, s => ((), s.setUnread key (some ((s.unread key).getD 0 + 1)))
  | .decr key, s => ((), s.setUnread key (some ((s.unread key).getD 0 - 1)))
  | .expire _, s => ((), s)
  | .del key, s => ((), s.setUnread key none)

/-- Keys may go before every call. -/
def answer (x : Outside) (op : Statement) (s : Store) : Answer op × Store :=
  respond x.refused op (s.without x)

inductive NotificationError
  | entityNotFound (id : Uuid)
  deriving DecidableEq, Repr

abbrev Procedure := Program Statement Answer NotificationError

/-- `persistOrScheduleRetry`. -/
def persistOrScheduleRetry (id : Uuid) (row : NotificationRow) :
    Procedure (Option NotificationRow) := do
  let created ← ask (Statement.createOnce id row)
  match created with
  | .ok stored => return stored
  | .error _ =>
      ask (Statement.delProcessed row.messageId)
      return none

def bumpUnreadCounter (userId : UuidText) : Procedure Unit := do
  ask (Statement.incr userId)
  ask (Statement.expire userId)

/-- `handle`; the database gives the row its id and its time. -/
def handle (id messageId : Uuid) (userId : UuidText) (createdAt : Timestamp) :
    Procedure Unit := do
  let isFirstDelivery ← ask (Statement.setProcessed messageId)
  if isFirstDelivery then
    let stored ← persistOrScheduleRetry id { messageId, userId := userId.id, createdAt }
    doIf stored.isSome (bumpUnreadCounter userId)
  else return ()

/-- The count of the database, as `getUnreadCount` falls back to it. -/
def countFromTable (userId : Uuid) : Procedure Int := do
  let count ← ask (Statement.countUnread userId)
  return count

def getUnreadCount (userId : Uuid) : Procedure Int := do
  let cached ← ask (Statement.get (.canonical userId))
  match cached with
  | some parsed => if 0 ≤ parsed then return parsed else countFromTable userId
  | none => countFromTable userId

/-- `NotificationRepository.markRead`: whether the notification was unread. -/
def markReadRow (userId id : Uuid) : Procedure (Option Bool) := do
  let current ← ask (Statement.findFirst id userId)
  match current with
  | none => return none
  | some row =>
      doIf (!row.isRead) (ask (Statement.update id))
      return some (!row.isRead)

def markRead (userId id : Uuid) : Procedure Unit := do
  let result ← markReadRow userId id
  let wasUnread ← demand result (.entityNotFound id)
  doIf wasUnread do
    let cached ← ask (Statement.get (.canonical userId))
    -- `Number(null) || 0` is 0
    let current := cached.getD 0
    if 0 < current then ask (Statement.decr (.canonical userId))
    else ask (Statement.set (.canonical userId) 0)

def markAllRead (userId : Uuid) : Procedure Unit := do
  ask (Statement.updateMany userId)
  ask (Statement.del (.canonical userId))

/-- 90 days. -/
def readRetentionMs : Nat := 90 * 24 * 60 * 60 * 1000

/-- `NotificationCleanupTask.purgeOldRead`. -/
def purgeOldRead (now : Timestamp) : Procedure Unit :=
  ask (Statement.deleteReadOlderThan ((now : Int) - readRetentionMs))

/-- A call of one of them, with what happens outside before each of its calls, or keys
that go while nothing runs. -/
inductive Turn
  | handle (id messageId : Uuid) (userId : UuidText) (createdAt : Timestamp)
      (supply : Nat → Outside)
  | markRead (userId id : Uuid) (supply : Nat → Outside)
  | markAllRead (userId : Uuid) (supply : Nat → Outside)
  | getUnreadCount (userId : Uuid) (supply : Nat → Outside)
  | purgeOldRead (now : Timestamp) (supply : Nat → Outside)
  | vanish (x : Outside)

def Store.turn (s : Store) : Turn → Option Store
  | .handle id messageId userId createdAt supply =>
      some ((Notification.handle id messageId userId createdAt).leaves answer supply s)
  | .markRead userId id supply => some ((Notification.markRead userId id).leaves answer supply s)
  | .markAllRead userId supply => some ((Notification.markAllRead userId).leaves answer supply s)
  | .getUnreadCount userId supply =>
      some ((Notification.getUnreadCount userId).leaves answer supply s)
  | .purgeOldRead now supply => some ((Notification.purgeOldRead now).leaves answer supply s)
  | .vanish x => some (s.without x)

end SyncBoard.Notification
