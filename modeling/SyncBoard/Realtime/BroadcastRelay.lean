import SyncBoard.Board.CardService
import SyncBoard.Realtime.Presence

/-!
# The broadcast relay

`BroadcastRelayService` turns the events of the board services into broadcasts to the
rooms of boards and workspaces.

## Implementation notes

Of a payload the fields are kept that a page reads: `cardId`, `id`, `updatedAt` and
`changes.updatedAt`.
-/

namespace SyncBoard.Realtime

open Board (CardEvent ListEvent BoardEvent ChecklistEvent)

/-- The names of the broadcasts that boards send, or that a page listens to. -/
inductive WsEvent
  | boardCreated
  | boardUpdated
  | boardArchived
  | boardUnarchived
  | boardDeleted
  | listCreated
  | listUpdated
  | listMoved
  | listArchived
  | listUnarchived
  | listDeleted
  | cardCreated
  | cardUpdated
  | cardMoved
  | cardArchived
  | cardUnarchived
  | cardDeleted
  | cardCommentAdded
  | cardCommentUpdated
  | cardCommentDeleted
  | cardAttachmentAdded
  | cardAttachmentDeleted
  | cardAssigneeAdded
  | cardAssigneeRemoved
  | cardPriorityChanged
  | cardStatusChanged
  | cardSubcardCreated
  | cardTimeLogged
  | checklistCreated
  | checklistUpdated
  | checklistDeleted
  | cardLinkCreated
  | cardLinkDeleted
  | cardSubcardAttached
  | cardSubcardDetached
  | cardFieldUpdated
  | cardFieldDeleted
  | commentCreated
  deriving DecidableEq, Repr

/-- `changes` is `some` where the payload has it, whether or not it has an `updatedAt`. -/
structure Payload where
  cardId : Option Uuid := none
  id : Option Uuid := none
  updatedAt : Option Timestamp := none
  changes : Option (Option Timestamp) := none
  deriving DecidableEq, Repr

structure Broadcast where
  room : Room
  event : WsEvent
  payload : Payload := {}
  deriving DecidableEq, Repr

namespace BroadcastRelay

def relayBoard : BoardEvent → List Broadcast
  | .created board _ => [{ room := .workspace board.row.workspaceId, event := .boardCreated }]
  | .updated board _ =>
      [{ room := .board board.id
         event := .boardUpdated
         payload := { changes := some (some board.row.updatedAt) } }]
  | .archived boardId _ _ => [{ room := .board boardId, event := .boardArchived }]
  | .unarchived board _ => [{ room := .board board.id, event := .boardUnarchived }]
  | .deleted boardId workspaceId _ =>
      [{ room := .workspace workspaceId, event := .boardDeleted },
        { room := .board boardId, event := .boardDeleted }]

def relayList : ListEvent → List Broadcast
  | .created list _ => [{ room := .board list.row.boardId, event := .listCreated }]
  | .updated list _ =>
      [{ room := .board list.row.boardId
         event := .listUpdated
         payload := { changes := some (some list.row.updatedAt) } }]
  | .moved _ boardId _ _ => [{ room := .board boardId, event := .listMoved }]
  | .archived _ boardId _ => [{ room := .board boardId, event := .listArchived }]
  | .unarchived list _ => [{ room := .board list.row.boardId, event := .listUnarchived }]
  | .deleted _ boardId _ => [{ room := .board boardId, event := .listDeleted }]

/-- A broadcast about a card, to the room of its board. -/
def aboutCard (boardId cardId : Uuid) (event : WsEvent) : Broadcast where
  room := .board boardId
  event := event
  payload := { cardId := some cardId }

def relayCard : CardEvent → List Broadcast
  | .created _ boardId _ _ => [{ room := .board boardId, event := .cardCreated }]
  | .updated card boardId _ =>
      [{ room := .board boardId
         event := .cardUpdated
         payload := { cardId := some card.id, changes := some (some card.row.updatedAt) } }]
  | .moved cardId boardId _ _ _ _ => [aboutCard boardId cardId .cardMoved]
  | .archived cardId boardId _ _ => [aboutCard boardId cardId .cardArchived]
  | .unarchived card boardId _ _ => [aboutCard boardId card.id .cardUnarchived]
  | .deleted cardId boardId _ _ => [aboutCard boardId cardId .cardDeleted]
  | .assigneeAdded cardId boardId _ _ => [aboutCard boardId cardId .cardAssigneeAdded]
  | .assigneeRemoved cardId boardId _ _ => [aboutCard boardId cardId .cardAssigneeRemoved]
  | .priorityChanged cardId boardId _ _ _ => [aboutCard boardId cardId .cardPriorityChanged]
  | .statusChanged cardId boardId _ _ _ _ => [aboutCard boardId cardId .cardStatusChanged]
  | .subcardCreated _ _ boardId _ =>
      [{ room := .board boardId, event := .cardCreated },
        { room := .board boardId, event := .cardSubcardCreated }]

def relayChecklist : ChecklistEvent → List Broadcast
  | .created _ boardId _ => [{ room := .board boardId, event := .checklistCreated }]
  | .updated _ cardId boardId _ => [aboutCard boardId cardId .checklistUpdated]
  | .deleted _ cardId boardId _ => [aboutCard boardId cardId .checklistDeleted]

/-- The broadcasts of the events that a call has emitted. -/
def relayed (w w' : Board.World) : List Broadcast :=
  (w'.boardEvents.drop w.boardEvents.length).flatMap relayBoard ++
    (w'.listEvents.drop w.listEvents.length).flatMap relayList ++
    (w'.events.drop w.events.length).flatMap relayCard ++
    (w'.checklistEvents.drop w.checklistEvents.length).flatMap relayChecklist

end BroadcastRelay

end SyncBoard.Realtime
