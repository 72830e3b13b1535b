import SyncBoard.Board.BoardContent
import SyncBoard.Board.ChecklistService
import SyncBoard.Board.Operations
import SyncBoard.Realtime.BroadcastRelay

/-!
# BoardPage

The page of a board loads the board when it is opened, and again after each broadcast
that is not older than what it knows of the same card. Mutations, broadcasts, the requests
of the page and their responses take their steps in any order.

## Implementation notes

The page has joined the rooms of its board and of its workspace. A request is answered at
one moment between its sending and the arrival of its response. The mutations that are not
modelled (comments, attachments, links, time entries, board labels) write any database and
send any broadcasts. The user of the page stays in the view in which it opens.
-/

namespace SyncBoard.Client

open Board (BoardContent ChecklistCall Database Ranking Request getBoardWithContent)
open Realtime (Broadcast BroadcastRelay.relayed Payload WsEvent)

inductive BoardViewMode
  | board
  | table
  | calendar
  | timeline
  deriving DecidableEq, Repr

structure BoardPage where
  board : Option BoardContent := none
  activeView : BoardViewMode := .board
  hasViewUpdates : Bool := false
  lastUpdatedAt : Uuid → Option Timestamp := fun _ => none

/-- The broadcasts that the page listens to. -/
def entityEvents : List WsEvent :=
  [.boardUpdated, .boardArchived, .boardUnarchived, .boardDeleted,
    .listCreated, .listUpdated, .listMoved, .listArchived, .listUnarchived, .listDeleted,
    .cardCreated, .cardUpdated, .cardMoved, .cardArchived, .cardUnarchived, .cardDeleted,
    .cardCommentAdded, .cardCommentUpdated, .cardCommentDeleted,
    .cardAttachmentAdded, .cardAttachmentDeleted, .cardAssigneeAdded, .cardAssigneeRemoved,
    .checklistCreated, .checklistUpdated, .checklistDeleted,
    .cardPriorityChanged, .cardStatusChanged, .cardLinkCreated, .cardLinkDeleted,
    .cardSubcardCreated, .cardSubcardAttached, .cardSubcardDetached, .cardTimeLogged,
    .cardFieldUpdated, .cardFieldDeleted, .commentCreated]

namespace BoardPage

def cId (payload : Payload) : Option Uuid :=
  payload.cardId <|> payload.id

def updatedAt (payload : Payload) : Option Timestamp :=
  payload.updatedAt <|> payload.changes.join

/-- The check with which the handler returns: the card had an update as late as this. -/
def isOutdated (page : BoardPage) (payload : Payload) : Bool :=
  match cId payload, updatedAt payload with
  | some cId, some updatedAt => (page.lastUpdatedAt cId).any fun last => updatedAt ≤ last
  | _, _ => false

/-- What the handler keeps of a payload. -/
def record (page : BoardPage) (payload : Payload) : BoardPage :=
  match cId payload, updatedAt payload with
  | some cId, some updatedAt =>
      { page with lastUpdatedAt := Function.update page.lastUpdatedAt cId (some updatedAt) }
  | _, _ => page

/-- The handler of the entity events, and whether it calls `loadBoard`. -/
def onEntityEvent (page : BoardPage) (payload : Payload) : BoardPage × Bool :=
  if page.isOutdated payload then
    (page, false)
  else if page.activeView = .board then
    (page.record payload, true)
  else
    ({ page.record payload with hasViewUpdates := true }, false)

/-- The end of `loadBoard`: a response without data leaves the board as it is. -/
def setBoard (page : BoardPage) (data : Option BoardContent) : BoardPage :=
  { page with board := data <|> page.board }

@[simp] theorem activeView_record (page : BoardPage) (payload : Payload) :
    (page.record payload).activeView = page.activeView := by
  rw [record]
  split <;> rfl

/-- In the view of the board, the handler loads unless the payload is outdated. -/
theorem onEntityEvent_of_board {page : BoardPage} (hview : page.activeView = .board)
    (payload : Payload) :
    page.onEntityEvent payload =
      if page.isOutdated payload then (page, false) else (page.record payload, true) := by
  rw [onEntityEvent, if_pos hview]

end BoardPage

/-- A mutation, with what it takes from outside. -/
inductive Mutation
  | operation (request : Request)
  | checklist (call : ChecklistCall) (newId : Uuid) (now : Timestamp)
  | other (db : Database) (broadcasts : List Broadcast)

/-- The state a mutation leaves, and the broadcasts of its events. -/
def Mutation.perform (ranking : Ranking) (w : Board.World) :
    Mutation → Board.World × List Broadcast
  | .operation request =>
      let w' := (Fallible.exec (request.operation.run (request.env ranking)) w).2
      (w', BroadcastRelay.relayed w w')
  | .checklist call newId now =>
      let env : Board.Env := { ranking with newId := newId, now := now }
      let w' := (Fallible.exec (call.run env) w).2
      (w', BroadcastRelay.relayed w w')
  | .other db broadcasts => ({ w with db := db }, broadcasts)

/-- A request of `loadBoard`, before and after the server has read the board. -/
inductive LoadRequest
  | sent
  | answered (data : Option BoardContent)
  deriving DecidableEq, Repr

/-- The server, the page, and what is in flight; the page has just been opened. -/
structure Session where
  world : Board.World
  page : BoardPage := {}
  events : List Payload := []
  requests : List LoadRequest := [.sent]

/-- One step; `arrive`, `answer` and `respond` name an event or a request in flight. -/
inductive SessionAction
  | mutate (mutation : Mutation)
  | arrive (i : Nat)
  | answer (j : Nat)
  | respond (j : Nat)

section Steps
variable (ranking : Ranking) (wid bid : Uuid)

/-- What the server holds for the page. -/
def serverContent (w : Board.World) : Option BoardContent :=
  getBoardWithContent ranking.rankLe w.db bid wid

/-- The payloads of the broadcasts that the page hears. -/
def heard (broadcasts : List Broadcast) : List Payload :=
  (broadcasts.filter fun b =>
    (b.room == .board bid || b.room == .workspace wid) && entityEvents.contains b.event).map
      fun b => b.payload

/-- What a mutation sends to the page. -/
def Mutation.sends (w : Board.World) (mutation : Mutation) : List Payload :=
  heard wid bid (mutation.perform ranking w).2

def step (s : Session) : SessionAction → Option Session
  | .mutate mutation =>
      some { s with
        world := (mutation.perform ranking s.world).1
        events := s.events ++ mutation.sends ranking wid bid s.world }
  | .arrive i =>
      s.events[i]?.map fun payload =>
        let handled := s.page.onEntityEvent payload
        { s with
          page := handled.1
          events := s.events.eraseIdx i
          requests := if handled.2 then s.requests ++ [.sent] else s.requests }
  | .answer j =>
      match s.requests[j]? with
      | some .sent =>
          some { s with
            requests := s.requests.set j (.answered (serverContent ranking wid bid s.world)) }
      | _ => none
  | .respond j =>
      match s.requests[j]? with
      | some (.answered data) =>
          some { s with page := s.page.setBoard data, requests := s.requests.eraseIdx j }
      | _ => none

end Steps

end SyncBoard.Client
