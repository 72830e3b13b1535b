import SyncBoard.Document.Rooms
import SyncBoard.Realtime.Turns

/-!
# The Socket.IO server

Both gateways run on one server: a socket connects to both and disconnects from both,
and both read `workspace_members`. Everything else concerns one gateway, and the steps of
the two interleave.

## Implementation notes

`removeMember` and `leaveWorkspace` act on the gateways through the row that they
delete, and nothing else of a change of the members reaches a socket: no listener
of its event takes a socket out of a room. A board never moves to another workspace,
so `workspaceOf` is fixed, and a board is active or not. `handleAwareness` has no await
and changes nothing.
-/

namespace SyncBoard.Realtime

open Labelled Interleaved
open Document (SocketId WorkspaceRole GatewayState GatewayAction DocumentRow)

variable {U : Type} [DecidableEq U]

structure ServerState (U : Type) where
  board : BoardState
  document : GatewayState U

inductive ServerAction (U : Type)
  | connect (client : SocketId) (user : Uuid)
  | disconnect (client : SocketId)
  | setRole (workspaceId userId : Uuid) (role : Option WorkspaceRole)
  | setBoard (boardId : Uuid) (active : Bool)
  | board (action : BoardAction)
  | document (action : GatewayAction U)
  | awareness (client : SocketId) (documentId : Uuid)

/-- What concerns the board gateway only. -/
def BoardAction.IsOwn : BoardAction → Bool
  | .message _ _ | .presenceCleanup | .resume _ _ => true
  | _ => false

/-- What concerns the document gateway only. -/
def IsOwnDocument : GatewayAction U → Bool
  | .connect _ _ | .setRole _ _ _ | .disconnect _ => false
  | _ => true

namespace ServerState
variable (workspaceOf : Uuid → Uuid)

def step (s : ServerState U) : ServerAction U → Option (ServerState U)
  | .connect client user => do
      let board ← s.board.step (.connect client user)
      let document ← s.document.step (.connect client user)
      return { board, document }
  | .disconnect client => do
      let board ← s.board.step (.disconnect client)
      let document ← s.document.step (.disconnect client)
      return { board, document }
  | .setRole workspaceId userId role => do
      let board ← s.board.step (.setRole workspaceId userId role)
      let document ← s.document.step (.setRole workspaceId userId role)
      return { board, document }
  | .setBoard boardId active => do
      let board ← s.board.step
        (.changeBoard boardId (if active then some (workspaceOf boardId) else none))
      return { s with board }
  | .board action => do
      guard action.IsOwn
      let board ← s.board.step action
      return { s with board }
  | .document action => do
      guard (IsOwnDocument action)
      let document ← s.document.step action
      return { s with document }
  | .awareness client _ => do
      guard (s.document.IsConnected client)
      return s

/-- Everything one action can do. -/
inductive Served (s : ServerState U) : ServerAction U → ServerState U → Prop
  | connected {client user} (hnew : s.board.store.sockets client = none) {document}
      (hdocument : s.document.step (.connect client user) = some document) :
      Served s (.connect client user)
        { board := { s.board with store := s.board.store.connect client user }, document }
  | disconnected {client} (hopen : s.board.store.IsConnected client = true) {document}
      (hdocument : s.document.step (.disconnect client) = some document) :
      Served s (.disconnect client)
        { board := BoardState.started { s.board with store := s.board.store.close client }
            (.disconnect client)
          document }
  | roleSet {workspaceId userId role} {document}
      (hdocument : s.document.step (.setRole workspaceId userId role) = some document) :
      Served s (.setRole workspaceId userId role)
        { board := { s.board with store := s.board.store.setRole workspaceId userId role }
          document }
  | boardSet {boardId active} : Served s (.setBoard boardId active)
      { s with
        board := { s.board with
          store := s.board.store.changeBoard boardId
            (if active then some (workspaceOf boardId) else none) } }
  | received {client message} (hopen : s.board.store.IsConnected client = true) :
      Served s (.board (.message client message))
        { s with board := BoardState.started s.board (.message client message) }
  | cleanup : Served s (.board .presenceCleanup)
      { s with board := BoardState.started s.board .presenceCleanup }
  | resumed {i now task op next} (hasks : s.board.Asks i task op next) :
      Served s (.board (.resume i now))
        { s with board := s.board.answered answer i now task op next }
  | edited {action : GatewayAction U} (hown : IsOwnDocument action = true) {document}
      (hdocument : s.document.step action = some document) :
      Served s (.document action) { s with document }
  | aware {client documentId} (hopen : s.document.IsConnected client = true) :
      Served s (.awareness client documentId) s

variable {workspaceOf}

theorem served_of_step {s s' : ServerState U} {a : ServerAction U}
    (h : s.step workspaceOf a = some s') : Served workspaceOf s a s' := by
  cases a with
  | connect client user =>
      obtain ⟨board, hboard, h⟩ := Option.bind_eq_some_iff.mp h
      obtain ⟨document, hdocument, h⟩ := Option.bind_eq_some_iff.mp h
      cases h
      cases BoardState.moved_of_step hboard with
      | connected hnew => exact .connected hnew hdocument
  | disconnect client =>
      obtain ⟨board, hboard, h⟩ := Option.bind_eq_some_iff.mp h
      obtain ⟨document, hdocument, h⟩ := Option.bind_eq_some_iff.mp h
      cases h
      cases BoardState.moved_of_step hboard with
      | disconnected hopen => exact .disconnected hopen hdocument
  | setRole workspaceId userId role =>
      simp only [step, Option.bind_eq_bind, Option.bind_eq_some_iff] at h
      obtain ⟨board, hboard, document, hdocument, h⟩ := h
      cases h
      cases hboard
      exact .roleSet hdocument
  | setBoard boardId active =>
      simp only [step, Option.bind_eq_bind, Option.bind_eq_some_iff] at h
      obtain ⟨board, hboard, h⟩ := h
      cases h
      cases hboard
      exact .boardSet
  | board action =>
      obtain ⟨_, hown, h⟩ := Option.bind_eq_some_iff.mp h
      obtain ⟨board, hboard, h⟩ := Option.bind_eq_some_iff.mp h
      cases h
      cases BoardState.moved_of_step hboard with
      | received hopen => exact .received hopen
      | cleanup => exact .cleanup
      | resumed hasks => exact .resumed hasks
      | connected => cases hown
      | roleSet => cases hown
      | boardChanged => cases hown
      | disconnected => cases hown
  | document action =>
      obtain ⟨_, hown, h⟩ := Option.bind_eq_some_iff.mp h
      obtain ⟨document, hdocument, h⟩ := Option.bind_eq_some_iff.mp h
      cases h
      exact .edited (by simpa using hown) hdocument
  | awareness client documentId =>
      obtain ⟨_, hopen, h⟩ := Option.bind_eq_some_iff.mp h
      cases h
      exact .aware (by simpa using hopen)

end ServerState

end SyncBoard.Realtime
