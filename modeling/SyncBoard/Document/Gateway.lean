import SyncBoard.Document.Durability
import Mathlib.Data.Finset.Image

/-!
# The document gateway

`DocumentGateway` checks the membership of a user when a socket joins a
document, and applies and relays the updates of every socket that sends one.
A handler is split at its awaits; the rest of a handler that waits is a `Call`.

## Implementation notes

A message reaches its handler after `WsAuthGuard`, so every socket has a user.
An entry of `EditorPresenceService` is there or not: its name, avatar and
colour are announced and never read by the gateway. Frames that carry no
update (acks, presence, awareness) are not recorded.
-/

namespace SyncBoard.Document

open Labelled

inductive WorkspaceRole
  | owner
  | admin
  | member
  | viewer
  deriving DecidableEq, Repr

/-- `client.data`, and whether the socket is still connected. -/
structure SocketData where
  user : Uuid
  connected : Bool := true
  currentDocumentId : Option Uuid := none
  deriving DecidableEq, Repr

/-- The promise that `getOrLoad` returned. -/
inductive LoadPromise
  | pending
  | resolved
  | rejected
  deriving DecidableEq, Repr

/-- A handler that waits, by the await it has reached. -/
inductive Call (U : Type)
  | findById (socket : SocketId) (documentId workspaceId : Uuid)
  | isUserMember (socket : SocketId) (documentId workspaceId : Uuid)
  | leavePrevious (socket : SocketId) (documentId : Uuid)
  | joinLoad (socket : SocketId) (documentId : Uuid) (load : LoadPromise)
  | joinRoom (socket : SocketId) (documentId : Uuid)
  | updateLoad (socket : SocketId) (documentId : Uuid) (update : Finset U) (load : LoadPromise)

structure GatewayState (U : Type) where
  hub : HubState U
  members : Uuid → Uuid → Option WorkspaceRole
  sockets : SocketId → Option SocketData := fun _ => none
  rooms : Uuid → Finset SocketId := fun _ => ∅
  editors : Uuid → Finset SocketId := fun _ => ∅
  calls : List (Call U) := []

variable {U : Type} [DecidableEq U]

/-- `DocumentService.findById`: an active document of the workspace. -/
def findById (rows : Uuid → Option (DocumentRow U)) (documentId workspaceId : Uuid) : Bool :=
  match rows documentId with
  | none => false
  | some row => decide (row.status = .active) && decide (row.workspaceId = workspaceId)

/-- `WorkspaceService.isUserMember`: a row in `workspace_members`, of any role. -/
def isUserMember (members : Uuid → Uuid → Option WorkspaceRole) (workspaceId userId : Uuid) :
    Bool :=
  (members workspaceId userId).isSome

/-- The calls that wait for a load of the document go on with its result. -/
def Call.settleLoad (documentId : Uuid) (load : LoadPromise) : Call U → Call U
  | .joinLoad socket d .pending =>
      .joinLoad socket d (if d = documentId then load else .pending)
  | .updateLoad socket d update .pending =>
      .updateLoad socket d update (if d = documentId then load else .pending)
  | call => call

/-- Actions of the hub that no handler runs. -/
def HubAction.Background : HubAction U → Bool
  | .getOrLoad _ | .applyUpdate _ _ | .addConnection _ _ | .removeConnection _ _ => false
  | _ => true

namespace GatewayState

def modifySocket (s : GatewayState U) (socket : SocketId) (f : SocketData → SocketData) :
    GatewayState U :=
  { s with sockets := Function.update s.sockets socket ((s.sockets socket).map f) }

/-- `getOrLoad` up to its await, with the promise it returns. -/
def getOrLoad (s : GatewayState U) (documentId : Uuid) : GatewayState U × LoadPromise :=
  ({ s with hub := s.hub.getOrLoad documentId },
    if (s.hub.docs documentId).isSome then .resolved else .pending)

/-- `client.join`, which does nothing once the socket is disconnected. -/
def joinRoom (s : GatewayState U) (socket : SocketId) (documentId : Uuid) : GatewayState U :=
  match s.sockets socket with
  | some { connected := true, .. } =>
      { s with rooms := Function.update s.rooms documentId (insert socket (s.rooms documentId)) }
  | _ => s

/-- `leaveDocument`; nothing follows the await of `client.leave`. -/
def leaveDocument (s : GatewayState U) (socket : SocketId) (documentId : Uuid) :
    GatewayState U :=
  let s := { s with
    hub := s.hub.removeConnection documentId socket
    editors := Function.update s.editors documentId ((s.editors documentId).erase socket)
    rooms := Function.update s.rooms documentId ((s.rooms documentId).erase socket) }
  s.modifySocket socket fun data =>
    if data.currentDocumentId = some documentId then { data with currentDocumentId := none }
    else data

/-- `handleJoin` from the check of the document on. -/
def checkDocument (s : GatewayState U) (socket : SocketId) (documentId workspaceId : Uuid) :
    GatewayState U :=
  if findById s.hub.rows documentId workspaceId then
    { s with calls := s.calls ++ [.isUserMember socket documentId workspaceId] }
  else s

/-- `handleJoin` from its call of `getOrLoad` on. -/
def loadForJoin (s : GatewayState U) (socket : SocketId) (documentId : Uuid) : GatewayState U :=
  let (s, load) := s.getOrLoad documentId
  { s with calls := s.calls ++ [.joinLoad socket documentId load] }

/-- `handleJoin` from the check of the membership on: one document per socket. -/
def checkMember (s : GatewayState U) (socket : SocketId) (documentId workspaceId : Uuid) :
    GatewayState U :=
  match s.sockets socket with
  | none => s
  | some data =>
      if isUserMember s.members workspaceId data.user then
        match data.currentDocumentId with
        | some current =>
            if current = documentId then s.loadForJoin socket documentId
            else
              let s := s.leaveDocument socket current
              { s with calls := s.calls ++ [.leavePrevious socket documentId] }
        | none => s.loadForJoin socket documentId
      else s

/-- `handleJoin` from the await of `client.join` on. -/
def finishJoin (s : GatewayState U) (socket : SocketId) (documentId : Uuid) : GatewayState U :=
  let s := s.modifySocket socket fun data => { data with currentDocumentId := some documentId }
  { s with
    hub := s.hub.addConnection documentId socket
    editors := Function.update s.editors documentId (insert socket (s.editors documentId)) }

/-- The socket leaves every room, then `handleDisconnect` runs. -/
def handleDisconnect (s : GatewayState U) (socket : SocketId) : GatewayState U :=
  let s := { s with rooms := fun d => (s.rooms d).erase socket }
  let s := s.modifySocket socket fun data => { data with connected := false }
  match (s.sockets socket).bind (·.currentDocumentId) with
  | none => s
  | some current => s.leaveDocument socket current

/-- A waiting handler goes on to its next await. -/
def resume (s : GatewayState U) : Call U → Option (GatewayState U)
  | .findById socket d w => some (s.checkDocument socket d w)
  | .isUserMember socket d w => some (s.checkMember socket d w)
  | .leavePrevious socket d => some (s.loadForJoin socket d)
  | .joinLoad _ _ .pending => none
  | .joinLoad _ _ .rejected => some s
  | .joinLoad socket d .resolved =>
      let s := s.joinRoom socket d
      some { s with calls := s.calls ++ [.joinRoom socket d] }
  | .joinRoom socket d => some (s.finishJoin socket d)
  | .updateLoad _ _ _ .pending => none
  -- a rejected load is swallowed: the update is applied to nothing and relayed
  | .updateLoad _ d update _ => some { s with hub := s.hub.applyUpdate d update }

end GatewayState

/-- What arrives at the gateway, and what runs in the background. -/
inductive GatewayAction (U : Type)
  | hub (action : HubAction U)
  | connect (socket : SocketId) (user : Uuid)
  | setRole (workspaceId userId : Uuid) (role : Option WorkspaceRole)
  | join (socket : SocketId) (documentId workspaceId : Uuid)
  | update (socket : SocketId) (documentId : Uuid) (payload : Option (Finset U))
  | leave (socket : SocketId) (documentId : Uuid)
  | disconnect (socket : SocketId)
  | resume (call : Nat)

namespace GatewayState

/-- `handleUpdate` up to its await; a payload that is not binary is refused. -/
def handleUpdate (s : GatewayState U) (socket : SocketId) (documentId : Uuid)
    (payload : Option (Finset U)) : GatewayState U :=
  match payload with
  | none => s
  | some update =>
      let (s, load) := s.getOrLoad documentId
      { s with calls := s.calls ++ [.updateLoad socket documentId update load] }

/-- A background action of the hub; the end of a load resumes those who wait for it. -/
def background (s : GatewayState U) (a : HubAction U) : Option (GatewayState U) :=
  if a.Background then
    (s.hub.step a).map fun hub =>
      let calls := match a with
        | .loadDone d => s.calls.map (Call.settleLoad d .resolved)
        | .loadFail d => s.calls.map (Call.settleLoad d .rejected)
        | _ => s.calls
      { s with hub, calls }
  else none

/-- The socket can send: it is connected. -/
def IsConnected (s : GatewayState U) (socket : SocketId) : Bool :=
  match s.sockets socket with
  | some data => data.connected
  | none => false

def step (s : GatewayState U) : GatewayAction U → Option (GatewayState U)
  | .hub a => s.background a
  | .connect socket user =>
      match s.sockets socket with
      | some _ => none
      | none => some { s with sockets := Function.update s.sockets socket (some { user }) }
  | .setRole w u role =>
      some { s with members := Function.update s.members w (Function.update (s.members w) u role) }
  | .join socket d w =>
      if s.IsConnected socket then some { s with calls := s.calls ++ [.findById socket d w] }
      else none
  | .update socket d payload =>
      if s.IsConnected socket then some (s.handleUpdate socket d payload) else none
  | .leave socket d => if s.IsConnected socket then some (s.leaveDocument socket d) else none
  | .disconnect socket => if s.IsConnected socket then some (s.handleDisconnect socket) else none
  | .resume call =>
      match s.calls[call]? with
      | none => none
      | some c => { s with calls := s.calls.eraseIdx call }.resume c

end GatewayState

end SyncBoard.Document
