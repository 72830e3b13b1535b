import SyncBoard.Document.Gateway
import SyncBoard.Lib.Program
import Mathlib.Data.Finset.Option
import Mathlib.Data.Finset.Union

/-!
# Presence, rooms and sockets

What `PresenceService` and the board gateway read and write: the three presence
keys in Redis, `client.data` of every socket, the rooms of Socket.IO and what
every socket has received. A statement is what an await waits for (a Redis command
or pipeline, a query, a call of the Socket.IO server) or one access between two
awaits, and is atomic.

## Implementation notes

Who is seen where does not depend on names, avatars and colours, so a presence entry
is its user and its socket. No command reads the order within a sorted set or a
set. Redis answers every command, and what it stores as JSON it returns unchanged.
-/

namespace SyncBoard.Realtime

open Interleaved Interleaved.Program
open Document (SocketId WorkspaceRole)

/-- `PRESENCE_CONFIG.STALE_THRESHOLD_MS`. -/
def staleThresholdMs : Int := 90000

structure PresenceEntry where
  userId : Uuid
  socketId : SocketId
  deriving DecidableEq, Repr

/-- `presence:board:{boardId}:active` with the last heartbeat of each socket,
`presence:board:{boardId}:meta` and `presence:active_boards`. -/
structure PresenceStore where
  active : Uuid → List (SocketId × Timestamp) := fun _ => []
  entries : Uuid → SocketId → Option PresenceEntry := fun _ _ => none
  activeBoards : List Uuid := []

namespace PresenceStore

def sadd (s : PresenceStore) (boardId : Uuid) : PresenceStore :=
  if boardId ∈ s.activeBoards then s
  else { s with activeBoards := s.activeBoards ++ [boardId] }

def srem (s : PresenceStore) (boardIds : List Uuid) : PresenceStore :=
  { s with activeBoards := s.activeBoards.filter fun b => b ∉ boardIds }

def zadd (s : PresenceStore) (boardId : Uuid) (score : Timestamp) (socketId : SocketId) :
    PresenceStore :=
  { s with
    active := Function.update s.active boardId
      ((s.active boardId).filter (fun member => member.1 ≠ socketId) ++ [(socketId, score)]) }

def zrem (s : PresenceStore) (boardId : Uuid) (socketIds : List SocketId) : PresenceStore :=
  { s with
    active := Function.update s.active boardId
      ((s.active boardId).filter fun member => member.1 ∉ socketIds) }

def zcard (s : PresenceStore) (boardId : Uuid) : Nat :=
  (s.active boardId).length

/-- The sockets whose score is in the range; `none` is `+inf`. -/
def zrangebyscore (s : PresenceStore) (boardId : Uuid) (min : Int) (max : Option Int) :
    List SocketId :=
  ((s.active boardId).filter fun member =>
    decide (min ≤ member.2) && max.all fun max => decide ((member.2 : Int) ≤ max)).map (·.1)

def hset (s : PresenceStore) (boardId : Uuid) (socketId : SocketId) (entry : PresenceEntry) :
    PresenceStore :=
  { s with
    entries := Function.update s.entries boardId
      (Function.update (s.entries boardId) socketId (some entry)) }

def hmget (s : PresenceStore) (boardId : Uuid) (socketIds : List SocketId) :
    List (Option PresenceEntry) :=
  socketIds.map (s.entries boardId)

def hdel (s : PresenceStore) (boardId : Uuid) (socketIds : List SocketId) : PresenceStore :=
  { s with
    entries := Function.update s.entries boardId fun k =>
      if k ∈ socketIds then none else s.entries boardId k }

/-- The two commands with which both removing pipelines go on: `ZREM` and `HDEL`. -/
def delete (s : PresenceStore) (boardId : Uuid) (socketIds : List SocketId) : PresenceStore :=
  (s.zrem boardId socketIds).hdel boardId socketIds

/-- The pipeline of `addPresence`. -/
def register (s : PresenceStore) (boardId : Uuid) (now : Timestamp) (entry : PresenceEntry) :
    PresenceStore :=
  ((s.sadd boardId).zadd boardId now entry.socketId).hset boardId entry.socketId entry

/-- The pipeline of `removePresence`, with what it returns. -/
def unregister (s : PresenceStore) (boardId : Uuid) (socketId : SocketId) :
    (Option PresenceEntry × Nat) × PresenceStore :=
  let t := s.delete boardId [socketId]
  ((s.entries boardId socketId, t.zcard boardId), t)

/-- The check pipeline of `cleanupStaleEntries`. -/
def check (s : PresenceStore) (boardIds : List Uuid) (max : Int) : List (List SocketId) :=
  boardIds.map fun boardId => s.zrangebyscore boardId 0 (some max)

/-- The prune pipeline of `cleanupStaleEntries`: four commands for each board. -/
def prune : List (Uuid × List SocketId) → PresenceStore →
    List (List (Option PresenceEntry) × Nat) × PresenceStore
  | [], s => ([], s)
  | (boardId, socketIds) :: rest, s =>
      let t := s.delete boardId socketIds
      let r := prune rest t
      ((s.hmget boardId socketIds, t.zcard boardId) :: r.1, r.2)

/-- The members of the active set. -/
def sockets (s : PresenceStore) (boardId : Uuid) : List SocketId :=
  (s.active boardId).map (·.1)

theorem mem_sockets_zadd (s : PresenceStore) (b : Uuid) (score : Timestamp) (j : SocketId)
    (k : SocketId) (b' : Uuid) :
    k ∈ (s.zadd b score j).sockets b' ↔ k ∈ s.sockets b' ∨ (b' = b ∧ k = j) := by
  by_cases hb : b' = b
  · subst hb
    by_cases hk : k = j
    · simp [sockets, zadd, hk]
    · simp [sockets, zadd, hk]
  · simp [sockets, zadd, hb]

theorem mem_sockets_delete (s : PresenceStore) (b : Uuid) (ks : List SocketId) (k : SocketId)
    (b' : Uuid) : k ∈ (s.delete b ks).sockets b' ↔ k ∈ s.sockets b' ∧ ¬ (b' = b ∧ k ∈ ks) := by
  by_cases hb : b' = b
  · subst hb
    simp [sockets, delete, zrem, hdel, and_comm]
  · simp [sockets, delete, zrem, hdel, hb]

theorem entries_delete (s : PresenceStore) (b : Uuid) (ks : List SocketId) (b' : Uuid)
    (k : SocketId) :
    (s.delete b ks).entries b' k = if b' = b ∧ k ∈ ks then none else s.entries b' k := by
  by_cases hb : b' = b
  · subst hb
    simp [delete, zrem, hdel]
  · simp [delete, zrem, hdel, hb]

@[simp] theorem activeBoards_delete (s : PresenceStore) (b : Uuid) (ks : List SocketId) :
    (s.delete b ks).activeBoards = s.activeBoards := rfl

theorem mem_activeBoards_sadd (s : PresenceStore) (b b' : Uuid) :
    b' ∈ (s.sadd b).activeBoards ↔ b' ∈ s.activeBoards ∨ b' = b := by
  unfold sadd
  split
  · rename_i hb
    constructor
    · exact .inl
    · rintro (h | rfl)
      · exact h
      · exact hb
  · simp

theorem mem_sockets_register (s : PresenceStore) (b : Uuid) (now : Timestamp)
    (entry : PresenceEntry) (k : SocketId) (b' : Uuid) :
    k ∈ (s.register b now entry).sockets b' ↔
      k ∈ s.sockets b' ∨ (b' = b ∧ k = entry.socketId) := by
  have hsadd : (s.sadd b).sockets b' = s.sockets b' := by
    unfold sadd
    split <;> rfl
  rw [← hsadd, ← mem_sockets_zadd]
  rfl

theorem entries_register (s : PresenceStore) (b : Uuid) (now : Timestamp)
    (entry : PresenceEntry) (b' : Uuid) (k : SocketId) :
    (s.register b now entry).entries b' k =
      if b' = b ∧ k = entry.socketId then some entry else s.entries b' k := by
  have hsadd : ((s.sadd b).zadd b now entry.socketId).entries = s.entries := by
    unfold sadd
    split <;> rfl
  by_cases hb : b' = b
  · subst hb
    by_cases hk : k = entry.socketId
    · simp [register, hset, hk]
    · simp [register, hset, hk, hsadd]
  · simp [register, hset, hb, hsadd]

theorem mem_activeBoards_register (s : PresenceStore) (b : Uuid) (now : Timestamp)
    (entry : PresenceEntry) (b' : Uuid) :
    b' ∈ (s.register b now entry).activeBoards ↔ b' ∈ s.activeBoards ∨ b' = b :=
  s.mem_activeBoards_sadd b b'

/-- What every deletion of a pipeline keeps, the whole prune pipeline keeps. -/
theorem prune_invariant {I : PresenceStore → Prop} (hI : ∀ s b ks, I s → I (s.delete b ks))
    {boards : List (Uuid × List SocketId)} {s : PresenceStore} (hs : I s) :
    I (s.prune boards).2 := by
  induction boards generalizing s with
  | nil => exact hs
  | cons board rest ih => exact ih (hI s board.1 board.2 hs)

end PresenceStore

/-- The rooms that the board gateway fills. -/
inductive Room
  | workspace (workspaceId : Uuid)
  | board (boardId : Uuid)
  deriving DecidableEq, Repr

/-- `client.data`, and whether the socket is still connected. -/
structure SocketData where
  user : Uuid
  connected : Bool := true
  currentBoardId : Option Uuid := none
  currentWorkspaceId : Option Uuid := none
  deriving DecidableEq, Repr

inductive PresenceChange
  | joined
  | left
  deriving DecidableEq, Repr

/-- What the gateway sends to clients. -/
inductive Frame
  | boardJoined (boardId : Uuid) (viewers : Finset Uuid)
  | boardPresence (userId : Uuid) (change : PresenceChange)
  | boardCursor (userId : Uuid)
  | workspaceJoined (workspaceId : Uuid) (onlineMembers : Finset Uuid)
  | memberOnline (userId : Uuid)
  | memberOffline (userId : Uuid)
  deriving DecidableEq

/-- `client`, `server.to(room)` and `client.to(room)`. -/
inductive Target
  | client (socketId : SocketId)
  | room (room : Room)
  | others (socketId : SocketId) (room : Room)
  deriving DecidableEq, Repr

structure Emission where
  target : Target
  frame : Frame
  deriving DecidableEq

/-- The stores, the sockets with their rooms, and what each socket has received,
oldest first; `boards` has the workspace of every active board. -/
structure World where
  presence : PresenceStore := {}
  sockets : SocketId → Option SocketData := fun _ => none
  rooms : Room → Finset SocketId := fun _ => ∅
  boards : Uuid → Option Uuid
  members : Uuid → Uuid → Option WorkspaceRole
  inbox : SocketId → List Frame := fun _ => []

/-- A world without sockets. -/
def World.startup (boards : Uuid → Option Uuid) (members : Uuid → Uuid → Option WorkspaceRole) :
    World where
  boards := boards
  members := members

namespace World

def IsConnected (w : World) (socketId : SocketId) : Bool :=
  (w.sockets socketId).any (·.connected)

def modifySocket (w : World) (socketId : SocketId) (f : SocketData → SocketData) : World :=
  { w with sockets := Function.update w.sockets socketId ((w.sockets socketId).map f) }

/-- `client.join`, which does nothing once the socket is disconnected. -/
def join (w : World) (socketId : SocketId) (room : Room) : World :=
  if w.IsConnected socketId then
    { w with rooms := Function.update w.rooms room (insert socketId (w.rooms room)) }
  else w

def leave (w : World) (socketId : SocketId) (room : Room) : World :=
  { w with rooms := Function.update w.rooms room ((w.rooms room).erase socketId) }

/-- The socket closes and leaves every room. -/
def close (w : World) (socketId : SocketId) : World :=
  { w.modifySocket socketId fun data => { data with connected := false } with
    rooms := fun room => (w.rooms room).erase socketId }

/-- The sockets in a room with their users. -/
def fetchSockets (w : World) (room : Room) : Finset (SocketId × Uuid) :=
  (w.rooms room).biUnion fun k => ((w.sockets k).map fun data => (k, data.user)).toFinset

def recipients (w : World) : Target → Finset SocketId
  | .client socketId => if w.IsConnected socketId then {socketId} else ∅
  | .room room => w.rooms room
  | .others socketId room => (w.rooms room).erase socketId

def deliver (w : World) (e : Emission) : World :=
  { w with
    inbox := fun k =>
      if k ∈ w.recipients e.target then w.inbox k ++ [e.frame] else w.inbox k }

theorem isConnected_modifySocket {f : SocketData → SocketData}
    (hf : ∀ data, (f data).connected = data.connected) (w : World) (client j : SocketId) :
    (w.modifySocket client f).IsConnected j = w.IsConnected j := by
  by_cases hj : j = client
  · subst hj
    cases hdata : w.sockets j <;> simp [IsConnected, modifySocket, hdata, hf]
  · simp [IsConnected, modifySocket, hj]

section
variable (w : World) (k : SocketId) (room : Room) (es : List Emission)

@[simp] theorem rooms_deliver (e : Emission) : (w.deliver e).rooms = w.rooms := rfl

@[simp] theorem sockets_deliver (e : Emission) : (w.deliver e).sockets = w.sockets := rfl

/-- Emissions change the inboxes only. -/
theorem foldl_deliver_field {β : Type} (field : World → β)
    (h : ∀ w e, field (World.deliver w e) = field w) :
    field (es.foldl World.deliver w) = field w := by
  induction es generalizing w with
  | nil => rfl
  | cons e es ih => exact (ih (w.deliver e)).trans (h w e)

@[simp] theorem presence_emit : (es.foldl World.deliver w).presence = w.presence :=
  w.foldl_deliver_field es (·.presence) fun _ _ => rfl

@[simp] theorem sockets_emit : (es.foldl World.deliver w).sockets = w.sockets :=
  w.foldl_deliver_field es (·.sockets) fun _ _ => rfl

@[simp] theorem rooms_emit : (es.foldl World.deliver w).rooms = w.rooms :=
  w.foldl_deliver_field es (·.rooms) fun _ _ => rfl

@[simp] theorem boards_emit : (es.foldl World.deliver w).boards = w.boards :=
  w.foldl_deliver_field es (·.boards) fun _ _ => rfl

@[simp] theorem members_emit : (es.foldl World.deliver w).members = w.members :=
  w.foldl_deliver_field es (·.members) fun _ _ => rfl

/-- Joining a room changes the rooms only. -/
theorem join_field {β : Type} (field : World → β)
    (h : ∀ rooms, field { w with rooms := rooms } = field w) :
    field (w.join k room) = field w := by
  unfold join
  split
  · exact h _
  · rfl

@[simp] theorem presence_join : (w.join k room).presence = w.presence :=
  w.join_field k room (·.presence) fun _ => rfl

@[simp] theorem sockets_join : (w.join k room).sockets = w.sockets :=
  w.join_field k room (·.sockets) fun _ => rfl

@[simp] theorem boards_join : (w.join k room).boards = w.boards :=
  w.join_field k room (·.boards) fun _ => rfl

@[simp] theorem members_join : (w.join k room).members = w.members :=
  w.join_field k room (·.members) fun _ => rfl

@[simp] theorem inbox_join : (w.join k room).inbox = w.inbox :=
  w.join_field k room (·.inbox) fun _ => rfl

theorem mem_rooms_join (j : SocketId) (r : Room) : j ∈ (w.join k room).rooms r ↔
    j ∈ w.rooms r ∨ (r = room ∧ j = k ∧ w.IsConnected k = true) := by
  unfold join
  split
  · rename_i hopen
    by_cases hr : r = room
    · simp [hr, hopen, or_comm]
    · simp [hr]
  · rename_i hclosed
    simp [hclosed]

theorem mem_rooms_leave (j : SocketId) (r : Room) : j ∈ (w.leave k room).rooms r ↔
    j ∈ w.rooms r ∧ ¬ (r = room ∧ j = k) := by
  by_cases hr : r = room
  · simp [leave, hr, and_comm]
  · simp [leave, hr]

end

end World

inductive Statement
  | dateNow
  | register (boardId : Uuid) (now : Timestamp) (entry : PresenceEntry)
  | unregister (boardId : Uuid) (socketId : SocketId)
  | srem (boardIds : List Uuid)
  | zadd (boardId : Uuid) (now : Timestamp) (socketId : SocketId)
  | zrangebyscore (boardId : Uuid) (min : Int)
  | hmget (boardId : Uuid) (socketIds : List SocketId)
  | smembers
  | check (boardIds : List Uuid) (max : Int)
  | prune (boards : List (Uuid × List SocketId))
  | findBoard (boardId : Uuid)
  | findMember (workspaceId userId : Uuid)
  | data (socketId : SocketId)
  | setCurrentBoard (socketId : SocketId) (boardId : Uuid)
  | resetCurrentBoard (socketId : SocketId) (boardId : Uuid)
  | setCurrentWorkspace (socketId : SocketId) (workspaceId : Uuid)
  | resetCurrentWorkspace (socketId : SocketId) (workspaceId : Uuid)
  | join (socketId : SocketId) (room : Room)
  | leave (socketId : SocketId) (room : Room)
  | fetchSockets (room : Room)
  | emit (emissions : List Emission)
  deriving DecidableEq

/-- What a statement returns. -/
abbrev Answer : Statement → Type
  | .dateNow => Timestamp
  | .unregister _ _ => Option PresenceEntry × Nat
  | .zrangebyscore _ _ => List SocketId
  | .hmget _ _ => List (Option PresenceEntry)
  | .smembers => List Uuid
  | .check _ _ => List (List SocketId)
  | .prune _ => List (List (Option PresenceEntry) × Nat)
  | .findBoard _ => Option Uuid
  | .findMember _ _ => Bool
  | .data _ => Option SocketData
  | .fetchSockets _ => Finset (SocketId × Uuid)
  | _ => Unit

/-- The answer to a statement at a time, and what it leaves. -/
def answer (now : Timestamp) : (op : Statement) → World → Answer op × World
  | .dateNow, w => (now, w)
  | .register boardId score entry, w =>
      ((), { w with presence := w.presence.register boardId score entry })
  | .unregister boardId socketId, w =>
      let r := w.presence.unregister boardId socketId
      (r.1, { w with presence := r.2 })
  | .srem boardIds, w => ((), { w with presence := w.presence.srem boardIds })
  | .zadd boardId score socketId, w =>
      ((), { w with presence := w.presence.zadd boardId score socketId })
  | .zrangebyscore boardId min, w => (w.presence.zrangebyscore boardId min none, w)
  | .hmget boardId socketIds, w => (w.presence.hmget boardId socketIds, w)
  | .smembers, w => (w.presence.activeBoards, w)
  | .check boardIds max, w => (w.presence.check boardIds max, w)
  | .prune boards, w =>
      let r := w.presence.prune boards
      (r.1, { w with presence := r.2 })
  | .findBoard boardId, w => (w.boards boardId, w)
  | .findMember workspaceId userId, w => ((w.members workspaceId userId).isSome, w)
  | .data socketId, w => (w.sockets socketId, w)
  | .setCurrentBoard socketId boardId, w =>
      ((), w.modifySocket socketId fun data => { data with currentBoardId := some boardId })
  | .resetCurrentBoard socketId boardId, w =>
      ((), w.modifySocket socketId fun data =>
        if data.currentBoardId = some boardId then { data with currentBoardId := none } else data)
  | .setCurrentWorkspace socketId workspaceId, w =>
      ((), w.modifySocket socketId fun data =>
        { data with currentWorkspaceId := some workspaceId })
  | .resetCurrentWorkspace socketId workspaceId, w =>
      ((), w.modifySocket socketId fun data =>
        if data.currentWorkspaceId = some workspaceId then { data with currentWorkspaceId := none }
        else data)
  | .join socketId room, w => ((), w.join socketId room)
  | .leave socketId room, w => ((), w.leave socketId room)
  | .fetchSockets room, w => (w.fetchSockets room, w)
  | .emit emissions, w => ((), emissions.foldl World.deliver w)

inductive WsError
  | tokenInvalid
  | boardNotFound
  | boardAccessDenied
  deriving DecidableEq, Repr

abbrev Procedure := Program Statement Answer WsError

namespace PresenceService

def addPresence (boardId : Uuid) (entry : PresenceEntry) : Procedure Unit := do
  let now ← ask Statement.dateNow
  ask (Statement.register boardId now entry)

def removePresence (boardId : Uuid) (socketId : SocketId) : Procedure (Option PresenceEntry) := do
  let removed ← ask (Statement.unregister boardId socketId)
  doIf (removed.2 == 0) (ask (Statement.srem [boardId]))
  return removed.1

def updateHeartbeat (boardId : Uuid) (socketId : SocketId) : Procedure Unit := do
  let now ← ask Statement.dateNow
  ask (Statement.zadd boardId now socketId)

/-- The users of the sockets that are not stale, each once. -/
def getBoardViewers (boardId : Uuid) : Procedure (Finset Uuid) := do
  let now ← ask Statement.dateNow
  let activeSocketIds ← ask (Statement.zrangebyscore boardId ((now : Int) - staleThresholdMs))
  if activeSocketIds.isEmpty then return ∅
  else
    let rawEntries ← ask (Statement.hmget boardId activeSocketIds)
    return (rawEntries.filterMap id).map (·.userId) |>.toFinset

/-- The boards of the check pipeline that have stale sockets. -/
def boardsWithStale (activeBoardIds : List Uuid) (checkResults : List (List SocketId)) :
    List (Uuid × List SocketId) :=
  (activeBoardIds.zip checkResults).filter fun board => !board.2.isEmpty

/-- The boards that the prune pipeline has emptied. -/
def emptyBoardIds (boards : List (Uuid × List SocketId))
    (pruneResults : List (List (Option PresenceEntry) × Nat)) : List Uuid :=
  ((boards.zip pruneResults).filter fun pruned => pruned.2.2 = 0).map fun pruned => pruned.1.1

/-- The entries that the prune pipeline has removed, with their boards. -/
def expiredEntries (boards : List (Uuid × List SocketId))
    (pruneResults : List (List (Option PresenceEntry) × Nat)) : List (Uuid × PresenceEntry) :=
  (boards.zip pruneResults).flatMap fun pruned =>
    (pruned.2.1.filterMap id).map fun entry => (pruned.1.1, entry)

def cleanupStaleEntries : Procedure (List (Uuid × PresenceEntry)) := do
  let activeBoardIds ← ask Statement.smembers
  if activeBoardIds.isEmpty then return []
  else
    let now ← ask Statement.dateNow
    let checkResults ← ask (Statement.check activeBoardIds ((now : Int) - staleThresholdMs))
    let boards := boardsWithStale activeBoardIds checkResults
    if boards.isEmpty then return []
    else
      let pruneResults ← ask (Statement.prune boards)
      doIf (!(emptyBoardIds boards pruneResults).isEmpty)
        (ask (Statement.srem (emptyBoardIds boards pruneResults)))
      return expiredEntries boards pruneResults

end PresenceService

end SyncBoard.Realtime
