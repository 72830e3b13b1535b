import SyncBoard.Realtime.Gateway

/-!
# Handlers one at a time

A sequential run of the gateway: a turn is a handler that runs from its first
statement to its last without another one in between. The clock may move while
it runs. A client replays what it has received.
-/

namespace SyncBoard.Realtime

open Interleaved Interleaved.Program
open Document (SocketId WorkspaceRole)

/-- A handler that runs alone, with the times at which its statements are answered, or
something that changes around the gateway. -/
inductive Turn
  | connect (client : SocketId) (user : Uuid)
  | setRole (workspaceId userId : Uuid) (role : Option WorkspaceRole)
  | changeBoard (boardId : Uuid) (workspaceId : Option Uuid)
  | message (client : SocketId) (message : Message) (times : Nat → Timestamp)
  | disconnect (client : SocketId) (times : Nat → Timestamp)
  | presenceCleanup (times : Nat → Timestamp)

namespace World

def turn (w : World) : Turn → Option World
  | .connect client user =>
      if (w.sockets client).isSome then none else some (w.connect client user)
  | .setRole workspaceId userId role => some (w.setRole workspaceId userId role)
  | .changeBoard boardId workspaceId => some (w.changeBoard boardId workspaceId)
  | .message client message times =>
      if w.IsConnected client then some ((message.program client).leaves answer times w) else none
  | .disconnect client times =>
      if w.IsConnected client then
        some ((BoardGateway.handleDisconnect client).leaves answer times (w.close client))
      else none
  | .presenceCleanup times => some (BoardGateway.runPresenceCleanup.leaves answer times w)

/-- Everything one turn can do. -/
inductive Turned (w : World) : Turn → World → Prop
  | connected {client user} (hnew : w.sockets client = none) :
      Turned w (.connect client user) (w.connect client user)
  | roleSet {workspaceId userId role} :
      Turned w (.setRole workspaceId userId role) (w.setRole workspaceId userId role)
  | boardChanged {boardId workspaceId} :
      Turned w (.changeBoard boardId workspaceId) (w.changeBoard boardId workspaceId)
  | received {client message times} (hopen : w.IsConnected client = true) :
      Turned w (.message client message times) ((message.program client).leaves answer times w)
  | disconnected {client times} (hopen : w.IsConnected client = true) :
      Turned w (.disconnect client times)
        ((BoardGateway.handleDisconnect client).leaves answer times (w.close client))
  | cleanup {times} : Turned w (.presenceCleanup times)
      (BoardGateway.runPresenceCleanup.leaves answer times w)

theorem turned_of_turn {w w' : World} {a : Turn} (h : w.turn a = some w') : Turned w a w' := by
  cases a with
  | connect client user =>
      simp only [turn] at h
      split at h
      · cases h
      · rename_i hnew
        cases h
        exact .connected (Option.not_isSome_iff_eq_none.mp hnew)
  | setRole => cases h; exact .roleSet
  | changeBoard => cases h; exact .boardChanged
  | message client received times =>
      simp only [turn] at h
      split at h
      · cases h; exact .received ‹_›
      · cases h
  | disconnect client times =>
      simp only [turn] at h
      split at h
      · cases h; exact .disconnected ‹_›
      · cases h
  | presenceCleanup times => cases h; exact .cleanup

section Replay
variable {R : Type} (update : R → Frame → R) (start : R)

/-- What a client makes of the frames it has received. -/
def replayed (w : World) (client : SocketId) : R :=
  (w.inbox client).foldl update start

theorem replayed_deliver (w : World) (e : Emission) (k : SocketId) :
    (w.deliver e).replayed update start k =
      if k ∈ w.recipients e.target then update (w.replayed update start k) e.frame
      else w.replayed update start k := by
  unfold replayed deliver
  dsimp only
  split
  · rw [List.foldl_append]
    rfl
  · rfl

/-- Frames that a client ignores change nothing. -/
theorem replayed_emit {es : List Emission} (hes : ∀ e ∈ es, ∀ r, update r e.frame = r) (w : World)
    (k : SocketId) :
    (es.foldl deliver w).replayed update start k = w.replayed update start k := by
  induction es generalizing w with
  | nil => rfl
  | cons e es ih =>
      rw [List.foldl_cons, ih (fun e' he' => hes e' (List.mem_cons_of_mem e he')),
        replayed_deliver, hes e List.mem_cons_self, ite_self]

/-- A client is answered, and the others in a room are told. -/
theorem replayed_answered (w : World) {client : SocketId} (hopen : w.IsConnected client = true)
    (room : Room) (reply told : Frame) (k : SocketId) :
    ([⟨.client client, reply⟩, ⟨.others client room, told⟩].foldl deliver w).replayed update start k =
      if k = client then update (w.replayed update start k) reply
      else if k ∈ w.rooms room then update (w.replayed update start k) told
      else w.replayed update start k := by
  rw [List.foldl_cons, List.foldl_cons, List.foldl_nil, replayed_deliver, replayed_deliver]
  by_cases hk : k = client
  · simp [recipients, hopen, hk]
  · simp [recipients, hopen, hk]

end Replay

def userOf (w : World) (client : SocketId) : Option Uuid :=
  (w.sockets client).map (·.user)

def currentWorkspace (w : World) (client : SocketId) : Option Uuid :=
  (w.sockets client).bind (·.currentWorkspaceId)

theorem mem_fetchSockets (w : World) (room : Room) (found : SocketId × Uuid) :
    found ∈ w.fetchSockets room ↔ found.1 ∈ w.rooms room ∧ w.userOf found.1 = some found.2 := by
  obtain ⟨j, u⟩ := found
  simp only [fetchSockets, userOf, Finset.mem_biUnion, Option.mem_toFinset, Option.mem_def,
    Option.map_eq_some_iff, Prod.mk.injEq]
  constructor
  · rintro ⟨k, hk, data, hdata, rfl, rfl⟩
    exact ⟨hk, data, hdata, rfl⟩
  · rintro ⟨hj, data, hdata, rfl⟩
    exact ⟨j, hj, data, hdata, rfl, rfl⟩

/-- The users whom `fetchSockets` finds in a room. -/
theorem mem_users_fetchSockets (w : World) (room : Room) (u : Uuid) :
    u ∈ (w.fetchSockets room).image (·.2) ↔ ∃ j ∈ w.rooms room, w.userOf j = some u := by
  rw [Finset.mem_image]
  constructor
  · rintro ⟨found, hfound, rfl⟩
    exact ⟨found.1, (w.mem_fetchSockets room found).mp hfound⟩
  · rintro ⟨j, hj, hu⟩
    exact ⟨(j, u), (w.mem_fetchSockets room (j, u)).mpr ⟨hj, hu⟩, rfl⟩

theorem userOf_modifySocket {f : SocketData → SocketData} (hf : ∀ data, (f data).user = data.user)
    (w : World) (client j : SocketId) : (w.modifySocket client f).userOf j = w.userOf j := by
  by_cases hj : j = client
  · subst hj
    cases hdata : w.sockets j <;> simp [userOf, modifySocket, hdata, hf]
  · simp [userOf, modifySocket, hj]

theorem currentWorkspace_modifySocket {f : SocketData → SocketData}
    (hf : ∀ data, (f data).currentWorkspaceId = data.currentWorkspaceId) (w : World)
    (client j : SocketId) :
    (w.modifySocket client f).currentWorkspace j = w.currentWorkspace j := by
  by_cases hj : j = client
  · subst hj
    cases hdata : w.sockets j <;> simp [currentWorkspace, modifySocket, hdata, hf]
  · simp [currentWorkspace, modifySocket, hj]

theorem userOf_close (w : World) (client : SocketId) : (w.close client).userOf = w.userOf :=
  funext fun j => userOf_modifySocket (f := fun data => { data with connected := false })
    (fun _ => rfl) w client j

theorem currentWorkspace_close (w : World) (client : SocketId) :
    (w.close client).currentWorkspace = w.currentWorkspace :=
  funext fun j => currentWorkspace_modifySocket
    (f := fun data => { data with connected := false }) (fun _ => rfl) w client j

end World

end SyncBoard.Realtime
