import SyncBoard.Realtime.OneBoard
import SyncBoard.Realtime.Turns

/-!
# Who is viewing a board

Presence is kept for each socket, and announced for each user. A client on a board
replays `board:joined` and `board:presence`; what it shows should be the users of the
live sockets on the board, those that are in the room and in the active set.
-/

namespace SyncBoard.Realtime

open Interleaved Interleaved.Program
open Document (SocketId)

namespace PresenceStore

/-- The users that `getBoardViewers` finds at a time. -/
def viewers (s : PresenceStore) (boardId : Uuid) (now : Timestamp) : Finset Uuid :=
  ((s.hmget boardId (s.zrangebyscore boardId ((now : Int) - staleThresholdMs) none)).filterMap
    id).map (·.userId) |>.toFinset

theorem mem_zrangebyscore_none (s : PresenceStore) (b : Uuid) (min : Int) (k : SocketId) :
    k ∈ s.zrangebyscore b min none ↔ ∃ score : Timestamp, (k, score) ∈ s.active b ∧ min ≤ score := by
  simp [zrangebyscore]

theorem mem_viewers (s : PresenceStore) (b : Uuid) (now : Timestamp) (u : Uuid) :
    u ∈ s.viewers b now ↔ ∃ (k : SocketId) (score : Timestamp) (e : PresenceEntry),
      (k, score) ∈ s.active b ∧ (now : Int) - staleThresholdMs ≤ score ∧
        s.entries b k = some e ∧ e.userId = u := by
  simp only [viewers, hmget, List.mem_toFinset, List.mem_map, List.mem_filterMap, id,
    mem_zrangebyscore_none]
  constructor
  · rintro ⟨e, ⟨_, ⟨k, ⟨score, hactive, hfresh⟩, rfl⟩, he⟩, rfl⟩
    exact ⟨k, score, e, hactive, hfresh, he, rfl⟩
  · rintro ⟨k, score, e, hactive, hfresh, he, rfl⟩
    exact ⟨e, ⟨_, ⟨k, ⟨score, hactive, hfresh⟩, rfl⟩, he⟩, rfl⟩

/-- The prune pipeline removes the socket from the board. -/
def Pruned (boards : List (Uuid × List SocketId)) (b : Uuid) (k : SocketId) : Prop :=
  ∃ board ∈ boards, board.1 = b ∧ k ∈ board.2

theorem pruned_cons (board : Uuid × List SocketId) (boards : List (Uuid × List SocketId))
    (b : Uuid) (k : SocketId) :
    Pruned (board :: boards) b k ↔ (b = board.1 ∧ k ∈ board.2) ∨ Pruned boards b k := by
  simp [Pruned, eq_comm]

theorem entries_prune (boards : List (Uuid × List SocketId)) (s : PresenceStore) (b : Uuid)
    (k : SocketId) (e : PresenceEntry) : (s.prune boards).2.entries b k = some e ↔
      s.entries b k = some e ∧ ¬ Pruned boards b k := by
  induction boards generalizing s with
  | nil => simp [prune, Pruned]
  | cons board rest ih =>
      rw [pruned_cons, prune, ih, entries_delete]
      split <;> simp [*]

theorem mem_sockets_prune (boards : List (Uuid × List SocketId)) (s : PresenceStore) (b : Uuid)
    (k : SocketId) :
    k ∈ (s.prune boards).2.sockets b ↔ k ∈ s.sockets b ∧ ¬ Pruned boards b k := by
  induction boards generalizing s with
  | nil => simp [prune, Pruned]
  | cons board rest ih =>
      rw [pruned_cons, prune, ih, mem_sockets_delete, not_or, and_assoc]

/-- The entries that the pipeline returns are those that it removes. -/
theorem mem_expiredEntries (boards : List (Uuid × List SocketId)) (s : PresenceStore) (b : Uuid)
    (e : PresenceEntry) :
    (b, e) ∈ PresenceService.expiredEntries boards (s.prune boards).1 ↔
      ∃ k, Pruned boards b k ∧ s.entries b k = some e := by
  induction boards generalizing s with
  | nil => simp [PresenceService.expiredEntries, Pruned]
  | cons board rest ih =>
      have hfirst : (b, e) ∈ ((s.hmget board.1 board.2).filterMap id).map
          (fun entry => (board.1, entry)) ↔ b = board.1 ∧ ∃ k ∈ board.2, s.entries b k = some e := by
        simp only [hmget, List.mem_map, List.mem_filterMap, id, Prod.mk.injEq]
        constructor
        · rintro ⟨entry, ⟨_, ⟨k, hk, rfl⟩, hentry⟩, rfl, rfl⟩
          exact ⟨rfl, k, hk, hentry⟩
        · rintro ⟨rfl, k, hk, hentry⟩
          exact ⟨e, ⟨_, ⟨k, hk, rfl⟩, hentry⟩, rfl, rfl⟩
      have hsplit : (b, e) ∈ PresenceService.expiredEntries (board :: rest) (s.prune (board :: rest)).1 ↔
          (b, e) ∈ ((s.hmget board.1 board.2).filterMap id).map (fun entry => (board.1, entry)) ∨
            (b, e) ∈ PresenceService.expiredEntries rest
              ((s.delete board.1 board.2).prune rest).1 := List.mem_append
      rw [hsplit, hfirst, ih]
      simp only [pruned_cons, entries_delete]
      constructor
      · rintro (⟨hb, k, hk, hentry⟩ | ⟨k, hk, hentry⟩)
        · exact ⟨k, .inl ⟨hb, hk⟩, hentry⟩
        · split at hentry
          · cases hentry
          · exact ⟨k, .inr hk, hentry⟩
      · rintro ⟨k, hk, hentry⟩
        by_cases hnow : b = board.1 ∧ k ∈ board.2
        · exact .inl ⟨hnow.1, k, hnow.2, hentry⟩
        · refine .inr ⟨k, hk.resolve_left hnow, ?_⟩
          rw [if_neg hnow]
          exact hentry

end PresenceStore

/-- How a client updates the viewers of its board. -/
def applyPresence (viewers : Finset Uuid) : Frame → Finset Uuid
  | .boardJoined _ viewers => viewers
  | .boardPresence userId .joined => insert userId viewers
  | .boardPresence userId .left => viewers.erase userId
  | _ => viewers

theorem applyPresence_of_not_ofBoards {frame : Frame} (h : ¬ frame.OfBoards)
    (viewers : Finset Uuid) : applyPresence viewers frame = viewers := by
  cases frame with
  | boardJoined => exact absurd trivial h
  | boardPresence => exact absurd trivial h
  | boardCursor => rfl
  | workspaceJoined => rfl
  | memberOnline => rfl
  | memberOffline => rfl

namespace World

/-- The viewers that a client shows. -/
def roster (w : World) (client : SocketId) : Finset Uuid :=
  w.replayed applyPresence ∅ client

/-- The socket is in the room of the board and in its active set. -/
def IsLive (w : World) (boardId : Uuid) (client : SocketId) : Prop :=
  client ∈ w.rooms (.board boardId) ∧ client ∈ w.presence.sockets boardId

/-- Every socket in a board room shows the users of the live sockets on the board. -/
def RostersShown (w : World) : Prop :=
  ∀ b, ∀ k ∈ w.rooms (.board b), ∀ u,
    u ∈ w.roster k ↔ ∃ j, w.IsLive b j ∧ w.userOf j = some u

/-- The sockets on a board, the entries in its presence hash and the rosters of its
room agree. -/
structure Viewing (w : World) : Prop where
  entries : ∀ b k e, w.presence.entries b k = some e →
    k ∈ w.rooms (.board b) ∧ w.userOf k = some e.userId
  active : ∀ b k, k ∈ w.presence.sockets b ↔ ∃ e, w.presence.entries b k = some e
  rooms : ∀ b, ∀ k ∈ w.rooms (.board b), w.IsConnected k = true ∧ w.currentBoard k = some b
  rosters : ∀ b, ∀ k ∈ w.rooms (.board b), ∀ u,
    u ∈ w.roster k ↔ ∃ j e, w.presence.entries b j = some e ∧ e.userId = u

namespace Viewing
variable {w : World}

theorem isLive_iff (hw : w.Viewing) (b u : Uuid) (j : SocketId) :
    w.IsLive b j ∧ w.userOf j = some u ↔ ∃ e, w.presence.entries b j = some e ∧ e.userId = u := by
  constructor
  · rintro ⟨⟨-, hactive⟩, hu⟩
    obtain ⟨e, he⟩ := (hw.active b j).mp hactive
    exact ⟨e, he, Option.some.inj ((hw.entries b j e he).2.symm.trans hu)⟩
  · rintro ⟨e, he, rfl⟩
    obtain ⟨hroom, hu⟩ := hw.entries b j e he
    exact ⟨⟨hroom, (hw.active b j).mpr ⟨e, he⟩⟩, hu⟩

theorem shown (hw : w.Viewing) : w.RostersShown := by
  intro b k hk u
  rw [hw.rosters b k hk u]
  exact exists_congr fun j => (hw.isLive_iff b u j).symm

/-- A socket that does not exist yet is on no board. -/
theorem ne_of_new (hw : w.Viewing) {client : SocketId} (hnew : w.sockets client = none) {b : Uuid}
    {k : SocketId} (hk : k ∈ w.rooms (.board b)) : k ≠ client := by
  rintro rfl
  have hopen := (hw.rooms b k hk).1
  simp [IsConnected, hnew] at hopen

end Viewing

/-- Nothing that concerns boards has changed. -/
structure SameBoards (w w' : World) : Prop where
  rooms : ∀ b, w'.rooms (.board b) = w.rooms (.board b)
  userOf : w'.userOf = w.userOf
  isConnected : w'.IsConnected = w.IsConnected
  currentBoard : w'.currentBoard = w.currentBoard
  presence : w'.presence = w.presence
  roster : w'.roster = w.roster

namespace SameBoards
variable {w w' w'' : World}

theorem refl (w : World) : SameBoards w w :=
  ⟨fun _ => rfl, rfl, rfl, rfl, rfl, rfl⟩

theorem trans (h : SameBoards w w') (h' : SameBoards w' w'') : SameBoards w w'' where
  rooms b := (h'.rooms b).trans (h.rooms b)
  userOf := h'.userOf.trans h.userOf
  isConnected := h'.isConnected.trans h.isConnected
  currentBoard := h'.currentBoard.trans h.currentBoard
  presence := h'.presence.trans h.presence
  roster := h'.roster.trans h.roster

theorem viewing (h : SameBoards w w') (hw : w.Viewing) : w'.Viewing where
  entries b k e he := by
    rw [h.presence] at he
    rw [h.rooms, h.userOf]
    exact hw.entries b k e he
  active b k := by
    rw [h.presence]
    exact hw.active b k
  rooms b k hk := by
    rw [h.rooms] at hk
    rw [h.isConnected, h.currentBoard]
    exact hw.rooms b k hk
  rosters b k hk u := by
    rw [h.rooms] at hk
    rw [h.roster, h.presence]
    exact hw.rosters b k hk u

theorem emit {es : List Emission} (hes : ∀ e ∈ es, ∀ viewers, applyPresence viewers e.frame = viewers)
    (w : World) : SameBoards w (es.foldl deliver w) where
  rooms _ := by rw [rooms_emit]
  userOf := by
    funext k
    simp [World.userOf]
  isConnected := by
    funext k
    simp [World.IsConnected]
  currentBoard := by
    funext k
    simp [World.currentBoard]
  presence := w.presence_emit es
  roster := funext (replayed_emit applyPresence ∅ hes w)

theorem modifySocket {f : SocketData → SocketData} (huser : ∀ data, (f data).user = data.user)
    (hconnected : ∀ data, (f data).connected = data.connected)
    (hcurrent : ∀ data, (f data).currentBoardId = data.currentBoardId) (w : World)
    (client : SocketId) : SameBoards w (w.modifySocket client f) where
  rooms _ := rfl
  userOf := funext (userOf_modifySocket huser w client)
  isConnected := funext (isConnected_modifySocket hconnected w client)
  currentBoard := by
    funext k
    rw [currentBoard_modifySocket]
    split
    · rename_i hk
      subst hk
      cases hdata : w.sockets k <;> simp [World.currentBoard, hdata, hcurrent]
    · rfl
  presence := rfl
  roster := rfl

end SameBoards
end World

/-- The statements of the workspace handlers leave the boards alone. -/
theorem sameBoards_answer (now : Timestamp) (op : Statement) (w : World) (h : op.OfWorkspaces) :
    World.SameBoards w (answer now op w).2 := by
  cases op with
  | setCurrentWorkspace client workspaceId =>
      apply World.SameBoards.modifySocket <;> intro data <;> rfl
  | resetCurrentWorkspace client workspaceId =>
      apply World.SameBoards.modifySocket <;> intro data <;> split <;> rfl
  | join client room =>
      cases room with
      | board boardId => exact h.elim
      | workspace workspaceId =>
          refine ⟨fun b => ?_, ?_, ?_, ?_, ?_, ?_⟩
          · ext k
            simp [answer, World.mem_rooms_join]
          · funext k
            simp [answer, World.userOf]
          · funext k
            simp [answer, World.IsConnected]
          · funext k
            simp [answer, World.currentBoard]
          · exact w.presence_join client _
          · funext k
            simp [answer, World.roster, World.replayed]
  | leave client room =>
      cases room with
      | board boardId => exact h.elim
      | workspace workspaceId =>
          exact ⟨fun _ => rfl, rfl, rfl, rfl, rfl, rfl⟩
  | emit emissions =>
      exact .emit (fun e he => applyPresence_of_not_ofBoards (h e he)) w
  | findMember => exact .refl w
  | data => exact .refl w
  | fetchSockets => exact .refl w
  | _ => exact h.elim

end SyncBoard.Realtime
