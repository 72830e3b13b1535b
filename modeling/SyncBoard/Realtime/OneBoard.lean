import SyncBoard.Realtime.Gateway

/-!
# One board per socket

`currentBoardId` is how a handler knows which board a socket is on. Handlers of
one socket interleave, and each reads it before its awaits and writes it after
them. As long as every write finds what the handler relies on, an idle socket is
in no other board than its current one, and in none after its disconnect.
-/

namespace SyncBoard.Realtime

open Labelled Interleaved Interleaved.Program
open Document (SocketId WorkspaceRole)

/-- The socket whose handler a call is. -/
def BoardCall.client : BoardCall → Option SocketId
  | .message client _ | .disconnect client => some client
  | .presenceCleanup => none

namespace World

def currentBoard (w : World) (client : SocketId) : Option Uuid :=
  (w.sockets client).bind (·.currentBoardId)

/-- The socket is in the room or in the presence set of the board. -/
def IsOn (w : World) (client : SocketId) (boardId : Uuid) : Prop :=
  client ∈ w.rooms (.board boardId) ∨ client ∈ w.presence.sockets boardId

/-- A statement that changes the board of a socket, or registers it, fits where the
socket is. -/
def KeepsOneBoard (w : World) : Statement → Prop
  | .setCurrentBoard client boardId =>
      ∀ current, w.currentBoard client = some current → current ≠ boardId → ¬ w.IsOn client current
  | .resetCurrentBoard client boardId =>
      w.currentBoard client = some boardId → ¬ w.IsOn client boardId
  | .register boardId _ entry =>
      w.IsConnected entry.socketId = true ∧ w.currentBoard entry.socketId = some boardId
  | .zadd boardId _ socketId =>
      w.IsConnected socketId = true ∧ w.currentBoard socketId = some boardId
  | _ => True

end World

namespace BoardState

/-- None of the handlers of the socket is running. -/
def Idle (s : BoardState) (client : SocketId) : Prop :=
  ∀ task ∈ s.tasks, task.call.client = some client → ∃ result, task.rest = .done result

/-- An idle socket is on its current board at most, and after its disconnect it is in
no presence set. -/
def OneBoard (s : BoardState) : Prop :=
  ∀ client, s.Idle client →
    (∀ b, s.store.IsOn client b → s.store.currentBoard client = some b) ∧
      (s.store.IsConnected client = false → ∀ b, client ∉ s.store.presence.sockets b)

/-- A handler of the socket is about to make the board its current one. -/
def Joining (s : BoardState) (client : SocketId) (b : Uuid) : Prop :=
  ∃ task ∈ s.tasks, task.call.client = some client ∧
    ∃ next, task.rest = .await (.setCurrentBoard client b) next

/-- A `handleDisconnect` of the socket is about to read its current board, or to remove
the socket from the board. -/
def Cleaning (s : BoardState) (client : SocketId) (b : Uuid) : Prop :=
  ∃ task ∈ s.tasks, task.call.client = some client ∧
    (task.rest = BoardGateway.handleDisconnect client ∨
      ∃ next, task.rest = .await (.unregister b client) next)

/-- Where a socket is, its current board says, or a handler is about to say. -/
structure Tracked (s : BoardState) : Prop where
  presence : ∀ b client, client ∈ s.store.presence.sockets b →
    s.store.currentBoard client = some b ∧
      (s.store.IsConnected client = true ∨ s.Cleaning client b)
  rooms : ∀ b client, client ∈ s.store.rooms (.board b) → (s.store.sockets client).isSome ∧
    (s.store.currentBoard client = some b ∨ s.Joining client b)

theorem Tracked.oneBoard {s : BoardState} (hs : s.Tracked) : s.OneBoard := by
  intro client hidle
  have hjoining : ∀ b, ¬ s.Joining client b := by
    rintro b ⟨task, htask, hclient, next, hrest⟩
    obtain ⟨result, hdone⟩ := hidle task htask hclient
    cases hdone.symm.trans hrest
  have hcleaning : ∀ b, ¬ s.Cleaning client b := by
    rintro b ⟨task, htask, hclient, hrest | ⟨next, hrest⟩⟩
    · obtain ⟨result, hdone⟩ := hidle task htask hclient
      cases hdone.symm.trans hrest
    · obtain ⟨result, hdone⟩ := hidle task htask hclient
      cases hdone.symm.trans hrest
  constructor
  · rintro b (hroom | hactive)
    · exact (hs.rooms b client hroom).2.resolve_right (hjoining b)
    · exact (hs.presence b client hactive).1
  · intro hclosed b hactive
    rcases (hs.presence b client hactive).2 with hopen | hclean
    · exact Bool.false_ne_true (hclosed.symm.trans hopen)
    · exact hcleaning b hclean

end BoardState

/-- A handler joins a board room for its own socket only, and sets the current board
next. -/
def SetsCurrentBoard (call : BoardCall) :
    (op : Statement) → (Answer op → Procedure Unit) → Prop
  | .join client (.board boardId), next =>
      call.client = some client ∧
        ∃ rest, next () = .await (.setCurrentBoard client boardId) rest
  | _, _ => True

theorem setsCurrentBoard_of_ofBoards (call : BoardCall) (op : Statement)
    (next : Answer op → Procedure Unit) (h : op.OfBoards) : SetsCurrentBoard call op next := by
  cases op with
  | join client room => exact h.elim
  | _ => trivial

theorem setsCurrentBoard_of_ofViewers (call : BoardCall) (op : Statement)
    (next : Answer op → Procedure Unit) (h : op.OfViewers) : SetsCurrentBoard call op next :=
  setsCurrentBoard_of_ofBoards call op next h.ofBoards

theorem setsCurrentBoard_of_ofWorkspaces (call : BoardCall) (op : Statement)
    (next : Answer op → Procedure Unit) (h : op.OfWorkspaces) : SetsCurrentBoard call op next := by
  cases op with
  | join client room =>
      cases room with
      | board boardId => exact h.elim
      | workspace workspaceId => trivial
  | _ => trivial

section Programs
variable (client : SocketId) (boardId : Uuid)

/-- The one join of a board room, and what follows it. -/
theorem everywhere_join_bind {call : BoardCall} (hcall : call.client = some client)
    {rest : Procedure Unit} (hrest : rest.Everywhere (SetsCurrentBoard call)) :
    (ask (Statement.join client (.board boardId)) >>= fun _ =>
      ask (Statement.setCurrentBoard client boardId) >>= fun _ => rest).Everywhere
        (SetsCurrentBoard call) :=
  ⟨⟨hcall, _, rfl⟩, fun _ => ⟨trivial, fun _ => hrest⟩⟩

theorem everywhere_handleBoardJoin {call : BoardCall} (hcall : call.client = some client) :
    (BoardGateway.handleBoardJoin client boardId).Everywhere (SetsCurrentBoard call) := by
  have hnone := setsCurrentBoard_of_ofViewers call
  refine .bind hnone (only_currentUser client) fun user => ?_
  refine .bind hnone (only_boardAccessGuard boardId user) fun _ => ?_
  refine .bind hnone (.ask trivial) fun data => ?_
  refine .bind hnone (only_leavePreviousBoard client boardId _) fun _ => ?_
  refine everywhere_join_bind client boardId hcall ?_
  refine .bind hnone (only_getBoardViewers boardId) fun _ => ?_
  refine .bind hnone (only_addPresence boardId _) fun _ => ?_
  refine .bind hnone (only_getBoardViewers boardId) fun _ => ?_
  exact ⟨trivial, fun _ => trivial⟩

theorem everywhere_handleDisconnect {call : BoardCall} :
    (BoardGateway.handleDisconnect client).Everywhere (SetsCurrentBoard call) := by
  have hboards := setsCurrentBoard_of_ofViewers call
  refine .bind hboards (.ask trivial) fun found => .bind hboards (.demand _ _) fun data => ?_
  refine .bind hboards (only_clearPresence client data) fun _ => ?_
  refine .bind hboards (.ask trivial) fun later => ?_
  exact .of_only (setsCurrentBoard_of_ofWorkspaces call) (only_announceOffline client _ _)

end Programs

theorem everywhere_program (call : BoardCall) :
    call.program.Everywhere (SetsCurrentBoard call) := by
  have hviewers := setsCurrentBoard_of_ofViewers call
  have hworkspaces := setsCurrentBoard_of_ofWorkspaces call
  cases call with
  | message client received =>
      cases received with
      | boardJoin boardId => exact everywhere_handleBoardJoin client boardId rfl
      | boardLeave boardId => exact .of_only hviewers (only_leaveBoardRoom client boardId)
      | heartbeat => exact .of_only hviewers (only_handleHeartbeat client)
      | cursor boardId =>
          exact .of_only (setsCurrentBoard_of_ofBoards _) (only_handleCursor client boardId)
      | workspaceJoin workspaceId =>
          exact .of_only hworkspaces (only_handleWorkspaceJoin client workspaceId)
      | workspaceLeave workspaceId =>
          exact .of_only hworkspaces (only_handleWorkspaceLeave client workspaceId)
  | disconnect client => exact everywhere_handleDisconnect client
  | presenceCleanup => exact .of_only hviewers only_runPresenceCleanup

namespace World
variable {w w' : World}

@[simp] theorem currentBoard_modifySocket (client : SocketId) (f : SocketData → SocketData)
    (j : SocketId) : (w.modifySocket client f).currentBoard j =
      if j = client then ((w.sockets client).map f).bind (·.currentBoardId)
      else w.currentBoard j := by
  by_cases hj : j = client
  · simp [currentBoard, modifySocket, hj]
  · simp [currentBoard, modifySocket, hj]

theorem isSome_modifySocket (client : SocketId) (f : SocketData → SocketData) (j : SocketId) :
    ((w.modifySocket client f).sockets j).isSome = (w.sockets j).isSome := by
  by_cases hj : j = client
  · simp [modifySocket, hj]
  · simp [modifySocket, hj]

/-- Sockets keep their current boards, and are on no more boards than before. -/
structure Shrinks (w w' : World) : Prop where
  currentBoard : ∀ k, w'.currentBoard k = w.currentBoard k
  isConnected : ∀ k, w'.IsConnected k = w.IsConnected k
  isSome : ∀ k, (w'.sockets k).isSome = (w.sockets k).isSome
  presence : ∀ b k, k ∈ w'.presence.sockets b → k ∈ w.presence.sockets b
  rooms : ∀ b k, k ∈ w'.rooms (.board b) → k ∈ w.rooms (.board b)

theorem Shrinks.refl (w : World) : Shrinks w w :=
  ⟨fun _ => rfl, fun _ => rfl, fun _ => rfl, fun _ _ => id, fun _ _ => id⟩

/-- Only the presence store differs, and it has lost sockets. -/
theorem Shrinks.of_presence {presence : PresenceStore}
    (h : ∀ b k, k ∈ presence.sockets b → k ∈ w.presence.sockets b) :
    Shrinks w { w with presence := presence } :=
  ⟨fun _ => rfl, fun _ => rfl, fun _ => rfl, h, fun _ _ => id⟩

/-- `client.data` is rewritten in other fields. -/
theorem Shrinks.of_modifySocket (client : SocketId) {f : SocketData → SocketData}
    (hconnected : ∀ data, (f data).connected = data.connected)
    (hboard : ∀ data, (f data).currentBoardId = data.currentBoardId) :
    Shrinks w (w.modifySocket client f) where
  currentBoard k := by
    rw [currentBoard_modifySocket]
    split
    · rename_i hk
      subst hk
      cases hdata : w.sockets k <;> simp [World.currentBoard, hdata, hboard]
    · rfl
  isConnected := isConnected_modifySocket hconnected _ client
  isSome := isSome_modifySocket client f
  presence _ _ := id
  rooms _ _ := id

/-- The statements that put a socket on a board or change its current board. -/
def Places : Statement → Prop
  | .register _ _ _ | .zadd _ _ _ | .setCurrentBoard _ _ | .resetCurrentBoard _ _
  | .join _ (.board _) => True
  | _ => False

theorem shrinks_answer (now : Timestamp) {op : Statement} (h : ¬ Places op) :
    Shrinks w (answer now op w).2 := by
  cases op with
  | register | zadd | setCurrentBoard | resetCurrentBoard => exact (h trivial).elim
  | join client room =>
      cases room with
      | board => exact (h trivial).elim
      | workspace workspaceId =>
          refine ⟨fun k => ?_, fun k => ?_, fun k => ?_, fun b k hk => ?_, fun b k hk => ?_⟩
          · simp [answer, currentBoard]
          · simp [answer, IsConnected]
          · simp [answer]
          · simpa [answer] using hk
          · simpa [answer, mem_rooms_join] using hk
  | unregister b client =>
      exact .of_presence fun b' k hk => ((w.presence.mem_sockets_delete b [client] k b').mp hk).1
  | prune boards =>
      refine .of_presence ?_
      refine PresenceStore.prune_invariant (I := fun s => ∀ b k, k ∈ s.sockets b →
        k ∈ w.presence.sockets b) ?_ fun _ _ => id
      intro s b ks hs b' k hk
      exact hs b' k ((s.mem_sockets_delete b ks k b').mp hk).1
  | srem boardIds => exact .of_presence fun _ _ => id
  | setCurrentWorkspace client workspaceId =>
      exact .of_modifySocket client (fun _ => rfl) fun _ => rfl
  | resetCurrentWorkspace client workspaceId =>
      refine .of_modifySocket client (fun data => ?_) fun data => ?_
      · split <;> rfl
      · split <;> rfl
  | leave client room =>
      refine ⟨fun _ => rfl, fun _ => rfl, fun _ => rfl, fun _ _ => id, fun b k hk => ?_⟩
      exact ((w.mem_rooms_leave client room k (.board b)).mp hk).1
  | emit emissions =>
      refine ⟨fun k => ?_, fun k => ?_, fun k => ?_, fun b k hk => ?_, fun b k hk => ?_⟩
      · simp [answer, currentBoard]
      · simp [answer, IsConnected]
      · simp [answer]
      · simpa [answer] using hk
      · simpa [answer] using hk
  | _ => exact .refl w

end World

namespace BoardState
variable {s s' : BoardState} {i : Nat} {now : Timestamp}
variable {task : Task Statement Answer WsError BoardCall} {op : Statement}
variable {next : Answer op → Procedure Unit}

/-- A handler that is about to set the current board sets it, or is still about to. -/
theorem Joining.answered (now : Timestamp) (hasks : s.Asks i task op next) {client : SocketId} {b : Uuid}
    (h : s.Joining client b) :
    Joining (s.answered answer i now task op next) client b ∨
      op = .setCurrentBoard client b := by
  obtain ⟨joiner, hjoiner, hclient, rest, hrest⟩ := h
  have hkept : joiner = task ∨ joiner ∈ (s.answered answer i now task op next).tasks :=
    hasks.kept hjoiner
  rcases hkept with rfl | hkept
  · exact .inr (Program.await.inj (hasks.2.symm.trans hrest)).1
  · exact .inl ⟨joiner, hkept, hclient, rest, hrest⟩

/-- The first statement of `handleDisconnect`. -/
theorem handleDisconnect_eq (client : SocketId) : BoardGateway.handleDisconnect client =
    .await (.data client) fun data => demand data .tokenInvalid >>= fun data =>
      BoardGateway.clearPresence client data >>= fun _ =>
        ask (Statement.data client) >>= fun later =>
          BoardGateway.announceOffline client data.user (later.bind (·.currentWorkspaceId)) := rfl

/-- A `handleDisconnect` reads the current board and removes the socket from it. -/
theorem Cleaning.answered (now : Timestamp) (hasks : s.Asks i task op next) {client : SocketId} {b : Uuid}
    (h : s.Cleaning client b) (hb : s.store.currentBoard client = some b) :
    Cleaning (s.answered answer i now task op next) client b ∨ op = .unregister b client := by
  obtain ⟨cleaner, hcleaner, hclient, hrest⟩ := h
  have hkept : cleaner = task ∨ cleaner ∈ (s.answered answer i now task op next).tasks :=
    hasks.kept hcleaner
  rcases hkept with rfl | hkept
  · rcases hrest with hrest | ⟨rest, hrest⟩
    · left
      have hfirst := (handleDisconnect_eq client).symm.trans (hrest.symm.trans hasks.2)
      obtain ⟨rfl, hnext⟩ := Program.await.inj hfirst
      obtain rfl := eq_of_heq hnext
      obtain ⟨data, hdata, hcurrent⟩ := Option.bind_eq_some_iff.mp hb
      refine ⟨_, hasks.renewed now, hclient, .inr ?_⟩
      rw [answer, hdata, demand_some_bind, BoardGateway.clearPresence, hcurrent]
      exact ⟨_, rfl⟩
    · exact .inr (Program.await.inj (hasks.2.symm.trans hrest)).1
  · exact .inl ⟨cleaner, hkept, hclient, hrest⟩

/-- A statement that places no socket on a board leaves the sockets tracked. -/
theorem Tracked.shrunk (hs : s.Tracked) (hasks : s.Asks i task op next)
    (hplaces : ¬ World.Places op) : Tracked (s.answered answer i now task op next) := by
  have hshrinks : World.Shrinks s.store (answer now op s.store).2 :=
    World.shrinks_answer now hplaces
  constructor
  · intro b client hactive
    obtain ⟨hcurrent, hopen⟩ := hs.presence b client (hshrinks.presence b client hactive)
    refine ⟨(hshrinks.currentBoard client).trans hcurrent, ?_⟩
    rcases hopen with hopen | hclean
    · exact .inl ((hshrinks.isConnected client).trans hopen)
    · rcases hclean.answered now hasks hcurrent with hclean | rfl
      · exact .inr hclean
      · have hgone := (s.store.presence.mem_sockets_delete b [client] client b).mp hactive
        exact (hgone.2 ⟨rfl, List.mem_singleton_self client⟩).elim
  · intro b client hroom
    obtain ⟨hknown, hwhere⟩ := hs.rooms b client (hshrinks.rooms b client hroom)
    refine ⟨(hshrinks.isSome client).trans hknown, ?_⟩
    rcases hwhere with hcurrent | hjoining
    · exact .inl ((hshrinks.currentBoard client).trans hcurrent)
    · rcases hjoining.answered now hasks with hjoining | rfl
      · exact .inr hjoining
      · exact (hplaces trivial).elim

/-- Registering a connected socket on its current board leaves the sockets tracked. -/
theorem Tracked.registered (hs : s.Tracked) (hasks : s.Asks i task op next)
    {presence : PresenceStore} {b₀ : Uuid} {k₀ : SocketId}
    (hstore : (answer now op s.store).2 = { s.store with presence := presence })
    (hmem : ∀ b k, k ∈ presence.sockets b → k ∈ s.store.presence.sockets b ∨ (b = b₀ ∧ k = k₀))
    (hunregister : ∀ b k, op ≠ .unregister b k) (hset : ∀ k b, op ≠ .setCurrentBoard k b)
    (hopen : s.store.IsConnected k₀ = true) (hcurrent : s.store.currentBoard k₀ = some b₀) :
    Tracked (s.answered answer i now task op next) := by
  have hworld : (s.answered answer i now task op next).store =
      { s.store with presence := presence } := hstore
  constructor
  · intro b client hactive
    rw [hworld] at hactive ⊢
    rcases hmem b client hactive with hactive | ⟨rfl, rfl⟩
    · obtain ⟨hboard, hopen⟩ := hs.presence b client hactive
      refine ⟨hboard, hopen.imp_right fun hclean => ?_⟩
      exact (hclean.answered now hasks hboard).resolve_right (hunregister b client)
    · exact ⟨hcurrent, .inl hopen⟩
  · intro b client hroom
    rw [hworld] at hroom ⊢
    obtain ⟨hknown, hwhere⟩ := hs.rooms b client hroom
    refine ⟨hknown, hwhere.imp_right fun hjoining => ?_⟩
    exact (hjoining.answered now hasks).resolve_right (hset client b)

/-- Rewriting the current board of one socket leaves the sockets tracked, where it agrees
with the boards that the socket is on. -/
theorem Tracked.moved (hs : s.Tracked) (hasks : s.Asks i task op next) {k₀ : SocketId}
    {f : SocketData → SocketData}
    (hstore : (answer now op s.store).2 = s.store.modifySocket k₀ f)
    (hconnected : ∀ data, (f data).connected = data.connected)
    (hunregister : ∀ b k, op ≠ .unregister b k)
    (hkept : ∀ b, s.store.IsOn k₀ b → s.store.currentBoard k₀ = some b →
      (s.store.modifySocket k₀ f).currentBoard k₀ = some b)
    (hset : ∀ k b, op = .setCurrentBoard k b → (s.store.sockets k).isSome →
      (s.store.modifySocket k₀ f).currentBoard k = some b) :
    Tracked (s.answered answer i now task op next) := by
  have hworld : (s.answered answer i now task op next).store = s.store.modifySocket k₀ f := hstore
  have hcurrent : ∀ b k, s.store.IsOn k b → s.store.currentBoard k = some b →
      (s.store.modifySocket k₀ f).currentBoard k = some b := by
    intro b k hon hboard
    by_cases hk : k = k₀
    · subst hk
      exact hkept b hon hboard
    · rw [World.currentBoard_modifySocket, if_neg hk]
      exact hboard
  constructor
  · intro b client hactive
    rw [hworld] at hactive ⊢
    obtain ⟨hboard, hopen⟩ := hs.presence b client hactive
    refine ⟨hcurrent b client (.inr hactive) hboard, ?_⟩
    rw [World.isConnected_modifySocket hconnected]
    refine hopen.imp_right fun hclean => ?_
    exact (hclean.answered now hasks hboard).resolve_right (hunregister b client)
  · intro b client hroom
    rw [hworld] at hroom ⊢
    obtain ⟨hknown, hwhere⟩ := hs.rooms b client hroom
    refine ⟨(World.isSome_modifySocket k₀ f client).trans hknown, ?_⟩
    rcases hwhere with hboard | hjoining
    · exact .inl (hcurrent b client (.inl hroom) hboard)
    · rcases hjoining.answered now hasks with hjoining | hop
      · exact .inr hjoining
      · exact .inl (hset client b hop hknown)

/-- A handler that has joined a room is about to set the current board. -/
theorem Tracked.joined (hs : s.Tracked) {k₀ : SocketId} {b₀ : Uuid}
    {next : Unit → Procedure Unit} (hasks : s.Asks i task (.join k₀ (.board b₀)) next)
    (hgood : SetsCurrentBoard task.call (.join k₀ (.board b₀)) next) :
    Tracked (s.answered answer i now task (.join k₀ (.board b₀)) next) := by
  have hworld : (s.answered answer i now task (.join k₀ (.board b₀)) next).store =
      s.store.join k₀ (.board b₀) := rfl
  constructor
  · intro b client hactive
    rw [hworld] at hactive ⊢
    rw [World.presence_join] at hactive
    obtain ⟨hboard, hopen⟩ := hs.presence b client hactive
    refine ⟨by simpa [World.currentBoard] using hboard, ?_⟩
    rcases hopen with hopen | hclean
    · exact .inl (by simpa [World.IsConnected] using hopen)
    · exact .inr ((hclean.answered now hasks hboard).resolve_right (by simp))
  · intro b client hroom
    rw [hworld] at hroom ⊢
    rw [World.sockets_join]
    rcases (s.store.mem_rooms_join k₀ (.board b₀) client (.board b)).mp hroom with
      hroom | ⟨hb, rfl, hopen⟩
    · obtain ⟨hknown, hwhere⟩ := hs.rooms b client hroom
      refine ⟨hknown, ?_⟩
      rcases hwhere with hboard | hjoining
      · exact .inl (by simpa [World.currentBoard] using hboard)
      · exact .inr ((hjoining.answered now hasks).resolve_right (by simp))
    · obtain rfl : b = b₀ := Room.board.inj hb
      refine ⟨Option.isSome_of_any hopen, .inr ?_⟩
      obtain ⟨hclient, rest, hrest⟩ := hgood
      exact ⟨_, hasks.renewed now, hclient, rest, hrest⟩

/-- Every statement that keeps to one board leaves the sockets tracked. -/
theorem Tracked.answered (hs : s.Tracked) (hasks : s.Asks i task op next)
    (hgood : SetsCurrentBoard task.call op next) (hop : s.store.KeepsOneBoard op) :
    Tracked (s.answered answer i now task op next) := by
  cases op with
  | register b score entry =>
      refine hs.registered hasks rfl (fun b' k hk => ?_) nofun nofun hop.1 hop.2
      exact (s.store.presence.mem_sockets_register b score entry k b').mp hk
  | zadd b score client =>
      refine hs.registered hasks rfl (fun b' k hk => ?_) nofun nofun hop.1 hop.2
      exact (s.store.presence.mem_sockets_zadd b score client k b').mp hk
  | setCurrentBoard client boardId =>
      refine hs.moved hasks rfl (fun _ => rfl) nofun ?_ ?_
      · intro b hon hboard
        have hb : b = boardId := by
          by_contra hne
          exact hop b hboard hne hon
        obtain ⟨data, hdata, -⟩ := Option.bind_eq_some_iff.mp hboard
        simp [hdata, hb]
      · intro k b heq hknown
        obtain ⟨rfl, rfl⟩ := Statement.setCurrentBoard.inj heq
        obtain ⟨data, hdata⟩ := Option.isSome_iff_exists.mp hknown
        simp [hdata]
  | resetCurrentBoard client boardId =>
      refine hs.moved hasks rfl (fun data => ?_) nofun ?_ nofun
      · split <;> rfl
      · intro b hon hboard
        have hb : b ≠ boardId := by
          rintro rfl
          exact hop hboard hon
        obtain ⟨data, hdata, hcurrent⟩ := Option.bind_eq_some_iff.mp hboard
        simp [hdata, hcurrent, hb]
  | join client room =>
      cases room with
      | board boardId => exact hs.joined hasks hgood
      | workspace workspaceId => exact hs.shrunk hasks id
  | _ => exact hs.shrunk hasks id

/-- More handlers, and more sockets, leave the sockets tracked. -/
theorem Tracked.of_tasks (hs : s.Tracked) (htasks : ∀ task ∈ s.tasks, task ∈ s'.tasks)
    (hpresence : s'.store.presence = s.store.presence)
    (hrooms : ∀ b k, k ∈ s'.store.rooms (.board b) → k ∈ s.store.rooms (.board b))
    (hsockets : ∀ k, (s.store.sockets k).isSome → (s'.store.sockets k).isSome ∧
      s'.store.currentBoard k = s.store.currentBoard k)
    (hopen : ∀ b k, s.store.currentBoard k = some b → s.store.IsConnected k = true →
      s'.store.IsConnected k = true ∨ s'.Cleaning k b) : s'.Tracked where
  presence b client hactive := by
    rw [hpresence] at hactive
    obtain ⟨hboard, hwhere⟩ := hs.presence b client hactive
    obtain ⟨data, hdata, -⟩ := Option.bind_eq_some_iff.mp hboard
    refine ⟨(hsockets client (by simp [hdata])).2.trans hboard, ?_⟩
    rcases hwhere with hconnected | ⟨cleaner, hcleaner, hclean⟩
    · exact hopen b client hboard hconnected
    · exact .inr ⟨cleaner, htasks cleaner hcleaner, hclean⟩
  rooms b client hroom := by
    obtain ⟨hknown, hwhere⟩ := hs.rooms b client (hrooms b client hroom)
    obtain ⟨hknown', hboard⟩ := hsockets client hknown
    refine ⟨hknown', ?_⟩
    rcases hwhere with hcurrent | ⟨joiner, hjoiner, hjoin⟩
    · exact .inl (hboard.trans hcurrent)
    · exact .inr ⟨joiner, htasks joiner hjoiner, hjoin⟩

/-- The handler of a disconnect has yet to read the current board. -/
theorem Tracked.disconnected (hs : s.Tracked) (client : SocketId) :
    Tracked (started { s with store := s.store.close client } (.disconnect client)) := by
  refine hs.of_tasks (fun _ => List.mem_append_left _) rfl ?_ ?_ ?_
  · exact fun b k hk => (Finset.mem_erase.mp hk).2
  · intro k hknown
    obtain ⟨data, hdata⟩ := Option.isSome_iff_exists.mp hknown
    by_cases hk : k = client
    · subst hk
      simp [started, World.close, World.modifySocket, World.currentBoard, hdata]
    · simp [started, World.close, World.modifySocket, World.currentBoard, hk, hdata]
  · intro b k _ hconnected
    by_cases hk : k = client
    · subst hk
      exact .inr ⟨_, List.mem_append_right _ (List.mem_singleton_self _), rfl, .inl rfl⟩
    · refine .inl ?_
      simpa [started, World.close, World.modifySocket, World.IsConnected, hk] using hconnected

theorem Tracked.connected (hs : s.Tracked) {client : SocketId} {user : Uuid}
    (hnew : s.store.sockets client = none) :
    Tracked { s with store := s.store.connect client user } := by
  have hold : ∀ k, (s.store.sockets k).isSome → k ≠ client := by
    rintro k hknown rfl
    rw [hnew] at hknown
    cases hknown
  refine hs.of_tasks (fun _ => id) rfl (fun _ _ => id) ?_ ?_
  · intro k hknown
    simpa [World.connect, World.currentBoard, hold k hknown] using hknown
  · intro b k hboard hconnected
    obtain ⟨data, hdata, -⟩ := Option.bind_eq_some_iff.mp hboard
    have hne : k ≠ client := hold k (by simp [hdata])
    exact .inl (by simpa [World.connect, World.IsConnected, hne] using hconnected)

/-- The sockets are tracked, and every join sets the current board next. -/
structure Following (s : BoardState) : Prop where
  tracked : s.Tracked
  joins : ∀ task ∈ s.tasks, task.rest.Everywhere (SetsCurrentBoard task.call)

theorem Following.started {t : BoardState} (hs : s.Following) {call : BoardCall}
    (ht : (BoardState.started t call).Tracked) (htasks : t.tasks = s.tasks) :
    (BoardState.started t call).Following := by
  refine ⟨ht, fun task htask => ?_⟩
  rcases List.mem_append.mp htask with htask | htask
  · exact hs.joins task (htasks ▸ htask)
  · obtain rfl := List.mem_singleton.mp htask
    exact everywhere_program call

theorem Following.step {a : BoardAction} (hs : s.Following)
    (hg : OnStatement World.KeepsOneBoard s a) (h : s.step a = some s') : s'.Following := by
  have hsame : ∀ call, (BoardState.started s call).Tracked := fun call =>
    hs.tracked.of_tasks (fun _ => List.mem_append_left _) rfl (fun _ _ => id)
      (fun _ hknown => ⟨hknown, rfl⟩) fun _ _ _ hopen => .inl hopen
  have hworld : ∀ w : World, w.presence = s.store.presence → w.rooms = s.store.rooms →
      w.sockets = s.store.sockets → Following { s with store := w } := by
    intro w hpresence hrooms hsockets
    refine ⟨hs.tracked.of_tasks (fun _ => id) hpresence ?_ ?_ ?_, hs.joins⟩
    · exact fun b k hk => hrooms ▸ hk
    · exact fun k hknown => ⟨hsockets ▸ hknown, by simp [World.currentBoard, hsockets]⟩
    · exact fun b k _ hopen => .inl (by simpa [World.IsConnected, hsockets] using hopen)
  cases moved_of_step h with
  | connected hnew => exact ⟨hs.tracked.connected hnew, hs.joins⟩
  | roleSet => exact hworld _ rfl rfl rfl
  | boardChanged => exact hworld _ rfl rfl rfl
  | received => exact hs.started (hsame _) rfl
  | disconnected => exact hs.started (hs.tracked.disconnected _) rfl
  | cleanup => exact hs.started (hsame _) rfl
  | @resumed i now task op next hasks =>
      have hrest := hs.joins task hasks.mem
      rw [hasks.2] at hrest
      exact ⟨hs.tracked.answered hasks hrest.1 (hg task op next hasks), hasks.everywhere hs.joins⟩

end BoardState

/-- A gateway without sockets and handlers. -/
def BoardState.startup (boards : Uuid → Option Uuid)
    (members : Uuid → Uuid → Option WorkspaceRole) : BoardState :=
  { store := .startup boards members }

/-- In a run whose statements keep to one board, every idle socket is on its current board
at most, and in no presence set after its disconnect. -/
theorem oneBoard_of_keepsOneBoard (boards : Uuid → Option Uuid)
    (members : Uuid → Uuid → Option WorkspaceRole) {as : List BoardAction}
    (hg : AllSteps BoardState.step (BoardState.OnStatement World.KeepsOneBoard)
      (.startup boards members) as) :
    AllStates BoardState.step BoardState.OneBoard (.startup boards members) as := by
  intro bs s hprefix run
  have hstart : (BoardState.startup boards members).Following := by
    refine ⟨⟨?_, ?_⟩, ?_⟩
    · simp [BoardState.startup, World.startup, PresenceStore.sockets]
    · simp [BoardState.startup, World.startup]
    · simp [BoardState.startup]
  have hend : s.Following :=
    run.guarded (fun _ _ _ ht ha hstep => ht.step ha hstep) hstart (hg.shorten hprefix)
  exact hend.tracked.oneBoard

/-- Board 1 belongs to workspace 3, of which user 5 is a member. -/
def oneBoard : BoardState :=
  .startup (fun b => if b = 1 then some 3 else none)
    fun w u => if w = 3 ∧ u = 5 then some .member else none

/-- The member joins the board and disconnects. -/
def joinedThenGone : List BoardAction :=
  [.connect 8 5, .message 8 (.boardJoin 1)] ++ List.replicate 14 (.resume 0 0) ++
    [.disconnect 8] ++ List.replicate 5 (.resume 1 0)

theorem oneBoard_joinedThenGone :
    AllStates BoardState.step BoardState.OneBoard oneBoard joinedThenGone := by
  apply oneBoard_of_keepsOneBoard
  iterate 2
    refine allSteps_cons.mpr ⟨trivial, fun t ht => ?_⟩
    cases ht
  iterate 14
    refine allSteps_cons.mpr ⟨?_, fun t ht => ?_⟩
    · rintro task op next ⟨htask, hrest⟩
      cases htask
      cases hrest
      first | exact trivial | exact ⟨rfl, rfl⟩ | exact fun _ hcurrent => nomatch hcurrent
    cases ht
  refine allSteps_cons.mpr ⟨trivial, fun t ht => ?_⟩
  cases ht
  iterate 5
    refine allSteps_cons.mpr ⟨?_, fun t ht => ?_⟩
    · rintro task op next ⟨htask, hrest⟩
      cases htask
      cases hrest
      exact trivial
    cases ht
  exact allSteps_nil

/-- The member disconnects while the guard of the join looks up the membership. -/
def goneDuringJoin : List BoardAction :=
  [.connect 8 5, .message 8 (.boardJoin 1)] ++ List.replicate 3 (.resume 0 0) ++
    [.disconnect 8] ++ List.replicate 2 (.resume 1 0) ++ List.replicate 11 (.resume 0 0)

/-- The socket stays in the presence set of the board after its last handler has ended. -/
theorem goneDuringJoin_ghost :
    ¬ ∀ (boards : Uuid → Option Uuid) (members : Uuid → Uuid → Option WorkspaceRole)
      (as : List BoardAction) (s : BoardState),
      Run BoardState.step (.startup boards members) as s → s.OneBoard := by
  intro hall
  obtain ⟨s, hs⟩ : ∃ s, exec BoardState.step oneBoard goneDuringJoin = some s := ⟨_, rfl⟩
  have hone := hall _ _ goneDuringJoin s (run_of_exec hs)
  have hghost : s.store.IsConnected 8 = false ∧ 8 ∈ s.store.presence.sockets 1 := by
    cases hs
    exact ⟨rfl, by decide⟩
  have hrests : s.tasks.map (·.rest) = List.replicate 2 (.done (.ok ())) := by
    cases hs
    rfl
  have hidle : s.Idle 8 := by
    intro task htask _
    have hmem : task.rest ∈ List.replicate 2 (Program.done (.ok ())) :=
      hrests ▸ List.mem_map_of_mem htask
    exact ⟨_, List.eq_of_mem_replicate hmem⟩
  exact (hone 8 hidle).2 hghost.1 1 hghost.2

end SyncBoard.Realtime
