import SyncBoard.Realtime.OneBoard
import SyncBoard.Realtime.RoomMembers

/-!
# Who sends cursors and awareness

`handleCursor` and `handleAwareness` relay to the room that the message names, and look
at neither the rooms of the socket nor a membership. The relays stay inside a room where
its own sockets alone send, and stay until a cursor has been relayed.

## Implementation notes

A history variable records each relay with the room at that moment. A relay that
nobody receives delivers nothing.
-/

namespace SyncBoard.Realtime

open Labelled Interleaved Interleaved.Program
open Document (SocketId WorkspaceRole GatewayState DocumentRow)

/-- `board:B` and `document:D`. -/
inductive EphemeralRoom
  | board (boardId : Uuid)
  | document (documentId : Uuid)
  deriving DecidableEq, Repr

/-- A relay to a room: the socket that sent it, who was in the room and who received it. -/
structure Relay where
  sender : Option SocketId
  room : EphemeralRoom
  members : Finset SocketId
  recipients : Finset SocketId

def Frame.IsCursor : Frame → Bool
  | .boardCursor _ => true
  | _ => false

/-- The board whose room an emission goes to. -/
def Target.boardId : Target → Option Uuid
  | .room (.board boardId) | .others _ (.board boardId) => some boardId
  | _ => none

/-- The relay that an emission is, if it is a cursor. -/
def Emission.relay (sender : Option SocketId) (w : World) (e : Emission) : Option Relay :=
  if e.frame.IsCursor then
    e.target.boardId.map fun boardId =>
      { sender
        room := .board boardId
        members := w.rooms (.board boardId)
        recipients := w.recipients e.target }
  else none

/-- The relays of the statement that a handler asks. -/
def Statement.relays (sender : Option SocketId) (w : World) : Statement → List Relay
  | .emit emissions => emissions.filterMap (·.relay sender w)
  | _ => []

variable {U : Type} {workspaceOf : Uuid → Uuid}

namespace ServerState

/-- `board:cursor` and `doc:awareness`. -/
def recordRelays (relays : List Relay) (s : ServerState U) : ServerAction U → List Relay
  | .board (.resume i _) =>
      match s.board.tasks[i]? with
      | some ⟨call, _, .await op _⟩ => relays ++ op.relays call.client s.board.store
      | _ => relays
  | .awareness client documentId =>
      relays ++
        [{ sender := some client
           room := .document documentId
           members := s.document.rooms documentId
           recipients := (s.document.rooms documentId).erase client }]
  | _ => relays

/-- The server with the relays it has made. -/
abbrev relayStep [DecidableEq U] (workspaceOf : Uuid → Uuid) :
    ServerState U × List Relay → ServerAction U → Option (ServerState U × List Relay) :=
  track (ServerState.step workspaceOf) recordRelays

end ServerState

/-- What was received was sent by a socket in the room. -/
def Relay.Inside (r : Relay) : Prop :=
  r.recipients.Nonempty → ∃ client, r.sender = some client ∧ client ∈ r.members

/-- A cursor of the socket has yet to be relayed. -/
def BoardState.Pointing (s : BoardState) (client : SocketId) (boardId : Uuid) : Prop :=
  ∃ task ∈ s.tasks, task.call = .message client (.cursor boardId) ∧
    ∃ op next, task.rest = .await op next

namespace ServerState

/-- A socket sends to the rooms it is in, and stays in a room while one of its cursors
has yet to be relayed there. -/
def SendsInRooms (s : ServerState U) : ServerAction U → Prop
  | .board (.message client (.cursor boardId)) => client ∈ s.board.store.rooms (.board boardId)
  | .board (.resume i _) => ∀ task client boardId next,
      s.board.Asks i task (.leave client (.board boardId)) next → ¬ s.board.Pointing client boardId
  | .disconnect client => ∀ boardId, ¬ s.board.Pointing client boardId
  | .awareness client documentId => client ∈ s.document.rooms documentId
  | _ => True

end ServerState

/-- A cursor is sent by `handleCursor` only, to the others on its board. -/
def SendsCursors (call : BoardCall) : Statement → Prop
  | .emit emissions => ∀ e ∈ emissions, e.frame.IsCursor = true →
      ∃ client boardId, call = .message client (.cursor boardId) ∧
        e.target = .others client (.board boardId)
  | _ => True

theorem Statement.OfViewers.sendsCursors (call : BoardCall) {op : Statement} (h : op.OfViewers) :
    SendsCursors call op := by
  cases op with
  | emit emissions =>
      intro e he hcursor
      have hno := (h e he).2
      cases hframe : e.frame with
      | boardCursor user => exact absurd hframe (hno user)
      | _ => simp [Frame.IsCursor, hframe] at hcursor
  | _ => trivial

theorem Statement.OfWorkspaces.sendsCursors (call : BoardCall) {op : Statement}
    (h : op.OfWorkspaces) : SendsCursors call op := by
  cases op with
  | emit emissions =>
      intro e he hcursor
      have hno := h e he
      cases hframe : e.frame with
      | boardCursor user =>
          rw [hframe] at hno
          exact absurd trivial hno
      | _ => simp [Frame.IsCursor, hframe] at hcursor
  | _ => trivial

theorem sendsCursors_handleCursor (client : SocketId) (boardId : Uuid) :
    (BoardGateway.handleCursor client boardId).Only
      (SendsCursors (.message client (.cursor boardId))) := by
  have hviewers : ∀ op : Statement, op.OfViewers →
      SendsCursors (.message client (.cursor boardId)) op := fun _ =>
    Statement.OfViewers.sendsCursors _
  refine .bind ((only_currentUser client).imp hviewers) fun user => ?_
  refine .bind ((only_getBoardViewers boardId).imp hviewers) fun _ => .ask fun e he _ => ?_
  obtain rfl := List.mem_singleton.mp he
  exact ⟨client, boardId, rfl, rfl⟩

theorem sendsCursors_program (call : BoardCall) : call.program.Only (SendsCursors call) := by
  have hviewers : ∀ op : Statement, op.OfViewers → SendsCursors call op :=
    fun _ => Statement.OfViewers.sendsCursors call
  have hworkspaces : ∀ op : Statement, op.OfWorkspaces → SendsCursors call op :=
    fun _ => Statement.OfWorkspaces.sendsCursors call
  cases call with
  | message client received =>
      cases received with
      | boardJoin boardId => exact only_handleBoardJoin client boardId hviewers trivial
      | boardLeave boardId => exact (only_leaveBoardRoom client boardId).imp hviewers
      | heartbeat => exact (only_handleHeartbeat client).imp hviewers
      | cursor boardId => exact sendsCursors_handleCursor client boardId
      | workspaceJoin workspaceId =>
          exact (only_handleWorkspaceJoin client workspaceId).imp hworkspaces
      | workspaceLeave workspaceId =>
          exact (only_handleWorkspaceLeave client workspaceId).imp hworkspaces
  | disconnect client =>
      refine .bind (.ask trivial) fun found => .bind (.demand _ _) fun data => ?_
      refine .bind ((only_clearPresence client data).imp hviewers) fun _ => ?_
      refine .bind (.ask trivial) fun later => ?_
      exact (only_announceOffline client _ _).imp hworkspaces
  | presenceCleanup => exact only_runPresenceCleanup.imp hviewers

/-- A socket stays in a room that it does not leave. -/
theorem World.stays_answer (now : Timestamp) (op : Statement) (w : World) {client : SocketId}
    {room : Room} (h : client ∈ w.rooms room) (hop : op ≠ .leave client room) :
    client ∈ (answer now op w).2.rooms room := by
  cases op with
  | join k r => exact (w.mem_rooms_join k r client room).mpr (.inl h)
  | leave k r =>
      refine (w.mem_rooms_leave k r client room).mpr ⟨h, ?_⟩
      rintro ⟨rfl, rfl⟩
      exact hop rfl
  | emit emissions =>
      have hrooms : (answer now (.emit emissions) w).2.rooms = w.rooms := w.rooms_emit emissions
      exact hrooms ▸ h
  | _ => exact h

namespace BoardState
variable {s : BoardState} {client : SocketId} {boardId : Uuid}

theorem pointing_started {call : BoardCall} (h : (started s call).Pointing client boardId) :
    s.Pointing client boardId ∨ call = .message client (.cursor boardId) := by
  obtain ⟨task, htask, hcall, hrest⟩ := h
  rcases List.mem_append.mp htask with htask | htask
  · exact .inl ⟨task, htask, hcall, hrest⟩
  · obtain rfl := List.mem_singleton.mp htask
    exact .inr hcall

/-- A handler that goes on had a statement to ask. -/
theorem pointing_answered {i : Nat} {now : Timestamp}
    {task : Task Statement Answer WsError BoardCall} {op : Statement}
    {next : Answer op → Procedure Unit} (hasks : s.Asks i task op next)
    (h : Pointing (s.answered answer i now task op next) client boardId) :
    s.Pointing client boardId := by
  obtain ⟨task', htask', hcall, hrest⟩ := h
  rcases List.mem_or_eq_of_mem_set htask' with htask' | rfl
  · exact ⟨task', htask', hcall, hrest⟩
  · exact ⟨task, hasks.mem, hcall, op, next, hasks.2⟩

end BoardState

/-- The socket of every cursor on its way is in the room, and so are the senders of what
has been received. -/
structure RelaysInside (p : ServerState U × List Relay) : Prop where
  pointing : ∀ client boardId, p.1.board.Pointing client boardId →
    client ∈ p.1.board.store.rooms (.board boardId)
  sends : ∀ task ∈ p.1.board.tasks, task.rest.Only (SendsCursors task.call)
  relays : ∀ r ∈ p.2, r.Inside

/-- A cursor is relayed into the room of its socket. -/
theorem inside_relays {w : World} {call : BoardCall} {op : Statement} (hop : SendsCursors call op)
    (hroom : ∀ client boardId, call = .message client (.cursor boardId) →
      client ∈ w.rooms (.board boardId)) : ∀ r ∈ op.relays call.client w, r.Inside := by
  intro r hr
  cases op with
  | emit emissions =>
      obtain ⟨e, he, hrelay⟩ := List.mem_filterMap.mp hr
      unfold Emission.relay at hrelay
      split at hrelay
      · rename_i hcursor
        obtain ⟨client, boardId, rfl, htarget⟩ := hop e he hcursor
        rw [htarget] at hrelay
        cases hrelay
        exact fun _ => ⟨client, rfl, hroom client boardId rfl⟩
      · cases hrelay
  | _ => cases hr

namespace RelaysInside
variable {s s' : ServerState U} {relays : List Relay}

/-- No handler goes on, and no socket leaves a board. -/
theorem of_same (hp : RelaysInside (s, relays)) (htasks : s'.board.tasks = s.board.tasks)
    (hrooms : s'.board.store.rooms = s.board.store.rooms) : RelaysInside (s', relays) where
  pointing client boardId h := by
    have hold : s.board.Pointing client boardId := by
      simpa only [BoardState.Pointing, htasks] using h
    exact hrooms ▸ hp.pointing client boardId hold
  sends task htask := hp.sends task (htasks ▸ htask)
  relays := hp.relays

theorem started (hp : RelaysInside (s, relays)) {call : BoardCall} {w : World}
    (hrooms : ∀ client boardId, s.board.Pointing client boardId →
      client ∈ s.board.store.rooms (.board boardId) → client ∈ w.rooms (.board boardId))
    (hcall : ∀ client boardId, call = .message client (.cursor boardId) →
      client ∈ w.rooms (.board boardId)) {document : GatewayState U} :
    RelaysInside
      (({ board := BoardState.started { s.board with store := w } call, document } :
        ServerState U), relays) where
  pointing client boardId h := by
    rcases BoardState.pointing_started h with h | h
    · exact hrooms client boardId h (hp.pointing client boardId h)
    · exact hcall client boardId h
  sends task htask := by
    rcases List.mem_append.mp htask with htask | htask
    · exact hp.sends task htask
    · obtain rfl := List.mem_singleton.mp htask
      exact sendsCursors_program call
  relays := hp.relays

theorem resumed (hp : RelaysInside (s, relays)) {i : Nat} {now : Timestamp}
    {task : Task Statement Answer WsError BoardCall} {op : Statement}
    {next : Answer op → Procedure Unit} (hasks : s.board.Asks i task op next)
    (hg : s.SendsInRooms (.board (.resume i now))) :
    RelaysInside (({ s with board := s.board.answered answer i now task op next } :
      ServerState U), relays ++ op.relays task.call.client s.board.store) where
  pointing client boardId h := by
    have hold := BoardState.pointing_answered hasks h
    refine World.stays_answer now op _ (hp.pointing client boardId hold) ?_
    rintro rfl
    exact hg task client boardId next hasks hold
  sends task' htask' := by
    rcases List.mem_or_eq_of_mem_set htask' with htask' | rfl
    · exact hp.sends task' htask'
    · have hrest := hp.sends task hasks.mem
      rw [hasks.2] at hrest
      exact hrest.2 _
  relays r hr := by
    rcases List.mem_append.mp hr with hr | hr
    · exact hp.relays r hr
    · have hrest := hp.sends task hasks.mem
      rw [hasks.2] at hrest
      refine inside_relays hrest.1 (fun client boardId hcall => ?_) r hr
      exact hp.pointing client boardId ⟨task, hasks.mem, hcall, op, next, hasks.2⟩

variable [DecidableEq U]

/-- A guarded step keeps the relays inside. -/
theorem step {p p' : ServerState U × List Relay} {a : ServerAction U} (hp : RelaysInside p)
    (hg : p.1.SendsInRooms a) (h : ServerState.relayStep workspaceOf p a = some p') :
    RelaysInside p' := by
  obtain ⟨s, relays⟩ := p
  obtain ⟨s', relays'⟩ := p'
  obtain ⟨hstep, hrecord⟩ := track_eq_some.mp h
  dsimp only at hstep hrecord hg
  subst hrecord
  cases ServerState.served_of_step hstep with
  | connected => exact hp.of_same rfl rfl
  | roleSet => exact hp.of_same rfl rfl
  | boardSet => exact hp.of_same rfl rfl
  | edited => exact hp.of_same rfl rfl
  | @disconnected client hopen document hdocument =>
      refine hp.started (fun k boardId hpointing hk => ?_) fun k boardId hcall => ?_
      · refine Finset.mem_erase.mpr ⟨?_, hk⟩
        rintro rfl
        exact hg boardId hpointing
      · cases hcall
  | @received client received hopen =>
      refine hp.started (fun _ _ _ => id) fun k boardId hcall => ?_
      cases hcall
      exact hg
  | cleanup =>
      refine hp.started (fun _ _ _ => id) fun k boardId hcall => ?_
      cases hcall
  | @resumed i now task op next hasks =>
      have hrecord : ServerState.recordRelays relays s (.board (.resume i now)) =
          relays ++ op.relays task.call.client s.board.store := by
        obtain ⟨htask, hrest⟩ := hasks
        cases task
        cases hrest
        simp [ServerState.recordRelays, htask]
      rw [hrecord]
      exact hp.resumed hasks hg
  | @aware client documentId hopen =>
      refine ⟨hp.pointing, hp.sends, fun r hr => ?_⟩
      rcases List.mem_append.mp hr with hr | hr
      · exact hp.relays r hr
      · obtain rfl := List.mem_singleton.mp hr
        exact fun _ => ⟨client, rfl, hg⟩

end RelaysInside

/-- Two sockets of the member join the board, and one of them moves its cursor. -/
def cursorOnBoard : List (ServerAction Nat) :=
  [.connect 9 6, .connect 8 6, .board (.message 9 (.boardJoin 1))] ++
    List.replicate 14 (.board (.resume 0 0)) ++ [.board (.message 8 (.boardJoin 1))] ++
    List.replicate 15 (.board (.resume 1 0)) ++ [.board (.message 9 (.cursor 1))] ++
    List.replicate 5 (.board (.resume 2 0))

/-- A user who is no member of the workspace names the board of the member. -/
def cursorFromOutside : List (ServerAction Nat) :=
  [.connect 9 6, .connect 8 5, .board (.message 9 (.boardJoin 1))] ++
    List.replicate 14 (.board (.resume 0 0)) ++ [.board (.message 8 (.cursor 1))] ++
    List.replicate 5 (.board (.resume 1 0))

end SyncBoard.Realtime
