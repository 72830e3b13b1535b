import SyncBoard.Realtime.Presence

/-!
# The board gateway

The handlers of `BoardGateway` with their guards, as programs that interleave at
their awaits, and the system they run in: sockets connect, send messages in any
order and disconnect, roles and boards change, and the presence cleanup runs now
and then.

## Implementation notes

A message reaches its handler after `WsAuthGuard`, so its socket has a user.
Messages that the rate limiter or the validation pipe drops do not arrive.
-/

namespace SyncBoard.Realtime

open Interleaved Interleaved.Program
open Document (SocketId WorkspaceRole)

namespace BoardGateway

/-- The user of the socket, from `client.data`. -/
def currentUser (client : SocketId) : Procedure Uuid := do
  let data ← ask (Statement.data client)
  let data ← demand data .tokenInvalid
  return data.user

/-- `WsBoardAccessGuard`. -/
def boardAccessGuard (boardId userId : Uuid) : Procedure Unit := do
  let board ← ask (Statement.findBoard boardId)
  let workspaceId ← demand board .boardNotFound
  let isMember ← ask (Statement.findMember workspaceId userId)
  refuseIf (!isMember) .boardAccessDenied

/-- `WsWorkspaceMemberGuard`. -/
def workspaceMemberGuard (workspaceId userId : Uuid) : Procedure Unit := do
  let isMember ← ask (Statement.findMember workspaceId userId)
  refuseIf (!isMember) .boardAccessDenied

/-- `board:presence` to the other viewers, where an entry was removed. -/
def announceLeft (target : Target) (removed : Option PresenceEntry) (data : Option SocketData) :
    Procedure Unit :=
  match removed, data with
  | some _, some data => ask (Statement.emit [⟨target, .boardPresence data.user .left⟩])
  | _, _ => pure ()

def leaveBoardRoom (client : SocketId) (boardId : Uuid) : Procedure Unit := do
  let data ← ask (Statement.data client)
  ask (Statement.leave client (.board boardId))
  let removed ← PresenceService.removePresence boardId client
  announceLeft (.others client (.board boardId)) removed data
  ask (Statement.resetCurrentBoard client boardId)

/-- Leave the board that a join switches from. -/
def leavePreviousBoard (client : SocketId) (boardId : Uuid) (current : Option Uuid) :
    Procedure Unit :=
  match current with
  | some current => if current = boardId then pure () else leaveBoardRoom client current
  | none => pure ()

def handleBoardJoin (client : SocketId) (boardId : Uuid) : Procedure Unit := do
  let user ← currentUser client
  boardAccessGuard boardId user
  let data ← ask (Statement.data client)
  leavePreviousBoard client boardId (data.bind (·.currentBoardId))
  ask (Statement.join client (.board boardId))
  ask (Statement.setCurrentBoard client boardId)
  -- `getCollaboratorColor` reads the viewers
  let _ ← PresenceService.getBoardViewers boardId
  PresenceService.addPresence boardId { userId := user, socketId := client }
  let viewers ← PresenceService.getBoardViewers boardId
  ask (Statement.emit [⟨.client client, .boardJoined boardId viewers⟩,
    ⟨.others client (.board boardId), .boardPresence user .joined⟩])

def handleBoardLeave (client : SocketId) (boardId : Uuid) : Procedure Unit :=
  leaveBoardRoom client boardId

def handleHeartbeat (client : SocketId) : Procedure Unit := do
  let data ← ask (Statement.data client)
  match data.bind (·.currentBoardId) with
  | some currentBoardId => PresenceService.updateHeartbeat currentBoardId client
  | none => pure ()

def handleCursor (client : SocketId) (boardId : Uuid) : Procedure Unit := do
  let user ← currentUser client
  let _ ← PresenceService.getBoardViewers boardId
  ask (Statement.emit [⟨.others client (.board boardId), .boardCursor user⟩])

/-- Leave the room of the workspace that a join switches from. -/
def leavePreviousWorkspace (client : SocketId) (workspaceId : Uuid) (previous : Option Uuid) :
    Procedure Unit :=
  match previous with
  | some previous =>
      if previous = workspaceId then pure ()
      else ask (Statement.leave client (.workspace previous))
  | none => pure ()

def handleWorkspaceJoin (client : SocketId) (workspaceId : Uuid) : Procedure Unit := do
  let user ← currentUser client
  workspaceMemberGuard workspaceId user
  let data ← ask (Statement.data client)
  leavePreviousWorkspace client workspaceId (data.bind (·.currentWorkspaceId))
  ask (Statement.join client (.workspace workspaceId))
  ask (Statement.setCurrentWorkspace client workspaceId)
  let roomSockets ← ask (Statement.fetchSockets (.workspace workspaceId))
  ask (Statement.emit [⟨.client client, .workspaceJoined workspaceId (roomSockets.image (·.2))⟩,
    ⟨.others client (.workspace workspaceId), .memberOnline user⟩])

def handleWorkspaceLeave (client : SocketId) (workspaceId : Uuid) : Procedure Unit := do
  ask (Statement.leave client (.workspace workspaceId))
  ask (Statement.resetCurrentWorkspace client workspaceId)

/-- The board part of `handleDisconnect`. -/
def clearPresence (client : SocketId) (data : SocketData) : Procedure Unit :=
  match data.currentBoardId with
  | some currentBoardId => do
      let removed ← PresenceService.removePresence currentBoardId client
      announceLeft (.room (.board currentBoardId)) removed (some data)
  | none => pure ()

/-- The workspace part of `handleDisconnect`. -/
def announceOffline (client : SocketId) (user : Uuid) (current : Option Uuid) : Procedure Unit :=
  match current with
  | some workspaceId => do
      let sockets ← ask (Statement.fetchSockets (.workspace workspaceId))
      let userHasOtherSockets := decide (∃ s ∈ sockets, s.1 ≠ client ∧ s.2 = user)
      doIf (!userHasOtherSockets)
        (ask (Statement.emit [⟨.room (.workspace workspaceId), .memberOffline user⟩]))
  | none => pure ()

def handleDisconnect (client : SocketId) : Procedure Unit := do
  let data ← ask (Statement.data client)
  let data ← demand data .tokenInvalid
  clearPresence client data
  let later ← ask (Statement.data client)
  announceOffline client data.user (later.bind (·.currentWorkspaceId))

def runPresenceCleanup : Procedure Unit := do
  let pruned ← PresenceService.cleanupStaleEntries
  ask (Statement.emit (pruned.map fun entry =>
    ⟨.room (.board entry.1), .boardPresence entry.2.userId .left⟩))

end BoardGateway

/-- The frames of boards. -/
def Frame.OfBoards : Frame → Prop
  | .boardJoined _ _ | .boardPresence _ _ | .boardCursor _ => True
  | _ => False

/-- The statements of the board handlers, apart from joining a room. -/
def Statement.OfBoards : Statement → Prop
  | .join _ _ | .leave _ (.workspace _) | .setCurrentWorkspace _ _
  | .resetCurrentWorkspace _ _ => False
  | .emit emissions => ∀ e ∈ emissions, e.frame.OfBoards
  | _ => True

/-- The same, where no cursor is sent. -/
def Statement.OfViewers : Statement → Prop
  | .emit emissions => ∀ e ∈ emissions, e.frame.OfBoards ∧ ∀ user, e.frame ≠ .boardCursor user
  | op => op.OfBoards

theorem Statement.OfViewers.ofBoards {op : Statement} (h : op.OfViewers) : op.OfBoards := by
  cases op with
  | emit emissions => exact fun e he => (h e he).1
  | _ => exact h

/-- The statements of the workspace handlers. -/
def Statement.OfWorkspaces : Statement → Prop
  | .findMember _ _ | .data _ | .setCurrentWorkspace _ _ | .resetCurrentWorkspace _ _
  | .join _ (.workspace _) | .leave _ (.workspace _) | .fetchSockets _ => True
  | .emit emissions => ∀ e ∈ emissions, ¬ e.frame.OfBoards
  | _ => False

section Programs
variable (client : SocketId) (boardId workspaceId user : Uuid)

theorem only_addPresence (entry : PresenceEntry) :
    (PresenceService.addPresence boardId entry).Only Statement.OfViewers :=
  .bind (.ask trivial) fun _ => .ask trivial

theorem only_removePresence :
    (PresenceService.removePresence boardId client).Only Statement.OfViewers :=
  .bind (.ask trivial) fun _ => .bind (.doIf _ (.ask trivial)) fun _ => .pure _

theorem only_getBoardViewers :
    (PresenceService.getBoardViewers boardId).Only Statement.OfViewers := by
  refine .bind (.ask trivial) fun _ => .bind (.ask trivial) fun _ => ?_
  split
  · exact .pure _
  · exact .bind (.ask trivial) fun _ => .pure _

theorem only_cleanupStaleEntries :
    PresenceService.cleanupStaleEntries.Only Statement.OfViewers := by
  refine .bind (.ask trivial) fun activeBoardIds => ?_
  split
  · exact .pure _
  · refine .bind (.ask trivial) fun now => .bind (.ask trivial) fun checkResults => ?_
    dsimp only
    split
    · exact .pure _
    · exact .bind (.ask trivial) fun _ => .bind (.doIf _ (.ask trivial)) fun _ => .pure _

theorem only_currentUser : (BoardGateway.currentUser client).Only Statement.OfViewers :=
  .bind (.ask trivial) fun _ => .bind (.demand _ _) fun _ => .pure _

theorem only_boardAccessGuard :
    (BoardGateway.boardAccessGuard boardId user).Only Statement.OfViewers :=
  .bind (.ask trivial) fun _ => .bind (.demand _ _) fun _ =>
    .bind (.ask trivial) fun _ => .refuseIf _ _

theorem only_announceLeft (target : Target) (removed : Option PresenceEntry)
    (data : Option SocketData) :
    (BoardGateway.announceLeft target removed data).Only Statement.OfViewers := by
  unfold BoardGateway.announceLeft
  split
  · refine .ask fun e he => ?_
    obtain rfl := List.mem_singleton.mp he
    exact ⟨trivial, nofun⟩
  · exact .pure _

theorem only_leaveBoardRoom :
    (BoardGateway.leaveBoardRoom client boardId).Only Statement.OfViewers :=
  .bind (.ask trivial) fun _ => .bind (.ask trivial) fun _ =>
    .bind (only_removePresence client boardId) fun _ =>
      .bind (only_announceLeft _ _ _) fun _ => .ask trivial

theorem only_leavePreviousBoard (current : Option Uuid) :
    (BoardGateway.leavePreviousBoard client boardId current).Only Statement.OfViewers := by
  unfold BoardGateway.leavePreviousBoard
  split
  · split
    · exact .pure _
    · exact only_leaveBoardRoom client _
  · exact .pure _

theorem only_handleHeartbeat :
    (BoardGateway.handleHeartbeat client).Only Statement.OfViewers := by
  refine .bind (.ask trivial) fun data => ?_
  split
  · exact .bind (.ask trivial) fun _ => .ask trivial
  · exact .pure _

theorem only_handleCursor :
    (BoardGateway.handleCursor client boardId).Only Statement.OfBoards := by
  have hboards : ∀ op : Statement, op.OfViewers → op.OfBoards := fun _ =>
    Statement.OfViewers.ofBoards
  refine .bind ((only_currentUser client).imp hboards) fun user => ?_
  refine .bind ((only_getBoardViewers boardId).imp hboards) fun _ => .ask fun e he => ?_
  obtain rfl := List.mem_singleton.mp he
  trivial

theorem only_clearPresence (data : SocketData) :
    (BoardGateway.clearPresence client data).Only Statement.OfViewers := by
  unfold BoardGateway.clearPresence
  split
  · exact .bind (only_removePresence client _) fun _ => only_announceLeft _ _ _
  · exact .pure _

theorem only_runPresenceCleanup :
    BoardGateway.runPresenceCleanup.Only Statement.OfViewers := by
  refine .bind only_cleanupStaleEntries fun pruned => .ask fun e he => ?_
  obtain ⟨entry, -, rfl⟩ := List.mem_map.mp he
  exact ⟨trivial, nofun⟩

/-- Entering the room is the one statement of a join that the other handlers do not ask. -/
theorem only_handleBoardJoin {kind : Statement → Prop} (hviewers : ∀ op, op.OfViewers → kind op)
    (hjoin : kind (.join client (.board boardId))) :
    (BoardGateway.handleBoardJoin client boardId).Only kind := by
  refine .bind ((only_currentUser client).imp hviewers) fun user => ?_
  refine .bind ((only_boardAccessGuard boardId user).imp hviewers) fun _ => ?_
  refine .bind (.ask (hviewers _ trivial)) fun data => ?_
  refine .bind ((only_leavePreviousBoard client boardId _).imp hviewers) fun _ => ?_
  refine .bind (.ask hjoin) fun _ => .bind (.ask (hviewers _ trivial)) fun _ => ?_
  refine .bind ((only_getBoardViewers boardId).imp hviewers) fun _ => ?_
  refine .bind ((only_addPresence boardId _).imp hviewers) fun _ => ?_
  refine .bind ((only_getBoardViewers boardId).imp hviewers) fun viewers => .ask (hviewers _ ?_)
  intro e he
  rcases List.mem_cons.mp he with rfl | he
  · exact ⟨trivial, nofun⟩
  · obtain rfl := List.mem_singleton.mp he
    exact ⟨trivial, nofun⟩

theorem only_handleWorkspaceJoin :
    (BoardGateway.handleWorkspaceJoin client workspaceId).Only Statement.OfWorkspaces := by
  refine .bind (.bind (.ask trivial) fun _ => .bind (.demand _ _) fun _ => .pure _) fun user => ?_
  refine .bind (.bind (.ask trivial) fun _ => .refuseIf _ _) fun _ => ?_
  refine .bind (.ask trivial) fun data => .bind ?_ fun _ => ?_
  · unfold BoardGateway.leavePreviousWorkspace
    split
    · split
      · exact .pure _
      · exact .ask trivial
    · exact .pure _
  · refine .bind (.ask trivial) fun _ => .bind (.ask trivial) fun _ => ?_
    refine .bind (.ask trivial) fun _ => .ask fun e he => ?_
    rcases List.mem_cons.mp he with rfl | he
    · exact id
    · obtain rfl := List.mem_singleton.mp he
      exact id

theorem only_handleWorkspaceLeave :
    (BoardGateway.handleWorkspaceLeave client workspaceId).Only Statement.OfWorkspaces :=
  .bind (.ask trivial) fun _ => .ask trivial

theorem only_announceOffline (current : Option Uuid) :
    (BoardGateway.announceOffline client user current).Only Statement.OfWorkspaces := by
  unfold BoardGateway.announceOffline
  split
  · refine .bind (.ask trivial) fun _ => .doIf _ (.ask fun e he => ?_)
    obtain rfl := List.mem_singleton.mp he
    exact id
  · exact .pure _

end Programs

/-- What a client sends. -/
inductive Message
  | boardJoin (boardId : Uuid)
  | boardLeave (boardId : Uuid)
  | heartbeat
  | cursor (boardId : Uuid)
  | workspaceJoin (workspaceId : Uuid)
  | workspaceLeave (workspaceId : Uuid)
  deriving DecidableEq, Repr

inductive BoardCall
  | message (client : SocketId) (message : Message)
  | disconnect (client : SocketId)
  | presenceCleanup
  deriving DecidableEq, Repr

def Message.program (client : SocketId) : Message → Procedure Unit
  | .boardJoin boardId => BoardGateway.handleBoardJoin client boardId
  | .boardLeave boardId => BoardGateway.handleBoardLeave client boardId
  | .heartbeat => BoardGateway.handleHeartbeat client
  | .cursor boardId => BoardGateway.handleCursor client boardId
  | .workspaceJoin workspaceId => BoardGateway.handleWorkspaceJoin client workspaceId
  | .workspaceLeave workspaceId => BoardGateway.handleWorkspaceLeave client workspaceId

def BoardCall.program : BoardCall → Procedure Unit
  | .message client received => received.program client
  | .disconnect client => BoardGateway.handleDisconnect client
  | .presenceCleanup => BoardGateway.runPresenceCleanup

/-- The world and the handlers that have started. -/
abbrev BoardState := Pool Statement Answer WsError BoardCall World

inductive BoardAction
  | connect (client : SocketId) (user : Uuid)
  | setRole (workspaceId userId : Uuid) (role : Option WorkspaceRole)
  | changeBoard (boardId : Uuid) (workspaceId : Option Uuid)
  | message (client : SocketId) (message : Message)
  | disconnect (client : SocketId)
  | presenceCleanup
  | resume (task : Nat) (now : Timestamp)

namespace World

def connect (w : World) (client : SocketId) (user : Uuid) : World :=
  { w with sockets := Function.update w.sockets client (some { user }) }

def setRole (w : World) (workspaceId userId : Uuid) (role : Option WorkspaceRole) : World :=
  { w with
    members := Function.update w.members workspaceId
      (Function.update (w.members workspaceId) userId role) }

/-- A board is created or restored in a workspace, or archived or deleted. -/
def changeBoard (w : World) (boardId : Uuid) (workspaceId : Option Uuid) : World :=
  { w with boards := Function.update w.boards boardId workspaceId }

end World

namespace BoardState

def step (s : BoardState) : BoardAction → Option BoardState
  | .connect client user =>
      if (s.store.sockets client).isSome then none
      else some { s with store := s.store.connect client user }
  | .setRole workspaceId userId role =>
      some { s with store := s.store.setRole workspaceId userId role }
  | .changeBoard boardId workspaceId =>
      some { s with store := s.store.changeBoard boardId workspaceId }
  | .message client message =>
      if s.store.IsConnected client then
        Pool.step answer BoardCall.program s (.start (.message client message))
      else none
  | .disconnect client =>
      if s.store.IsConnected client then
        Pool.step answer BoardCall.program { s with store := s.store.close client }
          (.start (.disconnect client))
      else none
  | .presenceCleanup => Pool.step answer BoardCall.program s (.start .presenceCleanup)
  | .resume task now => Pool.step answer BoardCall.program s (.resume task now)

/-- The state after a call has started. -/
def started (s : BoardState) (call : BoardCall) : BoardState :=
  { s with tasks := s.tasks ++ [⟨call, [], call.program⟩] }

/-- Everything one action can do. -/
inductive Moved (s : BoardState) : BoardAction → BoardState → Prop
  | connected {client user} (hnew : s.store.sockets client = none) :
      Moved s (.connect client user) { s with store := s.store.connect client user }
  | roleSet {workspaceId userId role} : Moved s (.setRole workspaceId userId role)
      { s with store := s.store.setRole workspaceId userId role }
  | boardChanged {boardId workspaceId} : Moved s (.changeBoard boardId workspaceId)
      { s with store := s.store.changeBoard boardId workspaceId }
  | received {client message} (hopen : s.store.IsConnected client = true) :
      Moved s (.message client message) (started s (.message client message))
  | disconnected {client} (hopen : s.store.IsConnected client = true) :
      Moved s (.disconnect client)
        (started { s with store := s.store.close client } (.disconnect client))
  | cleanup : Moved s .presenceCleanup (started s .presenceCleanup)
  | resumed {i now task op next} (hasks : s.Asks i task op next) :
      Moved s (.resume i now) (s.answered answer i now task op next)

theorem moved_of_step {s s' : BoardState} {a : BoardAction} (h : s.step a = some s') :
    Moved s a s' := by
  cases a with
  | connect client user =>
      simp only [step] at h
      split at h
      · cases h
      · rename_i hnew
        cases h
        exact .connected (Option.not_isSome_iff_eq_none.mp hnew)
  | setRole => cases h; exact .roleSet
  | changeBoard => cases h; exact .boardChanged
  | message client received =>
      simp only [step] at h
      split at h
      · cases h; exact .received ‹_›
      · cases h
  | disconnect client =>
      simp only [step] at h
      split at h
      · cases h; exact .disconnected ‹_›
      · cases h
  | presenceCleanup => cases h; exact .cleanup
  | resume i now =>
      have hresume : Pool.step answer BoardCall.program s (.resume i now) = some s' := h
      obtain ⟨task, op, next, hasks, rfl⟩ := Pool.step_resume.mp hresume
      exact .resumed hasks

/-- A condition on the statement that an action answers. -/
def OnStatement (cond : World → Statement → Prop) (s : BoardState) : BoardAction → Prop
  | .resume i _ => ∀ task op next, s.Asks i task op next → cond s.store op
  | _ => True

end BoardState

end SyncBoard.Realtime
