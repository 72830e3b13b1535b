import SyncBoard.Realtime.Server

/-!
# Who is in the rooms of a workspace

A guard or a handler looks up the membership before a join, and nothing looks at it
again: a socket stays in its rooms when its user is removed, and a join that has passed
its check goes on. The rooms have members only where neither happens.
-/

namespace SyncBoard.Realtime

open Labelled Interleaved
open Document (SocketId WorkspaceRole GatewayState GatewayAction DocumentRow)

namespace World

theorem mem_rooms_answer (now : Timestamp) (op : Statement) (w : World) (room : Room)
    (k : SocketId) (hk : k ∈ (answer now op w).2.rooms room) :
    k ∈ w.rooms room ∨ (op = .join k room ∧ w.IsConnected k = true) := by
  cases op with
  | join client room' =>
      rcases (w.mem_rooms_join client room' k room).mp hk with hk | ⟨rfl, rfl, hopen⟩
      · exact .inl hk
      · exact .inr ⟨rfl, hopen⟩
  | leave client room' => exact .inl ((w.mem_rooms_leave client room' k room).mp hk).1
  | emit emissions =>
      have hrooms : (answer now (.emit emissions) w).2.rooms = w.rooms := w.rooms_emit emissions
      exact .inl (hrooms ▸ hk)
  | _ => exact .inl hk

theorem userOf_answer (now : Timestamp) (op : Statement) (w : World) :
    (answer now op w).2.userOf = w.userOf := by
  funext k
  cases op with
  | setCurrentBoard client boardId =>
      apply userOf_modifySocket
      intro data
      rfl
  | setCurrentWorkspace client workspaceId =>
      apply userOf_modifySocket
      intro data
      rfl
  | resetCurrentBoard client boardId =>
      apply userOf_modifySocket
      intro data
      split <;> rfl
  | resetCurrentWorkspace client workspaceId =>
      apply userOf_modifySocket
      intro data
      split <;> rfl
  | join client room => simp [answer, userOf]
  | emit emissions => simp [answer, userOf]
  | _ => rfl

theorem members_answer (now : Timestamp) (op : Statement) (w : World) :
    (answer now op w).2.members = w.members := by
  cases op with
  | join client room => exact w.members_join client room
  | emit emissions => exact w.members_emit emissions
  | _ => rfl

end World

variable {U : Type} {workspaceOf : Uuid → Uuid}

namespace ServerState

/-- The user of the socket is a member of the workspace. -/
def IsMember (s : ServerState U) (client : SocketId) (workspaceId : Uuid) : Prop :=
  ∃ user, s.board.store.userOf client = some user ∧
    (s.board.store.members workspaceId user).isSome

/-- The rooms of a workspace: its own, those of its boards and those of its documents. -/
inductive InRoomOf (workspaceOf : Uuid → Uuid) (s : ServerState U) (client : SocketId) :
    Uuid → Prop
  | workspace {workspaceId} (h : client ∈ s.board.store.rooms (.workspace workspaceId)) :
      InRoomOf workspaceOf s client workspaceId
  | board {boardId} (h : client ∈ s.board.store.rooms (.board boardId)) :
      InRoomOf workspaceOf s client (workspaceOf boardId)
  | document {documentId workspaceId} (h : client ∈ s.document.rooms documentId)
      (hworkspace : s.document.hub.workspaceOf documentId = some workspaceId) :
      InRoomOf workspaceOf s client workspaceId

def RoomsOfMembers (workspaceOf : Uuid → Uuid) (s : ServerState U) : Prop :=
  ∀ client workspaceId, InRoomOf workspaceOf s client workspaceId →
    s.IsMember client workspaceId

/-- A statement takes only members into the rooms of boards and workspaces. -/
def JoinsAsMember (workspaceOf : Uuid → Uuid) (s : ServerState U) : Statement → Prop
  | .join client (.workspace workspaceId) =>
      s.board.store.IsConnected client = true → s.IsMember client workspaceId
  | .join client (.board boardId) =>
      s.board.store.IsConnected client = true → s.IsMember client (workspaceOf boardId)
  | _ => True

/-- Nobody is removed from a workspace with a socket in one of its rooms, and nobody
enters one who is not a member at that moment. -/
def KeepsMembers (workspaceOf : Uuid → Uuid) (s : ServerState U) : ServerAction U → Prop
  | .setRole workspaceId userId none =>
      ∀ client, s.board.store.userOf client = some userId →
        ¬ InRoomOf workspaceOf s client workspaceId
  | .board (.resume i _) =>
      ∀ task op next, s.board.Asks i task op next → s.JoinsAsMember workspaceOf op
  | .document (.resume call) =>
      ∀ client documentId workspaceId,
        s.document.calls[call]? = some (.joinLoad client documentId .resolved) →
          s.document.IsConnected client = true →
            s.document.hub.workspaceOf documentId = some workspaceId →
              s.IsMember client workspaceId
  | _ => True

variable {s s' : ServerState U}

/-- Fewer sockets in the rooms, with the members they had. -/
theorem RoomsOfMembers.shrink (hs : s.RoomsOfMembers workspaceOf)
    (hin : ∀ client W, InRoomOf workspaceOf s' client W → InRoomOf workspaceOf s client W)
    (hmember : ∀ client W, s.IsMember client W → s'.IsMember client W) :
    s'.RoomsOfMembers workspaceOf :=
  fun client W h => hmember client W (hs client W (hin client W h))

/-- Rooms that lose sockets at most. -/
theorem InRoomOf.of_subset {client : SocketId} {W : Uuid}
    (hboard : ∀ room, s'.board.store.rooms room ⊆ s.board.store.rooms room)
    (hdocument : ∀ d, s'.document.rooms d ⊆ s.document.rooms d)
    (hworkspace : s'.document.hub.workspaceOf = s.document.hub.workspaceOf)
    (h : InRoomOf workspaceOf s' client W) : InRoomOf workspaceOf s client W := by
  cases h with
  | workspace h => exact .workspace (hboard _ h)
  | board h => exact .board (hboard _ h)
  | document h hw => exact .document (hdocument _ h) (hworkspace ▸ hw)

/-- A statement keeps the rooms to members exactly if it takes only members in. -/
theorem roomsOfMembers_resumed (hs : s.RoomsOfMembers workspaceOf) {i : Nat} {now : Timestamp}
    {task : Task Statement Answer WsError BoardCall} {op : Statement}
    {next : Answer op → Procedure Unit} (hasks : s.board.Asks i task op next) :
    ({ s with board := s.board.answered answer i now task op next } :
      ServerState U).RoomsOfMembers workspaceOf ↔ s.JoinsAsMember workspaceOf op := by
  have hmember : ∀ client W, ({ s with board := s.board.answered answer i now task op next } :
      ServerState U).IsMember client W ↔ s.IsMember client W := by
    intro client W
    simp only [IsMember, Pool.answered, World.userOf_answer, World.members_answer]
  constructor
  · intro hs'
    cases op with
    | join client room =>
        have hin : ∀ room, s.board.store.IsConnected client = true →
            client ∈ (s.board.store.join client room).rooms room :=
          fun room hopen => (World.mem_rooms_join ..).mpr (.inr ⟨rfl, rfl, hopen⟩)
        cases room with
        | workspace W =>
            exact fun hopen => (hmember client W).mp (hs' client W (.workspace (hin _ hopen)))
        | board boardId =>
            exact fun hopen => (hmember client _).mp (hs' client _ (.board (hin _ hopen)))
    | _ => trivial
  · intro hop client W hin
    refine (hmember client W).mpr ?_
    cases hin with
    | workspace h =>
        rcases World.mem_rooms_answer now op _ _ client h with h | ⟨rfl, hopen⟩
        · exact hs client W (.workspace h)
        · exact hop hopen
    | board h =>
        rcases World.mem_rooms_answer now op _ _ client h with h | ⟨rfl, hopen⟩
        · exact hs client _ (.board h)
        · exact hop hopen
    | document h hw => exact hs client W (.document h hw)

/-- A change of a role keeps the rooms to members exactly if it removes nobody from a
room. -/
theorem roomsOfMembers_roleSet (hs : s.RoomsOfMembers workspaceOf) (workspaceId userId : Uuid)
    (role : Option WorkspaceRole) {document : GatewayState U}
    (hrooms : document.rooms = s.document.rooms)
    (hworkspace : document.hub.workspaceOf = s.document.hub.workspaceOf) :
    ({ board := { s.board with store := s.board.store.setRole workspaceId userId role }
       document } : ServerState U).RoomsOfMembers workspaceOf ↔
      (role = none → ∀ client, s.board.store.userOf client = some userId →
        ¬ InRoomOf workspaceOf s client workspaceId) := by
  have hin : ∀ client W, InRoomOf workspaceOf
      { board := { s.board with store := s.board.store.setRole workspaceId userId role }
        document } client W ↔ InRoomOf workspaceOf s client W := by
    intro client W
    refine ⟨.of_subset (fun _ => subset_rfl) ?_ hworkspace,
      .of_subset (fun _ => subset_rfl) ?_ hworkspace.symm⟩
    · exact fun d => (congrFun hrooms d).subset
    · exact fun d => (congrFun hrooms d).superset
  constructor
  · rintro hs' rfl client huser hroom
    obtain ⟨user, hu, hmember⟩ := hs' client workspaceId ((hin client workspaceId).mpr hroom)
    cases huser.symm.trans hu
    simp [World.setRole] at hmember
  · intro hkept client W hroom
    have hbefore := (hin client W).mp hroom
    obtain ⟨user, hu, hmember⟩ := hs client W hbefore
    refine ⟨user, hu, ?_⟩
    by_cases hself : W = workspaceId ∧ user = userId
    · obtain ⟨rfl, rfl⟩ := hself
      cases hrole : role with
      | none => exact absurd hbefore (hkept hrole client hu)
      | some r => simp [World.setRole]
    · have hother : (s.board.store.setRole workspaceId userId role).members W user =
          s.board.store.members W user := by
        by_cases hW : W = workspaceId
        · have hne : user ≠ userId := fun h => hself ⟨hW, h⟩
          simp [World.setRole, hW, hne]
        · simp [World.setRole, hW]
      exact hother ▸ hmember

variable [DecidableEq U]

theorem roomsOfMembers_edited (hs : s.RoomsOfMembers workspaceOf) {a : GatewayAction U}
    {document : GatewayState U} (h : s.document.step a = some document) :
    ({ s with document } : ServerState U).RoomsOfMembers workspaceOf ↔
      s.KeepsMembers workspaceOf (.document a) := by
  have heffect := GatewayState.roomEffect_of_step h
  have hquiet : (∀ call, a ≠ .resume call) →
      ({ s with document } : ServerState U).RoomsOfMembers workspaceOf := fun ha =>
    hs.shrink (fun _ _ => .of_subset (fun _ => subset_rfl) (heffect.subset ha) heffect.workspaceOf)
      fun _ _ => id
  cases a with
  | resume call =>
      constructor
      · intro hs' client d W hcall hopen hw
        have hroom := GatewayState.mem_rooms_of_joinLoad hcall hopen h
        exact hs' client W (.document hroom (heffect.workspaceOf ▸ hw))
      · intro hkept client W hin
        cases hin with
        | workspace h => exact hs client W (.workspace h)
        | board h => exact hs client _ (.board h)
        | @document d _ h hw =>
            have hw : s.document.hub.workspaceOf d = some W := heffect.workspaceOf ▸ hw
            rcases heffect.rooms d client h with h | ⟨call', hresume, hcall, hopen⟩
            · exact hs client W (.document h hw)
            · cases hresume
              exact hkept client d W hcall hopen hw
  | _ => exact iff_of_true (hquiet nofun) trivial

/-- An action keeps the rooms to members exactly if it removes nobody from a room, and
takes only members in. -/
theorem roomsOfMembers_step (hs : s.RoomsOfMembers workspaceOf) {a : ServerAction U}
    (h : s.step workspaceOf a = some s') :
    s'.RoomsOfMembers workspaceOf ↔ s.KeepsMembers workspaceOf a := by
  cases served_of_step h with
  | @connected client user hnew document hdocument =>
      have heffect := GatewayState.roomEffect_of_step hdocument
      refine iff_of_true (hs.shrink (fun _ _ => .of_subset (fun _ => subset_rfl)
        (heffect.subset fun _ hresume => by cases hresume) heffect.workspaceOf) ?_) trivial
      rintro k W ⟨u, hu, hmember⟩
      have hne : k ≠ client := by
        rintro rfl
        simp [World.userOf, hnew] at hu
      refine ⟨u, ?_, hmember⟩
      simpa [World.connect, World.userOf, hne] using hu
  | @disconnected client hopen document hdocument =>
      have heffect := GatewayState.roomEffect_of_step hdocument
      refine iff_of_true (hs.shrink (fun _ _ => .of_subset (fun room => ?_)
        (heffect.subset fun _ hresume => by cases hresume) heffect.workspaceOf) ?_) trivial
      · exact Finset.erase_subset client (s.board.store.rooms room)
      · rintro k W ⟨u, hu, hmember⟩
        refine ⟨u, ?_, hmember⟩
        exact (congrFun (s.board.store.userOf_close client) k).trans hu
  | @roleSet workspaceId userId role document hdocument =>
      have hsame : document.rooms = s.document.rooms ∧ document.hub = s.document.hub := by
        cases hdocument
        exact ⟨rfl, rfl⟩
      have hworkspace : document.hub.workspaceOf = s.document.hub.workspaceOf := by rw [hsame.2]
      refine (roomsOfMembers_roleSet hs workspaceId userId role hsame.1 hworkspace).trans ?_
      cases role with
      | none => exact ⟨fun h => h rfl, fun h _ => h⟩
      | some r => exact iff_of_true (fun hrole => by cases hrole) trivial
  | boardSet =>
      exact iff_of_true (hs.shrink (fun _ _ => .of_subset (fun _ => subset_rfl)
        (fun _ => subset_rfl) rfl) fun _ _ => id) trivial
  | received =>
      exact iff_of_true (hs.shrink (fun _ _ => .of_subset (fun _ => subset_rfl)
        (fun _ => subset_rfl) rfl) fun _ _ => id) trivial
  | cleanup =>
      exact iff_of_true (hs.shrink (fun _ _ => .of_subset (fun _ => subset_rfl)
        (fun _ => subset_rfl) rfl) fun _ _ => id) trivial
  | @resumed i now task op next hasks =>
      rw [roomsOfMembers_resumed hs hasks]
      constructor
      · intro hop task' op' next' hasks'
        obtain ⟨rfl, rfl⟩ := hasks.unique hasks'
        exact hop
      · exact fun hkept => hkept task op next hasks
  | edited hown hdocument => exact roomsOfMembers_edited hs hdocument
  | aware => exact iff_of_true hs trivial

end ServerState

/-- A server without sockets, whose boards are in their workspaces. -/
def ServerState.startup (workspaceOf : Uuid → Uuid) (active : Uuid → Bool)
    (rows : Uuid → Option (DocumentRow U)) (members : Uuid → Uuid → Option WorkspaceRole) :
    ServerState U where
  board :=
    { store := .startup (fun b => if active b then some (workspaceOf b) else none) members }
  document := { hub := .startup rows, members := members }

/-- In every run of both gateways, all rooms of a workspace have members only in every
state exactly if no socket of a user who is removed is in one of them, and no join goes
on whose user is not a member at that moment. -/
theorem roomsOfMembers_iff [DecidableEq U] (workspaceOf : Uuid → Uuid) (active : Uuid → Bool)
    (rows : Uuid → Option (DocumentRow U)) (members : Uuid → Uuid → Option WorkspaceRole)
    {as : List (ServerAction U)} {s : ServerState U}
    (run : Run (ServerState.step workspaceOf) (.startup workspaceOf active rows members) as s) :
    AllStates (ServerState.step workspaceOf) (ServerState.RoomsOfMembers workspaceOf)
        (.startup workspaceOf active rows members) as ↔
      AllSteps (ServerState.step workspaceOf) (ServerState.KeepsMembers workspaceOf)
        (.startup workspaceOf active rows members) as := by
  apply allStates_iff_allSteps (I := fun _ => True) (fun _ _ _ _ _ => trivial) _ run trivial
  · intro client W hin
    cases hin with
    | workspace h => exact absurd h (Finset.notMem_empty client)
    | board h => exact absurd h (Finset.notMem_empty client)
    | document h => exact absurd h (Finset.notMem_empty client)
  · exact fun _ _ _ _ hs hstep => ServerState.roomsOfMembers_step hs hstep

/-- Workspace 3 has user 6, and board 1. -/
def oneMember : ServerState Nat :=
  .startup (fun _ => 3) (fun b => b == 1) (fun _ => none)
    fun w u => if w = 3 ∧ u = 6 then some .member else none

/-- The member joins the room of the workspace, leaves it and is removed. -/
def leftThenRemoved : List (ServerAction Nat) :=
  [.connect 9 6, .board (.message 9 (.workspaceJoin 3))] ++
    List.replicate 7 (.board (.resume 0 0)) ++ [.board (.message 9 (.workspaceLeave 3))] ++
    List.replicate 2 (.board (.resume 1 0)) ++ [.setRole 3 6 none]

theorem roomsOfMembers_leftThenRemoved :
    AllStates (ServerState.step fun _ => 3) (ServerState.RoomsOfMembers fun _ => 3) oneMember
      leftThenRemoved := by
  obtain ⟨s, hs⟩ : ∃ s, exec (ServerState.step fun _ => 3) oneMember leftThenRemoved = some s :=
    ⟨_, rfl⟩
  refine (roomsOfMembers_iff _ _ _ _ (run_of_exec hs)).mpr ?_
  iterate 2
    refine allSteps_cons.mpr ⟨trivial, fun t ht => ?_⟩
    cases ht
  iterate 7
    refine allSteps_cons.mpr ⟨?_, fun t ht => ?_⟩
    · rintro task op next ⟨htask, hrest⟩
      cases htask
      cases hrest
      first | exact trivial | exact fun _ => ⟨6, rfl, rfl⟩
    cases ht
  refine allSteps_cons.mpr ⟨trivial, fun t ht => ?_⟩
  cases ht
  iterate 2
    refine allSteps_cons.mpr ⟨?_, fun t ht => ?_⟩
    · rintro task op next ⟨htask, hrest⟩
      cases htask
      cases hrest
      exact trivial
    cases ht
  refine allSteps_cons.mpr ⟨fun client _ hin => ?_, fun t ht => ?_⟩
  · cases hin with
    | workspace h =>
        obtain ⟨hne, hmem⟩ := Finset.mem_erase.mp h
        exact hne (Finset.mem_singleton.mp hmem)
    | board h => exact absurd h (Finset.notMem_empty client)
    | document h => exact absurd h (Finset.notMem_empty client)
  cases ht
  exact allSteps_nil

/-- The member is removed while in the room. -/
def removedWhileJoined : List (ServerAction Nat) :=
  [.connect 9 6, .board (.message 9 (.workspaceJoin 3))] ++
    List.replicate 7 (.board (.resume 0 0)) ++ [.setRole 3 6 none]

theorem removedWhileJoined_stays :
    ¬ ∀ (workspaceOf : Uuid → Uuid) (active : Uuid → Bool)
      (rows : Uuid → Option (DocumentRow Nat)) (members : Uuid → Uuid → Option WorkspaceRole)
      (as : List (ServerAction Nat)) (s : ServerState Nat),
      Run (ServerState.step workspaceOf) (.startup workspaceOf active rows members) as s →
        s.RoomsOfMembers workspaceOf := by
  intro hall
  obtain ⟨s, hs⟩ :
      ∃ s, exec (ServerState.step fun _ => 3) oneMember removedWhileJoined = some s := ⟨_, rfl⟩
  have hmembers := hall _ _ _ _ removedWhileJoined s (run_of_exec hs)
  cases hs
  obtain ⟨user, huser, hmember⟩ := hmembers 9 3 (.workspace (by decide))
  cases huser
  exact absurd hmember (by decide)

end SyncBoard.Realtime
