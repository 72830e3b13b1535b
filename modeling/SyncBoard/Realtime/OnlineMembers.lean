import SyncBoard.Realtime.Turns

/-!
# Who is online in a workspace

A client in a workspace room replays `workspace:joined`, `workspace:member-online` and
`workspace:member-offline`. A disconnect looks for other sockets of the user and
announces the user as offline when there are none. Leaving the room, and switching to
another workspace, announce nothing: they are silent only where the user stays.
-/

namespace SyncBoard.Realtime

open Labelled Interleaved Interleaved.Program
open Document (SocketId WorkspaceRole)

/-- How a client updates its online members. -/
def applyOnline (online : Finset Uuid) : Frame → Finset Uuid
  | .workspaceJoined _ onlineMembers => onlineMembers
  | .memberOnline userId => insert userId online
  | .memberOffline userId => online.erase userId
  | _ => online

theorem applyOnline_of_ofBoards {frame : Frame} (h : frame.OfBoards) (online : Finset Uuid) :
    applyOnline online frame = online := by
  cases frame with
  | boardJoined => rfl
  | boardPresence => rfl
  | boardCursor => rfl
  | workspaceJoined => exact h.elim
  | memberOnline => exact h.elim
  | memberOffline => exact h.elim

namespace World

def onlineMembers (w : World) (client : SocketId) : Finset Uuid :=
  w.replayed applyOnline ∅ client

/-- Every socket in the room shows the users of the sockets in the room. -/
def OnlineIn (w : World) (workspaceId : Uuid) : Prop :=
  ∀ k ∈ w.rooms (.workspace workspaceId), ∀ u,
    u ∈ w.onlineMembers k ↔ ∃ j ∈ w.rooms (.workspace workspaceId), w.userOf j = some u

def OnlineShown (w : World) : Prop :=
  ∀ workspaceId, w.OnlineIn workspaceId

/-- If the socket is in the room together with others, its user has another socket
there. -/
def StaysOnline (w : World) (client : SocketId) (workspaceId : Uuid) : Prop :=
  client ∈ w.rooms (.workspace workspaceId) →
    (∃ k ∈ w.rooms (.workspace workspaceId), k ≠ client) →
      ∃ j ∈ w.rooms (.workspace workspaceId), j ≠ client ∧ w.userOf j = w.userOf client

/-- The turns that take a socket out of a workspace room without an announcement leave
its user online there. -/
def KeepsOnline (w : World) : Turn → Prop
  | .message client (.workspaceLeave workspaceId) _ => w.StaysOnline client workspaceId
  | .message client (.workspaceJoin workspaceId) _ =>
      (∃ user, w.userOf client = some user ∧ (w.members workspaceId user).isSome) →
        ∀ previous, w.currentWorkspace client = some previous → previous ≠ workspaceId →
          w.StaysOnline client previous
  | _ => True

/-- A socket is in the room of its current workspace at most. -/
def InCurrentWorkspace (w : World) : Prop :=
  ∀ workspaceId, ∀ k ∈ w.rooms (.workspace workspaceId),
    w.IsConnected k = true ∧ w.currentWorkspace k = some workspaceId

/-- Nothing that concerns workspaces has changed. -/
structure SameWorkspaces (w w' : World) : Prop where
  rooms : ∀ workspaceId, w'.rooms (.workspace workspaceId) = w.rooms (.workspace workspaceId)
  userOf : w'.userOf = w.userOf
  isConnected : w'.IsConnected = w.IsConnected
  currentWorkspace : w'.currentWorkspace = w.currentWorkspace
  onlineMembers : w'.onlineMembers = w.onlineMembers

namespace SameWorkspaces
variable {w w' w'' : World}

theorem refl (w : World) : SameWorkspaces w w :=
  ⟨fun _ => rfl, rfl, rfl, rfl, rfl⟩

theorem trans (h : SameWorkspaces w w') (h' : SameWorkspaces w' w'') : SameWorkspaces w w'' where
  rooms workspaceId := (h'.rooms workspaceId).trans (h.rooms workspaceId)
  userOf := h'.userOf.trans h.userOf
  isConnected := h'.isConnected.trans h.isConnected
  currentWorkspace := h'.currentWorkspace.trans h.currentWorkspace
  onlineMembers := h'.onlineMembers.trans h.onlineMembers

theorem inCurrentWorkspace (h : SameWorkspaces w w') (hw : w.InCurrentWorkspace) :
    w'.InCurrentWorkspace := by
  intro workspaceId k hk
  rw [h.rooms] at hk
  rw [h.isConnected, h.currentWorkspace]
  exact hw workspaceId k hk

theorem onlineShown (h : SameWorkspaces w w') (hw : w.OnlineShown) : w'.OnlineShown := by
  intro workspaceId k hk u
  rw [h.rooms] at hk ⊢
  rw [h.onlineMembers, h.userOf]
  exact hw workspaceId k hk u

theorem modifySocket {f : SocketData → SocketData} (huser : ∀ data, (f data).user = data.user)
    (hconnected : ∀ data, (f data).connected = data.connected)
    (hcurrent : ∀ data, (f data).currentWorkspaceId = data.currentWorkspaceId) (w : World)
    (client : SocketId) : SameWorkspaces w (w.modifySocket client f) where
  rooms _ := rfl
  userOf := funext (userOf_modifySocket huser w client)
  isConnected := funext (isConnected_modifySocket hconnected w client)
  currentWorkspace := funext (currentWorkspace_modifySocket hcurrent w client)
  onlineMembers := rfl

theorem emit {es : List Emission} (hes : ∀ e ∈ es, e.frame.OfBoards) (w : World) :
    SameWorkspaces w (es.foldl deliver w) where
  rooms _ := by rw [rooms_emit]
  userOf := by
    funext k
    simp [World.userOf]
  isConnected := by
    funext k
    simp [World.IsConnected]
  currentWorkspace := by
    funext k
    simp [World.currentWorkspace]
  onlineMembers :=
    funext (replayed_emit applyOnline ∅ (fun e he r => applyOnline_of_ofBoards (hes e he) r) w)

end SameWorkspaces
end World

/-- The statements of the board handlers, with joining a board room. -/
def Statement.OnBoards : Statement → Prop
  | .join _ (.board _) => True
  | op => op.OfBoards

theorem Statement.OfBoards.onBoards {op : Statement} (h : op.OfBoards) : op.OnBoards := by
  cases op with
  | join k room => exact h.elim
  | _ => exact h

theorem Statement.OfViewers.onBoards {op : Statement} (h : op.OfViewers) : op.OnBoards :=
  h.ofBoards.onBoards

open World in
theorem sameWorkspaces_answer (now : Timestamp) (op : Statement) (w : World) (h : op.OnBoards) :
    SameWorkspaces w (answer now op w).2 := by
  cases op with
  | setCurrentBoard client boardId =>
      apply SameWorkspaces.modifySocket <;> intro data <;> rfl
  | resetCurrentBoard client boardId =>
      apply SameWorkspaces.modifySocket <;> intro data <;> split <;> rfl
  | join client room =>
      cases room with
      | board boardId =>
          refine ⟨fun workspaceId => ?_, ?_, ?_, ?_, ?_⟩
          · ext k
            simp [answer, mem_rooms_join]
          all_goals
            funext k
            simp [answer, World.userOf, World.IsConnected, World.currentWorkspace,
              World.onlineMembers, World.replayed]
      | workspace workspaceId => exact h.elim
  | leave client room =>
      cases room with
      | board boardId => exact ⟨fun _ => rfl, rfl, rfl, rfl, rfl⟩
      | workspace workspaceId => exact h.elim
  | emit emissions => exact .emit h w
  | setCurrentWorkspace => exact h.elim
  | resetCurrentWorkspace => exact h.elim
  | _ => exact ⟨fun _ => rfl, rfl, rfl, rfl, rfl⟩

namespace World
variable {w w' : World} {client : SocketId} {times : Nat → Timestamp}

/-- The board handlers leave the workspaces alone. -/
theorem sameWorkspaces_leaves {p : Procedure Unit} (hp : p.Only Statement.OnBoards) (w : World)
    (times : Nat → Timestamp) : SameWorkspaces w (p.leaves answer times w) := by
  have hends : p.Ends answer (fun _ => True) (SameWorkspaces w) w fun _ t => SameWorkspaces w t :=
    .of_only .refl (fun _ _ _ => .trans) sameWorkspaces_answer hp (fun _ => id) fun _ _ => id
  exact hends.leaves_any

/-- Once the socket is out of the room, the room shows who is online exactly if nobody
who stayed shows the user of the socket in vain. -/
theorem onlineIn_erase {workspaceId : Uuid} (hw : w.OnlineIn workspaceId)
    (huser : client ∈ w.rooms (.workspace workspaceId) → ∃ user, w.userOf client = some user)
    (hrooms : w'.rooms (.workspace workspaceId) = (w.rooms (.workspace workspaceId)).erase client)
    (huserOf : w'.userOf = w.userOf) (honline : w'.onlineMembers = w.onlineMembers) :
    w'.OnlineIn workspaceId ↔ w.StaysOnline client workspaceId := by
  unfold OnlineIn
  rw [hrooms, huserOf, honline]
  constructor
  · rintro hshown hclient ⟨k, hk, hne⟩
    obtain ⟨user, hu⟩ := huser hclient
    have hseen : user ∈ w.onlineMembers k := (hw k hk user).mpr ⟨client, hclient, hu⟩
    obtain ⟨j, hj, hju⟩ := (hshown k (Finset.mem_erase.mpr ⟨hne, hk⟩) user).mp hseen
    obtain ⟨hjne, hj⟩ := Finset.mem_erase.mp hj
    exact ⟨j, hj, hjne, hju.trans hu.symm⟩
  · intro hstays k hstay u
    obtain ⟨hne, hk⟩ := Finset.mem_erase.mp hstay
    rw [hw k hk]
    constructor
    · rintro ⟨j, hj, hju⟩
      by_cases hjc : j = client
      · subst hjc
        obtain ⟨j', hj', hne', hju'⟩ := hstays hj ⟨k, hk, hne⟩
        exact ⟨j', Finset.mem_erase.mpr ⟨hne', hj'⟩, hju'.trans hju⟩
      · exact ⟨j, Finset.mem_erase.mpr ⟨hjc, hj⟩, hju⟩
    · rintro ⟨j, hj, hju⟩
      exact ⟨j, (Finset.mem_erase.mp hj).2, hju⟩

theorem InCurrentWorkspace.user (hw : w.InCurrentWorkspace) {workspaceId : Uuid}
    (hclient : client ∈ w.rooms (.workspace workspaceId)) : ∃ user, w.userOf client = some user := by
  obtain ⟨data, hdata⟩ :=
    Option.isSome_iff_exists.mp (Option.isSome_of_any (hw workspaceId client hclient).1)
  exact ⟨data.user, by simp [userOf, hdata]⟩

/-- A room is judged by its sockets, their users and what they show. -/
theorem onlineIn_congr {workspaceId : Uuid}
    (hrooms : w'.rooms (.workspace workspaceId) = w.rooms (.workspace workspaceId))
    (huserOf : ∀ j ∈ w.rooms (.workspace workspaceId), w'.userOf j = w.userOf j)
    (honline : ∀ k ∈ w.rooms (.workspace workspaceId), w'.onlineMembers k = w.onlineMembers k) :
    w'.OnlineIn workspaceId ↔ w.OnlineIn workspaceId := by
  unfold OnlineIn
  rw [hrooms]
  refine forall₂_congr fun k hk => forall_congr' fun u => ?_
  rw [honline k hk]
  refine iff_congr Iff.rfl (exists_congr fun j => and_congr_right fun hj => ?_)
  rw [huserOf j hj]

theorem onlineShown_modifySocket {f : SocketData → SocketData}
    (hf : ∀ data, (f data).user = data.user) (w : World) (client : SocketId) :
    (w.modifySocket client f).OnlineShown ↔ w.OnlineShown :=
  forall_congr' fun _ =>
    onlineIn_congr rfl (fun j _ => userOf_modifySocket hf w client j) fun _ _ => rfl

theorem onlineShown_leave (hw : w.OnlineShown) (hin : w.InCurrentWorkspace) (workspaceId : Uuid) :
    (w.leave client (.workspace workspaceId)).OnlineShown ↔ w.StaysOnline client workspaceId := by
  have herase : (w.leave client (.workspace workspaceId)).OnlineIn workspaceId ↔
      w.StaysOnline client workspaceId :=
    onlineIn_erase (hw workspaceId) hin.user (by simp [leave]) rfl rfl
  constructor
  · exact fun h => herase.mp (h workspaceId)
  · intro hstays W
    by_cases hW : W = workspaceId
    · subst hW
      exact herase.mpr hstays
    · have hrooms : (w.leave client (.workspace workspaceId)).rooms (.workspace W) =
          w.rooms (.workspace W) := by simp [leave, hW]
      exact (onlineIn_congr hrooms (fun _ _ => rfl) fun _ _ => rfl).mpr (hw W)

theorem InCurrentWorkspace.leave (hin : w.InCurrentWorkspace) (workspaceId : Uuid) :
    (w.leave client (.workspace workspaceId)).InCurrentWorkspace := by
  intro W k hk
  exact hin W k ((w.mem_rooms_leave client _ k _).mp hk).1

/-- The socket is in the room, and this is its current workspace. -/
def seated (w : World) (client : SocketId) (workspaceId : Uuid) : World :=
  (w.join client (.workspace workspaceId)).modifySocket client fun data =>
    { data with currentWorkspaceId := some workspaceId }

/-- The join of a room, with its two frames. -/
def entered (w : World) (client : SocketId) (workspaceId user : Uuid) : World :=
  [⟨.client client, .workspaceJoined workspaceId
      (((w.seated client workspaceId).fetchSockets (.workspace workspaceId)).image (·.2))⟩,
    ⟨.others client (.workspace workspaceId), .memberOnline user⟩].foldl deliver
      (w.seated client workspaceId)

theorem mem_rooms_seated (hopen : w.IsConnected client = true) (workspaceId : Uuid) (k : SocketId)
    (W : Uuid) : k ∈ (w.seated client workspaceId).rooms (.workspace W) ↔
      k ∈ w.rooms (.workspace W) ∨ (W = workspaceId ∧ k = client) := by
  have hrooms : (w.seated client workspaceId).rooms =
      (w.join client (.workspace workspaceId)).rooms := rfl
  rw [hrooms, mem_rooms_join]
  simp [hopen]

theorem userOf_seated (w : World) (client : SocketId) (workspaceId : Uuid) :
    (w.seated client workspaceId).userOf = w.userOf := by
  funext j
  rw [seated, userOf_modifySocket]
  · simp [userOf]
  · intro data
    rfl

theorem currentWorkspace_seated (hopen : w.IsConnected client = true) (workspaceId : Uuid)
    (k : SocketId) : (w.seated client workspaceId).currentWorkspace k =
      if k = client then some workspaceId else w.currentWorkspace k := by
  obtain ⟨data, hdata⟩ := Option.isSome_iff_exists.mp (Option.isSome_of_any hopen)
  by_cases hk : k = client
  · simp [seated, currentWorkspace, modifySocket, hk, hdata]
  · simp [seated, currentWorkspace, modifySocket, hk]

/-- What a socket shows after the two frames. -/
theorem onlineMembers_entered (hopen : w.IsConnected client = true) (workspaceId user : Uuid)
    (k : SocketId) : (w.entered client workspaceId user).onlineMembers k =
      if k = client then
        ((w.seated client workspaceId).fetchSockets (.workspace workspaceId)).image (·.2)
      else if k ∈ w.rooms (.workspace workspaceId) then insert user (w.onlineMembers k)
      else w.onlineMembers k := by
  have hseated : (w.seated client workspaceId).IsConnected client = true := by
    rw [seated, isConnected_modifySocket]
    · simpa [IsConnected] using hopen
    · intro data
      rfl
  have hbefore : (w.seated client workspaceId).onlineMembers k = w.onlineMembers k := by
    simp [seated, modifySocket, onlineMembers, replayed]
  have hothers : k ∈ (w.seated client workspaceId).rooms (.workspace workspaceId) ↔
      k ∈ w.rooms (.workspace workspaceId) ∨ k = client := by
    simpa using mem_rooms_seated hopen workspaceId k workspaceId
  rw [← hbefore, entered, onlineMembers, replayed_answered _ _ _ hseated]
  by_cases hk : k = client
  · rw [if_pos hk, if_pos hk]
    rfl
  · simp only [hk, hothers, or_false, if_false]
    rfl

theorem userOf_entered (w : World) (client : SocketId) (workspaceId user : Uuid) :
    (w.entered client workspaceId user).userOf = w.userOf := by
  rw [← userOf_seated w client workspaceId]
  funext j
  simp [entered, userOf]

theorem mem_rooms_entered (hopen : w.IsConnected client = true) (workspaceId user : Uuid)
    (k : SocketId) (W : Uuid) :
    k ∈ (w.entered client workspaceId user).rooms (.workspace W) ↔
      k ∈ w.rooms (.workspace W) ∨ (W = workspaceId ∧ k = client) := by
  rw [← mem_rooms_seated hopen, entered, rooms_emit]

section Entered
variable {workspaceId user : Uuid} (hin : w.InCurrentWorkspace)
  (hopen : w.IsConnected client = true)

include hopen in
/-- The socket that enters is told who is there, and the others are told of it. -/
theorem onlineIn_entered (hw : w.OnlineIn workspaceId) (huser : w.userOf client = some user) :
    (w.entered client workspaceId user).OnlineIn workspaceId := by
  intro k hk u
  rw [userOf_entered, onlineMembers_entered hopen]
  simp only [mem_rooms_entered hopen, true_and] at hk ⊢
  by_cases hself : k = client
  · rw [if_pos hself, mem_users_fetchSockets, userOf_seated]
    simp only [mem_rooms_seated hopen, true_and]
  · have hroom : k ∈ w.rooms (.workspace workspaceId) := hk.resolve_right hself
    rw [if_neg hself, if_pos hroom, Finset.mem_insert, hw k hroom]
    constructor
    · rintro (rfl | ⟨j, hj, hju⟩)
      · exact ⟨client, .inr rfl, huser⟩
      · exact ⟨j, .inl hj, hju⟩
    · rintro ⟨j, hj | rfl, hju⟩
      · exact .inr ⟨j, hj, hju⟩
      · exact .inl (Option.some.inj (hju.symm.trans huser))

include hin hopen in
theorem onlineIn_entered_of_ne {W : Uuid} (hW : W ≠ workspaceId)
    (hclient : client ∉ w.rooms (.workspace W)) :
    (w.entered client workspaceId user).OnlineIn W ↔ w.OnlineIn W := by
  refine onlineIn_congr ?_ (fun j _ => congrFun (userOf_entered w client workspaceId user) j) fun k hk => ?_
  · ext k
    simp [mem_rooms_entered hopen, hW]
  · have hself : k ≠ client := fun h => hclient (h ▸ hk)
    have hroom : k ∉ w.rooms (.workspace workspaceId) := fun hk' =>
      hW (Option.some.inj ((hin W k hk).2.symm.trans (hin workspaceId k hk').2))
    rw [onlineMembers_entered hopen, if_neg hself, if_neg hroom]

include hin hopen in
/-- Entering a room keeps all rooms right. -/
theorem onlineShown_entered (hw : w.OnlineIn workspaceId) (huser : w.userOf client = some user)
    (hother : ∀ W, client ∈ w.rooms (.workspace W) → W = workspaceId) :
    (w.entered client workspaceId user).OnlineShown ↔ w.OnlineShown := by
  refine forall_congr' fun W => ?_
  by_cases hW : W = workspaceId
  · subst hW
    exact iff_of_true (onlineIn_entered hopen hw huser) hw
  · exact onlineIn_entered_of_ne hin hopen hW fun hclient => hW (hother W hclient)

end Entered

theorem InCurrentWorkspace.entered (hin : w.InCurrentWorkspace)
    (hopen : w.IsConnected client = true) {workspaceId user : Uuid}
    (hother : ∀ W, client ∈ w.rooms (.workspace W) → W = workspaceId) :
    (w.entered client workspaceId user).InCurrentWorkspace := by
  have hconnected : (w.entered client workspaceId user).IsConnected = w.IsConnected := by
    funext j
    have hseated : (w.seated client workspaceId).IsConnected j = w.IsConnected j := by
      rw [seated, isConnected_modifySocket]
      · simp [IsConnected]
      · intro data
        rfl
    rw [← hseated]
    simp [World.entered, IsConnected]
  have hcurrent : ∀ j, (w.entered client workspaceId user).currentWorkspace j =
      (w.seated client workspaceId).currentWorkspace j := by
    intro j
    simp [World.entered, currentWorkspace]
  intro W k hk
  rw [mem_rooms_entered hopen] at hk
  rw [hconnected, hcurrent, currentWorkspace_seated hopen]
  by_cases hself : k = client
  · subst hself
    obtain rfl : W = workspaceId := hk.elim (hother W) And.left
    simpa using hopen
  · rw [if_neg hself]
    exact hin W k (hk.resolve_right fun h => hself h.2)

/-- The room that a join switches from is left. -/
def leftPrevious (w : World) (client : SocketId) (workspaceId : Uuid) : World :=
  match w.currentWorkspace client with
  | some previous =>
      if previous = workspaceId then w else w.leave client (.workspace previous)
  | none => w

theorem leftPrevious_eq (w : World) (client : SocketId) (workspaceId : Uuid) :
    w.leftPrevious client workspaceId = w ∨ ∃ previous, previous ≠ workspaceId ∧
      w.leftPrevious client workspaceId = w.leave client (.workspace previous) := by
  unfold leftPrevious
  cases w.currentWorkspace client with
  | none => exact .inl rfl
  | some previous =>
      by_cases hsame : previous = workspaceId
      · exact .inl (if_pos hsame)
      · exact .inr ⟨previous, hsame, if_neg hsame⟩

section LeftPrevious
variable (workspaceId : Uuid)

theorem sockets_leftPrevious : (w.leftPrevious client workspaceId).sockets = w.sockets := by
  rcases w.leftPrevious_eq client workspaceId with h | ⟨previous, -, h⟩ <;> rw [h]
  rfl

theorem rooms_leftPrevious : (w.leftPrevious client workspaceId).rooms (.workspace workspaceId) =
    w.rooms (.workspace workspaceId) := by
  rcases w.leftPrevious_eq client workspaceId with h | ⟨previous, hne, h⟩
  · rw [h]
  · rw [h]
    simp [leave, hne.symm]

theorem inbox_leftPrevious : (w.leftPrevious client workspaceId).inbox = w.inbox := by
  rcases w.leftPrevious_eq client workspaceId with h | ⟨previous, -, h⟩ <;> rw [h]
  rfl

theorem InCurrentWorkspace.leftPrevious (hin : w.InCurrentWorkspace) :
    (w.leftPrevious client workspaceId).InCurrentWorkspace := by
  rcases w.leftPrevious_eq client workspaceId with h | ⟨previous, -, h⟩ <;> rw [h]
  · exact hin
  · exact hin.leave previous

/-- The socket is in no room but the one it is about to enter. -/
theorem InCurrentWorkspace.only (hin : w.InCurrentWorkspace) {W : Uuid}
    (hclient : client ∈ (w.leftPrevious client workspaceId).rooms (.workspace W)) :
    W = workspaceId := by
  unfold World.leftPrevious at hclient
  cases hprevious : w.currentWorkspace client with
  | none =>
      rw [hprevious] at hclient
      exact nomatch hprevious.symm.trans (hin W client hclient).2
  | some previous =>
      simp only [hprevious] at hclient
      split at hclient
      · rename_i hsame
        exact (Option.some.inj (hprevious.symm.trans (hin W client hclient).2)).symm.trans hsame
      · obtain ⟨hroom, hleft⟩ := (w.mem_rooms_leave client _ client _).mp hclient
        have hW := Option.some.inj ((hin W client hroom).2.symm.trans hprevious)
        exact absurd ⟨congrArg Room.workspace hW, rfl⟩ hleft

end LeftPrevious

theorem leaves_workspaceJoin {user : Uuid} (hdata : w.userOf client = some user) (workspaceId : Uuid)
    (times : Nat → Timestamp) :
    ((Message.workspaceJoin workspaceId).program client).leaves answer times w =
      if (w.members workspaceId user).isSome then
        (w.leftPrevious client workspaceId).entered client workspaceId user
      else w := by
  obtain ⟨data, hsocket, rfl⟩ := Option.map_eq_some_iff.mp hdata
  have hcurrent : w.currentWorkspace client = data.currentWorkspaceId := by
    simp [currentWorkspace, hsocket]
  unfold leftPrevious
  rw [hcurrent]
  simp only [Message.program, BoardGateway.handleWorkspaceJoin, BoardGateway.currentUser,
    BoardGateway.workspaceMemberGuard, bind_assoc, leaves_ask_bind, answer, hsocket,
    demand_some_bind, pure_bind]
  cases (w.members workspaceId data.user).isSome with
  | false => rfl
  | true =>
      rw [Bool.not_true, refuseIf_false_bind, leaves_ask_bind]
      simp only [answer, hsocket, Option.bind_some, BoardGateway.leavePreviousWorkspace]
      cases data.currentWorkspaceId with
      | none => rfl
      | some previous =>
          dsimp only
          split <;> rfl

/-- `workspace:join` keeps every room right exactly if the user stays in the room that
the socket leaves. -/
theorem onlineShown_workspaceJoin (hw : w.OnlineShown) (hin : w.InCurrentWorkspace)
    (hopen : w.IsConnected client = true) (workspaceId : Uuid) (times : Nat → Timestamp) :
    (((Message.workspaceJoin workspaceId).program client).leaves answer times w).OnlineShown ↔
      w.KeepsOnline (.message client (.workspaceJoin workspaceId) times) := by
  obtain ⟨data, hsocket⟩ := Option.isSome_iff_exists.mp (Option.isSome_of_any hopen)
  have huser : w.userOf client = some data.user := by simp [userOf, hsocket]
  rw [leaves_workspaceJoin huser]
  split
  · rename_i hmember
    have hopen' : (w.leftPrevious client workspaceId).IsConnected client = true := by
      rw [IsConnected, sockets_leftPrevious]
      exact hopen
    have huserOf : (w.leftPrevious client workspaceId).userOf = w.userOf := by
      funext j
      rw [userOf, sockets_leftPrevious, userOf]
    have hroom : (w.leftPrevious client workspaceId).OnlineIn workspaceId := by
      refine (onlineIn_congr (rooms_leftPrevious workspaceId) (fun j _ => congrFun huserOf j)
        fun k _ => ?_).mpr (hw workspaceId)
      rw [onlineMembers, replayed, inbox_leftPrevious, onlineMembers, replayed]
    rw [onlineShown_entered (hin.leftPrevious workspaceId) hopen' hroom
      ((congrFun huserOf client).trans huser) fun W hW => hin.only workspaceId hW]
    have hadmitted : ∃ user, w.userOf client = some user ∧ (w.members workspaceId user).isSome :=
      ⟨data.user, huser, hmember⟩
    unfold leftPrevious
    cases hprevious : w.currentWorkspace client with
    | none =>
        refine iff_of_true hw ?_
        exact fun _ previous h => by cases hprevious.symm.trans h
    | some previous =>
        dsimp only
        split
        · rename_i hsame
          refine iff_of_true hw fun _ V hV hne => ?_
          exact absurd (Option.some.inj (hV.symm.trans hprevious)) fun h => hne (h.trans hsame)
        · rename_i hne
          rw [onlineShown_leave hw hin]
          constructor
          · intro hstays _ V hV _
            cases hprevious.symm.trans hV
            exact hstays
          · exact fun h => h hadmitted previous hprevious hne
  · rename_i hmember
    refine iff_of_true hw ?_
    rintro ⟨user, hu, hmember'⟩
    cases huser.symm.trans hu
    exact absurd hmember' hmember

theorem leaves_workspaceLeave (w : World) (client : SocketId) (workspaceId : Uuid)
    (times : Nat → Timestamp) :
    ((Message.workspaceLeave workspaceId).program client).leaves answer times w =
      (w.leave client (.workspace workspaceId)).modifySocket client fun data =>
        if data.currentWorkspaceId = some workspaceId then { data with currentWorkspaceId := none }
        else data := rfl

theorem onlineShown_workspaceLeave (hw : w.OnlineShown) (hin : w.InCurrentWorkspace)
    (workspaceId : Uuid) (times : Nat → Timestamp) :
    (((Message.workspaceLeave workspaceId).program client).leaves answer times w).OnlineShown ↔
      w.StaysOnline client workspaceId := by
  rw [leaves_workspaceLeave, onlineShown_modifySocket, onlineShown_leave hw hin]
  intro data
  split <;> rfl

/-- A frame for sockets outside the room leaves it right. -/
theorem onlineIn_deliver {e : Emission} {workspaceId : Uuid}
    (h : ∀ k ∈ w.rooms (.workspace workspaceId), k ∉ w.recipients e.target) :
    (w.deliver e).OnlineIn workspaceId ↔ w.OnlineIn workspaceId := by
  have hkept : ∀ k ∈ w.rooms (.workspace workspaceId),
      (w.deliver e).onlineMembers k = w.onlineMembers k := by
    intro k hk
    rw [onlineMembers, replayed_deliver, if_neg (h k hk), onlineMembers]
  exact onlineIn_congr rfl (fun _ _ => rfl) hkept

/-- The announcement makes the room right that the last socket of the user has left. -/
theorem onlineIn_offline {t : World} {workspaceId user : Uuid} (hw : w.OnlineIn workspaceId)
    (huser : w.userOf client = some user)
    (hrooms : t.rooms (.workspace workspaceId) = (w.rooms (.workspace workspaceId)).erase client)
    (huserOf : t.userOf = w.userOf) (honline : t.onlineMembers = w.onlineMembers)
    (hgone : ∀ j ∈ t.rooms (.workspace workspaceId), t.userOf j ≠ some user) :
    (t.deliver ⟨.room (.workspace workspaceId), .memberOffline user⟩).OnlineIn workspaceId := by
  intro k hk u
  rw [rooms_deliver] at hk ⊢
  have hshown : (t.deliver ⟨.room (.workspace workspaceId), .memberOffline user⟩).onlineMembers k =
      (w.onlineMembers k).erase user := by
    rw [onlineMembers, replayed_deliver, ← honline]
    exact if_pos hk
  have huserOf' : (t.deliver ⟨.room (.workspace workspaceId), .memberOffline user⟩).userOf =
      w.userOf := huserOf
  rw [hshown, huserOf', Finset.mem_erase, hw k (Finset.mem_erase.mp (hrooms ▸ hk)).2]
  constructor
  · rintro ⟨hne, j, hj, hju⟩
    have hself : j ≠ client := by
      rintro rfl
      exact hne (Option.some.inj (hju.symm.trans huser))
    exact ⟨j, hrooms ▸ Finset.mem_erase.mpr ⟨hself, hj⟩, hju⟩
  · rintro ⟨j, hj, hju⟩
    refine ⟨?_, j, (Finset.mem_erase.mp (hrooms ▸ hj)).2, hju⟩
    rintro rfl
    exact hgone j hj (huserOf ▸ hju)

/-- The rooms are right once the announcement is made, where the socket has left them. -/
theorem ends_announceOffline {t : World} {user : Uuid} (hw : w.OnlineShown)
    (hin : w.InCurrentWorkspace) (huser : w.userOf client = some user)
    (hrooms : ∀ W, t.rooms (.workspace W) = (w.rooms (.workspace W)).erase client)
    (huserOf : t.userOf = w.userOf) (honline : t.onlineMembers = w.onlineMembers) :
    (BoardGateway.announceOffline client user (w.currentWorkspace client)).Ends answer
      (fun _ => True) OnlineShown t fun _ t => t.OnlineShown := by
  have hkept : ∀ W, t.OnlineIn W ↔ w.StaysOnline client W := fun W =>
    onlineIn_erase (hw W) hin.user (hrooms W) huserOf honline
  unfold BoardGateway.announceOffline
  cases hcurrent : w.currentWorkspace client with
  | none =>
      intro W
      refine (hkept W).mpr fun hclient => ?_
      exact nomatch hcurrent.symm.trans (hin W client hclient).2
  | some V =>
      have hroom : ∀ W, client ∈ w.rooms (.workspace W) → W = V := fun W hclient =>
        Option.some.inj ((hin W client hclient).2.symm.trans hcurrent)
      dsimp only
      rw [ends_ask_bind]
      intro _ _
      rw [ends_doIf]
      constructor
      · intro halone
        have hnone := of_decide_eq_false ((Bool.not_eq_true' _).mp halone)
        have hgone : ∀ j ∈ t.rooms (.workspace V), t.userOf j ≠ some user := by
          intro j hj hju
          have hfound := (t.mem_fetchSockets (.workspace V) (j, user)).mpr ⟨hj, hju⟩
          exact hnone ⟨(j, user), hfound, (Finset.mem_erase.mp (hrooms V ▸ hj)).1, rfl⟩
        rw [ends_ask]
        intro _ _ W
        by_cases hW : W = V
        · subst hW
          exact onlineIn_offline (hw W) huser (hrooms W) huserOf honline hgone
        · have hshown : t.OnlineIn W :=
            (hkept W).mpr fun hclient => absurd (hroom W hclient) hW
          refine (onlineIn_deliver fun k hk hk' => hW ?_).mpr hshown
          have hkV' : k ∈ t.rooms (.workspace V) := hk'
          have hkW := hin W k (Finset.mem_erase.mp (hrooms W ▸ hk)).2
          have hkV := hin V k (Finset.mem_erase.mp (hrooms V ▸ hkV')).2
          exact Option.some.inj (hkW.2.symm.trans hkV.2)
      · intro hothers W
        refine (hkept W).mpr fun hclient _ => ?_
        obtain rfl := hroom W hclient
        obtain ⟨⟨j, user'⟩, hfound, hne, rfl⟩ :=
          of_decide_eq_true ((Bool.not_eq_false' _).mp hothers)
        obtain ⟨hj, hju⟩ := (t.mem_fetchSockets (.workspace W) (j, user')).mp hfound
        rw [hrooms] at hj
        rw [huserOf] at hju
        exact ⟨j, (Finset.mem_erase.mp hj).2, hne, hju.trans huser.symm⟩

/-- The board part of the disconnect returns, with the workspaces as they were. -/
theorem ends_clearPresence {data : SocketData} {thrown : World → Prop} {post : Unit → World → Prop}
    (hpost : ∀ t, SameWorkspaces w t → post () t) :
    (BoardGateway.clearPresence client data).Ends answer (fun _ => True) thrown w post := by
  have hsame : ∀ {t : World} (now : Timestamp) (op : Statement), SameWorkspaces w t → op.OfBoards →
      SameWorkspaces w (answer now op t).2 :=
    fun now op ht hop => ht.trans (sameWorkspaces_answer now op _ hop.onBoards)
  unfold BoardGateway.clearPresence
  cases data.currentBoardId with
  | none => exact hpost w (.refl w)
  | some boardId =>
      have hannounce : ∀ t removed, SameWorkspaces w t →
          (BoardGateway.announceLeft (.room (.board boardId)) removed (some data)).Ends answer
            (fun _ => True) thrown t post := by
        intro t removed ht
        cases removed with
        | none => exact hpost t ht
        | some entry =>
            refine fun now _ => hpost _ (hsame now _ ht fun e he => ?_)
            obtain rfl := List.mem_singleton.mp he
            trivial
      dsimp only
      unfold PresenceService.removePresence
      rw [bind_assoc, ends_ask_bind]
      intro now _
      have hremoved := hsame now (.unregister boardId client) (.refl w) trivial
      rw [bind_assoc, ends_bind, ends_doIf]
      constructor
      · intro _ later _
        exact hannounce _ _ (hsame later (.srem [boardId]) hremoved trivial)
      · intro _
        exact hannounce _ _ hremoved

/-- What the announcement at the end leaves, the whole disconnect leaves. -/
theorem leaves_disconnect {user : Uuid} (huser : w.userOf client = some user) {I : World → Prop}
    (hI : ∀ t, SameWorkspaces (w.close client) t →
      (BoardGateway.announceOffline client user (w.currentWorkspace client)).Ends answer
        (fun _ => True) I t fun _ t => I t) (times : Nat → Timestamp) :
    I ((BoardGateway.handleDisconnect client).leaves answer times (w.close client)) := by
  obtain ⟨data, hsocket, rfl⟩ := Option.map_eq_some_iff.mp huser
  have hclosed : (w.close client).sockets client = some { data with connected := false } := by
    simp [close, modifySocket, hsocket]
  have hends : (BoardGateway.handleDisconnect client).Ends answer (fun _ => True) I
      (w.close client) fun _ t => I t := by
    unfold BoardGateway.handleDisconnect
    rw [ends_ask_bind]
    intro now _
    simp only [answer, hclosed, demand_some_bind]
    rw [ends_bind]
    refine ends_clearPresence fun t ht => ?_
    have hcurrent : (t.sockets client).bind (·.currentWorkspaceId) = w.currentWorkspace client :=
      congrFun (ht.currentWorkspace.trans (w.currentWorkspace_close client)) client
    rw [ends_ask_bind]
    intro later _
    simp only [answer, hcurrent]
    exact hI t ht
  exact hends.leaves_any

theorem onlineShown_disconnect (hw : w.OnlineShown) (hin : w.InCurrentWorkspace) {user : Uuid}
    (huser : w.userOf client = some user) (times : Nat → Timestamp) :
    ((BoardGateway.handleDisconnect client).leaves answer times (w.close client)).OnlineShown := by
  refine leaves_disconnect huser (fun t ht => ?_) times
  exact ends_announceOffline hw hin huser ht.rooms (ht.userOf.trans (w.userOf_close client))
    ht.onlineMembers

theorem InCurrentWorkspace.close (hin : w.InCurrentWorkspace) (client : SocketId) :
    (w.close client).InCurrentWorkspace := by
  intro W k hk
  obtain ⟨hne, hk⟩ := Finset.mem_erase.mp hk
  rw [currentWorkspace_close]
  refine ⟨?_, (hin W k hk).2⟩
  have hopen := (hin W k hk).1
  simpa [World.close, modifySocket, IsConnected, hne] using hopen

theorem InCurrentWorkspace.disconnect (hin : w.InCurrentWorkspace) {user : Uuid}
    (huser : w.userOf client = some user) (times : Nat → Timestamp) :
    ((BoardGateway.handleDisconnect client).leaves answer times
      (w.close client)).InCurrentWorkspace := by
  refine leaves_disconnect huser (fun t ht => ?_) times
  have ht' : t.InCurrentWorkspace := ht.inCurrentWorkspace (hin.close client)
  unfold BoardGateway.announceOffline
  cases w.currentWorkspace client with
  | none => exact ht'
  | some workspaceId =>
      dsimp only
      rw [ends_ask_bind]
      intro _ _
      rw [ends_doIf]
      exact ⟨fun _ _ _ => ht', fun _ => ht'⟩

theorem userOf_of_isConnected (hopen : w.IsConnected client = true) :
    ∃ user, w.userOf client = some user := by
  obtain ⟨data, hsocket⟩ := Option.isSome_iff_exists.mp (Option.isSome_of_any hopen)
  exact ⟨data.user, by simp [userOf, hsocket]⟩

/-- What board handlers do not touch. -/
theorem sameWorkspaces_program {received : Message} (hboards : match received with
      | .workspaceJoin _ | .workspaceLeave _ => False
      | _ => True) (w : World) (client : SocketId) (times : Nat → Timestamp) :
    SameWorkspaces w ((received.program client).leaves answer times w) := by
  have hkind : ∀ op : Statement, op.OfViewers → op.OnBoards := fun _ => Statement.OfViewers.onBoards
  cases received with
  | boardJoin boardId =>
      exact sameWorkspaces_leaves (only_handleBoardJoin client boardId hkind trivial) w times
  | boardLeave boardId =>
      exact sameWorkspaces_leaves ((only_leaveBoardRoom client boardId).imp hkind) w times
  | heartbeat => exact sameWorkspaces_leaves ((only_handleHeartbeat client).imp hkind) w times
  | cursor boardId =>
      exact sameWorkspaces_leaves
        ((only_handleCursor client boardId).imp fun _ => Statement.OfBoards.onBoards) w times
  | workspaceJoin workspaceId => exact hboards.elim
  | workspaceLeave workspaceId => exact hboards.elim

theorem InCurrentWorkspace.reset (hin : w.InCurrentWorkspace) (workspaceId : Uuid) :
    ((w.leave client (.workspace workspaceId)).modifySocket client fun data =>
      if data.currentWorkspaceId = some workspaceId then { data with currentWorkspaceId := none }
      else data).InCurrentWorkspace := by
  intro W k hk
  obtain ⟨hroom, hleft⟩ := (w.mem_rooms_leave client _ k _).mp hk
  obtain ⟨hopen, hcurrent⟩ := hin W k hroom
  constructor
  · rw [isConnected_modifySocket]
    · exact hopen
    · intro data
      split <;> rfl
  · by_cases hself : k = client
    · subst hself
      obtain ⟨data, hdata, hW⟩ := Option.bind_eq_some_iff.mp hcurrent
      have hne : W ≠ workspaceId := fun h => hleft ⟨congrArg Room.workspace h, rfl⟩
      simp [currentWorkspace, modifySocket, World.leave, hdata, hW, hne]
    · simpa [currentWorkspace, modifySocket, World.leave, hself] using hcurrent

/-- A new socket is in no room. -/
theorem InCurrentWorkspace.ne_of_new (hin : w.InCurrentWorkspace) (hnew : w.sockets client = none)
    {workspaceId : Uuid} {k : SocketId} (hk : k ∈ w.rooms (.workspace workspaceId)) :
    k ≠ client := by
  rintro rfl
  obtain ⟨user, huser⟩ := hin.user hk
  simp [userOf, hnew] at huser

/-- No turn takes a socket into a room that is not its current workspace's. -/
theorem InCurrentWorkspace.turn (hin : w.InCurrentWorkspace) {a : Turn} (h : w.turn a = some w') :
    w'.InCurrentWorkspace := by
  cases turned_of_turn h with
  | @connected client user hnew =>
      intro W k hk
      have hne : k ≠ client := hin.ne_of_new hnew hk
      simpa [connect, IsConnected, currentWorkspace, hne] using hin W k hk
  | roleSet => exact hin
  | boardChanged => exact hin
  | @received client received times hopen =>
      cases received with
      | workspaceJoin workspaceId =>
          obtain ⟨user, huser⟩ := userOf_of_isConnected hopen
          rw [leaves_workspaceJoin huser]
          split
          · refine (hin.leftPrevious workspaceId).entered ?_ fun W hW => hin.only workspaceId hW
            rw [IsConnected, sockets_leftPrevious]
            exact hopen
          · exact hin
      | workspaceLeave workspaceId =>
          rw [leaves_workspaceLeave]
          exact hin.reset workspaceId
      | _ => exact (sameWorkspaces_program trivial w client times).inCurrentWorkspace hin
  | @disconnected client times hopen =>
      obtain ⟨user, huser⟩ := userOf_of_isConnected hopen
      exact hin.disconnect huser times
  | cleanup =>
      exact (sameWorkspaces_leaves
        (only_runPresenceCleanup.imp fun _ => Statement.OfViewers.onBoards) w _).inCurrentWorkspace
          hin

/-- A turn keeps every room right exactly if it keeps users online who stay. -/
theorem onlineShown_turn (hw : w.OnlineShown) (hin : w.InCurrentWorkspace) {a : Turn}
    (h : w.turn a = some w') : w'.OnlineShown ↔ w.KeepsOnline a := by
  cases turned_of_turn h with
  | @connected client user hnew =>
      have huserOf : ∀ W, ∀ j ∈ w.rooms (.workspace W),
          (w.connect client user).userOf j = w.userOf j := by
        intro W j hj
        have hne : j ≠ client := hin.ne_of_new hnew hj
        simp [connect, userOf, hne]
      have hkept : ∀ W, (w.connect client user).OnlineIn W ↔ w.OnlineIn W := fun W =>
        onlineIn_congr rfl (huserOf W) fun _ _ => rfl
      exact iff_of_true (fun W => (hkept W).mpr (hw W)) trivial
  | roleSet => exact iff_of_true hw trivial
  | boardChanged => exact iff_of_true hw trivial
  | @received client received times hopen =>
      cases received with
      | workspaceJoin workspaceId => exact onlineShown_workspaceJoin hw hin hopen workspaceId times
      | workspaceLeave workspaceId => exact onlineShown_workspaceLeave hw hin workspaceId times
      | _ => exact iff_of_true ((sameWorkspaces_program trivial w client times).onlineShown hw) trivial
  | @disconnected client times hopen =>
      obtain ⟨user, huser⟩ := userOf_of_isConnected hopen
      exact iff_of_true (onlineShown_disconnect hw hin huser times) trivial
  | cleanup =>
      exact iff_of_true ((sameWorkspaces_leaves
        (only_runPresenceCleanup.imp fun _ => Statement.OfViewers.onBoards) w _).onlineShown hw) trivial

end World

/-- In every sequential run, the sockets in each workspace room show the users of the
sockets in it, exactly if a user who leaves a room with one socket, by
`workspace:leave` or for another workspace, has another one in it or leaves it empty. -/
theorem onlineShown_iff (boards : Uuid → Option Uuid)
    (members : Uuid → Uuid → Option WorkspaceRole) {as : List Turn} {w : World}
    (run : Run World.turn (.startup boards members) as w) :
    AllStates World.turn World.OnlineShown (.startup boards members) as ↔
      AllSteps World.turn World.KeepsOnline (.startup boards members) as := by
  apply allStates_iff_allSteps (I := World.InCurrentWorkspace) _ _ run
  · intro W k hk
    simp [World.startup] at hk
  · intro W k hk
    simp [World.startup] at hk
  · exact fun _ _ _ hin hstep => hin.turn hstep
  · exact fun _ _ _ hin hw hstep => World.onlineShown_turn hw hin hstep

/-- Users 5 and 6 are members of workspace 3. -/
def twoMembers : World :=
  .startup (fun _ => none) fun w u => if w = 3 ∧ (u = 5 ∨ u = 6) then some .member else none

/-- The second user joins with two sockets and leaves with one of them. -/
def leftWithOneTab : List Turn :=
  [.connect 8 5, .connect 9 6, .connect 10 6, .message 8 (.workspaceJoin 3) fun _ => 0,
    .message 9 (.workspaceJoin 3) fun _ => 0, .message 10 (.workspaceJoin 3) fun _ => 0,
    .message 9 (.workspaceLeave 3) fun _ => 0]

theorem onlineShown_leftWithOneTab :
    AllStates World.turn World.OnlineShown twoMembers leftWithOneTab := by
  obtain ⟨w, hw⟩ : ∃ w, exec World.turn twoMembers leftWithOneTab = some w := ⟨_, rfl⟩
  refine (onlineShown_iff _ _ (run_of_exec hw)).mpr ?_
  iterate 3
    refine allSteps_cons.mpr ⟨trivial, fun t ht => ?_⟩
    cases ht
  iterate 3
    refine allSteps_cons.mpr ⟨fun _ _ hprevious => (nomatch hprevious), fun t ht => ?_⟩
    cases ht
  refine allSteps_cons.mpr ⟨fun _ _ => ⟨10, by decide, by decide, rfl⟩, fun t ht => ?_⟩
  cases ht
  exact allSteps_nil

/-- The second user leaves with the only socket. -/
def leftForGood : List Turn :=
  [.connect 8 5, .connect 9 6, .message 8 (.workspaceJoin 3) fun _ => 0,
    .message 9 (.workspaceJoin 3) fun _ => 0, .message 9 (.workspaceLeave 3) fun _ => 0]

/-- The first user still sees the second one. -/
theorem leftForGood_shown :
    ¬ ∀ (boards : Uuid → Option Uuid) (members : Uuid → Uuid → Option WorkspaceRole)
      (as : List Turn) (w : World), Run World.turn (.startup boards members) as w →
        w.OnlineShown := by
  intro hall
  obtain ⟨w, hw⟩ : ∃ w, exec World.turn twoMembers leftForGood = some w := ⟨_, rfl⟩
  have hshown := hall _ _ leftForGood w (run_of_exec hw)
  cases hw
  obtain ⟨j, hj, hju⟩ := (hshown 3 8 (by decide) 6).mp (by decide)
  obtain rfl : j = 8 := by
    revert j
    decide
  exact absurd hju (by decide)

end SyncBoard.Realtime
