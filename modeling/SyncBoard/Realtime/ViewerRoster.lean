import SyncBoard.Realtime.Departures

/-!
# The rosters of the viewers

A join answers with the viewers whose last heartbeat is recent and announces its user
to the others. The cleanup announces the user of each socket that it prunes. Where
nobody is announced as gone who has another live socket, and a join misses nobody, the
rosters stay right.
-/

namespace SyncBoard.Realtime

open Labelled Interleaved Interleaved.Program
open Document (SocketId WorkspaceRole)

namespace PresenceStore

theorem mem_active_register (s : PresenceStore) (b : Uuid) (now : Timestamp)
    (entry : PresenceEntry) (k : SocketId) (score : Timestamp) :
    (k, score) ∈ (s.register b now entry).active b ↔
      ((k, score) ∈ s.active b ∧ k ≠ entry.socketId) ∨ (k = entry.socketId ∧ score = now) := by
  have hsadd : (s.sadd b).active = s.active := by
    unfold sadd
    split <;> rfl
  simp [register, hset, zadd, hsadd]

end PresenceStore

namespace World
variable {w t : World} {client : SocketId} {boardId user : Uuid} {thrown : World → Prop}
  {given : Timestamp → Prop}

/-- A socket of the user on the board has sent a heartbeat that is recent. -/
def IsFresh (w : World) (boardId user : Uuid) (now : Timestamp) : Prop :=
  ∃ (k : SocketId) (score : Timestamp), (k, score) ∈ w.presence.active boardId ∧
    (now : Int) - staleThresholdMs ≤ score ∧ w.userOf k = some user

/-- While the join runs, the heartbeats of the other viewers are recent, and so is the
time that it registers. -/
def SeesViewers (w : World) (boardId user : Uuid) (times : Nat → Timestamp) : Prop :=
  (∀ n m, (times n : Int) - staleThresholdMs ≤ times m) ∧
    ∀ j u, w.IsLive boardId j → w.userOf j = some u → u ≠ user →
      ∀ n, w.IsFresh boardId u (times n)

theorem Viewing.mem_viewers (hw : w.Viewing) {u : Uuid} {now : Timestamp}
    (h : w.IsFresh boardId u now) : u ∈ w.presence.viewers boardId now := by
  obtain ⟨k, score, hactive, hfresh, hu⟩ := h
  obtain ⟨e, he⟩ := (hw.active boardId k).mp (List.mem_map_of_mem (f := (·.1)) hactive)
  refine (PresenceStore.mem_viewers ..).mpr ⟨k, score, e, hactive, hfresh, he, ?_⟩
  exact Option.some.inj ((hw.entries boardId k e he).2.symm.trans hu)

theorem ends_getBoardViewers {post : Finset Uuid → World → Prop}
    (hpost : ∀ now, given now → post (w.presence.viewers boardId now) w) :
    (PresenceService.getBoardViewers boardId).Ends answer given thrown w post := by
  unfold PresenceService.getBoardViewers
  rw [ends_ask_bind]
  intro now hnow
  rw [ends_ask_bind]
  intro _ _
  split
  · rename_i hnone
    have hviewers : w.presence.viewers boardId now = ∅ := by
      have hempty := List.isEmpty_iff.mp hnone
      simp only [answer] at hempty
      simp [PresenceStore.viewers, hempty, PresenceStore.hmget]
    have hend := hpost now hnow
    rw [hviewers] at hend
    exact hend
  · rw [ends_ask_bind]
    intro _ _
    exact hpost now hnow

theorem ends_addPresence {entry : PresenceEntry} {post : Unit → World → Prop}
    (hpost : ∀ now, given now →
      post () { w with presence := w.presence.register boardId now entry }) :
    (PresenceService.addPresence boardId entry).Ends answer given thrown w post :=
  fun now hnow _ _ => hpost now hnow

/-- The socket is in the room of the board, its current one, and registered there. -/
def onBoard (w : World) (client : SocketId) (boardId user : Uuid) (now : Timestamp) : World :=
  let joined := (w.join client (.board boardId)).modifySocket client fun data =>
    { data with currentBoardId := some boardId }
  { joined with
    presence := joined.presence.register boardId now { userId := user, socketId := client } }

/-- The join of a board, with its two frames. -/
def joinedBoard (w : World) (client : SocketId) (boardId user : Uuid) (now later : Timestamp) :
    World :=
  [⟨.client client, .boardJoined boardId
      ((w.onBoard client boardId user now).presence.viewers boardId later)⟩,
    ⟨.others client (.board boardId), .boardPresence user .joined⟩].foldl deliver
      (w.onBoard client boardId user now)

theorem mem_rooms_onBoard (hopen : w.IsConnected client = true) (boardId user : Uuid)
    (now : Timestamp) (b : Uuid) (k : SocketId) :
    k ∈ (w.onBoard client boardId user now).rooms (.board b) ↔
      k ∈ w.rooms (.board b) ∨ (b = boardId ∧ k = client) := by
  have hrooms : (w.onBoard client boardId user now).rooms =
      (w.join client (.board boardId)).rooms := rfl
  rw [hrooms, mem_rooms_join]
  simp [hopen]

theorem presence_onBoard (w : World) (client : SocketId) (boardId user : Uuid) (now : Timestamp) :
    (w.onBoard client boardId user now).presence =
      w.presence.register boardId now { userId := user, socketId := client } := by
  simp [onBoard, modifySocket]

theorem sockets_onBoard (w : World) (client : SocketId) (boardId user : Uuid) (now : Timestamp) :
    (w.onBoard client boardId user now).sockets =
      (w.modifySocket client fun data => { data with currentBoardId := some boardId }).sockets := by
  simp [onBoard, modifySocket]

theorem mem_rooms_joinedBoard (hopen : w.IsConnected client = true) (boardId user : Uuid)
    (now later : Timestamp) (b : Uuid) (k : SocketId) :
    k ∈ (w.joinedBoard client boardId user now later).rooms (.board b) ↔
      k ∈ w.rooms (.board b) ∨ (b = boardId ∧ k = client) := by
  rw [joinedBoard, rooms_emit, mem_rooms_onBoard hopen]

theorem userOf_joinedBoard (w : World) (client : SocketId) (boardId user : Uuid)
    (now later : Timestamp) : (w.joinedBoard client boardId user now later).userOf = w.userOf := by
  funext k
  have hmodified : (w.modifySocket client fun data =>
      { data with currentBoardId := some boardId }).userOf k = w.userOf k := by
    apply userOf_modifySocket
    intro data
    rfl
  rw [← hmodified, userOf, joinedBoard, sockets_emit, sockets_onBoard, userOf]

/-- What a socket shows after the two frames. -/
theorem roster_joinedBoard (hopen : w.IsConnected client = true) (boardId user : Uuid)
    (now later : Timestamp) (k : SocketId) :
    (w.joinedBoard client boardId user now later).roster k =
      if k = client then (w.onBoard client boardId user now).presence.viewers boardId later
      else if k ∈ w.rooms (.board boardId) then insert user (w.roster k)
      else w.roster k := by
  have hjoined : (w.onBoard client boardId user now).IsConnected client = true := by
    have hmodified : (w.modifySocket client fun data =>
        { data with currentBoardId := some boardId }).IsConnected client = w.IsConnected client := by
      apply isConnected_modifySocket
      intro data
      rfl
    rw [← hopen, ← hmodified, IsConnected, sockets_onBoard, IsConnected]
  have hbefore : (w.onBoard client boardId user now).roster k = w.roster k := by
    simp [onBoard, modifySocket, roster, replayed]
  have hothers : k ∈ (w.onBoard client boardId user now).rooms (.board boardId) ↔
      k ∈ w.rooms (.board boardId) ∨ k = client := by
    simpa using mem_rooms_onBoard hopen boardId user now boardId k
  rw [← hbefore, joinedBoard, roster, replayed_answered _ _ _ hjoined]
  by_cases hk : k = client
  · rw [if_pos hk, if_pos hk]
    rfl
  · simp only [hk, hothers, or_false, if_false]
    rfl

theorem seated_joinedBoard (hw : w.Viewing) (hopen : w.IsConnected client = true)
    (honly : ∀ b, client ∈ w.rooms (.board b) → b = boardId) (now later : Timestamp) (b : Uuid)
    {k : SocketId} (hk : k ∈ (w.joinedBoard client boardId user now later).rooms (.board b)) :
    (w.joinedBoard client boardId user now later).IsConnected k = true ∧
      (w.joinedBoard client boardId user now later).currentBoard k = some b := by
  obtain ⟨data, hdata, hconnected⟩ := Option.any_eq_true _ _ |>.mp hopen
  rw [mem_rooms_joinedBoard hopen] at hk
  rw [IsConnected, currentBoard, joinedBoard, sockets_emit, sockets_onBoard]
  by_cases hself : k = client
  · subst hself
    obtain rfl : b = boardId := hk.elim (honly b) And.left
    simp [modifySocket, hdata, hconnected]
  · have hseated := hw.rooms b k (hk.resolve_right fun h => hself h.2)
    simpa [modifySocket, hself, IsConnected, currentBoard] using hseated

/-- The viewers that the join reads are those that are registered. -/
theorem mem_viewers_onBoard (hw : w.Viewing) (huser : w.userOf client = some user)
    {now later : Timestamp} (hrecent : (later : Int) - staleThresholdMs ≤ now)
    (hsees : ∀ j u, w.IsLive boardId j → w.userOf j = some u → u ≠ user →
      u ∈ w.presence.viewers boardId later) (u : Uuid) :
    u ∈ (w.onBoard client boardId user now).presence.viewers boardId later ↔
      ∃ j e, (w.onBoard client boardId user now).presence.entries boardId j = some e ∧
        e.userId = u := by
  have hentries := w.presence.entries_register boardId now { userId := user, socketId := client }
  have hactive := w.presence.mem_active_register boardId now { userId := user, socketId := client }
  rw [presence_onBoard, PresenceStore.mem_viewers]
  constructor
  · rintro ⟨k, score, e, -, -, he, hu⟩
    exact ⟨k, e, he, hu⟩
  · rintro ⟨j, e, he, rfl⟩
    by_cases hu : e.userId = user
    · refine ⟨client, now, { userId := user, socketId := client }, ?_, hrecent, ?_, hu.symm⟩
      · exact (hactive client now).mpr (.inr ⟨rfl, rfl⟩)
      · exact (hentries boardId client).trans (if_pos ⟨rfl, rfl⟩)
    · have hold : w.presence.entries boardId j = some e := by
        have hnew := (hentries boardId j).symm.trans he
        split at hnew
        · cases hnew
          exact absurd rfl hu
        · exact hnew
      obtain ⟨hlive, hju⟩ := (hw.isLive_iff boardId e.userId j).mpr ⟨e, hold, rfl⟩
      obtain ⟨k, score, e', hscore, hfresh, he', hu'⟩ :=
        (w.presence.mem_viewers boardId later _).mp (hsees j e.userId hlive hju hu)
      have hk : k ≠ client := by
        rintro rfl
        have hkuser := (hw.entries boardId k e' he').2.symm.trans huser
        exact hu (hu'.symm.trans (Option.some.inj hkuser))
      refine ⟨k, score, e', (hactive k score).mpr (.inl ⟨hscore, hk⟩), hfresh, ?_, hu'⟩
      exact (hentries boardId k).trans ((if_neg fun h => hk h.2).trans he')

/-- The registration adds the user of the socket. -/
theorem registered_iff (hw : w.Viewing) (huser : w.userOf client = some user) {now : Timestamp}
    (u : Uuid) : (∃ j e, (w.presence.register boardId now
        { userId := user, socketId := client }).entries boardId j = some e ∧ e.userId = u) ↔
      u = user ∨ ∃ j e, w.presence.entries boardId j = some e ∧ e.userId = u := by
  have hentries := w.presence.entries_register boardId now { userId := user, socketId := client }
  have hmine : (w.presence.register boardId now { userId := user, socketId := client }).entries
      boardId client = some { userId := user, socketId := client } :=
    (hentries boardId client).trans (if_pos ⟨rfl, rfl⟩)
  constructor
  · rintro ⟨j, e, he, rfl⟩
    rw [hentries] at he
    split at he
    · cases he
      exact .inl rfl
    · exact .inr ⟨j, e, he, rfl⟩
  · rintro (rfl | ⟨j, e, he, rfl⟩)
    · exact ⟨client, _, hmine, rfl⟩
    · by_cases hj : j = client
      · subst hj
        have hu := Option.some.inj (huser.symm.trans (hw.entries boardId j e he).2)
        exact ⟨j, _, hmine, hu⟩
      · exact ⟨j, e, (hentries boardId j).trans ((if_neg fun h => hj h.2).trans he), rfl⟩

theorem viewing_joinedBoard (hw : w.Viewing) (hopen : w.IsConnected client = true)
    (huser : w.userOf client = some user)
    (honly : ∀ b, client ∈ w.rooms (.board b) → b = boardId) {now later : Timestamp}
    (hrecent : (later : Int) - staleThresholdMs ≤ now)
    (hsees : ∀ j u, w.IsLive boardId j → w.userOf j = some u → u ≠ user →
      u ∈ w.presence.viewers boardId later) :
    (w.joinedBoard client boardId user now later).Viewing := by
  have hpresence : (w.joinedBoard client boardId user now later).presence =
      w.presence.register boardId now { userId := user, socketId := client } :=
    (presence_emit _ _).trans (w.presence_onBoard client boardId user now)
  have hentries := w.presence.entries_register boardId now { userId := user, socketId := client }
  refine ⟨fun b k e he => ?_, fun b k => ?_, ?_, fun b k hk u => ?_⟩
  · rw [mem_rooms_joinedBoard hopen, userOf_joinedBoard]
    rw [hpresence, hentries] at he
    split at he
    · rename_i hself
      cases he
      exact ⟨.inr hself, hself.2 ▸ huser⟩
    · obtain ⟨hroom, hu⟩ := hw.entries b k e he
      exact ⟨.inl hroom, hu⟩
  · rw [hpresence, PresenceStore.mem_sockets_register, hentries, hw.active]
    dsimp only
    split
    · rename_i hself
      simp [hself]
    · rename_i hother
      simp [hother]
  · exact fun b k hk => seated_joinedBoard hw hopen honly now later b hk
  · rw [hpresence, roster_joinedBoard hopen]
    rw [mem_rooms_joinedBoard hopen] at hk
    by_cases hself : k = client
    · subst hself
      obtain rfl : b = boardId := hk.elim (honly b) And.left
      rw [if_pos rfl, ← presence_onBoard]
      exact mem_viewers_onBoard hw huser hrecent hsees u
    · have hroom : k ∈ w.rooms (.board b) := hk.resolve_right fun h => hself h.2
      rw [if_neg hself]
      by_cases hb : b = boardId
      · subst hb
        rw [if_pos hroom, Finset.mem_insert, hw.rosters b k hroom]
        exact (registered_iff hw huser u).symm
      · have helsewhere : k ∉ w.rooms (.board boardId) := fun h =>
          hb (Option.some.inj ((hw.rooms b k hroom).2.symm.trans (hw.rooms boardId k h).2))
        rw [if_neg helsewhere, hw.rosters b k hroom]
        simp [hentries, hb]

/-- What a join starts from once the previous board is left. -/
structure ReadyToJoin (w : World) (client : SocketId) (boardId user : Uuid)
    (times : Nat → Timestamp) : Prop where
  viewing : w.Viewing
  isConnected : w.IsConnected client = true
  userOf : w.userOf client = some user
  only : ∀ b, client ∈ w.rooms (.board b) → b = boardId
  sees : w.SeesViewers boardId user times

theorem Departed.readyToJoin {previous : Uuid} (hd : Departed w t client previous user)
    (hw : w.Viewing) (huser : w.userOf client = some user)
    (hcurrent : w.currentBoard client = some previous) (hne : previous ≠ boardId)
    (hlast : w.LastOnBoard client previous) (hopen : t.IsConnected client = true)
    {times : Nat → Timestamp} (hsees : w.SeesViewers boardId user times) :
    ReadyToJoin t client boardId user times where
  viewing := hd.viewing hw huser hlast
  isConnected := hopen
  userOf := by rw [hd.userOf, huser]
  only b hb := by
    obtain ⟨hroom, hother⟩ := (hd.rooms b client).mp hb
    have hb := Option.some.inj ((hw.rooms b client hroom).2.symm.trans hcurrent)
    exact absurd ⟨hb, rfl⟩ hother
  sees := by
    refine ⟨hsees.1, fun j u hlive hu hother n => ?_⟩
    have hactive := hd.elsewhere boardId hne.symm
    have hlive' : w.IsLive boardId j :=
      ⟨((hd.rooms boardId j).mp hlive.1).1, ((hd.sockets boardId j).mp hlive.2).1⟩
    have hfresh := hsees.2 j u hlive' (hd.userOf ▸ hu) hother n
    unfold IsFresh
    rw [hactive, hd.userOf]
    exact hfresh

theorem ends_leavePreviousBoard (hw : w.Viewing) {data : SocketData}
    (hdata : w.sockets client = some data) (hopen : w.IsConnected client = true)
    (hlast : ∀ b, w.currentBoard client = some b → b ≠ boardId → w.LastOnBoard client b)
    {times : Nat → Timestamp} (hsees : w.SeesViewers boardId data.user times)
    {post : Unit → World → Prop}
    (hpost : ∀ t, ReadyToJoin t client boardId data.user times → post () t) :
    (BoardGateway.leavePreviousBoard client boardId data.currentBoardId).Ends answer given thrown w
      post := by
  have huser : w.userOf client = some data.user := by simp [userOf, hdata]
  have hcurrent : w.currentBoard client = data.currentBoardId := by simp [currentBoard, hdata]
  unfold BoardGateway.leavePreviousBoard
  cases hprevious : data.currentBoardId with
  | none =>
      refine hpost w ⟨hw, hopen, huser, fun b hb => ?_, hsees⟩
      cases (hcurrent.trans hprevious).symm.trans (hw.rooms b client hb).2
  | some previous =>
      dsimp only
      have hin := hcurrent.trans hprevious
      split
      · rename_i hsame
        refine hpost w ⟨hw, hopen, huser, fun b hb => ?_, hsees⟩
        exact (Option.some.inj ((hw.rooms b client hb).2.symm.trans hin)).trans hsame
      · rename_i hne
        refine ends_leaveBoardRoom hw hdata fun t hd hopen' => hpost t ?_
        exact hd.readyToJoin hw huser hin hne (hlast previous hin hne) (hopen'.trans hopen) hsees

theorem ReadyToJoin.joined {times : Nat → Timestamp} (hr : ReadyToJoin w client boardId user times)
    {now later : Timestamp} (hnow : ∃ n, times n = now) (hlater : ∃ n, times n = later) :
    (w.joinedBoard client boardId user now later).Viewing := by
  obtain ⟨n, rfl⟩ := hnow
  obtain ⟨m, rfl⟩ := hlater
  exact viewing_joinedBoard hr.viewing hr.isConnected hr.userOf hr.only (hr.sees.1 m n)
    fun j u hlive hu hother => hr.viewing.mem_viewers (hr.sees.2 j u hlive hu hother m)

theorem ends_handleBoardJoin (hw : w.Viewing) {data : SocketData}
    (hdata : w.sockets client = some data) (hopen : w.IsConnected client = true)
    {times : Nat → Timestamp}
    (hg : ∀ workspaceId, w.boards boardId = some workspaceId →
      (w.members workspaceId data.user).isSome →
        (∀ b, w.currentBoard client = some b → b ≠ boardId → w.LastOnBoard client b) ∧
          w.SeesViewers boardId data.user times) :
    (BoardGateway.handleBoardJoin client boardId).Ends answer (fun x => ∃ n, times n = x) Viewing w
      fun _ t => t.Viewing := by
  unfold BoardGateway.handleBoardJoin BoardGateway.currentUser BoardGateway.boardAccessGuard
  simp only [bind_assoc]
  rw [ends_ask_bind]
  intro _ _
  simp only [answer, hdata, demand_some_bind, pure_bind]
  rw [ends_ask_bind]
  intro _ _
  rw [ends_bind, ends_demand]
  refine ⟨fun _ => hw, fun workspaceId hboard => ?_⟩
  rw [ends_ask_bind]
  intro _ _
  rw [ends_bind, ends_refuseIf]
  refine ⟨fun _ => hw, fun hmember => ?_⟩
  obtain ⟨hlast, hsees⟩ := hg workspaceId hboard (by simpa [answer] using hmember)
  rw [ends_ask_bind]
  intro _ _
  simp only [answer, hdata, Option.bind_some]
  rw [ends_bind]
  refine ends_leavePreviousBoard hw hdata hopen hlast hsees fun t ht => ?_
  rw [ends_ask_bind]
  intro _ _
  rw [ends_ask_bind]
  intro _ _
  rw [ends_bind]
  refine ends_getBoardViewers fun _ _ => ?_
  rw [ends_bind]
  refine ends_addPresence fun now hnow => ?_
  rw [ends_bind]
  refine ends_getBoardViewers fun later hlater => ?_
  intro _ _
  exact ht.joined hnow hlater

theorem Viewing.heartbeat (hw : w.Viewing) (hlive : w.IsLive boardId client) (now : Timestamp) :
    ({ w with presence := w.presence.zadd boardId now client } : World).Viewing where
  entries := hw.entries
  active b k := by
    rw [PresenceStore.mem_sockets_zadd, hw.active]
    refine or_iff_left_of_imp ?_
    rintro ⟨rfl, rfl⟩
    exact (hw.active b k).mp hlive.2
  rooms := hw.rooms
  rosters := hw.rosters

theorem ends_handleHeartbeat (hw : w.Viewing)
    (hlive : ∀ b, w.currentBoard client = some b → w.IsLive b client) :
    (BoardGateway.handleHeartbeat client).Ends answer (fun _ => True) Viewing w
      fun _ t => t.Viewing := by
  unfold BoardGateway.handleHeartbeat
  rw [ends_ask_bind]
  intro _ _
  cases hboard : w.currentBoard client with
  | none =>
      have hnone : (w.sockets client).bind (·.currentBoardId) = none := hboard
      simp only [answer, hnone]
      exact hw
  | some b =>
      have hsome : (w.sockets client).bind (·.currentBoardId) = some b := hboard
      simp only [answer, hsome]
      exact fun now _ _ _ => hw.heartbeat (hlive b hboard) now

theorem ends_handleCursor (hw : w.Viewing) :
    (BoardGateway.handleCursor client boardId).Ends answer (fun _ => True) Viewing w
      fun _ t => t.Viewing := by
  unfold BoardGateway.handleCursor BoardGateway.currentUser
  rw [bind_assoc, ends_ask_bind]
  intro _ _
  rw [bind_assoc, ends_bind, ends_demand]
  refine ⟨fun _ => hw, fun data _ => ?_⟩
  rw [pure_bind, ends_bind]
  refine ends_getBoardViewers fun _ _ _ _ => ?_
  refine (SameBoards.emit (fun e he viewers => ?_) w).viewing hw
  obtain rfl := List.mem_singleton.mp he
  rfl

theorem mem_roster_left (expired : List (Uuid × PresenceEntry)) (w : World) (k : SocketId)
    (u : Uuid) :
    u ∈ ((expired.map fun entry => (⟨.room (.board entry.1), .boardPresence entry.2.userId .left⟩ :
        Emission)).foldl deliver w).roster k ↔
      u ∈ w.roster k ∧ ∀ entry ∈ expired, k ∈ w.rooms (.board entry.1) → entry.2.userId ≠ u := by
  induction expired generalizing w with
  | nil => simp
  | cons entry rest ih =>
      have hfirst : u ∈ (w.deliver ⟨.room (.board entry.1),
          .boardPresence entry.2.userId .left⟩).roster k ↔
            u ∈ w.roster k ∧ (k ∈ w.rooms (.board entry.1) → entry.2.userId ≠ u) := by
        rw [roster, replayed_deliver]
        by_cases hk : k ∈ w.rooms (.board entry.1)
        · simp [recipients, hk, applyPresence, roster, and_comm, ne_comm]
        · simp [recipients, hk, roster]
      rw [List.map_cons, List.foldl_cons, ih, hfirst, rooms_deliver, List.forall_mem_cons, and_assoc]

/-- The boards of the check pipeline with the sockets that it finds. -/
theorem pruned_boardsWithStale (w : World) (max : Int) (b : Uuid) (k : SocketId) :
    PresenceStore.Pruned (PresenceService.boardsWithStale w.presence.activeBoards
        (w.presence.check w.presence.activeBoards max)) b k ↔
      b ∈ w.presence.activeBoards ∧ k ∈ w.presence.zrangebyscore b 0 (some max) := by
  have hzip : ∀ (l : List Uuid) (f : Uuid → List SocketId), l.zip (l.map f) =
      l.map fun b => (b, f b) := by
    intro l f
    induction l with
    | nil => rfl
    | cons b l ih => simp [ih]
  rw [PresenceService.boardsWithStale, PresenceStore.check, hzip]
  constructor
  · rintro ⟨board, hboard, rfl, hk⟩
    obtain ⟨b, hb, rfl⟩ := List.mem_map.mp (List.mem_filter.mp hboard).1
    exact ⟨hb, hk⟩
  · rintro ⟨hb, hk⟩
    refine ⟨(b, _), List.mem_filter.mpr ⟨List.mem_map.mpr ⟨b, hb, rfl⟩, ?_⟩, rfl, hk⟩
    simpa using List.ne_nil_of_mem hk

/-- The rosters are right after the announcements, where no pruned socket leaves another
one of its user behind. -/
theorem Viewing.pruned (hw : w.Viewing) {boards : List (Uuid × List SocketId)} {s : PresenceStore}
    (hentries : s.entries = (w.presence.prune boards).2.entries)
    (hactive : s.active = (w.presence.prune boards).2.active)
    (hlast : ∀ b j j', PresenceStore.Pruned boards b j → ¬ PresenceStore.Pruned boards b j' →
      w.IsLive b j → w.IsLive b j' → w.userOf j' ≠ w.userOf j) :
    ((((PresenceService.expiredEntries boards (w.presence.prune boards).1).map fun entry =>
      (⟨.room (.board entry.1), .boardPresence entry.2.userId .left⟩ : Emission)).foldl deliver
        { w with presence := s })).Viewing := by
  have hkept : ∀ b k e, s.entries b k = some e ↔
      w.presence.entries b k = some e ∧ ¬ PresenceStore.Pruned boards b k := by
    intro b k e
    rw [hentries, PresenceStore.entries_prune]
  refine ⟨fun b k e he => ?_, fun b k => ?_, fun b k hk => ?_, fun b k hk u => ?_⟩
  · rw [presence_emit] at he
    have hold := hw.entries b k e ((hkept b k e).mp he).1
    simpa [userOf] using hold
  · have hsockets : k ∈ s.sockets b ↔
        k ∈ w.presence.sockets b ∧ ¬ PresenceStore.Pruned boards b k := by
      rw [← PresenceStore.mem_sockets_prune, PresenceStore.sockets, hactive, PresenceStore.sockets]
    rw [presence_emit]
    dsimp only
    simp only [hsockets, hw.active, hkept, exists_and_right]
  · rw [rooms_emit] at hk
    simpa [IsConnected, currentBoard] using hw.rooms b k hk
  · rw [rooms_emit] at hk
    have hbefore : ({ w with presence := s } : World).roster k = w.roster k := rfl
    rw [presence_emit, mem_roster_left, hbefore, hw.rosters b k hk u]
    dsimp only
    simp only [hkept]
    constructor
    · rintro ⟨⟨j, e, he, rfl⟩, htold⟩
      refine ⟨j, e, ⟨he, fun hpruned => ?_⟩, rfl⟩
      exact htold (b, e) ((PresenceStore.mem_expiredEntries ..).mpr ⟨j, hpruned, he⟩) hk rfl
    · rintro ⟨j, e, ⟨he, hstays⟩, rfl⟩
      refine ⟨⟨j, e, he, rfl⟩, ?_⟩
      rintro ⟨b', e'⟩ hexpired hk' hu
      obtain ⟨j', hpruned, he'⟩ := (PresenceStore.mem_expiredEntries ..).mp hexpired
      obtain rfl : b' = b := Option.some.inj ((hw.rooms b' k hk').2.symm.trans (hw.rooms b k hk).2)
      have hlive := (hw.isLive_iff b' e.userId j).mpr ⟨e, he, rfl⟩
      have hlive' := (hw.isLive_iff b' e.userId j').mpr ⟨e', he', hu⟩
      exact hlast b' j' j hpruned hstays hlive'.1 hlive.1 (hlive.2.trans hlive'.2.symm)

/-- The sockets that the cleanup would prune at a time. -/
def IsStale (w : World) (boardId : Uuid) (client : SocketId) (now : Timestamp) : Prop :=
  boardId ∈ w.presence.activeBoards ∧
    client ∈ w.presence.zrangebyscore boardId 0 (some ((now : Int) - staleThresholdMs))

/-- The clock is read after the boards: at the second time of the supply. -/
theorem viewing_presenceCleanup (hw : w.Viewing) (times : Nat → Timestamp)
    (hlast : ∀ b j j', w.IsStale b j (times 1) → ¬ w.IsStale b j' (times 1) → w.IsLive b j →
      w.IsLive b j' → w.userOf j' ≠ w.userOf j) :
    (BoardGateway.runPresenceCleanup.leaves answer times w).Viewing := by
  have hnothing : ∀ times : Nat → Timestamp,
      ((ask (Statement.emit []) : Procedure Unit).leaves answer times w).Viewing := fun _ => hw
  unfold BoardGateway.runPresenceCleanup PresenceService.cleanupStaleEntries
  rw [bind_assoc, leaves_ask_bind]
  split
  · exact hnothing _
  · rw [bind_assoc, leaves_ask_bind, bind_assoc, leaves_ask_bind]
    dsimp only
    split
    · exact hnothing _
    · simp only [IsStale, ← pruned_boardsWithStale] at hlast
      refine Ends.leaves_any ?_
      rw [bind_assoc, ends_ask_bind]
      intro _ _
      rw [bind_assoc, ends_bind, ends_doIf]
      constructor
      · intro _ _ _ _ _
        exact hw.pruned rfl rfl hlast
      · intro _ _ _
        exact hw.pruned rfl rfl hlast

/-- Nobody is announced as gone who has another live socket on the board, a join misses
no viewer, and only live sockets send heartbeats. -/
def KeepsRosters (w : World) : Turn → Prop
  | .message client (.boardJoin boardId) times =>
      ∀ user workspaceId, w.userOf client = some user → w.boards boardId = some workspaceId →
        (w.members workspaceId user).isSome →
          (∀ b, w.currentBoard client = some b → b ≠ boardId → w.LastOnBoard client b) ∧
            w.SeesViewers boardId user times
  | .message client (.boardLeave boardId) _ => w.LastOnBoard client boardId
  | .message client .heartbeat _ => ∀ b, w.currentBoard client = some b → w.IsLive b client
  | .disconnect client _ => ∀ b, w.currentBoard client = some b → w.LastOnBoard client b
  | .presenceCleanup times =>
      ∀ b j j', w.IsStale b j (times 1) → ¬ w.IsStale b j' (times 1) → w.IsLive b j →
        w.IsLive b j' → w.userOf j' ≠ w.userOf j
  | _ => True

theorem viewing_ofWorkspaces (hw : w.Viewing) {p : Procedure Unit}
    (hp : p.Only Statement.OfWorkspaces) (times : Nat → Timestamp) :
    (p.leaves answer times w).Viewing := by
  have hends : p.Ends answer (fun _ => True) Viewing w fun _ t => t.Viewing :=
    .of_only .refl (fun _ _ _ => .trans) sameBoards_answer hp (fun _ h => h.viewing hw)
      fun _ _ h => h.viewing hw
  exact hends.leaves_any

theorem Viewing.connect (hw : w.Viewing) (hnew : w.sockets client = none) (user : Uuid) :
    (w.connect client user).Viewing := by
  have hkept : ∀ k, k ≠ client → (w.connect client user).sockets k = w.sockets k := by
    intro k hk
    simp [World.connect, hk]
  refine ⟨fun b k e he => ?_, hw.active, fun b k hk => ?_, hw.rosters⟩
  · obtain ⟨hroom, hu⟩ := hw.entries b k e he
    rw [userOf, hkept k (hw.ne_of_new hnew hroom)]
    exact ⟨hroom, hu⟩
  · rw [IsConnected, currentBoard, hkept k (hw.ne_of_new hnew hk)]
    exact hw.rooms b k hk

theorem Viewing.turn (hw : w.Viewing) {a : Turn} (hg : w.KeepsRosters a) (h : w.turn a = some t) :
    t.Viewing := by
  cases turned_of_turn h with
  | @connected client user hnew => exact hw.connect hnew user
  | roleSet => exact ⟨hw.entries, hw.active, hw.rooms, hw.rosters⟩
  | boardChanged => exact ⟨hw.entries, hw.active, hw.rooms, hw.rosters⟩
  | @received client received times hopen =>
      obtain ⟨data, hdata⟩ := Option.isSome_iff_exists.mp (Option.isSome_of_any hopen)
      have huser : w.userOf client = some data.user := by simp [userOf, hdata]
      cases received with
      | boardJoin boardId =>
          exact (ends_handleBoardJoin hw hdata hopen fun W hb hm => hg data.user W huser hb hm).leaves
            fun n => ⟨n, rfl⟩
      | boardLeave boardId =>
          have hends : (BoardGateway.leaveBoardRoom client boardId).Ends answer (fun _ => True)
              Viewing w fun _ t => t.Viewing :=
            ends_leaveBoardRoom hw hdata fun t hd _ => hd.viewing hw huser hg
          exact hends.leaves_any
      | heartbeat => exact (ends_handleHeartbeat hw hg).leaves_any
      | cursor boardId => exact (ends_handleCursor hw).leaves_any
      | workspaceJoin workspaceId =>
          exact viewing_ofWorkspaces hw (only_handleWorkspaceJoin client workspaceId) times
      | workspaceLeave workspaceId =>
          exact viewing_ofWorkspaces hw (only_handleWorkspaceLeave client workspaceId) times
  | @disconnected client times hopen => exact viewing_disconnect hw hopen hg times
  | @cleanup times => exact viewing_presenceCleanup hw times hg

end World

/-- In every sequential run whose turns keep the rosters, every socket in a board room
shows the users of the live sockets on the board. -/
theorem rostersShown_of_keepsRosters (boards : Uuid → Option Uuid)
    (members : Uuid → Uuid → Option WorkspaceRole) {as : List Turn}
    (hg : AllSteps World.turn World.KeepsRosters (.startup boards members) as) :
    AllStates World.turn World.RostersShown (.startup boards members) as := by
  intro bs w hprefix run
  have hstart : (World.startup boards members).Viewing := by
    constructor <;> simp [World.startup, PresenceStore.sockets]
  have hend : w.Viewing :=
    run.guarded (fun _ _ _ hw ha hstep => hw.turn ha hstep) hstart (hg.shorten hprefix)
  exact hend.shown

/-- Board 1 belongs to workspace 3, of which users 5 and 6 are members. -/
def sharedBoard : World :=
  .startup (fun b => if b = 1 then some 3 else none)
    fun w u => if w = 3 ∧ (u = 5 ∨ u = 6) then some .member else none

/-- The second user joins after the first one, and leaves. -/
def seenAndGone : List Turn :=
  [.connect 8 5, .connect 9 6, .message 8 (.boardJoin 1) fun _ => 0,
    .message 9 (.boardJoin 1) fun _ => 0, .message 9 (.boardLeave 1) fun _ => 0]

theorem rostersShown_seenAndGone :
    AllStates World.turn World.RostersShown sharedBoard seenAndGone := by
  have hrecent : ((0 : Timestamp) : Int) - staleThresholdMs ≤ (0 : Timestamp) := by decide
  apply rostersShown_of_keepsRosters
  iterate 2
    refine allSteps_cons.mpr ⟨trivial, fun t ht => ?_⟩
    cases ht
  refine allSteps_cons.mpr ⟨?_, fun t ht => ?_⟩
  · intro user W hu _ _
    refine ⟨fun b hb => (nomatch hb), fun _ _ => hrecent, fun j u hlive => ?_⟩
    exact absurd hlive.1 (Finset.notMem_empty j)
  cases ht
  refine allSteps_cons.mpr ⟨?_, fun t ht => ?_⟩
  · intro user W hu _ _
    refine ⟨fun b hb => (nomatch hb), fun _ _ => hrecent, fun j u hlive hju _ _ => ?_⟩
    obtain rfl : j = 8 := Finset.mem_singleton.mp hlive.1
    exact ⟨8, 0, List.mem_singleton_self _, hrecent, hju⟩
  cases ht
  refine allSteps_cons.mpr ⟨?_, fun t ht => ?_⟩
  · intro _ j hne hlive
    obtain rfl : j = 8 := (Finset.mem_insert.mp hlive.1).elim (fun h => absurd h hne)
      Finset.mem_singleton.mp
    decide
  cases ht
  exact allSteps_nil

/-- The second user has the board open in two tabs and closes one of them. -/
def oneTabClosed : List Turn :=
  [.connect 8 5, .connect 9 6, .connect 10 6, .message 8 (.boardJoin 1) fun _ => 0,
    .message 9 (.boardJoin 1) fun _ => 0, .message 10 (.boardJoin 1) fun _ => 0,
    .disconnect 9 fun _ => 0]

/-- The first user no longer sees the second one, who is still there. -/
theorem oneTabClosed_hidden :
    ¬ ∀ (boards : Uuid → Option Uuid) (members : Uuid → Uuid → Option WorkspaceRole)
      (as : List Turn) (w : World), Run World.turn (.startup boards members) as w →
        w.RostersShown := by
  intro hall
  obtain ⟨w, hw⟩ : ∃ w, exec World.turn sharedBoard oneTabClosed = some w := ⟨_, rfl⟩
  have hshown := hall _ _ oneTabClosed w (run_of_exec hw)
  cases hw
  have hseen := (hshown 1 8 (by decide) 6).mpr ⟨10, ⟨by decide, by decide⟩, rfl⟩
  exact absurd hseen (by decide)

end SyncBoard.Realtime
