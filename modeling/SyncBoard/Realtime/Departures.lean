import SyncBoard.Realtime.Viewing

/-!
# Leaving a board

`board:leave`, the switch to another board and a disconnect all delete the entry of the
socket and announce its user as gone, whether or not another socket of the user is
still on the board.
-/

namespace SyncBoard.Realtime

open Interleaved Interleaved.Program
open Document (SocketId)

namespace World

/-- If the socket is live on the board, it is the only one of its user. -/
def LastOnBoard (w : World) (client : SocketId) (boardId : Uuid) : Prop :=
  w.IsLive boardId client →
    ∀ j, j ≠ client → w.IsLive boardId j → w.userOf j ≠ w.userOf client

variable {w t : World} {client : SocketId} {boardId user : Uuid} {thrown : World → Prop}
  {given : Timestamp → Prop}

/-- The socket is off the board, and the others have been told where it was registered. -/
structure Departed (w t : World) (client : SocketId) (boardId user : Uuid) : Prop where
  rooms : ∀ b k, k ∈ t.rooms (.board b) ↔
    k ∈ w.rooms (.board b) ∧ ¬ (b = boardId ∧ k = client)
  userOf : t.userOf = w.userOf
  entries : ∀ b k, t.presence.entries b k =
    if b = boardId ∧ k = client then none else w.presence.entries b k
  sockets : ∀ b k, k ∈ t.presence.sockets b ↔
    k ∈ w.presence.sockets b ∧ ¬ (b = boardId ∧ k = client)
  elsewhere : ∀ b, b ≠ boardId → t.presence.active b = w.presence.active b
  seated : ∀ b, ∀ k ∈ t.rooms (.board b), t.IsConnected k = true ∧ t.currentBoard k = some b
  rosters : ∀ b, ∀ k ∈ t.rooms (.board b), t.roster k =
    if b = boardId ∧ (w.presence.entries boardId client).isSome then (w.roster k).erase user
    else w.roster k

/-- Where the user has no other socket on the board, the rosters are right again. -/
theorem Departed.viewing (hd : Departed w t client boardId user) (hw : w.Viewing)
    (huser : w.userOf client = some user) (hlast : w.LastOnBoard client boardId) : t.Viewing where
  entries b k e he := by
    rw [hd.entries] at he
    split at he
    · cases he
    · rename_i hother
      rw [hd.rooms, hd.userOf]
      obtain ⟨hroom, hu⟩ := hw.entries b k e he
      exact ⟨⟨hroom, hother⟩, hu⟩
  active b k := by
    rw [hd.sockets, hd.entries, hw.active]
    split
    · rename_i hself
      simp [hself]
    · rename_i hother
      simp [hother]
  rooms := hd.seated
  rosters b k hk u := by
    have hbefore := hw.rosters b k ((hd.rooms b k).mp hk).1 u
    rw [hd.rosters b k hk]
    simp only [hd.entries]
    split
    · rename_i htold
      obtain ⟨rfl, hregistered⟩ := htold
      obtain ⟨mine, hmine⟩ := Option.isSome_iff_exists.mp hregistered
      have hlive := (hw.isLive_iff b mine.userId client).mpr ⟨mine, hmine, rfl⟩
      rw [Finset.mem_erase, hbefore]
      constructor
      · rintro ⟨hne, j, e, he, rfl⟩
        have hj : j ≠ client := by
          rintro rfl
          exact hne (Option.some.inj ((hw.entries b j e he).2.symm.trans huser))
        exact ⟨j, e, by rw [if_neg fun h => hj h.2]; exact he, rfl⟩
      · rintro ⟨j, e, he, rfl⟩
        split at he
        · cases he
        · rename_i hj
          have hj : j ≠ client := fun h => hj ⟨rfl, h⟩
          have hother := (hw.isLive_iff b e.userId j).mpr ⟨e, he, rfl⟩
          refine ⟨fun hu => hlast hlive.1 j hj hother.1 ?_, j, e, he, rfl⟩
          rw [hother.2, huser, hu]
    · rename_i htold
      rw [hbefore]
      refine exists_congr fun j => exists_congr fun e => ?_
      split
      · rename_i hself
        obtain ⟨rfl, rfl⟩ := hself
        have hnone : w.presence.entries b j = none := by
          simpa using htold
        simp [hnone]
      · rfl

theorem ends_removePresence {post : Option PresenceEntry → World → Prop}
    (hpost : ∀ s : PresenceStore, s.active = (w.presence.delete boardId [client]).active →
      s.entries = (w.presence.delete boardId [client]).entries →
        post (w.presence.entries boardId client) { w with presence := s }) :
    (PresenceService.removePresence boardId client).Ends answer given thrown w post := by
  unfold PresenceService.removePresence
  rw [ends_ask_bind]
  intro now _
  rw [ends_bind, ends_doIf]
  constructor
  · intro _ later _
    exact hpost _ rfl rfl
  · intro _
    exact hpost _ rfl rfl

/-- The others are told, where an entry was removed. -/
def announced (w : World) (target : Target) (user : Uuid) (removed : Option PresenceEntry) :
    World :=
  if removed.isSome then w.deliver ⟨target, .boardPresence user .left⟩ else w

theorem ends_announceLeft {target : Target} {removed : Option PresenceEntry} {data : SocketData}
    {post : Unit → World → Prop} (hpost : post () (w.announced target data.user removed)) :
    (BoardGateway.announceLeft target removed (some data)).Ends answer given thrown w post := by
  cases removed with
  | none => exact hpost
  | some entry => exact fun _ _ => hpost

section Announced
variable (target : Target) (removed : Option PresenceEntry)

@[simp] theorem rooms_announced : (w.announced target user removed).rooms = w.rooms := by
  unfold announced
  split <;> rfl

@[simp] theorem sockets_announced : (w.announced target user removed).sockets = w.sockets := by
  unfold announced
  split <;> rfl

@[simp] theorem presence_announced : (w.announced target user removed).presence = w.presence := by
  unfold announced
  split <;> rfl

theorem roster_announced (k : SocketId) : (w.announced target user removed).roster k =
    if k ∈ w.recipients target ∧ removed.isSome then (w.roster k).erase user else w.roster k := by
  unfold announced
  by_cases hremoved : removed.isSome = true
  · rw [if_pos hremoved, roster, replayed_deliver]
    simp [hremoved, roster, applyPresence]
  · simp [hremoved]

end Announced

/-- The socket has left the room, the stores have deleted it and the room is told. -/
theorem departed_announced {gone : World} {s : PresenceStore} {target : Target} (hw : w.Viewing)
    (hrooms : ∀ b k, k ∈ gone.rooms (.board b) ↔
      k ∈ w.rooms (.board b) ∧ ¬ (b = boardId ∧ k = client))
    (hinbox : gone.inbox = w.inbox) (huserOf : gone.userOf = w.userOf)
    (hseated : ∀ b, ∀ k ∈ gone.rooms (.board b),
      gone.IsConnected k = true ∧ gone.currentBoard k = some b)
    (hactive : s.active = (w.presence.delete boardId [client]).active)
    (hentries : s.entries = (w.presence.delete boardId [client]).entries)
    (htarget : ∀ k, k ∈ gone.recipients target ↔ k ∈ gone.rooms (.board boardId)) :
    Departed w (({ gone with presence := s } : World).announced target user
      (w.presence.entries boardId client)) client boardId user where
  rooms b k := by
    rw [rooms_announced]
    exact hrooms b k
  userOf := by
    rw [← huserOf]
    funext k
    simp [World.userOf]
  entries b k := by
    have hdelete := w.presence.entries_delete boardId [client] b k
    simp only [List.mem_singleton] at hdelete
    rw [presence_announced, ← hdelete, ← hentries]
  sockets b k := by
    have hdelete := w.presence.mem_sockets_delete boardId [client] k b
    rw [List.mem_singleton] at hdelete
    rw [presence_announced, ← hdelete, PresenceStore.sockets, hactive, PresenceStore.sockets]
  elsewhere b hb := by
    rw [presence_announced, hactive]
    simp [PresenceStore.delete, PresenceStore.zrem, PresenceStore.hdel, hb]
  seated b k hk := by
    rw [rooms_announced] at hk
    simpa [IsConnected, currentBoard] using hseated b k hk
  rosters b k hk := by
    have hbefore : ({ gone with presence := s } : World).roster k = w.roster k := by
      rw [roster, replayed, roster, replayed, hinbox]
    have hreached : k ∈ ({ gone with presence := s } : World).recipients target ↔
        b = boardId := by
      rw [rooms_announced] at hk
      have hkb := (hrooms b k).mp hk
      refine (htarget k).trans ((hrooms boardId k).trans ⟨fun hroom => ?_, ?_⟩)
      · exact Option.some.inj ((hw.rooms b k hkb.1).2.symm.trans (hw.rooms boardId k hroom.1).2)
      · rintro rfl
        exact hkb
    rw [roster_announced, hbefore]
    simp only [hreached]

/-- Forgetting the board that the socket has left. -/
theorem Departed.reset (hd : Departed w t client boardId user) :
    Departed w (t.modifySocket client fun data =>
      if data.currentBoardId = some boardId then { data with currentBoardId := none } else data)
      client boardId user where
  rooms := hd.rooms
  userOf := by
    rw [← hd.userOf]
    funext k
    apply userOf_modifySocket
    intro data
    split <;> rfl
  entries := hd.entries
  sockets := hd.sockets
  elsewhere := hd.elsewhere
  seated b k hk := by
    obtain ⟨hopen, hcurrent⟩ := hd.seated b k hk
    constructor
    · rw [isConnected_modifySocket]
      · exact hopen
      · intro data
        split <;> rfl
    · rw [currentBoard_modifySocket]
      split
      · rename_i hself
        subst hself
        obtain ⟨data, hdata, hb⟩ := Option.bind_eq_some_iff.mp hcurrent
        have hne : b ≠ boardId := fun h => ((hd.rooms b k).mp hk).2 ⟨h, rfl⟩
        simp [hdata, hb, hne]
      · exact hcurrent
  rosters := hd.rosters

theorem ends_leaveBoardRoom (hw : w.Viewing) {data : SocketData}
    (hdata : w.sockets client = some data) {post : Unit → World → Prop}
    (hpost : ∀ t, Departed w t client boardId data.user →
      t.IsConnected client = w.IsConnected client → post () t) :
    (BoardGateway.leaveBoardRoom client boardId).Ends answer given thrown w post := by
  have hrooms : ∀ b k, k ∈ (w.leave client (.board boardId)).rooms (.board b) ↔
      k ∈ w.rooms (.board b) ∧ ¬ (b = boardId ∧ k = client) := by
    intro b k
    rw [mem_rooms_leave, Room.board.injEq]
  unfold BoardGateway.leaveBoardRoom
  rw [ends_ask_bind]
  intro _ _
  rw [ends_ask_bind]
  intro _ _
  simp only [answer, hdata]
  rw [ends_bind]
  refine ends_removePresence fun s hactive hentries => ?_
  rw [ends_bind]
  refine ends_announceLeft ?_
  intro _ _
  refine hpost _ (Departed.reset (departed_announced hw hrooms rfl rfl ?_ hactive hentries ?_)) ?_
  · intro b k hk
    exact hw.rooms b k ((hrooms b k).mp hk).1
  · intro k
    have hself : client ∉ (w.leave client (.board boardId)).rooms (.board boardId) := by
      simp [hrooms]
    exact ⟨fun hk => Finset.mem_of_mem_erase hk,
      fun hk => Finset.mem_erase.mpr ⟨fun h => hself (h ▸ hk), hk⟩⟩
  · rw [answer, isConnected_modifySocket]
    · simp [IsConnected, leave]
    · intro data
      split <;> rfl

theorem mem_rooms_close (w : World) (client k : SocketId) (room : Room) :
    k ∈ (w.close client).rooms room ↔ k ≠ client ∧ k ∈ w.rooms room :=
  Finset.mem_erase

/-- The sockets that are left are seated as before. -/
theorem Viewing.seated_close (hw : w.Viewing) (b : Uuid) {k : SocketId}
    (hk : k ∈ (w.close client).rooms (.board b)) :
    (w.close client).IsConnected k = true ∧ (w.close client).currentBoard k = some b := by
  obtain ⟨hne, hroom⟩ := (w.mem_rooms_close client k _).mp hk
  have hseated := hw.rooms b k hroom
  simpa [close, modifySocket, IsConnected, currentBoard, hne] using hseated

/-- A socket without a current board closes unnoticed. -/
theorem Viewing.close (hw : w.Viewing) (hnone : w.currentBoard client = none) :
    (w.close client).Viewing where
  entries b k e he := by
    obtain ⟨hroom, hu⟩ := hw.entries b k e he
    have hne : k ≠ client := by
      rintro rfl
      exact nomatch hnone.symm.trans (hw.rooms b k hroom).2
    rw [mem_rooms_close, userOf_close]
    exact ⟨⟨hne, hroom⟩, hu⟩
  active := hw.active
  rooms b k hk := hw.seated_close b hk
  rosters b k hk u := hw.rosters b k ((w.mem_rooms_close client k _).mp hk).2 u

theorem ends_clearPresence_viewing (hw : w.Viewing) {data : SocketData}
    (hdata : w.sockets client = some data)
    (hlast : ∀ b, w.currentBoard client = some b → w.LastOnBoard client b)
    {post : Unit → World → Prop} (hpost : ∀ t : World, t.Viewing → post () t) :
    (BoardGateway.clearPresence client { data with connected := false }).Ends answer given thrown
      (w.close client) post := by
  have huser : w.userOf client = some data.user := by simp [userOf, hdata]
  have hcurrent : w.currentBoard client = data.currentBoardId := by simp [currentBoard, hdata]
  unfold BoardGateway.clearPresence
  dsimp only
  cases hboard : data.currentBoardId with
  | none => exact hpost _ (hw.close (hcurrent.trans hboard))
  | some b =>
      have hin := hcurrent.trans hboard
      have hrooms : ∀ b' k, k ∈ (w.close client).rooms (.board b') ↔
          k ∈ w.rooms (.board b') ∧ ¬ (b' = b ∧ k = client) := by
        intro b' k
        rw [mem_rooms_close]
        constructor
        · rintro ⟨hne, hk⟩
          exact ⟨hk, fun h => hne h.2⟩
        · rintro ⟨hk, hother⟩
          refine ⟨fun h => hother ⟨?_, h⟩, hk⟩
          subst h
          exact Option.some.inj ((hw.rooms b' k hk).2.symm.trans hin)
      dsimp only
      rw [ends_bind]
      refine ends_removePresence fun s hactive hentries => ends_announceLeft ?_
      have hgone : Departed w (({ w.close client with presence := s } : World).announced
          (.room (.board b)) data.user (w.presence.entries b client)) client b data.user :=
        departed_announced hw hrooms rfl (w.userOf_close client)
          (fun b' _ hk => hw.seated_close b' hk) hactive hentries fun _ => Iff.rfl
      exact hpost _ (hgone.viewing hw huser (hlast b hin))

theorem viewing_disconnect (hw : w.Viewing) (hopen : w.IsConnected client = true)
    (hlast : ∀ b, w.currentBoard client = some b → w.LastOnBoard client b)
    (times : Nat → Timestamp) :
    ((BoardGateway.handleDisconnect client).leaves answer times (w.close client)).Viewing := by
  obtain ⟨data, hdata⟩ := Option.isSome_iff_exists.mp (Option.isSome_of_any hopen)
  have hclosed : (w.close client).sockets client = some { data with connected := false } := by
    simp [World.close, modifySocket, hdata]
  have hends : (BoardGateway.handleDisconnect client).Ends answer (fun _ => True) Viewing
      (w.close client) fun _ t => t.Viewing := by
    unfold BoardGateway.handleDisconnect
    rw [ends_ask_bind]
    intro _ _
    simp only [answer, hclosed, demand_some_bind]
    rw [ends_bind]
    refine ends_clearPresence_viewing hw hdata hlast fun t ht => ?_
    rw [ends_ask_bind]
    intro _ _
    exact .of_only .refl (fun _ _ _ => .trans) sameBoards_answer (only_announceOffline client _ _)
      (fun _ h => h.viewing ht) fun _ _ h => h.viewing ht
  exact hends.leaves_any

end World

end SyncBoard.Realtime
