import SyncBoard.Realtime.PresenceStores
import SyncBoard.Realtime.ViewerRoster

/-!
# The staleness boundary

`getBoardViewers` asks for the scores from `now - STALE_THRESHOLD_MS` on, and
`cleanupStaleEntries` for those up to it. Both ranges are closed, so they overlap in the
threshold itself; and the cleanup looks only at the boards that are tracked.
-/

namespace SyncBoard.Realtime

open Labelled Interleaved Interleaved.Program
open Document (SocketId WorkspaceRole)

namespace PresenceStore

/-- No socket has two scores on a board, as in every sorted set. -/
def Distinct (s : PresenceStore) : Prop :=
  ∀ b, (s.sockets b).Nodup

theorem Distinct.zadd {s : PresenceStore} (hs : s.Distinct) (b : Uuid) (score : Timestamp)
    (k : SocketId) : (s.zadd b score k).Distinct := by
  intro b'
  by_cases hb : b' = b
  · subst hb
    have hothers : (((s.active b').filter fun member => member.1 ≠ k).map (·.1)).Nodup :=
      (hs b').sublist (List.filter_sublist.map _)
    have hnew : k ∉ ((s.active b').filter fun member => member.1 ≠ k).map (·.1) := by
      simp
    simpa [sockets, PresenceStore.zadd] using
      List.nodup_append.mpr ⟨hothers, List.nodup_singleton k, by
        intro j hj k' hk'
        rw [List.mem_singleton.mp hk']
        exact fun hjk => hnew (hjk ▸ hj)⟩
  · simpa [sockets, PresenceStore.zadd, hb] using hs b'

theorem Distinct.delete {s : PresenceStore} (hs : s.Distinct) (b : Uuid) (ks : List SocketId) :
    (s.delete b ks).Distinct := by
  intro b'
  by_cases hb : b' = b
  · subst hb
    have hkept : (((s.active b').filter fun member => member.1 ∉ ks).map (·.1)).Nodup :=
      (hs b').sublist (List.filter_sublist.map _)
    simpa [sockets, PresenceStore.delete, zrem, hdel] using hkept
  · simpa [sockets, PresenceStore.delete, zrem, hdel, hb] using hs b'

/-- A socket of a sorted set has one score. -/
theorem score_eq {s : PresenceStore} {b : Uuid} (hset : (s.sockets b).Nodup) {k : SocketId}
    {score score' : Timestamp} (h : (k, score) ∈ s.active b) (h' : (k, score') ∈ s.active b) :
    score = score' := by
  have hpair : (k, score) = (k, score') := List.inj_on_of_nodup_map hset h h' rfl
  exact congrArg Prod.snd hpair

end PresenceStore

theorem distinct_answer (now : Timestamp) (op : Statement) (w : World)
    (hw : w.presence.Distinct) : (answer now op w).2.presence.Distinct := by
  cases op with
  | register b score entry =>
      have hsadd : (w.presence.sadd b).Distinct := by
        intro b'
        have hactive : (w.presence.sadd b).active = w.presence.active := by
          unfold PresenceStore.sadd
          split <;> rfl
        rw [PresenceStore.sockets, hactive]
        exact hw b'
      exact hsadd.zadd b score entry.socketId
  | unregister b k => exact hw.delete b [k]
  | zadd b score k => exact hw.zadd b score k
  | prune boards => exact PresenceStore.prune_invariant (fun _ b ks hs => hs.delete b ks) hw
  | join k room => simpa [answer] using hw
  | emit emissions => simpa [answer] using hw
  | _ => exact hw

/-- Whatever calls interleave, the active sets stay sets. -/
theorem distinct_run (boards : Uuid → Option Uuid)
    (members : Uuid → Uuid → Option WorkspaceRole) {ms : List (Move PresenceCall Timestamp)}
    {p : PresencePool} (run : Run presenceStep { store := .startup boards members } ms p) :
    p.store.presence.Distinct := by
  have hstart : (World.startup boards members).presence.Distinct := by
    intro b
    simp [World.startup, PresenceStore.sockets]
  have hasked : ∀ call : PresenceCall, call.program.Only fun _ => True :=
    fun call => .any call.program
  exact Pool.invariant_of_only hasked (fun _ now op w _ hw => distinct_answer now op w hw)
    hstart run

namespace World

/-- The world in which the socket is the only one with metadata. -/
def onlyEntry (w : World) (boardId : Uuid) (client : SocketId) : World :=
  { w with
    presence :=
      { w.presence with
        entries := fun b k =>
          if b = boardId ∧ k = client then w.presence.entries boardId client else none } }

/-- `getBoardViewers` takes the socket into account: its metadata alone would make its
user a viewer. -/
def Shows (w : World) (boardId : Uuid) (now : Timestamp) (client : SocketId) : Prop :=
  ((PresenceService.getBoardViewers boardId).exec (answer now) (w.onlyEntry boardId client)).1 ≠
    .ok ∅

/-- `cleanupStaleEntries` takes the socket out of the active set. -/
def Prunes (w : World) (boardId : Uuid) (now : Timestamp) (client : SocketId) : Prop :=
  client ∈ w.presence.sockets boardId ∧
    client ∉ (PresenceService.cleanupStaleEntries.exec (answer now) w).2.presence.sockets boardId

variable (w : World) (boardId : Uuid) (now : Timestamp)

theorem getBoardViewers_exec : (PresenceService.getBoardViewers boardId).exec (answer now) w =
    (.ok (w.presence.viewers boardId now), w) := by
  unfold PresenceService.getBoardViewers PresenceStore.viewers
  rw [exec_ask_bind _ rfl, exec_ask_bind _ rfl]
  by_cases hnone : (w.presence.zrangebyscore boardId ((now : Int) - staleThresholdMs)
      none).isEmpty = true
  · rw [if_pos hnone, List.isEmpty_iff.mp hnone]
    rfl
  · rw [if_neg hnone]
    rfl

theorem shows_iff (client : SocketId) : w.Shows boardId now client ↔
    client ∈ w.presence.zrangebyscore boardId ((now : Int) - staleThresholdMs) none ∧
      (w.presence.entries boardId client).isSome := by
  have hviewer : w.Shows boardId now client ↔
      ∃ u, u ∈ (w.onlyEntry boardId client).presence.viewers boardId now := by
    rw [Shows, getBoardViewers_exec, ne_eq, Except.ok.injEq, ← ne_eq,
      ← Finset.nonempty_iff_ne_empty]
    exact Iff.rfl
  rw [hviewer, PresenceStore.mem_zrangebyscore_none, Option.isSome_iff_exists]
  simp only [PresenceStore.mem_viewers]
  constructor
  · rintro ⟨u, k, score, e, hactive, hfresh, he, -⟩
    have hk : k = client := by
      by_contra hother
      simp [onlyEntry, hother] at he
    subst hk
    exact ⟨⟨score, hactive, hfresh⟩, e, by simpa [onlyEntry] using he⟩
  · rintro ⟨⟨score, hactive, hfresh⟩, e, he⟩
    exact ⟨e.userId, client, score, e, hactive, hfresh, by simpa [onlyEntry] using he, rfl⟩

/-- The viewers are the users of the sockets that are taken into account. -/
theorem mem_viewers_iff_shows (u : Uuid) : u ∈ w.presence.viewers boardId now ↔
    ∃ k e, w.Shows boardId now k ∧ w.presence.entries boardId k = some e ∧ e.userId = u := by
  rw [PresenceStore.mem_viewers]
  simp only [shows_iff, PresenceStore.mem_zrangebyscore_none]
  constructor
  · rintro ⟨k, score, e, hactive, hfresh, he, hu⟩
    exact ⟨k, e, ⟨⟨score, hactive, hfresh⟩, by simp [he]⟩, he, hu⟩
  · rintro ⟨k, e, ⟨⟨score, hactive, hfresh⟩, -⟩, he, hu⟩
    exact ⟨k, score, e, hactive, hfresh, he, hu⟩

/-- The cleanup takes the stale sockets out of the active sets, and no others. -/
theorem mem_sockets_cleanup (client : SocketId) :
    client ∈ (PresenceService.cleanupStaleEntries.exec (answer now) w).2.presence.sockets boardId ↔
      client ∈ w.presence.sockets boardId ∧ ¬ w.IsStale boardId client now := by
  rw [IsStale, ← pruned_boardsWithStale]
  unfold PresenceService.cleanupStaleEntries
  rw [exec_ask_bind _ rfl]
  by_cases hnone : w.presence.activeBoards.isEmpty = true
  · rw [if_pos hnone, List.isEmpty_iff.mp hnone]
    simp [PresenceService.boardsWithStale, PresenceStore.Pruned]
  · rw [if_neg hnone, exec_ask_bind _ rfl, exec_ask_bind _ rfl]
    generalize PresenceService.boardsWithStale w.presence.activeBoards
      (w.presence.check w.presence.activeBoards ((now : Int) - staleThresholdMs)) = boards
    by_cases hfresh : boards.isEmpty = true
    · rw [if_pos hfresh, List.isEmpty_iff.mp hfresh]
      simp [PresenceStore.Pruned]
    · rw [if_neg hfresh, exec_ask_bind _ rfl, ← PresenceStore.mem_sockets_prune]
      -- the boards that are no longer tracked keep their active sets
      cases !(PresenceService.emptyBoardIds boards (w.presence.prune boards).1).isEmpty with
      | false => exact Iff.rfl
      | true => exact Iff.rfl

theorem prunes_iff (client : SocketId) : w.Prunes boardId now client ↔
    boardId ∈ w.presence.activeBoards ∧
      ∃ score : Timestamp, (client, score) ∈ w.presence.active boardId ∧
        (score : Int) ≤ now - staleThresholdMs := by
  rw [Prunes, mem_sockets_cleanup, IsStale]
  simp only [PresenceStore.zrangebyscore, PresenceStore.sockets, List.mem_map, List.mem_filter,
    Prod.exists, exists_and_right, exists_eq_right, Option.all_some, Bool.and_eq_true,
    decide_eq_true_eq, not_and, not_exists]
  constructor
  · rintro ⟨hsocket, hstale⟩
    by_contra hkept
    apply hstale hsocket
    intro hboard score hactive _ hold
    exact hkept ⟨hboard, score, hactive, hold⟩
  · rintro ⟨hboard, score, hactive, hold⟩
    have hclock : (0 : Int) ≤ score := by omega
    exact ⟨⟨score, hactive⟩, fun _ hkept => hkept hboard score hactive hclock hold⟩

/-- Every socket of the active set either counts for the viewers or is pruned. -/
def BoundaryAgrees : Prop :=
  ∀ k ∈ w.presence.sockets boardId, w.Prunes boardId now k ↔ ¬ w.Shows boardId now k

/-- On a tracked board no heartbeat is exactly as old as the threshold, and on one that is
not tracked none is older. -/
def OffBoundary : Prop :=
  ∀ member ∈ w.presence.active boardId,
    (boardId ∈ w.presence.activeBoards → (member.2 : Int) ≠ now - staleThresholdMs) ∧
      (boardId ∉ w.presence.activeBoards → (now : Int) - staleThresholdMs ≤ member.2)

section Member
variable {w boardId now} {client : SocketId} {score : Timestamp}

theorem prunes_iff_of_mem (hset : (w.presence.sockets boardId).Nodup)
    (hmember : (client, score) ∈ w.presence.active boardId) :
    w.Prunes boardId now client ↔
      boardId ∈ w.presence.activeBoards ∧ (score : Int) ≤ now - staleThresholdMs := by
  rw [prunes_iff]
  constructor
  · rintro ⟨hboard, score', hactive, hold⟩
    rw [PresenceStore.score_eq hset hmember hactive]
    exact ⟨hboard, hold⟩
  · rintro ⟨hboard, hold⟩
    exact ⟨hboard, score, hmember, hold⟩

theorem shows_iff_of_mem (hset : (w.presence.sockets boardId).Nodup)
    (hentry : (w.presence.entries boardId client).isSome)
    (hmember : (client, score) ∈ w.presence.active boardId) :
    w.Shows boardId now client ↔ (now : Int) - staleThresholdMs ≤ score := by
  rw [shows_iff, PresenceStore.mem_zrangebyscore_none, and_iff_left hentry]
  constructor
  · rintro ⟨score', hactive, hfresh⟩
    rw [PresenceStore.score_eq hset hmember hactive]
    exact hfresh
  · intro hfresh
    exact ⟨score, hmember, hfresh⟩

end Member

theorem boundaryAgrees_iff (hset : (w.presence.sockets boardId).Nodup)
    (hmeta : ∀ k ∈ w.presence.sockets boardId, (w.presence.entries boardId k).isSome) :
    w.BoundaryAgrees boardId now ↔ w.OffBoundary boardId now := by
  rw [BoundaryAgrees, PresenceStore.sockets, List.forall_mem_map]
  apply forall₂_congr
  rintro ⟨client, score⟩ hmember
  have hentry := hmeta client (List.mem_map_of_mem hmember)
  rw [prunes_iff_of_mem hset hmember, shows_iff_of_mem hset hentry hmember]
  by_cases hboard : boardId ∈ w.presence.activeBoards
  · simp only [hboard, true_and, true_implies, not_true_eq_false, false_implies, and_true]
    omega
  · simp only [hboard, false_and, false_iff, not_not, false_implies, not_false_eq_true,
      true_implies, true_and]

end World

/-- Socket 8 of user 5 is on board 1, with its last heartbeat at time 0. -/
def lastHeartbeat : World where
  presence := PresenceStore.register {} 1 0 ⟨5, 8⟩
  boards _ := none
  members _ _ := none

theorem boundaryAgrees_iff_beforeThreshold :
    lastHeartbeat.BoundaryAgrees 1 89999 ↔ lastHeartbeat.OffBoundary 1 89999 := by
  apply World.boundaryAgrees_iff
  · decide
  · decide

/-- When the threshold has passed exactly, the socket is shown as a viewer and pruned. -/
theorem shownAndPruned : ¬ ∀ (w : World) (boardId : Uuid) (now : Timestamp),
    w.presence.Distinct →
      (∀ k ∈ w.presence.sockets boardId, (w.presence.entries boardId k).isSome) →
        w.BoundaryAgrees boardId now := by
  intro hall
  have hempty : (PresenceStore.sadd {} 1).Distinct := by
    intro b
    exact List.nodup_nil
  have hdistinct : lastHeartbeat.presence.Distinct := hempty.zadd 1 0 8
  have hagrees := hall lastHeartbeat 1 90000 hdistinct (by decide)
  have hpruned : lastHeartbeat.Prunes 1 90000 8 :=
    (World.prunes_iff lastHeartbeat 1 90000 8).mpr ⟨by decide, 0, by decide, by decide⟩
  have hshown : lastHeartbeat.Shows 1 90000 8 :=
    (World.shows_iff lastHeartbeat 1 90000 8).mpr ⟨by decide, by decide⟩
  exact (hagrees 8 (by decide)).mp hpruned hshown

end SyncBoard.Realtime
