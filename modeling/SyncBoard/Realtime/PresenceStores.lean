import SyncBoard.Realtime.Presence

/-!
# The three presence stores

A socket in an active set should have its metadata, and a board with a socket in
its active set should be among the active boards, where the cleanup looks. The
pipelines keep both; `updateHeartbeat` and the separate `SREM` may not.
-/

namespace SyncBoard.Realtime

open Labelled Interleaved
open Document (SocketId WorkspaceRole)

/-- The calls of `PresenceService` that write. -/
inductive PresenceCall
  | addPresence (boardId : Uuid) (entry : PresenceEntry)
  | removePresence (boardId : Uuid) (socketId : SocketId)
  | updateHeartbeat (boardId : Uuid) (socketId : SocketId)
  | cleanupStaleEntries
  deriving DecidableEq, Repr

def PresenceCall.program : PresenceCall → Procedure Unit
  | .addPresence boardId entry => PresenceService.addPresence boardId entry
  | .removePresence boardId socketId => do
      let _ ← PresenceService.removePresence boardId socketId
  | .updateHeartbeat boardId socketId => PresenceService.updateHeartbeat boardId socketId
  | .cleanupStaleEntries => do
      let _ ← PresenceService.cleanupStaleEntries

/-- The calls that have started, with the stores. -/
abbrev PresencePool := Pool Statement Answer WsError PresenceCall World

abbrev presenceStep : PresencePool → Move PresenceCall Timestamp → Option PresencePool :=
  Pool.step answer PresenceCall.program

/-- Active sockets have metadata, and boards with active sockets are tracked. -/
structure StoresAgree (s : PresenceStore) : Prop where
  entries : ∀ b, ∀ k ∈ s.sockets b, (s.entries b k).isSome
  activeBoards : ∀ b, s.sockets b ≠ [] → b ∈ s.activeBoards

/-- A heartbeat finds the metadata of its socket and its board tracked, and a board that
stops being tracked has no active socket. -/
def KeepsAgreement (s : PresenceStore) : Statement → Prop
  | .zadd boardId _ socketId =>
      (s.entries boardId socketId).isSome ∧ boardId ∈ s.activeBoards
  | .srem boardIds => ∀ b ∈ boardIds, s.sockets b = []
  | _ => True

namespace StoresAgree
variable {s : PresenceStore}

theorem register (hs : StoresAgree s) (b : Uuid) (now : Timestamp) (entry : PresenceEntry) :
    StoresAgree (s.register b now entry) where
  entries b' k hk := by
    rw [s.entries_register]
    split
    · rfl
    · rename_i hother
      exact hs.entries b' k (((s.mem_sockets_register b now entry k b').mp hk).resolve_right hother)
  activeBoards b' hb' := by
    obtain ⟨k, hk⟩ := List.exists_mem_of_ne_nil _ hb'
    rw [s.mem_activeBoards_register]
    rcases (s.mem_sockets_register b now entry k b').mp hk with hk | ⟨hb, -⟩
    · exact .inl (hs.activeBoards b' (List.ne_nil_of_mem hk))
    · exact .inr hb

theorem delete (hs : StoresAgree s) (b : Uuid) (ks : List SocketId) :
    StoresAgree (s.delete b ks) where
  entries b' k hk := by
    obtain ⟨hbefore, hother⟩ := (s.mem_sockets_delete b ks k b').mp hk
    rw [s.entries_delete, if_neg hother]
    exact hs.entries b' k hbefore
  activeBoards b' hb' := by
    obtain ⟨k, hk⟩ := List.exists_mem_of_ne_nil _ hb'
    exact hs.activeBoards b' (List.ne_nil_of_mem ((s.mem_sockets_delete b ks k b').mp hk).1)

/-- A board may stop being tracked exactly when it has no active socket. -/
theorem srem_iff (hs : StoresAgree s) (boardIds : List Uuid) :
    StoresAgree (s.srem boardIds) ↔ ∀ b ∈ boardIds, s.sockets b = [] := by
  constructor
  · intro hs' b hb
    by_contra hactive
    have htracked : b ∈ (s.srem boardIds).activeBoards := hs'.activeBoards b hactive
    simp [PresenceStore.srem, hb] at htracked
  · intro hempty
    refine ⟨hs.entries, fun b hactive => ?_⟩
    have hkept : b ∉ boardIds := fun hb => hactive (hempty b hb)
    simpa [PresenceStore.srem, hkept] using hs.activeBoards b hactive

/-- A heartbeat may register a socket exactly when the other two stores have it. -/
theorem zadd_iff (hs : StoresAgree s) (b : Uuid) (now : Timestamp) (k : SocketId) :
    StoresAgree (s.zadd b now k) ↔ (s.entries b k).isSome ∧ b ∈ s.activeBoards := by
  have hmem : k ∈ (s.zadd b now k).sockets b := (s.mem_sockets_zadd b now k k b).mpr (.inr ⟨rfl, rfl⟩)
  constructor
  · intro hs'
    exact ⟨hs'.entries b k hmem, hs'.activeBoards b (List.ne_nil_of_mem hmem)⟩
  · rintro ⟨hentry, htracked⟩
    constructor
    · intro b' j hj
      rcases (s.mem_sockets_zadd b now k j b').mp hj with hj | ⟨rfl, rfl⟩
      · exact hs.entries b' j hj
      · exact hentry
    · intro b' hb'
      obtain ⟨j, hj⟩ := List.exists_mem_of_ne_nil _ hb'
      rcases (s.mem_sockets_zadd b now k j b').mp hj with hj | ⟨rfl, -⟩
      · exact hs.activeBoards b' (List.ne_nil_of_mem hj)
      · exact htracked

/-- Among all statements, only a heartbeat and an `SREM` can break the agreement. -/
theorem answer_iff {w : World} (hs : StoresAgree w.presence) (now : Timestamp) (op : Statement) :
    StoresAgree (answer now op w).2.presence ↔ KeepsAgreement w.presence op := by
  cases op with
  | register b score entry => exact iff_of_true (hs.register b score entry) trivial
  | unregister b k => exact iff_of_true (hs.delete b [k]) trivial
  | prune boards =>
      exact iff_of_true (PresenceStore.prune_invariant (fun _ b ks hs => hs.delete b ks) hs) trivial
  | srem boardIds => exact hs.srem_iff boardIds
  | zadd b score k => exact hs.zadd_iff b score k
  | emit emissions =>
      refine iff_of_true ?_ trivial
      simpa [answer] using hs
  | join k room =>
      refine iff_of_true ?_ trivial
      simpa [answer] using hs
  | _ => exact iff_of_true hs trivial

end StoresAgree

theorem storesAgree_startup (boards : Uuid → Option Uuid)
    (members : Uuid → Uuid → Option WorkspaceRole) :
    StoresAgree (World.startup boards members).presence := by
  constructor <;> simp [World.startup, PresenceStore.sockets]

/-- From empty stores, and whatever the interleaving, the stores agree in every state of
a run exactly when every heartbeat and every `SREM` finds what it relies on. -/
theorem storesAgree_iff (boards : Uuid → Option Uuid)
    (members : Uuid → Uuid → Option WorkspaceRole) {ms : List (Move PresenceCall Timestamp)}
    {p : PresencePool} (run : Run presenceStep { store := .startup boards members } ms p) :
    AllStates presenceStep (fun p => StoresAgree p.store.presence)
        { store := .startup boards members } ms ↔
      AllSteps presenceStep
        (Pool.OnStatement fun _ _ w _ op => KeepsAgreement w.presence op)
        { store := .startup boards members } ms := by
  apply allStates_iff_allSteps (I := fun _ => True) (fun _ _ _ _ _ => trivial) _ run trivial
    (storesAgree_startup boards members)
  intro p m p' _ hagree hstep
  cases m with
  | start call =>
      obtain rfl := Pool.step_start.mp hstep
      exact iff_of_true hagree trivial
  | resume i now =>
      obtain ⟨task, op, next, hasks, rfl⟩ := Pool.step_resume.mp hstep
      rw [Pool.onStatement_of_asks hasks]
      exact hagree.answer_iff now op

/-- Socket 8 of user 5 views board 1 and leaves it. -/
def viewedAndLeft : List (Move PresenceCall Timestamp) :=
  [.start (.addPresence 1 ⟨5, 8⟩), .resume 0 0, .resume 0 0, .start (.removePresence 1 8),
    .resume 1 0, .resume 1 0]

theorem storesAgree_iff_viewedAndLeft :
    AllStates presenceStep (fun p => StoresAgree p.store.presence)
        { store := .startup (fun _ => none) fun _ _ => none } viewedAndLeft ↔
      AllSteps presenceStep
        (Pool.OnStatement fun _ _ w _ op => KeepsAgreement w.presence op)
        { store := .startup (fun _ => none) fun _ _ => none } viewedAndLeft := by
  obtain ⟨p, hp⟩ : ∃ p, exec presenceStep
      { store := .startup (fun _ => none) fun _ _ => none } viewedAndLeft = some p := ⟨_, rfl⟩
  exact storesAgree_iff _ _ (run_of_exec hp)

/-- A heartbeat of the socket is under way while it leaves. -/
def heartbeatDuringLeave : List (Move PresenceCall Timestamp) :=
  [.start (.addPresence 1 ⟨5, 8⟩), .resume 0 0, .resume 0 0, .start (.updateHeartbeat 1 8),
    .resume 1 30000, .start (.removePresence 1 8), .resume 2 30000, .resume 1 30000,
    .resume 2 30000]

/-- The heartbeat leaves an active socket without metadata on a board that no cleanup
visits. -/
theorem heartbeatDuringLeave_ghost :
    ¬ ∀ (boards : Uuid → Option Uuid) (members : Uuid → Uuid → Option WorkspaceRole)
      (ms : List (Move PresenceCall Timestamp)) (p : PresencePool),
      Run presenceStep { store := .startup boards members } ms p →
        StoresAgree p.store.presence := by
  intro hall
  obtain ⟨p, hp⟩ : ∃ p, exec presenceStep
      { store := .startup (fun _ => none) fun _ _ => none } heartbeatDuringLeave = some p :=
    ⟨_, rfl⟩
  have hagree := hall _ _ heartbeatDuringLeave p (run_of_exec hp)
  have hghost : 8 ∈ p.store.presence.sockets 1 ∧ p.store.presence.entries 1 8 = none := by
    cases hp
    exact ⟨by decide, rfl⟩
  have hentry := hagree.entries 1 8 hghost.1
  rw [hghost.2] at hentry
  cases hentry

end SyncBoard.Realtime
