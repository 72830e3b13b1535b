import SyncBoard.Document.Registrations

/-!
# The rooms of documents

A document stays in its workspace: no action rewrites the workspace of a row. A socket
enters the room of a document in one place, where `handleJoin` goes on after its load.
-/

namespace SyncBoard.Document

open Labelled

variable {U : Type}

namespace HubState

/-- The workspace of a document, archived or not. -/
def workspaceOf (s : HubState U) (documentId : Uuid) : Option Uuid :=
  (s.rows documentId).map (·.workspaceId)

/-- The actions that write no row. -/
theorem workspaceOf_congr {s s' : HubState U} (h : s'.rows = s.rows) :
    s'.workspaceOf = s.workspaceOf := by
  funext d
  rw [workspaceOf, workspaceOf, h]

/-- Rewriting the state or the status of a row leaves its workspace. -/
theorem workspaceOf_update {s s' : HubState U} {d : Uuid} {row row' : DocumentRow U}
    (hrow : s.rows d = some row) (h : s'.rows = Function.update s.rows d (some row'))
    (hsame : row'.workspaceId = row.workspaceId) : s'.workspaceOf = s.workspaceOf := by
  funext d'
  rw [workspaceOf, workspaceOf, h]
  by_cases hd : d' = d
  · subst hd
    simp [hrow, hsame]
  · simp [hd]

@[simp] theorem rows_getOrLoad (s : HubState U) (d : Uuid) : (s.getOrLoad d).rows = s.rows := by
  unfold getOrLoad
  split
  · rfl
  · split <;> rfl

@[simp] theorem rows_scheduleSave (s : HubState U) (d : Uuid) :
    (s.scheduleSave d).rows = s.rows := by
  unfold scheduleSave
  split <;> rfl

@[simp] theorem rows_applyUpdate [DecidableEq U] (s : HubState U) (d : Uuid) (update : Finset U) :
    (s.applyUpdate d update).rows = s.rows := by
  unfold applyUpdate
  split
  · rfl
  · split
    · rfl
    · simp [onUpdate]

@[simp] theorem rows_addConnection (s : HubState U) (d : Uuid) (socketId : SocketId) :
    (s.addConnection d socketId).rows = s.rows := by
  unfold addConnection
  split <;> rfl

@[simp] theorem rows_removeConnection (s : HubState U) (d : Uuid) (socketId : SocketId) :
    (s.removeConnection d socketId).rows = s.rows := by
  unfold removeConnection
  split <;> rfl

theorem rows_persistNow {s t : HubState U} {d : Uuid} {forUnload : Bool} (h : t.rows = s.rows) :
    ((s.persistNow d forUnload).getD t).rows = s.rows := by
  cases hp : s.persistNow d forUnload with
  | none => exact h
  | some u =>
      obtain ⟨e, -, -, rfl⟩ := persistNow_eq_some hp
      rfl

/-- Only a commit and the archive route write a row, and neither moves it. -/
theorem workspaceOf_of_step [DecidableEq U] {s s' : HubState U} {a : HubAction U}
    (h : s.step a = some s') : s'.workspaceOf = s.workspaceOf := by
  cases a with
  | tick ms => cases h; rfl
  | getOrLoad d => cases h; exact workspaceOf_congr (s.rows_getOrLoad d)
  | loadRead d =>
      obtain ⟨-, rfl⟩ := loadRead_eq_some h
      rfl
  | loadFail d =>
      obtain ⟨-, rfl⟩ := loadFail_eq_some h
      rfl
  | loadDone d =>
      obtain ⟨yjsState, -, rfl⟩ := loadDone_eq_some h
      rfl
  | applyUpdate d update => cases h; exact workspaceOf_congr (s.rows_applyUpdate d update)
  | addConnection d socketId => cases h; exact workspaceOf_congr (s.rows_addConnection d socketId)
  | removeConnection d socketId =>
      cases h; exact workspaceOf_congr (s.rows_removeConnection d socketId)
  | timer e =>
      obtain ⟨cleared, rfl, rfl⟩ := timer_eq_some h
      exact workspaceOf_congr (rows_persistNow rfl)
  | commit call =>
      obtain ⟨c, rows, -, -, hrows, rfl⟩ := commit_eq_some h
      obtain ⟨row, hrow, rfl⟩ := Option.map_eq_some_iff.mp hrows
      exact workspaceOf_update hrow rfl rfl
  | resolve call =>
      obtain ⟨c, -, -, rfl⟩ := resolve_eq_some h
      rfl
  | reject call =>
      obtain ⟨c, -, rfl⟩ := Option.map_eq_some_iff.mp h
      rfl
  | unloadIdle d startedAt =>
      obtain ⟨e, -, rfl⟩ := unloadIdle_eq_some h
      exact workspaceOf_congr (rows_persistNow rfl)
  | evict unload =>
      obtain ⟨v, -, rfl⟩ := Option.map_eq_some_iff.mp h
      rfl
  | archive d =>
      obtain ⟨rows, hrows, rfl⟩ := Option.map_eq_some_iff.mp h
      obtain ⟨row, hrow, rfl⟩ := Option.map_eq_some_iff.mp hrows
      exact workspaceOf_update hrow rfl rfl

end HubState

namespace GatewayState

theorem rooms_leaveDocument_subset (s : GatewayState U) (socket : SocketId) (d d' : Uuid) :
    (s.leaveDocument socket d).rooms d' ⊆ s.rooms d' := by
  intro k hk
  have hrooms : (s.leaveDocument socket d).rooms =
      Function.update s.rooms d ((s.rooms d).erase socket) := rfl
  rw [hrooms] at hk
  by_cases hd : d' = d
  · subst hd
    rw [Function.update_self] at hk
    exact Finset.mem_of_mem_erase hk
  · rwa [Function.update_of_ne hd] at hk

theorem rows_leaveDocument (s : GatewayState U) (socket : SocketId) (d : Uuid) :
    (s.leaveDocument socket d).hub.rows = s.hub.rows :=
  s.hub.rows_removeConnection d socket

/-- `client.join` takes a connected socket into the room. -/
theorem mem_rooms_joinRoom (s : GatewayState U) (socket : SocketId) (d : Uuid) (k : SocketId)
    (d' : Uuid) : k ∈ (s.joinRoom socket d).rooms d' ↔
      k ∈ s.rooms d' ∨ (d' = d ∧ k = socket ∧ s.IsConnected socket = true) := by
  cases hsocket : s.sockets socket with
  | none => simp [joinRoom, IsConnected, hsocket]
  | some data =>
      obtain ⟨user, connected, current⟩ := data
      cases connected with
      | false => simp [joinRoom, IsConnected, hsocket]
      | true =>
          by_cases hd : d' = d
          · subst hd
            simp [joinRoom, IsConnected, hsocket, or_comm]
          · simp [joinRoom, IsConnected, hsocket, hd]

theorem hub_joinRoom (s : GatewayState U) (socket : SocketId) (d : Uuid) :
    (s.joinRoom socket d).hub = s.hub := by
  unfold joinRoom
  split <;> rfl

/-- What an action does to the rooms, and to the workspaces of the documents. -/
structure RoomEffect (s : GatewayState U) (a : GatewayAction U) (s' : GatewayState U) : Prop where
  workspaceOf : s'.hub.workspaceOf = s.hub.workspaceOf
  rooms : ∀ d k, k ∈ s'.rooms d → k ∈ s.rooms d ∨ ∃ call, a = .resume call ∧
    s.calls[call]? = some (.joinLoad k d .resolved) ∧ s.IsConnected k = true

/-- An action that takes nobody into a room. -/
theorem RoomEffect.of_subset {s s' : GatewayState U} {a : GatewayAction U}
    (hrows : s'.hub.rows = s.hub.rows) (hrooms : ∀ d, s'.rooms d ⊆ s.rooms d) :
    RoomEffect s a s' :=
  ⟨HubState.workspaceOf_congr hrows, fun d _ hk => .inl (hrooms d hk)⟩

theorem RoomEffect.subset {s s' : GatewayState U} {a : GatewayAction U} (h : RoomEffect s a s')
    (ha : ∀ call, a ≠ .resume call) (d : Uuid) : s'.rooms d ⊆ s.rooms d := by
  intro k hk
  refine (h.rooms d k hk).resolve_right ?_
  rintro ⟨call, hresume, -⟩
  exact ha call hresume

theorem roomEffect_of_step [DecidableEq U] {s s' : GatewayState U} {a : GatewayAction U}
    (h : s.step a = some s') : RoomEffect s a s' := by
  cases a with
  | hub a =>
      simp only [step, background] at h
      split at h
      · obtain ⟨hub, hhub, rfl⟩ := Option.map_eq_some_iff.mp h
        exact ⟨HubState.workspaceOf_of_step hhub, fun _ _ => .inl⟩
      · cases h
  | connect socket user =>
      simp only [step] at h
      split at h
      · cases h
      · cases h; exact .of_subset rfl fun _ => subset_rfl
  | setRole w u role => cases h; exact .of_subset rfl fun _ => subset_rfl
  | join socket d w =>
      simp only [step] at h
      split at h
      · cases h; exact .of_subset rfl fun _ => subset_rfl
      · cases h
  | update socket d payload =>
      simp only [step] at h
      split at h
      · cases h
        cases payload with
        | none => exact .of_subset rfl fun _ => subset_rfl
        | some update => exact .of_subset (s.hub.rows_getOrLoad d) fun _ => subset_rfl
      · cases h
  | leave socket d =>
      simp only [step] at h
      split at h
      · cases h; exact .of_subset (s.rows_leaveDocument socket d) (s.rooms_leaveDocument_subset socket d)
      · cases h
  | disconnect socket =>
      simp only [step] at h
      split at h
      · cases h
        have herase : ∀ d, (s.rooms d).erase socket ⊆ s.rooms d :=
          fun d => Finset.erase_subset socket (s.rooms d)
        simp only [handleDisconnect]
        split
        · exact .of_subset rfl herase
        · exact .of_subset (rows_leaveDocument _ socket _) fun d =>
            (rooms_leaveDocument_subset _ socket _ d).trans (herase d)
      · cases h
  | resume call =>
      simp only [step] at h
      split at h
      · cases h
      · rename_i c hcall
        cases c with
        | findById socket d w =>
            cases h
            unfold checkDocument
            split <;> exact .of_subset rfl fun _ => subset_rfl
        | isUserMember socket d w =>
            cases h
            unfold checkMember
            split
            · exact .of_subset rfl fun _ => subset_rfl
            · split
              · split
                · split
                  · exact .of_subset (s.hub.rows_getOrLoad d) fun _ => subset_rfl
                  · exact .of_subset (rows_leaveDocument _ socket _)
                      (rooms_leaveDocument_subset _ socket _)
                · exact .of_subset (s.hub.rows_getOrLoad d) fun _ => subset_rfl
              · exact .of_subset rfl fun _ => subset_rfl
        | leavePrevious socket d =>
            cases h
            exact .of_subset (s.hub.rows_getOrLoad d) fun _ => subset_rfl
        | joinLoad socket d load =>
            cases load with
            | pending => cases h
            | rejected => cases h; exact .of_subset rfl fun _ => subset_rfl
            | resolved =>
                cases h
                refine ⟨?_, fun d' k hk => ?_⟩
                · exact HubState.workspaceOf_congr (congrArg HubState.rows (hub_joinRoom _ socket d))
                · rcases (mem_rooms_joinRoom _ socket d k d').mp hk with hk | ⟨rfl, rfl, hopen⟩
                  · exact .inl hk
                  · exact .inr ⟨call, rfl, hcall, hopen⟩
        | joinRoom socket d =>
            cases h
            exact .of_subset (HubState.rows_addConnection _ d socket) fun _ => subset_rfl
        | updateLoad socket d update load =>
            cases load with
            | pending => cases h
            | resolved | rejected =>
                cases h
                exact .of_subset (HubState.rows_applyUpdate _ d update) fun _ => subset_rfl

/-- A join that has loaded takes its socket into the room. -/
theorem mem_rooms_of_joinLoad [DecidableEq U] {s s' : GatewayState U} {call : Nat}
    {k : SocketId} {d : Uuid} (hcall : s.calls[call]? = some (.joinLoad k d .resolved))
    (hopen : s.IsConnected k = true) (h : s.step (.resume call) = some s') : k ∈ s'.rooms d := by
  simp only [step, hcall] at h
  cases h
  exact (mem_rooms_joinRoom _ k d k d).mpr (.inr ⟨rfl, rfl, hopen⟩)

end GatewayState

end SyncBoard.Document
