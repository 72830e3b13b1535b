import SyncBoard.Document.WriteIsolation

/-!
# Who is registered where

A socket in a document is registered twice: in the connections of the live entry
and in the editor map of the gateway. Most actions touch neither (`SameUse`);
`Registration` names what the others do.
-/

namespace SyncBoard.Document

open Labelled

variable {U : Type}

/-- The two states differ neither in the live entries nor in who uses an entry. -/
structure SameUse (s s' : HubState U) : Prop where
  docs : s'.docs = s.docs
  nextEntry : s'.nextEntry = s.nextEntry
  documentId : ∀ e, (s'.entries e).documentId = (s.entries e).documentId
  connections : ∀ e, (s'.entries e).connections = (s.entries e).connections
  destroyed : ∀ e, (s'.entries e).destroyed = (s.entries e).destroyed

theorem SameUse.refl (s : HubState U) : SameUse s s :=
  ⟨rfl, rfl, fun _ => rfl, fun _ => rfl, fun _ => rfl⟩

theorem SameUse.symm {s s' : HubState U} (h : SameUse s s') : SameUse s' s where
  docs := h.docs.symm
  nextEntry := h.nextEntry.symm
  documentId e := (h.documentId e).symm
  connections e := (h.connections e).symm
  destroyed e := (h.destroyed e).symm

theorem SameUse.trans {s t u : HubState U} (h : SameUse s t) (k : SameUse t u) :
    SameUse s u where
  docs := k.docs.trans h.docs
  nextEntry := k.nextEntry.trans h.nextEntry
  documentId e := (k.documentId e).trans (h.documentId e)
  connections e := (k.connections e).trans (h.connections e)
  destroyed e := (k.destroyed e).trans (h.destroyed e)

/-- Live entries are not destroyed, and what `unloadIdle` has chosen is an entry of
the document it will drop. -/
structure UnloadsOwn (s : HubState U) : Prop where
  wellFormed : WellFormed s
  live : ∀ d e, s.docs d = some e → (s.entries e).destroyed = false
  unloads : ∀ v ∈ s.unloads,
    v.entry < s.nextEntry ∧ (s.entries v.entry).documentId = v.documentId

namespace HubState

/-- Rewriting the content, the clocks or the timer of an entry changes no use. -/
theorem sameUse_modifyEntry (s : HubState U) (e : EntryId)
    {f : ActiveDocument U → ActiveDocument U}
    (hid : ∀ entry, (f entry).documentId = entry.documentId)
    (hconnections : ∀ entry, (f entry).connections = entry.connections)
    (hdestroyed : ∀ entry, (f entry).destroyed = entry.destroyed) :
    SameUse s (s.modifyEntry e f) where
  docs := rfl
  nextEntry := rfl
  documentId := s.modifyEntry_field e (·.documentId) hid
  connections := s.modifyEntry_field e (·.connections) hconnections
  destroyed := s.modifyEntry_field e (·.destroyed) hdestroyed

theorem sameUse_scheduleSave (s : HubState U) (d : Uuid) : SameUse s (s.scheduleSave d) := by
  unfold scheduleSave
  split
  · exact .refl s
  · exact s.sameUse_modifyEntry _ (fun _ => rfl) (fun _ => rfl) (fun _ => rfl)

/-- `persistNow` encodes an entry and leaves it as it is. -/
theorem sameUse_persistNow {s s₁ s₂ : HubState U} {d : Uuid} {forUnload : Bool}
    (h : SameUse s s₁) (h' : SameUse s s₂) :
    SameUse s ((s₁.persistNow d forUnload).getD s₂) := by
  cases hp : s₁.persistNow d forUnload with
  | none => exact h'
  | some t =>
      obtain ⟨e, -, -, rfl⟩ := persistNow_eq_some hp
      exact h.trans ⟨rfl, rfl, fun _ => rfl, fun _ => rfl, fun _ => rfl⟩

theorem sameUse_getOrLoad (s : HubState U) (d : Uuid) : SameUse s (s.getOrLoad d) := by
  unfold getOrLoad
  split
  · exact s.sameUse_modifyEntry _ (fun _ => rfl) (fun _ => rfl) (fun _ => rfl)
  · split
    · exact .refl s
    · exact ⟨rfl, rfl, fun _ => rfl, fun _ => rfl, fun _ => rfl⟩

theorem sameUse_timer {s s' : HubState U} {e : EntryId} (h : s.timer e = some s') :
    SameUse s s' := by
  obtain ⟨cleared, rfl, rfl⟩ := timer_eq_some h
  have hclear : SameUse s (s.modifyEntry e fun entry => { entry with saveTimeout := none }) :=
    s.sameUse_modifyEntry _ (fun _ => rfl) (fun _ => rfl) (fun _ => rfl)
  exact sameUse_persistNow hclear hclear

theorem sameUse_unloadIdle {s s' : HubState U} {d : Uuid} {startedAt : Timestamp}
    (h : s.unloadIdle d startedAt = some s') : SameUse s s' := by
  obtain ⟨e, -, rfl⟩ := unloadIdle_eq_some h
  exact sameUse_persistNow (.refl s) ⟨rfl, rfl, fun _ => rfl, fun _ => rfl, fun _ => rfl⟩

theorem sameUse_resolve {s s' : HubState U} {call : Nat} (h : s.resolve call = some s') :
    SameUse s s' := by
  obtain ⟨c, -, -, rfl⟩ := resolve_eq_some h
  have hsaved : SameUse s (s.modifyEntry c.entry fun entry =>
      { entry with isDirty := false, lastActivity := s.now }) :=
    s.sameUse_modifyEntry c.entry (fun _ => rfl) (fun _ => rfl) (fun _ => rfl)
  exact hsaved.trans ⟨rfl, rfl, fun _ => rfl, fun _ => rfl, fun _ => rfl⟩

theorem sameUse_applyUpdate [DecidableEq U] (s : HubState U) (d : Uuid) (update : Finset U) :
    SameUse s (s.applyUpdate d update) := by
  unfold applyUpdate
  split
  · exact .refl s
  · rename_i e _
    split
    · exact .refl s
    · have hmerged : SameUse s
          (s.modifyEntry e fun entry => { entry with ydoc := entry.ydoc ∪ update }) :=
        s.sameUse_modifyEntry e (fun _ => rfl) (fun _ => rfl) (fun _ => rfl)
      refine hmerged.trans (SameUse.trans ?_ (sameUse_scheduleSave _ _))
      exact sameUse_modifyEntry _ e (fun _ => rfl) (fun _ => rfl) (fun _ => rfl)

end HubState

/-- The actions of the hub that change who uses an entry, or which entry is live. -/
def HubAction.ChangesUse : HubAction U → Prop
  | .loadDone _ | .addConnection _ _ | .removeConnection _ _ | .evict _ => True
  | _ => False

theorem sameUse_of_step [DecidableEq U] {s s' : HubState U} {a : HubAction U}
    (h : s.step a = some s') (ha : ¬ a.ChangesUse) : SameUse s s' := by
  have hframe : ∀ {t : HubState U}, t.docs = s.docs → t.nextEntry = s.nextEntry →
      t.entries = s.entries → SameUse s t :=
    fun hdocs hnext hentries => ⟨hdocs, hnext, by simp [hentries], by simp [hentries],
      by simp [hentries]⟩
  cases a with
  | tick ms => cases h; exact hframe rfl rfl rfl
  | getOrLoad d => cases h; exact s.sameUse_getOrLoad d
  | loadRead d =>
      obtain ⟨-, rfl⟩ := HubState.loadRead_eq_some h
      exact hframe rfl rfl rfl
  | loadFail d =>
      obtain ⟨-, rfl⟩ := HubState.loadFail_eq_some h
      exact hframe rfl rfl rfl
  | applyUpdate d us => cases h; exact s.sameUse_applyUpdate d us
  | timer e => exact HubState.sameUse_timer h
  | commit call =>
      obtain ⟨c, rows, -, -, -, rfl⟩ := HubState.commit_eq_some h
      exact hframe rfl rfl rfl
  | resolve call => exact HubState.sameUse_resolve h
  | reject call =>
      obtain ⟨c, -, rfl⟩ := Option.map_eq_some_iff.mp h
      exact hframe rfl rfl rfl
  | unloadIdle d startedAt => exact HubState.sameUse_unloadIdle h
  | archive d =>
      obtain ⟨rows, -, rfl⟩ := Option.map_eq_some_iff.mp h
      exact hframe rfl rfl rfl
  | loadDone | addConnection | removeConnection | evict => exact (ha trivial).elim

namespace HubState

@[simp] theorem docs_addConnection (s : HubState U) (d : Uuid) (socketId : SocketId) :
    (s.addConnection d socketId).docs = s.docs := by
  unfold addConnection
  split <;> rfl

@[simp] theorem docs_removeConnection (s : HubState U) (d : Uuid) (socketId : SocketId) :
    (s.removeConnection d socketId).docs = s.docs := by
  unfold removeConnection
  split <;> rfl

@[simp] theorem destroyed_addConnection (s : HubState U) (d : Uuid) (socketId : SocketId)
    (e : EntryId) :
    ((s.addConnection d socketId).entries e).destroyed = (s.entries e).destroyed := by
  unfold addConnection
  split
  · rfl
  · rename_i live _
    exact s.modifyEntry_field live
      (f := fun entry => { entry with connections := insert socketId entry.connections })
      (·.destroyed) (fun _ => rfl) e

@[simp] theorem destroyed_removeConnection (s : HubState U) (d : Uuid) (socketId : SocketId)
    (e : EntryId) :
    ((s.removeConnection d socketId).entries e).destroyed = (s.entries e).destroyed := by
  unfold removeConnection
  split
  · rfl
  · rename_i live _
    exact s.modifyEntry_field live
      (f := fun entry =>
        { entry with connections := entry.connections.erase socketId, lastActivity := s.now })
      (·.destroyed) (fun _ => rfl) e

/-- `addConnection` registers the socket on the live entry, if there is one. -/
theorem mem_connections_addConnection (s : HubState U) (d : Uuid) (k : SocketId) (e : EntryId)
    (j : SocketId) : j ∈ ((s.addConnection d k).entries e).connections ↔
      j ∈ (s.entries e).connections ∨ (s.docs d = some e ∧ j = k) := by
  unfold addConnection
  split
  · rename_i hnone
    simp [hnone]
  · rename_i live hlive
    rw [modifyEntry_entries, hlive, Option.some_inj]
    by_cases he : e = live
    · simp [he, or_comm]
    · simp [he, Ne.symm he]

/-- `removeConnection` removes the socket from the live entry, if there is one. -/
theorem mem_connections_removeConnection (s : HubState U) (d : Uuid) (k : SocketId)
    (e : EntryId) (j : SocketId) : j ∈ ((s.removeConnection d k).entries e).connections ↔
      j ∈ (s.entries e).connections ∧ ¬ (s.docs d = some e ∧ j = k) := by
  unfold removeConnection
  split
  · rename_i hnone
    simp [hnone]
  · rename_i live hlive
    rw [modifyEntry_entries, hlive, Option.some_inj]
    by_cases he : e = live
    · simp [he, and_comm]
    · simp [he, Ne.symm he]

end HubState

namespace HubState

@[simp] theorem unloads_scheduleSave (s : HubState U) (d : Uuid) :
    (s.scheduleSave d).unloads = s.unloads := by
  unfold scheduleSave
  split <;> rfl

@[simp] theorem unloads_getOrLoad (s : HubState U) (d : Uuid) :
    (s.getOrLoad d).unloads = s.unloads := by
  unfold getOrLoad
  split
  · rfl
  · split <;> rfl

@[simp] theorem unloads_addConnection (s : HubState U) (d : Uuid) (socketId : SocketId) :
    (s.addConnection d socketId).unloads = s.unloads := by
  unfold addConnection
  split <;> rfl

@[simp] theorem unloads_removeConnection (s : HubState U) (d : Uuid) (socketId : SocketId) :
    (s.removeConnection d socketId).unloads = s.unloads := by
  unfold removeConnection
  split <;> rfl

@[simp] theorem unloads_applyUpdate [DecidableEq U] (s : HubState U) (d : Uuid)
    (update : Finset U) : (s.applyUpdate d update).unloads = s.unloads := by
  unfold applyUpdate
  split
  · rfl
  · split
    · rfl
    · rw [onUpdate, unloads_scheduleSave]
      rfl

theorem unloads_persistNow {s t : HubState U} {d : Uuid} {forUnload : Bool} {v : Unload}
    (h : v ∈ ((s.persistNow d forUnload).getD t).unloads) : v ∈ s.unloads ∨ v ∈ t.unloads := by
  cases hp : s.persistNow d forUnload with
  | none =>
      rw [hp, Option.getD_none] at h
      exact .inr h
  | some u =>
      rw [hp, Option.getD_some] at h
      obtain ⟨e, -, -, rfl⟩ := persistNow_eq_some hp
      exact .inl h

theorem unloads_settle {s : HubState U} {call : Nat} {c : SaveCall U} {v : Unload}
    (h : v ∈ (s.settle call c).unloads) : v ∈ s.unloads ∨ v = ⟨c.documentId, c.entry⟩ := by
  simp only [settle] at h
  split at h
  · simpa only [List.mem_append, List.mem_singleton] using h
  · exact .inl h

end HubState

/-- What waits for its eviction was live when `unloadIdle` reached it, or a save of it
was awaited. -/
theorem unloads_of_step [DecidableEq U] {s s' : HubState U} {a : HubAction U}
    (h : s.step a = some s') {v : Unload} (hv : v ∈ s'.unloads) :
    v ∈ s.unloads ∨ s.docs v.documentId = some v.entry ∨
      ∃ c ∈ s.saves, c.documentId = v.documentId ∧ c.entry = v.entry := by
  cases a with
  | unloadIdle d startedAt =>
      obtain ⟨e, he, rfl⟩ := HubState.unloadIdle_eq_some h
      rcases HubState.unloads_persistNow hv with hv | hv
      · exact .inl hv
      · rcases List.mem_append.mp hv with hv | hv
        · exact .inl hv
        · obtain rfl := List.mem_singleton.mp hv
          exact .inr (.inl he)
  | resolve call =>
      obtain ⟨c, hcall, -, rfl⟩ := HubState.resolve_eq_some h
      rcases HubState.unloads_settle hv with hv | rfl
      · exact .inl hv
      · exact .inr (.inr ⟨c, List.mem_of_getElem? hcall, rfl, rfl⟩)
  | reject call =>
      obtain ⟨c, hcall, rfl⟩ := Option.map_eq_some_iff.mp h
      rcases HubState.unloads_settle hv with hv | rfl
      · exact .inl hv
      · exact .inr (.inr ⟨c, List.mem_of_getElem? hcall, rfl, rfl⟩)
  | evict unload =>
      obtain ⟨w, -, rfl⟩ := Option.map_eq_some_iff.mp h
      exact .inl (List.mem_of_mem_eraseIdx hv)
  | timer e =>
      obtain ⟨cleared, rfl, rfl⟩ := HubState.timer_eq_some h
      exact .inl ((HubState.unloads_persistNow hv).elim id id)
  | loadRead d =>
      obtain ⟨-, rfl⟩ := HubState.loadRead_eq_some h
      exact .inl hv
  | loadFail d =>
      obtain ⟨-, rfl⟩ := HubState.loadFail_eq_some h
      exact .inl hv
  | loadDone d =>
      obtain ⟨yjsState, -, rfl⟩ := HubState.loadDone_eq_some h
      exact .inl hv
  | commit call =>
      obtain ⟨c, rows, -, -, -, rfl⟩ := HubState.commit_eq_some h
      exact .inl hv
  | archive d =>
      obtain ⟨rows, -, rfl⟩ := Option.map_eq_some_iff.mp h
      exact .inl hv
  | tick | getOrLoad | applyUpdate | addConnection | removeConnection =>
      cases h
      exact .inl (by simpa using hv)

/-- The document of an entry is fixed when the entry is made. -/
theorem documentId_of_step [DecidableEq U] {s s' : HubState U} {a : HubAction U}
    (h : s.step a = some s') {e : EntryId} (he : e < s.nextEntry) :
    e < s'.nextEntry ∧ (s'.entries e).documentId = (s.entries e).documentId := by
  by_cases ha : a.ChangesUse
  · cases effect_of_step h with
    | quiet _ hsame => exact ⟨hsame.nextEntry ▸ he, hsame.documentId e⟩
    | loaded hload =>
        refine ⟨Nat.lt_succ_of_lt he, ?_⟩
        simp [Function.update_of_ne (Nat.ne_of_lt he)]
    | @evicted unload v hunload =>
        exact ⟨he, s.modifyEntry_field v.entry
          (f := fun entry => { entry with saveTimeout := none, destroyed := true })
          (·.documentId) (fun _ => rfl) e⟩
    | saveStarted hp => cases a <;> first | exact hp.elim | exact ha.elim
    | _ => exact ha.elim
  · have hsame := sameUse_of_step h ha
    exact ⟨hsame.nextEntry ▸ he, hsame.documentId e⟩

namespace HubState

/-- The `finally` block of `unloadIdle`, with the entry it destroys and the document it
drops. -/
theorem evict_eq_some {s s' : HubState U} {unload : Nat} (h : s.evict unload = some s') :
    ∃ v, s.unloads[unload]? = some v ∧ s' =
      { s.modifyEntry v.entry (fun entry =>
          { entry with saveTimeout := none, destroyed := true }) with
        docs := Function.update s.docs v.documentId none
        unloads := s.unloads.eraseIdx unload } := by
  obtain ⟨v, hv, rfl⟩ := Option.map_eq_some_iff.mp h
  exact ⟨v, hv, rfl⟩

end HubState

/-- The entry that is destroyed is live for the dropped document, if at all. -/
theorem UnloadsOwn.ne_entry {s : HubState U} (hs : UnloadsOwn s) {unload : Nat} {v : Unload}
    (hv : s.unloads[unload]? = some v) {d : Uuid} {e : EntryId} (he : s.docs d = some e)
    (hd : d ≠ v.documentId) : e ≠ v.entry := by
  rintro rfl
  have hlive := (hs.wellFormed.live d _ he).2
  have hown := (hs.unloads v (List.mem_of_getElem? hv)).2
  exact hd (hlive.symm.trans hown)

theorem UnloadsOwn.step [DecidableEq U] {s s' : HubState U} {a : HubAction U}
    (hs : UnloadsOwn s) (h : s.step a = some s') : UnloadsOwn s' where
  wellFormed := hs.wellFormed.step h
  live d e he := by
    by_cases ha : a.ChangesUse
    · cases a with
      | addConnection d' socketId =>
          cases h
          rw [HubState.destroyed_addConnection]
          exact hs.live d e (by simpa using he)
      | removeConnection d' socketId =>
          cases h
          rw [HubState.destroyed_removeConnection]
          exact hs.live d e (by simpa using he)
      | loadDone d' =>
          obtain ⟨yjsState, -, rfl⟩ := HubState.loadDone_eq_some h
          by_cases hd : d = d'
          · obtain rfl : s.nextEntry = e := by simpa [hd] using he
            simp
          · have he' : s.docs d = some e := by simpa [hd] using he
            have hlt := (hs.wellFormed.live d e he').1
            simpa [Nat.ne_of_lt hlt] using hs.live d e he'
      | evict unload =>
          obtain ⟨v, hv, rfl⟩ := HubState.evict_eq_some h
          have hd : d ≠ v.documentId := by
            rintro rfl
            simp at he
          have he' : s.docs d = some e := by simpa [hd] using he
          rw [HubState.modifyEntry_entries, if_neg (hs.ne_entry hv he' hd)]
          exact hs.live d e he'
      | _ => exact ha.elim
    · have hsame := sameUse_of_step h ha
      rw [hsame.destroyed]
      exact hs.live d e (hsame.docs ▸ he)
  unloads v hv := by
    have hown : v.entry < s.nextEntry ∧ (s.entries v.entry).documentId = v.documentId := by
      rcases unloads_of_step h hv with hv | hv | ⟨c, hc, hd, he⟩
      · exact hs.unloads v hv
      · exact hs.wellFormed.live _ _ hv
      · rw [← hd, ← he]
        exact hs.wellFormed.saves c hc
    obtain ⟨hlt, hid⟩ := documentId_of_step h hown.1
    exact ⟨hlt, hid.trans hown.2⟩

theorem unloadsOwn_startup (rows : Uuid → Option (DocumentRow U)) :
    UnloadsOwn (.startup rows) := by
  refine ⟨wellFormed_startup rows, ?_, ?_⟩ <;> simp [HubState.startup]

/-- What every action of the hub preserves is preserved by the gateway. -/
theorem hub_invariant [DecidableEq U] {I : HubState U → Prop}
    (hI : ∀ h a h', I h → h.step a = some h' → I h') {s s' : GatewayState U}
    {a : GatewayAction U} (hs : I s.hub) (h : s.step a = some s') : I s'.hub := by
  have hload : ∀ d, I (s.hub.getOrLoad d) := fun d => hI _ (.getOrLoad d) _ hs rfl
  have hremove : ∀ d socket, I (s.hub.removeConnection d socket) :=
    fun d socket => hI _ (.removeConnection d socket) _ hs rfl
  cases a with
  | hub a =>
      simp only [GatewayState.step, GatewayState.background] at h
      split at h
      · obtain ⟨hub, hhub, rfl⟩ := Option.map_eq_some_iff.mp h
        exact hI _ _ _ hs hhub
      · cases h
  | connect socket user =>
      simp only [GatewayState.step] at h
      split at h
      · cases h
      · cases h; exact hs
  | setRole w u role => cases h; exact hs
  | join socket d w =>
      simp only [GatewayState.step] at h
      split at h
      · cases h; exact hs
      · cases h
  | update socket d payload =>
      simp only [GatewayState.step] at h
      split at h
      · cases h
        cases payload with
        | none => exact hs
        | some update => exact hload d
      · cases h
  | leave socket d =>
      simp only [GatewayState.step] at h
      split at h
      · cases h; exact hremove d socket
      · cases h
  | disconnect socket =>
      simp only [GatewayState.step] at h
      split at h
      · cases h
        unfold GatewayState.handleDisconnect
        dsimp only
        split
        · exact hs
        · exact hremove _ socket
      · cases h
  | resume call =>
      simp only [GatewayState.step] at h
      split at h
      · cases h
      · rename_i c _
        cases c with
        | findById socket d w =>
            cases h
            unfold GatewayState.checkDocument
            split <;> exact hs
        | isUserMember socket d w =>
            cases h
            unfold GatewayState.checkMember
            split
            · exact hs
            · split
              · split
                · split
                  · exact hload d
                  · exact hremove _ socket
                · exact hload d
              · exact hs
        | leavePrevious socket d => cases h; exact hload d
        | joinLoad socket d load =>
            cases load with
            | pending => cases h
            | rejected => cases h; exact hs
            | resolved =>
                cases h
                simp only [GatewayState.joinRoom]
                split <;> exact hs
        | joinRoom socket d => cases h; exact hI _ (.addConnection d socket) _ hs rfl
        | updateLoad socket d update load =>
            cases load with
            | pending => cases h
            | resolved | rejected => cases h; exact hI _ (.applyUpdate d update) _ hs rfl

namespace GatewayState

theorem mem_editors_leaveDocument (s : GatewayState U) (socket : SocketId) (d : Uuid)
    (k : SocketId) (d' : Uuid) : k ∈ (s.leaveDocument socket d).editors d' ↔
      k ∈ s.editors d' ∧ ¬ (d' = d ∧ k = socket) := by
  by_cases hd : d' = d
  · simp [leaveDocument, modifySocket, hd, and_comm]
  · simp [leaveDocument, modifySocket, hd]

theorem mem_editors_finishJoin (s : GatewayState U) (socket : SocketId) (d : Uuid)
    (k : SocketId) (d' : Uuid) : k ∈ (s.finishJoin socket d).editors d' ↔
      k ∈ s.editors d' ∨ (d' = d ∧ k = socket) := by
  by_cases hd : d' = d
  · simp [finishJoin, modifySocket, hd, or_comm]
  · simp [finishJoin, modifySocket, hd]

end GatewayState

/-- The two states agree on the use of the hub, on the editors and on the sockets. -/
structure SameRegistrations (s s' : GatewayState U) : Prop where
  use : SameUse s.hub s'.hub
  editors : s'.editors = s.editors
  sockets : s'.sockets = s.sockets

theorem SameRegistrations.refl (s : GatewayState U) : SameRegistrations s s :=
  ⟨.refl _, rfl, rfl⟩

theorem SameRegistrations.symm {s s' : GatewayState U} (h : SameRegistrations s s') :
    SameRegistrations s' s :=
  ⟨h.use.symm, h.editors.symm, h.sockets.symm⟩

/-- The action neither ends a `handleJoin` nor drops an entry. -/
def Ordinary (s : GatewayState U) : GatewayAction U → Prop
  | .hub (.evict _) => False
  | .resume call => ∀ socket d, s.calls[call]? ≠ some (.joinRoom socket d)
  | _ => True

/-- Everything one action can do to the registrations. -/
inductive Registration [DecidableEq U] (s : GatewayState U) :
    GatewayAction U → GatewayState U → Prop
  | same {a s'} (ha : Ordinary s a) (h : SameRegistrations s s') : Registration s a s'
  | connected {socket user s'} (hnew : s.sockets socket = none)
      (h : SameRegistrations
        { s with sockets := Function.update s.sockets socket (some { user }) } s') :
      Registration s (.connect socket user) s'
  | loaded {d hub s'} (hload : s.hub.loadDone d = some hub)
      (h : SameRegistrations { s with hub } s') : Registration s (.hub (.loadDone d)) s'
  | left {a socket d s'} (ha : Ordinary s a)
      (h : SameRegistrations (s.leaveDocument socket d) s') : Registration s a s'
  | joined {call socket d s'} (hcall : s.calls[call]? = some (.joinRoom socket d))
      (h : SameRegistrations (s.finishJoin socket d) s') : Registration s (.resume call) s'
  | disconnected {socket} (hopen : s.IsConnected socket = true) :
      Registration s (.disconnect socket) (s.handleDisconnect socket)
  | evicted {unload hub s'} (hevict : s.hub.evict unload = some hub)
      (h : SameRegistrations { s with hub } s') : Registration s (.hub (.evict unload)) s'

theorem registration_of_step [DecidableEq U] {s s' : GatewayState U} {a : GatewayAction U}
    (h : s.step a = some s') : Registration s a s' := by
  cases a with
  | hub a =>
      simp only [GatewayState.step, GatewayState.background] at h
      split at h
      · rename_i hbackground
        obtain ⟨hub, hhub, rfl⟩ := Option.map_eq_some_iff.mp h
        cases a with
        | loadDone d => exact .loaded hhub ⟨.refl _, rfl, rfl⟩
        | evict unload => exact .evicted hhub ⟨.refl _, rfl, rfl⟩
        | addConnection | removeConnection => cases hbackground
        | _ => exact .same trivial ⟨sameUse_of_step hhub id, rfl, rfl⟩
      · cases h
  | connect socket user =>
      simp only [GatewayState.step] at h
      split at h
      · cases h
      · rename_i hnew
        cases h
        exact .connected hnew (.refl _)
  | setRole w u role => cases h; exact .same trivial ⟨.refl _, rfl, rfl⟩
  | join socket d w =>
      simp only [GatewayState.step] at h
      split at h
      · cases h; exact .same trivial ⟨.refl _, rfl, rfl⟩
      · cases h
  | update socket d payload =>
      simp only [GatewayState.step] at h
      split at h
      · cases h
        cases payload with
        | none => exact .same trivial (.refl s)
        | some update => exact .same trivial ⟨s.hub.sameUse_getOrLoad d, rfl, rfl⟩
      · cases h
  | leave socket d =>
      simp only [GatewayState.step] at h
      split at h
      · cases h; exact .left trivial (.refl _)
      · cases h
  | disconnect socket =>
      simp only [GatewayState.step] at h
      split at h
      · cases h; exact .disconnected ‹_›
      · cases h
  | resume call =>
      simp only [GatewayState.step] at h
      split at h
      · cases h
      · rename_i c hcall
        cases c with
        | joinRoom socket d => cases h; exact .joined hcall ⟨.refl _, rfl, rfl⟩
        | findById socket d w =>
            have hother : Ordinary s (.resume call) := by simp [Ordinary, hcall]
            cases h
            unfold GatewayState.checkDocument
            split <;> exact .same hother ⟨.refl _, rfl, rfl⟩
        | isUserMember socket d w =>
            have hother : Ordinary s (.resume call) := by simp [Ordinary, hcall]
            have hload : SameUse s.hub (s.hub.getOrLoad d) := s.hub.sameUse_getOrLoad d
            cases h
            unfold GatewayState.checkMember
            split
            · exact .same hother ⟨.refl _, rfl, rfl⟩
            · split
              · split
                · rename_i current _
                  split
                  · exact .same hother ⟨hload, rfl, rfl⟩
                  · exact .left (d := current) hother ⟨.refl _, rfl, rfl⟩
                · exact .same hother ⟨hload, rfl, rfl⟩
              · exact .same hother ⟨.refl _, rfl, rfl⟩
        | leavePrevious socket d =>
            have hother : Ordinary s (.resume call) := by simp [Ordinary, hcall]
            cases h
            exact .same hother ⟨s.hub.sameUse_getOrLoad d, rfl, rfl⟩
        | joinLoad socket d load =>
            have hother : Ordinary s (.resume call) := by simp [Ordinary, hcall]
            cases load with
            | pending => cases h
            | rejected => cases h; exact .same hother ⟨.refl _, rfl, rfl⟩
            | resolved =>
                cases h
                simp only [GatewayState.joinRoom]
                split <;> exact .same hother ⟨.refl _, rfl, rfl⟩
        | updateLoad socket d update load =>
            have hother : Ordinary s (.resume call) := by simp [Ordinary, hcall]
            have happly : SameUse s.hub (s.hub.applyUpdate d update) :=
              s.hub.sameUse_applyUpdate d update
            cases load with
            | pending => cases h
            | resolved | rejected => cases h; exact .same hother ⟨happly, rfl, rfl⟩

end SyncBoard.Document
