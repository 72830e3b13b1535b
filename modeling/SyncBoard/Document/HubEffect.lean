import SyncBoard.Document.Hub
import Mathlib.Data.Finset.Lattice.Basic

/-!
# What one action of the hub can do

Durability looks at four things: which entry is live, what its document
contains, whether it is dirty, and what is stored. Most actions touch none of
them (`SameContent`); `Effect` names what the others do.
-/

namespace SyncBoard.Document

variable {U : Type}

/-- The updates in `documents.yjs_state`. -/
def HubState.stored (s : HubState U) (documentId : Uuid) : Finset U :=
  ((s.rows documentId).map (·.yjsState)).getD ∅

/-- The two states differ in clocks, timers, connections and statuses only. -/
structure SameContent (s s' : HubState U) : Prop where
  docs : s'.docs = s.docs
  nextEntry : s'.nextEntry = s.nextEntry
  documentId : ∀ e, (s'.entries e).documentId = (s.entries e).documentId
  ydoc : ∀ e, (s'.entries e).ydoc = (s.entries e).ydoc
  isDirty : ∀ e, (s'.entries e).isDirty = (s.entries e).isDirty
  stored : ∀ d, s'.stored d = s.stored d
  loading : s'.loading = s.loading
  saves : s'.saves = s.saves
  nextSave : s'.nextSave = s.nextSave

theorem SameContent.refl (s : HubState U) : SameContent s s :=
  ⟨rfl, rfl, fun _ => rfl, fun _ => rfl, fun _ => rfl, fun _ => rfl, rfl, rfl, rfl⟩

theorem SameContent.trans {s t u : HubState U} (h : SameContent s t) (k : SameContent t u) :
    SameContent s u where
  docs := k.docs.trans h.docs
  nextEntry := k.nextEntry.trans h.nextEntry
  documentId e := (k.documentId e).trans (h.documentId e)
  ydoc e := (k.ydoc e).trans (h.ydoc e)
  isDirty e := (k.isDirty e).trans (h.isDirty e)
  stored d := (k.stored d).trans (h.stored d)
  loading := k.loading.trans h.loading
  saves := k.saves.trans h.saves
  nextSave := k.nextSave.trans h.nextSave

namespace HubState

@[simp] theorem modifyEntry_docs (s : HubState U) (e : EntryId) (f) :
    (s.modifyEntry e f).docs = s.docs := rfl

@[simp] theorem modifyEntry_nextEntry (s : HubState U) (e : EntryId) (f) :
    (s.modifyEntry e f).nextEntry = s.nextEntry := rfl

@[simp] theorem modifyEntry_saves (s : HubState U) (e : EntryId) (f) :
    (s.modifyEntry e f).saves = s.saves := rfl

@[simp] theorem modifyEntry_nextSave (s : HubState U) (e : EntryId) (f) :
    (s.modifyEntry e f).nextSave = s.nextSave := rfl

@[simp] theorem modifyEntry_loading (s : HubState U) (e : EntryId) (f) :
    (s.modifyEntry e f).loading = s.loading := rfl

@[simp] theorem modifyEntry_now (s : HubState U) (e : EntryId) (f) :
    (s.modifyEntry e f).now = s.now := rfl

@[simp] theorem modifyEntry_unloads (s : HubState U) (e : EntryId) (f) :
    (s.modifyEntry e f).unloads = s.unloads := rfl

@[simp] theorem modifyEntry_rows (s : HubState U) (e : EntryId) (f) :
    (s.modifyEntry e f).rows = s.rows := rfl

@[simp] theorem stored_modifyEntry (s : HubState U) (e : EntryId) (f) (d : Uuid) :
    (s.modifyEntry e f).stored d = s.stored d := rfl

theorem modifyEntry_entries (s : HubState U) (e : EntryId)
    (f : ActiveDocument U → ActiveDocument U) (j : EntryId) :
    (s.modifyEntry e f).entries j = if j = e then f (s.entries j) else s.entries j := by
  by_cases h : j = e
  · subst h
    simp [modifyEntry]
  · simp [modifyEntry, h]

/-- A field that `f` leaves alone is the same in every entry. -/
theorem modifyEntry_field {β : Type} (s : HubState U) (e : EntryId)
    {f : ActiveDocument U → ActiveDocument U} (field : ActiveDocument U → β)
    (h : ∀ entry, field (f entry) = field entry) (j : EntryId) :
    field ((s.modifyEntry e f).entries j) = field (s.entries j) := by
  rw [modifyEntry_entries]
  split
  · exact h _
  · rfl

/-- Rewriting the clock, timer or connection fields of an entry changes no content. -/
theorem sameContent_modifyEntry (s : HubState U) (e : EntryId)
    {f : ActiveDocument U → ActiveDocument U}
    (hid : ∀ entry, (f entry).documentId = entry.documentId)
    (hydoc : ∀ entry, (f entry).ydoc = entry.ydoc)
    (hdirty : ∀ entry, (f entry).isDirty = entry.isDirty) :
    SameContent s (s.modifyEntry e f) where
  docs := rfl
  nextEntry := rfl
  documentId := s.modifyEntry_field e (·.documentId) hid
  ydoc := s.modifyEntry_field e (·.ydoc) hydoc
  isDirty := s.modifyEntry_field e (·.isDirty) hdirty
  stored _ := rfl
  loading := rfl
  saves := rfl
  nextSave := rfl

theorem sameContent_scheduleSave (s : HubState U) (d : Uuid) :
    SameContent s (s.scheduleSave d) := by
  unfold scheduleSave
  split
  · exact .refl s
  · exact s.sameContent_modifyEntry _ (fun _ => rfl) (fun _ => rfl) (fun _ => rfl)

/-- The entry that `persistNow` saves. -/
theorem persistNow_eq_some {s s' : HubState U} {d : Uuid} {forUnload : Bool}
    (h : s.persistNow d forUnload = some s') :
    ∃ e, s.docs d = some e ∧ (s.entries e).isDirty = true ∧ s' = s.startSave d e forUnload := by
  unfold persistNow at h
  split at h
  · cases h
  · rename_i e he
    split at h
    · exact ⟨e, he, ‹_›, (Option.some.inj h).symm⟩
    · cases h

section Inversions
variable {s s' : HubState U}

theorem loadRead_eq_some {d : Uuid} (h : s.loadRead d = some s') :
    s.loading d = some .reading ∧
      s' = { s with
        loading := Function.update s.loading d
          (some (.read (((findWithState s.rows d).map (·.yjsState)).getD ∅))) } := by
  unfold loadRead at h
  split at h
  · exact ⟨‹_›, (Option.some.inj h).symm⟩
  · cases h

theorem loadFail_eq_some {d : Uuid} (h : s.loadFail d = some s') :
    s.loading d = some .reading ∧
      s' = { s with loading := Function.update s.loading d none } := by
  unfold loadFail at h
  split at h
  · exact ⟨‹_›, (Option.some.inj h).symm⟩
  · cases h

theorem loadDone_eq_some {d : Uuid} (h : s.loadDone d = some s') :
    ∃ yjsState, s.loading d = some (.read yjsState) ∧
      s' = { s with
        docs := Function.update s.docs d (some s.nextEntry)
        entries := Function.update s.entries s.nextEntry
          { documentId := d, ydoc := yjsState, lastActivity := s.now }
        nextEntry := s.nextEntry + 1
        loading := Function.update s.loading d none } := by
  unfold loadDone at h
  split at h
  · exact ⟨_, ‹_›, (Option.some.inj h).symm⟩
  · cases h

/-- The timer has gone off; it saves the document where it is dirty. -/
theorem timer_eq_some {e : EntryId} (h : s.timer e = some s') :
    ∃ cleared, cleared = s.modifyEntry e (fun entry => { entry with saveTimeout := none }) ∧
      s' = (cleared.persistNow (cleared.entries e).documentId false).getD cleared := by
  unfold timer at h
  split at h
  · cases h
  · split at h
    · exact ⟨_, rfl, (Option.some.inj h).symm⟩
    · cases h

theorem commit_eq_some {call : Nat} (h : s.commit call = some s') :
    ∃ c rows, s.saves[call]? = some c ∧ c.committed = false ∧
      saveState s.rows c.documentId c.state = some rows ∧
        s' = { s with rows, saves := s.saves.set call { c with committed := true } } := by
  unfold commit at h
  split at h
  · cases h
  · rename_i c hcall
    split at h
    · cases h
    · obtain ⟨rows, hrows, rfl⟩ := Option.map_eq_some_iff.mp h
      exact ⟨c, rows, hcall, Bool.eq_false_iff.mpr ‹_›, hrows, rfl⟩

theorem resolve_eq_some {call : Nat} (h : s.resolve call = some s') :
    ∃ c, s.saves[call]? = some c ∧ c.committed = true ∧
      s' = (s.modifyEntry c.entry fun entry =>
        { entry with isDirty := false, lastActivity := s.now }).settle call c := by
  unfold resolve at h
  split at h
  · cases h
  · rename_i c hcall
    split at h
    · exact ⟨c, hcall, ‹_›, (Option.some.inj h).symm⟩
    · cases h

/-- The document is live; it is saved where it is dirty, and waits for its eviction if not. -/
theorem unloadIdle_eq_some {d : Uuid} {startedAt : Timestamp}
    (h : s.unloadIdle d startedAt = some s') :
    ∃ e, s.docs d = some e ∧
      s' = (s.persistNow d true).getD { s with unloads := s.unloads ++ [⟨d, e⟩] } := by
  unfold unloadIdle at h
  split at h
  · cases h
  · rename_i e he
    dsimp only at h
    split at h
    · exact ⟨e, he, (Option.some.inj h).symm⟩
    · cases h

end Inversions

end HubState

/-- The action runs `persistNow` on the document. -/
def Persists (s : HubState U) (d : Uuid) : HubAction U → Prop
  | .timer e => (s.entries e).documentId = d
  | .unloadIdle d' _ => d' = d
  | _ => False

/-- An action that may leave the documents and the table as they are. -/
def HubAction.Minor : HubAction U → Prop
  | .tick _ | .getOrLoad _ | .addConnection _ _ | .removeConnection _ _ | .timer _
  | .unloadIdle _ _ | .archive _ => True
  | _ => False

theorem Persists.minor {s : HubState U} {d : Uuid} {a : HubAction U} (h : Persists s d a) :
    a.Minor := by
  cases a with
  | timer | unloadIdle => trivial
  | _ => exact h.elim

variable [DecidableEq U]

/-- Everything one action can do to the documents and to what is stored. -/
inductive Effect (s : HubState U) : HubAction U → HubState U → Prop
  | quiet {a s'} (ha : a.Minor) (h : SameContent s s') : Effect s a s'
  | loadStarted {d} (hdocs : s.docs d = none) (hload : s.loading d = none) :
      Effect s (.getOrLoad d)
        { s with loading := Function.update s.loading d (some .reading) }
  | hydrated {d} (hload : s.loading d = some .reading) :
      Effect s (.loadRead d)
        { s with
          loading := Function.update s.loading d
            (some (.read (((findWithState s.rows d).map (·.yjsState)).getD ∅))) }
  | loadFailed {d} (hload : s.loading d = some .reading) :
      Effect s (.loadFail d) { s with loading := Function.update s.loading d none }
  | loaded {d yjsState} (hload : s.loading d = some (.read yjsState)) :
      Effect s (.loadDone d)
        { s with
          docs := Function.update s.docs d (some s.nextEntry)
          entries := Function.update s.entries s.nextEntry
            { documentId := d, ydoc := yjsState, lastActivity := s.now }
          nextEntry := s.nextEntry + 1
          loading := Function.update s.loading d none }
  | ignored {d us} (hdocs : s.docs d = none) : Effect s (.applyUpdate d us) s
  | redundant {d us e} (hdocs : s.docs d = some e) (hsub : us ⊆ (s.entries e).ydoc) :
      Effect s (.applyUpdate d us) s
  | updated {d us e s'} (hdocs : s.docs d = some e) (hnew : ¬ us ⊆ (s.entries e).ydoc)
      (h : SameContent (s.modifyEntry e fun entry =>
        { entry with ydoc := entry.ydoc ∪ us, isDirty := true }) s') :
      Effect s (.applyUpdate d us) s'
  | saveStarted {a s₁ d e forUnload} (ha : Persists s d a) (h : SameContent s s₁)
      (hdocs : s.docs d = some e) (hdirty : (s.entries e).isDirty = true) :
      Effect s a (s₁.startSave d e forUnload)
  | committed {call c row} (hcall : s.saves[call]? = some c) (hopen : c.committed = false)
      (hrow : s.rows c.documentId = some row) :
      Effect s (.commit call)
        { s with
          rows := Function.update s.rows c.documentId (some { row with yjsState := c.state })
          saves := s.saves.set call { c with committed := true } }
  | resolved {call c} (hcall : s.saves[call]? = some c) (hdone : c.committed = true) :
      Effect s (.resolve call)
        ((s.modifyEntry c.entry fun entry =>
          { entry with isDirty := false, lastActivity := s.now }).settle call c)
  | rejected {call c} (hcall : s.saves[call]? = some c) :
      Effect s (.reject call) (s.settle call c)
  | evicted {unload v} (hunload : s.unloads[unload]? = some v) :
      Effect s (.evict unload)
        { s.modifyEntry v.entry (fun entry =>
            { entry with saveTimeout := none, destroyed := true }) with
          docs := Function.update s.docs v.documentId none
          unloads := s.unloads.eraseIdx unload }

namespace HubState

theorem effect_getOrLoad (s : HubState U) (d : Uuid) :
    Effect s (.getOrLoad d) (s.getOrLoad d) := by
  unfold getOrLoad
  split
  · exact .quiet trivial
      (s.sameContent_modifyEntry _ (fun _ => rfl) (fun _ => rfl) (fun _ => rfl))
  · split
    · exact .quiet trivial (.refl s)
    · exact .loadStarted ‹_› ‹_›

theorem effect_applyUpdate (s : HubState U) (d : Uuid) (us : Finset U) :
    Effect s (.applyUpdate d us) (s.applyUpdate d us) := by
  unfold applyUpdate
  split
  · exact .ignored ‹_›
  · rename_i e he
    split
    · exact .redundant he ‹_›
    · refine .updated he ‹_› ?_
      have htwo : (s.modifyEntry e fun entry => { entry with ydoc := entry.ydoc ∪ us }).modifyEntry
          e (fun entry => { entry with isDirty := true, lastActivity := s.now }) =
          (s.modifyEntry e fun entry => { entry with ydoc := entry.ydoc ∪ us, isDirty := true }
            ).modifyEntry e (fun entry => { entry with lastActivity := s.now }) := by
        simp [modifyEntry]
      rw [onUpdate, modifyEntry_now, htwo]
      refine SameContent.trans ?_ (sameContent_scheduleSave _ _)
      exact sameContent_modifyEntry _ _ (fun _ => rfl) (fun _ => rfl) (fun _ => rfl)

theorem effect_addConnection (s : HubState U) (d : Uuid) (socketId : SocketId) :
    Effect s (.addConnection d socketId) (s.addConnection d socketId) := by
  unfold addConnection
  split
  · exact .quiet trivial (.refl s)
  · exact .quiet trivial
      (s.sameContent_modifyEntry _ (fun _ => rfl) (fun _ => rfl) (fun _ => rfl))

theorem effect_removeConnection (s : HubState U) (d : Uuid) (socketId : SocketId) :
    Effect s (.removeConnection d socketId) (s.removeConnection d socketId) := by
  unfold removeConnection
  split
  · exact .quiet trivial (.refl s)
  · exact .quiet trivial
      (s.sameContent_modifyEntry _ (fun _ => rfl) (fun _ => rfl) (fun _ => rfl))

/-- A save that an action starts after touching nothing but clocks and timers. -/
theorem effect_persistNow {s s₁ s₂ : HubState U} {a : HubAction U} {d : Uuid}
    {forUnload : Bool} (ha : Persists s d a) (h : SameContent s s₁) (h' : SameContent s s₂) :
    Effect s a ((s₁.persistNow d forUnload).getD s₂) := by
  cases hp : s₁.persistNow d forUnload with
  | none => exact .quiet ha.minor h'
  | some s' =>
      obtain ⟨e, he, hdirty, rfl⟩ := persistNow_eq_some hp
      exact .saveStarted ha h (h.docs ▸ he) ((h.isDirty e).symm.trans hdirty)

theorem effect_timer {s s' : HubState U} {e : EntryId} (h : s.timer e = some s') :
    Effect s (.timer e) s' := by
  obtain ⟨cleared, rfl, rfl⟩ := timer_eq_some h
  have hclear : SameContent s (s.modifyEntry e fun entry => { entry with saveTimeout := none }) :=
    s.sameContent_modifyEntry _ (fun _ => rfl) (fun _ => rfl) (fun _ => rfl)
  exact effect_persistNow (hclear.documentId e).symm hclear hclear

theorem effect_unloadIdle {s s' : HubState U} {d : Uuid} {startedAt : Timestamp}
    (h : s.unloadIdle d startedAt = some s') : Effect s (.unloadIdle d startedAt) s' := by
  obtain ⟨e, -, rfl⟩ := unloadIdle_eq_some h
  refine effect_persistNow rfl (.refl s) ?_
  exact ⟨rfl, rfl, fun _ => rfl, fun _ => rfl, fun _ => rfl, fun _ => rfl, rfl, rfl, rfl⟩

theorem effect_commit {s s' : HubState U} {call : Nat} (h : s.commit call = some s') :
    Effect s (.commit call) s' := by
  obtain ⟨c, rows, hcall, hopen, hrows, rfl⟩ := commit_eq_some h
  obtain ⟨row, hrow, rfl⟩ := Option.map_eq_some_iff.mp hrows
  exact .committed hcall hopen hrow

theorem effect_archive {s s' : HubState U} {d : Uuid}
    (h : s.step (.archive d) = some s') : Effect s (.archive d) s' := by
  obtain ⟨rows, hrows, rfl⟩ := Option.map_eq_some_iff.mp h
  obtain ⟨row, hrow, rfl⟩ := Option.map_eq_some_iff.mp hrows
  refine .quiet trivial ⟨rfl, rfl, fun _ => rfl, fun _ => rfl, fun _ => rfl, ?_, rfl, rfl, rfl⟩
  intro d'
  by_cases hd : d' = d
  · subst hd
    simp [stored, hrow]
  · simp [stored, hd]

end HubState

theorem effect_of_step {s s' : HubState U} {a : HubAction U} (h : s.step a = some s') :
    Effect s a s' := by
  cases a with
  | tick ms =>
      cases h
      exact .quiet trivial
        ⟨rfl, rfl, fun _ => rfl, fun _ => rfl, fun _ => rfl, fun _ => rfl, rfl, rfl, rfl⟩
  | getOrLoad d => cases h; exact s.effect_getOrLoad d
  | loadRead d =>
      obtain ⟨hreading, rfl⟩ := HubState.loadRead_eq_some h
      exact .hydrated hreading
  | loadFail d =>
      obtain ⟨hreading, rfl⟩ := HubState.loadFail_eq_some h
      exact .loadFailed hreading
  | loadDone d =>
      obtain ⟨yjsState, hread, rfl⟩ := HubState.loadDone_eq_some h
      exact .loaded hread
  | applyUpdate d us => cases h; exact s.effect_applyUpdate d us
  | addConnection d socketId => cases h; exact s.effect_addConnection d socketId
  | removeConnection d socketId => cases h; exact s.effect_removeConnection d socketId
  | timer e => exact HubState.effect_timer h
  | commit call => exact HubState.effect_commit h
  | resolve call =>
      obtain ⟨c, hcall, hcommitted, rfl⟩ := HubState.resolve_eq_some h
      exact .resolved hcall hcommitted
  | reject call =>
      obtain ⟨c, hcall, rfl⟩ := Option.map_eq_some_iff.mp h
      exact .rejected hcall
  | unloadIdle d startedAt => exact HubState.effect_unloadIdle h
  | evict unload =>
      obtain ⟨v, hunload, rfl⟩ := Option.map_eq_some_iff.mp h
      exact .evicted hunload
  | archive d => exact HubState.effect_archive h

/-- A live entry belongs to its document, a document is loaded only while it has
no live entry, and a save is one of its document's entries. -/
structure WellFormed (s : HubState U) : Prop where
  live : ∀ d e, s.docs d = some e → e < s.nextEntry ∧ (s.entries e).documentId = d
  loading : ∀ d, s.loading d ≠ none → s.docs d = none
  saves : ∀ c ∈ s.saves, c.entry < s.nextEntry ∧ (s.entries c.entry).documentId = c.documentId

omit [DecidableEq U] in
/-- A live entry belongs to one document only. -/
theorem WellFormed.live_unique {s : HubState U} (hw : WellFormed s) {d d' : Uuid} {e : EntryId}
    (h : s.docs d = some e) (h' : s.docs d' = some e) : d = d' :=
  (hw.live d e h).2.symm.trans (hw.live d' e h').2

omit [DecidableEq U] in
/-- The entry that a save captured is live for the document of the save, if at all. -/
theorem WellFormed.saves_live {s : HubState U} (hw : WellFormed s) {c : SaveCall U}
    (hc : c ∈ s.saves) {d : Uuid} (h : s.docs d = some c.entry) : d = c.documentId :=
  (hw.live d c.entry h).2.symm.trans (hw.saves c hc).2

omit [DecidableEq U] in
theorem WellFormed.of_sameContent {s s' : HubState U} (hw : WellFormed s)
    (h : SameContent s s') : WellFormed s' where
  live d e he := by
    rw [h.nextEntry, h.documentId]
    exact hw.live d e (h.docs ▸ he)
  loading d hl := by
    rw [h.docs]
    exact hw.loading d (h.loading ▸ hl)
  saves c hc := by
    rw [h.nextEntry, h.documentId]
    exact hw.saves c (h.saves ▸ hc)

omit [DecidableEq U] in
/-- Rewriting the fields of an entry other than its document keeps the invariant. -/
theorem WellFormed.modifyEntry {s : HubState U} (hw : WellFormed s) (e : EntryId)
    {f : ActiveDocument U → ActiveDocument U}
    (hf : ∀ entry, (f entry).documentId = entry.documentId) : WellFormed (s.modifyEntry e f) where
  live d j hj := by
    rw [s.modifyEntry_field e (·.documentId) hf]
    exact hw.live d j hj
  loading := hw.loading
  saves c hc := by
    rw [s.modifyEntry_field e (·.documentId) hf]
    exact hw.saves c hc

omit [DecidableEq U] in
theorem WellFormed.settle {s : HubState U} (hw : WellFormed s) (call : Nat) (c : SaveCall U) :
    WellFormed (s.settle call c) where
  live := hw.live
  loading := hw.loading
  saves c' hc' := hw.saves c' (List.mem_of_mem_eraseIdx hc')

omit [DecidableEq U] in
theorem WellFormed.startSave {s : HubState U} (hw : WellFormed s) {d : Uuid} {e : EntryId}
    (he : s.docs d = some e) (forUnload : Bool) : WellFormed (s.startSave d e forUnload) where
  live := hw.live
  loading := hw.loading
  saves c hc := by
    rcases List.mem_append.mp hc with hc | hc
    · exact hw.saves c hc
    · obtain rfl := List.mem_singleton.mp hc
      exact hw.live d e he

theorem WellFormed.step {s s' : HubState U} {a : HubAction U} (hw : WellFormed s)
    (hstep : s.step a = some s') : WellFormed s' := by
  cases effect_of_step hstep with
  | quiet _ h => exact hw.of_sameContent h
  | @loadStarted d hdocs _ =>
      refine ⟨hw.live, fun d' hl => ?_, hw.saves⟩
      by_cases hd : d' = d
      · exact hd ▸ hdocs
      · exact hw.loading d' (by simpa [hd] using hl)
  | @hydrated d hload | @loadFailed d hload =>
      refine ⟨hw.live, fun d' hl => ?_, hw.saves⟩
      by_cases hd : d' = d
      · exact hw.loading d' (by simp [hd, hload])
      · exact hw.loading d' (by simpa [hd] using hl)
  | @loaded d yjsState hload =>
      constructor
      · intro d' e he
        by_cases hd : d' = d
        · obtain rfl : s.nextEntry = e := by simpa [hd] using he
          simp [hd]
        · obtain ⟨hlt, hid⟩ := hw.live d' e (by simpa [hd] using he)
          exact ⟨Nat.lt_succ_of_lt hlt, by simp [hlt.ne, hid]⟩
      · intro d' hl
        have hd : d' ≠ d := by
          rintro rfl
          simp at hl
        simp only [Function.update_of_ne hd] at hl ⊢
        exact hw.loading d' hl
      · intro c hc
        obtain ⟨hlt, hid⟩ := hw.saves c hc
        exact ⟨Nat.lt_succ_of_lt hlt, by simp [hlt.ne, hid]⟩
  | ignored | redundant => exact hw
  | updated _ _ h =>
      refine WellFormed.of_sameContent ?_ h
      exact hw.modifyEntry _ fun _ => rfl
  | saveStarted _ h hdocs _ => exact (hw.of_sameContent h).startSave (h.docs ▸ hdocs) _
  | @committed call c row hcall _ _ =>
      refine ⟨hw.live, hw.loading, fun c' hc' => ?_⟩
      rcases List.mem_or_eq_of_mem_set hc' with hc' | rfl
      · exact hw.saves c' hc'
      · exact hw.saves c (List.mem_of_getElem? hcall)
  | resolved =>
      refine WellFormed.settle ?_ _ _
      exact hw.modifyEntry _ fun _ => rfl
  | rejected => exact hw.settle _ _
  | @evicted unload v _ =>
      have hm := hw.modifyEntry v.entry
        (f := fun entry => { entry with saveTimeout := none, destroyed := true }) fun _ => rfl
      refine ⟨fun d e he => ?_, fun d hl => ?_, hm.saves⟩
      · by_cases hd : d = v.documentId
        · simp [hd] at he
        · exact hm.live d e (by simpa [hd] using he)
      · by_cases hd : d = v.documentId
        · simp [hd]
        · simpa [hd] using hm.loading d hl

end SyncBoard.Document
