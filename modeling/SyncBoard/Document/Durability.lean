import SyncBoard.Document.HubEffect

/-!
# Applied updates and the two places that keep them

An update that was applied to a live document has to be in the table or in a
live entry that is still dirty. Three awaits can take it out of both: a write
that commits over a newer one, the reset of `isDirty` after a save, and the
removal of an entry by `unloadIdle`. `noneLost_iff` says when they do.
-/

namespace SyncBoard.Document

open Labelled

variable {U : Type}

/-- The hub after its start, over a given table. -/
def HubState.startup (rows : Uuid → Option (DocumentRow U)) : HubState U where
  rows := rows

/-- The live entry of the document is dirty and contains the update. -/
def Unsaved (s : HubState U) (d : Uuid) (u : U) : Prop :=
  ∃ e, s.docs d = some e ∧ (s.entries e).isDirty = true ∧ u ∈ (s.entries e).ydoc

/-- The update is in the table, or will be saved with the live entry. -/
def Kept (s : HubState U) (d : Uuid) (u : U) : Prop :=
  u ∈ s.stored d ∨ Unsaved s d u

/-- The updates applied to the live documents so far. -/
abbrev Applied (U : Type) := Uuid → Finset U

/-- What is stored at the start was applied before it. -/
def appliedBefore (rows : Uuid → Option (DocumentRow U)) : HubState U × Applied U :=
  (.startup rows, (HubState.startup rows).stored)

def NoneLost (p : HubState U × Applied U) : Prop :=
  ∀ d, ∀ u ∈ p.2 d, Kept p.1 d u

/-- A commit overwrites only what the live dirty entry still has; the flag of the
live entry is reset, and an entry removed, only when its document is in the table. -/
def SavedFirst (s : HubState U) : HubAction U → Prop
  | .commit call =>
      ∀ c, s.saves[call]? = some c → ∀ u ∈ s.stored c.documentId,
        u ∈ c.state ∨ Unsaved s c.documentId u
  | .resolve call =>
      ∀ c, s.saves[call]? = some c → s.docs c.documentId = some c.entry →
        (s.entries c.entry).ydoc ⊆ s.stored c.documentId
  | .evict unload =>
      ∀ v, s.unloads[unload]? = some v → ∀ e, s.docs v.documentId = some e →
        (s.entries e).ydoc ⊆ s.stored v.documentId
  | _ => True

theorem SavedFirst.of_minor (s : HubState U) {a : HubAction U} (h : a.Minor) :
    SavedFirst s a := by
  cases a with
  | commit | resolve | evict => exact h.elim
  | _ => trivial

/-- Live documents, the table, the bytes read by a load and the bytes of a save
contain applied updates only. -/
structure Recorded (s : HubState U) (applied : Applied U) : Prop where
  ydoc : ∀ d e, s.docs d = some e → (s.entries e).ydoc ⊆ applied d
  stored : ∀ d, s.stored d ⊆ applied d
  loading : ∀ d yjsState, s.loading d = some (.read yjsState) → yjsState ⊆ applied d
  saves : ∀ c ∈ s.saves, c.state ⊆ applied c.documentId

theorem recorded_startup (rows : Uuid → Option (DocumentRow U)) :
    Recorded (.startup rows) (HubState.startup rows).stored where
  ydoc := by simp [HubState.startup]
  stored _ := Finset.Subset.refl _
  loading := by simp [HubState.startup]
  saves := by simp [HubState.startup]

/-- What a load finds in the table is what is stored, or nothing. -/
theorem findWithState_subset (s : HubState U) (d : Uuid) :
    ((findWithState s.rows d).map (·.yjsState)).getD ∅ ⊆ s.stored d := by
  unfold findWithState HubState.stored
  cases hrow : s.rows d with
  | none => simp
  | some row => by_cases ha : row.status = .active <;> simp [Option.filter, ha]

theorem stored_commit (s : HubState U) (d : Uuid) (row : DocumentRow U) (bytes : Finset U)
    (saves : List (SaveCall U)) (d' : Uuid) :
    HubState.stored { s with
      rows := Function.update s.rows d (some { row with yjsState := bytes })
      saves := saves } d' = if d' = d then bytes else s.stored d' := by
  by_cases h : d' = d <;> simp [HubState.stored, h]

section Applied
variable {s s' : HubState U} {applied : Applied U}

/-- A record that only grows stays a record. -/
theorem Recorded.mono (hr : Recorded s applied) {applied' : Applied U}
    (h : ∀ d, applied d ⊆ applied' d) : Recorded s applied' where
  ydoc d e he := (hr.ydoc d e he).trans (h d)
  stored d := (hr.stored d).trans (h d)
  loading d b hb := (hr.loading d b hb).trans (h d)
  saves c hc := (hr.saves c hc).trans (h c.documentId)

theorem Recorded.of_sameContent (hr : Recorded s applied) (h : SameContent s s') :
    Recorded s' applied where
  ydoc d e he := by
    rw [h.ydoc]
    exact hr.ydoc d e (h.docs ▸ he)
  stored d := by
    rw [h.stored]
    exact hr.stored d
  loading d b hb := hr.loading d b (h.loading ▸ hb)
  saves c hc := hr.saves c (h.saves ▸ hc)

theorem Recorded.modifyEntry (hr : Recorded s applied) (e : EntryId)
    {f : ActiveDocument U → ActiveDocument U} (hf : ∀ entry, (f entry).ydoc = entry.ydoc) :
    Recorded (s.modifyEntry e f) applied where
  ydoc d j hj := by
    rw [s.modifyEntry_field e (·.ydoc) hf]
    exact hr.ydoc d j hj
  stored := hr.stored
  loading := hr.loading
  saves := hr.saves

theorem Recorded.settle (hr : Recorded s applied) (call : Nat) (c : SaveCall U) :
    Recorded (s.settle call c) applied where
  ydoc := hr.ydoc
  stored := hr.stored
  loading := hr.loading
  saves c' hc' := hr.saves c' (List.mem_of_mem_eraseIdx hc')

theorem Recorded.startSave (hr : Recorded s applied) {d : Uuid} {e : EntryId}
    (he : s.docs d = some e) (forUnload : Bool) : Recorded (s.startSave d e forUnload) applied where
  ydoc := hr.ydoc
  stored := hr.stored
  loading := hr.loading
  saves c hc := by
    rcases List.mem_append.mp hc with hc | hc
    · exact hr.saves c hc
    · obtain rfl := List.mem_singleton.mp hc
      exact hr.ydoc d e he

/-- A load goes on with bytes that were applied, or with none. -/
theorem Recorded.setLoading (hr : Recorded s applied) (d : Uuid) (load : Option (Load U))
    (h : ∀ b, load = some (.read b) → b ⊆ applied d) :
    Recorded { s with loading := Function.update s.loading d load } applied where
  ydoc := hr.ydoc
  stored := hr.stored
  loading d' b hb := by
    by_cases hd : d' = d
    · subst hd
      exact h b (by simpa using hb)
    · exact hr.loading d' b (by simpa [hd] using hb)
  saves := hr.saves

end Applied

variable [DecidableEq U]

def recordApplied (applied : Applied U) (s : HubState U) : HubAction U → Applied U
  | .applyUpdate d update =>
      if (s.docs d).isSome then Function.update applied d (applied d ∪ update) else applied
  | _ => applied

/-- The hub with the updates applied so far. -/
abbrev hubStep : HubState U × Applied U → HubAction U → Option (HubState U × Applied U) :=
  track HubState.step recordApplied

theorem recordApplied_of_minor (applied : Applied U) (s : HubState U) {a : HubAction U}
    (h : a.Minor) : recordApplied applied s a = applied := by
  cases a with
  | applyUpdate => exact h.elim
  | _ => rfl

theorem subset_recordApplied (applied : Applied U) (s : HubState U) (a : HubAction U) (d : Uuid) :
    applied d ⊆ recordApplied applied s a d := by
  cases a with
  | applyUpdate d' us =>
      simp only [recordApplied]
      split
      · by_cases h : d = d'
        · subst h
          simp
        · simp [h]
      · exact Finset.Subset.refl _
  | _ => exact Finset.Subset.refl _

theorem Recorded.step {s s' : HubState U} {applied : Applied U} {a : HubAction U}
    (hw : WellFormed s) (hr : Recorded s applied) (hstep : s.step a = some s') :
    Recorded s' (recordApplied applied s a) := by
  have hgrown : Recorded s (recordApplied applied s a) :=
    hr.mono (subset_recordApplied applied s a)
  cases effect_of_step hstep with
  | quiet _ h => exact hgrown.of_sameContent h
  | loadStarted => exact hr.setLoading _ _ (by simp)
  | @hydrated d _ =>
      apply hr.setLoading
      intro b hb
      obtain rfl := Load.read.inj (Option.some.inj hb)
      exact (findWithState_subset s d).trans (hr.stored d)
  | loadFailed => exact hr.setLoading _ _ (by simp)
  | @loaded d yjsState hload =>
      refine ⟨fun d' e he => ?_, hr.stored, (hr.setLoading d none (by simp)).loading, hr.saves⟩
      by_cases hd : d' = d
      · subst hd
        obtain rfl : s.nextEntry = e := by simpa using he
        simpa using hgrown.loading d' yjsState hload
      · have he' : s.docs d' = some e := by simpa [hd] using he
        have hlt := (hw.live d' e he').1
        simpa [hlt.ne] using hgrown.ydoc d' e he'
  | ignored | redundant => exact hgrown
  | @updated d us e s' hdocs _ h =>
      refine Recorded.of_sameContent ?_ h
      refine ⟨fun d' j hj => ?_, hgrown.stored, hgrown.loading, hgrown.saves⟩
      rw [HubState.modifyEntry_entries]
      split
      · rename_i heq
        subst heq
        obtain rfl := hw.live_unique hdocs hj
        have hsub := hr.ydoc d j hdocs
        simpa [recordApplied, hdocs] using Finset.union_subset_union_left hsub
      · exact hgrown.ydoc d' j hj
  | saveStarted _ h hdocs _ => exact (hgrown.of_sameContent h).startSave (h.docs ▸ hdocs) _
  | @committed call c row hcall _ _ =>
      have hc := hr.saves c (List.mem_of_getElem? hcall)
      refine ⟨hr.ydoc, fun d => ?_, hr.loading, fun c' hc' => ?_⟩
      · rw [stored_commit]
        split
        · rename_i hd
          exact hd ▸ hc
        · exact hr.stored d
      · rcases List.mem_or_eq_of_mem_set hc' with hc' | rfl
        · exact hr.saves c' hc'
        · exact hc
  | resolved =>
      refine Recorded.settle ?_ _ _
      exact hr.modifyEntry _ fun _ => rfl
  | rejected => exact hr.settle _ _
  | @evicted unload v _ =>
      have hm := hr.modifyEntry v.entry
        (f := fun entry => { entry with saveTimeout := none, destroyed := true }) fun _ => rfl
      refine ⟨fun d e he => ?_, hm.stored, hm.loading, hm.saves⟩
      by_cases hd : d = v.documentId
      · simp [hd] at he
      · exact hm.ydoc d e (by simpa [hd] using he)

section Kept
variable {s s' : HubState U}

omit [DecidableEq U] in
theorem SameContent.kept_iff (h : SameContent s s') (d : Uuid) (u : U) :
    Kept s' d u ↔ Kept s d u := by
  simp only [Kept, Unsaved, h.stored, h.docs, h.isDirty, h.ydoc]

omit [DecidableEq U] in
theorem kept_resolved (s : HubState U) (call : Nat) (c : SaveCall U) (d : Uuid) (u : U) :
    Kept ((s.modifyEntry c.entry fun entry =>
      { entry with isDirty := false, lastActivity := s.now }).settle call c) d u ↔
      u ∈ s.stored d ∨ (s.docs d ≠ some c.entry ∧ Unsaved s d u) := by
  refine or_congr Iff.rfl ?_
  constructor
  · rintro ⟨e, he, hdirty, hu⟩
    simp only [HubState.settle, HubState.modifyEntry_docs] at he
    simp only [HubState.settle, HubState.modifyEntry_entries] at hdirty hu
    split at hdirty
    · simp at hdirty
    · rename_i hne
      rw [if_neg hne] at hu
      exact ⟨by simp [he, hne], e, he, hdirty, hu⟩
  · rintro ⟨hne, e, he, hdirty, hu⟩
    have hec : e ≠ c.entry := by
      rintro rfl
      exact hne he
    refine ⟨e, he, ?_, ?_⟩
    · simpa [HubState.settle, HubState.modifyEntry_entries, hec] using hdirty
    · simpa [HubState.settle, HubState.modifyEntry_entries, hec] using hu

omit [DecidableEq U] in
theorem kept_evicted (s : HubState U) (unload : Nat) (v : Unload) (d : Uuid) (u : U) :
    Kept { s.modifyEntry v.entry (fun entry =>
        { entry with saveTimeout := none, destroyed := true }) with
      docs := Function.update s.docs v.documentId none
      unloads := s.unloads.eraseIdx unload } d u ↔
      u ∈ s.stored d ∨ (d ≠ v.documentId ∧ Unsaved s d u) := by
  refine or_congr Iff.rfl ?_
  by_cases hd : d = v.documentId
  · simp [Unsaved, hd]
  · have hydoc := fun j => s.modifyEntry_field v.entry (·.ydoc)
      (f := fun entry => { entry with saveTimeout := none, destroyed := true }) (fun _ => rfl) j
    have hdirty := fun j => s.modifyEntry_field v.entry (·.isDirty)
      (f := fun entry => { entry with saveTimeout := none, destroyed := true }) (fun _ => rfl) j
    simp only [Unsaved, ne_eq, hd, not_false_eq_true, true_and, Function.update_of_ne, hydoc,
      hdirty]

omit [DecidableEq U] in
theorem kept_committed (s : HubState U) (c : SaveCall U) (row : DocumentRow U)
    (saves : List (SaveCall U)) (d : Uuid) (u : U) :
    Kept { s with
      rows := Function.update s.rows c.documentId (some { row with yjsState := c.state })
      saves := saves } d u ↔
      (if d = c.documentId then u ∈ c.state else u ∈ s.stored d) ∨ Unsaved s d u := by
  refine or_congr ?_ Iff.rfl
  rw [stored_commit]
  split <;> rfl

end Kept

section NoneLost
variable {s s' : HubState U} {applied : Applied U}

omit [DecidableEq U] in
/-- A document that is being loaded has no live entry to lose. -/
theorem NoneLost.loaded (hn : NoneLost (s, applied)) (hw : WellFormed s) {d : Uuid}
    {yjsState : Finset U} (hload : s.loading d = some (.read yjsState)) :
    NoneLost ({ s with
      docs := Function.update s.docs d (some s.nextEntry)
      entries := Function.update s.entries s.nextEntry
        { documentId := d, ydoc := yjsState, lastActivity := s.now }
      nextEntry := s.nextEntry + 1
      loading := Function.update s.loading d none }, applied) := by
  intro d' u hu
  rcases hn d' u hu with hst | ⟨e, he, hdirty, hue⟩
  · exact .inl hst
  · have hd : d' ≠ d := by
      rintro rfl
      have hnone := hw.loading d' (by simp [hload])
      simp [hnone] at he
    have hlt : e ≠ s.nextEntry := (hw.live d' e he).1.ne
    exact .inr ⟨e, by simpa [hd] using he, by simpa [hlt] using hdirty,
      by simpa [hlt] using hue⟩

/-- An update that the live document has already is on record. -/
theorem NoneLost.redundant (hn : NoneLost (s, applied)) (hr : Recorded s applied) {d : Uuid}
    {us : Finset U} {e : Nat} (hdocs : s.docs d = some e) (hsub : us ⊆ (s.entries e).ydoc) :
    NoneLost (s, recordApplied applied s (.applyUpdate d us)) := by
  intro d' u hu
  have hold : us ⊆ applied d := hsub.trans (hr.ydoc d e hdocs)
  apply hn d' u
  by_cases hd : d' = d
  · subst hd
    simpa [recordApplied, hdocs, Finset.union_eq_left.mpr hold] using hu
  · simpa [recordApplied, hdocs, hd] using hu

/-- A new update makes its entry dirty, with all the entry had. -/
theorem NoneLost.updated (hn : NoneLost (s, applied)) (hw : WellFormed s) {d : Uuid}
    {us : Finset U} {e : Nat} (hdocs : s.docs d = some e) :
    NoneLost (s.modifyEntry e fun entry =>
      { entry with ydoc := entry.ydoc ∪ us, isDirty := true },
      recordApplied applied s (.applyUpdate d us)) := by
  intro d' u hu
  by_cases hd : d' = d
  · subst hd
    have hu : u ∈ applied d' ∨ u ∈ us := by simpa [recordApplied, hdocs] using hu
    have hunsaved : u ∈ (s.entries e).ydoc ∪ us →
        Kept (s.modifyEntry e fun entry =>
          { entry with ydoc := entry.ydoc ∪ us, isDirty := true }) d' u := fun hmem =>
      .inr ⟨e, hdocs, by simp [HubState.modifyEntry_entries],
        by simpa [HubState.modifyEntry_entries] using hmem⟩
    rcases hu with hu | hu
    · rcases hn d' u hu with hst | ⟨j, hj, -, huj⟩
      · exact .inl hst
      · obtain rfl := Option.some.inj (hdocs.symm.trans hj)
        exact hunsaved (Finset.mem_union_left _ huj)
    · exact hunsaved (Finset.mem_union_right _ hu)
  · have hu : u ∈ applied d' := by simpa [recordApplied, hdocs, hd] using hu
    rcases hn d' u hu with hst | ⟨j, hj, hdirty, huj⟩
    · exact .inl hst
    · have hje : j ≠ e := by
        rintro rfl
        exact hd (hw.live_unique hj hdocs)
      exact .inr ⟨j, hj, by simpa [HubState.modifyEntry_entries, hje] using hdirty,
        by simpa [HubState.modifyEntry_entries, hje] using huj⟩

omit [DecidableEq U] in
theorem noneLost_committed (hn : NoneLost (s, applied)) (hr : Recorded s applied) {call : Nat}
    {c : SaveCall U} {row : DocumentRow U} {saves : List (SaveCall U)}
    (hcall : s.saves[call]? = some c) :
    NoneLost ({ s with
      rows := Function.update s.rows c.documentId (some { row with yjsState := c.state })
      saves := saves }, applied) ↔ SavedFirst s (.commit call) := by
  constructor
  · intro hn' c' hc' u hu
    obtain rfl := Option.some.inj (hcall.symm.trans hc')
    simpa [kept_committed] using hn' c.documentId u (hr.stored _ hu)
  · intro hg d u hu
    rw [kept_committed]
    rcases hn d u hu with hst | hunsaved
    · by_cases hd : d = c.documentId
      · subst hd
        simpa using hg c hcall u hst
      · exact .inl (by simpa [hd] using hst)
    · exact .inr hunsaved

omit [DecidableEq U] in
theorem noneLost_resolved (hn : NoneLost (s, applied)) (hw : WellFormed s)
    (hr : Recorded s applied) {call : Nat} {c : SaveCall U} (hcall : s.saves[call]? = some c) :
    NoneLost ((s.modifyEntry c.entry fun entry =>
      { entry with isDirty := false, lastActivity := s.now }).settle call c, applied) ↔
      SavedFirst s (.resolve call) := by
  constructor
  · intro hn' c' hc' hlive u hu
    obtain rfl := Option.some.inj (hcall.symm.trans hc')
    have hkept := hn' c.documentId u (hr.ydoc _ _ hlive hu)
    rw [kept_resolved] at hkept
    exact hkept.resolve_right fun h => h.1 hlive
  · intro hg d u hu
    rw [kept_resolved]
    rcases hn d u hu with hst | hunsaved
    · exact .inl hst
    · by_cases hlive : s.docs d = some c.entry
      · obtain rfl := hw.saves_live (List.mem_of_getElem? hcall) hlive
        obtain ⟨e, he, -, hue⟩ := hunsaved
        obtain rfl := Option.some.inj (hlive.symm.trans he)
        exact .inl (hg c hcall hlive hue)
      · exact .inr ⟨hlive, hunsaved⟩

omit [DecidableEq U] in
theorem noneLost_evicted (hn : NoneLost (s, applied)) (hr : Recorded s applied) {unload : Nat}
    {v : Unload} (hunload : s.unloads[unload]? = some v) :
    NoneLost ({ s.modifyEntry v.entry (fun entry =>
        { entry with saveTimeout := none, destroyed := true }) with
      docs := Function.update s.docs v.documentId none
      unloads := s.unloads.eraseIdx unload }, applied) ↔ SavedFirst s (.evict unload) := by
  constructor
  · intro hn' v' hv' e he u hu
    obtain rfl := Option.some.inj (hunload.symm.trans hv')
    have hkept := hn' v.documentId u (hr.ydoc _ _ he hu)
    rw [kept_evicted] at hkept
    exact hkept.resolve_right fun h => h.1 rfl
  · intro hg d u hu
    rw [kept_evicted]
    rcases hn d u hu with hst | hunsaved
    · exact .inl hst
    · by_cases hd : d = v.documentId
      · subst hd
        obtain ⟨e, he, -, hue⟩ := hunsaved
        exact .inl (hg v hunload e he hue)
      · exact .inr ⟨hd, hunsaved⟩

/-- One action keeps every applied update exactly when it saves before it drops. -/
theorem noneLost_step {a : HubAction U} (hw : WellFormed s) (hr : Recorded s applied)
    (hn : NoneLost (s, applied)) (hstep : s.step a = some s') :
    NoneLost (s', recordApplied applied s a) ↔ SavedFirst s a := by
  cases effect_of_step hstep with
  | quiet ha h =>
      refine iff_of_true (fun d u hu => ?_) (.of_minor s ha)
      rw [recordApplied_of_minor applied s ha] at hu
      exact (h.kept_iff d u).mpr (hn d u hu)
  | loadStarted | hydrated | loadFailed | rejected => exact iff_of_true hn trivial
  | loaded hload => exact iff_of_true (hn.loaded hw hload) trivial
  | @ignored d us hdocs =>
      refine iff_of_true (fun d' u hu => hn d' u ?_) trivial
      simpa [recordApplied, hdocs] using hu
  | redundant hdocs hsub => exact iff_of_true (hn.redundant hr hdocs hsub) trivial
  | updated hdocs hnew h =>
      refine iff_of_true (fun d u hu => ?_) trivial
      exact (h.kept_iff d u).mpr (hn.updated hw hdocs d u hu)
  | saveStarted ha h hdocs hdirty =>
      refine iff_of_true (fun d u hu => ?_) (.of_minor s ha.minor)
      rw [recordApplied_of_minor applied s ha.minor] at hu
      exact (h.kept_iff d u).mpr (hn d u hu)
  | committed hcall hopen hrow => exact noneLost_committed hn hr hcall
  | resolved hcall hdone => exact noneLost_resolved hn hw hr hcall
  | evicted hunload => exact noneLost_evicted hn hr hunload

end NoneLost

omit [DecidableEq U] in
theorem wellFormed_startup (rows : Uuid → Option (DocumentRow U)) :
    WellFormed (.startup rows) := by
  constructor <;> simp [HubState.startup]

/-- A table with one empty document. -/
def oneDocument : Uuid → Option (DocumentRow Nat) :=
  fun d => if d = 1 then some { workspaceId := 3 } else none

/-- An update that arrives while the save of an earlier one is awaited. -/
def updateDuringSave : List (HubAction Nat) :=
  [.getOrLoad 1, .loadRead 1, .loadDone 1, .applyUpdate 1 {1}, .tick saveDebounceMs, .timer 0,
    .applyUpdate 1 {2}, .commit 0, .resolve 0]

end SyncBoard.Document
