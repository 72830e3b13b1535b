import SyncBoard.Document.Durability

/-!
# The stored state only grows

`saveState` overwrites `documents.yjs_state` with the bytes of one entry. It
loses nothing when that entry was hydrated from all that is stored or about to
be stored, and when the saves of a document commit in the order in which they
were encoded. `findWithState` hides the state of an archived document from the
first condition, and nothing in the source establishes the second.
-/

namespace SyncBoard.Document

open Labelled

variable {U : Type}

/-- The write of the save is not in the table yet. -/
def SaveCall.Open (c : SaveCall U) (d : Uuid) : Prop :=
  c.documentId = d ∧ c.committed = false

instance (c : SaveCall U) (d : Uuid) : Decidable (c.Open d) :=
  inferInstanceAs (Decidable (_ ∧ _))

/-- What the table and the hub do not remember: the number of the last save that
committed, and whether the last load read all that was stored or in flight. -/
structure SaveHistory where
  committed : Uuid → Nat := fun _ => 0
  complete : Uuid → Bool := fun _ => false

/-- Along the labels `as`, no update ever leaves the stored state of a document. -/
def StoredGrows [DecidableEq U] (s : HubState U) (as : List (HubAction U)) : Prop :=
  ∀ bs cs t u, bs ++ cs <+: as → Run HubState.step s bs t → Run HubState.step t cs u →
    ∀ d, t.stored d ⊆ u.stored d

/-- A save is encoded from an entry whose load was complete, and commits before
every save of the document that was encoded later. -/
def SavesComplete (p : HubState U × SaveHistory) : HubAction U → Prop
  | .timer e =>
      ∀ j, p.1.docs (p.1.entries e).documentId = some j → (p.1.entries j).isDirty = true →
        p.2.complete (p.1.entries e).documentId = true
  | .unloadIdle d _ =>
      ∀ j, p.1.docs d = some j → (p.1.entries j).isDirty = true → p.2.complete d = true
  | .commit call =>
      ∀ c, p.1.saves[call]? = some c → p.2.committed c.documentId < c.number
  | _ => True

theorem SavesComplete.persists {p : HubState U × SaveHistory} {a : HubAction U} {d : Uuid}
    {e : EntryId} (hg : SavesComplete p a) (ha : Persists p.1 d a) (he : p.1.docs d = some e)
    (hdirty : (p.1.entries e).isDirty = true) : p.2.complete d = true := by
  cases a with
  | timer j =>
      obtain rfl := ha
      exact hg e he hdirty
  | unloadIdle d' startedAt =>
      obtain rfl := ha
      exact hg e he hdirty
  | _ => exact ha.elim

/-- What the stored state, the saves in flight and the live documents have in common. -/
structure Ordered (s : HubState U) (h : SaveHistory) : Prop where
  fresh : ∀ c ∈ s.saves, c.number < s.nextSave
  chain : ∀ d, ∀ c ∈ s.saves, ∀ c' ∈ s.saves, c.Open d → c'.Open d → c.number ≤ c'.number →
    c.state ⊆ c'.state
  above : ∀ d, ∀ c ∈ s.saves, c.Open d → h.committed d < c.number → s.stored d ⊆ c.state
  live : ∀ d e, s.docs d = some e → h.complete d = true →
    s.stored d ⊆ (s.entries e).ydoc ∧ ∀ c ∈ s.saves, c.Open d → c.state ⊆ (s.entries e).ydoc
  load : ∀ d b, s.loading d = some (.read b) → h.complete d = true →
    s.stored d ⊆ b ∧ ∀ c ∈ s.saves, ¬ c.Open d

theorem ordered_startup (rows : Uuid → Option (DocumentRow U)) :
    Ordered (.startup rows) {} := by
  constructor <;> simp [HubState.startup]

variable {s s' : HubState U} {h : SaveHistory}

theorem Ordered.of_sameContent (ho : Ordered s h) (hc : SameContent s s') : Ordered s' h where
  fresh := by
    rw [hc.saves, hc.nextSave]
    exact ho.fresh
  chain := by
    rw [hc.saves]
    exact ho.chain
  above d := by
    rw [hc.saves, hc.stored]
    exact ho.above d
  live d e he := by
    rw [hc.stored, hc.ydoc, hc.saves]
    exact ho.live d e (hc.docs ▸ he)
  load d b hb := by
    rw [hc.stored, hc.saves]
    exact ho.load d b (hc.loading ▸ hb)

theorem Ordered.modifyEntry (ho : Ordered s h) (e : EntryId)
    {f : ActiveDocument U → ActiveDocument U}
    (hf : ∀ entry, entry.ydoc ⊆ (f entry).ydoc) : Ordered (s.modifyEntry e f) h where
  fresh := ho.fresh
  chain := ho.chain
  above := ho.above
  live d j hj hcomp := by
    obtain ⟨hst, hsaves⟩ := ho.live d j hj hcomp
    have hgrow : (s.entries j).ydoc ⊆ ((s.modifyEntry e f).entries j).ydoc := by
      rw [HubState.modifyEntry_entries]
      split
      · exact hf _
      · exact Finset.Subset.refl _
    exact ⟨hst.trans hgrow, fun c hc hopen => (hsaves c hc hopen).trans hgrow⟩
  load := ho.load

/-- A call that ends takes its bytes out of the hub. -/
theorem Ordered.settle (ho : Ordered s h) (call : Nat) (c : SaveCall U) :
    Ordered (s.settle call c) h where
  fresh c hc := ho.fresh c (List.mem_of_mem_eraseIdx hc)
  chain d c hc c' hc' :=
    ho.chain d c (List.mem_of_mem_eraseIdx hc) c' (List.mem_of_mem_eraseIdx hc')
  above d c hc := ho.above d c (List.mem_of_mem_eraseIdx hc)
  live d e he hcomp := by
    obtain ⟨hst, hsaves⟩ := ho.live d e he hcomp
    exact ⟨hst, fun c hc => hsaves c (List.mem_of_mem_eraseIdx hc)⟩
  load d b hb hcomp := by
    obtain ⟨hst, hnone⟩ := ho.load d b hb hcomp
    exact ⟨hst, fun c hc => hnone c (List.mem_of_mem_eraseIdx hc)⟩

/-- A new save carries everything that is stored or in flight. -/
theorem Ordered.startSave (ho : Ordered s h) (hw : WellFormed s) {d : Uuid} {e : EntryId}
    (he : s.docs d = some e) (hcomp : h.complete d = true) (forUnload : Bool) :
    Ordered (s.startSave d e forUnload) h := by
  obtain ⟨hst, hsaves⟩ := ho.live d e he hcomp
  have hmem : ∀ c ∈ (s.startSave d e forUnload).saves,
      c ∈ s.saves ∨ c = ⟨s.nextSave, d, e, (s.entries e).ydoc, forUnload, false⟩ := fun c hc =>
    (List.mem_append.mp hc).imp_right List.mem_singleton.mp
  constructor
  · intro c hc
    rcases hmem c hc with hc | rfl
    · exact Nat.lt_succ_of_lt (ho.fresh c hc)
    · exact Nat.lt_succ_self _
  · intro d' c hc c' hc' hopen hopen' hle
    rcases hmem c hc with hc | rfl <;> rcases hmem c' hc' with hc' | rfl
    · exact ho.chain d' c hc c' hc' hopen hopen' hle
    · obtain ⟨rfl, -⟩ := hopen'
      exact hsaves c hc hopen
    · have hlt := ho.fresh c' hc'
      exact absurd hle (by simp only; omega)
    · exact Finset.Subset.refl _
  · intro d' c hc hopen hlt
    rcases hmem c hc with hc | rfl
    · exact ho.above d' c hc hopen hlt
    · obtain ⟨rfl, -⟩ := hopen
      exact hst
  · intro d' j hj hcomp'
    obtain ⟨hst', hsaves'⟩ := ho.live d' j hj hcomp'
    refine ⟨hst', fun c hc hopen => ?_⟩
    rcases hmem c hc with hc | rfl
    · exact hsaves' c hc hopen
    · obtain ⟨rfl, -⟩ := hopen
      obtain rfl := Option.some.inj (he.symm.trans hj)
      exact Finset.Subset.refl _
  · intro d' b hb hcomp'
    obtain ⟨hst', hnone⟩ := ho.load d' b hb hcomp'
    refine ⟨hst', fun c hc hopen => ?_⟩
    rcases hmem c hc with hc | rfl
    · exact hnone c hc hopen
    · -- a document with a live entry is not being loaded
      obtain rfl : d = d' := hopen.1
      have hload : s.loading d = some (.read b) := hb
      have hnone' := hw.loading d (by simp [hload])
      simp [he] at hnone'

variable [DecidableEq U]

/-- A read is complete when the document is active, or nothing is stored, and no
save of the document is still on its way to the table. -/
def completeRead (s : HubState U) (d : Uuid) : Bool :=
  (decide (((s.rows d).map (·.status)).getD .active = .active) || decide (s.stored d = ∅)) &&
    s.saves.all fun c => !decide (c.Open d)

def recordSaves (h : SaveHistory) (s : HubState U) : HubAction U → SaveHistory
  | .loadRead d => { h with complete := Function.update h.complete d (completeRead s d) }
  | .commit call =>
      match s.saves[call]? with
      | none => h
      | some c => { h with committed := Function.update h.committed c.documentId c.number }
  | _ => h

theorem recordSaves_of_minor (h : SaveHistory) (s : HubState U) {a : HubAction U}
    (ha : a.Minor) : recordSaves h s a = h := by
  cases a with
  | loadRead | commit => exact ha.elim
  | _ => rfl

/-- A complete read finds all that is stored, with nothing in flight. -/
theorem completeRead_spec {s : HubState U} {d : Uuid} (hc : completeRead s d = true) :
    s.stored d ⊆ ((findWithState s.rows d).map (·.yjsState)).getD ∅ ∧
      ∀ c ∈ s.saves, ¬ c.Open d := by
  simp only [completeRead, Bool.and_eq_true, Bool.or_eq_true, decide_eq_true_eq, List.all_eq_true,
    Bool.not_eq_true', decide_eq_false_iff_not] at hc
  refine ⟨?_, hc.2⟩
  rcases hc.1 with hactive | hempty
  · unfold findWithState HubState.stored
    cases hrow : s.rows d with
    | none => simp
    | some row =>
        have ha : row.status = .active := by simpa [hrow] using hactive
        simp [Option.filter, ha]
  · simp [hempty]

omit [DecidableEq U] in
/-- A save that commits in its order overwrites nothing that its bytes miss. -/
theorem Ordered.commit (ho : Ordered s h) {call : Nat} {c : SaveCall U}
    (hcall : s.saves[call]? = some c) (hopen : c.committed = false)
    (hlast : h.committed c.documentId < c.number) (row : DocumentRow U) :
    let s' := { s with
      rows := Function.update s.rows c.documentId (some { row with yjsState := c.state })
      saves := s.saves.set call { c with committed := true } }
    Ordered s' { h with committed := Function.update h.committed c.documentId c.number } ∧
      ∀ d, s.stored d ⊆ s'.stored d := by
  intro s'
  have hc : c ∈ s.saves := List.mem_of_getElem? hcall
  have hself : c.Open c.documentId := ⟨rfl, hopen⟩
  have hstored : ∀ d, s'.stored d = if d = c.documentId then c.state else s.stored d :=
    stored_commit s c.documentId row c.state _
  have hmem : ∀ c' ∈ s'.saves, ∀ d, c'.Open d → c' ∈ s.saves := by
    intro c' hc' d hd
    rcases List.mem_or_eq_of_mem_set hc' with hc' | rfl
    · exact hc'
    · cases hd.2
  have hgrow : s.stored c.documentId ⊆ c.state := ho.above c.documentId c hc hself hlast
  refine ⟨⟨?_, ?_, ?_, ?_, ?_⟩, ?_⟩
  · intro c' hc'
    rcases List.mem_or_eq_of_mem_set hc' with hc' | rfl
    · exact ho.fresh c' hc'
    · exact ho.fresh c hc
  · intro d c₁ h₁ c₂ h₂ ho₁ ho₂
    exact ho.chain d c₁ (hmem c₁ h₁ d ho₁) c₂ (hmem c₂ h₂ d ho₂) ho₁ ho₂
  · intro d c' hc' hopen' hlt
    rw [hstored]
    by_cases hd : d = c.documentId
    · subst hd
      rw [if_pos rfl]
      simp only [Function.update_self] at hlt
      exact ho.chain c.documentId c hc c' (hmem c' hc' _ hopen') hself hopen' hlt.le
    · rw [if_neg hd]
      simp only [Function.update_of_ne hd] at hlt
      exact ho.above d c' (hmem c' hc' d hopen') hopen' hlt
  · intro d e he hcomp
    obtain ⟨hst, hsaves⟩ := ho.live d e he hcomp
    refine ⟨?_, fun c' hc' hopen' => hsaves c' (hmem c' hc' d hopen') hopen'⟩
    rw [hstored]
    split
    · rename_i hd
      subst hd
      exact hsaves c hc hself
    · exact hst
  · intro d b hb hcomp
    obtain ⟨hst, hnone⟩ := ho.load d b hb hcomp
    have hd : d ≠ c.documentId := by
      rintro rfl
      exact hnone c hc hself
    rw [hstored, if_neg hd]
    exact ⟨hst, fun c' hc' hopen' => hnone c' (hmem c' hc' d hopen') hopen'⟩
  · intro d
    rw [hstored]
    split
    · rename_i hd
      exact hd ▸ hgrow
    · exact Finset.Subset.refl _

theorem Ordered.step {a : HubAction U} (hw : WellFormed s) (ho : Ordered s h)
    (hg : SavesComplete (s, h) a) (hstep : s.step a = some s') :
    Ordered s' (recordSaves h s a) ∧ ∀ d, s.stored d ⊆ s'.stored d := by
  cases effect_of_step hstep with
  | quiet ha hc =>
      rw [recordSaves_of_minor h s ha]
      exact ⟨ho.of_sameContent hc, fun d => (hc.stored d).ge⟩
  | @loadStarted d _ hload =>
      refine ⟨⟨ho.fresh, ho.chain, ho.above, ho.live, fun d' b hb => ?_⟩, fun _ => le_rfl⟩
      by_cases hd : d' = d
      · simp [hd] at hb
      · exact ho.load d' b (by simpa [hd] using hb)
  | @loadFailed d hload =>
      refine ⟨⟨ho.fresh, ho.chain, ho.above, ho.live, fun d' b hb => ?_⟩, fun _ => le_rfl⟩
      by_cases hd : d' = d
      · simp [hd] at hb
      · exact ho.load d' b (by simpa [hd] using hb)
  | @hydrated d hload =>
      refine ⟨⟨ho.fresh, ho.chain, ho.above, fun d' e he hcomp => ?_, fun d' b hb hcomp => ?_⟩,
        fun _ => le_rfl⟩
      · have hd : d' ≠ d := by
          rintro rfl
          have hnone := hw.loading d' (by simp [hload])
          simp [hnone] at he
        exact ho.live d' e he (by simpa [recordSaves, hd] using hcomp)
      · by_cases hd : d' = d
        · subst hd
          have hcomp : completeRead s d' = true := by simpa [recordSaves] using hcomp
          obtain rfl : ((findWithState s.rows d').map (·.yjsState)).getD ∅ = b := by
            simpa using hb
          exact completeRead_spec hcomp
        · exact ho.load d' b (by simpa [hd] using hb) (by simpa [recordSaves, hd] using hcomp)
  | @loaded d b hload =>
      refine ⟨⟨ho.fresh, ho.chain, ho.above, fun d' e he hcomp => ?_, fun d' b' hb' => ?_⟩,
        fun _ => le_rfl⟩
      · by_cases hd : d' = d
        · subst hd
          obtain rfl : s.nextEntry = e := by simpa using he
          obtain ⟨hst, hnone⟩ := ho.load d' b hload hcomp
          simp only [Function.update_self]
          exact ⟨hst, fun c hc hopen => absurd hopen (hnone c hc)⟩
        · have he' : s.docs d' = some e := by simpa [hd] using he
          have hlt := (hw.live d' e he').1
          simp only [Function.update_of_ne hlt.ne]
          exact ho.live d' e he' hcomp
      · by_cases hd : d' = d
        · simp [hd] at hb'
        · exact ho.load d' b' (by simpa [hd] using hb')
  | ignored | redundant => exact ⟨ho, fun _ => le_rfl⟩
  | @updated d us e s' _ _ hc =>
      constructor
      · refine Ordered.of_sameContent ?_ hc
        exact ho.modifyEntry e fun entry => Finset.subset_union_left
      · intro d'
        rw [hc.stored, HubState.stored_modifyEntry]
  | @saveStarted a s₁ d e forUnload ha hc hdocs hdirty =>
      rw [recordSaves_of_minor h s ha.minor]
      have hcomp : h.complete d = true := hg.persists ha hdocs hdirty
      exact ⟨(ho.of_sameContent hc).startSave (hw.of_sameContent hc) (hc.docs ▸ hdocs) hcomp _,
        fun d' => (hc.stored d').ge⟩
  | @committed call c row hcall hopen _ =>
      simpa [recordSaves, hcall] using ho.commit hcall hopen (hg c hcall) row
  | resolved =>
      refine ⟨?_, fun _ => le_rfl⟩
      refine Ordered.settle ?_ _ _
      exact ho.modifyEntry _ fun _ => Finset.Subset.refl _
  | rejected => exact ⟨ho.settle _ _, fun _ => le_rfl⟩
  | @evicted unload v _ =>
      have hm := ho.modifyEntry v.entry
        (f := fun entry => { entry with saveTimeout := none, destroyed := true })
        fun _ => Finset.Subset.refl _
      refine ⟨⟨hm.fresh, hm.chain, hm.above, fun d e he => ?_, hm.load⟩, fun _ => le_rfl⟩
      by_cases hd : d = v.documentId
      · simp [hd] at he
      · exact hm.live d e (by simpa [hd] using he)

/-- The hub with the history of its loads and saves. -/
abbrev savesStep : HubState U × SaveHistory → HubAction U → Option (HubState U × SaveHistory) :=
  track HubState.step recordSaves

/-- Where every save is complete and commits in its order, the stored state of
every document grows along the whole run. -/
theorem storedGrows_of_savesComplete (rows : Uuid → Option (DocumentRow U))
    (as : List (HubAction U))
    (hg : AllSteps savesStep SavesComplete (.startup rows, {}) as) :
    StoredGrows (.startup rows) as := by
  intro bs cs t u hp hbs hcs d
  obtain ⟨ht, hbs'⟩ := hbs.track recordSaves {}
  obtain ⟨hu, hcs'⟩ := hcs.track recordSaves ht
  have hstep : ∀ (p : HubState U × SaveHistory) a q, WellFormed p.1 ∧ Ordered p.1 p.2 →
      SavesComplete p a → savesStep p a = some q →
      (WellFormed q.1 ∧ Ordered q.1 q.2) ∧ ∀ d, p.1.stored d ⊆ q.1.stored d := by
    rintro p a ⟨s', h'⟩ ⟨hw, ho⟩ hga hpq
    obtain ⟨hs, rfl : h' = _⟩ := track_eq_some.mp hpq
    obtain ⟨ho', hgrow⟩ := ho.step hw hga hs
    exact ⟨⟨hw.step hs, ho'⟩, hgrow⟩
  have hg' := hg.shorten hp
  have hmid := hbs'.related (R := fun p q => ∀ d, p.1.stored d ⊆ q.1.stored d)
    (fun _ _ => le_rfl) (fun _ _ _ h k d => (h d).trans (k d)) hstep
    ⟨wellFormed_startup rows, ordered_startup rows⟩
    (hg'.shorten (List.prefix_append bs cs))
  exact (hcs'.related (R := fun p q => ∀ d, p.1.stored d ⊆ q.1.stored d)
    (fun _ _ => le_rfl) (fun _ _ _ h k d => (h d).trans (k d)) hstep hmid.1
    (hg'.tail hbs')).2 d

/-- One edit, saved by the timer. -/
def savedEdit : List (HubAction Nat) :=
  [.getOrLoad 1, .loadRead 1, .loadDone 1, .applyUpdate 1 {1}, .tick saveDebounceMs, .timer 0,
    .commit 0, .resolve 0]

theorem storedGrows_savedEdit : StoredGrows (.startup oneDocument) savedEdit := by
  refine storedGrows_of_savesComplete oneDocument savedEdit ?_
  iterate 5
    refine allSteps_cons.mpr ⟨trivial, fun t ht => ?_⟩
    cases ht
  refine allSteps_cons.mpr ⟨fun _ _ _ => rfl, fun t ht => ?_⟩
  cases ht
  refine allSteps_cons.mpr ⟨?_, fun t ht => ?_⟩
  · rintro c hc
    cases hc
    decide
  · cases ht
    refine allSteps_cons.mpr ⟨trivial, fun t ht => ?_⟩
    exact allSteps_nil

/-- A table with one active document that contains an update. -/
def oneStored : Uuid → Option (DocumentRow Nat) :=
  fun d => if d = 1 then some { workspaceId := 3, yjsState := {1} } else none

/-- An update sent to a document that was archived after its last unload. -/
def updateAfterArchive : List (HubAction Nat) :=
  [.archive 1, .getOrLoad 1, .loadRead 1, .loadDone 1, .applyUpdate 1 {2}, .tick saveDebounceMs,
    .timer 0, .commit 0]

/-- The save of an entry that was hydrated empty drops what the archived row has. -/
theorem updateAfterArchive_shrinks :
    ¬ ∀ (rows : Uuid → Option (DocumentRow Nat)) (as : List (HubAction Nat)),
      StoredGrows (.startup rows) as := by
  intro hall
  obtain ⟨s, hs⟩ : ∃ s, exec HubState.step (.startup oneStored) updateAfterArchive = some s :=
    ⟨_, rfl⟩
  have hgrow := hall oneStored updateAfterArchive [] updateAfterArchive _ s
    (List.prefix_refl _) (.nil _) (run_of_exec hs) 1
  have hold : 1 ∈ (HubState.startup oneStored).stored 1 := by decide
  have hnew : 1 ∉ s.stored 1 := by
    cases hs
    decide
  exact hnew (hgrow hold)

end SyncBoard.Document
