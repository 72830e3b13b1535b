import SyncBoard.Document.Durability

/-!
# Teardown of the document hub

`onModuleDestroy` visits the documents of the map in the order of their insertion. Its
`finally` block destroys the document at hand and the rejection of a save goes on from
there, so the loop is left at the first dirty document whose save is rejected: the dirty
documents after it are not saved, though the same database would have taken them.

## Implementation notes

The map is a function here, and its iteration order a list of the loaded documents. The
hub does nothing else while the loop awaits its saves.
-/

namespace SyncBoard.Document

open Labelled

variable {U : Type}

/-- How the database answers a call of `saveState`. A call that rejects may have written. -/
inductive SaveOutcome
  | resolves
  | rejects (written : Bool)
  deriving DecidableEq, Repr

/-- The end of `onModuleDestroy`: the documents for which `saveState` was called, and whether
a rejection ended the loop. -/
structure Teardown (U : Type) where
  hub : HubState U
  attempted : List Uuid := []
  rejected : Bool := false

namespace HubState

/-- `await this.persistNow(documentId)`; `false` stands for its rejection. -/
def awaitPersistNow (s : HubState U) (documentId : Uuid) (outcome : SaveOutcome) :
    HubState U × Bool :=
  match s.persistNow documentId false with
  | none => (s, true)
  | some saving =>
      -- the new call is behind those that are awaited elsewhere
      let call := s.saves.length
      match outcome with
      | .resolves =>
          match (saving.commit call).bind fun written => written.resolve call with
          | some saved => (saved, true)
          | none => ((saving.reject call).getD saving, false)
      | .rejects written =>
          let left := if written then (saving.commit call).getD saving else saving
          ((left.reject call).getD left, false)

/-- `clearTimeout(entry.saveTimeout)`. -/
def clearTimeout (s : HubState U) (e : EntryId) : HubState U :=
  s.modifyEntry e fun entry => { entry with saveTimeout := none }

/-- What the loop does with one document. -/
def destroyOne (s : HubState U) (documentId : Uuid) (e : EntryId) (outcome : SaveOutcome) :
    Teardown U :=
  let awaited := (s.clearTimeout e).awaitPersistNow documentId outcome
  { hub := awaited.1.modifyEntry e fun entry => { entry with destroyed := true }
    attempted :=
      if ((s.clearTimeout e).persistNow documentId false).isSome then [documentId] else []
    rejected := !awaited.2 }

def onModuleDestroy (outcome : Uuid → SaveOutcome) : List Uuid → HubState U → Teardown U
  | [], s => { hub := { s with docs := fun _ => none } }
  | documentId :: order, s =>
      match s.docs documentId with
      | none => s.onModuleDestroy outcome order
      | some e =>
          let one := s.destroyOne documentId e (outcome documentId)
          if one.rejected then one
          else
            let rest := one.hub.onModuleDestroy outcome order
            { rest with attempted := one.attempted ++ rest.attempted }

/-- A document with changes that are not saved. -/
def Dirty (s : HubState U) (documentId : Uuid) : Prop :=
  ∃ e, s.docs documentId = some e ∧ (s.entries e).isDirty = true

/-- The database takes the state of the document, and has a row for it. -/
def SaveSucceeds (s : HubState U) (outcome : Uuid → SaveOutcome) (documentId : Uuid) : Prop :=
  outcome documentId = .resolves ∧ ∃ row, s.rows documentId = some row

/-- The order in which the map is iterated. -/
structure Iterates (s : HubState U) (order : List Uuid) : Prop where
  nodup : order.Nodup
  mem_iff : ∀ documentId, documentId ∈ order ↔ ∃ e, s.docs documentId = some e

/-- A save of every dirty document has been attempted, and where it succeeds, the latest
state is in the table. -/
def Flushed (s : HubState U) (outcome : Uuid → SaveOutcome) (r : Teardown U) : Prop :=
  ∀ documentId e, s.docs documentId = some e → (s.entries e).isDirty = true →
    documentId ∈ r.attempted ∧
      (s.SaveSucceeds outcome documentId → r.hub.stored documentId = (s.entries e).ydoc)

/-- The two states differ at one document and its entry only. -/
structure SameElsewhere (s s' : HubState U) (documentId : Uuid) (e : EntryId) : Prop where
  docs : s'.docs = s.docs
  entries : ∀ j, j ≠ e → s'.entries j = s.entries j
  rows : ∀ d, d ≠ documentId → s'.rows d = s.rows d

section One
variable {s s' s'' : HubState U} {d : Uuid} {e : EntryId} {outcome : SaveOutcome}

theorem SameElsewhere.trans (h : s.SameElsewhere s' d e) (h' : s'.SameElsewhere s'' d e) :
    s.SameElsewhere s'' d e where
  docs := h'.docs.trans h.docs
  entries j hj := (h'.entries j hj).trans (h.entries j hj)
  rows c hc := (h'.rows c hc).trans (h.rows c hc)

theorem sameElsewhere_modifyEntry (s : HubState U) (d : Uuid) (e : EntryId)
    (f : ActiveDocument U → ActiveDocument U) : s.SameElsewhere (s.modifyEntry e f) d e where
  docs := rfl
  entries j hj := by rw [modifyEntry_entries, if_neg hj]
  rows _ _ := rfl

theorem persistNow_clean (he : s.docs d = some e) (hclean : (s.entries e).isDirty = false)
    (forUnload : Bool) : s.persistNow d forUnload = none := by
  simp [persistNow, he, hclean]

theorem persistNow_dirty (he : s.docs d = some e) (hdirty : (s.entries e).isDirty = true)
    (forUnload : Bool) : s.persistNow d forUnload = some (s.startSave d e forUnload) := by
  simp [persistNow, he, hdirty]

/-- A save that the database takes: the row has the state of the document, and the entry is
clean. -/
theorem awaitPersistNow_resolves {row : DocumentRow U} (he : s.docs d = some e)
    (hdirty : (s.entries e).isDirty = true) (hrow : s.rows d = some row) :
    s.awaitPersistNow d .resolves =
      (HubState.modifyEntry { s with
          rows := Function.update s.rows d (some { row with yjsState := (s.entries e).ydoc })
          nextSave := s.nextSave + 1 } e
        (fun entry => { entry with isDirty := false, lastActivity := s.now }), true) := by
  simp [awaitPersistNow, persistNow_dirty he hdirty, startSave, commit, saveState, hrow, resolve,
    settle, modifyEntry, List.eraseIdx_append_of_length_le]

theorem sameElsewhere_reject (s : HubState U) (call : Nat) (d : Uuid) (e : EntryId) :
    s.SameElsewhere ((s.reject call).getD s) d e := by
  rw [reject]
  cases s.saves[call]? <;> exact ⟨rfl, fun _ _ => rfl, fun _ _ => rfl⟩

theorem sameElsewhere_commit {call : Nat}
    (hcall : ∀ c, s.saves[call]? = some c → c.documentId = d) :
    s.SameElsewhere ((s.commit call).getD s) d e := by
  cases hcommit : s.commit call with
  | none => exact ⟨rfl, fun _ _ => rfl, fun _ _ => rfl⟩
  | some written =>
      obtain ⟨c, rows, hc, -, hrows, rfl⟩ := commit_eq_some hcommit
      obtain ⟨row, -, rfl⟩ := Option.map_eq_some_iff.mp hrows
      refine ⟨rfl, fun _ _ => rfl, fun b hb => ?_⟩
      rw [hcall c hc]
      exact Function.update_of_ne hb _ _

/-- A save that is rejected concerns the row of its document only. -/
theorem awaitPersistNow_rejects (he : s.docs d = some e) (hdirty : (s.entries e).isDirty = true)
    (hfails : ¬ (outcome = .resolves ∧ ∃ row, s.rows d = some row)) :
    (s.awaitPersistNow d outcome).2 = false ∧
      s.SameElsewhere (s.awaitPersistNow d outcome).1 d e := by
  have hstarted : s.SameElsewhere (s.startSave d e false) d e :=
    ⟨rfl, fun _ _ => rfl, fun _ _ => rfl⟩
  rw [awaitPersistNow, persistNow_dirty he hdirty]
  cases outcome with
  | resolves =>
      have hnone : (s.startSave d e false).commit s.saves.length = none := by
        have hrow : s.rows d = none := by
          simpa [Option.eq_none_iff_forall_ne_some] using hfails
        simp [startSave, commit, saveState, hrow]
      simp only [hnone, Option.bind_none]
      exact ⟨trivial, hstarted.trans (sameElsewhere_reject _ _ d e)⟩
  | rejects written =>
      refine ⟨rfl, hstarted.trans ?_⟩
      cases written with
      | false => exact sameElsewhere_reject _ _ d e
      | true =>
          refine SameElsewhere.trans (sameElsewhere_commit fun c hc => ?_)
            (sameElsewhere_reject _ _ d e)
          have hlast : (s.startSave d e false).saves[s.saves.length]? = some
              { number := s.nextSave
                documentId := d
                entry := e
                state := (s.entries e).ydoc
                forUnload := false } := by
            simp [startSave]
          obtain rfl := Option.some.inj (hlast.symm.trans hc)
          rfl

theorem clearTimeout_entry (s : HubState U) (e : EntryId) :
    (s.clearTimeout e).entries e = { s.entries e with saveTimeout := none } := by
  rw [clearTimeout, modifyEntry_entries, if_pos rfl]

theorem sameElsewhere_clearTimeout (s : HubState U) (d : Uuid) (e : EntryId) :
    s.SameElsewhere (s.clearTimeout e) d e :=
  s.sameElsewhere_modifyEntry d e _

theorem SameElsewhere.destroyed
    (h : s.SameElsewhere ((s.clearTimeout e).awaitPersistNow d outcome).1 d e) :
    s.SameElsewhere (s.destroyOne d e outcome).hub d e :=
  h.trans (sameElsewhere_modifyEntry _ d e fun entry => { entry with destroyed := true })

/-- A clean document is not saved. -/
theorem destroyOne_clean (he : s.docs d = some e) (hclean : (s.entries e).isDirty = false) :
    (s.destroyOne d e outcome).attempted = [] ∧ (s.destroyOne d e outcome).rejected = false ∧
      s.SameElsewhere (s.destroyOne d e outcome).hub d e := by
  have hnone : (s.clearTimeout e).persistNow d false = none := by
    apply persistNow_clean (s := s.clearTimeout e) he
    rw [clearTimeout_entry]
    exact hclean
  have hawait : (s.clearTimeout e).awaitPersistNow d outcome = (s.clearTimeout e, true) := by
    rw [awaitPersistNow, hnone]
  have hsame : s.SameElsewhere (s.destroyOne d e outcome).hub d e := by
    apply SameElsewhere.destroyed
    rw [hawait]
    exact s.sameElsewhere_clearTimeout d e
  simp only [destroyOne, hawait, hnone] at hsame ⊢
  exact ⟨rfl, rfl, hsame⟩

/-- A dirty document is saved, and unless the database rejects it, the loop goes on with the
document in the table. -/
theorem destroyOne_dirty (he : s.docs d = some e) (hdirty : (s.entries e).isDirty = true)
    (outcome : SaveOutcome) :
    (s.destroyOne d e outcome).attempted = [d] ∧
      s.SameElsewhere (s.destroyOne d e outcome).hub d e ∧
      ((s.destroyOne d e outcome).rejected = false ↔
        outcome = .resolves ∧ ∃ row, s.rows d = some row) ∧
      ((s.destroyOne d e outcome).rejected = false →
        (s.destroyOne d e outcome).hub.stored d = (s.entries e).ydoc) := by
  have hcleared : s.SameElsewhere (s.clearTimeout e) d e := s.sameElsewhere_clearTimeout d e
  have hdirty' : ((s.clearTimeout e).entries e).isDirty = true := by
    rw [clearTimeout_entry]
    exact hdirty
  have hattempted : (s.destroyOne d e outcome).attempted = [d] := by
    simp [destroyOne, persistNow_dirty (s := s.clearTimeout e) he hdirty']
  refine ⟨hattempted, ?_⟩
  by_cases hsucceeds : outcome = .resolves ∧ ∃ row, s.rows d = some row
  · have hiff := hsucceeds
    obtain ⟨rfl, row, hrow⟩ := hsucceeds
    rw [destroyOne, awaitPersistNow_resolves (s := s.clearTimeout e) he hdirty' hrow]
    refine ⟨⟨rfl, fun j hj => ?_, fun c hc => ?_⟩, iff_of_true rfl hiff, fun _ => ?_⟩
    · rw [modifyEntry_entries, if_neg hj, modifyEntry_entries, if_neg hj]
      exact hcleared.entries j hj
    · exact Function.update_of_ne hc _ _
    · simp [stored, clearTimeout_entry]
  · obtain ⟨hrejects, hsame⟩ := awaitPersistNow_rejects (s := s.clearTimeout e) he hdirty' hsucceeds
    have hrejected : (s.destroyOne d e outcome).rejected = true := by
      rw [destroyOne, hrejects]
      rfl
    rw [hrejected]
    exact ⟨(hcleared.trans hsame).destroyed, iff_of_false (by simp) hsucceeds, by simp⟩

end One

section Loop
variable {s s' : HubState U} {outcome : Uuid → SaveOutcome} {order : List Uuid}

/-- No dirty document is behind one of which the save fails. -/
def FailsLast (s : HubState U) (outcome : Uuid → SaveOutcome) (order : List Uuid) : Prop :=
  order.Pairwise fun a b => s.Dirty a → s.Dirty b → s.SaveSucceeds outcome a

/-- `Flushed` for the documents of a list. -/
def FlushedOf (s : HubState U) (outcome : Uuid → SaveOutcome) (order : List Uuid)
    (r : Teardown U) : Prop :=
  ∀ d ∈ order, ∀ e, s.docs d = some e → (s.entries e).isDirty = true →
    d ∈ r.attempted ∧ (s.SaveSucceeds outcome d → r.hub.stored d = (s.entries e).ydoc)

/-- What the loop does with a document leaves the others alone. -/
theorem sameElsewhere_destroyOne {a : Uuid} {e : EntryId} (he : s.docs a = some e)
    (o : SaveOutcome) : s.SameElsewhere (s.destroyOne a e o).hub a e := by
  cases hdirty : (s.entries e).isDirty with
  | false => exact (destroyOne_clean he hdirty).2.2
  | true => exact (destroyOne_dirty he hdirty o).2.1

theorem attempted_destroyOne (s : HubState U) (a : Uuid) (e : EntryId) (o : SaveOutcome) :
    (s.destroyOne a e o).attempted ⊆ [a] := by
  intro d hd
  simp only [destroyOne] at hd
  split at hd
  · exact hd
  · cases hd

theorem onModuleDestroy_cons {a : Uuid} {e : EntryId} (he : s.docs a = some e) :
    s.onModuleDestroy outcome (a :: order) =
      if (s.destroyOne a e (outcome a)).rejected then s.destroyOne a e (outcome a)
      else
        let rest := (s.destroyOne a e (outcome a)).hub.onModuleDestroy outcome order
        { rest with attempted := (s.destroyOne a e (outcome a)).attempted ++ rest.attempted } := by
  rw [onModuleDestroy, he]

/-- A document that the loop does not come to keeps its row. -/
theorem rows_onModuleDestroy {d : Uuid} (hd : d ∉ order) :
    (s.onModuleDestroy outcome order).hub.rows d = s.rows d := by
  induction order generalizing s with
  | nil => rfl
  | cons a order ih =>
      rw [List.mem_cons, not_or] at hd
      obtain ⟨hda, hd⟩ := hd
      cases he : s.docs a with
      | none =>
          rw [onModuleDestroy, he]
          exact ih hd
      | some e =>
          have hrow := (sameElsewhere_destroyOne he (outcome a)).rows d hda
          rw [onModuleDestroy_cons he]
          split
          · exact hrow
          · exact (ih hd).trans hrow

section Rest
variable {a : Uuid} {e : EntryId}

/-- The documents behind the one at hand are as they were. -/
theorem SameElsewhere.entry {b : Uuid} {j : EntryId} (h : s.SameElsewhere s' a e)
    (hinj : ∀ d d' j, s.docs d = some j → s.docs d' = some j → d = d')
    (he : s.docs a = some e) (hab : b ≠ a) (hj : s.docs b = some j) :
    s'.entries j = s.entries j := by
  refine h.entries j ?_
  rintro rfl
  exact hab (hinj b a j hj he)

theorem SameElsewhere.dirty_iff {b : Uuid} (h : s.SameElsewhere s' a e)
    (hinj : ∀ d d' j, s.docs d = some j → s.docs d' = some j → d = d')
    (he : s.docs a = some e) (hab : b ≠ a) : s'.Dirty b ↔ s.Dirty b := by
  apply exists_congr
  intro j
  rw [h.docs]
  refine and_congr_right fun hj => ?_
  rw [h.entry hinj he hab hj]

theorem SameElsewhere.saveSucceeds_iff {b : Uuid} (h : s.SameElsewhere s' a e) (hab : b ≠ a) :
    s'.SaveSucceeds outcome b ↔ s.SaveSucceeds outcome b := by
  rw [SaveSucceeds, SaveSucceeds, h.rows b hab]

theorem SameElsewhere.failsLast_iff (h : s.SameElsewhere s' a e)
    (hinj : ∀ d d' j, s.docs d = some j → s.docs d' = some j → d = d')
    (he : s.docs a = some e) (ha : a ∉ order) :
    s'.FailsLast outcome order ↔ s.FailsLast outcome order := by
  have hne : ∀ b ∈ order, b ≠ a := by
    rintro b hb rfl
    exact ha hb
  apply List.Pairwise.iff_of_mem
  intro b c hb hc
  rw [h.dirty_iff hinj he (hne b hb), h.dirty_iff hinj he (hne c hc),
    h.saveSucceeds_iff (hne b hb)]

/-- Behind a document that is not rejected, the loop flushes what it flushes on its own. -/
theorem flushedOf_rest (h : s.SameElsewhere s' a e)
    (hinj : ∀ d d' j, s.docs d = some j → s.docs d' = some j → d = d')
    (he : s.docs a = some e) (ha : a ∉ order) {first : List Uuid} (hfirst : first ⊆ [a])
    (rest : Teardown U) :
    s.FlushedOf outcome order { rest with attempted := first ++ rest.attempted } ↔
      s'.FlushedOf outcome order rest := by
  have hattempted : ∀ d ∈ order, (d ∈ first ++ rest.attempted ↔ d ∈ rest.attempted) := by
    intro d hd
    rw [List.mem_append, or_iff_right]
    intro hmem
    obtain rfl := List.mem_singleton.mp (hfirst hmem)
    exact ha hd
  apply forall₂_congr
  intro d hd
  have hda : d ≠ a := by
    rintro rfl
    exact ha hd
  apply forall_congr'
  intro j
  rw [h.docs]
  refine forall_congr' fun hj => ?_
  rw [h.entry hinj he hda hj, h.saveSucceeds_iff hda, hattempted d hd]

end Rest

/-- After a rejection no document is saved. -/
theorem flushedOf_rejected {a : Uuid} {r : Teardown U} (hr : r.attempted ⊆ [a]) (ha : a ∉ order) :
    s.FlushedOf outcome order r ↔ ∀ d ∈ order, ¬ s.Dirty d := by
  constructor
  · rintro hflushed d hd ⟨e, he, hdirty⟩
    obtain rfl := List.mem_singleton.mp (hr (hflushed d hd e he hdirty).1)
    exact ha hd
  · intro hclean d hd e he hdirty
    exact absurd ⟨e, he, hdirty⟩ (hclean d hd)

section Cons
variable {a : Uuid} {e : EntryId} {r : Teardown U}

theorem dirty_iff (he : s.docs a = some e) : s.Dirty a ↔ (s.entries e).isDirty = true := by
  constructor
  · rintro ⟨j, hj, hdirty⟩
    obtain rfl := Option.some.inj (he.symm.trans hj)
    exact hdirty
  · exact fun hdirty => ⟨e, he, hdirty⟩

theorem flushedOf_cons (he : s.docs a = some e) :
    s.FlushedOf outcome (a :: order) r ↔
      ((s.entries e).isDirty = true →
        a ∈ r.attempted ∧ (s.SaveSucceeds outcome a → r.hub.stored a = (s.entries e).ydoc)) ∧
      s.FlushedOf outcome order r := by
  rw [FlushedOf, List.forall_mem_cons, FlushedOf]
  apply and_congr_left
  intro _
  constructor
  · exact fun h => h e he
  · intro h j hj
    obtain rfl := Option.some.inj (he.symm.trans hj)
    exact h

/-- A clean document in front asks nothing of the others. -/
theorem failsLast_cons_of_clean (hclean : ¬ s.Dirty a) :
    s.FailsLast outcome (a :: order) ↔ s.FailsLast outcome order := by
  rw [FailsLast, List.pairwise_cons, FailsLast, and_iff_right]
  exact fun b _ hdirty => absurd hdirty hclean

/-- Nor does one of which the save succeeds. -/
theorem failsLast_cons_of_saved (hsaves : s.SaveSucceeds outcome a) :
    s.FailsLast outcome (a :: order) ↔ s.FailsLast outcome order := by
  rw [FailsLast, List.pairwise_cons, FailsLast, and_iff_right]
  exact fun _ _ _ _ => hsaves

/-- Behind a document of which the save fails, all have to be clean. -/
theorem failsLast_cons_of_failed (hdirty : s.Dirty a) (hfails : ¬ s.SaveSucceeds outcome a) :
    s.FailsLast outcome (a :: order) ↔ ∀ d ∈ order, ¬ s.Dirty d := by
  rw [FailsLast, List.pairwise_cons]
  constructor
  · rintro ⟨hlast, -⟩ d hd hdirty'
    exact hfails (hlast d hd hdirty hdirty')
  · intro hclean
    refine ⟨fun d hd _ hdirty' => absurd hdirty' (hclean d hd), ?_⟩
    exact List.pairwise_of_forall_mem_list fun d hd _ _ hdirty' => absurd hdirty' (hclean d hd)

end Cons

theorem flushedOf_iff (hinj : ∀ d d' j, s.docs d = some j → s.docs d' = some j → d = d')
    (hnodup : order.Nodup) (hlive : ∀ d ∈ order, ∃ e, s.docs d = some e) :
    s.FlushedOf outcome order (s.onModuleDestroy outcome order) ↔ s.FailsLast outcome order := by
  induction order generalizing s with
  | nil => exact iff_of_true (fun d hd => by cases hd) .nil
  | cons a order ih =>
      obtain ⟨ha, hnodup⟩ := List.nodup_cons.mp hnodup
      obtain ⟨⟨e, he⟩, hlive⟩ := List.forall_mem_cons.mp hlive
      have hsame := sameElsewhere_destroyOne he (outcome a)
      have hfirst := s.attempted_destroyOne a e (outcome a)
      have hrest := ih (s := (s.destroyOne a e (outcome a)).hub) (by rw [hsame.docs]; exact hinj)
        hnodup (by rw [hsame.docs]; exact hlive)
      rw [hsame.failsLast_iff hinj he ha] at hrest
      rw [flushedOf_cons he, onModuleDestroy_cons he]
      cases hdirty : (s.entries e).isDirty with
      | false =>
          have hclean : ¬ s.Dirty a := by simp [dirty_iff he, hdirty]
          rw [(destroyOne_clean he hdirty).2.1, failsLast_cons_of_clean hclean,
            and_iff_right (by simp)]
          exact (flushedOf_rest hsame hinj he ha hfirst _).trans hrest
      | true =>
          obtain ⟨hattempted, -, hsucceeds, hstored⟩ :=
            destroyOne_dirty he hdirty (outcome a)
          cases hrejected : (s.destroyOne a e (outcome a)).rejected with
          | false =>
              rw [failsLast_cons_of_saved (hsucceeds.mp hrejected), and_iff_right]
              · exact (flushedOf_rest hsame hinj he ha hfirst _).trans hrest
              · refine fun _ => ⟨?_, fun _ => ?_⟩
                · rw [hattempted]
                  exact List.mem_cons_self
                · rw [← hstored hrejected, stored, stored]
                  exact congrArg (fun row => (Option.map _ row).getD ∅) (rows_onModuleDestroy ha)
          | true =>
              have hfails : ¬ s.SaveSucceeds outcome a := by
                intro hsaves
                exact absurd (hrejected.symm.trans (hsucceeds.mpr hsaves)) (by simp)
              rw [failsLast_cons_of_failed ((dirty_iff he).mpr hdirty) hfails, and_iff_right]
              · exact flushedOf_rejected hfirst ha
              · refine fun _ => ⟨?_, fun hsaves => absurd hsaves hfails⟩
                rw [if_pos rfl, hattempted]
                exact List.mem_cons_self

end Loop

end HubState

/-- In every state that the hub reaches, the teardown flushes everything it can exactly when
no dirty document comes after one of which the save fails. -/
theorem flushed_iff [DecidableEq U] {rows : Uuid → Option (DocumentRow U)}
    {as : List (HubAction U)} {s : HubState U} (run : Run HubState.step (.startup rows) as s)
    (outcome : Uuid → SaveOutcome) {order : List Uuid} (horder : s.Iterates order) :
    s.Flushed outcome (s.onModuleDestroy outcome order) ↔
      order.Pairwise fun a b => s.Dirty a → s.Dirty b → s.SaveSucceeds outcome a := by
  have hw : WellFormed s :=
    run.invariant (fun _ _ _ hw hstep => hw.step hstep) (wellFormed_startup rows)
  rw [← HubState.FailsLast, ← HubState.flushedOf_iff (fun _ _ _ => hw.live_unique) horder.nodup
    fun d hd => (horder.mem_iff d).mp hd]
  constructor
  · exact fun hflushed d _ => hflushed d
  · exact fun hflushed d e he => hflushed d ((horder.mem_iff d).mpr ⟨e, he⟩) e he

/-- A table with two empty documents. -/
def twoDocuments : Uuid → Option (DocumentRow Nat) :=
  fun d => if d = 1 ∨ d = 2 then some { workspaceId := 3 } else none

/-- Both documents are loaded and edited. -/
def bothEdited : List (HubAction Nat) :=
  [.getOrLoad 1, .loadRead 1, .loadDone 1, .getOrLoad 2, .loadRead 2, .loadDone 2,
    .applyUpdate 1 {1}, .applyUpdate 2 {2}]

theorem exists_bothEdited : ∃ s, exec HubState.step (.startup twoDocuments) bothEdited = some s ∧
    s.Iterates [1, 2] := by
  obtain ⟨s, hs⟩ : ∃ s, exec HubState.step (.startup twoDocuments) bothEdited = some s := ⟨_, rfl⟩
  have hdocs : s.docs =
      Function.update (Function.update (fun _ => none) 1 (some 0)) 2 (some 1) := by
    cases hs
    rfl
  refine ⟨s, hs, by decide, fun d => ?_⟩
  rw [hdocs, Function.update_apply, Function.update_apply]
  by_cases h2 : d = 2
  · simp [h2]
  · by_cases h1 : d = 1 <;> simp [h1, h2]

/-- The database rejects document 1. -/
def rejectsFirst (d : Uuid) : SaveOutcome :=
  if d = 1 then .rejects false else .resolves

theorem flushed_iff_bothEdited : ∃ s : HubState Nat,
    exec HubState.step (.startup twoDocuments) bothEdited = some s ∧
      (s.Flushed rejectsFirst (s.onModuleDestroy rejectsFirst [1, 2]) ↔
        [1, 2].Pairwise fun a b => s.Dirty a → s.Dirty b → s.SaveSucceeds rejectsFirst a) := by
  obtain ⟨s, hs, horder⟩ := exists_bothEdited
  exact ⟨s, hs, flushed_iff (run_of_exec hs) rejectsFirst horder⟩

/-- Document 2 is dirty, the database would take it, and no save of it is attempted. -/
theorem bothEdited_not_flushed :
    ¬ ∀ (rows : Uuid → Option (DocumentRow Nat)) (as : List (HubAction Nat)) (s : HubState Nat),
      Run HubState.step (.startup rows) as s → ∀ (outcome : Uuid → SaveOutcome)
        (order : List Uuid), s.Iterates order →
          s.Flushed outcome (s.onModuleDestroy outcome order) := by
  intro hall
  obtain ⟨s, hs, horder⟩ := exists_bothEdited
  have hflushed := hall twoDocuments bothEdited s (run_of_exec hs) rejectsFirst [1, 2] horder
  cases hs
  obtain ⟨hattempted, -⟩ := hflushed 2 1 rfl rfl
  exact absurd hattempted (by decide)

end SyncBoard.Document
