import SyncBoard.Document.Shutdown
import Mathlib.Data.Finset.Lattice.Fold
import Mathlib.Data.List.Lex
import Mathlib.Order.Lattice.Nat

/-!
# Snapshot restore

`restore` reads a snapshot and `replaceState` writes its text over that of the live
document, loading the document first where it has to; then it saves the document. The
text is replaced before the save is awaited, and nothing puts it back where the save
is rejected: the document stays dirty and its debounced save tries again.

## Implementation notes

The hub does nothing else while the call awaits the database. A snapshot has bytes
that the hub has encoded, so that they always decode. What Yjs makes of updates is a
parameter.
-/

namespace SyncBoard.Document

open Labelled

variable {U : Type}

/-- The `content` text of the document with some updates, and the updates that the
document has after a transaction that deletes the text and inserts another one. -/
structure ContentText (U : Type) where
  text : Finset U → JsString
  replaced : Finset U → JsString → Finset U
  subset_replaced : ∀ ydoc newContent, ydoc ⊆ replaced ydoc newContent
  text_replaced : ∀ ydoc newContent, text (replaced ydoc newContent) = newContent

/-- A row of `document_snapshots`. -/
structure DocumentSnapshot (U : Type) where
  documentId : Uuid
  yjsState : Finset U

def findSnapshotById (snapshots : Uuid → Option (DocumentSnapshot U))
    (snapshotId documentId : Uuid) : Option (DocumentSnapshot U) :=
  (snapshots snapshotId).filter fun snapshot => snapshot.documentId = documentId

/-- The condition is that of `findWithState`; the state is not selected. -/
def findActiveById (rows : Uuid → Option (DocumentRow U)) (id : Uuid) : Option (DocumentRow U) :=
  findWithState rows id

/-- What a restore awaits of the database. -/
inductive RestoreAwait
  | findSnapshotById
  | findWithState
  | saveState
  | findActiveById
  deriving DecidableEq, Repr

inductive RestoreError
  | entityNotFound (entityName : String) (entityId : Uuid)
  | rejected (await : RestoreAwait)
  deriving DecidableEq, Repr

/-- Which calls of the database are rejected. -/
structure Rejections where
  findSnapshotById : Bool := false
  findWithState : Bool := false
  saveState : SaveOutcome := .resolves
  findActiveById : Bool := false
  deriving DecidableEq, Repr

namespace HubState

/-- `await this.getOrLoad(documentId)`; `false` stands for its rejection. A load that is in
flight already may have its read behind it. -/
def awaitGetOrLoad (s : HubState U) (documentId : Uuid) (rejected : Bool) : HubState U × Bool :=
  let asked := s.getOrLoad documentId
  match asked.loading documentId, rejected with
  | none, _ => (asked, true)
  | some .reading, true => ((asked.loadFail documentId).getD asked, false)
  | some .reading, false =>
      (((asked.loadRead documentId).bind fun read => read.loadDone documentId).getD asked, true)
  | some (.read _), _ => ((asked.loadDone documentId).getD asked, true)

/-- `liveDoc.transact`, which runs the hook where it changes the document. -/
def transact [DecidableEq U] (content : ContentText U) (s : HubState U) (e : EntryId)
    (newContent : JsString) : HubState U :=
  let ydoc := content.replaced (s.entries e).ydoc newContent
  if ydoc ⊆ (s.entries e).ydoc then s
  else (s.modifyEntry e fun entry => { entry with ydoc := ydoc }).onUpdate e

/-- What `replaceState` does with a loaded document before it awaits the save. -/
def replaceContent [DecidableEq U] (content : ContentText U) (s : HubState U) (e : EntryId)
    (newContent : JsString) : HubState U :=
  (s.transact content e newContent).modifyEntry e fun entry => { entry with isDirty := true }

def replaceState [DecidableEq U] (content : ContentText U) (s : HubState U) (documentId : Uuid)
    (bytes : Finset U) (rejections : Rejections) : HubState U × Except RestoreError Unit :=
  let newContent := content.text bytes
  match s.awaitGetOrLoad documentId rejections.findWithState with
  | (s, false) => (s, .error (.rejected .findWithState))
  | (s, true) =>
      match s.docs documentId with
      | none => (s, .ok ())
      | some e =>
          match (s.replaceContent content e newContent).awaitPersistNow documentId
              rejections.saveState with
          | (s, false) => (s, .error (.rejected .saveState))
          | (s, true) => (s, .ok ())

end HubState

/-- `SnapshotService.restore`. -/
def restore [DecidableEq U] (content : ContentText U)
    (snapshots : Uuid → Option (DocumentSnapshot U)) (s : HubState U) (documentId snapshotId : Uuid)
    (rejections : Rejections) :
    HubState U × Except RestoreError (Option (DocumentRow U)) :=
  if rejections.findSnapshotById then (s, .error (.rejected .findSnapshotById))
  else
    match findSnapshotById snapshots snapshotId documentId with
    | none => (s, .error (.entityNotFound "DocumentSnapshot" snapshotId))
    | some snapshot =>
        match s.replaceState content documentId snapshot.yjsState rejections with
        | (s, .error e) => (s, .error e)
        | (s, .ok ()) =>
            if rejections.findActiveById then (s, .error (.rejected .findActiveById))
            else (s, .ok (findActiveById s.rows documentId))

/-- The invariant is about neither the table nor the numbers of the saves. -/
theorem WellFormed.setRows {s : HubState U} (hw : WellFormed s)
    (rows : Uuid → Option (DocumentRow U)) (nextSave : Nat) :
    WellFormed { s with rows, nextSave } :=
  ⟨hw.live, hw.loading, hw.saves⟩

namespace HubState

/-- The updates of the live document, or those that a load hydrates it with. -/
def current (s : HubState U) (documentId : Uuid) : Finset U :=
  match s.docs documentId with
  | some e => (s.entries e).ydoc
  | none =>
      match s.loading documentId with
      | some (.read yjsState) => yjsState
      | _ => ((findWithState s.rows documentId).map (·.yjsState)).getD ∅

/-- Live documents and the table are as they were. -/
structure Untouched (s t : HubState U) : Prop where
  docs : t.docs = s.docs
  entries : t.entries = s.entries
  rows : t.rows = s.rows

/-- The document is live, with the content it had or has been hydrated with. -/
structure Loaded (s t : HubState U) (d : Uuid) (e : EntryId) : Prop where
  live : t.docs d = some e
  ydoc : (t.entries e).ydoc = s.current d
  rows : t.rows = s.rows
  wellFormed : WellFormed t

section Loads
variable {s t : HubState U} {d : Uuid}

/-- Where the document is not live, `getOrLoad` leaves a load in flight. -/
theorem loading_getOrLoad (hdocs : s.docs d = none) :
    s.Untouched (s.getOrLoad d) ∧ (s.getOrLoad d).current d = s.current d ∧
      ∃ load, (s.getOrLoad d).loading d = some load := by
  cases hload : s.loading d with
  | none =>
      simp only [getOrLoad, hdocs, hload]
      refine ⟨⟨rfl, rfl, rfl⟩, ?_, .reading, Function.update_self _ _ _⟩
      simp [current, hdocs, hload]
  | some load =>
      simp only [getOrLoad, hdocs, hload]
      exact ⟨⟨rfl, rfl, rfl⟩, trivial, load, rfl⟩

/-- The entry that the end of a load makes live. -/
theorem loaded_of_hydrated [DecidableEq U] (hw : WellFormed t) (huntouched : s.Untouched t)
    (hcurrent : t.current d = s.current d) {u : HubState U} {yjsState : Finset U}
    (hread : t.loading d = some (.read yjsState)) (h : t.loadDone d = some u) :
    ∃ e, s.Loaded u d e := by
  have hdocs : t.docs d = none := hw.loading d (by simp [hread])
  obtain ⟨st, hst, rfl⟩ := loadDone_eq_some h
  obtain rfl := Load.read.inj (Option.some.inj (hread.symm.trans hst))
  have hwu := hw.step (a := .loadDone d) h
  refine ⟨t.nextEntry, Function.update_self _ _ _, ?_, huntouched.rows, hwu⟩
  rw [← hcurrent]
  simp [current, hdocs, hread]

/-- The read of a load in flight hydrates it with what is in the table. -/
theorem current_loadRead (hdocs : t.docs d = none) (hload : t.loading d = some .reading) :
    ∃ u yjsState, t.loadRead d = some u ∧ u.loading d = some (.read yjsState) ∧
      t.Untouched u ∧ u.current d = t.current d := by
  cases hread : t.loadRead d with
  | none => simp [loadRead, hload] at hread
  | some u =>
      obtain ⟨-, rfl⟩ := loadRead_eq_some hread
      refine ⟨_, _, rfl, Function.update_self _ _ _, ⟨rfl, rfl, rfl⟩, ?_⟩
      simp [current, hdocs, hload]

theorem awaitGetOrLoad_live (hw : WellFormed s) {e : EntryId} (hdocs : s.docs d = some e)
    (rejected : Bool) : s.awaitGetOrLoad d rejected = (s.getOrLoad d, true) := by
  have hload : s.loading d = none := by
    by_contra hload
    rw [hw.loading d hload] at hdocs
    cases hdocs
  have hasked : (s.getOrLoad d).loading d = none := by
    simp [getOrLoad, hdocs, hload]
  simp only [awaitGetOrLoad, hasked]

/-- A load that is rejected leaves the document as it was. -/
theorem awaitGetOrLoad_rejected [DecidableEq U] (hw : WellFormed s) {rejected : Bool}
    (h : s.awaitGetOrLoad d rejected = (t, false)) : s.Untouched t ∧ WellFormed t := by
  cases hdocs : s.docs d with
  | some e =>
      rw [awaitGetOrLoad_live hw hdocs] at h
      cases h
  | none =>
      obtain ⟨huntouched, -, load, hload⟩ := loading_getOrLoad hdocs
      have hasked : WellFormed (s.getOrLoad d) := hw.step (a := .getOrLoad d) rfl
      cases load with
      | read yjsState => simp [awaitGetOrLoad, hload] at h
      | reading =>
          cases rejected with
          | false => simp [awaitGetOrLoad, hload] at h
          | true =>
              have hfail : (s.getOrLoad d).loadFail d = some t := by
                simpa [awaitGetOrLoad, hload, loadFail] using h
              obtain ⟨-, rfl⟩ := loadFail_eq_some hfail
              exact ⟨⟨huntouched.docs, huntouched.entries, huntouched.rows⟩,
                hasked.step (a := .loadFail d) hfail⟩

theorem awaitGetOrLoad_loaded [DecidableEq U] (hw : WellFormed s) {rejected : Bool}
    (h : s.awaitGetOrLoad d rejected = (t, true)) : ∃ e, s.Loaded t d e := by
  have hasked : WellFormed (s.getOrLoad d) := hw.step (a := .getOrLoad d) rfl
  cases hdocs : s.docs d with
  | some e =>
      rw [awaitGetOrLoad_live hw hdocs] at h
      obtain rfl := (Prod.mk.inj h).1
      refine ⟨e, ?_, ?_, ?_, hasked⟩
      · simp [getOrLoad, hdocs]
      · simp [getOrLoad, hdocs, current, modifyEntry_entries]
      · simp [getOrLoad, hdocs]
  | none =>
      obtain ⟨huntouched, hcurrent, load, hload⟩ := loading_getOrLoad hdocs
      cases load with
      | read yjsState =>
          have hdone : (s.getOrLoad d).loadDone d = some t := by
            simpa [awaitGetOrLoad, hload, loadDone] using h
          exact loaded_of_hydrated hasked huntouched hcurrent hload hdone
      | reading =>
          cases rejected with
          | true => simp [awaitGetOrLoad, hload] at h
          | false =>
              obtain ⟨u, yjsState, hread, hu, hsame, hsameCurrent⟩ :=
                current_loadRead (huntouched.docs ▸ hdocs) hload
              have hdone : u.loadDone d = some t := by
                simpa [awaitGetOrLoad, hload, hread, loadDone, hu] using h
              have hfrom : s.Untouched u :=
                ⟨hsame.docs.trans huntouched.docs, hsame.entries.trans huntouched.entries,
                  hsame.rows.trans huntouched.rows⟩
              exact loaded_of_hydrated (hasked.step (a := .loadRead d) hread) hfrom
                (hsameCurrent.trans hcurrent) hu hdone

end Loads

/-- The `content` text of the live document, where there is one. -/
def liveText (content : ContentText U) (s : HubState U) (documentId : Uuid) : Option JsString :=
  (s.docs documentId).map fun e => content.text (s.entries e).ydoc

/-- The text of a live document is replaced, and not saved yet. Where it has changed, a save
is scheduled. -/
structure ContentReplaced (content : ContentText U) (s t : HubState U) (e : EntryId)
    (newContent : JsString) : Prop where
  docs : t.docs = s.docs
  rows : t.rows = s.rows
  now : t.now = s.now
  documentId : (t.entries e).documentId = (s.entries e).documentId
  text : content.text (t.entries e).ydoc = newContent
  dirty : (t.entries e).isDirty = true
  scheduled : content.text (s.entries e).ydoc ≠ newContent →
    (t.entries e).saveTimeout = some (s.now + saveDebounceMs)
  wellFormed : WellFormed t

section Replace
variable {content : ContentText U} {s t : HubState U} {d : Uuid} {e : EntryId}

theorem wellFormed_transact [DecidableEq U] (hw : WellFormed s) (e : EntryId)
    (newContent : JsString) : WellFormed (s.transact content e newContent) := by
  rw [transact]
  split
  · exact hw
  · have hydoc := hw.modifyEntry e
      (f := fun entry => { entry with ydoc := content.replaced (s.entries e).ydoc newContent })
      fun _ => rfl
    have hdirty := hydoc.modifyEntry e
      (f := fun entry => { entry with isDirty := true, lastActivity := s.now }) fun _ => rfl
    exact hdirty.of_sameContent (sameContent_scheduleSave _ _)

theorem contentReplaced_replaceContent [DecidableEq U] (hw : WellFormed s) (he : s.docs d = some e)
    (newContent : JsString) :
    ContentReplaced content s (s.replaceContent content e newContent) e newContent := by
  have hid : (s.entries e).documentId = d := (hw.live d e he).2
  have hwellFormed : WellFormed (s.replaceContent content e newContent) :=
    (wellFormed_transact hw e newContent).modifyEntry e fun _ => rfl
  by_cases hsame : content.replaced (s.entries e).ydoc newContent ⊆ (s.entries e).ydoc
  · -- nothing is added, so the text was the new one before
    have hydoc : content.replaced (s.entries e).ydoc newContent = (s.entries e).ydoc :=
      Finset.Subset.antisymm hsame (content.subset_replaced _ _)
    have htext : content.text (s.entries e).ydoc = newContent := by
      rw [← hydoc, content.text_replaced]
    have htransact : s.transact content e newContent = s := if_pos hsame
    rw [replaceContent, htransact] at hwellFormed ⊢
    refine ⟨rfl, rfl, rfl, ?_, ?_, ?_, fun hne => absurd htext hne, hwellFormed⟩
    · simp [modifyEntry_entries]
    · simp [modifyEntry_entries, htext]
    · simp [modifyEntry_entries]
  · have hscheduled : s.transact content e newContent = (s.modifyEntry e fun entry =>
        { entry with
          ydoc := content.replaced (s.entries e).ydoc newContent
          isDirty := true
          lastActivity := s.now
          saveTimeout := some (s.now + saveDebounceMs) }) := by
      rw [transact, if_neg hsame]
      simp [onUpdate, scheduleSave, hid, he, modifyEntry]
    rw [replaceContent, hscheduled] at hwellFormed ⊢
    refine ⟨rfl, rfl, rfl, ?_, ?_, ?_, fun _ => ?_, hwellFormed⟩
    · simp [modifyEntry_entries]
    · simp [modifyEntry_entries, content.text_replaced]
    · simp [modifyEntry_entries]
    · simp [modifyEntry_entries]

end Replace

section Save
variable {s : HubState U} {d : Uuid} {e : EntryId}

/-- The call that has been made last is the one that is rejected. -/
theorem reject_last (s : HubState U) {c : SaveCall U} (hc : c.forUnload = false) :
    ({ s with saves := s.saves ++ [c] } : HubState U).reject s.saves.length = some s := by
  simp [reject, settle, hc, List.eraseIdx_append_of_length_le]

/-- A save that is rejected changes the row at most, where its write took effect. -/
theorem awaitPersistNow_rejected {outcome : SaveOutcome} (he : s.docs d = some e)
    (hdirty : (s.entries e).isDirty = true)
    (hfails : ¬ (outcome = .resolves ∧ ∃ row, s.rows d = some row)) :
    ∃ rows, s.awaitPersistNow d outcome =
        ({ s with rows, nextSave := s.nextSave + 1 }, false) ∧
      (rows = s.rows ∨ outcome = .rejects true ∧
        saveState s.rows d (s.entries e).ydoc = some rows) := by
  have hrejected : (s.startSave d e false).reject s.saves.length =
      some { s with nextSave := s.nextSave + 1 } :=
    reject_last { s with nextSave := s.nextSave + 1 } rfl
  have hcommit : (s.startSave d e false).commit s.saves.length =
      (saveState s.rows d (s.entries e).ydoc).map fun rows =>
        { s with
          rows
          nextSave := s.nextSave + 1
          saves := s.saves ++
            [{ number := s.nextSave, documentId := d, entry := e, state := (s.entries e).ydoc,
               forUnload := false, committed := true }] } := by
    simp [startSave, commit]
  rw [awaitPersistNow, persistNow_dirty he hdirty]
  cases hrows : saveState s.rows d (s.entries e).ydoc with
  | none =>
      -- without a row nothing is written, whatever the outcome
      refine ⟨s.rows, ?_, .inl rfl⟩
      rw [hrows, Option.map_none] at hcommit
      cases outcome with
      | resolves => simp [hcommit, hrejected]
      | rejects written => cases written <;> simp [hcommit, hrejected]
  | some rows =>
      rw [hrows, Option.map_some] at hcommit
      obtain ⟨row, hrow, -⟩ := Option.map_eq_some_iff.mp hrows
      cases outcome with
      | resolves => exact absurd ⟨rfl, row, hrow⟩ hfails
      | rejects written =>
          cases written with
          | false => exact ⟨s.rows, by simp [hrejected], .inl rfl⟩
          | true =>
              refine ⟨rows, ?_, .inr ⟨rfl, rfl⟩⟩
              have hlast := reject_last { s with rows, nextSave := s.nextSave + 1 }
                (c := { number := s.nextSave, documentId := d, entry := e,
                        state := (s.entries e).ydoc, forUnload := false, committed := true }) rfl
              simp only [if_pos, hcommit, Option.getD_some, hlast]

end Save

/-- Live and stored text are the new one, and nothing is left to save. -/
structure Replaced (content : ContentText U) (t : HubState U) (documentId : Uuid)
    (newContent : JsString) : Prop where
  live : t.liveText content documentId = some newContent
  stored : content.text (t.stored documentId) = newContent
  clean : ¬ t.Dirty documentId

/-- Live text, stored state and dirty flag are those of before. -/
structure SameDocument (content : ContentText U) (s t : HubState U) (documentId : Uuid) :
    Prop where
  live : t.liveText content documentId = s.liveText content documentId
  stored : t.stored documentId = s.stored documentId
  dirty : t.Dirty documentId ↔ s.Dirty documentId

/-- The debounce timer is pending, and the save that it starts has the text. -/
def SavesLater [DecidableEq U] (content : ContentText U) (t : HubState U) (documentId : Uuid)
    (newContent : JsString) : Prop :=
  ∃ e u c, t.docs documentId = some e ∧
    exec HubState.step t [.tick saveDebounceMs, .timer e] = some u ∧
    u.saves = t.saves ++ [c] ∧ c.documentId = documentId ∧ content.text c.state = newContent

/-- The live text is the new one, and has to be saved again; a text that has changed is, when
the debounce is over. -/
structure LeftDirty [DecidableEq U] (content : ContentText U) (s t : HubState U)
    (documentId : Uuid) (newContent : JsString) (outcome : SaveOutcome) : Prop where
  live : t.liveText content documentId = some newContent
  dirty : t.Dirty documentId
  stored : t.stored documentId = s.stored documentId ∨
    outcome = .rejects true ∧ content.text (t.stored documentId) = newContent
  retries : content.text (s.current documentId) ≠ newContent →
    t.SavesLater content documentId newContent

/-- What a call leaves, by where it is rejected. -/
def Leaves [DecidableEq U] (content : ContentText U) (s : HubState U) (documentId : Uuid)
    (newContent : JsString) (outcome : SaveOutcome) {ρ : Type} :
    HubState U × Except RestoreError ρ → Prop
  | (t, .ok _) => t.Replaced content documentId newContent
  | (t, .error (.rejected .findActiveById)) => t.Replaced content documentId newContent
  | (t, .error (.rejected .saveState)) => s.LeftDirty content t documentId newContent outcome
  | (t, .error _) => s.SameDocument content t documentId

/-- The hub after a save of a document that the database has taken. -/
def saved (s : HubState U) (documentId : Uuid) (e : EntryId) (row : DocumentRow U) : HubState U :=
  HubState.modifyEntry { s with
      rows := Function.update s.rows documentId (some { row with yjsState := (s.entries e).ydoc })
      nextSave := s.nextSave + 1 } e
    fun entry => { entry with isDirty := false, lastActivity := s.now }

/-- Everything that `replaceState` can do. -/
inductive Replacing (content : ContentText U) (s : HubState U) (d : Uuid)
    (newContent : JsString) (outcome : SaveOutcome) : HubState U × Except RestoreError Unit → Prop
  | notLoaded {t} (huntouched : s.Untouched t) (hw : WellFormed t) :
      Replacing content s d newContent outcome (t, .error (.rejected .findWithState))
  | saved {t u e row} (hloaded : s.Loaded t d e)
      (hreplaced : ContentReplaced content t u e newContent) (hrow : u.rows d = some row) :
      Replacing content s d newContent outcome (u.saved d e row, .ok ())
  | notSaved {t u e rows} (hloaded : s.Loaded t d e)
      (hreplaced : ContentReplaced content t u e newContent)
      (hrows : rows = u.rows ∨ outcome = .rejects true ∧
        saveState u.rows d (u.entries e).ydoc = some rows) :
      Replacing content s d newContent outcome
        ({ u with rows, nextSave := u.nextSave + 1 }, .error (.rejected .saveState))

section Restores
variable {content : ContentText U} {s t u : HubState U} {d : Uuid} {e : EntryId}
  {newContent : JsString}

theorem Untouched.sameDocument (h : s.Untouched t) : s.SameDocument content t d where
  live := by rw [liveText, h.docs, h.entries, liveText]
  stored := by rw [stored, h.rows, stored]
  dirty := by rw [Dirty, h.docs, h.entries, Dirty]

theorem liveText_of_live (he : t.docs d = some e) :
    t.liveText content d = some (content.text (t.entries e).ydoc) := by
  rw [liveText, he, Option.map_some]

theorem replacing_replaceState [DecidableEq U] (hw : WellFormed s) (d : Uuid) (bytes : Finset U)
    (rejections : Rejections) :
    Replacing content s d (content.text bytes) rejections.saveState
      (s.replaceState content d bytes rejections) := by
  cases hawait : s.awaitGetOrLoad d rejections.findWithState with
  | mk t loaded =>
      cases loaded with
      | false =>
          obtain ⟨huntouched, hwt⟩ := awaitGetOrLoad_rejected hw hawait
          rw [replaceState, hawait]
          exact .notLoaded huntouched hwt
      | true =>
          obtain ⟨e, hloaded⟩ := awaitGetOrLoad_loaded hw hawait
          have hreplaced : ContentReplaced content t
              (t.replaceContent content e (content.text bytes)) e (content.text bytes) :=
            contentReplaced_replaceContent hloaded.wellFormed hloaded.live _
          have he := hreplaced.docs ▸ hloaded.live
          simp only [replaceState, hawait, hloaded.live]
          by_cases hsaves : rejections.saveState = .resolves ∧ ∃ row,
              (t.replaceContent content e (content.text bytes)).rows d = some row
          · obtain ⟨hresolves, row, hrow⟩ := hsaves
            rw [hresolves, awaitPersistNow_resolves he hreplaced.dirty hrow]
            exact .saved hloaded hreplaced hrow
          · obtain ⟨rows, hpersist, hrows⟩ :=
              awaitPersistNow_rejected he hreplaced.dirty hsaves
            rw [hpersist]
            exact .notSaved hloaded hreplaced hrows

theorem replaced_saved (he : u.docs d = some e)
    (hreplaced : ContentReplaced content t u e newContent) (row : DocumentRow U) :
    (u.saved d e row).Replaced content d newContent where
  live := by
    have hlive : (u.saved d e row).docs d = some e := he
    rw [liveText_of_live hlive, ← hreplaced.text]
    simp [saved, modifyEntry_entries]
  stored := by
    rw [← hreplaced.text]
    simp [saved, HubState.stored]
  clean := by
    have hlive : (u.saved d e row).docs d = some e := he
    rw [dirty_iff hlive]
    simp [saved, modifyEntry_entries]

/-- A timer that is due saves the dirty document. -/
theorem timer_due {due : Timestamp} (he : u.docs d = some e)
    (hid : (u.entries e).documentId = d) (hdirty : (u.entries e).isDirty = true)
    (hscheduled : (u.entries e).saveTimeout = some due) (hdue : due ≤ u.now) :
    u.timer e = some ((u.clearTimeout e).startSave d e false) := by
  have hcleared : ((u.clearTimeout e).entries e).isDirty = true := by
    rw [clearTimeout_entry]
    exact hdirty
  have hclearedId : ((u.clearTimeout e).entries e).documentId = d := by
    rw [clearTimeout_entry]
    exact hid
  rw [timer, hscheduled]
  simp only [if_pos hdue]
  rw [← clearTimeout, hclearedId, persistNow_dirty (s := u.clearTimeout e) he hcleared,
    Option.getD_some]

/-- The debounce starts another save with the live document. -/
theorem savesLater_of_scheduled [DecidableEq U] (hw : WellFormed u) (he : u.docs d = some e)
    (hdirty : (u.entries e).isDirty = true)
    (hscheduled : (u.entries e).saveTimeout = some (u.now + saveDebounceMs)) :
    u.SavesLater content d (content.text (u.entries e).ydoc) := by
  let due : HubState U := { u with now := u.now + saveDebounceMs }
  have htimer : due.timer e = some ((due.clearTimeout e).startSave d e false) :=
    timer_due he (hw.live d e he).2 hdirty hscheduled le_rfl
  have hexec : exec HubState.step u [.tick saveDebounceMs, .timer e] =
      some ((due.clearTimeout e).startSave d e false) := by
    rw [exec, HubState.step, Option.bind_some, exec_singleton]
    exact htimer
  have hydoc : ((due.clearTimeout e).entries e).ydoc = (u.entries e).ydoc := by
    rw [clearTimeout_entry]
  exact ⟨e, _, _, he, hexec, rfl, rfl, congrArg content.text hydoc⟩

theorem leftDirty_of_rejected [DecidableEq U] {outcome : SaveOutcome}
    {rows : Uuid → Option (DocumentRow U)} (hloaded : s.Loaded t d e)
    (hreplaced : ContentReplaced content t u e newContent)
    (hrows : rows = u.rows ∨ outcome = .rejects true ∧
      saveState u.rows d (u.entries e).ydoc = some rows) :
    s.LeftDirty content { u with rows, nextSave := u.nextSave + 1 } d newContent outcome := by
  have he : u.docs d = some e := hreplaced.docs ▸ hloaded.live
  refine ⟨?_, ⟨e, he, hreplaced.dirty⟩, ?_, fun hne => ?_⟩
  · rw [liveText, he, Option.map_some, hreplaced.text]
  · rcases hrows with hrows | ⟨hwritten, hrows⟩
    · left
      rw [stored, hrows, hreplaced.rows, hloaded.rows, stored]
    · obtain ⟨row, hrow, rfl⟩ := Option.map_eq_some_iff.mp hrows
      right
      refine ⟨hwritten, ?_⟩
      rw [← hreplaced.text]
      simp [stored]
  · have hchanged : content.text (t.entries e).ydoc ≠ newContent := by
      rw [hloaded.ydoc]
      exact hne
    have hscheduled := hreplaced.scheduled hchanged
    rw [← hreplaced.now] at hscheduled
    rw [← hreplaced.text]
    exact savesLater_of_scheduled (hreplaced.wellFormed.setRows rows (u.nextSave + 1)) he
      hreplaced.dirty hscheduled

variable [DecidableEq U] {outcome : SaveOutcome}

theorem Replacing.leaves {result : HubState U × Except RestoreError Unit}
    (h : Replacing content s d newContent outcome result) :
    s.Leaves content d newContent outcome result := by
  cases h with
  | notLoaded huntouched _ => exact huntouched.sameDocument
  | saved hloaded hreplaced _ => exact replaced_saved (hreplaced.docs ▸ hloaded.live) hreplaced _
  | notSaved hloaded hreplaced hrows => exact leftDirty_of_rejected hloaded hreplaced hrows

omit [DecidableEq U] in
theorem Replacing.wellFormed {result : HubState U × Except RestoreError Unit}
    (h : Replacing content s d newContent outcome result) : WellFormed result.1 := by
  cases h with
  | notLoaded _ hw => exact hw
  | @saved _ u e _ _ hreplaced _ =>
      exact (hreplaced.wellFormed.setRows _ _).modifyEntry e
        (f := fun entry => { entry with isDirty := false, lastActivity := u.now }) fun _ => rfl
  | notSaved _ hreplaced _ => exact hreplaced.wellFormed.setRows _ _

/-- Behind `replaceState`, a restore only reads the document. -/
theorem Leaves.restore {snapshots : Uuid → Option (DocumentSnapshot U)} {snapshotId : Uuid}
    {snapshot : DocumentSnapshot U} {rejections : Rejections}
    (hsnapshot : findSnapshotById snapshots snapshotId d = some snapshot)
    (h : s.Leaves content d (content.text snapshot.yjsState) outcome
      (s.replaceState content d snapshot.yjsState rejections)) :
    s.Leaves content d (content.text snapshot.yjsState) outcome
      (restore content snapshots s d snapshotId rejections) := by
  rw [Document.restore, hsnapshot]
  cases rejections.findSnapshotById with
  | true => exact Untouched.sameDocument ⟨rfl, rfl, rfl⟩
  | false =>
      cases hreplace : s.replaceState content d snapshot.yjsState rejections with
      | mk t result =>
          rw [hreplace] at h
          simp only [hreplace]
          cases result with
          | error error =>
              cases error with
              | entityNotFound _ _ => exact h
              | rejected await => cases await <;> exact h
          | ok _ => cases rejections.findActiveById <;> exact h

/-- A restore of a snapshot that is not found does nothing. -/
theorem restore_not_found {snapshots : Uuid → Option (DocumentSnapshot U)} {snapshotId : Uuid}
    (hsnapshot : findSnapshotById snapshots snapshotId d = none) (rejections : Rejections) :
    ∃ error, restore content snapshots s d snapshotId rejections = (s, .error error) := by
  rw [Document.restore, hsnapshot]
  cases rejections.findSnapshotById with
  | true => exact ⟨.rejected .findSnapshotById, rfl⟩
  | false => exact ⟨.entityNotFound "DocumentSnapshot" snapshotId, rfl⟩

end Restores

end HubState

/-- An action of the hub, or a `replaceState` that a restore runs. -/
inductive LiveAction (U : Type)
  | hub (action : HubAction U)
  | replaceState (documentId : Uuid) (bytes : Finset U) (rejections : Rejections)

def liveStep [DecidableEq U] (content : ContentText U) (s : HubState U) :
    LiveAction U → Option (HubState U)
  | .hub action => s.step action
  | .replaceState documentId bytes rejections =>
      some (s.replaceState content documentId bytes rejections).1

section Runs
variable [DecidableEq U] {content : ContentText U} {rows : Uuid → Option (DocumentRow U)}
  {as : List (LiveAction U)} {s t : HubState U}

theorem WellFormed.liveStep {a : LiveAction U} (hw : WellFormed s)
    (h : liveStep content s a = some t) : WellFormed t := by
  cases a with
  | hub action => exact hw.step h
  | replaceState documentId bytes rejections =>
      obtain rfl := Option.some.inj h
      exact (HubState.replacing_replaceState hw documentId bytes rejections).wellFormed

theorem wellFormed_of_run (run : Run (liveStep content) (.startup rows) as s) : WellFormed s :=
  run.invariant (fun _ _ _ hw h => hw.liveStep h) (wellFormed_startup rows)

/-- In every state that the hub reaches, a call that succeeds, or of which only the last read is
rejected, has replaced live and stored text, and one that is rejected before it has the text has
replaced nothing. A rejected save leaves the new text in the live document, to be saved again. -/
theorem restore_leaves (run : Run (liveStep content) (.startup rows) as s) (documentId : Uuid)
    (rejections : Rejections) :
    (∀ bytes, s.Leaves content documentId (content.text bytes) rejections.saveState
      (s.replaceState content documentId bytes rejections)) ∧
    ∀ snapshots snapshotId,
      (∀ snapshot, findSnapshotById snapshots snapshotId documentId = some snapshot →
        s.Leaves content documentId (content.text snapshot.yjsState) rejections.saveState
          (restore content snapshots s documentId snapshotId rejections)) ∧
      (findSnapshotById snapshots snapshotId documentId = none →
        ∃ error, restore content snapshots s documentId snapshotId rejections =
          (s, .error error)) := by
  have hw : WellFormed s := wellFormed_of_run run
  have hreplace : ∀ bytes, s.Leaves content documentId (content.text bytes) rejections.saveState
      (s.replaceState content documentId bytes rejections) :=
    fun bytes => (HubState.replacing_replaceState hw documentId bytes rejections).leaves
  refine ⟨hreplace, fun snapshots snapshotId => ⟨fun snapshot hsnapshot => ?_, fun hnone => ?_⟩⟩
  · exact (hreplace snapshot.yjsState).restore hsnapshot
  · exact HubState.restore_not_found hnone rejections

end Runs

/-- Updates that carry a version and the whole text, of which the latest one counts. -/
def latestVersion : ContentText (Nat × JsString) where
  text ydoc := (ydoc.filter fun update => update.1 = ydoc.sup Prod.fst).fold max [] Prod.snd
  replaced ydoc newContent := insert (ydoc.sup Prod.fst + 1, newContent) ydoc
  subset_replaced _ _ := Finset.subset_insert _ _
  text_replaced ydoc newContent := by
    have hsup : (insert (ydoc.sup Prod.fst + 1, newContent) ydoc).sup Prod.fst =
        ydoc.sup Prod.fst + 1 := by
      rw [Finset.sup_insert, sup_eq_left]
      exact Nat.le_succ _
    have hlatest : ((insert (ydoc.sup Prod.fst + 1, newContent) ydoc).filter fun update =>
        update.1 = ydoc.sup Prod.fst + 1) = {(ydoc.sup Prod.fst + 1, newContent)} := by
      rw [Finset.filter_insert, if_pos rfl, Finset.filter_false_of_mem, insert_empty_eq]
      intro update hupdate
      have hle : update.1 ≤ ydoc.sup Prod.fst := Finset.le_sup hupdate
      omega
    rw [hsup, hlatest, Finset.fold_singleton, max_eq_left]
    exact le_of_not_gt List.not_lex_nil

/-- A document whose text is `old`, and a snapshot of it whose text is `new`. -/
def oldRow : Uuid → Option (DocumentRow (Nat × JsString)) :=
  fun d => if d = 1 then some { workspaceId := 3, yjsState := {(1, js "old")} } else none

def newSnapshot : Uuid → Option (DocumentSnapshot (Nat × JsString)) :=
  fun d => if d = 7 then some { documentId := 1, yjsState := {(1, js "new")} } else none

def opened : List (LiveAction (Nat × JsString)) :=
  [.hub (.getOrLoad 1), .hub (.loadRead 1), .hub (.loadDone 1)]

theorem restore_leaves_opened :
    ∃ s : HubState (Nat × JsString),
      exec (liveStep latestVersion) (.startup oldRow) opened = some s ∧
        s.Leaves latestVersion 1 (latestVersion.text {(1, js "new")}) (.rejects false)
          (restore latestVersion newSnapshot s 1 7 { saveState := .rejects false }) := by
  obtain ⟨s, hs⟩ : ∃ s, exec (liveStep latestVersion) (.startup oldRow) opened = some s := ⟨_, rfl⟩
  refine ⟨s, hs, ?_⟩
  obtain ⟨-, hrestore⟩ := restore_leaves (run_of_exec hs) 1 { saveState := .rejects false }
  exact (hrestore newSnapshot 7).1 { documentId := 1, yjsState := {(1, js "new")} } rfl

/-- What a call leaves where it is all or nothing. -/
def AllOrNothing {ρ : Type} (content : ContentText U) (s : HubState U) (documentId : Uuid)
    (newContent : JsString) : HubState U × Except RestoreError ρ → Prop
  | (t, .ok _) => t.liveText content documentId = some newContent ∧
      content.text (t.stored documentId) = newContent
  | (t, .error _) => s.SameDocument content t documentId

/-- The save is rejected, and the live text is the one of the snapshot. -/
theorem opened_not_allOrNothing :
    ¬ ∀ (content : ContentText (Nat × JsString))
      (rows : Uuid → Option (DocumentRow (Nat × JsString)))
      (as : List (LiveAction (Nat × JsString))) (s : HubState (Nat × JsString)),
      Run (liveStep content) (.startup rows) as s →
        ∀ snapshots snapshotId documentId rejections snapshot,
          findSnapshotById snapshots snapshotId documentId = some snapshot →
            AllOrNothing content s documentId (content.text snapshot.yjsState)
              (restore content snapshots s documentId snapshotId rejections) := by
  intro hall
  obtain ⟨s, hs⟩ : ∃ s, exec (liveStep latestVersion) (.startup oldRow) opened = some s := ⟨_, rfl⟩
  have hall := hall latestVersion oldRow opened s (run_of_exec hs) newSnapshot 7 1
    { saveState := .rejects false } { documentId := 1, yjsState := {(1, js "new")} } rfl
  have hbefore : s.liveText latestVersion 1 = some (js "old") := by
    cases hs
    decide +kernel
  obtain ⟨t, hrestore, hafter⟩ : ∃ t, restore latestVersion newSnapshot s 1 7
      { saveState := .rejects false } = (t, .error (.rejected .saveState)) ∧
        t.liveText latestVersion 1 = some (js "new") := by
    cases hs
    exact ⟨_, rfl, by decide +kernel⟩
  rw [hrestore] at hall
  have hsame : some (js "new") = some (js "old") := hafter.symm.trans (hall.live.trans hbefore)
  exact absurd hsame (by decide)

end SyncBoard.Document
