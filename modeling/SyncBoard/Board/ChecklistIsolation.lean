import SyncBoard.Board.ChecklistService
import SyncBoard.Board.ListWrites
import SyncBoard.Board.TenantIsolation

/-!
# Tenant isolation of checklists

The ids of workspace, board, card, checklist and item are whatever the client sends,
and four checks tie each to the one before it. A call that makes all of them keeps
checklists apart in every database. `addItem` does not look for the card on the board,
and the calls on an item do not look for the checklist on the card: they keep
checklists apart exactly where the check left out would have passed.
-/

namespace SyncBoard.Board

open Relational Fallible

/-- The checklist is one of the card. -/
def ChecklistOf (db : Database) (checklistId cardId : Uuid) : Prop :=
  ∃ row, db.checklists.get? checklistId = some row ∧ row.cardId = cardId

/-- The item is one of the checklist. -/
def ItemOf (db : Database) (itemId checklistId : Uuid) : Prop :=
  ∃ row, db.checklistItems.get? itemId = some row ∧ row.checklistId = checklistId

/-- Item, checklist, card, board and workspace of a call, as far as it names them,
belong to one another. -/
def ChecklistCall.Chained (db : Database) : ChecklistCall → Prop
  | .createChecklist w b c _ _ => OnActiveCard db b w c
  | .renameChecklist w b c k _ _ | .deleteChecklist w b c k _ | .addItem w b c k _ _ =>
      OnActiveCard db b w c ∧ ChecklistOf db k c
  | .updateItem w b c k i _ _ | .removeItem w b c k i _ | .promoteItemToSubcard w b c k i _ =>
      OnActiveCard db b w c ∧ ChecklistOf db k c ∧ ItemOf db i k

/-- A call that fails leaves the database as it was, and one whose ids do not belong
to one another fails. -/
structure KeepsChecklistsApart (env : Env) (call : ChecklistCall) (w : World) : Prop where
  failed : ∀ e w', Throws (call.run env) w e w' → w'.db = w.db
  returned : ∀ w', Returns (call.run env) w () w' → call.Chained w.db

/-- The checks that `addItem` makes and the constraints of the row it inserts. -/
structure AddItemAccepted (env : Env) (db : Database)
    (boardId workspaceId cardId checklistId : Uuid) : Prop where
  board : (BoardRepository.findById db boardId (some workspaceId)).isSome = true
  checklist : ∃ checklist rank,
    ChecklistRepository.findActiveChecklist env.rankLe db checklistId = some checklist ∧
      checklist.row.cardId = cardId ∧
        ChecklistService.rankAfter env (checklist.items.getLast?.map fun last => last.row.rank) =
          .ok rank ∧ charCount rank ≤ rankWidth
  fresh : db.checklistItems.get? env.newId = none

/-- The check that a call leaves out would have passed, or another one does not. -/
def ChecklistCall.GapsClosed (env : Env) (db : Database) : ChecklistCall → Prop
  | .addItem w b c k _ _ => AddItemAccepted env db b w c k →
      (CardRepository.findActiveById db c (some b)).isSome = true
  | .updateItem w b c k i _ _ | .removeItem w b c k i _ =>
      OnActiveCard db b w c → ItemOf db i k → ChecklistOf db k c
  | .promoteItemToSubcard w b c k i u => ∀ item listId,
      db.checklistItems.get? i = some item → item.checklistId = k →
        SubcardAccepted env db b w c listId { title := item.content } u → ChecklistOf db k c
  | _ => True

section Checks
variable {α : Type} {env : Env} {w w' : World}
variable {workspaceId boardId cardId checklistId itemId : Uuid}

/-- The two checks that most calls begin with. -/
theorem returns_onActiveCard_bind {rest : Service α} {a : α} :
    Returns (do
      ChecklistService.verifyBoardInWorkspace boardId workspaceId
      ChecklistService.verifyCardInBoard boardId cardId
      rest) w a w' ↔
      OnActiveCard w.db boardId workspaceId cardId ∧ Returns (rest) w a w' := by
  rw [ChecklistService.verifyBoardInWorkspace, returns_verifyBoardInWorkspace_bind]
  have hcard : Returns (do ChecklistService.verifyCardInBoard boardId cardId; rest) w a w' ↔
      (CardRepository.findActiveById w.db cardId (some boardId)).isSome = true ∧
        Returns (rest) w a w' := by
    simp [ChecklistService.verifyCardInBoard, Option.isSome_iff_exists, and_assoc]
  rw [hcard]
  constructor
  · rintro ⟨hboard, hcard, h⟩
    exact ⟨⟨hboard, hcard⟩, h⟩
  · rintro ⟨hactive, h⟩
    exact ⟨hactive.board, hactive.card, h⟩

theorem returns_getChecklistInCard_bind {rest : ChecklistWithItems → Service α} {a : α} :
    Returns (ChecklistService.getChecklistInCard env checklistId cardId >>= rest) w a w' ↔
      ∃ checklist,
        ChecklistRepository.findActiveChecklist env.rankLe w.db checklistId = some checklist ∧
          checklist.row.cardId = cardId ∧ Returns (rest checklist) w a w' := by
  simp [ChecklistService.getChecklistInCard, Option.filter_eq_some_iff, and_assoc]

theorem returns_getItemInChecklist_bind {rest : ItemWithChecklist → Service α} {a : α} :
    Returns (ChecklistService.getItemInChecklist itemId checklistId >>= rest) w a w' ↔
      ∃ item, ChecklistRepository.findItem w.db itemId = some item ∧
        item.row.checklistId = checklistId ∧ Returns (rest item) w a w' := by
  simp [ChecklistService.getItemInChecklist, Option.filter_eq_some_iff, and_assoc]

theorem ChecklistRepository.findActiveChecklist_row {le : JsString → JsString → Bool}
    {db : Database} {checklist : ChecklistWithItems}
    (h : findActiveChecklist le db checklistId = some checklist) :
    db.checklists.get? checklistId = some checklist.row := by
  obtain ⟨row, hrow, rfl⟩ := Option.map_eq_some_iff.mp h
  exact (Option.filter_eq_some_iff.mp hrow).1

/-- Every item is found: its checklist exists. -/
theorem ChecklistRepository.findItem_iff {db : Database} {row : ChecklistItemRow} :
    (∃ item, findItem db itemId = some item ∧ item.row = row) ↔
      db.checklistItems.get? itemId = some row := by
  constructor
  · rintro ⟨item, hitem, rfl⟩
    simp only [findItem, Option.bind_eq_bind, Option.bind_eq_some_iff] at hitem
    obtain ⟨found, hfound, checklist, -, h⟩ := hitem
    obtain rfl := Option.some.inj h
    exact hfound
  · intro hrow
    obtain ⟨checklist, hchecklist⟩ := (db.checklists.contains_iff _).mp
      (db.wellFormed.checklistItems itemId row hrow).1
    exact ⟨⟨⟨itemId, row⟩, checklist⟩, by simp [findItem, hrow, hchecklist], rfl⟩

theorem clean_onActiveCard {rest : Service α} (h : Clean (rest)) :
    Clean (do
      ChecklistService.verifyBoardInWorkspace boardId workspaceId
      ChecklistService.verifyCardInBoard boardId cardId
      rest) := by
  apply Clean.after_reads reads_verifyBoardInWorkspace
  intro _
  apply Clean.after_reads (Reads.bind (reads_find _ _) fun _ => Reads.pure _)
  intro _
  exact h

theorem total_emitChecklist_return (event : ChecklistEvent) (a : α) :
    Total (do emitChecklist event; return a) :=
  Total.bind (total_emitChecklist event) fun _ => Total.pure a

/-- The last steps of most calls: a write that is not refused, then one event. -/
theorem returns_writing {f : Database → Except DbError (α × Database)}
    {rejected : DbError → AppError} {event : ChecklistEvent} {a : α} {db : Database}
    (h : f w.db = .ok (a, db)) :
    Returns (do let a ← write f rejected; emitChecklist event; return a) w a
      { w with db := db, checklistEvents := w.checklistEvents ++ [event] } := by
  apply returns_bind.mpr
  refine ⟨a, { w with db := db }, returns_write.mpr ⟨db, h, rfl⟩, ?_⟩
  exact returns_bind.mpr ⟨(), _, returns_emitChecklist.mpr rfl, returns_pure.mpr ⟨rfl, rfl⟩⟩

end Checks

section Items
variable {db db' : Database} {id : Uuid} {now : Timestamp}

theorem ChecklistRepository.createItem_ok {data : ChecklistItemRow}
    {item : Loaded ChecklistItemRow} (h : createItem db id data = .ok (item, db')) :
    db.checklistItems.get? id = none ∧ charCount data.rank ≤ rankWidth := by
  rw [createItem, Database.insertChecklistItem] at h
  split at h
  · next hfresh =>
      split at h
      · next haccepted => exact ⟨hfresh, haccepted.2⟩
      · cases h
  · cases h

theorem ChecklistRepository.exists_createItem {data : ChecklistItemRow}
    (hfresh : db.checklistItems.get? id = none) (haccepted : data.Accepted db.toTables) :
    ∃ item db', createItem db id data = .ok (item, db') := by
  simp only [createItem, Database.insertChecklistItem, dif_pos hfresh, dif_pos haccepted,
    Except.map]
  exact ⟨_, _, rfl⟩

/-- An update that keeps the checklist and the rank of an item is never refused. -/
theorem ChecklistRepository.exists_updateItem {row : ChecklistItemRow}
    (data : ChecklistItemRow → ChecklistItemRow) (hrow : db.checklistItems.get? id = some row)
    (hchecklist : (data row).checklistId = row.checklistId)
    (hrank : (data row).rank = row.rank) (now : Timestamp) :
    ∃ item db', updateItem db id data now = .ok (item, db') := by
  obtain ⟨hc, hr⟩ := db.wellFormed.checklistItems id row hrow
  have haccepted : ChecklistItemRow.Accepted db.toTables { data row with updatedAt := now } :=
    ⟨hchecklist.symm ▸ hc, hrank.symm ▸ hr⟩
  rw [updateItem, hrow]
  exact ⟨_, _, updateRow_of_put (by rw [Database.updateChecklistItem, dif_pos haccepted])⟩

/-- The transaction of `create` writes no item. -/
theorem CardRepository.create_keepsItems {data : CardRow} {assigneeIds labelIds : List Uuid}
    {card : CardWithDetails} (h : create db id data assigneeIds labelIds now = .ok (card, db')) :
    db'.checklistItems = db.checklistItems := by
  simp only [create, bind_eq_ok] at h
  obtain ⟨db₁, hinsert, db₂, hassign, db₃, hattach, h⟩ := h
  have hinserted : db₁.checklistItems = db.checklistItems := by
    rw [Database.insertCard] at hinsert
    split at hinsert
    · split at hinsert <;> cases hinsert
      rfl
    · cases hinsert
  have hassigned : db₂.checklistItems = db.checklistItems := by
    apply foldlM_keeps (I := fun s : Database => s.checklistItems = db.checklistItems) _ hassign
      hinserted
    intro userId s t hs hstep
    rw [Database.upsertCardAssignee] at hstep
    split at hstep
    · split at hstep <;> cases hstep
      exact hs
    · cases hstep
      exact hs
  have hattached : db₃.checklistItems = db.checklistItems := by
    apply foldlM_keeps (I := fun s : Database => s.checklistItems = db.checklistItems) _ hattach
      hassigned
    intro labelId s t hs hstep
    rw [Database.upsertCardLabel, Database.insertCardLabel] at hstep
    split at hstep
    · cases hstep
      exact hs
    · split at hstep
      · split at hstep <;> cases hstep
        exact hs
      · cases hstep
  split at h
  · obtain ⟨-, rfl⟩ := Prod.mk.inj (Except.ok.inj h)
    exact hattached
  · cases h

end Items

section Acceptance
variable {env : Env} {w w' : World} {workspaceId boardId cardId checklistId itemId userId : Uuid}

theorem returns_addItem_iff {dto : CreateChecklistItemDto} :
    (∃ w', Returns ((ChecklistCall.addItem workspaceId boardId cardId checklistId dto userId).run
      env) w () w') ↔ AddItemAccepted env w.db boardId workspaceId cardId checklistId := by
  constructor
  · rintro ⟨w', hreturns⟩
    obtain ⟨item, h⟩ := returns_discard.mp hreturns
    obtain ⟨hboard, h⟩ := returns_verifyBoardInWorkspace_bind.mp h
    obtain ⟨checklist, hchecklist, hcard, h⟩ := returns_getChecklistInCard_bind.mp h
    obtain ⟨rank, hrank, h⟩ := returns_orThrow_bind.mp h
    obtain ⟨item, _, hwrite, -⟩ := returns_bind.mp h
    obtain ⟨db, hcreate, -⟩ := returns_write.mp hwrite
    obtain ⟨hfresh, hwidth⟩ := ChecklistRepository.createItem_ok hcreate
    exact ⟨hboard, ⟨checklist, rank, hchecklist, hcard, hrank, hwidth⟩, hfresh⟩
  · rintro ⟨hboard, ⟨checklist, rank, hchecklist, hcard, hrank, hwidth⟩, hfresh⟩
    have hrow := ChecklistRepository.findActiveChecklist_row hchecklist
    let data : ChecklistItemRow :=
      { checklistId := checklistId, content := dto.content, rank := rank, updatedAt := env.now }
    have hdata : data.Accepted w.db.toTables :=
      ⟨(w.db.checklists.contains_iff checklistId).mpr ⟨_, hrow⟩, hwidth⟩
    obtain ⟨item, db, hcreate⟩ := ChecklistRepository.exists_createItem hfresh hdata
    refine ⟨{ w with
      db := db
      checklistEvents := w.checklistEvents ++ [.updated checklistId cardId boardId userId] }, ?_⟩
    apply returns_discard.mpr
    refine ⟨item, returns_verifyBoardInWorkspace_bind.mpr ⟨hboard, ?_⟩⟩
    refine returns_getChecklistInCard_bind.mpr ⟨checklist, hchecklist, hcard, ?_⟩
    exact returns_orThrow_bind.mpr ⟨rank, hrank, returns_writing hcreate⟩

/-- The calls that change an item return where the item is in the checklist. -/
theorem returns_updateItem_iff {dto : UpdateChecklistItemDto} :
    (∃ w', Returns ((ChecklistCall.updateItem workspaceId boardId cardId checklistId itemId dto
      userId).run env) w () w') ↔
      OnActiveCard w.db boardId workspaceId cardId ∧ ItemOf w.db itemId checklistId := by
  constructor
  · rintro ⟨w', hreturns⟩
    obtain ⟨updated, h⟩ := returns_discard.mp hreturns
    obtain ⟨hactive, h⟩ := returns_onActiveCard_bind.mp h
    obtain ⟨item, hitem, hchecklist, -⟩ := returns_getItemInChecklist_bind.mp h
    exact ⟨hactive, item.row, ChecklistRepository.findItem_iff.mp ⟨item, hitem, rfl⟩, hchecklist⟩
  · rintro ⟨hactive, row, hrow, hchecklist⟩
    obtain ⟨item, hitem, rfl⟩ := ChecklistRepository.findItem_iff.mpr hrow
    obtain ⟨updated, db, hupdate⟩ := ChecklistRepository.exists_updateItem
      (ChecklistService.patchItem dto) hrow rfl rfl env.now
    refine ⟨{ w with
      db := db
      checklistEvents := w.checklistEvents ++ [.updated checklistId cardId boardId userId] }, ?_⟩
    apply returns_discard.mpr
    refine ⟨updated, returns_onActiveCard_bind.mpr ⟨hactive, ?_⟩⟩
    exact returns_getItemInChecklist_bind.mpr ⟨item, hitem, hchecklist, returns_writing hupdate⟩

theorem returns_removeItem_iff :
    (∃ w', Returns ((ChecklistCall.removeItem workspaceId boardId cardId checklistId itemId
      userId).run env) w () w') ↔
      OnActiveCard w.db boardId workspaceId cardId ∧ ItemOf w.db itemId checklistId := by
  constructor
  · rintro ⟨w', h⟩
    obtain ⟨hactive, h⟩ := returns_onActiveCard_bind.mp h
    obtain ⟨item, hitem, hchecklist, -⟩ := returns_getItemInChecklist_bind.mp h
    exact ⟨hactive, item.row, ChecklistRepository.findItem_iff.mp ⟨item, hitem, rfl⟩, hchecklist⟩
  · rintro ⟨hactive, row, hrow, hchecklist⟩
    obtain ⟨item, hitem, rfl⟩ := ChecklistRepository.findItem_iff.mpr hrow
    have hdelete : ChecklistRepository.deleteItem w.db itemId =
        .ok ((), w.db.deleteChecklistItem itemId) :=
      if_pos ((w.db.checklistItems.contains_iff itemId).mpr ⟨_, hrow⟩)
    refine ⟨{ w with
      db := w.db.deleteChecklistItem itemId
      checklistEvents := w.checklistEvents ++ [.updated checklistId cardId boardId userId] }, ?_⟩
    apply returns_onActiveCard_bind.mpr
    refine ⟨hactive, ?_⟩
    refine returns_getItemInChecklist_bind.mpr ⟨item, hitem, hchecklist, ?_⟩
    exact returns_bind.mpr ⟨(), _, returns_write.mpr ⟨_, hdelete, rfl⟩,
      returns_emitChecklist.mpr rfl⟩

/-- What `createSubcard` has checked where it returns; it writes no item. -/
theorem returns_createSubcard_items {parentId : Uuid} {dto : CreateCardDto}
    {card : CardWithDetails}
    (h : Returns (CardService.createSubcard env boardId workspaceId parentId dto userId)
      w card w') :
    (∃ listId, SubcardAccepted env w.db boardId workspaceId parentId listId dto userId) ∧
      w'.db.checklistItems = w.db.checklistItems := by
  obtain ⟨-, heffect⟩ := effect_createSubcard h
  refine ⟨?_, ?_⟩
  · cases heffect with
    | kept hkept => cases hkept
    | wrote hwrite =>
        cases hwrite with
        | createSubcard _ haccepted => exact ⟨_, haccepted⟩
  · obtain ⟨-, parent, -, h⟩ := returns_onActiveCard h
    obtain ⟨-, h⟩ := returns_refuseIf_bind.mp h
    obtain ⟨_, _, hv, h⟩ := returns_bind.mp h
    obtain ⟨-, rfl⟩ := returns_validateAssignees.mp hv
    obtain ⟨_, _, hv, h⟩ := returns_bind.mp h
    obtain ⟨-, rfl⟩ := returns_validateLabels.mp hv
    have h := returns_query_bind.mp h
    obtain ⟨created, _, hwrite, h⟩ := returns_bind.mp h
    obtain ⟨db, hcreate, rfl⟩ := returns_write.mp hwrite
    obtain rfl := returns_emit_return h
    exact CardRepository.create_keepsItems hcreate

/-- The item of a promotion can still be marked done after the subcard is created. -/
theorem exists_markDone {item : ItemWithChecklist} {subcard : CardWithDetails} {u : World}
    (hitem : ChecklistRepository.findItem w.db itemId = some item) {dto : CreateCardDto}
    (hsubcard : Returns (CardService.createSubcard env boardId workspaceId cardId dto userId)
      w subcard u) :
    ∃ updated db, ChecklistRepository.updateItem u.db itemId
      (ChecklistService.patchItem { isDone := some true }) env.now = .ok (updated, db) := by
  obtain ⟨-, hitems⟩ := returns_createSubcard_items hsubcard
  have hrow : u.db.checklistItems.get? itemId = some item.row := by
    rw [hitems]
    exact ChecklistRepository.findItem_iff.mp ⟨item, hitem, rfl⟩
  exact ChecklistRepository.exists_updateItem _ hrow rfl rfl env.now

theorem returns_promoteItemToSubcard_iff :
    (∃ w', Returns ((ChecklistCall.promoteItemToSubcard workspaceId boardId cardId checklistId
      itemId userId).run env) w () w') ↔
      ∃ item listId, w.db.checklistItems.get? itemId = some item ∧
        item.checklistId = checklistId ∧
          SubcardAccepted env w.db boardId workspaceId cardId listId { title := item.content }
            userId := by
  constructor
  · rintro ⟨w', hreturns⟩
    obtain ⟨promoted, h⟩ := returns_discard.mp hreturns
    obtain ⟨-, h⟩ := returns_onActiveCard_bind.mp h
    obtain ⟨item, hitem, hchecklist, h⟩ := returns_getItemInChecklist_bind.mp h
    obtain ⟨subcard, u, hsubcard, -⟩ := returns_bind.mp h
    obtain ⟨⟨listId, haccepted⟩, -⟩ := returns_createSubcard_items hsubcard
    exact ⟨item.row, listId, ChecklistRepository.findItem_iff.mp ⟨item, hitem, rfl⟩, hchecklist,
      haccepted⟩
  · rintro ⟨row, listId, hrow, hchecklist, haccepted⟩
    obtain ⟨item, hitem, rfl⟩ := ChecklistRepository.findItem_iff.mpr hrow
    obtain ⟨parent, hparent, -⟩ := haccepted.parent
    obtain ⟨subcard, u, hsubcard⟩ := exists_createSubcard haccepted
    obtain ⟨updated, db, hupdate⟩ := exists_markDone hitem hsubcard
    refine ⟨{ u with
      db := db
      checklistEvents := u.checklistEvents ++ [.updated checklistId cardId boardId userId] }, ?_⟩
    apply returns_discard.mpr
    refine ⟨subcard, returns_onActiveCard_bind.mpr ⟨⟨haccepted.board, by rw [hparent]; rfl⟩, ?_⟩⟩
    refine returns_getItemInChecklist_bind.mpr ⟨item, hitem, hchecklist, ?_⟩
    refine returns_bind.mpr ⟨subcard, u, hsubcard, ?_⟩
    refine returns_bind.mpr ⟨updated, { u with db := db }, returns_write.mpr ⟨db, hupdate, rfl⟩, ?_⟩
    exact returns_bind.mpr ⟨(), _, returns_emitChecklist.mpr rfl, returns_pure.mpr ⟨rfl, rfl⟩⟩

end Acceptance

section Failures
variable {env : Env} {w w' : World}

/-- Nothing is written where a promotion fails: the update after the subcard is not
refused. -/
theorem promote_throws {workspaceId boardId cardId checklistId itemId userId : Uuid} {e : AppError}
    (h : Throws (ChecklistService.promoteItemToSubcard env workspaceId boardId cardId checklistId
      itemId userId) w e w') : w' = w := by
  rcases reads_verifyBoardInWorkspace.throws_bind h with h | ⟨_, -, h⟩
  · exact h
  rcases (Reads.bind (reads_find _ _) fun _ => Reads.pure _).throws_bind h with h | ⟨_, -, h⟩
  · exact h
  rcases (reads_find _ _).throws_bind h with h | ⟨item, hitem, h⟩
  · exact h
  rcases throws_bind.mp h with h | ⟨subcard, u, hsubcard, h⟩
  · -- a failed `createSubcard` is a failed call of `CardService`
    have hcall : Throws ((Call.createSubcard boardId workspaceId cardId
        { title := item.row.content } userId).run env) w e w' := throws_bind.mpr (.inl h)
    exact clean_run env _ w e w' hcall
  · obtain ⟨found, -⟩ := Option.filter_eq_some_iff.mp (returns_find.mp hitem).1
    obtain ⟨updated, db, hupdate⟩ := exists_markDone found hsubcard
    rcases throws_bind.mp h with h | ⟨_, v, -, h⟩
    · have hwrite : Returns (write (ChecklistRepository.updateItem · itemId
          (ChecklistService.patchItem { isDone := some true }) env.now)
          fun _ => .appException "PROMOTE_FAILED"
            "Subcard was created but the source item could not be archived" 500) u updated
          { u with db := db } := returns_write.mpr ⟨db, hupdate, rfl⟩
      rw [Throws, hwrite] at h
      cases h
    · exact absurd h (total_emitChecklist_return _ _ v e w')

/-- Whatever a call throws, the world is as it was. -/
theorem clean_checklistCall (env : Env) (call : ChecklistCall) : Clean (call.run env) := by
  cases call with
  | createChecklist =>
      apply Clean.before_total _ fun _ => Total.pure _
      apply clean_onActiveCard
      apply Clean.after_reads (Reads.query _)
      intro _
      apply Clean.after_reads (reads_orThrow _)
      intro _
      exact clean_writing fun _ => total_emitChecklist_return _ _
  | renameChecklist =>
      apply Clean.before_total _ fun _ => Total.pure _
      apply clean_onActiveCard
      apply Clean.after_reads (reads_find _ _)
      intro _
      exact clean_writing fun _ => total_emitChecklist_return _ _
  | deleteChecklist =>
      apply clean_onActiveCard
      apply Clean.after_reads (reads_find _ _)
      intro _
      exact clean_writing fun _ => total_emitChecklist _
  | addItem =>
      apply Clean.before_total _ fun _ => Total.pure _
      apply Clean.after_reads reads_verifyBoardInWorkspace
      intro _
      apply Clean.after_reads (reads_find _ _)
      intro _
      apply Clean.after_reads (reads_orThrow _)
      intro _
      exact clean_writing fun _ => total_emitChecklist_return _ _
  | updateItem =>
      apply Clean.before_total _ fun _ => Total.pure _
      apply clean_onActiveCard
      apply Clean.after_reads (reads_find _ _)
      intro _
      exact clean_writing fun _ => total_emitChecklist_return _ _
  | removeItem =>
      apply clean_onActiveCard
      apply Clean.after_reads (reads_find _ _)
      intro _
      exact clean_writing fun _ => total_emitChecklist _
  | promoteItemToSubcard =>
      apply Clean.before_total _ fun _ => Total.pure _
      exact fun _ _ _ => promote_throws

end Failures

section Isolation
variable {env : Env} {w w' : World} {call : ChecklistCall}

/-- Failed calls change nothing, so the calls that return decide. -/
theorem keepsChecklistsApart_of {accepted : Prop}
    (h : (∃ w', Returns (call.run env) w () w') ↔ accepted) :
    KeepsChecklistsApart env call w ↔ (accepted → call.Chained w.db) := by
  constructor
  · intro hkeeps haccepted
    obtain ⟨w', hreturns⟩ := h.mpr haccepted
    exact hkeeps.returned w' hreturns
  · intro hchained
    exact
      { failed := fun e w' ht => by rw [clean_checklistCall env call w e w' ht]
        returned := fun w' hreturns => hchained (h.mp ⟨w', hreturns⟩) }

/-- The calls that make every check. -/
theorem KeepsChecklistsApart.of_returned
    (h : ∀ w', Returns (call.run env) w () w' → call.Chained w.db) :
    KeepsChecklistsApart env call w :=
  (keepsChecklistsApart_of Iff.rfl).mpr fun ⟨w', hreturns⟩ => h w' hreturns

/-- A call keeps checklists apart exactly where the check that it leaves out would have
passed, or it fails for another reason. -/
theorem keepsChecklistsApart_iff (env : Env) (call : ChecklistCall) (w : World) :
    KeepsChecklistsApart env call w ↔ call.GapsClosed env w.db := by
  cases call with
  | createChecklist =>
      refine iff_of_true (.of_returned fun w' hreturns => ?_) trivial
      obtain ⟨checklist, h⟩ := returns_discard.mp hreturns
      exact (returns_onActiveCard_bind.mp h).1
  | renameChecklist =>
      refine iff_of_true (.of_returned fun w' hreturns => ?_) trivial
      obtain ⟨updated, h⟩ := returns_discard.mp hreturns
      obtain ⟨hactive, h⟩ := returns_onActiveCard_bind.mp h
      obtain ⟨checklist, hchecklist, hcard, -⟩ := returns_getChecklistInCard_bind.mp h
      exact ⟨hactive, _, ChecklistRepository.findActiveChecklist_row hchecklist, hcard⟩
  | deleteChecklist =>
      refine iff_of_true (.of_returned fun w' h => ?_) trivial
      obtain ⟨hactive, h⟩ := returns_onActiveCard_bind.mp h
      obtain ⟨checklist, hchecklist, hcard, -⟩ := returns_getChecklistInCard_bind.mp h
      exact ⟨hactive, _, ChecklistRepository.findActiveChecklist_row hchecklist, hcard⟩
  | addItem =>
      rw [keepsChecklistsApart_of returns_addItem_iff]
      constructor
      · intro h haccepted
        exact (h haccepted).1.card
      · intro h haccepted
        obtain ⟨checklist, rank, hchecklist, hcard, -⟩ := haccepted.checklist
        exact ⟨⟨haccepted.board, h haccepted⟩, _,
          ChecklistRepository.findActiveChecklist_row hchecklist, hcard⟩
  | updateItem =>
      rw [keepsChecklistsApart_of returns_updateItem_iff]
      exact ⟨fun h hactive hitem => (h ⟨hactive, hitem⟩).2.1,
        fun h ⟨hactive, hitem⟩ => ⟨hactive, h hactive hitem, hitem⟩⟩
  | removeItem =>
      rw [keepsChecklistsApart_of returns_removeItem_iff]
      exact ⟨fun h hactive hitem => (h ⟨hactive, hitem⟩).2.1,
        fun h ⟨hactive, hitem⟩ => ⟨hactive, h hactive hitem, hitem⟩⟩
  | promoteItemToSubcard =>
      rw [keepsChecklistsApart_of returns_promoteItemToSubcard_iff]
      constructor
      · intro h item listId hitem hchecklist haccepted
        exact (h ⟨item, listId, hitem, hchecklist, haccepted⟩).2.1
      · rintro h ⟨item, listId, hitem, hchecklist, haccepted⟩
        obtain ⟨parent, hparent, -⟩ := haccepted.parent
        exact ⟨⟨haccepted.board, by rw [hparent]; rfl⟩,
          h item listId hitem hchecklist haccepted, item, hitem, hchecklist⟩

end Isolation

/-- Board 20 with card 40 in workspace 1, and board 21 with card 41 in workspace 2;
checklist 51 with item 61 is on card 41. User 7 is a member of workspace 1 only. -/
def twoBoards : Database where
  workspaces := twoWorkspaces.workspaces
  users := .single 7 ()
  members := .single (1, 7) ()
  boards := ⟨[(20, { workspaceId := 1, title := js "Plans", createdBy := 7, updatedAt := 0 }),
    (21, { workspaceId := 2, title := js "Secrets", createdBy := 7, updatedAt := 0 })], by decide⟩
  lists := ⟨[(30, { boardId := 20, title := js "Open", rank := js "0|hzzzzz:", updatedAt := 0 }),
    (31, { boardId := 21, title := js "Open", rank := js "0|hzzzzz:", updatedAt := 0 })],
    by decide⟩
  cards := ⟨[
    (40, { listId := 30, title := js "Ship", rank := js "0|hzzzzz:", createdBy := 7, updatedAt := 0 }),
    (41, { listId := 31, title := js "Hire", rank := js "0|hzzzzz:", createdBy := 7, updatedAt := 0 })],
    by decide⟩
  checklists := ⟨[(51, { cardId := 41, title := js "Steps", rank := js "0|hzzzzz:", updatedAt := 0 })],
    by decide⟩
  checklistItems := ⟨[
    (61, { checklistId := 51, content := js "Call", rank := js "0|hzzzzz:", updatedAt := 0 })],
    by decide⟩
  wellFormed :=
    { members := Table.All.of_rows (by decide)
      boards := Table.All.of_rows (by decide)
      starredBoards := Table.All.of_rows (by decide)
      lists := Table.All.of_rows (by decide)
      cards := Table.All.of_rows (by decide)
      cardAssignees := Table.All.of_rows (by decide)
      cardLabels := Table.All.of_rows (by decide)
      labels := Table.All.of_rows (by decide)
      checklists := Table.All.of_rows (by decide)
      checklistItems := Table.All.of_rows (by decide) }

/-- A member of workspace 1 names its own board and card, and an item of workspace 2. -/
theorem removeItem_crosses_tenants :
    ¬ KeepsChecklistsApart firstCardEnv (.removeItem 1 20 40 51 61 7) { db := twoBoards } := by
  intro h
  have hactive : OnActiveCard twoBoards 20 1 40 := ⟨by decide, by decide⟩
  have hitem : ItemOf twoBoards 61 51 := ⟨_, rfl, rfl⟩
  obtain ⟨w', hreturns⟩ := (returns_removeItem_iff (w := { db := twoBoards })).mpr ⟨hactive, hitem⟩
  obtain ⟨-, ⟨checklist, hchecklist, hcard⟩, -⟩ := h.returned w' hreturns
  obtain rfl := Option.some.inj hchecklist
  exact absurd hcard (by decide)

end SyncBoard.Board
