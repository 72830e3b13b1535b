import SyncBoard.Board.Calls

/-!
# What the calls do

One lemma for each call that returns. A call that verifies the board in the
workspace and finds its card on the board is confined to that card, which is in
the scope before and after. `create`, `addAssignee` and `addLabel` do not verify
the board: of these the lemmas say when they return and which card of the board
they write to.
-/

namespace SyncBoard.Board

open Relational Fallible

/-- A call whose result is dropped. -/
theorem returns_discard {α : Type} {x : Service α} {w w' : World} {u : Unit} :
    Returns (do let _ ← x) w u w' ↔ ∃ a, Returns x w a w' := by
  simp only [returns_bind, returns_pure]
  constructor
  · rintro ⟨a, _, h, -, rfl⟩
    exact ⟨a, h⟩
  · rintro ⟨a, h⟩
    exact ⟨a, w', h, trivial, rfl⟩

section Verified
variable {α : Type} {w w' : World} {boardId workspaceId cardId : Uuid}

theorem returns_verifyBoardInWorkspace {u : Unit}
    (h : Returns (CardService.verifyBoardInWorkspace boardId workspaceId) w u w') :
    workspaceOf w.db boardId = some workspaceId ∧ w = w' := by
  simp only [CardService.verifyBoardInWorkspace, returns_bind, returns_find, returns_pure] at h
  obtain ⟨board, _, ⟨hboard, rfl⟩, -, rfl⟩ := h
  exact ⟨(BoardRepository.findById_eq_some hboard).1, rfl⟩

theorem returns_findCard_bind {f : CardWithDetails → Service α} {a : α} :
    Returns (CardService.findCard cardId boardId >>= f) w a w' ↔
      ∃ card, CardRepository.findActiveById w.db cardId (some boardId) = some card ∧
        Returns (f card) w a w' :=
  returns_find_bind

/-- A verified board and an active card on it: the card is in the scope. -/
theorem returns_onCard {f : CardWithDetails → Service α} {a : α}
    (h : Returns (do
      CardService.verifyBoardInWorkspace boardId workspaceId
      let card ← CardService.findCard cardId boardId
      f card) w a w') :
    InScope w.db (some boardId, workspaceId) cardId ∧
      ∃ card, CardRepository.findActiveById w.db cardId (some boardId) = some card ∧
        Returns (f card) w a w' := by
  obtain ⟨_, _, hverify, h⟩ := returns_bind.mp h
  obtain ⟨hw, rfl⟩ := returns_verifyBoardInWorkspace hverify
  obtain ⟨card, hcard, h⟩ := returns_findCard_bind.mp h
  obtain ⟨-, -, hb⟩ := CardRepository.findActiveById_eq_some hcard
  exact ⟨⟨boardId, hb, hw, by simp⟩, card, hcard, h⟩

/-- An update that leaves the card in its list. -/
theorem Confined.of_update {db db' : Database} {scope : Option Uuid × Uuid}
    {data : CardRow → CardRow} {now : Timestamp} {card : Card} (hscope : InScope db scope cardId)
    (h : CardRepository.update db cardId data now = .ok (card, db'))
    (hlist : ∀ row, (data row).listId = row.listId) : Confined db db' scope cardId := by
  obtain ⟨honly, row, hrow, hrow'⟩ := CardRepository.update_ok h
  apply Confined.of_footprint hscope honly
  simp [boardOf, hrow, hrow', hlist, honly.lists]

theorem Confined.of_links {db db' : Database} {scope : Option Uuid × Uuid}
    (hscope : InScope db scope cardId) (h : OnlyLinks db db' cardId) :
    Confined db db' scope cardId :=
  Confined.of_footprint hscope h.toOnlyCard (h.boardOf_eq cardId)

/-- Emitting an event does not write to the database. -/
theorem emit_db {event : CardEvent} {u : Unit} (h : Returns (emit event) w u w') :
    w'.db = w.db := by
  rw [returns_emit] at h
  rw [← h]

theorem emit_return_db {event : CardEvent} {a b : α}
    (h : Returns (do emit event; return a) w b w') : w'.db = w.db := by
  simp only [returns_bind, returns_pure] at h
  obtain ⟨_, _, h, -, rfl⟩ := h
  exact emit_db h

/-- The last steps of most calls: one update of the card, then an event. -/
theorem Confined.of_updating {data : CardRow → CardRow} {now : Timestamp}
    {rejected : DbError → AppError} {rest : Card → Service α} {a : α}
    {scope : Option Uuid × Uuid} (hscope : InScope w.db scope cardId)
    (h : Returns (write (CardRepository.update · cardId data now) rejected >>= rest) w a w')
    (hlist : ∀ row, (data row).listId = row.listId)
    (hrest : ∀ card u a v, Returns (rest card) u a v → v.db = u.db) :
    Confined w.db w'.db scope cardId := by
  simp only [returns_bind, returns_write] at h
  obtain ⟨card, _, ⟨db, hu, rfl⟩, h⟩ := h
  rw [hrest card _ a w' h]
  exact Confined.of_update hscope hu hlist

section Updates
variable {env : Env} {userId : Uuid} {card : Card}

theorem confined_update {dto : UpdateCardDto}
    (h : Returns (CardService.update env boardId workspaceId cardId dto userId) w card w') :
    Confined w.db w'.db (some boardId, workspaceId) cardId := by
  obtain ⟨hscope, existing, -, h⟩ := returns_onCard h
  exact Confined.of_updating hscope h (fun _ => rfl) fun _ _ _ _ => emit_return_db

theorem confined_updatePriority {priority : CardPriority}
    (h : Returns (CardService.updatePriority env boardId workspaceId cardId priority userId)
      w card w') :
    Confined w.db w'.db (some boardId, workspaceId) cardId := by
  obtain ⟨hscope, existing, -, h⟩ := returns_onCard h
  split at h
  · obtain ⟨-, rfl⟩ := returns_pure.mp h
    exact Confined.of_links hscope (OnlyLinks.refl _ _)
  · exact Confined.of_updating hscope h (fun _ => rfl) fun _ _ _ _ => emit_return_db

theorem confined_updateStatus {status : CardStatus}
    (h : Returns (CardService.updateStatus env boardId workspaceId cardId status userId)
      w card w') :
    Confined w.db w'.db (some boardId, workspaceId) cardId := by
  obtain ⟨hscope, existing, -, h⟩ := returns_onCard h
  split at h
  · obtain ⟨-, rfl⟩ := returns_pure.mp h
    exact Confined.of_links hscope (OnlyLinks.refl _ _)
  · exact Confined.of_updating hscope h (fun _ => rfl) fun _ _ _ _ => emit_return_db

/-- The child is touched, and it is the child whose board is checked. -/
theorem confined_attachSubcard {parentId : UuidText}
    (h : Returns (CardService.attachSubcard env boardId workspaceId parentId cardId userId)
      w card w') :
    Confined w.db w'.db (some boardId, workspaceId) cardId := by
  obtain ⟨⟨_, -, hw, hb⟩, parent, -, h⟩ := returns_onCard h
  obtain ⟨-, h⟩ := returns_refuseIf_bind.mp h
  obtain ⟨child, hchild, h⟩ := returns_findCard_bind.mp h
  obtain ⟨-, h⟩ := returns_refuseIf_bind.mp h
  obtain ⟨-, h⟩ := returns_refuseIf_bind.mp h
  have h := returns_query_bind.mp h
  obtain ⟨-, h⟩ := returns_refuseIf_bind.mp h
  obtain ⟨-, -, hchildBoard⟩ := CardRepository.findActiveById_eq_some hchild
  obtain rfl := hb boardId rfl
  exact Confined.of_updating ⟨_, hchildBoard, hw, hb⟩ h (fun _ => rfl)
    fun _ _ _ _ => emit_return_db

theorem confined_detachSubcard
    (h : Returns (CardService.detachSubcard env boardId workspaceId cardId userId) w card w') :
    Confined w.db w'.db (some boardId, workspaceId) cardId := by
  obtain ⟨hscope, child, -, h⟩ := returns_onCard h
  obtain ⟨-, h⟩ := returns_refuseIf_bind.mp h
  exact Confined.of_updating hscope h (fun _ => rfl) fun _ _ _ _ => emit_return_db

/-- The target list is on the verified board, so the card stays on it. -/
theorem confined_move {dto : MoveCardDto}
    (h : Returns (CardService.move env boardId workspaceId cardId dto userId) w card w') :
    Confined w.db w'.db (some boardId, workspaceId) cardId := by
  obtain ⟨hscope, existing, hexisting, h⟩ := returns_onCard h
  obtain ⟨targetList, htarget, h⟩ := returns_find_bind.mp h
  simp only [returns_bind, returns_write] at h
  obtain ⟨moved, _, ⟨db, hu, rfl⟩, h⟩ := h
  rw [emit_return_db (returns_bind.mpr h)]
  obtain ⟨honly, row, hrow, hrow'⟩ := CardRepository.update_ok hu
  obtain ⟨hlist, htargetBoard⟩ := ListRepository.findActiveById_eq_some htarget
  obtain ⟨-, -, hboard⟩ := CardRepository.findActiveById_eq_some hexisting
  apply Confined.of_footprint hscope honly
  rw [hboard, boardOf_eq_some]
  exact ⟨_, targetList, hrow', honly.lists ▸ hlist, htargetBoard⟩

theorem confined_archive {u : Unit}
    (h : Returns (CardService.archive env boardId workspaceId cardId userId) w u w') :
    Confined w.db w'.db (some boardId, workspaceId) cardId := by
  obtain ⟨hscope, existing, -, h⟩ := returns_onCard h
  exact Confined.of_updating hscope h (fun _ => rfl) fun _ _ _ _ => emit_db

/-- A verified board and any card on it. -/
theorem inScope_of_verified {found : Card} {u : Unit}
    (hverify : Returns (CardService.verifyBoardInWorkspace boardId workspaceId) w u w')
    (h : CardRepository.findByIdIncludingArchived w.db cardId (some boardId) = some found) :
    InScope w.db (some boardId, workspaceId) cardId := by
  obtain ⟨hw, rfl⟩ := returns_verifyBoardInWorkspace hverify
  obtain ⟨-, hboard⟩ := CardRepository.findByIdIncludingArchived_eq_some h
  exact ⟨boardId, hboard, hw, by simp⟩

theorem confined_unarchive
    (h : Returns (CardService.unarchive env boardId workspaceId cardId userId) w card w') :
    Confined w.db w'.db (some boardId, workspaceId) cardId := by
  obtain ⟨_, _, hverify, h⟩ := returns_bind.mp h
  obtain ⟨-, rfl⟩ := returns_verifyBoardInWorkspace hverify
  obtain ⟨found, hfound, h⟩ := returns_find_bind.mp h
  exact Confined.of_updating (inScope_of_verified hverify hfound) h (fun _ => rfl)
    fun _ _ _ _ => emit_return_db

theorem confined_deletePermanently {u : Unit}
    (h : Returns (CardService.deletePermanently env boardId workspaceId cardId userId) w u w') :
    Confined w.db w'.db (some boardId, workspaceId) cardId := by
  obtain ⟨_, _, hverify, h⟩ := returns_bind.mp h
  obtain ⟨-, rfl⟩ := returns_verifyBoardInWorkspace hverify
  obtain ⟨found, hfound, h⟩ := returns_find_bind.mp h
  rw [CardRepository.findByIdIncludingDeleted_eq] at hfound
  obtain ⟨-, h⟩ := returns_refuseIf_bind.mp h
  exact Confined.of_updating (inScope_of_verified hverify hfound) h (fun _ => rfl)
    fun _ _ _ _ => emit_db

theorem confined_removeAssignee {assigneeUserId : Uuid} {u : Unit}
    (h : Returns (CardService.removeAssignee boardId workspaceId cardId assigneeUserId userId)
      w u w') :
    Confined w.db w'.db (some boardId, workspaceId) cardId := by
  obtain ⟨hscope, existing, -, h⟩ := returns_onCard h
  simp only [returns_bind, returns_write, Except.ok.injEq, Prod.mk.injEq] at h
  obtain ⟨_, _, ⟨db, ⟨-, rfl⟩, rfl⟩, h⟩ := h
  rw [emit_db h]
  exact Confined.of_links hscope (onlyLinks_deleteCardAssignee w.db cardId assigneeUserId)

theorem confined_removeLabel {labelId : Uuid} {u : Unit}
    (h : Returns (CardService.removeLabel boardId workspaceId cardId labelId) w u w') :
    Confined w.db w'.db (some boardId, workspaceId) cardId := by
  obtain ⟨hscope, existing, -, h⟩ := returns_onCard h
  simp only [returns_write, Except.ok.injEq, Prod.mk.injEq] at h
  obtain ⟨db, ⟨-, rfl⟩, rfl⟩ := h
  exact Confined.of_links hscope (onlyLinks_deleteCardLabel w.db cardId labelId)

end Updates

end Verified

section Inserting
variable {env : Env} {w w' : World} {boardId workspaceId listId : Uuid}

theorem returns_validateAssignees {assigneeIds : List Uuid} {u : Unit} :
    Returns (CardService.validateAssignees workspaceId assigneeIds) w u w' ↔
      (∀ a ∈ assigneeIds, WorkspaceService.isUserMember w.db workspaceId a = true) ∧ w = w' :=
  returns_forM_check

theorem returns_validateLabels {labelIds : List Uuid} {u : Unit} :
    Returns (CardService.validateLabels workspaceId labelIds) w u w' ↔
      (∀ l ∈ labelIds, CardService.labelAvailable w.db workspaceId l = true) ∧ w = w' :=
  returns_forM_check

theorem labels_contains_of_available {db : Database} {labelId : Uuid}
    (h : CardService.labelAvailable db workspaceId labelId = true) :
    db.labels.contains labelId = true := by
  obtain ⟨label, hlabel, -⟩ := (Option.any_eq_true _ _).mp h
  exact (db.labels.contains_iff labelId).mpr ⟨label, hlabel⟩

/-- The transaction of `create`, and the event after it. -/
theorem returns_inserting {α : Type} {id : Uuid} {data : CardRow} {dto : CreateCardDto}
    {now : Timestamp} {rejected : DbError → AppError} {rest : CardWithDetails → Service α} {a : α}
    (h : Returns (write (fun db =>
      CardRepository.create db id data dto.assigneeIds dto.labelIds now) rejected >>= rest) w a w')
    (hrest : ∀ card u a v, Returns (rest card) u a v → v.db = u.db) :
    w.db.cards.get? id = none ∧ w.db.users.contains data.createdBy = true ∧
      charCount data.rank ≤ rankWidth ∧ OnlyCard w.db w'.db id ∧
      w'.db.cards.get? id = some data := by
  simp only [returns_bind, returns_write] at h
  obtain ⟨card, _, ⟨db, hcreate, rfl⟩, h⟩ := h
  rw [hrest card _ a w' h]
  obtain ⟨db₁, hinsert, hlinks, -⟩ := CardRepository.create_inserts hcreate
  obtain ⟨hfresh, hcreator, hrank, honly, hget, -, -⟩ := Database.insertCard_ok hinsert
  exact ⟨hfresh, hcreator, hrank, honly.trans hlinks.toOnlyCard, hlinks.allCards ▸ hget⟩

theorem confined_createSubcard {parentId userId : Uuid} {dto : CreateCardDto}
    {card : CardWithDetails}
    (h : Returns (CardService.createSubcard env boardId workspaceId parentId dto userId)
      w card w') :
    Confined w.db w'.db (some boardId, workspaceId) env.newId := by
  obtain ⟨⟨b, hb, hw, hscope⟩, parent, hparent, h⟩ := returns_onCard h
  obtain ⟨-, h⟩ := returns_refuseIf_bind.mp h
  obtain ⟨_, _, hv, h⟩ := returns_bind.mp h
  obtain ⟨hassignees, rfl⟩ := returns_validateAssignees.mp hv
  obtain ⟨_, _, hv, h⟩ := returns_bind.mp h
  obtain ⟨hlabels, rfl⟩ := returns_validateLabels.mp hv
  have h := returns_query_bind.mp h
  obtain ⟨hfresh, -, -, honly, hget⟩ :=
    returns_inserting h fun _ _ _ _ => emit_return_db
  obtain ⟨hparentRow, -, hparentBoard⟩ := CardRepository.findActiveById_eq_some hparent
  obtain ⟨_, list, hrow, hlist, rfl⟩ := boardOf_eq_some.mp hparentBoard
  rw [hparentRow] at hrow
  cases hrow
  have hboard : boardOf w'.db env.newId = some list.boardId :=
    boardOf_eq_some.mpr ⟨_, list, hget, honly.lists ▸ hlist, rfl⟩
  obtain rfl := Option.some.inj (hb.symm.trans hparentBoard)
  refine ⟨honly, ⟨list.boardId, hboard, (honly.workspaceOf_eq _).trans hw, hscope⟩, ?_⟩
  intro hcontains
  simp [Table.contains, hfresh] at hcontains

/-- The checks that `create` makes and the constraints of the row it inserts. -/
structure CreateAccepted (env : Env) (db : Database) (boardId workspaceId listId : Uuid)
    (dto : CreateCardDto) (userId : Uuid) : Prop where
  list : (ListRepository.findActiveById db listId (some boardId)).isSome = true
  assignees : ∀ u ∈ dto.assigneeIds, WorkspaceService.isUserMember db workspaceId u = true
  labels : ∀ l ∈ dto.labelIds, CardService.labelAvailable db workspaceId l = true
  parent : ∀ p ∈ dto.parentCardId, ∃ parent,
    CardRepository.findActiveById db p (some boardId) = some parent ∧
      parent.row.parentCardId = none
  creator : db.users.contains userId = true
  fresh : db.cards.get? env.newId = none
  rank : charCount (CardService.rankAfterLast env db listId) ≤ rankWidth

/-- The parent that `create` stores is the one that the payload names. -/
theorem returns_parentFor {parentCardId p : Option Uuid} :
    Returns (CardService.parentFor boardId parentCardId) w p w' ↔
      (∀ c ∈ parentCardId, ∃ parent,
        CardRepository.findActiveById w.db c (some boardId) = some parent ∧
          parent.row.parentCardId = none) ∧ parentCardId = p ∧ w = w' := by
  cases parentCardId with
  | none =>
      simp [CardService.parentFor]
  | some c =>
      rw [CardService.parentFor, returns_findCard_bind]
      simp only [returns_refuseIf_bind, returns_pure, Option.isSome_eq_false_iff,
        Option.isNone_iff_eq_none, Option.mem_def, Option.some.injEq, forall_eq']
      constructor
      · rintro ⟨parent, hfind, hnone, rfl, rfl⟩
        obtain ⟨-, hid, -⟩ := CardRepository.findActiveById_eq_some hfind
        exact ⟨⟨parent, hfind, hnone⟩, by rw [hid], rfl⟩
      · rintro ⟨⟨parent, hfind, hnone⟩, rfl, rfl⟩
        obtain ⟨-, hid, -⟩ := CardRepository.findActiveById_eq_some hfind
        exact ⟨parent, hfind, hnone, by rw [hid], rfl⟩

/-- What `create` does where it returns: one new card in the list. -/
theorem returns_create {dto : CreateCardDto} {userId : Uuid} {card : CardWithDetails}
    (h : Returns (CardService.create env boardId workspaceId listId dto userId) w card w') :
    CreateAccepted env w.db boardId workspaceId listId dto userId ∧
      OnlyCard w.db w'.db env.newId ∧ boardOf w'.db env.newId = some boardId := by
  obtain ⟨list, hlist, h⟩ := returns_find_bind.mp h
  obtain ⟨_, _, hv, h⟩ := returns_bind.mp h
  obtain ⟨hassignees, rfl⟩ := returns_validateAssignees.mp hv
  obtain ⟨_, _, hv, h⟩ := returns_bind.mp h
  obtain ⟨hlabels, rfl⟩ := returns_validateLabels.mp hv
  obtain ⟨_, _, hv, h⟩ := returns_bind.mp h
  obtain ⟨hparent, rfl, rfl⟩ := returns_parentFor.mp hv
  have h := returns_query_bind.mp h
  obtain ⟨hfresh, hcreator, hrank, honly, hget⟩ :=
    returns_inserting h fun _ _ _ _ => emit_return_db
  refine ⟨⟨by rw [hlist]; rfl, hassignees, hlabels, hparent, hcreator, hfresh, hrank⟩, honly, ?_⟩
  obtain ⟨hrow, hboard⟩ := ListRepository.findActiveById_eq_some hlist
  exact boardOf_eq_some.mpr ⟨_, list, hget, honly.lists ▸ hrow, hboard⟩

/-- `create` returns where its checks and the constraints of the row allow it. -/
theorem exists_create {dto : CreateCardDto} {userId : Uuid}
    (h : CreateAccepted env w.db boardId workspaceId listId dto userId) :
    ∃ card w', Returns (CardService.create env boardId workspaceId listId dto userId)
      w card w' := by
  obtain ⟨list, hlist⟩ := Option.isSome_iff_exists.mp h.list
  obtain ⟨hlistRow, -⟩ := ListRepository.findActiveById_eq_some hlist
  have haccepted : (CardService.newCard env dto listId (CardService.rankAfterLast env w.db listId)
      dto.parentCardId userId).Accepted w.db.toTables := by
    refine ⟨(w.db.lists.contains_iff listId).mpr ⟨list, hlistRow⟩, h.creator, ?_, h.rank⟩
    cases hp : dto.parentCardId with
    | none =>
        simp [CardService.newCard]
    | some p =>
        obtain ⟨parent, hparent, -⟩ := h.parent p hp
        obtain ⟨hrow, -, -⟩ := CardRepository.findActiveById_eq_some hparent
        simpa [CardService.newCard] using (w.db.cards.contains_iff p).mpr ⟨_, hrow⟩
  obtain ⟨db₁, hinsert⟩ := Database.insertCard_of_accepted h.fresh haccepted
  obtain ⟨card, db', hcreate, -⟩ := CardRepository.create_ok env.now hinsert
    (fun u hu => WorkspaceService.isUserMember_user (h.assignees u hu))
    (fun l hl => labels_contains_of_available (h.labels l hl))
  refine ⟨card, { w with
    db := db', events := w.events ++ [.created card.toCard boardId listId userId] }, ?_⟩
  refine returns_find_bind.mpr ⟨list, hlist, ?_⟩
  refine returns_bind.mpr ⟨(), w, returns_validateAssignees.mpr ⟨h.assignees, rfl⟩, ?_⟩
  refine returns_bind.mpr ⟨(), w, returns_validateLabels.mpr ⟨h.labels, rfl⟩, ?_⟩
  refine returns_bind.mpr ⟨_, w, returns_parentFor.mpr ⟨h.parent, rfl, rfl⟩, ?_⟩
  refine returns_query_bind.mpr (returns_bind.mpr ⟨card, _, returns_write.mpr ⟨db', hcreate, rfl⟩, ?_⟩)
  exact returns_bind.mpr ⟨(), _, returns_emit.mpr rfl, returns_pure.mpr ⟨rfl, rfl⟩⟩

end Inserting

section Attaching
variable {env : Env} {w w' : World} {boardId workspaceId cardId : Uuid}

/-- `addAssignee` returns for a member on an active card of the board. The
assignee is there afterwards; where it was there already nothing changes. -/
theorem returns_addAssignee {assigneeUserId addedBy : Uuid}
    (h : Returns (CardService.addAssignee env boardId workspaceId cardId assigneeUserId addedBy)
      w () w') :
    (∃ card, CardRepository.findActiveById w.db cardId (some boardId) = some card) ∧
      WorkspaceService.isUserMember w.db workspaceId assigneeUserId = true ∧
      OnlyLinks w.db w'.db cardId ∧
      w'.db.cardAssignees.contains (cardId, assigneeUserId) = true ∧
      (w.db.cardAssignees.contains (cardId, assigneeUserId) = true → w'.db = w.db) := by
  obtain ⟨card, hcard, h⟩ := returns_findCard_bind.mp h
  obtain ⟨hmember, h⟩ := returns_check_bind.mp h
  simp only [returns_bind, returns_write] at h
  obtain ⟨_, _, ⟨db, hdb, rfl⟩, h⟩ := h
  rw [emit_db h]
  obtain ⟨hrow, -, -⟩ := CardRepository.findActiveById_eq_some hcard
  obtain ⟨db', hupsert, hlinks, hafter⟩ := Database.upsertCardAssignee_ok env.now
    ((w.db.cards.contains_iff cardId).mpr ⟨_, hrow⟩) (WorkspaceService.isUserMember_user hmember)
  rw [hupsert] at hdb
  cases hdb
  refine ⟨⟨card, hcard⟩, hmember, hlinks, hafter, fun hpresent => ?_⟩
  rw [Database.upsertCardAssignee_present env.now hpresent] at hupsert
  exact (Except.ok.inj hupsert).symm

theorem exists_addAssignee {assigneeUserId addedBy : Uuid} {card : CardWithDetails}
    (hcard : CardRepository.findActiveById w.db cardId (some boardId) = some card)
    (hmember : WorkspaceService.isUserMember w.db workspaceId assigneeUserId = true) :
    ∃ w', Returns (CardService.addAssignee env boardId workspaceId cardId assigneeUserId addedBy)
      w () w' := by
  obtain ⟨hrow, -, -⟩ := CardRepository.findActiveById_eq_some hcard
  obtain ⟨db', hupsert, -, -⟩ := Database.upsertCardAssignee_ok env.now
    ((w.db.cards.contains_iff cardId).mpr ⟨_, hrow⟩) (WorkspaceService.isUserMember_user hmember)
  refine ⟨{ w with
    db := db', events := w.events ++ [.assigneeAdded cardId boardId assigneeUserId addedBy] }, ?_⟩
  refine returns_findCard_bind.mpr ⟨card, hcard, returns_check_bind.mpr ⟨hmember, ?_⟩⟩
  refine returns_bind.mpr ⟨(), _, returns_write.mpr ⟨db', ?_, rfl⟩, returns_emit.mpr rfl⟩
  rw [hupsert]
  rfl

/-- `addLabel` returns for a label of the workspace on an active card of the board. -/
theorem returns_addLabel {labelId : Uuid}
    (h : Returns (CardService.addLabel boardId workspaceId cardId labelId) w () w') :
    (∃ card, CardRepository.findActiveById w.db cardId (some boardId) = some card) ∧
      CardService.labelAvailable w.db workspaceId labelId = true ∧
      OnlyLinks w.db w'.db cardId ∧ w'.db.cardLabels.contains (cardId, labelId) = true ∧
      (w.db.cardLabels.contains (cardId, labelId) = true → w'.db = w.db) := by
  obtain ⟨card, hcard, h⟩ := returns_findCard_bind.mp h
  obtain ⟨hlabel, h⟩ := returns_check_bind.mp h
  obtain ⟨db, hdb, rfl⟩ := returns_write.mp h
  obtain ⟨hrow, -, -⟩ := CardRepository.findActiveById_eq_some hcard
  obtain ⟨db', hupsert, hlinks, hafter⟩ := Database.upsertCardLabel_ok
    ((w.db.cards.contains_iff cardId).mpr ⟨_, hrow⟩) (labels_contains_of_available hlabel)
  rw [hupsert] at hdb
  cases hdb
  refine ⟨⟨card, hcard⟩, hlabel, hlinks, hafter, fun hpresent => ?_⟩
  rw [Database.upsertCardLabel_present hpresent] at hupsert
  exact (Except.ok.inj hupsert).symm

theorem exists_addLabel {labelId : Uuid} {card : CardWithDetails}
    (hcard : CardRepository.findActiveById w.db cardId (some boardId) = some card)
    (hlabel : CardService.labelAvailable w.db workspaceId labelId = true) :
    ∃ w', Returns (CardService.addLabel boardId workspaceId cardId labelId) w () w' := by
  obtain ⟨hrow, -, -⟩ := CardRepository.findActiveById_eq_some hcard
  obtain ⟨db', hupsert, -, -⟩ := Database.upsertCardLabel_ok
    ((w.db.cards.contains_iff cardId).mpr ⟨_, hrow⟩) (labels_contains_of_available hlabel)
  refine ⟨{ w with db := db' }, ?_⟩
  refine returns_findCard_bind.mpr ⟨card, hcard, returns_check_bind.mpr ⟨hlabel, ?_⟩⟩
  refine returns_write.mpr ⟨db', ?_, rfl⟩
  rw [hupsert]
  rfl

end Attaching

end SyncBoard.Board
