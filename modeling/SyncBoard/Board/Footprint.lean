import SyncBoard.Board.Repositories
import SyncBoard.Lib.Action

/-!
# What the writes touch

Each write of the repositories leaves the lists, the boards and all cards but
one as they were (`OnlyCard`). A card belongs to the board of its list and a
board to its workspace; by the foreign keys both exist for every card.
-/

namespace SyncBoard.Board

open Relational Fallible

/-- The board in one of whose lists a card is. -/
def boardOf (db : Database) (cardId : Uuid) : Option Uuid := do
  let card ← db.cards.get? cardId
  let list ← db.lists.get? card.listId
  return list.boardId

/-- The workspace that a board belongs to. -/
def workspaceOf (db : Database) (boardId : Uuid) : Option Uuid :=
  (db.boards.get? boardId).map BoardRow.workspaceId

theorem boardOf_eq_some {db : Database} {cardId boardId : Uuid} :
    boardOf db cardId = some boardId ↔
      ∃ card list, db.cards.get? cardId = some card ∧
        db.lists.get? card.listId = some list ∧ list.boardId = boardId := by
  simp [boardOf, Option.bind_eq_some_iff]

theorem BoardRepository.findById_eq_some {db : Database} {id workspaceId : Uuid}
    {board : BoardRow} (h : findById db id (some workspaceId) = some board) :
    workspaceOf db id = some workspaceId ∧ db.workspaces.contains workspaceId = true := by
  obtain ⟨hget, hcond⟩ := Option.filter_eq_some_iff.mp h
  simp only [Option.all_some, Bool.and_eq_true, beq_iff_eq] at hcond
  constructor
  · rw [workspaceOf, hget, Option.map_some, hcond.2]
  · rw [← hcond.2]
    exact (db.wellFormed.boards id board hget).1

theorem ListRepository.findActiveById_eq_some {db : Database} {id boardId : Uuid}
    {list : ListRow} (h : findActiveById db id (some boardId) = some list) :
    db.lists.get? id = some list ∧ list.boardId = boardId := by
  obtain ⟨hget, hcond⟩ := Option.filter_eq_some_iff.mp h
  simp only [Option.all_some, Bool.and_eq_true, beq_iff_eq] at hcond
  exact ⟨hget, hcond.2⟩

theorem CardRepository.onBoard_iff {db : Database} {cardId boardId : Uuid} {card : CardRow}
    (hcard : db.cards.get? cardId = some card) :
    onBoard db card (some boardId) = true ↔ boardOf db cardId = some boardId := by
  simp [onBoard, boardOf, hcard, Option.any_eq_true, Option.bind_eq_some_iff]

/-- What every read of a card on a board finds. -/
theorem CardRepository.findActiveById_eq_some {db : Database} {id boardId : Uuid}
    {card : CardWithDetails} (h : findActiveById db id (some boardId) = some card) :
    db.cards.get? id = some card.row ∧ card.id = id ∧ boardOf db id = some boardId := by
  obtain ⟨row, hfilter, rfl⟩ := Option.map_eq_some_iff.mp h
  obtain ⟨hget, hcond⟩ := Option.filter_eq_some_iff.mp hfilter
  simp only [Bool.and_eq_true] at hcond
  exact ⟨hget, rfl, (onBoard_iff hget).mp hcond.2⟩

/-- What the finders of active rows find is neither archived nor deleted. -/
theorem CardRepository.findActiveById_active {db : Database} {id : Uuid} {boardId : Option Uuid}
    {card : CardWithDetails} (h : findActiveById db id boardId = some card) :
    card.row.archivedAt = none ∧ card.row.deletedAt = none := by
  obtain ⟨row, hfilter, rfl⟩ := Option.map_eq_some_iff.mp h
  obtain ⟨-, hcond⟩ := Option.filter_eq_some_iff.mp hfilter
  simp only [Bool.and_eq_true, Option.isNone_iff_eq_none] at hcond
  exact hcond.1

theorem ListRepository.findActiveById_active {db : Database} {id : Uuid} {boardId : Option Uuid}
    {list : ListRow} (h : findActiveById db id boardId = some list) :
    list.archivedAt = none ∧ list.deletedAt = none := by
  obtain ⟨-, hcond⟩ := Option.filter_eq_some_iff.mp h
  simp only [Bool.and_eq_true, Option.isNone_iff_eq_none] at hcond
  exact hcond.1

theorem BoardRepository.findById_active {db : Database} {id : Uuid} {workspaceId : Option Uuid}
    {board : BoardRow} (h : findById db id workspaceId = some board) :
    db.boards.get? id = some board ∧ board.archivedAt = none ∧ board.deletedAt = none := by
  obtain ⟨hget, hcond⟩ := Option.filter_eq_some_iff.mp h
  simp only [Bool.and_eq_true, Option.isNone_iff_eq_none] at hcond
  exact ⟨hget, hcond.1⟩

theorem CardRepository.findByIdIncludingArchived_eq_some {db : Database} {id boardId : Uuid}
    {card : Card} (h : findByIdIncludingArchived db id (some boardId) = some card) :
    db.cards.get? id = some card.row ∧ boardOf db id = some boardId := by
  obtain ⟨row, hfilter, rfl⟩ := Option.map_eq_some_iff.mp h
  obtain ⟨hget, hcond⟩ := Option.filter_eq_some_iff.mp hfilter
  exact ⟨hget, (onBoard_iff hget).mp hcond⟩

/-- `findByIdIncludingDeleted` runs the same query. -/
theorem CardRepository.findByIdIncludingDeleted_eq (db : Database) (id : Uuid)
    (boardId : Option Uuid) :
    findByIdIncludingDeleted db id boardId = findByIdIncludingArchived db id boardId :=
  rfl

/-- The foreign keys of a membership. -/
theorem WorkspaceService.isUserMember_user {db : Database} {workspaceId userId : Uuid}
    (h : isUserMember db workspaceId userId = true) : db.users.contains userId = true := by
  obtain ⟨row, hrow⟩ := (db.members.contains_iff _).mp h
  exact (db.wellFormed.members _ row hrow).2

/-- Boards and lists are as they were, and so is every card but one with its
assignees and labels. -/
structure OnlyCard (db db' : Database) (cardId : Uuid) : Prop where
  boards : db'.boards = db.boards
  lists : db'.lists = db.lists
  cards : ∀ j ≠ cardId, db'.cards.get? j = db.cards.get? j
  cardAssignees : ∀ j ≠ cardId, ∀ u, db'.cardAssignees.get? (j, u) = db.cardAssignees.get? (j, u)
  cardLabels : ∀ j ≠ cardId, ∀ l, db'.cardLabels.get? (j, l) = db.cardLabels.get? (j, l)

/-- Only assignees and labels of one card differ. -/
structure OnlyLinks (db db' : Database) (cardId : Uuid) : Prop extends
    OnlyCard db db' cardId where
  users : db'.users = db.users
  labels : db'.labels = db.labels
  allCards : db'.cards = db.cards

theorem OnlyCard.refl (db : Database) (cardId : Uuid) : OnlyCard db db cardId :=
  ⟨rfl, rfl, fun _ _ => rfl, fun _ _ _ => rfl, fun _ _ _ => rfl⟩

theorem OnlyCard.trans {db₁ db₂ db₃ : Database} {cardId : Uuid} (h : OnlyCard db₁ db₂ cardId)
    (h' : OnlyCard db₂ db₃ cardId) : OnlyCard db₁ db₃ cardId where
  boards := h'.boards.trans h.boards
  lists := h'.lists.trans h.lists
  cards j hj := (h'.cards j hj).trans (h.cards j hj)
  cardAssignees j hj u := (h'.cardAssignees j hj u).trans (h.cardAssignees j hj u)
  cardLabels j hj l := (h'.cardLabels j hj l).trans (h.cardLabels j hj l)

theorem OnlyLinks.refl (db : Database) (cardId : Uuid) : OnlyLinks db db cardId :=
  ⟨OnlyCard.refl db cardId, rfl, rfl, rfl⟩

theorem OnlyLinks.trans {db₁ db₂ db₃ : Database} {cardId : Uuid} (h : OnlyLinks db₁ db₂ cardId)
    (h' : OnlyLinks db₂ db₃ cardId) : OnlyLinks db₁ db₃ cardId :=
  ⟨h.toOnlyCard.trans h'.toOnlyCard, h'.users.trans h.users, h'.labels.trans h.labels,
    h'.allCards.trans h.allCards⟩

theorem OnlyCard.workspaceOf_eq {db db' : Database} {cardId : Uuid} (h : OnlyCard db db' cardId)
    (boardId : Uuid) : workspaceOf db' boardId = workspaceOf db boardId := by
  rw [workspaceOf, workspaceOf, h.boards]

theorem OnlyLinks.boardOf_eq {db db' : Database} {cardId : Uuid} (h : OnlyLinks db db' cardId)
    (j : Uuid) : boardOf db' j = boardOf db j := by
  rw [boardOf, boardOf, h.allCards, h.lists]

/-- An upserted assignee is there afterwards, whoever it was. -/
theorem Database.upsertCardAssignee_ok {db : Database} {cardId userId : Uuid} (now : Timestamp)
    (hcard : db.cards.contains cardId = true) (huser : db.users.contains userId = true) :
    ∃ db', db.upsertCardAssignee cardId userId now = .ok db' ∧ OnlyLinks db db' cardId ∧
      db'.cardAssignees.contains (cardId, userId) = true := by
  rw [upsertCardAssignee]
  split
  · next hfresh =>
      rw [dif_pos ⟨hcard, huser⟩]
      refine ⟨_, rfl, ⟨⟨rfl, rfl, fun _ _ => rfl, ?_, fun _ _ _ => rfl⟩, rfl, rfl, rfl⟩, ?_⟩
      · intro j hj u
        exact (db.cardAssignees.get?_insert _ (j, u) _ hfresh).trans (if_neg (by simp [hj]))
      · simp [Table.contains, Table.get?_insert]
  · next hpresent =>
      exact ⟨db, rfl, OnlyLinks.refl db cardId, Option.isSome_iff_ne_none.mpr hpresent⟩

/-- An upsert that is not refused adds an assignee or nothing. -/
theorem Database.upsertCardAssignee_links {db db' : Database} {cardId userId : Uuid}
    {now : Timestamp} (h : db.upsertCardAssignee cardId userId now = .ok db') :
    OnlyLinks db db' cardId := by
  rw [upsertCardAssignee] at h
  split at h
  · next hfresh =>
      split at h
      · cases h
        refine ⟨⟨rfl, rfl, fun _ _ => rfl, ?_, fun _ _ _ => rfl⟩, rfl, rfl, rfl⟩
        intro j hj u
        exact (db.cardAssignees.get?_insert _ (j, u) _ hfresh).trans (if_neg (by simp [hj]))
      · cases h
  · cases h
    exact OnlyLinks.refl db cardId

theorem Database.upsertCardAssignee_present {db : Database} {cardId userId : Uuid}
    (now : Timestamp) (h : db.cardAssignees.contains (cardId, userId) = true) :
    db.upsertCardAssignee cardId userId now = .ok db := by
  rw [upsertCardAssignee, dif_neg (Option.isSome_iff_ne_none.mp h)]

/-- A label that the card does not have can be attached. -/
theorem Database.insertCardLabel_ok {db : Database} {cardId labelId : Uuid}
    (hfresh : db.cardLabels.get? (cardId, labelId) = none)
    (hcard : db.cards.contains cardId = true) (hlabel : db.labels.contains labelId = true) :
    ∃ db', db.insertCardLabel cardId labelId = .ok db' ∧ OnlyLinks db db' cardId ∧
      db'.cardLabels.contains (cardId, labelId) = true := by
  rw [insertCardLabel, dif_pos hfresh, dif_pos ⟨hcard, hlabel⟩]
  refine ⟨_, rfl, ⟨⟨rfl, rfl, fun _ _ => rfl, fun _ _ _ => rfl, ?_⟩, rfl, rfl, rfl⟩, ?_⟩
  · intro j hj l
    exact (db.cardLabels.get?_insert _ (j, l) _ hfresh).trans (if_neg (by simp [hj]))
  · simp [Table.contains, Table.get?_insert]

/-- A label is attached to an existing card only. -/
theorem Database.insertCardLabel_keys {db db' : Database} {cardId labelId : Uuid}
    (h : db.insertCardLabel cardId labelId = .ok db') :
    db.cardLabels.get? (cardId, labelId) = none ∧ db.cards.contains cardId = true ∧
      db.labels.contains labelId = true := by
  rw [insertCardLabel] at h
  split at h
  · next hfresh =>
      split at h
      · next hkeys =>
          exact ⟨hfresh, hkeys⟩
      · cases h
  · cases h

/-- An upsert that is not refused adds a label to the card or nothing. -/
theorem Database.upsertCardLabel_links {db db' : Database} {cardId labelId : Uuid}
    (h : db.upsertCardLabel cardId labelId = .ok db') : OnlyLinks db db' cardId := by
  rw [upsertCardLabel] at h
  split at h
  · cases h
    exact OnlyLinks.refl db cardId
  · obtain ⟨hfresh, hcard, hlabel⟩ := insertCardLabel_keys h
    obtain ⟨db₁, hinsert, hlinks, -⟩ := insertCardLabel_ok hfresh hcard hlabel
    obtain rfl := Except.ok.inj (hinsert.symm.trans h)
    exact hlinks

theorem Database.upsertCardLabel_ok {db : Database} {cardId labelId : Uuid}
    (hcard : db.cards.contains cardId = true) (hlabel : db.labels.contains labelId = true) :
    ∃ db', db.upsertCardLabel cardId labelId = .ok db' ∧ OnlyLinks db db' cardId ∧
      db'.cardLabels.contains (cardId, labelId) = true := by
  rw [upsertCardLabel]
  split
  · next hpresent =>
      exact ⟨db, rfl, OnlyLinks.refl db cardId, hpresent⟩
  · next habsent =>
      exact insertCardLabel_ok (by simpa [Table.contains] using habsent) hcard hlabel

theorem Database.upsertCardLabel_present {db : Database} {cardId labelId : Uuid}
    (h : db.cardLabels.contains (cardId, labelId) = true) :
    db.upsertCardLabel cardId labelId = .ok db := by
  rw [upsertCardLabel, if_pos h]

theorem onlyLinks_deleteCardAssignee (db : Database) (cardId userId : Uuid) :
    OnlyLinks db (db.deleteCardAssignee cardId userId) cardId := by
  refine ⟨⟨rfl, rfl, fun _ _ => rfl, ?_, fun _ _ _ => rfl⟩, rfl, rfl, rfl⟩
  intro j hj u
  exact (db.cardAssignees.get?_delete _ (j, u)).trans (if_neg (by simp [hj]))

theorem onlyLinks_deleteCardLabel (db : Database) (cardId labelId : Uuid) :
    OnlyLinks db (db.deleteCardLabel cardId labelId) cardId := by
  refine ⟨⟨rfl, rfl, fun _ _ => rfl, fun _ _ _ => rfl, ?_⟩, rfl, rfl, rfl⟩
  intro j hj l
  exact (db.cardLabels.get?_delete _ (j, l)).trans (if_neg (by simp [hj]))

/-- A card is inserted where its id is free and its row is accepted. -/
theorem Database.insertCard_ok {db db' : Database} {id : Uuid} {card : CardRow}
    (h : db.insertCard id card = .ok db') :
    db.cards.get? id = none ∧ db.users.contains card.createdBy = true ∧
      charCount card.rank ≤ rankWidth ∧ OnlyCard db db' id ∧ db'.cards.get? id = some card ∧
      db'.users = db.users ∧ db'.labels = db.labels := by
  rw [insertCard] at h
  split at h
  · next hfresh =>
      split at h
      · next haccepted =>
          cases h
          refine ⟨hfresh, haccepted.2.1, haccepted.2.2.2,
            ⟨rfl, rfl, ?_, fun _ _ _ => rfl, fun _ _ _ => rfl⟩, ?_, rfl, rfl⟩
          · intro j hj
            exact (db.cards.get?_insert id j card hfresh).trans (if_neg hj)
          · exact (db.cards.get?_insert id id card hfresh).trans (if_pos rfl)
      · cases h
  · cases h

theorem Database.insertCard_of_accepted {db : Database} {id : Uuid} {card : CardRow}
    (hfresh : db.cards.get? id = none) (haccepted : card.Accepted db.toTables) :
    ∃ db', db.insertCard id card = .ok db' := by
  rw [insertCard, dif_pos hfresh, dif_pos (haccepted.setCards (db.cards.grows_insert hfresh))]
  exact ⟨_, rfl⟩

/-- The transaction of `create` goes through where the card is inserted and the
assignees and labels exist. -/
theorem CardRepository.create_ok {db db₁ : Database} {id : Uuid} {data : CardRow}
    {assigneeIds labelIds : List Uuid} (now : Timestamp) (h : db.insertCard id data = .ok db₁)
    (husers : ∀ u ∈ assigneeIds, db.users.contains u = true)
    (hlabels : ∀ l ∈ labelIds, db.labels.contains l = true) :
    ∃ card db', create db id data assigneeIds labelIds now = .ok (card, db') ∧
      OnlyLinks db₁ db' id := by
  obtain ⟨-, -, -, -, hget, hu, hl⟩ := Database.insertCard_ok h
  have hcard : db₁.cards.contains id = true := (db₁.cards.contains_iff id).mpr ⟨data, hget⟩
  have hassign : ∀ u ∈ assigneeIds, ∀ s, OnlyLinks db₁ s id →
      ∃ t, s.upsertCardAssignee id u now = .ok t ∧ OnlyLinks db₁ t id := by
    intro u hmem s hs
    have huser : s.users.contains u = true := by
      rw [hs.users, hu]
      exact husers u hmem
    obtain ⟨t, ht, hst, -⟩ := Database.upsertCardAssignee_ok now (hs.allCards ▸ hcard) huser
    exact ⟨t, ht, hs.trans hst⟩
  have hattach : ∀ l ∈ labelIds, ∀ s, OnlyLinks db₁ s id →
      ∃ t, s.upsertCardLabel id l = .ok t ∧ OnlyLinks db₁ t id := by
    intro l hmem s hs
    have hlabel : s.labels.contains l = true := by
      rw [hs.labels, hl]
      exact hlabels l hmem
    obtain ⟨t, ht, hst, -⟩ := Database.upsertCardLabel_ok (hs.allCards ▸ hcard) hlabel
    exact ⟨t, ht, hs.trans hst⟩
  obtain ⟨db₂, h₂, hlinks₂⟩ := foldlM_ok hassign (OnlyLinks.refl db₁ id)
  obtain ⟨db₃, h₃, hlinks₃⟩ := foldlM_ok hattach hlinks₂
  refine ⟨withDetails db₃ id data, db₃, ?_, hlinks₃⟩
  have hget₃ : db₃.cards.get? id = some data := by
    rw [hlinks₃.allCards]
    exact hget
  simp only [create, h, h₂, h₃, hget₃, bind, Except.bind, pure, Except.pure]

/-- The transaction of `create` inserts the card and returns it as the table has it. -/
theorem CardRepository.create_inserts {db db' : Database} {id : Uuid} {data : CardRow}
    {assigneeIds labelIds : List Uuid} {now : Timestamp} {card : CardWithDetails}
    (h : create db id data assigneeIds labelIds now = .ok (card, db')) :
    ∃ db₁, db.insertCard id data = .ok db₁ ∧ OnlyLinks db₁ db' id ∧ card.toCard = ⟨id, data⟩ := by
  simp only [create, bind_eq_ok] at h
  obtain ⟨db₁, hinsert, db₂, hassign, db₃, hattach, h⟩ := h
  obtain ⟨-, -, -, -, hget, -, -⟩ := Database.insertCard_ok hinsert
  have hlinks₂ : OnlyLinks db₁ db₂ id :=
    foldlM_keeps (I := fun s => OnlyLinks db₁ s id)
      (fun _ _ _ hs hstep => hs.trans (Database.upsertCardAssignee_links hstep)) hassign
      (OnlyLinks.refl db₁ id)
  have hlinks₃ : OnlyLinks db₁ db₃ id :=
    foldlM_keeps (I := fun s => OnlyLinks db₁ s id)
      (fun _ _ _ hs hstep => hs.trans (Database.upsertCardLabel_links hstep)) hattach hlinks₂
  rw [hlinks₃.allCards, hget] at h
  obtain ⟨rfl, rfl⟩ := Prod.mk.inj (Except.ok.inj h)
  exact ⟨db₁, hinsert, hlinks₃, rfl⟩

/-- An update rewrites one existing card. -/
theorem CardRepository.update_ok {db db' : Database} {id : Uuid} {data : CardRow → CardRow}
    {now : Timestamp} {card : Card} (h : update db id data now = .ok (card, db')) :
    OnlyCard db db' id ∧ ∃ row, db.cards.get? id = some row ∧
      db'.cards.get? id = some { data row with updatedAt := now } := by
  rw [update] at h
  split at h
  · cases h
  · next row hrow =>
      dsimp only at h
      rw [Database.updateCard] at h
      split at h
      · cases h
        refine ⟨⟨rfl, rfl, ?_, fun _ _ _ => rfl, fun _ _ _ => rfl⟩, row, hrow, ?_⟩
        · intro j hj
          exact (db.cards.get?_modify id j _).trans (if_neg hj)
        · exact (db.cards.get?_modify_self id _).trans (by rw [hrow]; rfl)
      · cases h

/-- No board, list, card, assignee or card label differs. -/
structure SameCards (db db' : Database) : Prop where
  boards : db'.boards = db.boards
  lists : db'.lists = db.lists
  cards : db'.cards = db.cards
  cardAssignees : db'.cardAssignees = db.cardAssignees
  cardLabels : db'.cardLabels = db.cardLabels

theorem SameCards.refl (db : Database) : SameCards db db :=
  ⟨rfl, rfl, rfl, rfl, rfl⟩

theorem SameCards.onlyCard {db db' : Database} (h : SameCards db db') (cardId : Uuid) :
    OnlyCard db db' cardId where
  boards := h.boards
  lists := h.lists
  cards _ _ := by rw [h.cards]
  cardAssignees _ _ _ := by rw [h.cardAssignees]
  cardLabels _ _ _ := by rw [h.cardLabels]

theorem Database.insertLabel_ok {db db' : Database} {id : Uuid} {label : LabelRow}
    (h : db.insertLabel id label = .ok db') :
    db.labels.get? id = none ∧ db.workspaces.contains label.workspaceId = true ∧
      SameCards db db' ∧ db'.labels.contains id = true := by
  rw [insertLabel] at h
  split at h
  · next hfresh =>
      split at h
      · next hkey =>
          cases h
          refine ⟨hfresh, hkey, ⟨rfl, rfl, rfl, rfl, rfl⟩, ?_⟩
          simp [Table.contains, Table.get?_insert]
      · cases h
  · cases h

theorem Database.insertLabel_of_accepted {db : Database} {id : Uuid} {label : LabelRow}
    (hfresh : db.labels.get? id = none)
    (hkey : db.workspaces.contains label.workspaceId = true) :
    ∃ db', db.insertLabel id label = .ok db' := by
  rw [insertLabel, dif_pos hfresh, dif_pos hkey]
  exact ⟨_, rfl⟩

/-- No card has a label that does not exist. -/
theorem cardLabel_fresh {db : Database} {labelId : Uuid} (h : db.labels.get? labelId = none)
    (cardId : Uuid) : db.cardLabels.get? (cardId, labelId) = none := by
  cases hget : db.cardLabels.get? (cardId, labelId) with
  | none =>
      rfl
  | some row =>
      have hlabel := (db.wellFormed.cardLabels _ row hget).2
      simp [Table.contains, h] at hlabel

/-- Without a card, `createWithCard` changes no card. -/
theorem LabelRepository.createWithCard_none {db db' : Database} {id : Uuid} {data : LabelRow}
    {label : Label} (h : createWithCard db id data none = .ok (label, db')) :
    SameCards db db' := by
  cases hi : db.insertLabel id data with
  | error e =>
      simp [createWithCard, hi, bind, Except.bind] at h
  | ok db₁ =>
      simp only [createWithCard, hi, bind, Except.bind, pure, Except.pure, Except.ok.injEq,
        Prod.mk.injEq] at h
      exact h.2 ▸ (Database.insertLabel_ok hi).2.2.1

/-- With a card, `createWithCard` attaches the new label to it and to no other. -/
theorem LabelRepository.createWithCard_some {db db' : Database} {id cardId : Uuid}
    {data : LabelRow} {label : Label}
    (h : createWithCard db id data (some cardId) = .ok (label, db')) :
    db.labels.get? id = none ∧ db.workspaces.contains data.workspaceId = true ∧
      db.cards.contains cardId = true ∧ OnlyCard db db' cardId ∧ db'.cards = db.cards ∧
      db'.cardLabels.contains (cardId, id) = true := by
  cases hi : db.insertLabel id data with
  | error e =>
      simp [createWithCard, hi, bind, Except.bind] at h
  | ok db₁ =>
      obtain ⟨hfresh, hkey, hsame, -⟩ := Database.insertLabel_ok hi
      cases hl : db₁.insertCardLabel cardId id with
      | error e =>
          simp [createWithCard, hi, hl, bind, Except.bind] at h
      | ok db₂ =>
          obtain ⟨hnone, hcard, hlabel⟩ := Database.insertCardLabel_keys hl
          obtain ⟨db₃, h₃, hlinks, hafter⟩ := Database.insertCardLabel_ok hnone hcard hlabel
          rw [hl] at h₃
          cases h₃
          simp only [createWithCard, hi, hl, bind, Except.bind, pure, Except.pure,
            Except.ok.injEq, Prod.mk.injEq] at h
          rw [← h.2]
          exact ⟨hfresh, hkey, hsame.cards ▸ hcard,
            (hsame.onlyCard cardId).trans hlinks.toOnlyCard,
            hlinks.allCards.trans hsame.cards, hafter⟩

theorem LabelRepository.createWithCard_of_accepted {db : Database} {id cardId : Uuid}
    {data : LabelRow} (hfresh : db.labels.get? id = none)
    (hkey : db.workspaces.contains data.workspaceId = true)
    (hcard : db.cards.contains cardId = true) :
    ∃ label db', createWithCard db id data (some cardId) = .ok (label, db') := by
  obtain ⟨db₁, hi⟩ := Database.insertLabel_of_accepted hfresh hkey
  obtain ⟨-, -, hsame, hlabel⟩ := Database.insertLabel_ok hi
  have hnone : db₁.cardLabels.get? (cardId, id) = none := by
    rw [hsame.cardLabels]
    exact cardLabel_fresh hfresh cardId
  obtain ⟨db₂, hl, -, -⟩ :=
    Database.insertCardLabel_ok hnone (hsame.cards.symm ▸ hcard) hlabel
  refine ⟨⟨id, data⟩, db₂, ?_⟩
  simp only [createWithCard, hi, hl, bind, Except.bind, pure, Except.pure]

end SyncBoard.Board
