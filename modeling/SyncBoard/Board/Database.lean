import SyncBoard.Basic
import SyncBoard.Lib.Table

/-!
# The board tables

The tables of the schema that the board, list, card, checklist and label services
read or write, with their foreign keys and column widths. A `Database` carries
the proof that every row satisfies its constraints, so a dangling card or label
row cannot be built; each write checks the constraints of the row it writes, as
PostgreSQL does.

## Implementation notes

Members, users and workspaces are written by other services and only read here;
of their columns the ones read are kept. A unit row stands for a row whose
columns are its key. `rank` is the one bounded column whose value these services
compute; titles, contents and label names come through the DTO bounds, which are
those of their columns. A card's `description` is the text of its JSON. Nothing
reads `createdAt` or `starredAt`.
-/

namespace SyncBoard.Board

open Relational

/-- `CardPriority`. -/
inductive CardPriority
  | lowest
  | low
  | medium
  | high
  | urgent
  deriving DecidableEq, Repr

/-- `CardStatus`. -/
inductive CardStatus
  | notStarted
  | active
  | done
  | closed
  deriving DecidableEq, Repr

/-- A row of `boards`. -/
structure BoardRow where
  workspaceId : Uuid
  title : JsString
  description : Option JsString := none
  backgroundColor : Option JsString := some (js "#1A1A2E")
  createdBy : Uuid
  updatedAt : Timestamp
  archivedAt : Option Timestamp := none
  deletedAt : Option Timestamp := none
  deriving DecidableEq, Repr

/-- A row of `lists`. -/
structure ListRow where
  boardId : Uuid
  title : JsString
  rank : JsString
  updatedAt : Timestamp
  archivedAt : Option Timestamp := none
  deletedAt : Option Timestamp := none
  deriving DecidableEq, Repr

/-- A row of `cards`. -/
structure CardRow where
  listId : Uuid
  title : JsString
  description : Option JsString := none
  rank : JsString
  dueDate : Option Timestamp := none
  isComplete : Bool := false
  coverImageUrl : Option JsString := none
  priority : CardPriority := .medium
  status : CardStatus := .notStarted
  parentCardId : Option Uuid := none
  estimateMinutes : Option Nat := none
  loggedMinutes : Nat := 0
  createdBy : Uuid
  updatedAt : Timestamp
  archivedAt : Option Timestamp := none
  deletedAt : Option Timestamp := none
  deriving DecidableEq, Repr

/-- A row of `card_assignees`, under the card and the user. -/
structure CardAssigneeRow where
  assignedAt : Timestamp
  deriving DecidableEq, Repr

/-- A row of `labels`. -/
structure LabelRow where
  workspaceId : Uuid
  name : Option JsString := none
  color : JsString
  deriving DecidableEq, Repr

/-- A row of `card_checklists`. -/
structure ChecklistRow where
  cardId : Uuid
  title : JsString
  rank : JsString
  updatedAt : Timestamp
  deriving DecidableEq, Repr

/-- A row of `checklist_items`. -/
structure ChecklistItemRow where
  checklistId : Uuid
  content : JsString
  isDone : Bool := false
  rank : JsString
  updatedAt : Timestamp
  deriving DecidableEq, Repr

/-- The tables; members are under workspace and user, stars under user and board,
card labels under card and label. -/
@[ext]
structure Tables where
  workspaces : Table Uuid Unit := Table.empty
  users : Table Uuid Unit := Table.empty
  members : Table (Uuid × Uuid) Unit := Table.empty
  boards : Table Uuid BoardRow := Table.empty
  starredBoards : Table (Uuid × Uuid) Unit := Table.empty
  lists : Table Uuid ListRow := Table.empty
  cards : Table Uuid CardRow := Table.empty
  cardAssignees : Table (Uuid × Uuid) CardAssigneeRow := Table.empty
  cardLabels : Table (Uuid × Uuid) Unit := Table.empty
  labels : Table Uuid LabelRow := Table.empty
  checklists : Table Uuid ChecklistRow := Table.empty
  checklistItems : Table Uuid ChecklistItemRow := Table.empty

/-- `rank` is a `VarChar(50)`. -/
def rankWidth : Nat := 50

/-- The foreign keys of a card and the width of its rank. -/
def CardRow.Accepted (t : Tables) (card : CardRow) : Prop :=
  t.lists.contains card.listId = true ∧ t.users.contains card.createdBy = true ∧
    card.parentCardId.all t.cards.contains = true ∧ charCount card.rank ≤ rankWidth

instance (t : Tables) (card : CardRow) : Decidable (card.Accepted t) :=
  inferInstanceAs (Decidable (_ ∧ _))

/-- The foreign keys of a board. -/
def BoardRow.Accepted (t : Tables) (board : BoardRow) : Prop :=
  t.workspaces.contains board.workspaceId = true ∧ t.users.contains board.createdBy = true

/-- The foreign key of a list and the width of its rank. -/
def ListRow.Accepted (t : Tables) (list : ListRow) : Prop :=
  t.boards.contains list.boardId = true ∧ charCount list.rank ≤ rankWidth

/-- The foreign key of a checklist and the width of its rank. -/
def ChecklistRow.Accepted (t : Tables) (checklist : ChecklistRow) : Prop :=
  t.cards.contains checklist.cardId = true ∧ charCount checklist.rank ≤ rankWidth

/-- The foreign key of a checklist item and the width of its rank. -/
def ChecklistItemRow.Accepted (t : Tables) (item : ChecklistItemRow) : Prop :=
  t.checklists.contains item.checklistId = true ∧ charCount item.rank ≤ rankWidth

instance (t : Tables) (board : BoardRow) : Decidable (board.Accepted t) :=
  inferInstanceAs (Decidable (_ ∧ _))

instance (t : Tables) (list : ListRow) : Decidable (list.Accepted t) :=
  inferInstanceAs (Decidable (_ ∧ _))

instance (t : Tables) (checklist : ChecklistRow) : Decidable (checklist.Accepted t) :=
  inferInstanceAs (Decidable (_ ∧ _))

instance (t : Tables) (item : ChecklistItemRow) : Decidable (item.Accepted t) :=
  inferInstanceAs (Decidable (_ ∧ _))

/-- Every row satisfies the constraints of its table. -/
structure Tables.WellFormed (t : Tables) : Prop where
  members : t.members.All fun k _ =>
    t.workspaces.contains k.1 = true ∧ t.users.contains k.2 = true
  boards : t.boards.All fun _ board => board.Accepted t
  starredBoards : t.starredBoards.All fun k _ =>
    t.users.contains k.1 = true ∧ t.boards.contains k.2 = true
  lists : t.lists.All fun _ list => list.Accepted t
  cards : t.cards.All fun _ card => card.Accepted t
  cardAssignees : t.cardAssignees.All fun k _ =>
    t.cards.contains k.1 = true ∧ t.users.contains k.2 = true
  cardLabels : t.cardLabels.All fun k _ =>
    t.cards.contains k.1 = true ∧ t.labels.contains k.2 = true
  labels : t.labels.All fun _ label => t.workspaces.contains label.workspaceId = true
  checklists : t.checklists.All fun _ checklist => checklist.Accepted t
  checklistItems : t.checklistItems.All fun _ item => item.Accepted t

/-- Tables whose rows satisfy their constraints. -/
structure Database extends Tables where
  wellFormed : toTables.WellFormed

/-- A card's constraints survive a write to `cards` that loses no card. -/
theorem CardRow.Accepted.setCards {t : Tables} {card : CardRow} (h : card.Accepted t)
    {cards : Table Uuid CardRow}
    (hgrow : t.cards.Grows cards) :
    card.Accepted { t with cards := cards } := by
  obtain ⟨hl, hu, hp, hr⟩ := h
  refine ⟨hl, hu, ?_, hr⟩
  cases hparent : card.parentCardId with
  | none =>
      rfl
  | some p =>
      rw [hparent] at hp
      exact hgrow p hp

namespace Tables.WellFormed
variable {t : Tables}

/-- The constraints survive a write to `cards` that loses no card and whose
rows are accepted. -/
theorem setCards (h : t.WellFormed) {cards : Table Uuid CardRow}
    (hgrow : t.cards.Grows cards)
    (hrows : cards.All fun _ card => card.Accepted { t with cards := cards }) :
    Tables.WellFormed { t with cards := cards } where
  members := h.members
  boards := h.boards
  starredBoards := h.starredBoards
  lists := h.lists
  cards := hrows
  cardAssignees := h.cardAssignees.imp fun _ _ hk => ⟨hgrow _ hk.1, hk.2⟩
  cardLabels := h.cardLabels.imp fun _ _ hk => ⟨hgrow _ hk.1, hk.2⟩
  labels := h.labels
  checklists := h.checklists.imp fun _ _ hc => ⟨hgrow _ hc.1, hc.2⟩
  checklistItems := h.checklistItems

theorem insertCard (h : t.WellFormed) {id : Uuid} {card : CardRow}
    (hfresh : t.cards.get? id = none)
    (haccepted : card.Accepted { t with cards := t.cards.insert id card hfresh }) :
    Tables.WellFormed { t with cards := t.cards.insert id card hfresh } := by
  have hgrow : t.cards.Grows (t.cards.insert id card hfresh) := t.cards.grows_insert hfresh
  apply h.setCards hgrow
  exact (h.cards.imp fun _ _ hc => hc.setCards hgrow).insert hfresh haccepted

theorem updateCard (h : t.WellFormed) (id : Uuid) {card : CardRow} (haccepted : card.Accepted t) :
    Tables.WellFormed { t with cards := t.cards.modify id fun _ => card } := by
  have hgrow := t.cards.grows_modify id fun _ => card
  apply h.setCards hgrow
  exact (h.cards.imp fun _ _ hc => hc.setCards hgrow).modify fun _ _ => haccepted.setCards hgrow

/-- The constraints survive a write to `boards` that loses no board and whose rows
are accepted. -/
theorem setBoards (h : t.WellFormed) {boards : Table Uuid BoardRow}
    (hgrow : t.boards.Grows boards)
    (hrows : boards.All fun _ board => board.Accepted t) :
    Tables.WellFormed { t with boards := boards } where
  members := h.members
  boards := hrows
  starredBoards := h.starredBoards.imp fun _ _ hk => ⟨hk.1, hgrow _ hk.2⟩
  lists := h.lists.imp fun _ _ hl => ⟨hgrow _ hl.1, hl.2⟩
  cards := h.cards
  cardAssignees := h.cardAssignees
  cardLabels := h.cardLabels
  labels := h.labels
  checklists := h.checklists
  checklistItems := h.checklistItems

/-- The constraints survive a write to `lists` that loses no list and whose rows
are accepted. -/
theorem setLists (h : t.WellFormed) {lists : Table Uuid ListRow} (hgrow : t.lists.Grows lists)
    (hrows : lists.All fun _ list => list.Accepted t) :
    Tables.WellFormed { t with lists := lists } where
  members := h.members
  boards := h.boards
  starredBoards := h.starredBoards
  lists := hrows
  cards := h.cards.imp fun _ _ hc => ⟨hgrow _ hc.1, hc.2⟩
  cardAssignees := h.cardAssignees
  cardLabels := h.cardLabels
  labels := h.labels
  checklists := h.checklists
  checklistItems := h.checklistItems

end Tables.WellFormed

/-- The error of a row with a rank that is not accepted: its rank is too long, or a
foreign key is violated. -/
def rejection (rank : JsString) : DbError :=
  if rankWidth < charCount rank then .valueTooLong else .foreignKeyViolation

/-- The error of a card row that is not accepted. -/
def CardRow.rejection (card : CardRow) : DbError :=
  Board.rejection card.rank

namespace Database

/-- Insert a row of `boards`. -/
def insertBoard (db : Database) (id : Uuid) (board : BoardRow) : Except DbError Database :=
  if hfresh : db.boards.get? id = none then
    if haccepted : board.Accepted db.toTables then
      .ok
        { toTables := { db.toTables with boards := db.boards.insert id board hfresh }
          wellFormed := db.wellFormed.setBoards (db.boards.grows_insert hfresh)
            (db.wellFormed.boards.insert hfresh haccepted) }
    else .error .foreignKeyViolation
  else .error .uniqueViolation

/-- Replace a row of `boards`. -/
def updateBoard (db : Database) (id : Uuid) (board : BoardRow) : Except DbError Database :=
  if haccepted : board.Accepted db.toTables then
    .ok
      { toTables := { db.toTables with boards := db.boards.modify id fun _ => board }
        wellFormed := db.wellFormed.setBoards (db.boards.grows_modify id _)
          (db.wellFormed.boards.modify fun _ _ => haccepted) }
  else .error .foreignKeyViolation

/-- Insert a row of `user_starred_boards` where the user has not starred the board. -/
def upsertStar (db : Database) (userId boardId : Uuid) : Except DbError Database :=
  if hfresh : db.starredBoards.get? (userId, boardId) = none then
    if hkeys : db.users.contains userId = true ∧ db.boards.contains boardId = true then
      .ok
        { toTables :=
            { db.toTables with
              starredBoards := db.starredBoards.insert (userId, boardId) () hfresh }
          wellFormed :=
            { db.wellFormed with
              starredBoards := db.wellFormed.starredBoards.insert hfresh hkeys } }
    else .error .foreignKeyViolation
  else .ok db

/-- Delete the rows of `user_starred_boards` with the user and the board. -/
def deleteStar (db : Database) (userId boardId : Uuid) : Database where
  toTables := { db.toTables with starredBoards := db.starredBoards.delete (userId, boardId) }
  wellFormed :=
    { db.wellFormed with
      starredBoards := db.wellFormed.starredBoards.delete (userId, boardId) }

/-- Insert a row of `lists`. -/
def insertList (db : Database) (id : Uuid) (list : ListRow) : Except DbError Database :=
  if hfresh : db.lists.get? id = none then
    if haccepted : list.Accepted db.toTables then
      .ok
        { toTables := { db.toTables with lists := db.lists.insert id list hfresh }
          wellFormed := db.wellFormed.setLists (db.lists.grows_insert hfresh)
            (db.wellFormed.lists.insert hfresh haccepted) }
    else .error (rejection list.rank)
  else .error .uniqueViolation

/-- Replace a row of `lists`. -/
def updateList (db : Database) (id : Uuid) (list : ListRow) : Except DbError Database :=
  if haccepted : list.Accepted db.toTables then
    .ok
      { toTables := { db.toTables with lists := db.lists.modify id fun _ => list }
        wellFormed := db.wellFormed.setLists (db.lists.grows_modify id _)
          (db.wellFormed.lists.modify fun _ _ => haccepted) }
  else .error (rejection list.rank)

/-- Insert a row of `card_checklists`. -/
def insertChecklist (db : Database) (id : Uuid) (checklist : ChecklistRow) :
    Except DbError Database :=
  if hfresh : db.checklists.get? id = none then
    if haccepted : checklist.Accepted db.toTables then
      .ok
        { toTables := { db.toTables with checklists := db.checklists.insert id checklist hfresh }
          wellFormed :=
            { db.wellFormed with
              checklists := db.wellFormed.checklists.insert hfresh haccepted
              checklistItems := db.wellFormed.checklistItems.imp fun _ _ hi =>
                ⟨db.checklists.grows_insert hfresh _ hi.1, hi.2⟩ } }
    else .error (rejection checklist.rank)
  else .error .uniqueViolation

/-- Replace a row of `card_checklists`. -/
def updateChecklist (db : Database) (id : Uuid) (checklist : ChecklistRow) :
    Except DbError Database :=
  if haccepted : checklist.Accepted db.toTables then
    .ok
      { toTables :=
          { db.toTables with checklists := db.checklists.modify id fun _ => checklist }
        wellFormed :=
          { db.wellFormed with
            checklists := db.wellFormed.checklists.modify fun _ _ => haccepted
            checklistItems := db.wellFormed.checklistItems.imp fun _ _ hi =>
              ⟨db.checklists.grows_modify id _ _ hi.1, hi.2⟩ } }
  else .error (rejection checklist.rank)

/-- Delete a row of `card_checklists`; its items go with it. -/
def deleteChecklist (db : Database) (id : Uuid) : Database where
  toTables :=
    { db.toTables with
      checklists := db.checklists.delete id
      checklistItems := db.checklistItems.deleteWhere fun _ item => item.checklistId == id }
  wellFormed :=
    { db.wellFormed with
      checklists := db.wellFormed.checklists.delete id
      checklistItems := by
        intro itemId item hitem
        obtain ⟨hitem, hkept⟩ := Table.get?_deleteWhere_eq_some.mp hitem
        have hother : item.checklistId ≠ id := by simpa using hkept
        obtain ⟨hchecklist, hrank⟩ := db.wellFormed.checklistItems itemId item hitem
        refine ⟨?_, hrank⟩
        rw [Table.contains, Table.get?_delete, if_neg hother]
        exact hchecklist }

/-- Insert a row of `checklist_items`. -/
def insertChecklistItem (db : Database) (id : Uuid) (item : ChecklistItemRow) :
    Except DbError Database :=
  if hfresh : db.checklistItems.get? id = none then
    if haccepted : item.Accepted db.toTables then
      .ok
        { toTables :=
            { db.toTables with checklistItems := db.checklistItems.insert id item hfresh }
          wellFormed :=
            { db.wellFormed with
              checklistItems := db.wellFormed.checklistItems.insert hfresh haccepted } }
    else .error (rejection item.rank)
  else .error .uniqueViolation

/-- Replace a row of `checklist_items`. -/
def updateChecklistItem (db : Database) (id : Uuid) (item : ChecklistItemRow) :
    Except DbError Database :=
  if haccepted : item.Accepted db.toTables then
    .ok
      { toTables :=
          { db.toTables with checklistItems := db.checklistItems.modify id fun _ => item }
        wellFormed :=
          { db.wellFormed with
            checklistItems := db.wellFormed.checklistItems.modify fun _ _ => haccepted } }
  else .error (rejection item.rank)

/-- Delete a row of `checklist_items`. -/
def deleteChecklistItem (db : Database) (id : Uuid) : Database where
  toTables := { db.toTables with checklistItems := db.checklistItems.delete id }
  wellFormed :=
    { db.wellFormed with checklistItems := db.wellFormed.checklistItems.delete id }

/-- Insert a row of `cards`. -/
def insertCard (db : Database) (id : Uuid) (card : CardRow) : Except DbError Database :=
  if hfresh : db.cards.get? id = none then
    if haccepted : card.Accepted { db.toTables with cards := db.cards.insert id card hfresh } then
      .ok
        { toTables := { db.toTables with cards := db.cards.insert id card hfresh }
          wellFormed := db.wellFormed.insertCard hfresh haccepted }
    else .error card.rejection
  else .error .uniqueViolation

/-- Replace a row of `cards`. -/
def updateCard (db : Database) (id : Uuid) (card : CardRow) : Except DbError Database :=
  if haccepted : card.Accepted db.toTables then
    .ok
      { toTables := { db.toTables with cards := db.cards.modify id fun _ => card }
        wellFormed := db.wellFormed.updateCard id haccepted }
  else .error card.rejection

/-- Insert a row of `card_assignees` where the card does not have the user. -/
def upsertCardAssignee (db : Database) (cardId userId : Uuid) (now : Timestamp) :
    Except DbError Database :=
  if hfresh : db.cardAssignees.get? (cardId, userId) = none then
    if hkeys : db.cards.contains cardId = true ∧ db.users.contains userId = true then
      .ok
        { toTables :=
            { db.toTables with
              cardAssignees := db.cardAssignees.insert (cardId, userId) ⟨now⟩ hfresh }
          wellFormed :=
            { db.wellFormed with
              cardAssignees := db.wellFormed.cardAssignees.insert hfresh hkeys } }
    else .error .foreignKeyViolation
  else .ok db

/-- Delete the rows of `card_assignees` with the card and the user. -/
def deleteCardAssignee (db : Database) (cardId userId : Uuid) : Database where
  toTables := { db.toTables with cardAssignees := db.cardAssignees.delete (cardId, userId) }
  wellFormed :=
    { db.wellFormed with
      cardAssignees := db.wellFormed.cardAssignees.delete (cardId, userId) }

/-- Insert a row of `card_labels`. -/
def insertCardLabel (db : Database) (cardId labelId : Uuid) : Except DbError Database :=
  if hfresh : db.cardLabels.get? (cardId, labelId) = none then
    if hkeys : db.cards.contains cardId = true ∧ db.labels.contains labelId = true then
      .ok
        { toTables :=
            { db.toTables with cardLabels := db.cardLabels.insert (cardId, labelId) () hfresh }
          wellFormed :=
            { db.wellFormed with cardLabels := db.wellFormed.cardLabels.insert hfresh hkeys } }
    else .error .foreignKeyViolation
  else .error .uniqueViolation

/-- Insert a row of `card_labels` where the card does not have the label. -/
def upsertCardLabel (db : Database) (cardId labelId : Uuid) : Except DbError Database :=
  if db.cardLabels.contains (cardId, labelId) then .ok db
  else db.insertCardLabel cardId labelId

/-- Delete the rows of `card_labels` with the card and the label. -/
def deleteCardLabel (db : Database) (cardId labelId : Uuid) : Database where
  toTables := { db.toTables with cardLabels := db.cardLabels.delete (cardId, labelId) }
  wellFormed :=
    { db.wellFormed with cardLabels := db.wellFormed.cardLabels.delete (cardId, labelId) }

/-- Insert a row of `labels`. -/
def insertLabel (db : Database) (id : Uuid) (label : LabelRow) : Except DbError Database :=
  if hfresh : db.labels.get? id = none then
    if hkey : db.workspaces.contains label.workspaceId = true then
      .ok
        { toTables := { db.toTables with labels := db.labels.insert id label hfresh }
          wellFormed :=
            { db.wellFormed with
              labels := db.wellFormed.labels.insert hfresh hkey
              cardLabels := db.wellFormed.cardLabels.imp fun _ _ hk =>
                ⟨hk.1, db.labels.grows_insert hfresh _ hk.2⟩ } }
    else .error .foreignKeyViolation
  else .error .uniqueViolation

end Database

end SyncBoard.Board
