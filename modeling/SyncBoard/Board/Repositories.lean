import Mathlib.Data.List.Sort
import SyncBoard.Board.Database

/-!
# The repositories of the board module

`BoardRepository`, `ListRepository`, `CardRepository`, `ChecklistRepository` and
`LabelRepository`, as far as the mutating services call them. A read is a
function of the database. A write returns the database it leaves, or the error
with which the statement or the transaction fails as a whole.

## Implementation notes

The id of a new row and the clock reading of a write are arguments. Of the
relations that a card is loaded with, the keys are kept: the users assigned to
it and its labels. A query ordered by `rank` takes the order of the column, `le`.
-/

namespace SyncBoard.Board

open Relational

/-- What a service call throws. -/
inductive AppError
  | entityNotFound (entityName : String) (entityId : Uuid)
  | businessRule (code message : String)
  | badRequest (message : String)
  | appException (code message : String) (status : Nat)
  | database (error : DbError)
  deriving DecidableEq, Repr

/-- A loaded card. -/
structure Card where
  id : Uuid
  row : CardRow
  deriving DecidableEq, Repr

/-- A card with the users assigned to it and its labels. -/
structure CardWithDetails extends Card where
  assignees : List Uuid
  labels : List Uuid
  deriving DecidableEq, Repr

/-- A loaded label. -/
structure Label where
  id : Uuid
  row : LabelRow
  deriving DecidableEq, Repr

/-- A loaded row of another table. -/
structure Loaded (ρ : Type) where
  id : Uuid
  row : ρ
  deriving DecidableEq, Repr

/-- The statement that rewrites the row under an id; without one it fails. -/
def updateRow {ρ : Type} (found : Option ρ) (put : ρ → Except DbError Database) (id : Uuid)
    (data : ρ → ρ) : Except DbError (Loaded ρ × Database) :=
  match found with
  | none => .error .recordNotFound
  | some row => (put (data row)).map fun db => (⟨id, data row⟩, db)

/-- `BoardRepository.findById`: the active board, of the workspace where one is
given. -/
def BoardRepository.findById (db : Database) (id : Uuid) (workspaceId : Option Uuid) :
    Option BoardRow :=
  (db.boards.get? id).filter fun board =>
    board.archivedAt.isNone && board.deletedAt.isNone &&
      workspaceId.all fun w => board.workspaceId == w

namespace BoardRepository

def findByIdIncludingArchived (db : Database) (id : Uuid) (workspaceId : Option Uuid) :
    Option BoardRow :=
  (db.boards.get? id).filter fun board => workspaceId.all fun w => board.workspaceId == w

def findByIdIncludingDeleted (db : Database) (id : Uuid) (workspaceId : Option Uuid) :
    Option BoardRow :=
  (db.boards.get? id).filter fun board => workspaceId.all fun w => board.workspaceId == w

def create (db : Database) (id : Uuid) (data : BoardRow) :
    Except DbError (Loaded BoardRow × Database) :=
  (db.insertBoard id data).map fun db => (⟨id, data⟩, db)

def update (db : Database) (id : Uuid) (data : BoardRow → BoardRow) (now : Timestamp) :
    Except DbError (Loaded BoardRow × Database) :=
  updateRow (db.boards.get? id) (db.updateBoard id) id fun board =>
    { data board with updatedAt := now }

def archive (db : Database) (id : Uuid) (now : Timestamp) :
    Except DbError (Loaded BoardRow × Database) :=
  update db id (fun board => { board with archivedAt := some now }) now

def unarchive (db : Database) (id : Uuid) (now : Timestamp) :
    Except DbError (Loaded BoardRow × Database) :=
  update db id (fun board => { board with archivedAt := none }) now

def deletePermanently (db : Database) (id : Uuid) (now : Timestamp) :
    Except DbError (Loaded BoardRow × Database) :=
  update db id (fun board => { board with deletedAt := some now }) now

def starBoard (db : Database) (userId boardId : Uuid) : Except DbError (Unit × Database) :=
  (db.upsertStar userId boardId).map ((), ·)

def unstarBoard (db : Database) (userId boardId : Uuid) : Except DbError (Unit × Database) :=
  .ok ((), db.deleteStar userId boardId)

end BoardRepository

/-- `ListRepository.findActiveById`. -/
def ListRepository.findActiveById (db : Database) (id : Uuid) (boardId : Option Uuid) :
    Option ListRow :=
  (db.lists.get? id).filter fun list =>
    list.archivedAt.isNone && list.deletedAt.isNone && boardId.all fun b => list.boardId == b

namespace ListRepository

def findByIdIncludingDeleted (db : Database) (id : Uuid) (boardId : Option Uuid) :
    Option ListRow :=
  (db.lists.get? id).filter fun list => boardId.all fun b => list.boardId == b

def findByIdIncludingArchived (db : Database) (id : Uuid) (boardId : Option Uuid) :
    Option ListRow :=
  findByIdIncludingDeleted db id boardId

/-- The active list of a board with the highest rank. -/
def findLastInBoard (le : JsString → JsString → Bool) (db : Database) (boardId : Uuid) :
    Option ListRow :=
  greatest? (fun a b => le a.rank b.rank)
    ((db.lists.rows.map Prod.snd).filter fun list =>
      list.boardId == boardId && list.archivedAt.isNone && list.deletedAt.isNone)

def create (db : Database) (id : Uuid) (data : ListRow) :
    Except DbError (Loaded ListRow × Database) :=
  (db.insertList id data).map fun db => (⟨id, data⟩, db)

def update (db : Database) (id : Uuid) (data : ListRow → ListRow) (now : Timestamp) :
    Except DbError (Loaded ListRow × Database) :=
  updateRow (db.lists.get? id) (db.updateList id) id fun list =>
    { data list with updatedAt := now }

def archive (db : Database) (id : Uuid) (now : Timestamp) :
    Except DbError (Loaded ListRow × Database) :=
  update db id (fun list => { list with archivedAt := some now }) now

def unarchive (db : Database) (id : Uuid) (now : Timestamp) :
    Except DbError (Loaded ListRow × Database) :=
  update db id (fun list => { list with archivedAt := none }) now

def deletePermanently (db : Database) (id : Uuid) (now : Timestamp) :
    Except DbError (Loaded ListRow × Database) :=
  update db id (fun list => { list with deletedAt := some now }) now

end ListRepository

/-- `WorkspaceService.isUserMember`. -/
def WorkspaceService.isUserMember (db : Database) (workspaceId userId : Uuid) : Bool :=
  db.members.contains (workspaceId, userId)

namespace CardRepository

/-- The relation filter `list: { boardId }`, left out where no board is given. -/
def onBoard (db : Database) (card : CardRow) (boardId : Option Uuid) : Bool :=
  boardId.all fun b => (db.lists.get? card.listId).any fun list => list.boardId == b

/-- The relations that `findActiveById` and `create` include. -/
def withDetails (db : Database) (id : Uuid) (card : CardRow) : CardWithDetails where
  id := id
  row := card
  assignees := (db.cardAssignees.rows.filter fun p => p.1.1 == id).map fun p => p.1.2
  labels := (db.cardLabels.rows.filter fun p => p.1.1 == id).map fun p => p.1.2

def findActiveById (db : Database) (id : Uuid) (boardId : Option Uuid) : Option CardWithDetails :=
  ((db.cards.get? id).filter fun card =>
    card.archivedAt.isNone && card.deletedAt.isNone && onBoard db card boardId).map
      (withDetails db id)

def findByIdIncludingArchived (db : Database) (id : Uuid) (boardId : Option Uuid) : Option Card :=
  ((db.cards.get? id).filter fun card => onBoard db card boardId).map (Card.mk id)

def findByIdIncludingDeleted (db : Database) (id : Uuid) (boardId : Option Uuid) : Option Card :=
  ((db.cards.get? id).filter fun card => onBoard db card boardId).map (Card.mk id)

/-- The active card of a list with the highest rank in the order `le` of the
`rank` column. -/
def findLastInList (le : JsString → JsString → Bool) (db : Database) (listId : Uuid) :
    Option CardRow :=
  greatest? (fun a b => le a.rank b.rank)
    ((db.cards.rows.map Prod.snd).filter fun card =>
      card.listId == listId && card.archivedAt.isNone && card.deletedAt.isNone)

/-- The active subcards of a parent. -/
def countSubcards (db : Database) (parentId : Uuid) : Nat :=
  (db.cards.rows.map Prod.snd).countP fun card =>
    card.parentCardId == some parentId && card.archivedAt.isNone && card.deletedAt.isNone

/-- The transaction of `create`. -/
def create (db : Database) (id : Uuid) (data : CardRow) (assigneeIds labelIds : List Uuid)
    (now : Timestamp) : Except DbError (CardWithDetails × Database) := do
  let db ← db.insertCard id data
  let db ← assigneeIds.foldlM (fun db userId => db.upsertCardAssignee id userId now) db
  let db ← labelIds.foldlM (fun db labelId => db.upsertCardLabel id labelId) db
  match db.cards.get? id with
  | some card => return (withDetails db id card, db)
  | none => throw .recordNotFound

/-- `update`: the row under an id is rewritten and dated. -/
def update (db : Database) (id : Uuid) (data : CardRow → CardRow) (now : Timestamp) :
    Except DbError (Card × Database) :=
  match db.cards.get? id with
  | none => .error .recordNotFound
  | some card =>
      let updated := { data card with updatedAt := now }
      (db.updateCard id updated).map fun db => (⟨id, updated⟩, db)

def moveCard (db : Database) (cardId targetListId : Uuid) (newRank : JsString)
    (now : Timestamp) : Except DbError (Card × Database) :=
  update db cardId (fun card => { card with listId := targetListId, rank := newRank }) now

def archive (db : Database) (id : Uuid) (now : Timestamp) : Except DbError (Card × Database) :=
  update db id (fun card => { card with archivedAt := some now }) now

def unarchive (db : Database) (id : Uuid) (now : Timestamp) : Except DbError (Card × Database) :=
  update db id (fun card => { card with archivedAt := none }) now

def deletePermanently (db : Database) (id : Uuid) (now : Timestamp) :
    Except DbError (Card × Database) :=
  update db id (fun card => { card with deletedAt := some now }) now

def updatePriority (db : Database) (id : Uuid) (priority : CardPriority) (now : Timestamp) :
    Except DbError (Card × Database) :=
  update db id (fun card => { card with priority := priority }) now

def updateStatus (db : Database) (id : Uuid) (status : CardStatus) (isComplete : Bool)
    (now : Timestamp) : Except DbError (Card × Database) :=
  update db id (fun card => { card with status := status, isComplete := isComplete }) now

def attachSubcard (db : Database) (childId parentId : Uuid) (now : Timestamp) :
    Except DbError (Card × Database) :=
  update db childId (fun card => { card with parentCardId := some parentId }) now

def detachSubcard (db : Database) (childId : Uuid) (now : Timestamp) :
    Except DbError (Card × Database) :=
  update db childId (fun card => { card with parentCardId := none }) now

/-- The error of `updatePriority` and `updateStatus`: `P2025` becomes a 404. -/
def missingCard (id : Uuid) : DbError → AppError
  | .recordNotFound => .entityNotFound "Card" id
  | e => .database e

end CardRepository

/-- A checklist with its items, ordered by rank. -/
structure ChecklistWithItems extends Loaded ChecklistRow where
  items : List (Loaded ChecklistItemRow)
  deriving DecidableEq, Repr

/-- An item with the checklist it is in. -/
structure ItemWithChecklist extends Loaded ChecklistItemRow where
  checklist : ChecklistRow
  deriving DecidableEq, Repr

namespace ChecklistRepository
variable (le : JsString → JsString → Bool)

/-- The items of a checklist, ordered by rank. -/
def itemsOf (db : Database) (checklistId : Uuid) : List (Loaded ChecklistItemRow) :=
  ((db.checklistItems.select fun _ item => item.checklistId == checklistId).map
    fun p => ⟨p.1, p.2⟩).insertionSort fun a b => le a.row.rank b.row.rank = true

/-- The relation that every query of a checklist includes. -/
def withItems (db : Database) (id : Uuid) (checklist : ChecklistRow) : ChecklistWithItems where
  id := id
  row := checklist
  items := itemsOf le db id

/-- The relation filter `card: { archivedAt: null }`; `deletedAt` is not looked at. -/
def onUnarchivedCard (db : Database) (checklist : ChecklistRow) : Bool :=
  (db.cards.get? checklist.cardId).any fun card => card.archivedAt.isNone

def createChecklist (db : Database) (id : Uuid) (data : ChecklistRow) :
    Except DbError (ChecklistWithItems × Database) :=
  (db.insertChecklist id data).map fun db => (withItems le db id data, db)

def findActiveChecklist (db : Database) (checklistId : Uuid) : Option ChecklistWithItems :=
  ((db.checklists.get? checklistId).filter (onUnarchivedCard db)).map (withItems le db checklistId)

def findChecklistsByCard (db : Database) (cardId : Uuid) : List ChecklistWithItems :=
  ((db.checklists.select fun _ checklist =>
      checklist.cardId == cardId && onUnarchivedCard db checklist).map
    fun p => withItems le db p.1 p.2).insertionSort fun a b => le a.row.rank b.row.rank = true

def updateChecklist (db : Database) (id : Uuid) (data : ChecklistRow → ChecklistRow)
    (now : Timestamp) : Except DbError (ChecklistWithItems × Database) :=
  (updateRow (db.checklists.get? id) (db.updateChecklist id) id fun checklist =>
    { data checklist with updatedAt := now }).map fun r => (withItems le r.2 id r.1.row, r.2)

def deleteChecklist (db : Database) (id : Uuid) : Except DbError (Unit × Database) :=
  if db.checklists.contains id then .ok ((), db.deleteChecklist id) else .error .recordNotFound

def createItem (db : Database) (id : Uuid) (data : ChecklistItemRow) :
    Except DbError (Loaded ChecklistItemRow × Database) :=
  (db.insertChecklistItem id data).map fun db => (⟨id, data⟩, db)

def findItem (db : Database) (itemId : Uuid) : Option ItemWithChecklist := do
  let item ← db.checklistItems.get? itemId
  let checklist ← db.checklists.get? item.checklistId
  return { id := itemId, row := item, checklist := checklist }

def updateItem (db : Database) (id : Uuid) (data : ChecklistItemRow → ChecklistItemRow)
    (now : Timestamp) : Except DbError (Loaded ChecklistItemRow × Database) :=
  updateRow (db.checklistItems.get? id) (db.updateChecklistItem id) id fun item =>
    { data item with updatedAt := now }

def deleteItem (db : Database) (id : Uuid) : Except DbError (Unit × Database) :=
  if db.checklistItems.contains id then .ok ((), db.deleteChecklistItem id)
  else .error .recordNotFound

end ChecklistRepository

namespace LabelRepository

def findById (db : Database) (id : Uuid) : Option LabelRow :=
  db.labels.get? id

/-- One row of `labels`, and with a card the transaction that attaches it. -/
def createWithCard (db : Database) (id : Uuid) (data : LabelRow) (cardId : Option Uuid) :
    Except DbError (Label × Database) := do
  let db ← db.insertLabel id data
  match cardId with
  | none => return (⟨id, data⟩, db)
  | some cardId => do
      let db ← db.insertCardLabel cardId id
      return (⟨id, data⟩, db)

end LabelRepository

end SyncBoard.Board
