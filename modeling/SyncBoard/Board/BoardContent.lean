import SyncBoard.Board.CardService

/-!
# The content of a board

`BoardService.getBoardWithContent`, which the page of a board shows: the first lists of
the board by rank, with the first cards of each, and the labels of the workspace.

## Implementation notes

The queries of one call are answered at one moment. `isStarred` is about the user who
asks and not about the board, so it is left out. Rows of equal rank, and rows that a
query returns in no order, come as they are stored; labels come in the order in which
they were inserted.
-/

namespace SyncBoard.Board

open Relational

/-- The subcards that a card comes with. -/
structure SubcardSummary where
  id : Uuid
  title : JsString
  isComplete : Bool
  status : CardStatus
  priority : CardPriority
  deriving DecidableEq, Repr

/-- `CardWithDetailsResponseDto`. -/
structure CardContent where
  id : Uuid
  row : CardRow
  assignees : List Uuid
  labels : List Label
  subcards : List SubcardSummary
  parent : Option (Uuid × JsString)
  deriving DecidableEq, Repr

/-- `ListWithCardsResponseDto`. -/
structure ListContent where
  id : Uuid
  row : ListRow
  cards : List CardContent
  cardCount : Nat
  deriving DecidableEq, Repr

/-- `BoardWithContentResponseDto`. -/
structure BoardContent where
  id : Uuid
  row : BoardRow
  lists : List ListContent
  labels : List Label
  totalLists : Nat
  totalCards : Nat
  deriving DecidableEq, Repr

/-- The defaults of `listPageSize` and `cardPageSize`. -/
def contentPageSize : Nat := 50

section Queries
variable (le : JsString → JsString → Bool) (db : Database)

def CardRow.isActive (card : CardRow) : Bool :=
  card.archivedAt.isNone && card.deletedAt.isNone

def ListRow.isActive (list : ListRow) : Bool :=
  list.archivedAt.isNone && list.deletedAt.isNone

/-- The relations of a card that `findByIdWithContent` includes. -/
def cardContent (id : Uuid) (card : CardRow) : CardContent where
  id := id
  row := card
  assignees := (db.cardAssignees.select fun key _ => key.1 == id).map fun p => p.1.2
  labels := (db.cardLabels.select fun key _ => key.1 == id).filterMap fun p =>
    (db.labels.get? p.1.2).map (Label.mk p.1.2)
  subcards :=
    (db.cards.select fun _ subcard => subcard.parentCardId == some id && subcard.isActive).map
      fun p => ⟨p.1, p.2.title, p.2.isComplete, p.2.status, p.2.priority⟩
  parent := do
    let parentId ← card.parentCardId
    let parent ← db.cards.get? parentId
    return (parentId, parent.title)

/-- The active cards of a list, ordered by rank. -/
def cardsOf (listId : Uuid) : List (Uuid × CardRow) :=
  (db.cards.select fun _ card => card.listId == listId && card.isActive).insertionSort
    fun a b => le a.2.rank b.2.rank = true

/-- The active lists of a board, ordered by rank. -/
def listsOf (boardId : Uuid) : List (Uuid × ListRow) :=
  (db.lists.select fun _ list => list.boardId == boardId && list.isActive).insertionSort
    fun a b => le a.2.rank b.2.rank = true

def listContent (id : Uuid) (list : ListRow) : ListContent where
  id := id
  row := list
  cards := ((cardsOf le db id).take contentPageSize).map fun p => cardContent db p.1 p.2
  cardCount := (cardsOf le db id).length

/-- `LabelRepository.findAvailableLabels`. -/
def findAvailableLabels (workspaceId : Uuid) : List Label :=
  ((db.labels.select fun _ label => label.workspaceId == workspaceId).map
    fun p => Label.mk p.1 p.2).reverse

/-- `BoardRepository.countLists`. -/
def countLists (boardId : Uuid) : Nat :=
  db.lists.count fun _ list => list.boardId == boardId && list.isActive

/-- `BoardRepository.countCards`: the lists need not be active. -/
def countCards (boardId : Uuid) : Nat :=
  db.cards.count fun _ card => CardRepository.onBoard db card (some boardId) && card.isActive

/-- `getBoardWithContent` for the first page; nothing where it answers 404. -/
def getBoardWithContent (boardId workspaceId : Uuid) : Option BoardContent :=
  (BoardRepository.findById db boardId (some workspaceId)).map fun board =>
    { id := boardId
      row := board
      lists := ((listsOf le db boardId).take contentPageSize).map fun p => listContent le db p.1 p.2
      labels := findAvailableLabels db workspaceId
      totalLists := countLists db boardId
      totalCards := countCards db boardId }

end Queries

end SyncBoard.Board
