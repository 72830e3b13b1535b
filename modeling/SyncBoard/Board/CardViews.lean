import Mathlib.Algebra.Order.Monoid.Unbundled.WithTop
import Mathlib.Data.Prod.Lex
import Mathlib.Data.Sum.Order
import Mathlib.Order.WithBot
import SyncBoard.Board.BoardContent
import SyncBoard.Pagination

/-!
# The views of a board

The table view, the timeline view, the calendar view and the pages of
`getBoardWithContent`, which show the cards of a board to the frontend.

## Implementation notes

The queries of one call are answered at one moment, and what comes of a board is shown
without `isStarred`, as for the first page of its content. `ViewStore` holds what the
database adds to the rows: how titles are collated and searched, and when a card was
created, which never changes. A null due date comes after every other in ascending order.
Lists of equal rank come as they are stored, in every query. The dates of the calendar are
the moments that they name.
-/

namespace SyncBoard.Board

open Relational Paging

/-- `SortField` of the table view. -/
inductive SortField
  | title
  | dueDate
  | priority
  | status
  | createdAt
  | updatedAt
  deriving DecidableEq, Repr

inductive SortOrder
  | asc
  | desc
  deriving DecidableEq, Repr

structure CardTableFilters where
  status : Option CardStatus := none
  priority : Option CardPriority := none
  assigneeId : Option Uuid := none
  search : Option JsString := none
  sortBy : Option JsString := none
  sortOrder : Option SortOrder := none
  deriving DecidableEq, Repr

/-- `TableViewQueryDto`. -/
structure TableViewQuery extends CardTableFilters where
  cursor : Option Uuid := none
  limit : Option Nat := none
  deriving DecidableEq, Repr

/-- `TimelineViewQueryDto`. -/
structure TimelineViewQuery where
  cursor : Option Uuid := none
  limit : Option Nat := none
  deriving DecidableEq, Repr

/-- `CalendarViewQueryDto`; `fromDate` and `toDate` are its `from` and `to`. -/
structure CalendarViewQuery where
  fromDate : Option Timestamp := none
  startDate : Option Timestamp := none
  toDate : Option Timestamp := none
  endDate : Option Timestamp := none
  cursor : Option Uuid := none
  limit : Option Nat := none
  deriving DecidableEq, Repr

/-- `BoardContentQueryDto`. -/
structure BoardContentQuery where
  listPage : Option Nat := none
  listPageSize : Option Nat := none
  cardPageSize : Option Nat := none
  deriving DecidableEq, Repr

/-- The collation of titles, the search in them and the times of creation. -/
structure ViewStore (C : Type) where
  collate : JsString → C
  contains : JsString → JsString → Bool
  createdAt : Uuid → Timestamp

/-- The place of a priority in its enumeration. -/
def CardPriority.position : CardPriority → Nat
  | .lowest => 0
  | .low => 1
  | .medium => 2
  | .high => 3
  | .urgent => 4

/-- The place of a status in its enumeration. -/
def CardStatus.position : CardStatus → Nat
  | .notStarted => 0
  | .active => 1
  | .done => 2
  | .closed => 3

/-- Values in ascending or descending order. -/
def Directed (V : Type) : SortOrder → Type
  | .asc => V
  | .desc => Vᵒᵈ

instance {V : Type} [LinearOrder V] (order : SortOrder) : LinearOrder (Directed V order) :=
  match order with
  | .asc => inferInstanceAs (LinearOrder V)
  | .desc => inferInstanceAs (LinearOrder Vᵒᵈ)

def directed {V : Type} (v : V) : (order : SortOrder) → Directed V order
  | .asc => v
  | .desc => OrderDual.toDual v

/-- The values that cards are sorted by: collated titles, or times and positions. -/
abbrev SortValue (C : Type) := C ⊕ₗ WithTop Nat

/-- What the table view sorts by in one direction; the newest id comes first. -/
abbrev TableKey (C : Type) (order : SortOrder) := Directed (SortValue C) order ×ₗ Uuidᵒᵈ

/-- What the timeline sorts by. -/
abbrev TimelineKey := Timestamp ×ₗ Uuid

/-- What the calendar sorts by. -/
abbrev CalendarKey := WithTop Timestamp ×ₗ Uuid

/-- The column of the field may be null. -/
def SortField.nullable : SortField → Bool
  | .dueDate => true
  | .title | .priority | .status | .createdAt | .updatedAt => false

namespace CardViewRepository
variable {C : Type} [LinearOrder C] (store : ViewStore C) (db : Database)

/-- The names that the table view may be sorted by. -/
def sortFields : List (JsString × SortField) :=
  [(js "title", .title), (js "dueDate", .dueDate), (js "priority", .priority),
    (js "status", .status), (js "createdAt", .createdAt), (js "updatedAt", .updatedAt)]

def sortField (sortBy : Option JsString) : SortField :=
  ((sortFields.find? fun p => some p.1 == sortBy).map Prod.snd).getD .updatedAt

def sortValue (card : Card) : SortField → SortValue C
  | .title => Sum.inlₗ (store.collate card.row.title)
  | .dueDate =>
      match card.row.dueDate with
      | some dueDate => Sum.inrₗ dueDate
      | none => Sum.inrₗ ⊤
  | .priority => Sum.inrₗ card.row.priority.position
  | .status => Sum.inrₗ card.row.status.position
  | .createdAt => Sum.inrₗ (store.createdAt card.id)
  | .updatedAt => Sum.inrₗ card.row.updatedAt

def tableKey (field : SortField) (order : SortOrder) (card : Card) : TableKey C order :=
  toLex (directed (sortValue store card field) order, OrderDual.toDual card.id)

def timelineKey (card : Card) : TimelineKey :=
  toLex (store.createdAt card.id, card.id)

/-- A due date, or the end where there is none. -/
def dueOrLast : Option Timestamp → WithTop Timestamp
  | some dueDate => dueDate
  | none => ⊤

def calendarKey (card : Card) : CalendarKey :=
  toLex (dueOrLast card.row.dueDate, card.id)

/-- The active cards of the lists of a board. -/
def boardCards (boardId : Uuid) : List (Uuid × CardRow) :=
  db.cards.select fun _ card => CardRepository.onBoard db card (some boardId) && card.isActive

/-- The filters of the table view; an empty search is none. -/
def matchesFilters (filters : CardTableFilters) (card : CardWithDetails) : Bool :=
  filters.status.all (card.row.status == ·) &&
    filters.priority.all (card.row.priority == ·) &&
    filters.assigneeId.all (fun userId => card.assignees.contains userId) &&
    filters.search.all fun search => search.isEmpty || store.contains search card.row.title

/-- The rows of the table view, in no order. -/
def tableRows (boardId : Uuid) (filters : CardTableFilters) : List CardWithDetails :=
  ((boardCards db boardId).map fun p => CardRepository.withDetails db p.1 p.2).filter
    (matchesFilters store filters)

/-- The rows of the timeline, in no order. -/
def timelineRows (boardId : Uuid) : List Card :=
  (boardCards db boardId).map fun p => ⟨p.1, p.2⟩

/-- The rows of the calendar, in no order. -/
def calendarRows (boardId : Uuid) (fromDate toDate : Timestamp) : List Card :=
  ((boardCards db boardId).map fun p => ⟨p.1, p.2⟩).filter fun card : Card =>
    card.row.dueDate.any fun dueDate => decide (fromDate ≤ dueDate) && decide (dueDate ≤ toDate)

/-- The envelope of a page; the last card is the cursor also where there are no more. -/
def envelope {α : Type} (idOf : α → Uuid) (limit : Nat) (cards : List α) :
    PaginatedResult α Uuid :=
  let hasMore := decide (limit < cards.length)
  let items := if hasMore then cards.take limit else cards
  { items := items, cursor := items.getLast?.map idOf, hasMore := hasMore }

def tablePage (boardId : Uuid) (filters : CardTableFilters) (cursor : Option Uuid) (limit : Nat) :
    PaginatedResult CardWithDetails Uuid :=
  let field := sortField filters.sortBy
  let order := if filters.sortOrder = some .asc then .asc else .desc
  let cursorRow := fun id => (db.cards.get? id).map (CardRepository.withDetails db id)
  envelope (fun card => card.id) limit
    (findManyPage (fun card : CardWithDetails => tableKey store field order card.toCard)
      (tableRows store db boardId filters) cursorRow field.nullable (limit + 1) cursor)

def timelinePage (boardId : Uuid) (cursor : Option Uuid) (limit : Nat) :
    PaginatedResult Card Uuid :=
  envelope Card.id limit
    (findManyPage (timelineKey store) (timelineRows db boardId)
      (fun id => (db.cards.get? id).map (Card.mk id)) false (limit + 1) cursor)

def calendarPage (boardId : Uuid) (fromDate toDate : Timestamp) (cursor : Option Uuid)
    (limit : Nat) : PaginatedResult Card Uuid :=
  envelope Card.id limit
    (findManyPage calendarKey (calendarRows db boardId fromDate toDate)
      (fun id => (db.cards.get? id).map (Card.mk id)) SortField.dueDate.nullable (limit + 1)
      cursor)

end CardViewRepository

namespace CardViewService
variable {C : Type} [LinearOrder C] (store : ViewStore C) (db : Database)

/-- `assertBoardInWorkspace`. -/
def verifyBoardInWorkspace (boardId workspaceId : Uuid) : Except AppError Unit :=
  match BoardRepository.findById db boardId (some workspaceId) with
  | some _ => .ok ()
  | none => .error (.entityNotFound "Board" boardId)

def table (boardId workspaceId : Uuid) (query : TableViewQuery) :
    Except AppError (PaginatedResult CardWithDetails Uuid) := do
  verifyBoardInWorkspace db boardId workspaceId
  return CardViewRepository.tablePage store db boardId query.toCardTableFilters query.cursor
    (query.limit.getD 20)

def timeline (boardId workspaceId : Uuid) (query : TimelineViewQuery) :
    Except AppError (PaginatedResult Card Uuid) := do
  verifyBoardInWorkspace db boardId workspaceId
  return CardViewRepository.timelinePage store db boardId query.cursor (query.limit.getD 20)

/-- 366 days. -/
def calendarRange : Nat := 366 * 24 * 60 * 60 * 1000

def calendar (boardId workspaceId : Uuid) (query : CalendarViewQuery) :
    Except AppError (PaginatedResult Card Uuid) := do
  verifyBoardInWorkspace db boardId workspaceId
  match query.fromDate <|> query.startDate, query.toDate <|> query.endDate with
  | some fromDate, some toDate =>
      if calendarRange < toDate - fromDate then
        .error (.businessRule "DATE_RANGE_TOO_LARGE" "Calendar range cannot exceed 366 days")
      else
        return CardViewRepository.calendarPage db boardId fromDate toDate query.cursor
          (query.limit.getD 20)
  | _, _ =>
      .error (.businessRule "INVALID_DATE_RANGE"
        "Both from (or startDate) and to (or endDate) must be provided")

end CardViewService

/-- The `pagination` of `BoardWithContentResponseDto`. -/
structure ContentPagination where
  listPage : Nat
  listPageSize : Nat
  totalLists : Nat
  totalPages : Nat
  cardPageSize : Nat
  totalCards : Nat
  deriving DecidableEq, Repr

/-- A page of the lists of a board. -/
structure BoardContentPage where
  id : Uuid
  row : BoardRow
  lists : List ListContent
  labels : List Label
  pagination : ContentPagination
  deriving DecidableEq, Repr

section Content
variable (le : JsString → JsString → Bool) (db : Database)

/-- A list with its first cards. -/
def listPageContent (cardTake : Nat) (id : Uuid) (list : ListRow) : ListContent :=
  { listContent le db id list with
    cards := ((cardsOf le db id).take cardTake).map fun p => cardContent db p.1 p.2 }

/-- `BoardRepository.findByIdWithContent`. -/
def BoardRepository.findByIdWithContent (boardId : Uuid) (listSkip listTake cardTake : Nat)
    (workspaceId : Option Uuid) : Option (BoardRow × List ListContent) :=
  (BoardRepository.findById db boardId workspaceId).map fun board =>
    (board, (((listsOf le db boardId).drop listSkip).take listTake).map fun p =>
      listPageContent le db cardTake p.1 p.2)

/-- `getBoardWithContent` for any page. -/
def BoardService.getBoardWithContent (boardId workspaceId : Uuid) (query : BoardContentQuery) :
    Except AppError BoardContentPage :=
  let listPage := query.listPage.getD 1
  let listPageSize := query.listPageSize.getD contentPageSize
  let cardPageSize := query.cardPageSize.getD contentPageSize
  match BoardRepository.findByIdWithContent le db boardId ((listPage - 1) * listPageSize)
      listPageSize cardPageSize (some workspaceId) with
  | none => .error (.entityNotFound "Board" boardId)
  | some (board, lists) =>
      let totalLists := countLists db boardId
      .ok
        { id := boardId
          row := board
          lists := lists
          labels := findAvailableLabels db workspaceId
          pagination :=
            { listPage := listPage
              listPageSize := listPageSize
              totalLists := totalLists
              totalPages := max 1 ((totalLists + listPageSize - 1) / listPageSize)
              cardPageSize := cardPageSize
              totalCards := countCards db boardId } }

/-- The first page with the default sizes is what `getBoardWithContent` answers without
a query. -/
theorem getBoardWithContent_default (boardId workspaceId : Uuid) :
    (BoardService.getBoardWithContent le db boardId workspaceId {}).toOption.map
        (fun page => (page.id, page.row, page.lists, page.labels, page.pagination.totalLists,
          page.pagination.totalCards)) =
      (getBoardWithContent le db boardId workspaceId).map fun content =>
        (content.id, content.row, content.lists, content.labels, content.totalLists,
          content.totalCards) := by
  simp only [BoardService.getBoardWithContent, BoardRepository.findByIdWithContent,
    getBoardWithContent]
  cases BoardRepository.findById db boardId (some workspaceId) with
  | none => rfl
  | some board => rfl

end Content

end SyncBoard.Board
