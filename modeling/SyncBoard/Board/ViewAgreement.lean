import Mathlib.Data.Finset.Card
import Mathlib.Data.Finset.Dedup
import SyncBoard.Board.CardViews

/-!
# What the views of a board show

The table view and the timeline, followed to their end, show the active cards of all
lists of the board, and `totalCards` counts these. The content of the board, over all
its pages, shows the active cards of the active lists. So the views agree exactly where
every active card is in an active list (`viewsAgree_iff`).
-/

namespace SyncBoard.Board

open Relational Paging

/-- No filter is given. -/
def CardTableFilters.Unfiltered (filters : CardTableFilters) : Prop :=
  filters.status = none ∧ filters.priority = none ∧ filters.assigneeId = none ∧
    ∀ search ∈ filters.search, search = []

section Shown
variable {C : Type} [LinearOrder C] (store : ViewStore C) (le : JsString → JsString → Bool)
variable (db : Database) (boardId workspaceId : Uuid)

/-- The ids of the cards that the table view shows to who follows its cursor. -/
def TableShows (query : TableViewQuery) (cards : List Uuid) : Prop :=
  ∃ n items, Follows
      (fun db cursor => CardViewService.table store db boardId workspaceId
        { query with cursor := cursor })
      none (List.replicate (n + 1) db) items ∧
    cards = items.map fun card => card.id

/-- The ids of the cards that the timeline shows to who follows its cursor. -/
def TimelineShows (query : TimelineViewQuery) (cards : List Uuid) : Prop :=
  ∃ n items, Follows
      (fun db cursor => CardViewService.timeline store db boardId workspaceId
        { query with cursor := cursor })
      none (List.replicate (n + 1) db) items ∧
    cards = items.map Card.id

/-- The ids of the cards on all pages of the content of a board. -/
def contentCards (query : BoardContentQuery) : Except AppError (List Uuid) := do
  let page := fun n =>
    BoardService.getBoardWithContent le db boardId workspaceId { query with listPage := some n }
  let first ← page 1
  let pages ← (List.range' 1 first.pagination.totalPages).mapM page
  return pages.flatMap fun page =>
    page.lists.flatMap fun list => list.cards.map fun card => card.id

/-- The page of cards is large enough for every list of the board. -/
def EnoughCards (query : BoardContentQuery) : Prop :=
  ∀ p ∈ listsOf le db boardId,
    (cardsOf le db p.1).length ≤ query.cardPageSize.getD contentPageSize

/-- There is something shown, and it is always the same cards. -/
def Shows (shown : List Uuid → Prop) (cards : Finset Uuid) : Prop :=
  (∃ l, shown l) ∧ ∀ l, shown l → l.toFinset = cards

/-- All views of the board show the same cards, and count them. -/
def ViewsAgree : Prop :=
  ∃ cards : Finset Uuid,
    (∀ query : TableViewQuery, query.Unfiltered → (∀ n ∈ query.limit, 0 < n) →
      Shows (TableShows store db boardId workspaceId query) cards) ∧
    (∀ query : TimelineViewQuery, (∀ n ∈ query.limit, 0 < n) →
      Shows (TimelineShows store db boardId workspaceId query) cards) ∧
    (∀ query : BoardContentQuery, (∀ n ∈ query.listPageSize, 0 < n) →
      EnoughCards le db boardId query →
        Shows (fun l => contentCards le db boardId workspaceId query = .ok l) cards) ∧
    ∀ query page, BoardService.getBoardWithContent le db boardId workspaceId query = .ok page →
      page.pagination.totalCards = cards.card

/-- An active card of the board that is in no active list. -/
def Stray (card : CardRow) : Prop :=
  card.isActive = true ∧
    ∃ list, db.lists.get? card.listId = some list ∧ list.boardId = boardId ∧ list.isActive = false

end Shown

namespace CardViewRepository
variable {C : Type} [LinearOrder C] {store : ViewStore C} {db : Database} {boardId : Uuid}

theorem mem_boardCards {id : Uuid} {card : CardRow} : (id, card) ∈ boardCards db boardId ↔
    db.cards.get? id = some card ∧ card.isActive = true ∧
      ∃ list, db.lists.get? card.listId = some list ∧ list.boardId = boardId := by
  rw [boardCards, Table.mem_select]
  simp only [CardRepository.onBoard, Option.all_some, Bool.and_eq_true, Option.any_eq_true,
    beq_iff_eq]
  tauto

theorem nodup_boardCards : ((boardCards db boardId).map Prod.fst).Nodup :=
  db.cards.nodup.sublist (List.filter_sublist.map _)

omit [LinearOrder C] in
theorem tableRows_of_unfiltered {filters : CardTableFilters} (h : filters.Unfiltered) :
    tableRows store db boardId filters =
      (boardCards db boardId).map fun p => CardRepository.withDetails db p.1 p.2 := by
  obtain ⟨hstatus, hpriority, hassignee, hsearch⟩ := h
  rw [tableRows, List.filter_eq_self]
  intro card _
  simp only [matchesFilters, hstatus, hpriority, hassignee, Option.all_none, Bool.true_and]
  rw [Option.all_eq_true]
  intro search hs
  rw [hsearch search hs]
  rfl

/-- Rows have different keys if their keys name them. -/
theorem nodup_keys {α K : Type} {rows : List α} {key : α → K} {idOf : α → Uuid}
    (hid : ∀ a b, key a = key b → idOf a = idOf b) (h : (rows.map idOf).Nodup) :
    (rows.map key).Nodup := by
  apply List.pairwise_map.mpr
  exact (List.pairwise_map.mp h).imp fun hne heq => hne (hid _ _ heq)

/-- The envelope of the views holds the first rows, as that of `buildCursorPagination`. -/
theorem isPage_envelope {α : Type} (idOf : α → Uuid) (limit : Nat) (rows : List α) :
    IsPage idOf limit rows (envelope idOf limit (rows.take (limit + 1))) := by
  have hpage := isPage_buildCursorPagination rows limit idOf
  refine ⟨hpage.items, hpage.hasMore, fun _ => rfl⟩

end CardViewRepository

/-- The ids of the active cards of a board. -/
def activeCards (db : Database) (boardId : Uuid) : Finset Uuid :=
  ((CardViewRepository.boardCards db boardId).map Prod.fst).toFinset

section Views
variable {C : Type} [LinearOrder C] {store : ViewStore C} {le : JsString → JsString → Bool}
variable {db : Database} {boardId workspaceId : Uuid} {board : BoardRow}

open CardViewRepository

theorem mem_activeCards {id : Uuid} : id ∈ activeCards db boardId ↔
    ∃ card, db.cards.get? id = some card ∧ card.isActive = true ∧
      ∃ list, db.lists.get? card.listId = some list ∧ list.boardId = boardId := by
  rw [activeCards, List.mem_toFinset, List.mem_map]
  constructor
  · rintro ⟨⟨id, card⟩, hmem, rfl⟩
    exact ⟨card, mem_boardCards.mp hmem⟩
  · rintro ⟨card, hcard⟩
    exact ⟨(id, card), mem_boardCards.mpr hcard, rfl⟩

/-- Whatever the order, a view of the active cards shows these to who follows its cursor. -/
theorem shows_of_page {α K : Type} [LinearOrder K] (key : α → K) (load : Uuid → CardRow → α)
    {idOf : α → Uuid} {limit : Nat} {rows : List α}
    {page : Database → Option Uuid → Except AppError (PaginatedResult α Uuid)}
    (hkey : ∀ a b, key a = key b → idOf a = idOf b) (hload : ∀ id card, idOf (load id card) = id)
    (hlimit : 0 < limit) (hrows : rows = (boardCards db boardId).map fun p => load p.1 p.2)
    (nullable : Bool) (hpage : ∀ cursor, page db cursor = .ok (envelope idOf limit
      (findManyPage key rows (fun id => (db.cards.get? id).map (load id)) nullable (limit + 1)
        cursor))) :
    Shows (fun l => ∃ n items, Follows page none (List.replicate (n + 1) db) items ∧
      l = items.map idOf) (activeCards db boardId) := by
  have hids : rows.map idOf = (boardCards db boardId).map Prod.fst := by
    rw [hrows, List.map_map]
    exact List.map_congr_left fun p _ => hload p.1 p.2
  have hfound : ∀ a ∈ rows, (db.cards.get? (idOf a)).map (load (idOf a)) = some a := by
    intro a ha
    rw [hrows] at ha
    obtain ⟨⟨id, card⟩, hmem, rfl⟩ := List.mem_map.mp ha
    rw [hload, (mem_boardCards.mp hmem).1, Option.map_some]
  have hkeyed : Keyed key (fun _ => rows) db := by
    apply nodup_keys hkey
    rw [hids]
    exact nodup_boardCards
  have hpages : ∀ c : Option Uuid,
      (∀ i ∈ c, ∃ a ∈ rows, (db.cards.get? i).map (load i) = some a) →
      ∃ r, page db c = .ok r ∧ IsPage idOf limit
        (after key ((c.bind fun id => (db.cards.get? id).map (load id)).map key) rows) r := by
    intro c hc
    rw [hpage, findManyPage_of_found hkeyed hc nullable]
    exact ⟨_, rfl, isPage_envelope idOf limit _⟩
  have hstart : ∀ a ∈ rows,
      ((some (idOf a)).bind fun id => (db.cards.get? id).map (load id)).map key =
        some (key a) := by
    intro a ha
    rw [Option.bind_some, hfound a ha, Option.map_some]
  obtain ⟨⟨n, l, follows⟩, hperm⟩ := follows_of_static (fun _ => rows)
    (fun _ c => (c.bind fun id => (db.cards.get? id).map (load id)).map key)
    (fun _ i => ∃ a ∈ rows, (db.cards.get? i).map (load i) = some a)
    hlimit hkeyed hpages (fun a ha => ⟨a, ha, hfound a ha⟩) hstart rfl
  rw [activeCards, ← hids]
  refine ⟨⟨_, n, l, follows, rfl⟩, ?_⟩
  rintro _ ⟨n, l, follows, rfl⟩
  exact List.toFinset_eq_of_perm _ _ ((hperm n l follows).map idOf)

/-- A limit that is given is positive, and so is the default. -/
theorem limit_pos {limit : Option Nat} (h : ∀ n ∈ limit, 0 < n) : 0 < limit.getD 20 := by
  cases limit with
  | none => decide
  | some n => exact h n rfl

theorem tableShows_activeCards
    (h : BoardRepository.findById db boardId (some workspaceId) = some board)
    {query : TableViewQuery} (hfilters : query.Unfiltered) (hlimit : ∀ n ∈ query.limit, 0 < n) :
    Shows (TableShows store db boardId workspaceId query) (activeCards db boardId) := by
  apply shows_of_page (fun card : CardWithDetails => tableKey store (sortField query.sortBy)
    (if query.sortOrder = some .asc then .asc else .desc) card.toCard)
    (CardRepository.withDetails db) _ (fun _ _ => rfl) (limit_pos hlimit)
    (tableRows_of_unfiltered hfilters) (sortField query.sortBy).nullable
  · intro cursor
    rw [CardViewService.table, CardViewService.verifyBoardInWorkspace, h]
    rfl
  · intro a b hkey
    exact congrArg (fun k => OrderDual.ofDual (ofLex k).2) hkey

omit [LinearOrder C] in
theorem timelineShows_activeCards
    (h : BoardRepository.findById db boardId (some workspaceId) = some board)
    {query : TimelineViewQuery} (hlimit : ∀ n ∈ query.limit, 0 < n) :
    Shows (TimelineShows store db boardId workspaceId query) (activeCards db boardId) := by
  apply shows_of_page (timelineKey store) Card.mk _ (fun _ _ => rfl) (limit_pos hlimit) rfl
    false
  · intro cursor
    rw [CardViewService.timeline, CardViewService.verifyBoardInWorkspace, h]
    rfl
  · intro a b hkey
    exact congrArg (fun k => (ofLex k).2) hkey

theorem mem_listsOf {id : Uuid} {list : ListRow} : (id, list) ∈ listsOf le db boardId ↔
    db.lists.get? id = some list ∧ list.boardId = boardId ∧ list.isActive = true := by
  rw [listsOf, List.mem_insertionSort, Table.mem_select, Bool.and_eq_true, beq_iff_eq]

theorem mem_cardsOf {listId id : Uuid} {card : CardRow} : (id, card) ∈ cardsOf le db listId ↔
    db.cards.get? id = some card ∧ card.listId = listId ∧ card.isActive = true := by
  rw [cardsOf, List.mem_insertionSort, Table.mem_select, Bool.and_eq_true, beq_iff_eq]

theorem length_listsOf : (listsOf le db boardId).length = countLists db boardId :=
  List.length_insertionSort _ _

/-- A page of the content holds a slice of the active lists, each with its active cards. -/
theorem getBoardWithContent_page
    (h : BoardRepository.findById db boardId (some workspaceId) = some board)
    {query : BoardContentQuery} (henough : EnoughCards le db boardId query) (n : Nat) :
    ∃ page : BoardContentPage,
      BoardService.getBoardWithContent le db boardId workspaceId
        { query with listPage := some n } = .ok page ∧
      page.pagination.totalPages =
        pageCount (countLists db boardId) (query.listPageSize.getD contentPageSize) ∧
      (page.lists.flatMap fun list => list.cards.map fun card => card.id) =
        (((listsOf le db boardId).drop ((n - 1) * query.listPageSize.getD contentPageSize)).take
          (query.listPageSize.getD contentPageSize)).flatMap fun p =>
            (cardsOf le db p.1).map Prod.fst := by
  simp only [BoardService.getBoardWithContent, BoardRepository.findByIdWithContent, h,
    Option.map_some, Option.getD_some]
  refine ⟨_, rfl, rfl, ?_⟩
  rw [List.flatMap_map]
  apply List.flatMap_congr
  intro p hp
  have hlist : p ∈ listsOf le db boardId := List.mem_of_mem_drop (List.mem_of_mem_take hp)
  rw [listPageContent, List.take_of_length_le (henough p hlist), List.map_map]
  rfl

/-- The pages together hold the active cards of all active lists. -/
theorem contentCards_eq
    (h : BoardRepository.findById db boardId (some workspaceId) = some board)
    {query : BoardContentQuery} (hsize : ∀ n ∈ query.listPageSize, 0 < n)
    (henough : EnoughCards le db boardId query) :
    contentCards le db boardId workspaceId query =
      .ok ((listsOf le db boardId).flatMap fun p => (cardsOf le db p.1).map Prod.fst) := by
  have hpos : 0 < query.listPageSize.getD contentPageSize := by
    cases hn : query.listPageSize with
    | none => decide
    | some n => exact hsize n hn
  choose page hok htotal hcards using getBoardWithContent_page h henough
  have hpages : (List.range' 1 (page 1).pagination.totalPages).mapM
      (fun n => BoardService.getBoardWithContent le db boardId workspaceId
        { query with listPage := some n }) =
        .ok ((List.range' 1 (page 1).pagination.totalPages).map page) := by
    simp only [hok]
    exact List.mapM_pure
  have hslices : (List.range' 1 (page 1).pagination.totalPages).flatMap
      (fun n => ((listsOf le db boardId).drop ((n - 1) * query.listPageSize.getD contentPageSize)).take
        (query.listPageSize.getD contentPageSize)) = listsOf le db boardId := by
    have hlength : (listsOf le db boardId).length = countLists db boardId := length_listsOf
    rw [htotal 1, ← hlength]
    exact flatMap_allPages _ hpos
  calc
    contentCards le db boardId workspaceId query =
        .ok (((List.range' 1 (page 1).pagination.totalPages).map page).flatMap fun page =>
          page.lists.flatMap fun list => list.cards.map fun card => card.id) := by
      simp only [contentCards, hok 1, hpages, bind, Except.bind]
      rfl
    _ = .ok ((listsOf le db boardId).flatMap fun p => (cardsOf le db p.1).map Prod.fst) := by
      rw [List.flatMap_map]
      simp only [hcards]
      rw [← List.flatMap_assoc, hslices]

theorem mem_contentCards {id : Uuid} :
    id ∈ ((listsOf le db boardId).flatMap fun p => (cardsOf le db p.1).map Prod.fst) ↔
      ∃ card, db.cards.get? id = some card ∧ card.isActive = true ∧
        ∃ list, db.lists.get? card.listId = some list ∧ list.boardId = boardId ∧
          list.isActive = true := by
  rw [List.mem_flatMap]
  constructor
  · rintro ⟨⟨listId, list⟩, hlist, hid⟩
    obtain ⟨⟨id, card⟩, hmem, rfl⟩ := List.mem_map.mp hid
    obtain ⟨hcard, rfl, hactive⟩ := mem_cardsOf.mp hmem
    exact ⟨card, hcard, hactive, list, mem_listsOf.mp hlist⟩
  · rintro ⟨card, hcard, hactive, list, hlist⟩
    refine ⟨(card.listId, list), mem_listsOf.mpr hlist, List.mem_map.mpr ⟨(id, card), ?_, rfl⟩⟩
    exact mem_cardsOf.mpr ⟨hcard, rfl, hactive⟩

variable (le) in
/-- The content shows what the other views show exactly where no active card is in a list
that is archived or deleted. -/
theorem contentCards_eq_activeCards :
    ((listsOf le db boardId).flatMap fun p => (cardsOf le db p.1).map Prod.fst).toFinset =
      activeCards db boardId ↔ db.cards.All fun _ card => ¬ Stray db boardId card := by
  rw [Finset.ext_iff]
  simp only [List.mem_toFinset, mem_contentCards, mem_activeCards]
  constructor
  · intro h id card hcard hstray
    obtain ⟨hactive, list, hlist, hboard, harchived⟩ := hstray
    obtain ⟨card', hcard', -, list', hlist', -, hlistActive⟩ :=
      (h id).mpr ⟨card, hcard, hactive, list, hlist, hboard⟩
    obtain rfl := Option.some.inj (hcard.symm.trans hcard')
    obtain rfl := Option.some.inj (hlist.symm.trans hlist')
    rw [harchived] at hlistActive
    cases hlistActive
  · intro h id
    constructor
    · rintro ⟨card, hcard, hactive, list, hlist, hboard, -⟩
      exact ⟨card, hcard, hactive, list, hlist, hboard⟩
    · rintro ⟨card, hcard, hactive, list, hlist, hboard⟩
      refine ⟨card, hcard, hactive, list, hlist, hboard, ?_⟩
      by_contra hinactive
      rw [Bool.not_eq_true] at hinactive
      exact h id card hcard ⟨hactive, list, hlist, hboard, hinactive⟩

theorem totalCards_eq {query : BoardContentQuery} {page : BoardContentPage}
    (h : BoardService.getBoardWithContent le db boardId workspaceId query = .ok page) :
    page.pagination.totalCards = (activeCards db boardId).card := by
  have hcount : countCards db boardId = (activeCards db boardId).card := by
    rw [activeCards, List.toFinset_card_of_nodup nodup_boardCards, List.length_map]
    rfl
  rw [BoardService.getBoardWithContent] at h
  split at h
  · cases h
  · obtain rfl := Except.ok.inj h
    exact hcount

/-- Some page of cards is large enough. -/
theorem exists_enoughCards : ∃ n, EnoughCards le db boardId { cardPageSize := some n } := by
  refine ⟨db.cards.rows.length, fun p _ => ?_⟩
  rw [cardsOf, List.length_insertionSort]
  exact List.length_filter_le _ _

/-- The views of a board agree exactly where none of its active cards is in a list that is
archived or deleted. -/
theorem viewsAgree_iff
    (h : BoardRepository.findById db boardId (some workspaceId) = some board) :
    ViewsAgree store le db boardId workspaceId ↔
      db.cards.All fun _ card => ¬ Stray db boardId card := by
  rw [← contentCards_eq_activeCards le]
  constructor
  · rintro ⟨cards, htable, -, hcontent, -⟩
    obtain ⟨n, henough⟩ : ∃ n, EnoughCards le db boardId { cardPageSize := some n } :=
      exists_enoughCards
    have hunfiltered : CardTableFilters.Unfiltered {} := ⟨rfl, rfl, rfl, by simp⟩
    have hactive : Shows (TableShows store db boardId workspaceId {}) (activeCards db boardId) :=
      tableShows_activeCards h hunfiltered (by simp)
    obtain ⟨l, hl⟩ := hactive.1
    have hcards : cards = activeCards db boardId :=
      ((htable {} hunfiltered (by simp)).2 l hl).symm.trans (hactive.2 l hl)
    rw [← hcards]
    exact (hcontent _ (by simp) henough).2 _ (contentCards_eq h (by simp) henough)
  · intro hsame
    refine ⟨activeCards db boardId, fun query hfilters hlimit => ?_, fun query hlimit => ?_,
      fun query hsize henough => ?_, fun query page hpage => totalCards_eq hpage⟩
    · exact tableShows_activeCards h hfilters hlimit
    · exact timelineShows_activeCards h hlimit
    · have heq := contentCards_eq h hsize henough
      refine ⟨⟨_, heq⟩, fun l hl => ?_⟩
      rw [heq] at hl
      rw [← Except.ok.inj hl]
      exact hsame

end Views

end SyncBoard.Board
