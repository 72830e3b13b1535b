import SyncBoard.Board.CardsShown
import SyncBoard.SkippedRows

/-!
# Views of a board that changes

A client reads a view of a board page by page while others work on the board. A request whose
cursor card has left the view, as when it was archived meanwhile, misses the first card of its
page, and in an order by the due date, which may be null, all that is left. The results bound by
the number of such requests what a client misses of the cards that keep their places in the view.
-/

namespace SyncBoard.Board

open Relational Paging CardViewRepository

/-- An order of the active cards of a board, by a field that may be null or not, and a choice of
them. -/
structure CardView (boardId : Uuid) (α K : Type) [LinearOrder K] where
  key : α → K
  nullable : Bool
  idOf : α → Uuid
  load : Database → Uuid → CardRow → α
  rowsOf : Database → List α
  idOf_of_key : ∀ a b, key a = key b → idOf a = idOf b
  idOf_load : ∀ db id card, idOf (load db id card) = id
  rows_sublist : ∀ db,
    (rowsOf db).Sublist ((boardCards db boardId).map fun p => load db p.1 p.2)

namespace CardView
variable {boardId : Uuid} {α K : Type} [LinearOrder K] (view : CardView boardId α K)

/-- The query of a page. -/
def findPage (limit : Nat) (db : Database) (cursor : Option Uuid) : PaginatedResult α Uuid :=
  envelope view.idOf limit (findManyPage view.key (view.rowsOf db)
    (fun id => (db.cards.get? id).map (view.load db id)) view.nullable (limit + 1) cursor)

/-- The card is in the view. -/
def lists (db : Database) (id : Uuid) : Bool :=
  isListed view.idOf (view.rowsOf db) id

/-- The card of a cursor is there, and in the view if it is looked for in memory. -/
def Finds (db : Database) (cursor : Uuid) : Prop :=
  (∃ card, db.cards.get? cursor = some card) ∧
    (view.nullable = true → view.lists db cursor = true)

/-- The card is in the view, at a place. -/
def ShownAt (db : Database) (id : Uuid) (place : K) : Prop :=
  ∃ a ∈ view.rowsOf db, view.idOf a = id ∧ view.key a = place

/-- The cursor card has not moved towards the end since the page before. -/
def Stays (q : Resumption Uuid Database) : Prop :=
  ∀ a b, q.before.cards.get? q.cursor = some a → q.now.cards.get? q.cursor = some b →
    view.key (view.load q.now q.cursor b) ≤ view.key (view.load q.before q.cursor a)

/-- Where a page starts: at the place of the card under the cursor by then. -/
def start (db : Database) (cursor : Option Uuid) : Option K :=
  (cursor.bind fun id => (db.cards.get? id).map (view.load db id)).map view.key

theorem nodup_ids (db : Database) : ((view.rowsOf db).map view.idOf).Nodup := by
  have hids : ((boardCards db boardId).map fun p => view.load db p.1 p.2).map view.idOf =
      (boardCards db boardId).map Prod.fst := by
    rw [List.map_map]
    exact List.map_congr_left fun p _ => view.idOf_load db p.1 p.2
  have hsublist := (view.rows_sublist db).map view.idOf
  rw [hids] at hsublist
  exact nodup_boardCards.sublist hsublist

theorem keyed (db : Database) : Keyed view.key view.rowsOf db :=
  nodup_keys view.idOf_of_key (view.nodup_ids db)

/-- What is listed is a card of the database. -/
theorem exists_of_mem {db : Database} {a : α} (ha : a ∈ view.rowsOf db) :
    ∃ card, db.cards.get? (view.idOf a) = some card ∧ a = view.load db (view.idOf a) card := by
  obtain ⟨⟨id, card⟩, hmem, rfl⟩ := List.mem_map.mp ((view.rows_sublist db).subset ha)
  rw [view.idOf_load]
  exact ⟨card, (mem_boardCards.mp hmem).1, rfl⟩

/-- A request whose cursor card is not found shows nothing, and is the last one. -/
theorem findPage_of_missing (limit : Nat) {db : Database} {cursor : Uuid}
    (h : ¬view.Finds db cursor) : view.findPage limit db (some cursor) = ⟨[], none, false⟩ := by
  have hnone : findManyPage view.key (view.rowsOf db)
      (fun id => (db.cards.get? id).map (view.load db id)) view.nullable (limit + 1)
        (some cursor) = [] := by
    simp only [findManyPage]
    split
    next => rfl
    next row hrow =>
      obtain ⟨card, hcard, rfl⟩ := Option.map_eq_some_iff.mp hrow
      rw [if_pos]
      by_contra hquery
      refine h ⟨⟨card, hcard⟩, fun hnullable => ?_⟩
      rw [hnullable, Bool.true_and, List.all_eq_true] at hquery
      push Not at hquery
      obtain ⟨a, ha, hkey⟩ := hquery
      rw [ne_eq, decide_eq_true_iff, not_not] at hkey
      refine isListed_iff.mpr ⟨a, ha, ?_⟩
      exact (view.idOf_of_key _ _ hkey).trans (view.idOf_load db cursor card)
  rw [findPage, hnone]
  rfl

section Pages
variable {limit : Nat} {page : Database → Option Uuid → Except AppError (PaginatedResult α Uuid)}
  {dbs : List Database} {l : List α}

theorem skipping (hpage : ∀ db cursor r, page db cursor = .ok r →
      r = view.findPage limit db cursor) (db : Database) :
    Skipping view.idOf view.key view.rowsOf view.start limit view.Finds page db := by
  have hrow : ∀ a ∈ view.rowsOf db,
      (db.cards.get? (view.idOf a)).map (view.load db (view.idOf a)) = some a := by
    intro a ha
    obtain ⟨card, hcard, heq⟩ := view.exists_of_mem ha
    rw [hcard, Option.map_some, ← heq]
  have hcursor : ∀ id a, (db.cards.get? id).map (view.load db id) = some a → view.idOf a = id := by
    intro id a ha
    obtain ⟨card, -, rfl⟩ := Option.map_eq_some_iff.mp ha
    exact view.idOf_load db id card
  constructor
  · intro cursor r hr hfinds
    obtain rfl := hpage db cursor r hr
    rw [findPage, findManyPage_eq (view.keyed db) hrow hcursor view.idOf_of_key fun i hi => ?_]
    · exact isPage_envelope view.idOf limit _
    · obtain ⟨⟨card, hcard⟩, hlisted⟩ := hfinds i hi
      exact ⟨⟨_, by rw [hcard, Option.map_some]⟩, hlisted⟩
  · intro cursor r hr hmissing
    obtain rfl := hpage db (some cursor) r hr
    rw [view.findPage_of_missing limit hmissing]
    exact ⟨rfl, rfl⟩

/-- Of the cards that keep their places in a view, at most one is missed for each request whose
cursor card has left it. -/
theorem card_missed_le (hpage : ∀ db cursor r, page db cursor = .ok r →
      r = view.findPage limit db cursor) (h : Follows page none dbs l)
    (hfinds : ∀ q ∈ resumptions page none dbs, view.Finds q.now q.cursor)
    (hstays : ∀ q ∈ resumptions page none dbs, view.Stays q) {kept : Finset Uuid} {place : Uuid → K}
    (hkept : ∀ id ∈ kept, ∀ db ∈ dbs, view.ShownAt db id (place id)) :
    (kept.filter fun id => id ∉ l.map view.idOf).card ≤
      (resumptions page none dbs).countP fun q => !view.lists q.now q.cursor := by
  obtain ⟨db, hhead⟩ := h.exists_head
  have hback : ∀ q ∈ resumptions page none dbs, ∀ a ∈ view.rowsOf q.before,
      view.idOf a = q.cursor → ∀ k ∈ view.start q.now (some q.cursor), k ≤ view.key a := by
    intro q hq a ha hid k hk
    obtain ⟨b, hb, rfl⟩ := Option.map_eq_some_iff.mp hk
    obtain ⟨card, hcard, rfl⟩ := Option.map_eq_some_iff.mp hb
    obtain ⟨old, hold, heq⟩ := view.exists_of_mem ha
    rw [hid] at hold heq
    rw [heq]
    exact hstays q hq old card hold hcard
  have hbound := h.card_missed_le (fun db _ => view.skipping hpage db)
    (fun db _ => view.keyed db) hfinds hback hkept hhead (by rintro i ⟨⟩)
  have hnone : view.start db none = none := rfl
  simp only [hnone, beyond_none, true_and, skips, Nat.zero_add] at hbound
  exact hbound

end Pages

end CardView

section Views
variable {C : Type} [LinearOrder C] (store : ViewStore C) (boardId workspaceId : Uuid)

/-- The timeline. -/
def timelineView : CardView boardId Card TimelineKey where
  key := timelineKey store
  nullable := false
  idOf := Card.id
  load _ := Card.mk
  rowsOf db := timelineRows db boardId
  idOf_of_key _ _ h := congrArg (fun k => (ofLex k).2) h
  idOf_load _ _ _ := rfl
  rows_sublist _ := List.Sublist.refl _

/-- The order of the table view by a query. -/
def TableViewQuery.order (query : TableViewQuery) : SortOrder :=
  if query.sortOrder = some .asc then .asc else .desc

/-- The table view by a query. -/
def tableView (query : TableViewQuery) :
    CardView boardId CardWithDetails (TableKey C query.order) where
  key card := tableKey store (sortField query.sortBy) query.order card.toCard
  nullable := (sortField query.sortBy).nullable
  idOf card := card.id
  load := CardRepository.withDetails
  rowsOf db := tableRows store db boardId query.toCardTableFilters
  idOf_of_key _ _ h :=
    congrArg (fun k : TableKey C query.order => OrderDual.ofDual (ofLex k).2) h
  idOf_load _ _ _ := rfl
  rows_sublist _ := List.filter_sublist

/-- The calendar between two dates. -/
def calendarView (fromDate toDate : Timestamp) : CardView boardId Card CalendarKey where
  key := calendarKey
  nullable := true
  idOf := Card.id
  load _ := Card.mk
  rowsOf db := calendarRows db boardId fromDate toDate
  idOf_of_key _ _ h := congrArg (fun k : CalendarKey => (ofLex k).2) h
  idOf_load _ _ _ := rfl
  rows_sublist _ := List.filter_sublist

/-- The pages of the timeline. -/
def timelinePages (query : TimelineViewQuery) (db : Database) (cursor : Option Uuid) :
    Except AppError (PaginatedResult Card Uuid) :=
  CardViewService.timeline store db boardId workspaceId { query with cursor := cursor }

/-- The pages of the table view. -/
def tablePages (query : TableViewQuery) (db : Database) (cursor : Option Uuid) :
    Except AppError (PaginatedResult CardWithDetails Uuid) :=
  CardViewService.table store db boardId workspaceId { query with cursor := cursor }

/-- The pages of the calendar. -/
def calendarPages (query : CalendarViewQuery) (db : Database) (cursor : Option Uuid) :
    Except AppError (PaginatedResult Card Uuid) :=
  CardViewService.calendar db boardId workspaceId { query with cursor := cursor }

end Views

section Pages
variable {C : Type} [LinearOrder C] {store : ViewStore C} {boardId workspaceId : Uuid}
  {db : Database} {cursor : Option Uuid}

omit [LinearOrder C] in
theorem findPage_of_timelinePages {query : TimelineViewQuery} {r : PaginatedResult Card Uuid}
    (h : timelinePages store boardId workspaceId query db cursor = .ok r) :
    r = (timelineView store boardId).findPage (query.limit.getD 20) db cursor := by
  obtain ⟨_, -, h⟩ := Fallible.bind_eq_ok.mp h
  exact (Except.ok.inj h).symm

theorem findPage_of_tablePages {query : TableViewQuery} {r : PaginatedResult CardWithDetails Uuid}
    (h : tablePages store boardId workspaceId query db cursor = .ok r) :
    r = (tableView store boardId query).findPage (query.limit.getD 20) db cursor := by
  obtain ⟨_, -, h⟩ := Fallible.bind_eq_ok.mp h
  exact (Except.ok.inj h).symm

/-- The calendar is read between two dates that are given. -/
theorem findPage_of_calendarPages {query : CalendarViewQuery} {r : PaginatedResult Card Uuid}
    (h : calendarPages boardId workspaceId query db cursor = .ok r) :
    ∃ fromDate toDate, (query.fromDate <|> query.startDate) = some fromDate ∧
      (query.toDate <|> query.endDate) = some toDate ∧
      r = (calendarView boardId fromDate toDate).findPage (query.limit.getD 20) db cursor := by
  obtain ⟨_, -, h⟩ := Fallible.bind_eq_ok.mp h
  split at h
  · next fromDate toDate hfrom hto =>
      split_ifs at h
      exact ⟨fromDate, toDate, hfrom, hto, (Except.ok.inj h).symm⟩
  · cases h

omit [LinearOrder C] in
theorem lists_timelineView {id : Uuid} :
    (timelineView store boardId).lists db id = decide (id ∈ activeCards db boardId) := by
  have hids : (timelineRows db boardId).map Card.id = (boardCards db boardId).map Prod.fst := by
    rw [timelineRows, List.map_map]
    rfl
  rw [Bool.eq_iff_iff, decide_eq_true_iff, activeCards, List.mem_toFinset, ← hids, List.mem_map]
  exact isListed_iff

omit [LinearOrder C] in
theorem shownAt_timelineView {id : Uuid} (h : id ∈ activeCards db boardId) :
    (timelineView store boardId).ShownAt db id (toLex (store.createdAt id, id)) := by
  obtain ⟨card, hcard⟩ := mem_activeCards.mp h
  exact ⟨⟨id, card⟩, List.mem_map.mpr ⟨(id, card), mem_boardCards.mpr hcard, rfl⟩, rfl, rfl⟩

end Pages

/-- Who follows the timeline of a board while it changes is shown the cards in the order of their
creation and none twice; of the cards that are active on the board all the while, at most one is
missed for each request whose cursor card was not any more, as long as no cursor card is removed
from the table, which nothing does. -/
theorem timeline_misses {C : Type} (store : ViewStore C) (boardId workspaceId : Uuid)
    (query : TimelineViewQuery) {dbs : List Database} {cards : List Card}
    (h : Follows (timelinePages store boardId workspaceId query) none dbs cards) :
    cards.Pairwise (fun a b => timelineKey store a < timelineKey store b) ∧
      ∀ kept : Finset Uuid, (∀ db ∈ dbs, kept ⊆ activeCards db boardId) →
        (∀ q ∈ resumptions (timelinePages store boardId workspaceId query) none dbs,
          ∃ card, q.now.cards.get? q.cursor = some card) →
        (kept.filter fun id => id ∉ cards.map Card.id).card ≤
          (resumptions (timelinePages store boardId workspaceId query) none dbs).countP fun q =>
            decide (q.cursor ∉ activeCards q.now boardId) := by
  have hpage : ∀ db cursor r, timelinePages store boardId workspaceId query db cursor = .ok r →
      r = (timelineView store boardId).findPage (query.limit.getD 20) db cursor :=
    fun db cursor r hr => findPage_of_timelinePages hr
  constructor
  · obtain ⟨db, hhead⟩ := h.exists_head
    refine (h.pairwise (fun db _ => (timelineView store boardId).skipping hpage db)
      (fun db _ => (timelineView store boardId).keyed db) ?_ hhead).1
    intro q _ a _ hid hfinds
    -- the place of a card depends on its id alone
    obtain ⟨⟨card, hcard⟩, -⟩ := hfinds
    rw [CardView.start, Option.bind_some, hcard, ← hid]
    rfl
  · intro kept hkept hthere
    have hfinds : ∀ q ∈ resumptions (timelinePages store boardId workspaceId query) none dbs,
        (timelineView store boardId).Finds q.now q.cursor := fun q hq => ⟨hthere q hq, nofun⟩
    have hbound := (timelineView store boardId).card_missed_le hpage h hfinds ?_
      fun id hid db hdb => shownAt_timelineView (hkept db hdb hid)
    · simp only [lists_timelineView, ← decide_not] at hbound
      exact hbound
    · intro q _ a b _ _
      exact le_refl _

/-- The board of `oneBoard` with cards. -/
def boardWith (cards : Table Uuid CardRow)
    (hcards : cards.All fun _ card => card.Accepted { oneBoard.toTables with cards := cards }) :
    Database where
  toTables := { oneBoard.toTables with cards := cards }
  wellFormed := oneBoard.wellFormed.setCards (fun _ h => nomatch h) hcards

/-- A card of list 30. -/
def sampleCard (dueDate updatedAt : Timestamp) : CardRow where
  listId := 30
  title := js "Ship"
  rank := js "0|hzzzzz:"
  dueDate := some dueDate
  createdBy := 7
  updatedAt := updatedAt

def threeOpen : Database :=
  boardWith ⟨[(1, sampleCard 10 30), (2, sampleCard 20 20), (3, sampleCard 30 10)], by decide⟩
    (Table.All.of_rows (by decide))

/-- The first card was archived. -/
def firstArchived : Database :=
  boardWith ⟨[(1, { sampleCard 10 40 with archivedAt := some 40 }), (2, sampleCard 20 20),
    (3, sampleCard 30 10)], by decide⟩ (Table.All.of_rows (by decide))

/-- The client that follows the timeline misses the second card. -/
theorem timeline_misses_archived : ∃ cards,
    Follows (timelinePages codeUnitOrder 20 1 { limit := some 1 }) none [threeOpen, firstArchived]
        cards ∧ cards.map Card.id = [1, 3] ∧
      (({2, 3} : Finset Uuid).filter fun id => id ∉ cards.map Card.id).card ≤
        (resumptions (timelinePages codeUnitOrder 20 1 { limit := some 1 }) none
          [threeOpen, firstArchived]).countP fun q =>
            decide (q.cursor ∉ activeCards q.now 20) := by
  have hfirst : timelinePages codeUnitOrder 20 1 { limit := some 1 } threeOpen none =
      .ok { items := [⟨1, sampleCard 10 30⟩], cursor := some 1, hasMore := true } := rfl
  have hsecond : timelinePages codeUnitOrder 20 1 { limit := some 1 } firstArchived (some 1) =
      .ok { items := [⟨3, sampleCard 30 10⟩], cursor := some 3, hasMore := false } := rfl
  have follows := Follows.more hfirst rfl rfl (.last hsecond rfl)
  refine ⟨_, follows, rfl, (timeline_misses codeUnitOrder 20 1 _ follows).2 {2, 3} ?_ ?_⟩
  · decide
  · intro q hq
    obtain rfl := List.mem_singleton.mp hq
    exact ⟨_, rfl⟩

section Edited
variable {C : Type} [LinearOrder C] {store : ViewStore C} {order : SortOrder}

/-- Where a card comes that was changed last at a time. -/
def editedPlace (order : SortOrder) (id : Uuid) (updatedAt : Timestamp) : TableKey C order :=
  toLex (directed (Sum.inrₗ (updatedAt : WithTop Nat)) order, OrderDual.toDual id)

omit [LinearOrder C] in
theorem tableKey_updatedAt (card : Card) :
    tableKey store .updatedAt order card = editedPlace order card.id card.row.updatedAt := rfl

/-- Newest first, a change moves a card to the front. -/
theorem editedPlace_le {id : Uuid} {a b : Timestamp} (horder : order = .desc) (h : a ≤ b) :
    (editedPlace order id b : TableKey C order) ≤ editedPlace order id a := by
  subst horder
  have hle : (Sum.inrₗ (a : WithTop Nat) : SortValue C) ≤ Sum.inrₗ (b : WithTop Nat) :=
    Sum.Lex.inr_le_inr_iff.mpr (WithTop.coe_le_coe.mpr h)
  apply Prod.Lex.toLex_mono
  exact ⟨hle, le_refl _⟩

end Edited

/-- Who follows a table view that puts the card first which was changed last, as it does without a
choice of the client, misses of the cards that are not changed and match the filters all the while
at most one for each request whose cursor card did not match them any more, as long as no cursor
card is removed or gets an earlier time of change. -/
theorem table_misses {C : Type} [LinearOrder C] (store : ViewStore C) (boardId workspaceId : Uuid)
    (query : TableViewQuery) (hsort : sortField query.sortBy = .updatedAt)
    (horder : query.sortOrder ≠ some .asc) {dbs : List Database} {cards : List CardWithDetails}
    (h : Follows (tablePages store boardId workspaceId query) none dbs cards)
    (hgrows : ∀ q ∈ resumptions (tablePages store boardId workspaceId query) none dbs, ∃ b,
      q.now.cards.get? q.cursor = some b ∧
        ∀ a, q.before.cards.get? q.cursor = some a → a.updatedAt ≤ b.updatedAt)
    {kept : Finset Uuid} {updatedAt : Uuid → Timestamp}
    (hkept : ∀ id ∈ kept, ∀ db ∈ dbs, ∃ card ∈ tableRows store db boardId query.toCardTableFilters,
      card.id = id ∧ card.row.updatedAt = updatedAt id) :
    (kept.filter fun id => id ∉ cards.map fun card => card.id).card ≤
      (resumptions (tablePages store boardId workspaceId query) none dbs).countP fun q =>
        !(tableView store boardId query).lists q.now q.cursor := by
  have hdesc : query.order = .desc := if_neg horder
  have hshown : ∀ id ∈ kept, ∀ db ∈ dbs, (tableView store boardId query).ShownAt db id
      (editedPlace query.order id (updatedAt id)) := by
    intro id hid db hdb
    obtain ⟨card, hcard, rfl, hupdated⟩ := hkept id hid db hdb
    refine ⟨card, hcard, rfl, ?_⟩
    change tableKey store (sortField query.sortBy) query.order card.toCard = _
    rw [hsort, tableKey_updatedAt, hupdated]
  have hfinds : ∀ q ∈ resumptions (tablePages store boardId workspaceId query) none dbs,
      (tableView store boardId query).Finds q.now q.cursor := by
    intro q hq
    obtain ⟨b, hb, -⟩ := hgrows q hq
    refine ⟨⟨b, hb⟩, fun hnullable => ?_⟩
    have hfalse : (sortField query.sortBy).nullable = false := by
      rw [hsort, SortField.nullable]
    exact absurd (hnullable.symm.trans hfalse) (by decide)
  refine (tableView store boardId query).card_missed_le
    (fun db cursor r hr => findPage_of_tablePages hr) h hfinds ?_ hshown
  intro q hq a b ha hb
  obtain ⟨row, hrow, hle⟩ := hgrows q hq
  obtain rfl := Option.some.inj (hb.symm.trans hrow)
  change tableKey store (sortField query.sortBy) query.order ⟨q.cursor, b⟩ ≤
    tableKey store (sortField query.sortBy) query.order ⟨q.cursor, a⟩
  rw [hsort, tableKey_updatedAt, tableKey_updatedAt]
  exact editedPlace_le hdesc (hle a ha)

/-- The client that follows the table view misses it as well. -/
theorem table_misses_archived : ∃ cards,
    Follows (tablePages codeUnitOrder 20 1 { limit := some 1 }) none [threeOpen, firstArchived]
        cards ∧ cards.map (fun card => card.id) = [1, 3] ∧
      (({2, 3} : Finset Uuid).filter fun id => id ∉ cards.map fun card => card.id).card ≤
        (resumptions (tablePages codeUnitOrder 20 1 { limit := some 1 }) none
          [threeOpen, firstArchived]).countP fun q =>
            !(tableView codeUnitOrder 20 { limit := some 1 }).lists q.now q.cursor := by
  have hfirst : tablePages codeUnitOrder 20 1 { limit := some 1 } threeOpen none =
      .ok { items := [⟨⟨1, sampleCard 10 30⟩, [], []⟩], cursor := some 1, hasMore := true } := rfl
  have hsecond : tablePages codeUnitOrder 20 1 { limit := some 1 } firstArchived (some 1) =
      .ok { items := [⟨⟨3, sampleCard 30 10⟩, [], []⟩], cursor := some 3, hasMore := false } := rfl
  have follows := Follows.more hfirst rfl rfl (.last hsecond rfl)
  have hkept : ∀ id ∈ ({2, 3} : Finset Uuid), ∀ db ∈ [threeOpen, firstArchived],
      ∃ card ∈ tableRows codeUnitOrder db 20 {}, card.id = id ∧
        card.row.updatedAt = if id = 2 then 20 else 10 := by
    decide
  refine ⟨_, follows, rfl, table_misses codeUnitOrder 20 1 { limit := some 1 } rfl nofun follows
    ?_ hkept⟩
  intro q hq
  obtain rfl := List.mem_singleton.mp hq
  refine ⟨_, rfl, fun a ha => ?_⟩
  cases ha
  decide

/-- Who follows the calendar between two dates is shown cards that are due between them. A request
whose cursor card is not between them any more shows nothing and is the last one. Where no cursor
card is put off or taken out, the cards that are due at the same time and active on the board all
the while are all shown. -/
theorem calendar_followed (boardId workspaceId : Uuid) (query : CalendarViewQuery)
    {dbs : List Database} {cards : List Card}
    (h : Follows (calendarPages boardId workspaceId query) none dbs cards)
    {fromDate toDate : Timestamp} (hfrom : (query.fromDate <|> query.startDate) = some fromDate)
    (hto : (query.toDate <|> query.endDate) = some toDate) :
    (∀ card ∈ cards, ∃ due, card.row.dueDate = some due ∧ fromDate ≤ due ∧ due ≤ toDate) ∧
    (∀ db cursor r, calendarPages boardId workspaceId query db (some cursor) = .ok r →
      (calendarView boardId fromDate toDate).lists db cursor = false → r = ⟨[], none, false⟩) ∧
    ∀ (kept : Finset Uuid) (due : Uuid → Timestamp),
      (∀ id ∈ kept, fromDate ≤ due id ∧ due id ≤ toDate ∧ ∀ db ∈ dbs,
        id ∈ activeCards db boardId ∧
          (db.cards.get? id).bind CardRow.dueDate = some (due id)) →
      (∀ q ∈ resumptions (calendarPages boardId workspaceId query) none dbs,
        (calendarView boardId fromDate toDate).lists q.now q.cursor = true ∧ ∀ a b,
          q.before.cards.get? q.cursor = some a → q.now.cards.get? q.cursor = some b →
            dueOrLast b.dueDate ≤ dueOrLast a.dueDate) →
      ∀ id ∈ kept, id ∈ cards.map Card.id := by
  have hpage : ∀ db cursor r, calendarPages boardId workspaceId query db cursor = .ok r →
      r = (calendarView boardId fromDate toDate).findPage (query.limit.getD 20) db cursor := by
    intro db cursor r hr
    obtain ⟨fromDate', toDate', hfrom', hto', hfound⟩ := findPage_of_calendarPages hr
    obtain rfl := Option.some.inj (hfrom.symm.trans hfrom')
    obtain rfl := Option.some.inj (hto.symm.trans hto')
    exact hfound
  refine ⟨fun card hcard => ?_, fun db cursor r hr hlists => ?_, fun kept due hkept hstays => ?_⟩
  · obtain ⟨db, -, hmem⟩ := h.exists_mem
      (fun db _ => (calendarView boardId fromDate toDate).skipping hpage db) hcard
    have hdue := (List.mem_filter.mp hmem).2
    simp only [Option.any_eq_true, Bool.and_eq_true, decide_eq_true_eq] at hdue
    exact hdue
  · rw [hpage db (some cursor) r hr]
    apply CardView.findPage_of_missing
    intro hfinds
    exact absurd ((hfinds.2 rfl).symm.trans hlists) (by decide)
  · have hshown : ∀ id ∈ kept, ∀ db ∈ dbs, (calendarView boardId fromDate toDate).ShownAt db id
        (toLex ((due id : WithTop Timestamp), id)) := by
      intro id hid db hdb
      obtain ⟨hafter, hbefore, hdbs⟩ := hkept id hid
      obtain ⟨hactive, hdue⟩ := hdbs db hdb
      obtain ⟨card, hcard⟩ := mem_activeCards.mp hactive
      rw [hcard.1, Option.bind_some] at hdue
      have hmem : Card.mk id card ∈ calendarRows db boardId fromDate toDate := by
        have hrow := List.mem_map_of_mem (f := fun p : Uuid × CardRow => Card.mk p.1 p.2)
          (mem_boardCards.mpr hcard)
        refine List.mem_filter.mpr ⟨hrow, ?_⟩
        simp [hdue, hafter, hbefore]
      refine ⟨⟨id, card⟩, hmem, rfl, ?_⟩
      change toLex (dueOrLast card.dueDate, id) = _
      rw [hdue]
      rfl
    have hfinds : ∀ q ∈ resumptions (calendarPages boardId workspaceId query) none dbs,
        (calendarView boardId fromDate toDate).Finds q.now q.cursor := by
      intro q hq
      have hlists := (hstays q hq).1
      obtain ⟨a, ha, hid⟩ := isListed_iff.mp hlists
      obtain ⟨card, hcard, -⟩ := (calendarView boardId fromDate toDate).exists_of_mem ha
      rw [hid] at hcard
      exact ⟨⟨card, hcard⟩, fun _ => hlists⟩
    have hbound := (calendarView boardId fromDate toDate).card_missed_le hpage h hfinds
      (fun q hq a b ha hb => Prod.Lex.toLex_mono ⟨(hstays q hq).2 a b ha hb, le_refl _⟩) hshown
    have hnone : (resumptions (calendarPages boardId workspaceId query) none dbs).countP
        (fun q => !(calendarView boardId fromDate toDate).lists q.now q.cursor) = 0 := by
      rw [List.countP_eq_zero]
      intro q hq
      rw [(hstays q hq).1]
      decide
    rw [hnone, Nat.le_zero, Finset.card_eq_zero, Finset.filter_eq_empty_iff] at hbound
    exact fun id hid => not_not.mp (hbound hid)

/-- The first card is due earlier than before. -/
def firstEarlier : Database :=
  boardWith ⟨[(1, sampleCard 7 40), (2, sampleCard 20 20), (3, sampleCard 30 10)], by decide⟩
    (Table.All.of_rows (by decide))

/-- The client that follows the calendar meanwhile misses no card. -/
theorem calendar_followed_earlier : ∃ cards,
    Follows (calendarPages 20 1 { fromDate := some 5, toDate := some 50, limit := some 1 }) none
        [threeOpen, firstEarlier, firstEarlier] cards ∧
      ∀ id ∈ ({2, 3} : Finset Uuid), id ∈ cards.map Card.id := by
  have hfirst : calendarPages 20 1 { fromDate := some 5, toDate := some 50, limit := some 1 }
      threeOpen none =
      .ok { items := [⟨1, sampleCard 10 30⟩], cursor := some 1, hasMore := true } := rfl
  have hsecond : calendarPages 20 1 { fromDate := some 5, toDate := some 50, limit := some 1 }
      firstEarlier (some 1) =
      .ok { items := [⟨2, sampleCard 20 20⟩], cursor := some 2, hasMore := true } := rfl
  have hthird : calendarPages 20 1 { fromDate := some 5, toDate := some 50, limit := some 1 }
      firstEarlier (some 2) =
      .ok { items := [⟨3, sampleCard 30 10⟩], cursor := some 3, hasMore := false } := rfl
  have follows := Follows.more hfirst rfl rfl (.more hsecond rfl rfl (.last hthird rfl))
  refine ⟨_, follows, (calendar_followed 20 1 _ follows rfl rfl).2.2 {2, 3}
    (fun id => if id = 2 then 20 else 30) (by decide) ?_⟩
  intro q hq
  rcases List.mem_pair.mp hq with rfl | rfl
  · refine ⟨by decide, fun a b ha hb => ?_⟩
    cases ha
    cases hb
    decide
  · refine ⟨by decide, fun a b ha hb => ?_⟩
    cases ha
    cases hb
    exact le_refl _

/-- Where the first card was archived, the client is shown no other one. -/
example : calendarPages 20 1 { fromDate := some 5, toDate := some 50, limit := some 1 }
    firstArchived (some 1) = .ok ⟨[], none, false⟩ := rfl

end SyncBoard.Board
