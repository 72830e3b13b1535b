import Mathlib.Data.List.Pairwise
import SyncBoard.Activity.Feed
import SyncBoard.Lib.Run
import SyncBoard.Notification.Service

/-!
# The notification inbox

`findPageForUser`, and how the rows it reads may change between any two queries. The
cursor is an id: a page starts at the time under which its row is found, and there is
none when the row is gone. Times of creation never change and ids do not come back, so a
row that is still found is found where it was.

## Implementation notes

A request reads the row of the cursor in one query and the page in the next, so it sees
the table at two moments.
-/

namespace SyncBoard.Notification

open Relational Relational.Table Labelled Paging

abbrev Notifications := Table Uuid NotificationRow

/-- `Notification`. -/
abbrev StoredNotification := Uuid × NotificationRow

/-- `NotificationListQueryDto`. -/
structure NotificationListQuery where
  cursor : Option Uuid := none
  limit : Option Nat := none
  unreadOnly : Option Bool := none
  deriving DecidableEq, Repr

/-- The `OR` of `findPageForUser`, for the row of the cursor. -/
def isOlder (boundary row : StoredNotification) : Bool :=
  decide (row.2.createdAt < boundary.2.createdAt) ||
    (row.2.createdAt == boundary.2.createdAt && decide (row.1 < boundary.1))

/-- `orderBy: [{ createdAt: 'desc' }, { id: 'desc' }]`. -/
def notificationOrder (notification : StoredNotification) : Newest Timestamp Uuid :=
  newest notification.2.createdAt notification.1

/-- The row of the cursor, if there is a cursor. -/
def findBoundary (notifications : Notifications) (userId : Uuid) :
    Option Uuid → Except BadRequest (Option StoredNotification)
  | none => .ok none
  | some cursor =>
      match (notifications.get? cursor).filter (·.userId = userId) with
      | none => .error ⟨"Invalid notification cursor"⟩
      | some row => .ok (some (cursor, row))

/-- The row of the cursor is read from `atBoundary`, and the page from `atPage`. -/
def findPageForUser (atBoundary atPage : Notifications) (userId : Uuid)
    (query : NotificationListQuery) :
    Except BadRequest (PaginatedResult StoredNotification Uuid) :=
  let limit := query.limit.getD 20
  (findBoundary atBoundary userId query.cursor).map fun boundary =>
    let rows := atPage.rows.filter fun row =>
      boundary.all (isOlder · row) &&
        (row.2.userId == userId && (!query.unreadOnly.getD false || !row.2.isRead))
    buildCursorPagination ((after notificationOrder none rows).take (limit + 1)) limit Prod.fst

/-- The table, and the ids that have been in it and are not any more. -/
structure Inbox where
  notifications : Notifications := .empty
  deleted : List Uuid := []
  gone : ∀ id ∈ deleted, notifications.get? id = none := by simp

inductive Change
  | insert (id : Uuid) (row : NotificationRow)
  | markRead (id : Uuid)
  | markAllRead (userId : Uuid)
  | delete (id : Uuid)

namespace Inbox

/-- A row is inserted under an id that is new, with any content. -/
def insert (inbox : Inbox) (id : Uuid) (row : NotificationRow) : Option Inbox :=
  if hid : inbox.notifications.get? id = none ∧ id ∉ inbox.deleted then
    some
      { notifications := inbox.notifications.insert id row hid.1
        deleted := inbox.deleted
        gone := by
          intro j hj
          have hne : j ≠ id := fun heq => hid.2 (heq ▸ hj)
          rw [get?_insert, if_neg hne]
          exact inbox.gone j hj }
  else none

/-- Rows are rewritten in place. -/
def rewrite (inbox : Inbox) (f : Uuid → NotificationRow → NotificationRow) : Inbox where
  notifications := inbox.notifications.mapRows f
  deleted := inbox.deleted
  gone := by
    intro j hj
    rw [get?_mapRows, inbox.gone j hj, Option.map_none]

/-- A row that is there is deleted. -/
def delete (inbox : Inbox) (id : Uuid) : Option Inbox :=
  if (inbox.notifications.get? id).isSome then
    some
      { notifications := inbox.notifications.delete id
        deleted := id :: inbox.deleted
        gone := by
          intro j hj
          rw [get?_delete]
          split
          · rfl
          · next hne => exact inbox.gone j ((List.mem_cons.mp hj).resolve_left hne) }
  else none

def step (inbox : Inbox) : Change → Option Inbox
  | .insert id row => inbox.insert id row
  | .markRead id =>
      some (inbox.rewrite fun j row => if j = id then { row with isRead := true } else row)
  | .markAllRead userId =>
      some (inbox.rewrite fun id row =>
        if Store.isUnreadOf userId id row then { row with isRead := true } else row)
  | .delete id => inbox.delete id

/-- Any changes lead from one moment to another. -/
def Becomes (inbox inbox' : Inbox) : Prop :=
  ∃ changes, Run step inbox changes inbox'

/-- What no change touches. -/
def SameRow (row row' : NotificationRow) : Prop :=
  row'.userId = row.userId ∧ row'.createdAt = row.createdAt

/-- Rows keep their user and their time until they are deleted, and deleted ids stay so. -/
structure Evolves (inbox inbox' : Inbox) : Prop where
  kept : ∀ id row, inbox.notifications.get? id = some row →
    id ∈ inbox'.deleted ∨ ∃ row', inbox'.notifications.get? id = some row' ∧ SameRow row row'
  deleted : ∀ id ∈ inbox.deleted, id ∈ inbox'.deleted

variable {inbox inbox' inbox'' : Inbox}

theorem Evolves.refl (inbox : Inbox) : Evolves inbox inbox :=
  ⟨fun _ row h => .inr ⟨row, h, rfl, rfl⟩, fun _ h => h⟩

theorem Evolves.trans (h : Evolves inbox inbox') (h' : Evolves inbox' inbox'') :
    Evolves inbox inbox'' := by
  refine ⟨fun id row hrow => ?_, fun id hid => h'.deleted id (h.deleted id hid)⟩
  rcases h.kept id row hrow with hid | ⟨row', hrow', huser, htime⟩
  · exact .inl (h'.deleted id hid)
  · rcases h'.kept id row' hrow' with hid | ⟨row'', hrow'', huser', htime'⟩
    · exact .inl hid
    · exact .inr ⟨row'', hrow'', huser'.trans huser, htime'.trans htime⟩

theorem evolves_rewrite {f : Uuid → NotificationRow → NotificationRow}
    (hf : ∀ id row, SameRow row (f id row)) : Evolves inbox (inbox.rewrite f) := by
  refine ⟨fun id row hrow => .inr ⟨f id row, ?_, hf id row⟩, fun id hid => hid⟩
  rw [rewrite, get?_mapRows, hrow, Option.map_some]

theorem evolves_step {change : Change} (h : step inbox change = some inbox') :
    Evolves inbox inbox' := by
  cases change with
  | insert id row =>
      simp only [step, insert] at h
      split at h
      next hid =>
        obtain rfl := Option.some.inj h
        refine ⟨fun j row' hrow' => .inr ⟨row', ?_, rfl, rfl⟩, fun j hj => hj⟩
        have hne : j ≠ id := by
          rintro rfl
          rw [hid.1] at hrow'
          cases hrow'
        rw [get?_insert, if_neg hne]
        exact hrow'
      · cases h
  | markRead id =>
      obtain rfl := Option.some.inj h
      apply evolves_rewrite
      intro j row
      split <;> exact ⟨rfl, rfl⟩
  | markAllRead userId =>
      obtain rfl := Option.some.inj h
      apply evolves_rewrite
      intro j row
      split <;> exact ⟨rfl, rfl⟩
  | delete id =>
      simp only [step, delete] at h
      split at h
      · obtain rfl := Option.some.inj h
        refine ⟨fun j row hrow => ?_, fun j hj => List.mem_cons_of_mem id hj⟩
        by_cases hj : j = id
        · exact .inl (hj ▸ List.mem_cons_self)
        · refine .inr ⟨row, ?_, rfl, rfl⟩
          rw [get?_delete, if_neg hj]
          exact hrow
      · cases h

/-- No row that is found at both moments differs in what does not change. -/
def Agrees (inbox inbox' : Inbox) : Prop :=
  ∀ id row row', inbox.notifications.get? id = some row →
    inbox'.notifications.get? id = some row' → SameRow row row'

theorem Evolves.agrees (h : Evolves inbox inbox') : Agrees inbox inbox' := by
  intro id row row' hrow hrow'
  rcases h.kept id row hrow with hid | ⟨row'', hrow'', hsame⟩
  · rw [inbox'.gone id hid] at hrow'
    cases hrow'
  · obtain rfl := Option.some.inj (hrow''.symm.trans hrow')
    exact hsame

theorem agrees_of_isChain {moments : List Inbox} (h : moments.IsChain Becomes)
    (ha : inbox ∈ moments) (hb : inbox' ∈ moments) : Agrees inbox inbox' := by
  have hevolves : moments.Pairwise Evolves :=
    pairwise_of_isChain Evolves.refl Evolves.trans (fun _ _ _ => evolves_step) h
  have hsymm : Std.Symm Agrees := by
    constructor
    intro a b hab id row row' hrow hrow'
    obtain ⟨huser, htime⟩ := hab id row' row hrow' hrow
    exact ⟨huser.symm, htime.symm⟩
  exact (hevolves.imp Evolves.agrees).forall_of_forall (fun a _ => (Evolves.refl a).agrees) ha hb

end Inbox

/-- One notification comes before another in the inbox. -/
def IsNewer (a b : StoredNotification) : Prop :=
  b.2.createdAt < a.2.createdAt ∨ b.2.createdAt = a.2.createdAt ∧ b.1 < a.1

/-- The notifications of a user, in no order. -/
def inboxRows (userId : Uuid) (notifications : Notifications) : List StoredNotification :=
  notifications.rows.filter fun row => row.2.userId == userId

/-- Where the page of a cursor starts. -/
def inboxStart (notifications : Notifications) (userId : Uuid) (cursor : Option Uuid) :
    Option (Newest Timestamp Uuid) :=
  (findBoundary notifications userId cursor).toOption.join.map notificationOrder

section Walks
variable {atBoundary atPage : Notifications} {userId : Uuid} {query : NotificationListQuery}
variable {page : PaginatedResult StoredNotification Uuid}

theorem all_isOlder (boundary : Option StoredNotification) (row : StoredNotification) :
    boundary.all (isOlder · row) =
      decide (Beyond (boundary.map notificationOrder) (notificationOrder row)) :=
  all_eq_beyond (fun _ => newest_lt_eq_or _ _ _ _) boundary

variable (query) in
theorem isPage_findPageForUser (hquery : query.unreadOnly ≠ some true)
    (h : findPageForUser atBoundary atPage userId query = .ok page) :
    IsPage Prod.fst (query.limit.getD 20) (after notificationOrder
      (inboxStart atBoundary userId query.cursor) (inboxRows userId atPage)) page := by
  have hall : query.unreadOnly.getD false = false := by
    cases hunread : query.unreadOnly with
    | none => rfl
    | some unread => simpa [hunread] using hquery
  cases hb : findBoundary atBoundary userId query.cursor with
  | error e =>
      rw [findPageForUser, hb] at h
      cases h
  | ok boundary =>
      rw [findPageForUser, hb] at h
      obtain rfl := Except.ok.inj h
      have hrows : after notificationOrder none (atPage.rows.filter fun row =>
          boundary.all (isOlder · row) && (row.2.userId == userId &&
            (!query.unreadOnly.getD false || !row.2.isRead))) =
          after notificationOrder (inboxStart atBoundary userId query.cursor)
            (inboxRows userId atPage) := by
        rw [inboxStart, hb]
        apply after_none_filter
        intro row _
        rw [all_isOlder, hall, Bool.not_false, Bool.true_or, Bool.and_true]
        rfl
      rw [← hrows]
      exact isPage_buildCursorPagination _ _ _

theorem notificationOrder_inj {a b : StoredNotification} :
    notificationOrder a = notificationOrder b ↔ a.2.createdAt = b.2.createdAt ∧ a.1 = b.1 :=
  newest_inj

/-- A page starts at the row whose cursor it is given, where that has not moved. -/
theorem inboxStart_of_row {row : StoredNotification}
    (hrow : ∀ row', atBoundary.get? row.1 = some row' → row'.createdAt = row.2.createdAt)
    (h : findPageForUser atBoundary atPage userId { query with cursor := some row.1 } = .ok page) :
    inboxStart atBoundary userId (some row.1) = some (notificationOrder row) := by
  cases hb : findBoundary atBoundary userId (some row.1) with
  | error e =>
      simp only [findPageForUser, hb] at h
      cases h
  | ok boundary =>
      simp only [findBoundary] at hb
      split at hb
      · cases hb
      next row' hfound =>
        obtain ⟨hget, -⟩ := Option.filter_eq_some_iff.mp hfound
        rw [inboxStart, findBoundary, hfound]
        have htime := hrow row' hget
        simp [Except.toOption, notificationOrder, htime]

theorem keyed_inboxRows (notifications : Notifications) :
    Keyed notificationOrder (inboxRows userId) notifications :=
  nodup_map_filter_rows (fun _ _ h => (notificationOrder_inj.mp h).2) _

theorem notificationOrder_lt {a b : StoredNotification} :
    notificationOrder a < notificationOrder b ↔ IsNewer a b :=
  newest_lt

variable (userId query) in
/-- The inbox of a user, whatever happens to the table between the queries. -/
theorem returnsOnce_inbox {requests : List (Inbox × Inbox)} {l : List StoredNotification}
    (hquery : query.unreadOnly ≠ some true) (hmoments : (moments requests).IsChain Inbox.Becomes)
    (h : Follows (fun (request : Inbox × Inbox) cursor =>
      findPageForUser request.1.notifications request.2.notifications userId
        { query with cursor }) none requests l) :
    ReturnsOnce IsNewer Prod.fst (fun id => ∀ inbox ∈ moments requests, ∃ row,
      inbox.notifications.get? id = some row ∧ row.userId = userId) l := by
  have hboundary : ∀ request ∈ requests, request.1 ∈ moments requests :=
    fun request h => List.mem_flatMap.mpr ⟨request, h, by simp⟩
  have hrows : ∀ request ∈ requests, request.2 ∈ moments requests :=
    fun request h => List.mem_flatMap.mpr ⟨request, h, by simp⟩
  have hpage : ∀ request ∈ requests, ∀ cursor page,
      findPageForUser request.1.notifications request.2.notifications userId
        { query with cursor } = .ok page →
      IsPage Prod.fst (query.limit.getD 20) (after notificationOrder
        (inboxStart request.1.notifications userId cursor)
        (inboxRows userId request.2.notifications)) page :=
    fun request _ cursor page hr => isPage_findPageForUser { query with cursor } hquery hr
  have hresume : ∀ request ∈ requests, ∀ next ∈ requests,
      ∀ row ∈ inboxRows userId request.2.notifications, ∀ page,
        findPageForUser next.1.notifications next.2.notifications userId
          { query with cursor := some row.1 } = .ok page →
        inboxStart next.1.notifications userId (some row.1) = some (notificationOrder row) := by
    intro request hrequest next hnext row hrow page hr
    apply inboxStart_of_row _ hr
    intro row' hrow'
    have hget := (mem_rows_iff _ row.1 row.2).mp (List.mem_filter.mp hrow).1
    exact (Inbox.agrees_of_isChain hmoments (hrows request hrequest) (hboundary next hnext)
      row.1 row.2 row' hget hrow').2
  obtain ⟨hpairwise, hmem, honce⟩ := h.keyset hpage (fun _ _ => rfl) hresume
    (fun request _ => keyed_inboxRows request.2.notifications)
  refine ⟨hpairwise.imp notificationOrder_lt.mp, ?_, fun id hid => ?_⟩
  · -- a row that came twice would have been found at two times
    apply List.pairwise_map.mpr
    refine hpairwise.imp_of_mem fun {a b} ha hb hlt heq => ?_
    obtain ⟨request, hrequest, ha⟩ := hmem a ha
    obtain ⟨request', hrequest', hb⟩ := hmem b hb
    have hget := (mem_rows_iff _ a.1 a.2).mp (List.mem_filter.mp ha).1
    have hget' := (mem_rows_iff _ b.1 b.2).mp (List.mem_filter.mp hb).1
    rw [← heq] at hget'
    have hsame := Inbox.agrees_of_isChain hmoments (hrows request hrequest)
      (hrows request' hrequest') a.1 a.2 b.2 hget hget'
    exact hlt.ne (notificationOrder_inj.mpr ⟨hsame.2.symm, heq⟩)
  · rw [List.count_eq_countP, List.countP_map]
    obtain ⟨first, hfirst⟩ : ∃ request, request ∈ requests := by
      cases h with
      | last => exact ⟨_, List.mem_cons_self⟩
      | more => exact ⟨_, List.mem_cons_self⟩
    obtain ⟨row, hget, -⟩ := hid first.2 (hrows first hfirst)
    apply honce _ (newest row.createdAt id)
    intro request hrequest
    obtain ⟨row', hget', huser⟩ := hid request.2 (hrows request hrequest)
    have hsame := Inbox.agrees_of_isChain hmoments (hrows first hfirst) (hrows request hrequest)
      id row row' hget hget'
    refine ⟨(id, row'), filter_rows_key hget' (beq_iff_eq.mpr huser), ?_⟩
    rw [notificationOrder, hsame.2]

end Walks

/-- Neither feed skips or repeats a row. A request for the inbox fails where the row of its
cursor is gone; the walk then has no end and is not one of these. -/
theorem feeds_returnOnce :
    (∀ (userId : Uuid) (query : NotificationListQuery) (requests : List (Inbox × Inbox))
      (l : List StoredNotification), query.unreadOnly ≠ some true →
      (moments requests).IsChain Inbox.Becomes →
      Follows (fun (request : Inbox × Inbox) cursor =>
        findPageForUser request.1.notifications request.2.notifications userId
          { query with cursor }) none requests l →
      ReturnsOnce IsNewer Prod.fst (fun id => ∀ inbox ∈ moments requests, ∃ row,
        inbox.notifications.get? id = some row ∧ row.userId = userId) l) ∧
    ∀ (workspaceId : Uuid) (filters : Activity.ActivityFilters) (limit : Nat)
      (tables : List Activity.Activities) (l : List Activity.StoredActivity),
      Follows (fun activities cursor =>
        Activity.getWorkspacePage activities workspaceId filters cursor limit) none tables l →
      ReturnsOnce Activity.IsNewer Prod.fst (fun key => ∀ activities ∈ tables, ∃ row,
        activities.get? key = some row ∧ filters.admits workspaceId row = true) l :=
  ⟨fun userId query _ _ hquery hmoments h => returnsOnce_inbox userId query hquery hmoments h,
    fun workspaceId filters limit _ _ h => Activity.returnsOnce_feed workspaceId filters limit h⟩

/-- Between two pages a row is inserted under the time of the next one, which is marked as
read, and a row of the first page is deleted. -/
theorem feeds_returnOnce_whileChanging :
    (∃ (requests : List (Inbox × Inbox)) (l : List StoredNotification),
      l.map Prod.fst = [5, 4, 9, 3] ∧
      ReturnsOnce IsNewer Prod.fst (fun id => ∀ inbox ∈ moments requests, ∃ row,
        inbox.notifications.get? id = some row ∧ row.userId = 1) l) ∧
    ∃ (tables : List Activity.Activities) (l : List Activity.StoredActivity),
      l.map Prod.fst = [⟨2, 7⟩, ⟨1, 7⟩] ∧
      ReturnsOnce Activity.IsNewer Prod.fst (fun key => ∀ activities ∈ tables, ∃ row,
        activities.get? key = some row ∧
          Activity.ActivityFilters.admits {} 1 row = true) l := by
  constructor
  · let row (createdAt : Timestamp) : NotificationRow := { messageId := 0, userId := 1, createdAt }
    let inserts : List Change := [.insert 3 (row 9), .insert 4 (row 10), .insert 5 (row 10)]
    let changes : List Change := [.insert 9 (row 9), .markRead 3, .delete 5]
    have hpages : ((exec Inbox.step {} inserts).bind fun before =>
        (exec Inbox.step before changes).map fun inbox =>
          (findPageForUser before.notifications before.notifications 1 { limit := some 2 },
            findPageForUser before.notifications inbox.notifications 1
              { cursor := some 4, limit := some 2 })) =
        some (.ok ⟨[(5, row 10), (4, row 10)], some 4, true⟩,
          .ok ⟨[(9, row 9), (3, { row 9 with isRead := true })], none, false⟩) := by
      decide +kernel
    obtain ⟨before, -, hchanges⟩ := Option.bind_eq_some_iff.mp hpages
    obtain ⟨inbox, hinbox, hboth⟩ := Option.map_eq_some_iff.mp hchanges
    obtain ⟨hfirst, hlast⟩ := Prod.mk.inj hboth
    have hmoments : (moments [(before, before), (before, inbox)]).IsChain Inbox.Becomes := by
      have hsame : Inbox.Becomes before before := ⟨[], .nil before⟩
      have hnext : Inbox.Becomes before inbox := ⟨changes, run_of_exec hinbox⟩
      simpa [moments] using ⟨hsame, hnext⟩
    exact ⟨_, _, rfl, feeds_returnOnce.1 1 { limit := some 2 } [(before, before), (before, inbox)] _
      (by decide) hmoments (.more hfirst rfl rfl (.last hlast rfl))⟩
  · let row : Activity.ActivityRow :=
      { workspaceId := 1, entityType := .card, entityId := 2, actorId := 3 }
    let before : Activity.Activities := ⟨[(⟨1, 7⟩, row), (⟨2, 7⟩, row)], by decide⟩
    let activities : Activity.Activities := ⟨[(⟨1, 7⟩, row), (⟨3, 9⟩, row)], by decide⟩
    have hfirst : Activity.getWorkspacePage before 1 {} none 1 =
        .ok ⟨[(⟨2, 7⟩, row)], some (Activity.activityCursor (⟨2, 7⟩, row)), true⟩ := by
      decide +kernel
    have hlast : Activity.getWorkspacePage activities 1 {}
        (some (Activity.activityCursor (⟨2, 7⟩, row))) 1 =
        .ok ⟨[(⟨1, 7⟩, row)], none, false⟩ := by
      decide +kernel
    exact ⟨_, _, rfl, feeds_returnOnce.2 1 {} 1 [before, activities] _
      (.more hfirst rfl rfl (.last hlast rfl))⟩

end SyncBoard.Notification
