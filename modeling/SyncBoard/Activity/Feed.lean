import SyncBoard.Activity.Cursor
import SyncBoard.Lib.Table

/-!
# The activity feed of a workspace

`getWorkspacePage`. The cursor is the whole key that the feed is ordered by, so a page
starts where the one before has stopped, whatever has become of the table.

## Implementation notes

A row is stored under its primary key, which is its id with the time of its creation.
`action`, `payload` and `metadata` are returned as they are stored and left out.
-/

namespace SyncBoard.Activity

open Relational Relational.Table Paging

inductive EntityType
  | board
  | list
  | card
  | comment
  | label
  | assignee
  | attachment
  | document
  | workspace
  deriving DecidableEq, Repr

/-- The primary key of `activities`: `id` and `createdAt`. -/
@[ext]
structure ActivityKey where
  id : Int
  createdAt : Int
  deriving DecidableEq, Repr

/-- The rest of a row of `activities`, as far as it is read here. -/
structure ActivityRow where
  workspaceId : Uuid
  boardId : Option Uuid := none
  entityType : EntityType
  entityId : Uuid
  actorId : Uuid
  deriving DecidableEq, Repr

/-- `Activity`. -/
abbrev StoredActivity := ActivityKey × ActivityRow

abbrev Activities := Table ActivityKey ActivityRow

structure ActivityFilters where
  entityType : Option EntityType := none
  entityId : Option Uuid := none
  actorId : Option Uuid := none
  boardId : Option Uuid := none
  deriving DecidableEq, Repr

/-- The conditions of `getWorkspacePage`, without the cursor. -/
def ActivityFilters.admits (filters : ActivityFilters) (workspaceId : Uuid) (row : ActivityRow) :
    Bool :=
  row.workspaceId == workspaceId && filters.entityType.all (row.entityType == ·) &&
    filters.entityId.all (row.entityId == ·) && filters.actorId.all (row.actorId == ·) &&
    filters.boardId.all (row.boardId == some ·)

/-- The `OR` of `getWorkspacePage`, for what was decoded from the cursor. -/
def isOlder (createdAt id : Int) (key : ActivityKey) : Bool :=
  decide (key.createdAt < createdAt) || (key.createdAt == createdAt && decide (key.id < id))

/-- `orderBy: [{ createdAt: 'desc' }, { id: 'desc' }]`. -/
def activityOrder (activity : StoredActivity) : Newest Int Int :=
  newest activity.1.createdAt activity.1.id

def activityCursor (activity : StoredActivity) : JsString :=
  encodeActivityCursor activity.1.createdAt (bigintToString activity.1.id)

/-- What was decoded from the cursor, if there is one. -/
def feedBoundary : Option JsString → Except BadRequest (Option (Int × Int))
  | none => .ok none
  | some cursor => (decodeActivityCursor cursor).map some

def getWorkspacePage (activities : Activities) (workspaceId : Uuid) (filters : ActivityFilters)
    (cursor : Option JsString) (limit : Nat) :
    Except BadRequest (PaginatedResult StoredActivity JsString) :=
  (feedBoundary cursor).map fun boundary =>
    let rows := activities.rows.filter fun activity =>
      boundary.all (fun b => isOlder b.1 b.2 activity.1) && filters.admits workspaceId activity.2
    buildCursorPagination ((after activityOrder none rows).take (limit + 1)) limit activityCursor

/-- The rows of the feed, in no order. -/
def feedRows (workspaceId : Uuid) (filters : ActivityFilters) (activities : Activities) :
    List StoredActivity :=
  activities.rows.filter fun activity => filters.admits workspaceId activity.2

/-- Where the page of a cursor starts. -/
def feedStart (cursor : Option JsString) : Option (Newest Int Int) :=
  (feedBoundary cursor).toOption.join.map fun b => newest b.1 b.2

/-- One activity comes before another in the feed. -/
def IsNewer (a b : StoredActivity) : Prop :=
  b.1.createdAt < a.1.createdAt ∨ b.1.createdAt = a.1.createdAt ∧ b.1.id < a.1.id

section Feed
variable {workspaceId : Uuid} {filters : ActivityFilters} {activities : Activities}
variable {cursor : Option JsString} {limit : Nat} {page : PaginatedResult StoredActivity JsString}

theorem all_isOlder (boundary : Option (Int × Int)) (activity : StoredActivity) :
    boundary.all (fun b => isOlder b.1 b.2 activity.1) =
      decide (Beyond (boundary.map fun b => newest b.1 b.2) (activityOrder activity)) :=
  all_eq_beyond (fun _ => newest_lt_eq_or _ _ _ _) boundary

theorem isPage_getWorkspacePage
    (h : getWorkspacePage activities workspaceId filters cursor limit = .ok page) :
    IsPage activityCursor limit
      (after activityOrder (feedStart cursor) (feedRows workspaceId filters activities)) page := by
  cases hb : feedBoundary cursor with
  | error e =>
      rw [getWorkspacePage, hb] at h
      cases h
  | ok boundary =>
      rw [getWorkspacePage, hb] at h
      obtain rfl := Except.ok.inj h
      have hrows : after activityOrder none (activities.rows.filter fun activity =>
          boundary.all (fun b => isOlder b.1 b.2 activity.1) &&
            filters.admits workspaceId activity.2) =
          after activityOrder (feedStart cursor) (feedRows workspaceId filters activities) := by
        rw [feedStart, hb]
        exact after_none_filter fun activity _ => by rw [all_isOlder]; rfl
      rw [← hrows]
      exact isPage_buildCursorPagination _ limit activityCursor

theorem activityOrder_lt {a b : StoredActivity} :
    activityOrder a < activityOrder b ↔ IsNewer a b :=
  newest_lt

theorem activityOrder_inj {a b : StoredActivity} :
    activityOrder a = activityOrder b ↔ a.1 = b.1 := by
  rw [activityOrder, activityOrder, newest_inj, ActivityKey.ext_iff, And.comm]

/-- A page starts at the row whose cursor it is given. -/
theorem feedStart_activityCursor {activity : StoredActivity}
    (h : getWorkspacePage activities workspaceId filters (some (activityCursor activity)) limit =
      .ok page) :
    feedStart (some (activityCursor activity)) = some (activityOrder activity) := by
  cases hb : decodeActivityCursor (activityCursor activity) with
  | error e =>
      simp only [getWorkspacePage, feedBoundary, hb] at h
      cases h
  | ok b =>
      obtain rfl := decode_encode hb
      simp only [feedStart, feedBoundary, hb]
      rfl

theorem keyed_feedRows (activities : Activities) :
    Keyed activityOrder (feedRows workspaceId filters) activities :=
  nodup_map_filter_rows (fun _ _ => activityOrder_inj.mp) _

theorem holds_feedRows {key : ActivityKey} {row : ActivityRow}
    (hget : activities.get? key = some row) (hrow : filters.admits workspaceId row = true) :
    Holds activityOrder (feedRows workspaceId filters) (fun activity => activity.1 == key)
      (newest key.createdAt key.id) activities := by
  exact ⟨(key, row), filter_rows_key hget hrow, rfl⟩

variable (workspaceId filters limit) in
/-- The activity feed over tables that need not have anything to do with each other. -/
theorem returnsOnce_feed {tables : List Activities} {l : List StoredActivity}
    (h : Follows (fun activities cursor =>
      getWorkspacePage activities workspaceId filters cursor limit) none tables l) :
    ReturnsOnce IsNewer Prod.fst (fun key => ∀ activities ∈ tables, ∃ row,
      activities.get? key = some row ∧ filters.admits workspaceId row = true) l := by
  obtain ⟨hpairwise, -, honce⟩ := h.keyset (fun _ _ _ _ hr => isPage_getWorkspacePage hr)
    (fun _ _ => rfl) (fun _ _ _ _ _ _ _ hr => feedStart_activityCursor hr)
    (fun activities _ => keyed_feedRows activities)
  refine ⟨hpairwise.imp activityOrder_lt.mp, ?_, fun key hkey => ?_⟩
  · apply List.pairwise_map.mpr
    exact hpairwise.imp fun hlt heq => hlt.ne (activityOrder_inj.mpr heq)
  · rw [List.count_eq_countP, List.countP_map]
    apply honce _ (newest key.createdAt key.id)
    intro activities hmem
    obtain ⟨row, hget, hrow⟩ := hkey activities hmem
    exact holds_feedRows hget hrow

end Feed

end SyncBoard.Activity
