import SyncBoard.Activity.Feed
import SyncBoard.Workspace.Services

/-!
# The actors of the activity feed

`getWorkspaceFeed` and `enrichWithActors`. The activities have no foreign key to the users, and
for a missing one there is a fallback. But `getProfile` throws the `NotFoundException` of the
framework, and only an `EntityNotFoundException` is caught: one missing actor fails the page.

## Implementation notes

Each distinct actor is looked up once, all at the same time. Every lookup that throws does so
with the same error, so it does not matter here which of them is the first to do so.
-/

namespace SyncBoard.Activity

open SyncBoard.Workspace (AppError Database User UserRepository.findByIdPublic)

/-- `AuthService.getProfile`, on what the lookup finds. -/
def getProfile (db : Database) (userId : Uuid) : Except AppError User :=
  match UserRepository.findByIdPublic db userId with
  | some user => .ok user
  | none => .error (.notFound "USER_NOT_FOUND")

/-- `error instanceof EntityNotFoundException`. -/
def isEntityNotFound : AppError → Bool
  | .entityNotFound _ _ => true
  | _ => false

/-- `ActivityActor`. -/
structure ActivityActor where
  id : Uuid
  displayName : JsString
  avatarUrl : Option JsString
  deriving DecidableEq, Repr

/-- `ActivityWithActor`. -/
structure ActivityWithActor where
  activity : StoredActivity
  actor : ActivityActor
  deriving DecidableEq, Repr

/-- The fallback. -/
def unknownUser (id : Uuid) : ActivityActor :=
  { id := id, displayName := js "Unknown user", avatarUrl := none }

/-- What the map of the actors gets for one of them. -/
def actorEntry (db : Database) (id : Uuid) : Except AppError (Uuid × ActivityActor) :=
  match getProfile db id with
  | .ok profile =>
      .ok (id, { id := id, displayName := profile.row.displayName, avatarUrl := profile.row.avatarUrl })
  | .error error => if isEntityNotFound error then .ok (id, unknownUser id) else .error error

/-- The entries of the map have different keys. -/
def enrichWithActors (db : Database) (rows : List StoredActivity) :
    Except AppError (List ActivityWithActor) := do
  let actors ← (rows.map fun row => row.2.actorId).eraseDups.mapM (actorEntry db)
  return rows.map fun row =>
    { activity := row, actor := (actors.lookup row.2.actorId).getD (unknownUser row.2.actorId) }

/-- What a read of the feed throws. -/
inductive FeedError
  | badRequest (error : BadRequest)
  | thrown (error : AppError)
  deriving DecidableEq, Repr

structure ActivityFeedQueryDto where
  filters : ActivityFilters := {}
  cursor : Option JsString := none
  limit : Option Nat := none

def getWorkspaceFeed (activities : Activities) (db : Database) (workspaceId : Uuid)
    (query : ActivityFeedQueryDto) :
    Except FeedError (PaginatedResult ActivityWithActor JsString) := do
  let page ← (getWorkspacePage activities workspaceId query.filters query.cursor
    (query.limit.getD 20)).mapError .badRequest
  let items ← (enrichWithActors db page.items).mapError .thrown
  return { items := items, cursor := page.cursor, hasMore := page.hasMore }

/-- The profile of the actor, or the fallback. -/
def actorOf (db : Database) (id : Uuid) : ActivityActor :=
  match UserRepository.findByIdPublic db id with
  | some user => { id := id, displayName := user.row.displayName, avatarUrl := user.row.avatarUrl }
  | none => unknownUser id

/-- Every row in its place, with its actor. -/
def withActors (db : Database) (rows : List StoredActivity) : List ActivityWithActor :=
  rows.map fun row => { activity := row, actor := actorOf db row.2.actorId }

/-- The actor of an activity is a user. -/
def HasActor (db : Database) (row : StoredActivity) : Prop :=
  (UserRepository.findByIdPublic db row.2.actorId).isSome = true

/-- The lookup is the call of `AuthService`. -/
theorem getProfile_eq (x : Workspace.Outside) (userId : Uuid) (w : Workspace.World) :
    (Workspace.AuthService.getProfile userId).exec (Workspace.answer x) w =
      (getProfile w.db userId, w) := by
  have hask : (Workspace.AuthService.getProfile userId).exec (Workspace.answer x) w =
      (Interleaved.Program.demand (UserRepository.findByIdPublic w.db userId)
        (.notFound "USER_NOT_FOUND") : Workspace.Service User).exec (Workspace.answer x) w := rfl
  rw [hask]
  cases hfind : UserRepository.findByIdPublic w.db userId with
  | none =>
      simp only [getProfile, hfind]
      rfl
  | some user =>
      simp only [getProfile, hfind]
      rfl

section Entries
variable {α β ε : Type} {f : α → Except ε β}

theorem mapM_of_forall_ok {g : α → β} {l : List α} (h : ∀ a ∈ l, f a = .ok (g a)) :
    l.mapM f = .ok (l.map g) := by
  induction l with
  | nil => rfl
  | cons a l ih =>
      rw [List.mapM_cons, h a List.mem_cons_self, ih fun b hb => h b (List.mem_cons_of_mem a hb)]
      rfl

/-- Where every step that throws throws the same, this is what the whole throws. -/
theorem mapM_of_exists_error {e : ε} {l : List α} (h : ∀ a ∈ l, f a = .error e ∨ ∃ b, f a = .ok b)
    (herror : ∃ a ∈ l, f a = .error e) : l.mapM f = .error e := by
  induction l with
  | nil =>
      obtain ⟨a, ha, -⟩ := herror
      cases ha
  | cons a l ih =>
      rw [List.mapM_cons]
      rcases h a List.mem_cons_self with ha | ⟨b, ha⟩
      · rw [ha]
        rfl
      · have hrest : ∃ a ∈ l, f a = .error e := by
          obtain ⟨c, hc, hce⟩ := herror
          rcases List.mem_cons.mp hc with rfl | hc
          · rw [ha] at hce
            cases hce
          · exact ⟨c, hc, hce⟩
        rw [ha, ih (fun c hc => h c (List.mem_cons_of_mem a hc)) hrest]
        rfl

theorem lookup_map_of_mem {κ ρ : Type} [BEq κ] [LawfulBEq κ] (g : κ → ρ) {l : List κ} {k : κ}
    (h : k ∈ l) : (l.map fun k => (k, g k)).lookup k = some (g k) := by
  induction l with
  | nil => cases h
  | cons j l ih =>
      rw [List.map_cons, List.lookup_cons]
      by_cases hj : k = j
      · rw [hj, beq_self_eq_true]
      · rw [beq_false_of_ne hj]
        exact ih ((List.mem_cons.mp h).resolve_left hj)

end Entries

section Enrich
variable {db : Database}

theorem actorEntry_of_found {id : Uuid} (h : (UserRepository.findByIdPublic db id).isSome = true) :
    actorEntry db id = .ok (id, actorOf db id) := by
  obtain ⟨user, huser⟩ := Option.isSome_iff_exists.mp h
  simp only [actorEntry, getProfile, actorOf, huser]

theorem actorEntry_of_missing {id : Uuid} (h : ¬(UserRepository.findByIdPublic db id).isSome = true) :
    actorEntry db id = .error (.notFound "USER_NOT_FOUND") := by
  have hnone := Option.not_isSome_iff_eq_none.mp h
  simp only [actorEntry, getProfile, hnone, isEntityNotFound, Bool.false_eq_true, if_false]

/-- Where every actor is a user, all rows get theirs. -/
theorem enrichWithActors_of_forall {rows : List StoredActivity} (h : ∀ row ∈ rows, HasActor db row) :
    enrichWithActors db rows = .ok (withActors db rows) := by
  have hentries : ∀ id ∈ (rows.map fun row => row.2.actorId).eraseDups,
      actorEntry db id = .ok (id, actorOf db id) := by
    intro id hid
    obtain ⟨row, hrow, rfl⟩ := List.mem_map.mp (List.mem_eraseDups.mp hid)
    exact actorEntry_of_found (h row hrow)
  have hactors (row : StoredActivity) (hrow : row ∈ rows) :
      ((((rows.map fun row => row.2.actorId).eraseDups.map fun id => (id, actorOf db id)).lookup
        row.2.actorId).getD (unknownUser row.2.actorId)) = actorOf db row.2.actorId := by
    have hmem : row.2.actorId ∈ (rows.map fun row => row.2.actorId).eraseDups :=
      List.mem_eraseDups.mpr (List.mem_map_of_mem hrow)
    rw [lookup_map_of_mem (actorOf db) hmem, Option.getD_some]
  rw [enrichWithActors, mapM_of_forall_ok hentries]
  refine congrArg Except.ok (List.map_congr_left fun row hrow => ?_)
  rw [hactors row hrow]

/-- One actor who is no user fails all rows. -/
theorem enrichWithActors_of_missing {rows : List StoredActivity} {row : StoredActivity}
    (hrow : row ∈ rows) (h : ¬HasActor db row) :
    enrichWithActors db rows = .error (.notFound "USER_NOT_FOUND") := by
  have hsteps : ∀ id ∈ (rows.map fun row => row.2.actorId).eraseDups,
      actorEntry db id = .error (.notFound "USER_NOT_FOUND") ∨ ∃ entry, actorEntry db id = .ok entry := by
    intro id _
    by_cases hid : (UserRepository.findByIdPublic db id).isSome = true
    · exact .inr ⟨_, actorEntry_of_found hid⟩
    · exact .inl (actorEntry_of_missing hid)
  have herror : ∃ id ∈ (rows.map fun row => row.2.actorId).eraseDups,
      actorEntry db id = .error (.notFound "USER_NOT_FOUND") :=
    ⟨row.2.actorId, List.mem_eraseDups.mpr (List.mem_map_of_mem hrow), actorEntry_of_missing h⟩
  rw [enrichWithActors, mapM_of_exists_error hsteps herror]
  rfl

end Enrich

/-- A page that is read is returned whole, every row in its place and with its actor or the
fallback, if and only if all its actors are users; else the read throws. -/
theorem getWorkspaceFeed_iff {activities : Activities} {db : Database} {workspaceId : Uuid}
    {query : ActivityFeedQueryDto} {page : PaginatedResult StoredActivity JsString}
    (h : getWorkspacePage activities workspaceId query.filters query.cursor
      (query.limit.getD 20) = .ok page) :
    (getWorkspaceFeed activities db workspaceId query =
        .ok { items := withActors db page.items, cursor := page.cursor, hasMore := page.hasMore } ↔
      ∀ row ∈ page.items, HasActor db row) ∧
    ((∃ row ∈ page.items, ¬HasActor db row) →
      getWorkspaceFeed activities db workspaceId query =
        .error (.thrown (.notFound "USER_NOT_FOUND"))) := by
  have hmissing : (∃ row ∈ page.items, ¬HasActor db row) →
      getWorkspaceFeed activities db workspaceId query =
        .error (.thrown (.notFound "USER_NOT_FOUND")) := by
    rintro ⟨row, hrow, hactor⟩
    rw [getWorkspaceFeed, h]
    change Except.bind ((enrichWithActors db page.items).mapError FeedError.thrown) _ = _
    rw [enrichWithActors_of_missing hrow hactor]
    rfl
  refine ⟨⟨fun hfeed row hrow => ?_, fun hall => ?_⟩, hmissing⟩
  · by_contra hactor
    rw [hmissing ⟨row, hrow, hactor⟩] at hfeed
    cases hfeed
  · rw [getWorkspaceFeed, h]
    change Except.bind ((enrichWithActors db page.items).mapError FeedError.thrown) _ = _
    rw [enrichWithActors_of_forall hall]
    rfl

def oneUser : Database where
  users := ⟨[(1, { email := js "jane@b.io", displayName := js "Jane" })], by decide⟩
  wellFormed :=
    { emails := Relational.Table.Unique.of_rows (by decide)
      workspaces := Relational.Table.All.of_rows (by decide)
      slugs := Relational.Table.Unique.of_rows (by decide)
      members := Relational.Table.All.of_rows (by decide)
      memberKeys := Relational.Table.Unique.of_rows (by decide)
      invitations := Relational.Table.All.of_rows (by decide)
      tokens := Relational.Table.Unique.of_rows (by decide) }

/-- What a user did on a card. -/
def cardActivity (actorId : Uuid) : ActivityRow :=
  { workspaceId := 1, entityType := .card, entityId := 4, actorId := actorId }

/-- Jane did something, and before her somebody who is no user any more. -/
def twoActivities : Activities :=
  ⟨[(⟨1, 7⟩, cardActivity 2), (⟨2, 9⟩, cardActivity 1)], by decide⟩

/-- The page of both activities is not returned. -/
theorem getWorkspaceFeed_missing_actor :
    getWorkspacePage twoActivities 1 {} none 20 =
        .ok ⟨[(⟨2, 9⟩, cardActivity 1), (⟨1, 7⟩, cardActivity 2)], none, false⟩ ∧
    getWorkspaceFeed twoActivities oneUser 1 {} =
        .error (.thrown (.notFound "USER_NOT_FOUND")) := by
  decide +kernel

/-- Jane did both, and something before. -/
def threeActivities : Activities :=
  ⟨[(⟨1, 7⟩, cardActivity 1), (⟨2, 9⟩, cardActivity 1), (⟨3, 5⟩, cardActivity 1)], by decide⟩

theorem getWorkspaceFeed_two_activities :
    getWorkspaceFeed threeActivities oneUser 1 { limit := some 2 } =
      .ok ⟨withActors oneUser [(⟨2, 9⟩, cardActivity 1), (⟨1, 7⟩, cardActivity 1)],
        some (activityCursor (⟨1, 7⟩, cardActivity 1)), true⟩ := by
  have hpage : getWorkspacePage threeActivities 1 {} none 2 =
      .ok ⟨[(⟨2, 9⟩, cardActivity 1), (⟨1, 7⟩, cardActivity 1)],
        some (activityCursor (⟨1, 7⟩, cardActivity 1)), true⟩ := by
    decide +kernel
  have hactors : ∀ row ∈ ([(⟨2, 9⟩, cardActivity 1), (⟨1, 7⟩, cardActivity 1)] :
      List StoredActivity), HasActor oneUser row :=
    List.forall_mem_cons.mpr ⟨rfl, List.forall_mem_singleton.mpr rfl⟩
  exact (@getWorkspaceFeed_iff threeActivities oneUser 1 { limit := some 2 } _ hpage).1.mpr hactors

end SyncBoard.Activity
