import SyncBoard.Basic
import SyncBoard.Lib.Table

/-!
# The workspace tables

`users`, `workspaces`, `workspace_members` and `workspace_invitations` with their
unique columns, foreign keys and the width of a slug. A `Database` carries the
proof of all of them: two memberships of one user in one workspace, or a
membership without its user, cannot be built.

## Implementation notes

Users are written by other services and only read here; of their columns the
ones read are kept. Names, emails and tokens come through DTO bounds that are
those of their columns, or are hashes; the slug is computed and has its own check.
-/

namespace SyncBoard.Workspace

open Relational

/-- `WorkspaceRole`. -/
inductive WorkspaceRole
  | owner
  | admin
  | member
  | viewer
  deriving DecidableEq, Repr

/-- `InvitationStatus`. -/
inductive InvitationStatus
  | pending
  | accepted
  | expired
  | revoked
  deriving DecidableEq, Repr

/-- A row of `users`. -/
structure UserRow where
  email : JsString
  displayName : JsString
  avatarUrl : Option JsString := none
  deriving DecidableEq, Repr

/-- A row of `workspaces`. -/
structure WorkspaceRow where
  name : JsString
  slug : JsString
  description : Option JsString := none
  avatarUrl : Option JsString := none
  ownerId : Uuid
  archivedAt : Option Timestamp := none
  deriving DecidableEq, Repr

/-- A row of `workspace_members`. -/
structure WorkspaceMemberRow where
  workspaceId : Uuid
  userId : Uuid
  role : WorkspaceRole := .member
  joinedAt : Timestamp
  deriving DecidableEq, Repr

/-- The columns of `unique_workspace_member`. -/
def WorkspaceMemberRow.key (m : WorkspaceMemberRow) : Uuid × Uuid :=
  (m.workspaceId, m.userId)

/-- A row of `workspace_invitations`. -/
structure WorkspaceInvitationRow where
  workspaceId : Uuid
  email : JsString
  role : WorkspaceRole := .member
  token : JsString
  invitedBy : Uuid
  status : InvitationStatus := .pending
  expiresAt : Timestamp
  acceptedAt : Option Timestamp := none
  deriving DecidableEq, Repr

structure Tables where
  users : Table Uuid UserRow := Table.empty
  workspaces : Table Uuid WorkspaceRow := Table.empty
  members : Table Uuid WorkspaceMemberRow := Table.empty
  invitations : Table Uuid WorkspaceInvitationRow := Table.empty

/-- `slug` is a `VarChar(100)`. -/
def slugWidth : Nat := 100

def WorkspaceRow.Accepted (t : Tables) (workspace : WorkspaceRow) : Prop :=
  t.users.contains workspace.ownerId = true ∧ workspace.slug.length ≤ slugWidth

/-- The foreign keys of a membership. -/
def WorkspaceMemberRow.Accepted (t : Tables) (m : WorkspaceMemberRow) : Prop :=
  t.workspaces.contains m.workspaceId = true ∧ t.users.contains m.userId = true

/-- The foreign keys of an invitation. -/
def WorkspaceInvitationRow.Accepted (t : Tables) (i : WorkspaceInvitationRow) : Prop :=
  t.workspaces.contains i.workspaceId = true ∧ t.users.contains i.invitedBy = true

instance (t : Tables) (workspace : WorkspaceRow) : Decidable (workspace.Accepted t) :=
  inferInstanceAs (Decidable (_ ∧ _))

instance (t : Tables) (m : WorkspaceMemberRow) : Decidable (m.Accepted t) :=
  inferInstanceAs (Decidable (_ ∧ _))

instance (t : Tables) (i : WorkspaceInvitationRow) : Decidable (i.Accepted t) :=
  inferInstanceAs (Decidable (_ ∧ _))

/-- Every row satisfies the constraints of its table. -/
structure Tables.WellFormed (t : Tables) : Prop where
  emails : t.users.Unique UserRow.email
  workspaces : t.workspaces.All fun _ workspace => workspace.Accepted t
  slugs : t.workspaces.Unique WorkspaceRow.slug
  members : t.members.All fun _ m => m.Accepted t
  memberKeys : t.members.Unique WorkspaceMemberRow.key
  invitations : t.invitations.All fun _ i => i.Accepted t
  tokens : t.invitations.Unique WorkspaceInvitationRow.token

/-- Tables whose rows satisfy their constraints. -/
structure Database extends Tables where
  wellFormed : toTables.WellFormed

/-- Foreign keys survive a write to `workspaces` that loses none. -/
theorem Tables.WellFormed.setWorkspaces {t : Tables} (h : t.WellFormed)
    {workspaces : Table Uuid WorkspaceRow} (hgrow : t.workspaces.Grows workspaces)
    (hrows : workspaces.All fun _ workspace => workspace.Accepted t)
    (hslugs : workspaces.Unique WorkspaceRow.slug) :
    Tables.WellFormed { t with workspaces := workspaces } where
  emails := h.emails
  workspaces := hrows
  slugs := hslugs
  members := h.members.imp fun _ _ hm => ⟨hgrow _ hm.1, hm.2⟩
  memberKeys := h.memberKeys
  invitations := h.invitations.imp fun _ _ hi => ⟨hgrow _ hi.1, hi.2⟩
  tokens := h.tokens

namespace Database

/-- Insert a row of `workspaces`. -/
def insertWorkspace (db : Database) (id : Uuid) (workspace : WorkspaceRow) :
    Except DbError Database :=
  if hfresh : db.workspaces.get? id = none ∧
      db.workspaces.All fun _ other => other.slug ≠ workspace.slug then
    if haccepted : workspace.Accepted db.toTables then
      .ok
        { toTables :=
            { db.toTables with workspaces := db.workspaces.insert id workspace hfresh.1 }
          wellFormed :=
            db.wellFormed.setWorkspaces (db.workspaces.grows_insert hfresh.1)
              (db.wellFormed.workspaces.insert hfresh.1 haccepted)
              (db.wellFormed.slugs.insert hfresh.1 hfresh.2) }
    else if slugWidth < workspace.slug.length then .error .valueTooLong
    else .error .foreignKeyViolation
  else .error .uniqueViolation

/-- Rewrite columns of a row of `workspaces` other than the slug. -/
def updateWorkspace (db : Database) (id : Uuid) (f : WorkspaceRow → WorkspaceRow)
    (hslug : ∀ workspace, (f workspace).slug = workspace.slug)
    (howner : ∀ workspace, db.users.contains workspace.ownerId = true →
      db.users.contains (f workspace).ownerId = true) : Database where
  toTables := { db.toTables with workspaces := db.workspaces.modify id f }
  wellFormed := by
    apply db.wellFormed.setWorkspaces (db.workspaces.grows_modify id f)
    · refine db.wellFormed.workspaces.modify fun workspace hget => ?_
      obtain ⟨hkey, hwidth⟩ := db.wellFormed.workspaces id workspace hget
      exact ⟨howner workspace hkey, (hslug workspace).symm ▸ hwidth⟩
    · exact db.wellFormed.slugs.modify hslug

/-- Insert a row of `workspace_members`. -/
def insertMember (db : Database) (id : Uuid) (m : WorkspaceMemberRow) :
    Except DbError Database :=
  if hfresh : db.members.get? id = none ∧ db.members.All fun _ other => other.key ≠ m.key then
    if haccepted : m.Accepted db.toTables then
      .ok
        { toTables := { db.toTables with members := db.members.insert id m hfresh.1 }
          wellFormed :=
            { db.wellFormed with
              members := db.wellFormed.members.insert hfresh.1 haccepted
              memberKeys := db.wellFormed.memberKeys.insert hfresh.1 hfresh.2 } }
    else .error .foreignKeyViolation
  else .error .uniqueViolation

/-- Set the role in the row of `workspace_members` under an id. -/
def setRole (db : Database) (id : Uuid) (role : WorkspaceRole) : Database where
  toTables := { db.toTables with members := db.members.modify id fun m => { m with role := role } }
  wellFormed :=
    { db.wellFormed with
      members := db.wellFormed.members.modify fun m hm => db.wellFormed.members id m hm
      memberKeys := db.wellFormed.memberKeys.modify fun _ => rfl }

/-- Delete the row of `workspace_members` under an id. -/
def deleteMember (db : Database) (id : Uuid) : Database where
  toTables := { db.toTables with members := db.members.delete id }
  wellFormed :=
    { db.wellFormed with
      members := db.wellFormed.members.delete id
      memberKeys := db.wellFormed.memberKeys.delete id }

/-- Insert a row of `workspace_invitations`. -/
def insertInvitation (db : Database) (id : Uuid) (i : WorkspaceInvitationRow) :
    Except DbError Database :=
  if hfresh : db.invitations.get? id = none ∧
      db.invitations.All fun _ other => other.token ≠ i.token then
    if haccepted : i.Accepted db.toTables then
      .ok
        { toTables := { db.toTables with invitations := db.invitations.insert id i hfresh.1 }
          wellFormed :=
            { db.wellFormed with
              invitations := db.wellFormed.invitations.insert hfresh.1 haccepted
              tokens := db.wellFormed.tokens.insert hfresh.1 hfresh.2 } }
    else .error .foreignKeyViolation
  else .error .uniqueViolation

/-- Set the status in the row of `workspace_invitations` under an id, and the time
of acceptance where one is given. -/
def setStatus (db : Database) (id : Uuid) (status : InvitationStatus)
    (acceptedAt : Option Timestamp) : Database where
  toTables :=
    { db.toTables with
      invitations := db.invitations.modify id fun i =>
        { i with status := status, acceptedAt := acceptedAt <|> i.acceptedAt } }
  wellFormed :=
    { db.wellFormed with
      invitations := db.wellFormed.invitations.modify fun i hi => db.wellFormed.invitations id i hi
      tokens := db.wellFormed.tokens.modify fun _ => rfl }

end Database

end SyncBoard.Workspace
