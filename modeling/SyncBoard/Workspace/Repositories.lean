import SyncBoard.Workspace.Database

/-!
# The repositories of the workspace module

A read is a function of the database. A write returns the database it leaves, or
the error with which the statement or the transaction fails as a whole.

## Implementation notes

The id of a new row and the clock reading of a write are arguments; so is the
choice of `findFirst`, which without an order returns any row that matches. The
transactions that the services open themselves are functions of this module.
-/

namespace SyncBoard.Workspace

open Relational

/-- A loaded user, without the columns that `select` leaves out. -/
structure User where
  id : Uuid
  row : UserRow
  deriving DecidableEq, Repr

/-- A loaded workspace. -/
structure WorkspaceRecord where
  id : Uuid
  row : WorkspaceRow
  deriving DecidableEq, Repr

/-- A loaded membership. -/
structure WorkspaceMember where
  id : Uuid
  row : WorkspaceMemberRow
  deriving DecidableEq, Repr

/-- A loaded invitation. -/
structure WorkspaceInvitation where
  id : Uuid
  row : WorkspaceInvitationRow
  deriving DecidableEq, Repr

namespace UserRepository

def findByIdPublic (db : Database) (id : Uuid) : Option User :=
  (db.users.get? id).map (User.mk id)

def findUserSummaryByEmail (db : Database) (email : JsString) : Option User :=
  (db.users.find? fun _ user => user.email == email).map fun p => ⟨p.1, p.2⟩

end UserRepository

namespace WorkspaceRepository

/-- The workspace, unless it is archived. -/
def findById (db : Database) (id : Uuid) : Option WorkspaceRecord :=
  ((db.workspaces.get? id).filter fun workspace => workspace.archivedAt.isNone).map
    (WorkspaceRecord.mk id)

/-- Archived workspaces count as well. -/
def existsBySlug (db : Database) (slug : JsString) : Bool :=
  (db.workspaces.find? fun _ workspace => workspace.slug == slug).isSome

/-- The transaction of `createWorkspaceWithOwner`. -/
def createWorkspaceWithOwner (db : Database) (id memberId : Uuid) (data : WorkspaceRow)
    (now : Timestamp) : Except DbError (WorkspaceRecord × Database) := do
  let db ← db.insertWorkspace id data
  let db ← db.insertMember memberId
    { workspaceId := id, userId := data.ownerId, role := .owner, joinedAt := now }
  return (⟨id, data⟩, db)

/-- `update` with `owner: { connect: { id } }`. -/
def updateOwner (db : Database) (id ownerId : Uuid) : Except DbError Database :=
  if howner : db.workspaces.contains id = true ∧ db.users.contains ownerId = true then
    .ok (db.updateWorkspace id (fun workspace => { workspace with ownerId := ownerId })
      (fun _ => rfl) (fun _ _ => howner.2))
  else .error .recordNotFound

def archive (db : Database) (id : Uuid) (now : Timestamp) : Except DbError Database :=
  if db.workspaces.contains id = true then
    .ok (db.updateWorkspace id (fun workspace => { workspace with archivedAt := some now })
      (fun _ => rfl) (fun _ h => h))
  else .error .recordNotFound

end WorkspaceRepository

namespace WorkspaceMemberRepository

def findMember (db : Database) (workspaceId userId : Uuid) : Option WorkspaceMember :=
  (db.members.find? fun _ m => m.key == (workspaceId, userId)).map fun p => ⟨p.1, p.2⟩

def findMemberById (db : Database) (memberId : Uuid) : Option WorkspaceMember :=
  (db.members.get? memberId).map (WorkspaceMember.mk memberId)

/-- The filter of `countOwners` and `findOtherOwner`. -/
def ownerOf (workspaceId : Uuid) (m : WorkspaceMemberRow) : Bool :=
  m.workspaceId == workspaceId && m.role == .owner

def countOwners (db : Database) (workspaceId : Uuid) : Nat :=
  db.members.count fun _ m => ownerOf workspaceId m

def findOtherOwner (db : Database) (workspaceId excludeUserId : Uuid) (pick : Nat) :
    Option WorkspaceMember :=
  (db.members.findFirst (fun _ m => ownerOf workspaceId m && m.userId != excludeUserId) pick).map
    fun p => ⟨p.1, p.2⟩

def updateRole (db : Database) (memberId : Uuid) (role : WorkspaceRole) :
    Except DbError (WorkspaceMember × Database) :=
  match db.members.get? memberId with
  | some m => .ok (⟨memberId, { m with role := role }⟩, db.setRole memberId role)
  | none => .error .recordNotFound

def removeMember (db : Database) (memberId : Uuid) : Except DbError Database :=
  if db.members.contains memberId = true then .ok (db.deleteMember memberId)
  else .error .recordNotFound

/-- The transaction of `transferOwnership`. -/
def transfer (db : Database) (currentId targetId workspaceId newOwnerUserId : Uuid) :
    Except DbError (WorkspaceMember × Database) := do
  let (_, db) ← updateRole db currentId .admin
  let (updatedTarget, db) ← updateRole db targetId .owner
  let db ← WorkspaceRepository.updateOwner db workspaceId newOwnerUserId
  return (updatedTarget, db)

end WorkspaceMemberRepository

namespace WorkspaceInvitationRepository

def createInvitation (db : Database) (id : Uuid) (data : WorkspaceInvitationRow) :
    Except DbError (WorkspaceInvitation × Database) := do
  let db ← db.insertInvitation id data
  return (⟨id, data⟩, db)

def findByToken (db : Database) (token : JsString) : Option WorkspaceInvitation :=
  (db.invitations.find? fun _ i => i.token == token).map fun p => ⟨p.1, p.2⟩

def findById (db : Database) (invitationId : Uuid) : Option WorkspaceInvitation :=
  (db.invitations.get? invitationId).map (WorkspaceInvitation.mk invitationId)

def findPendingByEmailAndWorkspace (db : Database) (email : JsString) (workspaceId : Uuid)
    (now : Timestamp) (pick : Nat) : Option WorkspaceInvitation :=
  (db.invitations.findFirst (fun _ i =>
    i.workspaceId == workspaceId && i.email == email && i.status == .pending &&
      decide (now < i.expiresAt)) pick).map fun p => ⟨p.1, p.2⟩

def updateStatus (db : Database) (invitationId : Uuid) (status : InvitationStatus)
    (acceptedAt : Option Timestamp) : Except DbError (WorkspaceInvitation × Database) :=
  match db.invitations.get? invitationId with
  | some i =>
      .ok (⟨invitationId, { i with status := status, acceptedAt := acceptedAt <|> i.acceptedAt }⟩,
        db.setStatus invitationId status acceptedAt)
  | none => .error .recordNotFound

/-- The transaction of `acceptInvitation`. -/
def accept (db : Database) (memberId : Uuid) (invitation : WorkspaceInvitation) (userId : Uuid)
    (now : Timestamp) : Except DbError (WorkspaceMember × Database) := do
  let member : WorkspaceMemberRow :=
    { workspaceId := invitation.row.workspaceId, userId := userId, role := invitation.row.role,
      joinedAt := now }
  let db ← db.insertMember memberId member
  let (_, db) ← updateStatus db invitation.id .accepted (some now)
  return (⟨memberId, member⟩, db)

end WorkspaceInvitationRepository

end SyncBoard.Workspace
