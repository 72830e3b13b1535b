import SyncBoard.Workspace.Repositories
import SyncBoard.Lib.Program

/-!
# MembershipService, InvitationService and WorkspaceService

The calls on workspaces, their members and their invitations, as programs that
ask one repository statement at a time. What lies between two awaits of the
source runs in one go; a transaction is one statement.

## Implementation notes

Clock readings, random bytes and emitted events are asked like statements, which
leave the tables alone. What an answer takes from outside (a new id, the clock,
random bytes, the row that an unordered query picks) is an argument of `answer`.
`toLowerCase` and `hashToken` are parameters. `generateUniqueSlug` may try any
number of suffixes: `tries` cuts the search off, and a call that is cut off ends
with `unfinished`, which is no error of the source. Authentication and the check
for a verified email lie in front of the guards below and are left out, as are
log lines.
-/

namespace SyncBoard.Workspace

open Relational Interleaved Interleaved.Program

/-- What a service call throws. -/
inductive AppError
  | entityNotFound (entityName : String) (entityId : Uuid)
  | businessRule (code message : String)
  | forbidden (message : String)
  | notFound (message : String)
  | database (error : DbError)
  | unfinished
  deriving DecidableEq, Repr

/-- The events of `workspace.events`, in the order of their fields there. -/
inductive WorkspaceEvent
  | created (workspace : WorkspaceRecord) (ownerId : Uuid)
  | memberAdded (workspaceId userId : Uuid) (role : WorkspaceRole)
  | memberRemoved (workspaceId userId : Uuid)
  | memberLeft (workspaceId userId : Uuid)
  | ownershipTransferred (workspaceId previousOwnerId newOwnerId : Uuid)
  | memberRoleChanged (workspaceId userId : Uuid) (oldRole newRole : WorkspaceRole)
  | invitationCreated (workspaceId : Uuid) (email : JsString) (invitedBy : Uuid)
      (token : JsString)
  deriving DecidableEq, Repr

inductive Statement
  | clock
  | randomBytes
  | emit (event : WorkspaceEvent)
  | findUserSummaryByEmail (email : JsString)
  | findByIdPublic (userId : Uuid)
  | findWorkspace (id : Uuid)
  | existsBySlug (slug : JsString)
  | createWorkspaceWithOwner (data : WorkspaceRow)
  | updateOwner (id ownerId : Uuid)
  | archive (id : Uuid)
  | findMember (workspaceId userId : Uuid)
  | findMemberById (memberId : Uuid)
  | countOwners (workspaceId : Uuid)
  | findOtherOwner (workspaceId excludeUserId : Uuid)
  | updateRole (memberId : Uuid) (role : WorkspaceRole)
  | removeMember (memberId : Uuid)
  | transfer (currentId targetId workspaceId newOwnerUserId : Uuid)
  | createInvitation (data : WorkspaceInvitationRow)
  | findByToken (token : JsString)
  | findInvitation (invitationId : Uuid)
  | findPendingByEmailAndWorkspace (email : JsString) (workspaceId : Uuid)
  | updateStatus (invitationId : Uuid) (status : InvitationStatus)
  | accept (invitation : WorkspaceInvitation) (userId : Uuid)
  deriving DecidableEq, Repr

/-- What a statement returns. -/
abbrev Answer : Statement → Type
  | .clock => Timestamp
  | .randomBytes => JsString
  | .emit _ => Unit
  | .findUserSummaryByEmail _ | .findByIdPublic _ => Option User
  | .findWorkspace _ => Option WorkspaceRecord
  | .existsBySlug _ => Bool
  | .createWorkspaceWithOwner _ => Except DbError WorkspaceRecord
  | .updateOwner _ _ | .archive _ | .removeMember _ => Except DbError Unit
  | .findMember _ _ | .findMemberById _ | .findOtherOwner _ _ => Option WorkspaceMember
  | .countOwners _ => Nat
  | .updateRole _ _ | .transfer _ _ _ _ | .accept _ _ => Except DbError WorkspaceMember
  | .createInvitation _ | .updateStatus _ _ => Except DbError WorkspaceInvitation
  | .findByToken _ | .findInvitation _ | .findPendingByEmailAndWorkspace _ _ =>
      Option WorkspaceInvitation

/-- What an answer takes from outside. -/
structure Outside where
  newId : Uuid
  newMemberId : Uuid := newId
  now : Timestamp
  bytes : JsString := []
  pick : Nat := 0

/-- The database and the events emitted so far. -/
structure World where
  db : Database
  events : List WorkspaceEvent := []

/-- A write that succeeds replaces the database. -/
def World.write {α : Type} (w : World) : Except DbError (α × Database) → Except DbError α × World
  | .ok (a, db) => (.ok a, { w with db := db })
  | .error e => (.error e, w)

/-- A write without a result. -/
def World.writeOnly (w : World) (r : Except DbError Database) : Except DbError Unit × World :=
  w.write (r.map ((), ·))

def answer (x : Outside) : (op : Statement) → World → Answer op × World
  | .clock, w => (x.now, w)
  | .randomBytes, w => (x.bytes, w)
  | .emit event, w => ((), { w with events := w.events ++ [event] })
  | .findUserSummaryByEmail email, w => (UserRepository.findUserSummaryByEmail w.db email, w)
  | .findByIdPublic userId, w => (UserRepository.findByIdPublic w.db userId, w)
  | .findWorkspace id, w => (WorkspaceRepository.findById w.db id, w)
  | .existsBySlug slug, w => (WorkspaceRepository.existsBySlug w.db slug, w)
  | .createWorkspaceWithOwner data, w =>
      w.write (WorkspaceRepository.createWorkspaceWithOwner w.db x.newId x.newMemberId data x.now)
  | .updateOwner id ownerId, w =>
      w.writeOnly (WorkspaceRepository.updateOwner w.db id ownerId)
  | .archive id, w => w.writeOnly (WorkspaceRepository.archive w.db id x.now)
  | .findMember workspaceId userId, w =>
      (WorkspaceMemberRepository.findMember w.db workspaceId userId, w)
  | .findMemberById memberId, w => (WorkspaceMemberRepository.findMemberById w.db memberId, w)
  | .countOwners workspaceId, w => (WorkspaceMemberRepository.countOwners w.db workspaceId, w)
  | .findOtherOwner workspaceId excludeUserId, w =>
      (WorkspaceMemberRepository.findOtherOwner w.db workspaceId excludeUserId x.pick, w)
  | .updateRole memberId role, w =>
      w.write (WorkspaceMemberRepository.updateRole w.db memberId role)
  | .removeMember memberId, w =>
      w.writeOnly (WorkspaceMemberRepository.removeMember w.db memberId)
  | .transfer currentId targetId workspaceId newOwnerUserId, w =>
      w.write (WorkspaceMemberRepository.transfer w.db currentId targetId workspaceId
        newOwnerUserId)
  | .createInvitation data, w =>
      w.write (WorkspaceInvitationRepository.createInvitation w.db x.newId data)
  | .findByToken token, w => (WorkspaceInvitationRepository.findByToken w.db token, w)
  | .findInvitation invitationId, w =>
      (WorkspaceInvitationRepository.findById w.db invitationId, w)
  | .findPendingByEmailAndWorkspace email workspaceId, w =>
      (WorkspaceInvitationRepository.findPendingByEmailAndWorkspace w.db email workspaceId
        x.now x.pick, w)
  | .updateStatus invitationId status, w =>
      w.write (WorkspaceInvitationRepository.updateStatus w.db invitationId status none)
  | .accept invitation userId, w =>
      w.write (WorkspaceInvitationRepository.accept w.db x.newId invitation userId x.now)

abbrev Service := Program Statement Answer AppError

/-- The result of a write, or its error. -/
def written {α : Type} (r : Except DbError α) : Service α :=
  orThrow .database r

/-- `new Date()`. -/
abbrev clock : Service Timestamp := ask Statement.clock

abbrev randomBytes : Service JsString := ask Statement.randomBytes

/-- `eventEmitter.emit`. -/
abbrev emit (event : WorkspaceEvent) : Service Unit := ask (Statement.emit event)

namespace userRepo

abbrev findUserSummaryByEmail (email : JsString) : Service (Option User) :=
  ask (Statement.findUserSummaryByEmail email)

abbrev findByIdPublic (userId : Uuid) : Service (Option User) :=
  ask (Statement.findByIdPublic userId)

end userRepo

namespace workspaceRepo

abbrev findById (id : Uuid) : Service (Option WorkspaceRecord) :=
  ask (Statement.findWorkspace id)

abbrev existsBySlug (slug : JsString) : Service Bool :=
  ask (Statement.existsBySlug slug)

/-- The answer, for a caller that catches the error. -/
abbrev createWorkspaceWithOwner (data : WorkspaceRow) :
    Service (Except DbError WorkspaceRecord) :=
  ask (Statement.createWorkspaceWithOwner data)

def updateOwner (id ownerId : Uuid) : Service Unit :=
  ask (Statement.updateOwner id ownerId) >>= written

def archive (id : Uuid) : Service Unit :=
  ask (Statement.archive id) >>= written

end workspaceRepo

namespace memberRepo

abbrev findMember (workspaceId userId : Uuid) : Service (Option WorkspaceMember) :=
  ask (Statement.findMember workspaceId userId)

abbrev findMemberById (memberId : Uuid) : Service (Option WorkspaceMember) :=
  ask (Statement.findMemberById memberId)

abbrev countOwners (workspaceId : Uuid) : Service Nat :=
  ask (Statement.countOwners workspaceId)

abbrev findOtherOwner (workspaceId excludeUserId : Uuid) : Service (Option WorkspaceMember) :=
  ask (Statement.findOtherOwner workspaceId excludeUserId)

def updateRole (memberId : Uuid) (role : WorkspaceRole) : Service WorkspaceMember :=
  ask (Statement.updateRole memberId role) >>= written

def removeMember (memberId : Uuid) : Service Unit :=
  ask (Statement.removeMember memberId) >>= written

/-- The transaction of `transferOwnership`. -/
def transfer (currentId targetId workspaceId newOwnerUserId : Uuid) : Service WorkspaceMember :=
  ask (Statement.transfer currentId targetId workspaceId newOwnerUserId) >>= written

end memberRepo

namespace invitationRepo

def createInvitation (data : WorkspaceInvitationRow) : Service WorkspaceInvitation :=
  ask (Statement.createInvitation data) >>= written

abbrev findByToken (token : JsString) : Service (Option WorkspaceInvitation) :=
  ask (Statement.findByToken token)

abbrev findById (invitationId : Uuid) : Service (Option WorkspaceInvitation) :=
  ask (Statement.findInvitation invitationId)

abbrev findPendingByEmailAndWorkspace (email : JsString) (workspaceId : Uuid) :
    Service (Option WorkspaceInvitation) :=
  ask (Statement.findPendingByEmailAndWorkspace email workspaceId)

def updateStatus (invitationId : Uuid) (status : InvitationStatus) :
    Service WorkspaceInvitation :=
  ask (Statement.updateStatus invitationId status) >>= written

/-- The transaction of `acceptInvitation`. -/
def accept (invitation : WorkspaceInvitation) (userId : Uuid) : Service WorkspaceMember :=
  ask (Statement.accept invitation userId) >>= written

end invitationRepo

/-- The functions outside the module that its services call on strings. -/
structure Platform where
  toLowerCase : JsString → JsString
  hashToken : JsString → JsString

/-- `ROLE_WEIGHTS`. -/
def roleWeight : WorkspaceRole → Nat
  | .owner => 4
  | .admin => 3
  | .member => 2
  | .viewer => 1

/-- `RbacGuard.canActivate`: the role weighs at least as much as the lightest
required one. -/
def rbacAllows (requiredRoles : List WorkspaceRole) (role : WorkspaceRole) : Bool :=
  match (requiredRoles.map roleWeight).min? with
  | none => true
  | some minRequiredWeight => decide (minRequiredWeight ≤ roleWeight role)

def workspaceOwnerRoles : List WorkspaceRole := [.owner]

def workspaceAdminRoles : List WorkspaceRole := [.owner, .admin]

def workspaceReadRoles : List WorkspaceRole := [.owner, .admin, .member, .viewer]

/-- `WorkspaceMemberGuard` and `RbacGuard`, as `@WorkspaceAuth` composes them. -/
def workspaceAuth (roles : List WorkspaceRole) (workspaceId userId : Uuid) : Service Unit := do
  let member ← memberRepo.findMember workspaceId userId
  let member ← demand member (.forbidden "FORBIDDEN")
  refuseIf (!rbacAllows roles member.row.role) (.forbidden "FORBIDDEN")

namespace MembershipService

def requireWorkspace (workspaceId : Uuid) : Service Unit := do
  let workspace ← workspaceRepo.findById workspaceId
  let _ ← demand workspace (.entityNotFound "Workspace" workspaceId)

/-- The membership under an id, of this workspace. -/
def findMemberIn (workspaceId memberId : Uuid) : Service WorkspaceMember := do
  let member ← memberRepo.findMemberById memberId
  demand (member.filter fun m => m.row.workspaceId == workspaceId)
    (.entityNotFound "WorkspaceMember" memberId)

/-- The role of a membership, where there is one. -/
def hasRole (member : Option WorkspaceMember) (role : WorkspaceRole) : Bool :=
  member.any fun m => m.row.role == role

/-- The gating of admins in `updateMemberRole`. -/
def gateRoleChange (workspaceId : Uuid) (member : WorkspaceMember) (role : WorkspaceRole) :
    Option Uuid → Service Unit
  | none => pure ()
  | some actorId => do
      let actorMember ← memberRepo.findMember workspaceId actorId
      refuseIf (hasRole actorMember .admin && member.row.role == .owner)
        (.forbidden "Admins cannot modify the role of a workspace owner")
      refuseIf (hasRole actorMember .admin && role == .owner)
        (.forbidden "Only workspace owners can promote members to owner")

/-- The gating of admins in `removeMember`. -/
def gateRemoval (workspaceId : Uuid) (member : WorkspaceMember) : Option Uuid → Service Unit
  | none => pure ()
  | some actorId => do
      let actorMember ← memberRepo.findMember workspaceId actorId
      refuseIf (hasRole actorMember .admin && member.row.role == .owner)
        (.forbidden "Admins cannot remove a workspace owner")

/-- The next owner, where one is found, becomes the `ownerId`. -/
def handOver (workspaceId : Uuid) : Option WorkspaceMember → Service Unit
  | some nextOwner => workspaceRepo.updateOwner workspaceId nextOwner.row.userId
  | none => pure ()

/-- Where an owner steps down there must be another one, who takes over `ownerId`
if this owner has it. -/
def replaceOwner (stepsDown : Bool) (workspaceId userId : Uuid) (soleOwner : AppError) :
    Service Unit :=
  if stepsDown then do
    let ownerCount ← memberRepo.countOwners workspaceId
    refuseIf (ownerCount ≤ 1) soleOwner
    let workspace ← workspaceRepo.findById workspaceId
    if workspace.any fun workspace => workspace.row.ownerId == userId then do
      let nextOwner ← memberRepo.findOtherOwner workspaceId userId
      handOver workspaceId nextOwner
    else pure ()
  else pure ()

def updateMemberRole (workspaceId memberId : Uuid) (role : WorkspaceRole)
    (actorId : Option Uuid) : Service WorkspaceMember := do
  let member ← findMemberIn workspaceId memberId
  gateRoleChange workspaceId member role actorId
  replaceOwner (member.row.role == .owner && role != .owner) workspaceId member.row.userId
    (.businessRule "CANNOT_REMOVE_OWNER" "Cannot demote the sole owner of a workspace")
  let updatedMember ← memberRepo.updateRole memberId role
  emit (.memberRoleChanged workspaceId member.row.userId member.row.role role)
  return updatedMember

def removeMember (workspaceId memberId : Uuid) (actorId : Option Uuid) : Service Unit := do
  let member ← findMemberIn workspaceId memberId
  gateRemoval workspaceId member actorId
  replaceOwner (member.row.role == .owner) workspaceId member.row.userId
    (.businessRule "CANNOT_REMOVE_OWNER" "Cannot remove the sole owner of a workspace")
  memberRepo.removeMember memberId
  emit (.memberRemoved workspaceId member.row.userId)

def leaveWorkspace (workspaceId userId : Uuid) : Service Unit := do
  let member ← memberRepo.findMember workspaceId userId
  let member ← demand member (.entityNotFound "WorkspaceMember" userId)
  replaceOwner (member.row.role == .owner) workspaceId userId
    (.businessRule "CANNOT_LEAVE_AS_SOLE_OWNER"
      "Sole owner must transfer ownership before leaving the workspace")
  memberRepo.removeMember member.id
  emit (.memberLeft workspaceId userId)

def transferOwnership (workspaceId currentOwnerId newOwnerUserId : Uuid) :
    Service WorkspaceMember := do
  let currentMember ← memberRepo.findMember workspaceId currentOwnerId
  let currentMember ← demand (currentMember.filter fun m => m.row.role == .owner)
    (.forbidden "Only current workspace owner can transfer ownership")
  let targetMember ← memberRepo.findMember workspaceId newOwnerUserId
  let targetMember ← demand targetMember
    (.businessRule "TARGET_NOT_MEMBER" "Target user must be an active member of this workspace")
  let updatedTarget ←
    memberRepo.transfer currentMember.id targetMember.id workspaceId newOwnerUserId
  emit (.ownershipTransferred workspaceId currentOwnerId newOwnerUserId)
  return updatedTarget

end MembershipService

def AuthService.getProfile (userId : Uuid) : Service User := do
  let user ← userRepo.findByIdPublic userId
  demand user (.notFound "USER_NOT_FOUND")

structure InviteMemberDto where
  email : JsString
  role : WorkspaceRole
  deriving DecidableEq, Repr

namespace InvitationService
variable (platform : Platform)

/-- Seven days. -/
def invitationLifetime : Nat := 7 * 24 * 60 * 60 * 1000

/-- A user who is a member already is not invited. -/
def refuseMember (workspaceId : Uuid) : Option User → Service Unit
  | none => pure ()
  | some existingUserSummary => do
      let existingMember ← memberRepo.findMember workspaceId existingUserSummary.id
      refuseIf existingMember.isSome
        (.businessRule "ALREADY_A_MEMBER"
          "User with this email is already a member of this workspace")

/-- The invitation with its inviter. -/
def inviteMember (workspaceId : Uuid) (dto : InviteMemberDto) (invitedBy : Uuid) :
    Service (WorkspaceInvitation × User) := do
  MembershipService.requireWorkspace workspaceId
  let inviterMember ← memberRepo.findMember workspaceId invitedBy
  refuseIf (MembershipService.hasRole inviterMember .admin &&
      (dto.role == .owner || dto.role == .admin))
    (.forbidden "Admins can only invite members with role member or viewer")
  let existingUserSummary ← userRepo.findUserSummaryByEmail dto.email
  refuseMember workspaceId existingUserSummary
  let activeInvite ← invitationRepo.findPendingByEmailAndWorkspace dto.email workspaceId
  refuseIf activeInvite.isSome
    (.businessRule "INVITATION_ALREADY_SENT"
      "An active pending invitation has already been sent to this email")
  let rawToken ← randomBytes
  let now ← clock
  let invitation ← invitationRepo.createInvitation
    { workspaceId := workspaceId
      email := dto.email
      role := dto.role
      token := platform.hashToken rawToken
      invitedBy := invitedBy
      expiresAt := now + invitationLifetime }
  emit (.invitationCreated workspaceId dto.email invitedBy rawToken)
  let inviterUser ← AuthService.getProfile invitedBy
  return (invitation, inviterUser)

def acceptInvitation (token : JsString) (userId : Uuid) : Service WorkspaceMember := do
  let invitation ← invitationRepo.findByToken (platform.hashToken token)
  let now ← clock
  let invitation ← demand
    (invitation.filter fun i => i.row.status == .pending && !decide (i.row.expiresAt < now))
    (.businessRule "INVITATION_EXPIRED" "Invitation token is invalid, expired, or revoked")
  let workspace ← workspaceRepo.findById invitation.row.workspaceId
  let _ ← demand workspace
    (.businessRule "INVITATION_EXPIRED" "Target workspace is archived or no longer available")
  let userProfile ← AuthService.getProfile userId
  refuseIf (platform.toLowerCase invitation.row.email != platform.toLowerCase userProfile.row.email)
    (.businessRule "INVITATION_EMAIL_MISMATCH"
      "This invitation was issued to a different email address")
  let existingMember ← memberRepo.findMember invitation.row.workspaceId userId
  refuseIf existingMember.isSome
    (.businessRule "ALREADY_A_MEMBER" "User is already a member of this workspace")
  let member ← invitationRepo.accept invitation userId
  emit (.memberAdded invitation.row.workspaceId userId invitation.row.role)
  return member

def revokeInvitation (workspaceId invitationId : Uuid) : Service Unit := do
  let invitation ← invitationRepo.findById invitationId
  let _ ← demand
    (invitation.filter fun i => i.row.workspaceId == workspaceId && i.row.status == .pending)
    (.entityNotFound "WorkspaceInvitation" invitationId)
  let _ ← invitationRepo.updateStatus invitationId .revoked

end InvitationService

structure CreateWorkspaceDto where
  name : JsString
  description : Option JsString := none
  avatarUrl : Option JsString := none
  deriving DecidableEq, Repr

/-- White space and line terminators: `trim`, and `\s` in a pattern. -/
def isSpace (c : Nat) : Bool :=
  c ∈ [9, 10, 11, 12, 13, 32, 160, 0x1680, 0x2028, 0x2029, 0x202F, 0x205F, 0x3000, 0xFEFF] ||
    (0x2000 ≤ c && c ≤ 0x200A)

def trim (s : JsString) : JsString :=
  ((s.dropWhile isSpace).reverse.dropWhile isSpace).reverse

/-- `[a-z0-9\s-]`. -/
def isSlugChar (c : Nat) : Bool :=
  (97 ≤ c && c ≤ 122) || (48 ≤ c && c ≤ 57) || isSpace c || c == 45

/-- `replace(/\s+/g, '-')`. -/
def hyphenate : JsString → JsString
  | [] => []
  | c :: rest =>
      if isSpace c then
        match rest with
        | [] => [45]
        | d :: _ => if isSpace d then hyphenate rest else 45 :: hyphenate rest
      else c :: hyphenate rest

namespace WorkspaceService
variable (platform : Platform)

def baseSlug (name : JsString) : JsString :=
  let slug := hyphenate ((trim (platform.toLowerCase name)).filter isSlugChar)
  if slug.isEmpty then js "workspace" else slug

/-- The loop of `generateUniqueSlug`. -/
def findFreeSlug (baseSlug : JsString) : Nat → JsString → Service JsString
  | 0, _ => fail .unfinished
  | tries + 1, slug => do
      let taken ← workspaceRepo.existsBySlug slug
      if taken then do
        let suffix ← randomBytes
        findFreeSlug baseSlug tries (baseSlug ++ js "-" ++ suffix)
      else return slug

def generateUniqueSlug (tries : Nat) (name : JsString) : Service JsString :=
  findFreeSlug (baseSlug platform name) tries (baseSlug platform name)

/-- The loop of `create`, with the attempts that are left. -/
def createAttempts (tries : Nat) (dto : CreateWorkspaceDto) (userId : Uuid) :
    Nat → JsString → Service WorkspaceRecord
  | 0, _ =>
      fail (.businessRule "SLUG_COLLISION"
        "Could not generate unique workspace slug, please try again")
  | attempts + 1, slug => do
      let created ← workspaceRepo.createWorkspaceWithOwner
        { name := dto.name
          slug := slug
          description := dto.description
          avatarUrl := dto.avatarUrl
          ownerId := userId }
      match created with
      | .ok workspace => do
          emit (.created workspace userId)
          return workspace
      | .error .uniqueViolation => do
          let slug ← generateUniqueSlug platform tries dto.name
          createAttempts tries dto userId attempts slug
      | .error e => fail (.database e)

def create (tries : Nat) (dto : CreateWorkspaceDto) (userId : Uuid) :
    Service WorkspaceRecord := do
  let slug ← generateUniqueSlug platform tries dto.name
  createAttempts platform tries dto userId 3 slug

def archive (workspaceId : Uuid) : Service Unit := do
  let workspace ← workspaceRepo.findById workspaceId
  let _ ← demand workspace (.entityNotFound "Workspace" workspaceId)
  workspaceRepo.archive workspaceId

end WorkspaceService

end SyncBoard.Workspace
