import SyncBoard.Workspace.Services

/-!
# Calls and requests

The calls of the three services that write, and the requests on the routes of
`WorkspaceController` that lead to them. A request passes the guards of its route
and then makes its call.
-/

namespace SyncBoard.Workspace

open Interleaved Interleaved.Program

/-- What the calls take from the rest of the application. -/
structure Env where
  platform : Platform
  slugTries : Nat := 16

/-- A call for its effects. -/
def ignoreResult {α : Type} (p : Service α) : Service Unit :=
  p >>= fun _ => pure ()

/-- The calls of `MembershipService` that write. -/
inductive MembershipCall
  | updateMemberRole (workspaceId memberId : Uuid) (role : WorkspaceRole)
      (actorId : Option Uuid)
  | removeMember (workspaceId memberId : Uuid) (actorId : Option Uuid)
  | leaveWorkspace (workspaceId userId : Uuid)
  | transferOwnership (workspaceId currentOwnerId newOwnerUserId : Uuid)
  deriving DecidableEq, Repr

def MembershipCall.run : MembershipCall → Service Unit
  | updateMemberRole workspaceId memberId role actorId =>
      ignoreResult (MembershipService.updateMemberRole workspaceId memberId role actorId)
  | removeMember workspaceId memberId actorId =>
      MembershipService.removeMember workspaceId memberId actorId
  | leaveWorkspace workspaceId userId => MembershipService.leaveWorkspace workspaceId userId
  | transferOwnership workspaceId currentOwnerId newOwnerUserId =>
      ignoreResult (MembershipService.transferOwnership workspaceId currentOwnerId newOwnerUserId)

/-- The calls of `InvitationService` that write. -/
inductive InvitationCall
  | inviteMember (workspaceId : Uuid) (dto : InviteMemberDto) (invitedBy : Uuid)
  | acceptInvitation (token : JsString) (userId : Uuid)
  | revokeInvitation (workspaceId invitationId : Uuid)
  deriving DecidableEq, Repr

def InvitationCall.run (platform : Platform) : InvitationCall → Service Unit
  | inviteMember workspaceId dto invitedBy =>
      ignoreResult (InvitationService.inviteMember platform workspaceId dto invitedBy)
  | acceptInvitation token userId =>
      ignoreResult (InvitationService.acceptInvitation platform token userId)
  | revokeInvitation workspaceId invitationId =>
      InvitationService.revokeInvitation workspaceId invitationId

inductive Call
  | create (dto : CreateWorkspaceDto) (userId : Uuid)
  | archive (workspaceId : Uuid)
  | membership (call : MembershipCall)
  | invitation (call : InvitationCall)
  deriving DecidableEq, Repr

def Call.run (env : Env) : Call → Service Unit
  | create dto userId =>
      ignoreResult (WorkspaceService.create env.platform env.slugTries dto userId)
  | archive workspaceId => WorkspaceService.archive workspaceId
  | membership call => call.run
  | invitation call => call.run env.platform

/-- The routes, with their parameters and bodies. -/
inductive Route
  | create (dto : CreateWorkspaceDto)
  | archive (workspaceId : Uuid)
  | updateMemberRole (workspaceId memberId : Uuid) (role : WorkspaceRole)
  | removeMember (workspaceId memberId : Uuid)
  | leaveWorkspace (workspaceId : Uuid)
  | transferOwnership (workspaceId newOwnerId : Uuid)
  | inviteMember (workspaceId : Uuid) (dto : InviteMemberDto)
  | acceptInvitation (token : JsString)
  | revokeInvitation (workspaceId invitationId : Uuid)
  deriving DecidableEq, Repr

/-- The workspace of a route and the roles of its `@WorkspaceAuth`. -/
def Route.workspaceAuth : Route → Option (Uuid × List WorkspaceRole)
  | create _ | acceptInvitation _ => none
  | archive workspaceId | transferOwnership workspaceId _ =>
      some (workspaceId, workspaceOwnerRoles)
  | updateMemberRole workspaceId _ _ | removeMember workspaceId _
  | inviteMember workspaceId _ | revokeInvitation workspaceId _ =>
      some (workspaceId, workspaceAdminRoles)
  | leaveWorkspace workspaceId => some (workspaceId, workspaceReadRoles)

/-- A request of an authenticated user. -/
structure Request where
  userId : Uuid
  route : Route
  deriving DecidableEq, Repr

namespace Request

def call (r : Request) : Call :=
  match r.route with
  | .create dto => .create dto r.userId
  | .archive workspaceId => .archive workspaceId
  | .updateMemberRole workspaceId memberId role =>
      .membership (.updateMemberRole workspaceId memberId role (some r.userId))
  | .removeMember workspaceId memberId =>
      .membership (.removeMember workspaceId memberId (some r.userId))
  | .leaveWorkspace workspaceId => .membership (.leaveWorkspace workspaceId r.userId)
  | .transferOwnership workspaceId newOwnerId =>
      .membership (.transferOwnership workspaceId r.userId newOwnerId)
  | .inviteMember workspaceId dto => .invitation (.inviteMember workspaceId dto r.userId)
  | .acceptInvitation token => .invitation (.acceptInvitation token r.userId)
  | .revokeInvitation workspaceId invitationId =>
      .invitation (.revokeInvitation workspaceId invitationId)

def guard (r : Request) : Service Unit :=
  match r.route.workspaceAuth with
  | none => pure ()
  | some (workspaceId, roles) => workspaceAuth roles workspaceId r.userId

def handle (env : Env) (r : Request) : Service Unit := do
  r.guard
  r.call.run env

end Request

/-- A call that nobody interrupts, with what its statements take from outside. -/
def step (env : Env) (w : World) (a : Call × (Nat → Outside)) : Option World :=
  some ((a.1.run env).leaves answer a.2 w)

/-- A request that nobody interrupts. -/
def requestStep (env : Env) (w : World) (a : Request × (Nat → Outside)) : Option World :=
  some ((a.1.handle env).leaves answer a.2 w)

/-- Nothing is taken from outside but the time. -/
def atTime (now : Timestamp) : Outside := { newId := 0, now := now }

/-- Tokens are stored as they are sent, and all letters are small. -/
def plainEnv : Env where
  platform := { toLowerCase := id, hashToken := id }

end SyncBoard.Workspace
