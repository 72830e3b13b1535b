import SyncBoard.Lib.Traces
import SyncBoard.Workspace.CallRules

/-!
# What stands behind a write

The statements that give somebody a role in a workspace, each with what its request has read
before: that the guard has let an admin through, that the target is in the workspace, that the
invitation is addressed to the user. A request asks no such statement without it
(`traces_handle`), whatever the answers are.
-/

namespace SyncBoard.Workspace

open Relational Interleaved Interleaved.Program

/-- What a request has asked so far. -/
abbrev RequestLog := Log Answer

/-- The user was read as a member of the workspace with a role that the route requires. -/
def Admitted (roles : List WorkspaceRole) (workspaceId userId : Uuid) (log : RequestLog) : Prop :=
  ∃ member, Told log (.findMember workspaceId userId) (some member) ∧
    rbacAllows roles member.row.role = true

/-- The invitation was read under the token; it was pending, and is addressed to the user. -/
structure Invited (env : Env) (token : JsString) (invitation : WorkspaceInvitation)
    (userId : Uuid) (log : RequestLog) : Prop where
  found : Told log (.findByToken (env.platform.hashToken token)) (some invitation)
  pending : invitation.row.status = .pending
  current : ∃ now, Told log .clock now ∧ now ≤ invitation.row.expiresAt
  addressed : ∃ user, Told log (.findByIdPublic userId) (some user) ∧
    env.platform.toLowerCase invitation.row.email = env.platform.toLowerCase user.row.email

/-- The statements that neither invite anybody nor give anybody a role. -/
def Ordinary : Statement → Prop
  | .createWorkspaceWithOwner _ | .createInvitation _ | .accept _ _ | .updateRole _ _
  | .transfer _ _ _ _ => False
  | _ => True

/-- What a request may ask after what it has been told. -/
inductive Warranted (env : Env) : Request → RequestLog → Statement → Prop
  | ordinary {r : Request} {log : RequestLog} {op : Statement} (hop : Ordinary op) :
      Warranted env r log op
  | create {userId : Uuid} {dto : CreateWorkspaceDto} {log : RequestLog} {data : WorkspaceRow}
      (howner : data.ownerId = userId) :
      Warranted env ⟨userId, .create dto⟩ log (.createWorkspaceWithOwner data)
  | invite {userId workspaceId : Uuid} {dto : InviteMemberDto} {log : RequestLog}
      {token : JsString} {expiresAt : Timestamp}
      (admitted : Admitted workspaceAdminRoles workspaceId userId log) :
      Warranted env ⟨userId, .inviteMember workspaceId dto⟩ log
        (.createInvitation
          { workspaceId := workspaceId, email := dto.email, role := dto.role, token := token,
            invitedBy := userId, expiresAt := expiresAt })
  | accept {userId : Uuid} {token : JsString} {log : RequestLog} {invitation : WorkspaceInvitation}
      (invited : Invited env token invitation userId log) :
      Warranted env ⟨userId, .acceptInvitation token⟩ log (.accept invitation userId)
  | updateRole {userId workspaceId memberId : Uuid} {role : WorkspaceRole} {log : RequestLog}
      {member : WorkspaceMember} (admitted : Admitted workspaceAdminRoles workspaceId userId log)
      (found : Told log (.findMemberById memberId) (some member))
      (hworkspace : member.row.workspaceId = workspaceId) :
      Warranted env ⟨userId, .updateMemberRole workspaceId memberId role⟩ log
        (.updateRole memberId role)
  | transfer {userId workspaceId newOwnerId : Uuid} {log : RequestLog}
      {current target : WorkspaceMember}
      (owner : Told log (.findMember workspaceId userId) (some current))
      (hrole : current.row.role = .owner)
      (found : Told log (.findMember workspaceId newOwnerId) (some target)) :
      Warranted env ⟨userId, .transferOwnership workspaceId newOwnerId⟩ log
        (.transfer current.id target.id workspaceId newOwnerId)

theorem Replaces.ordinary (op : Statement) (h : Replaces op) : Ordinary op := by
  cases op <;> trivial

theorem StepsDown.ordinary (op : Statement) (h : StepsDown op) : Ordinary op := by
  cases op <;> trivial

theorem Revokes.ordinary (op : Statement) (h : Revokes op) : Ordinary op := by
  cases op <;> trivial

theorem Archives.ordinary (op : Statement) (h : Archives op) : Ordinary op := by
  cases op <;> trivial

variable {env : Env} {r : Request} {log : RequestLog} {α β : Type}

/-- A part of the request asks what is warranted. -/
def Runs (env : Env) (r : Request) (p : Service α) (log : RequestLog)
    (returns : α → RequestLog → Prop) : Prop :=
  p.Traces (Warranted env r) (fun _ _ => True) log returns

namespace Runs
variable {p : Service α}

theorem bind {f : α → Service β} {returns : β → RequestLog → Prop}
    (h : Runs env r p log fun a log' => Runs env r (f a) log' returns) :
    Runs env r (p >>= f) log returns :=
  traces_bind.mpr h

theorem ask_bind {op : Statement} {f : Answer op → Service β}
    {returns : β → RequestLog → Prop} (h : Warranted env r log op)
    (hnext : ∀ a, Runs env r (f a) (log ++ [⟨op, a⟩]) returns) :
    Runs env r (ask op >>= f) log returns :=
  traces_ask_bind.mpr ⟨h, hnext⟩

theorem refuseIf_bind {c : Bool} {e : AppError} {f : Unit → Service β}
    {returns : β → RequestLog → Prop} (hnext : c = false → Runs env r (f ()) log returns) :
    Runs env r (refuseIf c e >>= f) log returns :=
  bind (traces_refuseIf.mpr ⟨fun _ => trivial, hnext⟩)

theorem demand {a : Option α} {e : AppError} {returns : α → RequestLog → Prop}
    (h : ∀ b, a = some b → returns b log) : Runs env r (demand a e) log returns :=
  traces_demand.mpr ⟨fun _ => trivial, h⟩

theorem demand_bind {a : Option α} {e : AppError} {f : α → Service β}
    {returns : β → RequestLog → Prop}
    (hnext : ∀ b, a = some b → Runs env r (f b) log returns) :
    Runs env r (Program.demand a e >>= f) log returns :=
  bind (demand hnext)

/-- A part that asks ordinary statements only. -/
theorem ordinary {returns : α → RequestLog → Prop} (hp : p.Only Ordinary)
    (h : ∀ a log', log <+: log' → returns a log') : Runs env r p log returns :=
  Traces.of_only (fun _ _ => Warranted.ordinary) (fun _ _ => trivial) hp h

theorem ordinary_bind {f : α → Service β} {returns : β → RequestLog → Prop}
    (hp : p.Only Ordinary) (hnext : ∀ a log', log <+: log' → Runs env r (f a) log' returns) :
    Runs env r (p >>= f) log returns :=
  bind (ordinary hp hnext)

end Runs

theorem Admitted.extend {roles : List WorkspaceRole} {workspaceId userId : Uuid}
    (h : Admitted roles workspaceId userId log) {log' : RequestLog} (hlog : log <+: log') :
    Admitted roles workspaceId userId log' := by
  obtain ⟨member, found, hallows⟩ := h
  exact ⟨member, found.extend hlog, hallows⟩

/-- Who passes the guard of a workspace is admitted. -/
theorem runs_workspaceAuth {roles : List WorkspaceRole} {workspaceId userId : Uuid}
    {returns : Unit → RequestLog → Prop}
    (h : ∀ log', log <+: log' → Admitted roles workspaceId userId log' → returns () log') :
    Runs env r (workspaceAuth roles workspaceId userId) log returns := by
  refine Runs.ask_bind (.ordinary trivial) fun member => Runs.demand_bind fun member hmember => ?_
  refine traces_refuseIf.mpr ⟨fun _ => trivial, fun hallows => ?_⟩
  apply h _ (List.prefix_append _ _)
  refine ⟨member, ?_, by simpa using hallows⟩
  rw [← hmember]
  exact told_last _ _ _

theorem ordinary_findFreeSlug {base : JsString} {tries : Nat} {slug : JsString} :
    (WorkspaceService.findFreeSlug base tries slug).Only Ordinary := by
  induction tries generalizing slug with
  | zero => exact Only.fail _
  | succ tries ih =>
      refine (Only.ask trivial).bind fun taken => ?_
      split_ifs
      · exact (Only.ask trivial).bind fun suffix => ih
      · exact Only.pure _

theorem runs_createAttempts {userId : Uuid} {body dto : CreateWorkspaceDto} {tries attempts : Nat}
    {slug : JsString} :
    Runs env ⟨userId, .create body⟩
      (WorkspaceService.createAttempts env.platform tries dto userId attempts slug) log
      fun _ _ => True := by
  induction attempts generalizing slug log with
  | zero => exact trivial
  | succ attempts ih =>
      refine Runs.ask_bind (.create rfl) fun created => ?_
      cases created with
      | ok workspace =>
          exact Runs.ordinary ((Only.ask trivial).bind fun _ => Only.pure _) fun _ _ _ => trivial
      | error e =>
          cases e with
          | uniqueViolation => exact Runs.ordinary_bind ordinary_findFreeSlug fun slug log' _ => ih
          | _ => exact trivial

theorem runs_create {userId : Uuid} {dto : CreateWorkspaceDto} {tries : Nat} :
    Runs env ⟨userId, .create dto⟩ (WorkspaceService.create env.platform tries dto userId) log
      fun _ _ => True :=
  Runs.ordinary_bind ordinary_findFreeSlug fun _ _ _ => runs_createAttempts

theorem runs_inviteMember {userId workspaceId : Uuid} {dto : InviteMemberDto}
    (admitted : Admitted workspaceAdminRoles workspaceId userId log) :
    Runs env ⟨userId, .inviteMember workspaceId dto⟩
      (InvitationService.inviteMember env.platform workspaceId dto userId) log
      fun _ _ => True := by
  refine Runs.ordinary_bind ((Only.ask trivial).bind fun _ => (Only.demand _ _).bind fun _ =>
    Only.pure _) fun _ log₁ h₁ => ?_
  refine Runs.ordinary_bind (Only.ask trivial) fun inviterMember log₂ h₂ => ?_
  refine Runs.refuseIf_bind fun _ => ?_
  refine Runs.ordinary_bind (Only.ask trivial) fun existingUserSummary log₃ h₃ => ?_
  refine Runs.ordinary_bind (only_refuseMember fun _ => trivial) fun _ log₄ h₄ => ?_
  refine Runs.ordinary_bind (Only.ask trivial) fun activeInvite log₅ h₅ => ?_
  refine Runs.refuseIf_bind fun _ => ?_
  refine Runs.ordinary_bind (Only.ask trivial) fun rawToken log₆ h₆ => ?_
  refine Runs.ordinary_bind (Only.ask trivial) fun now log₇ h₇ => ?_
  have hlog : log <+: log₇ :=
    h₁.trans (h₂.trans (h₃.trans (h₄.trans (h₅.trans (h₆.trans h₇)))))
  refine Runs.bind (Runs.ask_bind (.invite (admitted.extend hlog)) fun created => ?_)
  refine Runs.ordinary (only_written created) fun invitation log₈ _ => ?_
  refine Runs.ordinary ?_ fun _ _ _ => trivial
  exact (Only.ask trivial).bind fun _ => (only_getProfile trivial).bind fun _ => Only.pure _

theorem runs_acceptInvitation {userId : Uuid} {token : JsString} :
    Runs env ⟨userId, .acceptInvitation token⟩
      (InvitationService.acceptInvitation env.platform token userId) log fun _ _ => True := by
  refine Runs.ask_bind (.ordinary trivial) fun found => ?_
  refine Runs.ask_bind (.ordinary trivial) fun now => ?_
  refine Runs.demand_bind fun invitation hinvitation => ?_
  obtain ⟨rfl, husable⟩ := Option.filter_eq_some_iff.mp hinvitation
  simp only [Bool.and_eq_true, beq_iff_eq, Bool.not_eq_true', decide_eq_false_iff_not,
    Nat.not_lt] at husable
  refine Runs.ordinary_bind (Only.ask trivial) fun workspace log₁ h₁ => ?_
  refine Runs.demand_bind fun _ _ => ?_
  refine Runs.bind (Runs.ask_bind (.ordinary trivial) fun profile => ?_)
  refine Runs.demand fun userProfile hprofile => ?_
  obtain rfl := hprofile
  refine Runs.refuseIf_bind fun hemail => ?_
  refine Runs.ordinary_bind (Only.ask trivial) fun existingMember log₂ h₂ => ?_
  refine Runs.refuseIf_bind fun _ => ?_
  have hlog := h₁.trans ((List.prefix_append log₁ _).trans h₂)
  have hinvited : Invited env token invitation userId log₂ :=
    { found := ((told_last _ _ _).append _).extend hlog
      pending := husable.1
      current := ⟨now, (told_last _ _ _).extend hlog, husable.2⟩
      addressed := ⟨userProfile, (told_last _ _ _).extend h₂, by simpa using hemail⟩ }
  refine Runs.bind (Runs.ask_bind (.accept hinvited) fun accepted => ?_)
  refine Runs.ordinary (only_written accepted) fun member _ _ => ?_
  exact Runs.ordinary ((Only.ask trivial).bind fun _ => Only.pure _) fun _ _ _ => trivial

theorem runs_updateMemberRole {userId workspaceId memberId : Uuid} {role : WorkspaceRole}
    (admitted : Admitted workspaceAdminRoles workspaceId userId log) :
    Runs env ⟨userId, .updateMemberRole workspaceId memberId role⟩
      (MembershipService.updateMemberRole workspaceId memberId role (some userId)) log
      fun _ _ => True := by
  refine Runs.bind (Runs.ask_bind (.ordinary trivial) fun found => ?_)
  refine Runs.demand fun member hmember => ?_
  obtain ⟨rfl, hworkspace⟩ := Option.filter_eq_some_iff.mp hmember
  refine Runs.ordinary_bind (only_gateRoleChange fun _ => trivial) fun _ log₁ h₁ => ?_
  refine Runs.ordinary_bind (only_replaceOwner.imp Replaces.ordinary) fun _ log₂ h₂ => ?_
  have hlog := h₁.trans h₂
  have hwarrant : Warranted env ⟨userId, .updateMemberRole workspaceId memberId role⟩ log₂
      (.updateRole memberId role) :=
    .updateRole (admitted.extend ((List.prefix_append _ _).trans hlog))
      ((told_last _ _ _).extend hlog) (of_decide_eq_true hworkspace)
  refine Runs.bind (Runs.ask_bind hwarrant fun updated => ?_)
  refine Runs.ordinary (only_written updated) fun updatedMember _ _ => ?_
  exact Runs.ordinary ((Only.ask trivial).bind fun _ => Only.pure _) fun _ _ _ => trivial

theorem runs_transferOwnership {userId workspaceId newOwnerId : Uuid} :
    Runs env ⟨userId, .transferOwnership workspaceId newOwnerId⟩
      (MembershipService.transferOwnership workspaceId userId newOwnerId) log
      fun _ _ => True := by
  refine Runs.ask_bind (.ordinary trivial) fun currentMember => ?_
  refine Runs.demand_bind fun current hcurrent => ?_
  obtain ⟨rfl, hrole⟩ := Option.filter_eq_some_iff.mp hcurrent
  refine Runs.ask_bind (.ordinary trivial) fun targetMember => ?_
  refine Runs.demand_bind fun target htarget => ?_
  obtain rfl := htarget
  refine Runs.bind (Runs.ask_bind (.transfer ((told_last _ _ _).append _) (by simpa using hrole)
    (told_last _ _ _)) fun transferred => ?_)
  refine Runs.ordinary (only_written transferred) fun updatedTarget _ _ => ?_
  exact Runs.ordinary ((Only.ask trivial).bind fun _ => Only.pure _) fun _ _ _ => trivial

theorem Runs.ignoreResult {p : Service α} (h : Runs env r p log fun _ _ => True) :
    Runs env r (ignoreResult p) log fun _ _ => True :=
  Runs.bind (Traces.imp h (fun _ _ => id) (fun _ _ => id) fun _ _ _ => trivial)

/-- A request asks what is warranted, whatever the answers are. -/
theorem traces_handle (env : Env) (r : Request) :
    (r.handle env).Traces (Warranted env r) (fun _ _ => True) [] fun _ _ => True := by
  change Runs env r (r.handle env) [] fun _ _ => True
  obtain ⟨userId, route⟩ := r
  have hguard : (Request.guard ⟨userId, route⟩).Only Ordinary := only_guard fun _ _ => trivial
  cases route with
  | create dto => exact Runs.ordinary_bind hguard fun _ log _ => runs_create.ignoreResult
  | archive workspaceId =>
      exact Runs.ordinary (hguard.bind fun _ => only_archive.imp Archives.ordinary)
        fun _ _ _ => trivial
  | removeMember workspaceId memberId =>
      exact Runs.ordinary (hguard.bind fun _ => only_removeMember.imp StepsDown.ordinary)
        fun _ _ _ => trivial
  | leaveWorkspace workspaceId =>
      exact Runs.ordinary (hguard.bind fun _ => only_leaveWorkspace.imp StepsDown.ordinary)
        fun _ _ _ => trivial
  | revokeInvitation workspaceId invitationId =>
      exact Runs.ordinary (hguard.bind fun _ => only_revokeInvitation.imp Revokes.ordinary)
        fun _ _ _ => trivial
  | acceptInvitation token =>
      exact Runs.ordinary_bind hguard fun _ log _ => runs_acceptInvitation.ignoreResult
  | inviteMember workspaceId dto =>
      refine Runs.bind (runs_workspaceAuth fun log _ admitted => ?_)
      exact (runs_inviteMember admitted).ignoreResult
  | transferOwnership workspaceId newOwnerId =>
      exact Runs.ordinary_bind hguard fun _ log _ => runs_transferOwnership.ignoreResult
  | updateMemberRole workspaceId memberId role =>
      refine Runs.bind (runs_workspaceAuth fun log _ admitted => ?_)
      exact (runs_updateMemberRole admitted).ignoreResult

end SyncBoard.Workspace
