import SyncBoard.Workspace.Effects

/-!
# Rules for the calls

Which statements each call may ask, whatever the answers are, and what the reads
in front of its writes establish in a call that nobody interrupts.
-/

namespace SyncBoard.Workspace

open Relational Interleaved Interleaved.Program

/-- The statements of `replaceOwner`. -/
def Replaces : Statement → Prop
  | .countOwners _ | .findWorkspace _ | .findOtherOwner _ _ | .updateOwner _ _ => True
  | _ => False

/-- The statements of `removeMember` and `leaveWorkspace`. -/
def StepsDown : Statement → Prop
  | .findMember _ _ | .findMemberById _ | .removeMember _ | .emit _ => True
  | op => Replaces op

/-- The statements of `updateMemberRole`. -/
def ChangesRole : Statement → Prop
  | .findMember _ _ | .findMemberById _ | .updateRole _ _ | .emit _ => True
  | op => Replaces op

/-- The statements of `inviteMember`. -/
def Invites : Statement → Prop
  | .findWorkspace _ | .findMember _ _ | .findUserSummaryByEmail _
  | .findPendingByEmailAndWorkspace _ _ | .randomBytes | .clock | .emit _
  | .findByIdPublic _ => True
  | .createInvitation data => data.status = .pending
  | _ => False

/-- The statements of `acceptInvitation`. -/
def Accepts : Statement → Prop
  | .findByToken _ | .clock | .findWorkspace _ | .findByIdPublic _ | .findMember _ _
  | .accept _ _ | .emit _ => True
  | _ => False

/-- The statements of `revokeInvitation`. -/
def Revokes : Statement → Prop
  | .findInvitation _ => True
  | .updateStatus _ status => status = .revoked
  | _ => False

/-- The statements of `WorkspaceService.create`. -/
def Creates : Statement → Prop
  | .existsBySlug _ | .randomBytes | .createWorkspaceWithOwner _ | .emit _ => True
  | _ => False

/-- The statements of `WorkspaceService.archive`. -/
def Archives : Statement → Prop
  | .findWorkspace _ | .archive _ => True
  | _ => False

theorem Replaces.stepsDown (op : Statement) (h : Replaces op) : StepsDown op := by
  cases op <;> trivial

theorem Replaces.changesRole (op : Statement) (h : Replaces op) : ChangesRole op := by
  cases op <;> trivial

section Only
variable {kind : Statement → Prop} {ws memberId userId : Uuid}

theorem only_written {α : Type} (r : Except DbError α) : (written r).Only kind :=
  Only.orThrow _ r

theorem only_write {α : Type} {p : Service (Except DbError α)} (h : p.Only kind) :
    (p >>= written).Only kind :=
  h.bind fun r => only_written r

theorem only_replaceOwner {stepsDown : Bool} {soleOwner : AppError} :
    (MembershipService.replaceOwner stepsDown ws userId soleOwner).Only Replaces := by
  cases stepsDown with
  | false => exact Only.pure _
  | true =>
      refine (Only.ask trivial).bind fun ownerCount => ?_
      refine (Only.refuseIf _ _).bind fun _ => ?_
      refine (Only.ask trivial).bind fun workspace => ?_
      split_ifs
      · refine (Only.ask trivial).bind fun nextOwner => ?_
        cases nextOwner with
        | none => exact Only.pure _
        | some nextOwner => exact only_write (Only.ask trivial)
      · exact Only.pure _

theorem only_findMemberIn (h : kind (.findMemberById memberId)) :
    (MembershipService.findMemberIn ws memberId).Only kind :=
  (Only.ask h).bind fun _ => Only.demand _ _

theorem only_gateRoleChange {member : WorkspaceMember} {role : WorkspaceRole}
    {actorId : Option Uuid} (h : ∀ userId, kind (.findMember ws userId)) :
    (MembershipService.gateRoleChange ws member role actorId).Only kind := by
  cases actorId with
  | none => exact Only.pure _
  | some actorId =>
      refine (Only.ask (h actorId)).bind fun actorMember => ?_
      exact (Only.refuseIf _ _).bind fun _ => Only.refuseIf _ _

theorem only_gateRemoval {member : WorkspaceMember} {actorId : Option Uuid}
    (h : ∀ userId, kind (.findMember ws userId)) :
    (MembershipService.gateRemoval ws member actorId).Only kind := by
  cases actorId with
  | none => exact Only.pure _
  | some actorId => exact (Only.ask (h actorId)).bind fun _ => Only.refuseIf _ _

theorem only_updateMemberRole {role : WorkspaceRole} {actorId : Option Uuid} :
    (MembershipService.updateMemberRole ws memberId role actorId).Only ChangesRole := by
  refine (only_findMemberIn trivial).bind fun member => ?_
  refine (only_gateRoleChange fun _ => trivial).bind fun _ => ?_
  refine (only_replaceOwner.imp Replaces.changesRole).bind fun _ => ?_
  refine (only_write (Only.ask trivial)).bind fun updatedMember => ?_
  exact (Only.ask trivial).bind fun _ => Only.pure _

theorem only_removeMember {actorId : Option Uuid} :
    (MembershipService.removeMember ws memberId actorId).Only StepsDown := by
  refine (only_findMemberIn trivial).bind fun member => ?_
  refine (only_gateRemoval fun _ => trivial).bind fun _ => ?_
  refine (only_replaceOwner.imp Replaces.stepsDown).bind fun _ => ?_
  exact (only_write (Only.ask trivial)).bind fun _ => Only.ask trivial

theorem only_leaveWorkspace : (MembershipService.leaveWorkspace ws userId).Only StepsDown := by
  refine (Only.ask trivial).bind fun member => ?_
  refine (Only.demand _ _).bind fun member => ?_
  refine (only_replaceOwner.imp Replaces.stepsDown).bind fun _ => ?_
  exact (only_write (Only.ask trivial)).bind fun _ => Only.ask trivial

theorem only_getProfile (h : kind (.findByIdPublic userId)) :
    (AuthService.getProfile userId).Only kind :=
  (Only.ask h).bind fun _ => Only.demand _ _

theorem only_refuseMember {user : Option User} (h : ∀ userId, kind (.findMember ws userId)) :
    (InvitationService.refuseMember ws user).Only kind := by
  cases user with
  | none => exact Only.pure _
  | some user => exact (Only.ask (h _)).bind fun _ => Only.refuseIf _ _

theorem only_inviteMember {platform : Platform} {dto : InviteMemberDto} :
    (InvitationService.inviteMember platform ws dto userId).Only Invites := by
  refine Only.bind ((Only.ask trivial).bind fun _ => (Only.demand _ _).bind fun _ => Only.pure _)
    fun _ => ?_
  refine (Only.ask trivial).bind fun inviterMember => (Only.refuseIf _ _).bind fun _ => ?_
  refine (Only.ask trivial).bind fun user => (only_refuseMember fun _ => trivial).bind fun _ => ?_
  refine (Only.ask trivial).bind fun activeInvite => (Only.refuseIf _ _).bind fun _ => ?_
  refine (Only.ask trivial).bind fun rawToken => (Only.ask trivial).bind fun now => ?_
  refine (only_write (Only.ask (by exact rfl))).bind fun invitation => ?_
  refine (Only.ask trivial).bind fun _ => ?_
  exact (only_getProfile trivial).bind fun _ => Only.pure _

theorem only_acceptInvitation {platform : Platform} {token : JsString} :
    (InvitationService.acceptInvitation platform token userId).Only Accepts := by
  refine (Only.ask trivial).bind fun invitation => (Only.ask trivial).bind fun now => ?_
  refine (Only.demand _ _).bind fun invitation => (Only.ask trivial).bind fun workspace => ?_
  refine (Only.demand _ _).bind fun _ => (only_getProfile trivial).bind fun userProfile => ?_
  refine (Only.refuseIf _ _).bind fun _ => (Only.ask trivial).bind fun existingMember => ?_
  refine (Only.refuseIf _ _).bind fun _ => (only_write (Only.ask trivial)).bind fun member => ?_
  exact (Only.ask trivial).bind fun _ => Only.pure _

theorem only_revokeInvitation {invitationId : Uuid} :
    (InvitationService.revokeInvitation ws invitationId).Only Revokes := by
  refine (Only.ask trivial).bind fun invitation => ?_
  refine (Only.demand _ _).bind fun invitation => ?_
  exact (only_write (Only.ask (by exact rfl))).bind fun _ => Only.pure _

theorem only_findFreeSlug {base : JsString} {tries : Nat} {slug : JsString} :
    (WorkspaceService.findFreeSlug base tries slug).Only Creates := by
  induction tries generalizing slug with
  | zero => exact Only.fail _
  | succ tries ih =>
      refine (Only.ask trivial).bind fun taken => ?_
      split_ifs
      · exact (Only.ask trivial).bind fun suffix => ih
      · exact Only.pure _

theorem only_createAttempts {platform : Platform} {tries attempts : Nat}
    {dto : CreateWorkspaceDto} {slug : JsString} :
    (WorkspaceService.createAttempts platform tries dto userId attempts slug).Only Creates := by
  induction attempts generalizing slug with
  | zero => exact Only.fail _
  | succ attempts ih =>
      refine (Only.ask trivial).bind fun created => ?_
      cases created with
      | ok workspace => exact (Only.ask trivial).bind fun _ => Only.pure _
      | error e =>
          cases e with
          | uniqueViolation => exact only_findFreeSlug.bind fun slug => ih
          | _ => exact Only.fail _

theorem only_create {platform : Platform} {tries : Nat} {dto : CreateWorkspaceDto} :
    (WorkspaceService.create platform tries dto userId).Only Creates :=
  only_findFreeSlug.bind fun _ => only_createAttempts

theorem only_archive : (WorkspaceService.archive ws).Only Archives := by
  refine (Only.ask trivial).bind fun workspace => ?_
  exact (Only.demand _ _).bind fun _ => only_write (Only.ask trivial)

theorem only_guard {r : Request} (h : ∀ ws userId, kind (.findMember ws userId)) :
    r.guard.Only kind := by
  unfold Request.guard
  cases r.route.workspaceAuth with
  | none => exact Only.pure _
  | some auth =>
      refine (Only.ask (h _ _)).bind fun member => ?_
      exact (Only.demand _ _).bind fun member => Only.refuseIf _ _

theorem only_ignoreResult {α : Type} {p : Service α} (h : p.Only kind) :
    (ignoreResult p).Only kind :=
  h.bind fun _ => Only.pure _

end Only

/-- The user holds a role in the workspace that satisfies a condition. -/
def Holds (p : WorkspaceRole → Prop) (workspaceId userId : Uuid) (t : Tables) : Prop :=
  ∃ id m, t.members.get? id = some m ∧ m.key = (workspaceId, userId) ∧ p m.role

theorem get?_of_findMember {db : Database} {ws userId : Uuid} {m : WorkspaceMember}
    (h : WorkspaceMemberRepository.findMember db ws userId = some m) :
    db.members.get? m.id = some m.row ∧ m.row.workspaceId = ws ∧ m.row.userId = userId := by
  obtain ⟨p, hp, rfl⟩ := Option.map_eq_some_iff.mp h
  obtain ⟨hget, hkey⟩ := Table.find?_eq_some hp
  have hkey : p.2.key = (ws, userId) := by simpa using hkey
  exact ⟨hget, congrArg Prod.fst hkey, congrArg Prod.snd hkey⟩

/-- There is one membership for a workspace and a user. -/
theorem findMember_of_get? {db : Database} {ws userId id : Uuid} {m : WorkspaceMemberRow}
    (hm : db.members.get? id = some m) (hkey : m.key = (ws, userId)) :
    WorkspaceMemberRepository.findMember db ws userId = some ⟨id, m⟩ := by
  cases hfind : db.members.find? fun _ m => m.key == (ws, userId) with
  | none =>
      have hne := Table.find?_eq_none hfind hm
      simp [hkey] at hne
  | some p =>
      obtain ⟨hget, hkey'⟩ := Table.find?_eq_some hfind
      have hkey' : p.2.key = (ws, userId) := by simpa using hkey'
      have hid : p.1 = id :=
        db.wellFormed.memberKeys p.1 id p.2 m hget hm (hkey'.trans hkey.symm)
      have hrow : p.2 = m := Option.some.inj (hget.symm.trans (hid ▸ hm))
      simp only [WorkspaceMemberRepository.findMember, hfind, Option.map_some, hid, hrow]

theorem rbacAllows_admin_iff {role : WorkspaceRole} :
    rbacAllows workspaceAdminRoles role = true ↔ role = .owner ∨ role = .admin := by
  cases role <;> decide

theorem rbacAllows_owner_iff {role : WorkspaceRole} :
    rbacAllows workspaceOwnerRoles role = true ↔ role = .owner := by
  cases role <;> decide

theorem members_replaces (x : Outside) (op : Statement) (w : World) (hop : Replaces op) :
    (answer x op w).2.db.members = w.db.members := by
  have heff := effect_answer x op w
  generalize (answer x op w).2.db.toTables = t' at heff
  cases heff with
  | unchanged | updateOwner => rfl
  | _ => cases hop

section Keeps
variable {inv : World → Prop} {w : World} {ws memberId userId : Uuid}

theorem hasRole_of_holds {role : WorkspaceRole} {x : Outside}
    (h : Holds (· = role) ws userId w.db.toTables) :
    MembershipService.hasRole (answer x (.findMember ws userId) w).1 role = true := by
  obtain ⟨id, actor, hget, hkey, hrole⟩ := h
  have hread : (answer x (.findMember ws userId) w).1 = some ⟨id, actor⟩ :=
    findMember_of_get? hget hkey
  rw [hread, MembershipService.hasRole, Option.any_some, hrole, beq_self_eq_true]

/-- A statement that changes nothing. -/
def ReadsOnly (op : Statement) : Prop :=
  ∀ x w, (answer x op w).2 = w

theorem keeps_of_reads {α : Type} {p : Service α} {post : α → World → Prop}
    (hp : p.Only ReadsOnly) (hs : inv w) (h : ∀ a, post a w) : p.Keeps answer inv w post := by
  refine Keeps.of_only (fun t => t = w) ?_ hp hs rfl fun a t _ ht => ht ▸ h a
  intro x op t hop ht hw
  rw [hop x t]
  exact ⟨ht, hw⟩

theorem keeps_workspaceAuth {roles : List WorkspaceRole} {post : Unit → World → Prop}
    (hs : inv w)
    (h : ∀ member, WorkspaceMemberRepository.findMember w.db ws userId = some member →
      rbacAllows roles member.row.role = true → post () w) :
    (workspaceAuth roles ws userId).Keeps answer inv w post := by
  refine keeps_ask_bind.mpr fun x => ⟨hs, ?_⟩
  refine keeps_demand_bind.mpr fun member hmember => keeps_refuseIf.mpr fun hallows => ?_
  exact h member hmember (by simpa using hallows)

theorem keeps_findMemberIn {post : WorkspaceMember → World → Prop} (hs : inv w)
    (h : ∀ m, w.db.members.get? memberId = some m → m.workspaceId = ws →
      post ⟨memberId, m⟩ w) :
    (MembershipService.findMemberIn ws memberId).Keeps answer inv w post := by
  refine keeps_ask_bind.mpr fun x => ⟨hs, keeps_demand.mpr fun member hmember => ?_⟩
  obtain ⟨hread, hws⟩ := Option.filter_eq_some_iff.mp hmember
  obtain ⟨m, hm, rfl⟩ := Option.map_eq_some_iff.mp hread
  exact h m hm (by simpa using hws)

/-- `replaceOwner` leaves the memberships alone. -/
theorem keeps_replaceOwner {stepsDown : Bool} {soleOwner : AppError} {post : Unit → World → Prop}
    (hinv : ∀ x op t, Replaces op → inv t → inv (answer x op t).2) (hs : inv w)
    (h : ∀ t, inv t → t.db.members = w.db.members → post () t) :
    (MembershipService.replaceOwner stepsDown ws userId soleOwner).Keeps answer inv w post := by
  refine Keeps.of_only (fun t => t.db.members = w.db.members) ?_ only_replaceOwner hs rfl
    fun _ => h
  intro x op t hop ht hmembers
  exact ⟨hinv x op t hop ht, (members_replaces x op t hop).trans hmembers⟩

end Keeps

end SyncBoard.Workspace
