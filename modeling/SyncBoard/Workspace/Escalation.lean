import SyncBoard.Workspace.OwnerGate

/-!
# Admins and owners of a workspace

Who is an admin or an owner of a workspace can change in two ways: by an
invitation and by a change of roles. The results are about requests that run one
after the other, none of them on the workspace by one of its owners, and say
which of them make somebody an admin or an owner who was neither.
-/

namespace SyncBoard.Workspace

open Relational Interleaved Interleaved.Program Labelled

/-- Admins and owners. -/
def WorkspaceRole.elevated : WorkspaceRole → Bool
  | owner | admin => true
  | member | viewer => false

/-- The user is an admin or an owner of the workspace. -/
def Elevated (workspaceId userId : Uuid) (t : Tables) : Prop :=
  Holds (fun role => role.elevated = true) workspaceId userId t

/-- No invitation to the workspace as an admin or an owner is pending. -/
def NoneInvited (workspaceId : Uuid) (t : Tables) : Prop :=
  ∀ id i, t.invitations.get? id = some i → i.workspaceId = workspaceId →
    i.status = .pending → i.role.elevated = false

/-- The request is not one on the workspace by an owner of it. -/
def NotByOwner (workspaceId : Uuid) (w : World) (r : Request) : Prop :=
  r.route.workspaceAuth.map Prod.fst = some workspaceId →
    ¬ Holds (· = .owner) workspaceId r.userId w.db.toTables

/-- The request makes nobody an admin or an owner who was neither. -/
def GainsNobody (env : Env) (workspaceId : Uuid) (w : World)
    (a : Request × (Nat → Outside)) : Prop :=
  ∀ w', requestStep env w a = some w' → ∀ userId,
    Elevated workspaceId userId w'.db.toTables → Elevated workspaceId userId w.db.toTables

/-- An admin of the workspace gives a member or viewer of it the role admin. -/
def Promotes (workspaceId : Uuid) (w : World) (r : Request) : Prop :=
  Holds (· = .admin) workspaceId r.userId w.db.toTables ∧
    ∃ memberId m, r.route = .updateMemberRole workspaceId memberId .admin ∧
      w.db.members.get? memberId = some m ∧ m.workspaceId = workspaceId ∧
      m.role.elevated = false

/-- The statement makes nobody an admin or owner of the workspace, and invites
nobody as one. -/
def RaisesNobody (workspaceId : Uuid) (t : Tables) : Statement → Prop
  | .updateRole memberId role => role.elevated = true →
      ∀ m, t.members.get? memberId = some m → m.workspaceId = workspaceId →
        m.role.elevated = true
  | .transfer currentId targetId _ _ =>
      (∀ m, t.members.get? currentId = some m → m.workspaceId ≠ workspaceId) ∧
        ∀ m, t.members.get? targetId = some m → m.workspaceId ≠ workspaceId
  | .accept invitation _ =>
      invitation.row.workspaceId = workspaceId → invitation.row.role.elevated = false
  | .createInvitation data => data.workspaceId = workspaceId → data.role.elevated = false
  | .updateStatus _ status => status ≠ .pending
  | _ => True

/-- The workspace exists, and nobody is invited to it as an admin or owner. -/
structure Closed (workspaceId : Uuid) (t : Tables) : Prop where
  known : t.workspaces.contains workspaceId = true
  invited : NoneInvited workspaceId t

/-- Besides, everybody who is an admin or owner was one before. -/
structure Bounded (workspaceId : Uuid) (before t : Tables) : Prop
    extends Closed workspaceId t where
  members : ∀ userId, Elevated workspaceId userId t → Elevated workspaceId userId before

section Statements
variable {ws : Uuid} {before t t' : Tables} {x : Outside} {op : Statement}

/-- No row of the workspace with a new elevated role. -/
theorem Bounded.setMembers (h : Bounded ws before t) {members : Table Uuid WorkspaceMemberRow}
    (hrows : ∀ id m, members.get? id = some m → m.workspaceId = ws → m.role.elevated = true →
      ∃ id' m', t.members.get? id' = some m' ∧ m'.key = m.key ∧ m'.role.elevated = true) :
    Bounded ws before { t with members := members } where
  known := h.known
  invited := h.invited
  members := by
    rintro userId ⟨id, m, hm, hkey, hrole⟩
    obtain ⟨id', m', hm', hkey', hrole'⟩ := hrows id m hm (congrArg Prod.fst hkey) hrole
    exact h.members userId ⟨id', m', hm', hkey'.trans hkey, hrole'⟩

theorem Bounded.setRole (h : Bounded ws before t) {id : Uuid} {role : WorkspaceRole}
    (hrole : role.elevated = true → ∀ m, t.members.get? id = some m → m.workspaceId = ws →
      m.role.elevated = true) :
    Bounded ws before (t.setRole id role) := by
  apply h.setMembers
  intro j m hm hws helevated
  rw [Table.get?_modify] at hm
  split at hm
  · next hj =>
      subst hj
      obtain ⟨m', hm', rfl⟩ := Option.map_eq_some_iff.mp hm
      exact ⟨j, m', hm', rfl, hrole helevated m' hm' hws⟩
  · exact ⟨j, m, hm, rfl, helevated⟩

theorem Bounded.insertMember (h : Bounded ws before t) {id : Uuid} {m : WorkspaceMemberRow}
    (hid : t.members.get? id = none) (hm : m.workspaceId = ws → m.role.elevated = false) :
    Bounded ws before (t.addMember id m hid) := by
  apply h.setMembers
  intro j m' hm' hws helevated
  rw [Table.get?_insert] at hm'
  split at hm'
  · cases hm'
    rw [hm hws] at helevated
    cases helevated
  · exact ⟨j, m', hm', rfl, helevated⟩

theorem Bounded.setWorkspaces (h : Bounded ws before t)
    {workspaces : Table Uuid WorkspaceRow} (hgrows : t.workspaces.Grows workspaces) :
    Bounded ws before { t with workspaces := workspaces } where
  known := hgrows ws h.known
  invited := h.invited
  members := h.members

theorem Bounded.setStatus (h : Bounded ws before t) {id : Uuid} {status : InvitationStatus}
    {acceptedAt : Option Timestamp} (hstatus : status ≠ .pending) :
    Bounded ws before (t.setStatus id status acceptedAt) where
  known := h.known
  invited := by
    intro j i hi hws hpending
    simp only [Tables.setStatus] at hi
    rw [Table.get?_modify] at hi
    split at hi
    · obtain ⟨i', -, rfl⟩ := Option.map_eq_some_iff.mp hi
      exact absurd hpending hstatus
    · exact h.invited j i hi hws hpending
  members := h.members

/-- A statement that raises nobody keeps the bound. -/
theorem Bounded.effect (h : Bounded ws before t) (heff : Effect x t op t')
    (hop : RaisesNobody ws t op) : Bounded ws before t' := by
  cases heff with
  | unchanged => exact h
  | @createWorkspaceWithOwner data hid hmember hkey =>
      -- the new workspace is another one
      have hne : x.newId ≠ ws := by
        rintro rfl
        have hknown := h.known
        rw [Table.contains, hid] at hknown
        cases hknown
      exact (h.insertMember hmember fun hws => absurd hws hne).setWorkspaces
        (t.workspaces.grows_insert hid)
  | updateOwner => exact h.setWorkspaces (t.workspaces.grows_modify _ _)
  | archive => exact h.setWorkspaces (t.workspaces.grows_modify _ _)
  | updateRole => exact h.setRole hop
  | removeMember =>
      apply h.setMembers
      intro j m hm _ helevated
      rw [Table.get?_delete] at hm
      split at hm
      · cases hm
      · exact ⟨j, m, hm, rfl, helevated⟩
  | @transfer currentId targetId workspaceId newOwnerUserId current target hcurrent htarget =>
      have hcur : Bounded ws before (t.setRole currentId .admin) :=
        h.setRole fun _ m hm hws => absurd hws (hop.1 m hm)
      have htgt : Bounded ws before ((t.setRole currentId .admin).setRole targetId .owner) := by
        refine hcur.setRole fun _ m hm hws => ?_
        obtain ⟨m', hm', hkey⟩ := FewerMembers.setRole t currentId .admin targetId m hm
        exact absurd ((congrArg Prod.fst hkey).trans hws) (hop.2 m' hm')
      exact htgt.setWorkspaces (t.workspaces.grows_modify _ _)
  | @createInvitation data hid =>
      refine ⟨⟨h.known, ?_⟩, h.members⟩
      intro j i hi hws hpending
      rw [Table.get?_insert] at hi
      split at hi
      · cases hi
        exact hop hws
      · exact h.invited j i hi hws hpending
  | updateStatus => exact h.setStatus hop
  | @accept invitation userId hid hkey =>
      have hadd : Bounded ws before (t.addMember x.newId (invitedMember x invitation userId) hid) :=
        h.insertMember hid hop
      exact hadd.setStatus nofun

end Statements

section Requests
variable {ws ws' userId memberId : Uuid} {before : Tables} {w : World}

/-- The program keeps the bound. -/
abbrev KeepsBounded (ws : Uuid) (before : Tables) {α : Type} (p : Service α) (w : World)
    (post : α → World → Prop) : Prop :=
  p.Keeps answer (fun w => Bounded ws before w.db.toTables) w post

/-- The statement raises nobody, whatever the tables are. -/
def Harmless (ws : Uuid) (op : Statement) : Prop :=
  ∀ t, RaisesNobody ws t op

theorem StepsDown.harmless (op : Statement) (h : StepsDown op) : Harmless ws op := by
  cases op <;> first | exact fun _ => trivial | cases h

theorem Replaces.harmless (op : Statement) (h : Replaces op) : Harmless ws op :=
  (h.stepsDown op).harmless op

theorem Creates.harmless (op : Statement) (h : Creates op) : Harmless ws op := by
  cases op <;> first | exact fun _ => trivial | cases h

theorem Archives.harmless (op : Statement) (h : Archives op) : Harmless ws op := by
  cases op <;> first | exact fun _ => trivial | cases h

theorem Revokes.harmless (op : Statement) (h : Revokes op) : Harmless ws op := by
  cases op with
  | updateStatus id status =>
      obtain rfl : status = .revoked := h
      exact fun _ => nofun
  | findInvitation id => exact fun _ => trivial
  | _ => cases h

theorem Bounded.answer (x : Outside) (op : Statement) (h : Bounded ws before w.db.toTables)
    (hop : Harmless ws op) : Bounded ws before (answer x op w).2.db.toTables :=
  h.effect (effect_answer x op w) (hop _)

theorem keepsBounded_of_harmless {α : Type} {p : Service α} (hp : p.Only (Harmless ws))
    (hs : Bounded ws before w.db.toTables) : KeepsBounded ws before p w fun _ _ => True :=
  Keeps.of_only (fun _ => True) (fun x op _ hop ht _ => ⟨ht.answer x op hop, trivial⟩) hp hs trivial
    fun _ _ _ _ => trivial

/-- The service gives an elevated role only to who has one, unless an admin gives
the role admin. -/
theorem keepsBounded_updateMemberRole {role : WorkspaceRole}
    (hs : Bounded ws before w.db.toTables)
    (hactor : ws' = ws → Holds (· = .admin) ws userId w.db.toTables)
    (hpromotes : ws' = ws → role = .admin → ∀ m, w.db.members.get? memberId = some m →
      m.workspaceId = ws → m.role.elevated = true) :
    KeepsBounded ws before
      (MembershipService.updateMemberRole ws' memberId role (some userId)) w
      fun _ _ => True := by
  refine keeps_bind.mpr (keeps_findMemberIn hs fun m hm hws => ?_)
  refine keeps_bind.mpr (keeps_ask_bind.mpr fun x => ⟨hs, ?_⟩)
  refine keeps_refuseIf_bind.mpr fun howner => keeps_refuseIf.mpr fun hnew => ?_
  refine keeps_bind.mpr (keeps_replaceOwner (fun x op t hop ht => ht.answer x op (hop.harmless op))
    hs fun t ht hmembers => ?_)
  have hraises : RaisesNobody ws t.db.toTables (.updateRole memberId role) := by
    intro helevated m' hm' hmws
    have hm'' : w.db.members.get? memberId = some m' := hmembers ▸ hm'
    obtain rfl := Option.some.inj (hm.symm.trans hm'')
    obtain rfl : ws' = ws := hws.symm.trans hmws
    rw [hasRole_of_holds (hactor rfl), Bool.true_and, beq_eq_false_iff_ne] at howner hnew
    have hrole : role = .admin := by
      cases role with
      | owner => exact absurd rfl hnew
      | admin => rfl
      | _ => cases helevated
    exact hpromotes rfl hrole m hm hmws
  refine keeps_bind.mpr (keeps_ask_bind.mpr fun x => ?_)
  have hnext := ht.effect (effect_answer x _ t) hraises
  refine ⟨hnext, keeps_orThrow.mpr fun _ _ => ?_⟩
  exact keepsBounded_of_harmless ((Only.ask fun _ => trivial).bind fun _ => Only.pure _) hnext

/-- A transfer in another workspace raises nobody in this one. -/
theorem keepsBounded_transferOwnership {currentOwnerId newOwnerUserId : Uuid}
    (hs : Bounded ws before w.db.toTables) (hne : ws' ≠ ws) :
    KeepsBounded ws before
      (MembershipService.transferOwnership ws' currentOwnerId newOwnerUserId) w
      fun _ _ => True := by
  have helsewhere : ∀ {user : Uuid} {member : WorkspaceMember},
      WorkspaceMemberRepository.findMember w.db ws' user = some member →
        ∀ m, w.db.members.get? member.id = some m → m.workspaceId ≠ ws := by
    intro user member hfind m hm hws
    obtain ⟨hget, hws', -⟩ := get?_of_findMember hfind
    obtain rfl := Option.some.inj (hget.symm.trans hm)
    exact hne (hws'.symm.trans hws)
  refine keeps_ask_bind.mpr fun x₁ => ⟨hs, keeps_demand_bind.mpr fun current hcurrent => ?_⟩
  obtain ⟨hcurrent, -⟩ := Option.filter_eq_some_iff.mp hcurrent
  refine keeps_ask_bind.mpr fun x₂ => ⟨hs, keeps_demand_bind.mpr fun target htarget => ?_⟩
  have hraises : RaisesNobody ws w.db.toTables
      (.transfer current.id target.id ws' newOwnerUserId) :=
    ⟨helsewhere hcurrent, helsewhere htarget⟩
  refine keeps_bind.mpr (keeps_ask_bind.mpr fun x₃ => ?_)
  have hnext := hs.effect (effect_answer x₃ _ w) hraises
  refine ⟨hnext, keeps_orThrow.mpr fun _ _ => ?_⟩
  exact keepsBounded_of_harmless ((Only.ask fun _ => trivial).bind fun _ => Only.pure _) hnext

/-- An admin invites nobody as an admin or owner. -/
theorem keepsBounded_inviteMember {platform : Platform} {dto : InviteMemberDto}
    (hs : Bounded ws before w.db.toTables)
    (hactor : ws' = ws → Holds (· = .admin) ws userId w.db.toTables) :
    KeepsBounded ws before (InvitationService.inviteMember platform ws' dto userId) w
      fun _ _ => True := by
  refine keeps_bind.mpr (keeps_ask_bind.mpr fun x₁ => ⟨hs, ?_⟩)
  refine keeps_demand_bind.mpr fun workspace _ => (keeps_pure _).mpr ?_
  refine keeps_ask_bind.mpr fun x₂ => ⟨hs, keeps_refuseIf_bind.mpr fun hrefused => ?_⟩
  have hdto : ws' = ws → dto.role.elevated = false := by
    rintro rfl
    have hrefused : (MembershipService.hasRole (answer x₂ (.findMember ws' userId) w).1 .admin &&
      (dto.role == .owner || dto.role == .admin)) = false := hrefused
    rw [hasRole_of_holds (hactor rfl), Bool.true_and] at hrefused
    revert hrefused
    cases dto.role <;> decide
  refine keepsBounded_of_harmless ?_ hs
  refine (Only.ask fun _ => trivial).bind fun user => ?_
  refine (only_refuseMember fun _ _ => trivial).bind fun _ => ?_
  refine (Only.ask fun _ => trivial).bind fun activeInvite => ?_
  refine (Only.refuseIf _ _).bind fun _ => ?_
  refine (Only.ask fun _ => trivial).bind fun rawToken => ?_
  refine (Only.ask fun _ => trivial).bind fun now => ?_
  refine (only_write (Only.ask fun _ => hdto)).bind fun invitation => ?_
  refine (Only.ask fun _ => trivial).bind fun _ => ?_
  exact (only_getProfile fun _ => trivial).bind fun _ => Only.pure _

/-- Where nobody is invited as an admin or owner, no acceptance makes one. -/
theorem keepsBounded_acceptInvitation {platform : Platform} {token : JsString}
    (hs : Bounded ws before w.db.toTables) :
    KeepsBounded ws before (InvitationService.acceptInvitation platform token userId) w
      fun _ _ => True := by
  refine keeps_ask_bind.mpr fun x₁ => ⟨hs, keeps_ask_bind.mpr fun x₂ => ⟨hs, ?_⟩⟩
  refine keeps_demand_bind.mpr fun invitation hinvitation => ?_
  obtain ⟨hread, hpending⟩ := Option.filter_eq_some_iff.mp hinvitation
  obtain ⟨p, hp, rfl⟩ := Option.map_eq_some_iff.mp hread
  obtain ⟨hget, -⟩ := Table.find?_eq_some hp
  simp only [Bool.and_eq_true, beq_iff_eq] at hpending
  have hrole : p.2.workspaceId = ws → p.2.role.elevated = false :=
    fun hws => hs.invited p.1 p.2 hget hws hpending.1
  refine keepsBounded_of_harmless ?_ hs
  refine (Only.ask fun _ => trivial).bind fun workspace => (Only.demand _ _).bind fun _ => ?_
  refine (only_getProfile fun _ => trivial).bind fun userProfile => ?_
  refine (Only.refuseIf _ _).bind fun _ => ?_
  refine (Only.ask fun _ => trivial).bind fun existingMember => ?_
  refine (Only.refuseIf _ _).bind fun _ => ?_
  refine (only_write (Only.ask fun _ => hrole)).bind fun member => ?_
  exact (Only.ask fun _ => trivial).bind fun _ => Only.pure _

/-- Who passes the guard of an admin's route and is no owner is an admin. -/
theorem holds_admin_of_auth {actor : WorkspaceMember}
    (hfind : WorkspaceMemberRepository.findMember w.db ws userId = some actor)
    (hallows : rbacAllows workspaceAdminRoles actor.row.role = true)
    (hnot : ¬ Holds (· = .owner) ws userId w.db.toTables) :
    Holds (· = .admin) ws userId w.db.toTables := by
  obtain ⟨hget, hws, huser⟩ := get?_of_findMember hfind
  have hkey : actor.row.key = (ws, userId) := Prod.ext hws huser
  rcases rbacAllows_admin_iff.mp hallows with howner | hadmin
  · exact absurd ⟨actor.id, actor.row, hget, hkey, howner⟩ hnot
  · exact ⟨actor.id, actor.row, hget, hkey, hadmin⟩

/-- A request that is not by an owner and promotes nobody keeps the bound. -/
theorem keepsBounded_handle {env : Env} {r : Request} (hs : Bounded ws before w.db.toTables)
    (hnot : NotByOwner ws w r) (hpromotes : ¬ Promotes ws w r) :
    KeepsBounded ws before (r.handle env) w fun _ _ => True := by
  have hguard : r.guard.Only (Harmless ws) := only_guard fun _ _ _ => trivial
  obtain ⟨userId, route⟩ := r
  cases route with
  | create dto =>
      refine keepsBounded_of_harmless (hguard.bind fun _ => only_ignoreResult ?_) hs
      exact only_create.imp Creates.harmless
  | archive workspaceId =>
      exact keepsBounded_of_harmless (hguard.bind fun _ => only_archive.imp Archives.harmless) hs
  | removeMember workspaceId memberId =>
      refine keepsBounded_of_harmless (hguard.bind fun _ => ?_) hs
      exact only_removeMember.imp StepsDown.harmless
  | leaveWorkspace workspaceId =>
      refine keepsBounded_of_harmless (hguard.bind fun _ => ?_) hs
      exact only_leaveWorkspace.imp StepsDown.harmless
  | revokeInvitation workspaceId invitationId =>
      refine keepsBounded_of_harmless (hguard.bind fun _ => ?_) hs
      exact only_revokeInvitation.imp Revokes.harmless
  | acceptInvitation token =>
      refine keeps_bind.mpr ((keeps_pure _).mpr (keeps_bind.mpr ?_))
      exact keepsBounded_acceptInvitation hs
  | inviteMember workspaceId dto =>
      refine keeps_bind.mpr (keeps_workspaceAuth hs fun actor hfind hallows => ?_)
      refine keeps_bind.mpr (keepsBounded_inviteMember hs ?_)
      rintro rfl
      exact holds_admin_of_auth hfind hallows (hnot rfl)
  | transferOwnership workspaceId newOwnerId =>
      refine keeps_bind.mpr (keeps_workspaceAuth hs fun actor hfind hallows => ?_)
      refine keeps_bind.mpr (keepsBounded_transferOwnership hs ?_)
      rintro rfl
      obtain ⟨hget, hws, huser⟩ := get?_of_findMember hfind
      exact hnot rfl ⟨actor.id, actor.row, hget, Prod.ext hws huser,
        rbacAllows_owner_iff.mp hallows⟩
  | updateMemberRole workspaceId memberId role =>
      refine keeps_bind.mpr (keeps_workspaceAuth hs fun actor hfind hallows => ?_)
      refine keeps_bind.mpr (keepsBounded_updateMemberRole hs ?_ ?_)
      · rintro rfl
        exact holds_admin_of_auth hfind hallows (hnot rfl)
      · rintro rfl rfl m hm hws
        by_contra hrole
        exact hpromotes ⟨holds_admin_of_auth hfind hallows (hnot rfl), memberId, m, rfl, hm, hws,
          by simpa using hrole⟩

end Requests

/-- An admin who gives a member or viewer the role admin is not refused. -/
theorem leaves_promote {env : Env} {ws userId memberId : Uuid} {w : World} {m : WorkspaceMemberRow}
    (hactor : Holds (· = .admin) ws userId w.db.toTables)
    (hm : w.db.members.get? memberId = some m) (hws : m.workspaceId = ws)
    (hrole : m.role.elevated = false) (supply : Nat → Outside) :
    ((Request.handle env ⟨userId, .updateMemberRole ws memberId .admin⟩).leaves answer supply
      w).db.toTables = w.db.toTables.setRole memberId .admin := by
  obtain ⟨id, actor, hget, hkey, hadmin⟩ := hactor
  have hfind : WorkspaceMemberRepository.findMember w.db ws userId = some ⟨id, actor⟩ :=
    findMember_of_get? hget hkey
  have hmember : WorkspaceMemberRepository.findMemberById w.db memberId = some ⟨memberId, m⟩ := by
    rw [WorkspaceMemberRepository.findMemberById, hm, Option.map_some]
  have hplain : (m.role == .owner) = false := by
    revert hrole
    cases m.role <;> decide
  have hwritten : WorkspaceMemberRepository.updateRole w.db memberId .admin =
      .ok (⟨memberId, { m with role := .admin }⟩, w.db.setRole memberId .admin) := by
    simp only [WorkspaceMemberRepository.updateRole, hm]
  have hguard : ∀ x, answer x (.findMember ws userId) w = (some ⟨id, actor⟩, w) :=
    fun _ => congrArg (·, w) hfind
  have htarget : ∀ x, answer x (.findMemberById memberId) w = (some ⟨memberId, m⟩, w) :=
    fun _ => congrArg (·, w) hmember
  have hupdate : ∀ x, answer x (.updateRole memberId .admin) w =
      (.ok ⟨memberId, { m with role := .admin }⟩, { w with db := w.db.setRole memberId .admin }) :=
    fun _ => congrArg w.write hwritten
  have hallows : (!rbacAllows workspaceAdminRoles actor.role) = false := by
    rw [hadmin]
    rfl
  have hnew : (WorkspaceRole.admin == WorkspaceRole.owner) = false := rfl
  have hin : ((some ⟨memberId, m⟩ : Option WorkspaceMember).filter
      fun m => m.row.workspaceId == ws) = some ⟨memberId, m⟩ := by
    simp [hws]
  simp only [Request.handle, Request.guard, Request.call, Route.workspaceAuth, workspaceAuth,
    Call.run, MembershipCall.run, ignoreResult, MembershipService.updateMemberRole,
    MembershipService.findMemberIn, MembershipService.gateRoleChange,
    MembershipService.replaceOwner, memberRepo.updateRole, written, bind_assoc, leaves_ask_bind,
    hguard, htarget, hupdate, demand_some_bind, hin, hallows, hplain, hnew, refuseIf_false_bind,
    Bool.and_false, Bool.false_and, Program.pure_bind, Bool.false_eq_true, if_false,
    orThrow_ok_bind, leaves_pure]
  rfl

section Steps
variable {env : Env} {ws : Uuid} {w w' : World} {a : Request × (Nat → Outside)}

theorem Closed.bounded (h : Closed ws w.db.toTables) : Bounded ws w.db.toTables w.db.toTables :=
  ⟨h, fun _ huser => huser⟩

theorem bounded_requestStep (h : Closed ws w.db.toTables) (hnot : NotByOwner ws w a.1)
    (hpromotes : ¬ Promotes ws w a.1) (hstep : requestStep env w a = some w') :
    Bounded ws w.db.toTables w'.db.toTables := by
  obtain rfl := Option.some.inj hstep
  exact (keepsBounded_handle h.bounded hnot hpromotes).leaves h.bounded a.2

theorem promoted_requestStep (hpromotes : Promotes ws w a.1)
    (hstep : requestStep env w a = some w') :
    ∃ memberId m, w.db.members.get? memberId = some m ∧ m.workspaceId = ws ∧
      m.role.elevated = false ∧ w'.db.toTables = w.db.toTables.setRole memberId .admin := by
  obtain rfl := Option.some.inj hstep
  obtain ⟨⟨userId, route⟩, supply⟩ := a
  obtain ⟨hactor, memberId, m, rfl, hm, hws, hrole⟩ := hpromotes
  exact ⟨memberId, m, hm, hws, hrole, leaves_promote hactor hm hws hrole supply⟩

theorem Closed.step (h : Closed ws w.db.toTables) (hnot : NotByOwner ws w a.1)
    (hstep : requestStep env w a = some w') : Closed ws w'.db.toTables := by
  by_cases hpromotes : Promotes ws w a.1
  · obtain ⟨memberId, m, -, -, -, ht⟩ := promoted_requestStep hpromotes hstep
    rw [ht]
    exact ⟨h.known, h.invited⟩
  · exact (bounded_requestStep h hnot hpromotes hstep).toClosed

/-- Everybody has one role in a workspace. -/
theorem not_elevated_of_role {userId memberId : Uuid} {m : WorkspaceMemberRow}
    (hm : w.db.members.get? memberId = some m) (hkey : m.key = (ws, userId))
    (hrole : m.role.elevated = false) : ¬ Elevated ws userId w.db.toTables := by
  rintro ⟨id, m', hm', hkey', helevated⟩
  obtain rfl : id = memberId :=
    w.db.wellFormed.memberKeys id memberId m' m hm' hm (hkey'.trans hkey.symm)
  obtain rfl := Option.some.inj (hm.symm.trans hm')
  rw [hrole] at helevated
  cases helevated

/-- One request makes nobody an admin or owner exactly when it promotes nobody. -/
theorem gainsNobody_iff (h : Closed ws w.db.toTables) (hnot : NotByOwner ws w a.1) :
    GainsNobody env ws w a ↔ ¬ Promotes ws w a.1 := by
  constructor
  · intro hgains hpromotes
    have hstep : requestStep env w a = some ((a.1.handle env).leaves answer a.2 w) := rfl
    obtain ⟨memberId, m, hm, hws, hrole, ht⟩ := promoted_requestStep hpromotes hstep
    have hkey : m.key = (ws, m.userId) := Prod.ext hws rfl
    apply not_elevated_of_role hm hkey hrole
    apply hgains _ rfl m.userId
    refine ⟨memberId, { m with role := .admin }, ?_, hkey, rfl⟩
    rw [ht, get?_setRole_self, hm, Option.map_some]
  · intro hpromotes w' hstep
    exact (bounded_requestStep h hnot hpromotes hstep).members

end Steps

/-- In a run of requests none of which is on the workspace by an owner of it,
starting with no invitation as an admin or owner, nobody becomes an admin or
owner who was neither exactly when no admin gives a member or viewer the role
admin. -/
theorem noEscalation_iff (env : Env) (workspaceId : Uuid) (w : World)
    (hknown : w.db.workspaces.contains workspaceId = true)
    (hinvited : NoneInvited workspaceId w.db.toTables) {as : List (Request × (Nat → Outside))}
    (hnot : AllSteps (requestStep env) (fun w a => NotByOwner workspaceId w a.1) w as) :
    AllSteps (requestStep env) (GainsNobody env workspaceId) w as ↔
      AllSteps (requestStep env) (fun w a => ¬ Promotes workspaceId w a.1) w as := by
  apply AllSteps.congr (I := fun w => Closed workspaceId w.db.toTables) _ _ ⟨hknown, hinvited⟩ hnot
  · intro w a w' h hnot hstep
    exact h.step hnot hstep
  · intro w a h hnot
    exact gainsNobody_iff h hnot

/-- The admin of `threeMembers` makes its member an admin. -/
def promotion : List (Request × (Nat → Outside)) :=
  [(⟨2, .updateMemberRole 1 13 .admin⟩, fun _ => atTime 0)]

theorem notByOwner_promotion :
    AllSteps (requestStep plainEnv) (fun w a => NotByOwner 1 w a.1) { db := threeMembers }
      promotion := by
  refine allSteps_cons.mpr ⟨?_, fun _ _ => allSteps_nil⟩
  rintro - ⟨id, m, hm, hkey, howner⟩
  have hadmin : WorkspaceMemberRepository.findMember threeMembers 1 2 =
    some ⟨12, { workspaceId := 1, userId := 2, role := .admin, joinedAt := 0 }⟩ := rfl
  cases hadmin.symm.trans (findMember_of_get? hm hkey)
  cases howner

theorem noneInvited_threeMembers : NoneInvited 1 threeMembers.toTables := by
  intro id i hi
  cases hi

theorem noEscalation_iff_promotion :
    AllSteps (requestStep plainEnv) (GainsNobody plainEnv 1) { db := threeMembers } promotion ↔
      AllSteps (requestStep plainEnv) (fun w a => ¬ Promotes 1 w a.1) { db := threeMembers }
        promotion :=
  noEscalation_iff plainEnv 1 { db := threeMembers } rfl noneInvited_threeMembers
    notByOwner_promotion

/-- Admins can make admins. -/
theorem promotion_escalates :
    ¬ ∀ (env : Env) (workspaceId : Uuid) (w : World),
      w.db.workspaces.contains workspaceId = true → NoneInvited workspaceId w.db.toTables →
        ∀ as, AllSteps (requestStep env) (fun w a => NotByOwner workspaceId w a.1) w as →
          AllSteps (requestStep env) (GainsNobody env workspaceId) w as := by
  intro hall
  have hgains := hall plainEnv 1 { db := threeMembers } rfl noneInvited_threeMembers promotion
    notByOwner_promotion
  have hafter := (allSteps_cons.mp hgains).1 _ rfl 3 ⟨13, _, rfl, rfl, rfl⟩
  have hmember : threeMembers.members.get? 13 =
    some { workspaceId := 1, userId := 3, role := .member, joinedAt := 0 } := rfl
  have hbefore : ¬ Elevated 1 3 threeMembers.toTables :=
    not_elevated_of_role (w := { db := threeMembers }) hmember rfl rfl
  exact hbefore hafter

end SyncBoard.Workspace
