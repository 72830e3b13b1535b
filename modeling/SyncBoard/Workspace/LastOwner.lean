import SyncBoard.Workspace.CallRules

/-!
# The last owner of a workspace

The calls of `MembershipService` count the owners before one of them steps down,
and write later. The results compare what happens to the last owner in a pool of
such calls with what is the case when the writes are made.

## Implementation notes

A transfer names two memberships by id. `membershipDiscipline` is what its write
rests on: no call inserts a membership or moves one, so both are still in the
workspace, or gone.
-/

namespace SyncBoard.Workspace

open Relational Interleaved Interleaved.Program Labelled

/-- Some member of the workspace is an owner. -/
def HasOwner (workspaceId : Uuid) (t : Tables) : Prop :=
  ∃ id m, t.members.get? id = some m ∧
    WorkspaceMemberRepository.ownerOf workspaceId m = true

/-- The membership under an id is that of an owner of the workspace. -/
def IsOwner (workspaceId memberId : Uuid) (t : Tables) : Prop :=
  ∃ m, t.members.get? memberId = some m ∧
    WorkspaceMemberRepository.ownerOf workspaceId m = true

/-- Another member of the workspace than the one under an id is an owner. -/
def HasOtherOwner (workspaceId memberId : Uuid) (t : Tables) : Prop :=
  ∃ id m, id ≠ memberId ∧ t.members.get? id = some m ∧
    WorkspaceMemberRepository.ownerOf workspaceId m = true

/-- Where a write takes an owner from the workspace, more than one is counted. -/
def SparesLastOwner (workspaceId : Uuid) (t : Tables) : Statement → Prop
  | .updateRole memberId role => role ≠ .owner → IsOwner workspaceId memberId t →
      1 < t.members.count fun _ m => WorkspaceMemberRepository.ownerOf workspaceId m
  | .removeMember memberId => IsOwner workspaceId memberId t →
      1 < t.members.count fun _ m => WorkspaceMemberRepository.ownerOf workspaceId m
  | _ => True

section Owners
variable {ws id : Uuid} {t t' : Tables}

/-- Counting more than one owner makes sure of another one. -/
theorem hasOtherOwner_iff (h : HasOwner ws t) :
    HasOtherOwner ws id t ↔ (IsOwner ws id t →
      1 < t.members.count fun _ m => WorkspaceMemberRepository.ownerOf ws m) := by
  constructor
  · rintro hother ⟨m, hm, howner⟩
    exact (Table.one_lt_count_iff hm howner).mpr hother
  · intro hcount
    obtain ⟨j, m, hm, howner⟩ := h
    by_cases hj : j = id
    · subst hj
      exact (Table.one_lt_count_iff hm howner).mp (hcount ⟨m, hm, howner⟩)
    · exact ⟨j, m, hj, hm, howner⟩

/-- A write to one membership after which it is not an owner's leaves the others. -/
theorem hasOwner_of_demoted (hdemoted : ¬ IsOwner ws id t')
    (hframe : ∀ j, j ≠ id → t'.members.get? j = t.members.get? j) :
    HasOwner ws t' ↔ HasOtherOwner ws id t := by
  constructor
  · rintro ⟨j, m, hm, howner⟩
    have hj : j ≠ id := by
      rintro rfl
      exact hdemoted ⟨m, hm, howner⟩
    exact ⟨j, m, hj, hframe j hj ▸ hm, howner⟩
  · rintro ⟨j, m, hj, hm, howner⟩
    exact ⟨j, m, (hframe j hj).trans hm, howner⟩

theorem get?_setRole_ne {role : WorkspaceRole} {j : Uuid} (hj : j ≠ id) :
    (t.setRole id role).members.get? j = t.members.get? j := by
  rw [Tables.setRole, Table.get?_modify, if_neg hj]

theorem get?_setRole_self {role : WorkspaceRole} :
    (t.setRole id role).members.get? id =
      (t.members.get? id).map fun m => { m with role := role } :=
  Table.get?_modify_self t.members id _

theorem not_isOwner_setRole {role : WorkspaceRole} (hrole : role ≠ .owner) :
    ¬ IsOwner ws id (t.setRole id role) := by
  rintro ⟨m, hm, howner⟩
  rw [get?_setRole_self] at hm
  obtain ⟨m', -, rfl⟩ := Option.map_eq_some_iff.mp hm
  simp [WorkspaceMemberRepository.ownerOf, hrole] at howner

/-- Who is made an owner leaves the owners there are. -/
theorem HasOwner.promote (h : HasOwner ws t) : HasOwner ws (t.setRole id .owner) := by
  obtain ⟨j, m, hm, howner⟩ := h
  by_cases hj : j = id
  · subst hj
    refine ⟨j, { m with role := .owner }, ?_, ?_⟩
    · rw [get?_setRole_self, hm, Option.map_some]
    · simp only [WorkspaceMemberRepository.ownerOf, Bool.and_eq_true] at howner ⊢
      exact ⟨howner.1, rfl⟩
  · exact ⟨j, m, (get?_setRole_ne hj).trans hm, howner⟩

theorem hasOwner_setRole (h : HasOwner ws t) {role : WorkspaceRole} :
    HasOwner ws (t.setRole id role) ↔ SparesLastOwner ws t (.updateRole id role) := by
  by_cases hrole : role = .owner
  · subst hrole
    exact iff_of_true h.promote fun hne => absurd rfl hne
  · rw [hasOwner_of_demoted (not_isOwner_setRole hrole) fun j hj => get?_setRole_ne hj,
      hasOtherOwner_iff h]
    exact ⟨fun hcount _ => hcount, fun hcount => hcount hrole⟩

theorem hasOwner_delete (h : HasOwner ws t) :
    HasOwner ws { t with members := t.members.delete id } ↔
      SparesLastOwner ws t (.removeMember id) := by
  have hdemoted : ¬ IsOwner ws id { t with members := t.members.delete id } := by
    rintro ⟨m, hm, -⟩
    rw [Table.get?_delete, if_pos rfl] at hm
    cases hm
  have hframe : ∀ j, j ≠ id → (t.members.delete id).get? j = t.members.get? j := by
    intro j hj
    rw [Table.get?_delete, if_neg hj]
  exact (hasOwner_of_demoted hdemoted hframe).trans (hasOtherOwner_iff h)

end Owners

/-- The two memberships of a transfer are in its workspace, or gone; no
membership is inserted. -/
def MembersStay (t : Tables) : Statement → Prop
  | .createWorkspaceWithOwner _ | .accept _ _ => False
  | .transfer currentId targetId workspaceId _ =>
      (∀ m, t.members.get? currentId = some m → m.workspaceId = workspaceId) ∧
        ∀ m, t.members.get? targetId = some m → m.workspaceId = workspaceId
  | _ => True

/-- Neither the workspace nor the user of a membership changes, and none is new. -/
def FewerMembers (s t : Tables) : Prop :=
  ∀ id m, t.members.get? id = some m → ∃ m', s.members.get? id = some m' ∧ m'.key = m.key

theorem FewerMembers.refl (t : Tables) : FewerMembers t t :=
  fun _ m hm => ⟨m, hm, rfl⟩

theorem FewerMembers.trans {r s t : Tables} (h : FewerMembers r s) (h' : FewerMembers s t) :
    FewerMembers r t := by
  intro id m hm
  obtain ⟨m', hm', hkey'⟩ := h' id m hm
  obtain ⟨m'', hm'', hkey''⟩ := h id m' hm'
  exact ⟨m'', hm'', hkey''.trans hkey'⟩

theorem FewerMembers.setRole (t : Tables) (id : Uuid) (role : WorkspaceRole) :
    FewerMembers t (t.setRole id role) := by
  intro j m hm
  rw [Tables.setRole, Table.get?_modify] at hm
  split at hm
  · obtain ⟨m', hm', rfl⟩ := Option.map_eq_some_iff.mp hm
    exact ⟨m', hm', rfl⟩
  · exact ⟨m, hm, rfl⟩

theorem FewerMembers.delete (t : Tables) (id : Uuid) :
    FewerMembers t { t with members := t.members.delete id } := by
  intro j m hm
  have hm' := hm
  rw [Table.get?_delete] at hm'
  split at hm'
  · cases hm'
  · exact ⟨m, hm', rfl⟩

section Steps
variable {ws : Uuid} {x : Outside} {t t' : Tables} {op : Statement}

theorem fewerMembers_effect (heff : Effect x t op t') (hop : MembersStay t op) :
    FewerMembers t t' := by
  cases heff with
  | createWorkspaceWithOwner | accept => cases hop
  | updateRole => exact .setRole _ _ _
  | removeMember => exact .delete _ _
  | transfer => exact (FewerMembers.setRole _ _ _).trans (.setRole _ _ _)
  | _ => exact .refl t

/-- A statement leaves the workspace an owner exactly when it spares the last one. -/
theorem hasOwner_effect (heff : Effect x t op t') (hop : MembersStay t op)
    (h : HasOwner ws t) : HasOwner ws t' ↔ SparesLastOwner ws t op := by
  cases heff with
  | unchanged happlies =>
      refine iff_of_true h ?_
      cases op with
      | updateRole memberId role =>
          rintro - ⟨m, hm, -⟩
          exact absurd ((Table.contains_iff _ _).mpr ⟨m, hm⟩) happlies
      | removeMember memberId =>
          rintro ⟨m, hm, -⟩
          exact absurd ((Table.contains_iff _ _).mpr ⟨m, hm⟩) happlies
      | _ => trivial
  | createWorkspaceWithOwner | accept => cases hop
  | updateRole => exact hasOwner_setRole h
  | removeMember => exact hasOwner_delete h
  | @transfer currentId targetId workspaceId newOwnerUserId current target hcurrent htarget =>
      refine iff_of_true ?_ trivial
      by_cases hws : workspaceId = ws
      · -- the target is an owner of this workspace now
        obtain ⟨m', hm', hkey⟩ : ∃ m', (t.setRole currentId .admin).members.get? targetId =
            some m' ∧ m'.workspaceId = ws := by
          by_cases hsame : targetId = currentId
          · subst hsame
            rw [get?_setRole_self, htarget]
            exact ⟨_, rfl, (hop.2 target htarget).trans hws⟩
          · rw [get?_setRole_ne hsame]
            exact ⟨target, htarget, (hop.2 target htarget).trans hws⟩
        refine ⟨targetId, { m' with role := .owner }, ?_, ?_⟩
        · exact (get?_setRole_self (t := t.setRole currentId .admin)).trans (by rw [hm']; rfl)
        · simp [WorkspaceMemberRepository.ownerOf, hkey]
      · -- both memberships are in another workspace
        obtain ⟨j, m, hm, howner⟩ := h
        have hmws : m.workspaceId = ws := by
          simp only [WorkspaceMemberRepository.ownerOf, Bool.and_eq_true, beq_iff_eq] at howner
          exact howner.1
        have hj : j ≠ currentId := by
          rintro rfl
          exact hws ((hop.1 m hm).symm.trans hmws)
        have hj' : j ≠ targetId := by
          rintro rfl
          exact hws ((hop.2 m hm).symm.trans hmws)
        exact ⟨j, m, (get?_setRole_ne hj').trans ((get?_setRole_ne hj).trans hm), howner⟩
  | _ => exact iff_of_true h trivial

end Steps

/-- A statement that is no transfer and inserts no membership. -/
def Plain : Statement → Prop
  | .createWorkspaceWithOwner _ | .accept _ _ | .transfer _ _ _ _ => False
  | _ => True

theorem StepsDown.plain (op : Statement) (h : StepsDown op) : Plain op := by
  cases op <;> trivial

theorem ChangesRole.plain (op : Statement) (h : ChangesRole op) : Plain op := by
  cases op <;> trivial

theorem MembersStay.of_plain {t : Tables} {op : Statement} (h : Plain op) : MembersStay t op := by
  cases op <;> trivial

/-- A membership that was in the workspace is in it, or gone. -/
theorem FewerMembers.stays {s t : Tables} (h : FewerMembers s t) {ws id : Uuid}
    {m : WorkspaceMemberRow} (hm : s.members.get? id = some m) (hws : m.workspaceId = ws) :
    ∀ m', t.members.get? id = some m' → m'.workspaceId = ws := by
  intro m' hm'
  obtain ⟨m'', hm'', hkey⟩ := h id m' hm'
  obtain rfl := Option.some.inj (hm.symm.trans hm'')
  exact (congrArg Prod.fst hkey).symm.trans hws

theorem safe_transferOwnership {ws currentOwnerId newOwnerUserId : Uuid} {w : World} :
    (MembershipService.transferOwnership ws currentOwnerId newOwnerUserId).Safe answer
      (fun s t => FewerMembers s.db.toTables t.db.toTables) (fun _ => True)
      (fun t _ op => MembersStay t.db.toTables op) [] w fun _ _ _ => True := by
  refine safe_ask_bind.mpr fun w₁ _ _ => ⟨trivial, fun x₁ => ?_⟩
  refine safe_demand_bind.mpr fun current hcurrent => ?_
  obtain ⟨hcurrent, -⟩ := Option.filter_eq_some_iff.mp hcurrent
  obtain ⟨hget, hws, -⟩ := get?_of_findMember hcurrent
  refine safe_ask_bind.mpr fun w₂ h₂ _ => ⟨trivial, fun x₂ => ?_⟩
  refine safe_demand_bind.mpr fun target htarget => ?_
  obtain ⟨hget', hws', -⟩ := get?_of_findMember htarget
  refine safe_bind.mpr (safe_ask_bind.mpr fun w₃ h₃ _ => ?_)
  refine ⟨⟨(FewerMembers.trans h₂ h₃).stays hget hws, FewerMembers.stays h₃ hget' hws'⟩,
    fun x₃ => ?_⟩
  refine safe_bind.mp ?_
  exact Safe.of_only (fun _ _ op (hop : Plain op) => .of_plain hop)
    ((only_written _).bind fun _ => (Only.ask trivial).bind fun _ => Only.pure _)
    fun _ _ _ _ => trivial

/-- What the calls of `MembershipService` rely on: the memberships get fewer. -/
def membershipDiscipline : Discipline answer MembershipCall.run where
  later s t := FewerMembers s.db.toTables t.db.toTables
  inv _ := True
  allowed _ w _ op := MembersStay w.db.toTables op
  post _ _ := True
  later_refl w := .refl _
  later_trans _ _ _ := .trans
  post_later _ _ _ _ _ := trivial
  kept _ x op _ w _ hop := ⟨fewerMembers_effect (effect_answer x op w) hop, trivial⟩
  safe c w _ := by
    have hplain : ∀ (t : World) (_ : Log Answer) op, Plain op → MembersStay t.db.toTables op :=
      fun _ _ _ hop => .of_plain hop
    cases c with
    | updateMemberRole workspaceId memberId role actorId =>
        exact Safe.of_only hplain (only_ignoreResult (only_updateMemberRole.imp ChangesRole.plain))
          fun _ _ _ _ => trivial
    | removeMember workspaceId memberId actorId =>
        exact Safe.of_only hplain (only_removeMember.imp StepsDown.plain) fun _ _ _ _ => trivial
    | leaveWorkspace workspaceId userId =>
        exact Safe.of_only hplain (only_leaveWorkspace.imp StepsDown.plain) fun _ _ _ _ => trivial
    | transferOwnership workspaceId currentOwnerId newOwnerUserId =>
        refine safe_bind.mpr (safe_transferOwnership.imp fun _ _ _ _ => trivial)

/-- The state of a workspace whose memberships change in calls that interleave. -/
abbrev MembershipPool := Pool Statement Answer AppError MembershipCall World

/-- A workspace with an owner has one in every state of a run, whatever the
interleaving, exactly when each write that takes an owner from it still counts
another one. -/
theorem keepsOwner_iff (workspaceId : Uuid) (w : World)
    (howner : HasOwner workspaceId w.db.toTables) {as : List (Move MembershipCall Outside)}
    {p : MembershipPool}
    (run : Run (Pool.step answer MembershipCall.run) { store := w } as p) :
    AllStates (Pool.step answer MembershipCall.run)
        (fun p => HasOwner workspaceId p.store.db.toTables) { store := w } as ↔
      AllSteps (Pool.step answer MembershipCall.run)
        (Pool.OnStatement fun _ _ w _ op => SparesLastOwner workspaceId w.db.toTables op)
        { store := w } as := by
  apply allStates_iff_allSteps (I := Disciplined membershipDiscipline) _ _ run
    (Disciplined.initial trivial) howner
  · intro p m p' hp hstep
    exact hp.step hstep
  · intro p m p' hp howner hstep
    cases m with
    | start call =>
        obtain rfl := Pool.step_start.mp hstep
        exact iff_of_true howner trivial
    | resume i x =>
        obtain ⟨task, op, next, hasks, rfl⟩ := Pool.step_resume.mp hstep
        rw [Pool.onStatement_of_asks hasks]
        exact hasOwner_effect (effect_answer x op p.store) (hp.allowed hasks) howner

/-- Workspace 1 with its owners 1 and 2. -/
def twoOwners : Database where
  users := ⟨[(1, { email := js "a@b.io", displayName := js "A" }),
    (2, { email := js "b@b.io", displayName := js "Bo" })], by decide⟩
  workspaces := .single 1 { name := js "W", slug := js "w", ownerId := 1 }
  members := ⟨[(11, { workspaceId := 1, userId := 1, role := .owner, joinedAt := 0 }),
    (12, { workspaceId := 1, userId := 2, role := .owner, joinedAt := 0 })], by decide⟩
  wellFormed :=
    { emails := Table.Unique.of_rows (by decide)
      workspaces := Table.All.of_rows (by decide)
      slugs := Table.Unique.of_rows (by decide)
      members := Table.All.of_rows (by decide)
      memberKeys := Table.Unique.of_rows (by decide)
      invitations := Table.All.of_rows (by decide)
      tokens := Table.Unique.of_rows (by decide) }

theorem hasOwner_twoOwners : HasOwner 1 twoOwners.toTables :=
  ⟨11, _, rfl, rfl⟩

/-- Both owners leave, and each counts the other one before either row is deleted. -/
def bothLeave : List (Move MembershipCall Outside) :=
  [.start (.leaveWorkspace 1 1), .start (.leaveWorkspace 1 2)] ++
    List.replicate 3 (.resume 1 (atTime 0)) ++ List.replicate 6 (.resume 0 (atTime 0)) ++
    [.resume 1 (atTime 0)]

theorem keepsOwner_iff_bothLeave :
    AllStates (Pool.step answer MembershipCall.run)
        (fun p => HasOwner 1 p.store.db.toTables) { store := { db := twoOwners } } bothLeave ↔
      AllSteps (Pool.step answer MembershipCall.run)
        (Pool.OnStatement fun _ _ w _ op => SparesLastOwner 1 w.db.toTables op)
        { store := { db := twoOwners } } bothLeave :=
  keepsOwner_iff 1 { db := twoOwners } hasOwner_twoOwners (run_of_exec rfl)

/-- The last owner can be lost. -/
theorem bothLeave_loses_owner :
    ¬ ∀ (workspaceId : Uuid) (w : World), HasOwner workspaceId w.db.toTables →
      ∀ (as : List (Move MembershipCall Outside)) (p : MembershipPool),
        Run (Pool.step answer MembershipCall.run) { store := w } as p →
          HasOwner workspaceId p.store.db.toTables := by
  intro hall
  obtain ⟨p, hp⟩ : ∃ p : MembershipPool, exec (Pool.step answer MembershipCall.run)
      { store := { db := twoOwners } } bothLeave = some p := ⟨_, rfl⟩
  obtain ⟨id, m, hm, -⟩ := hall 1 { db := twoOwners } hasOwner_twoOwners bothLeave p
    (run_of_exec hp)
  have hempty : p.store.db.members.rows = [] := by
    cases hp
    rfl
  have hmem := (p.store.db.members.mem_rows_iff id m).mpr hm
  rw [hempty] at hmem
  cases hmem

end SyncBoard.Workspace
