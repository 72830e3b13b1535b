import SyncBoard.Workspace.LastOwner

/-!
# Owner gating under races

A request to change or remove a member reads the actor's membership twice, once
in the guard and once in the service, and the target's once. The service refuses
an admin who means an owner, and leaves it to the guard to refuse a lesser role.
The results compare who has the owner's part changed with what has happened to
the two memberships between the reads and the write.
-/

namespace SyncBoard.Workspace

open Relational Interleaved Interleaved.Program Labelled

/-- The routes that change or remove a member on behalf of an actor. -/
def Route.changesMember : Route → Bool
  | updateMemberRole _ _ _ | removeMember _ _ => true
  | _ => false

/-- The membership under an id is in the table, with some role. -/
def HasRole (t : Tables) (memberId : Uuid) (role : WorkspaceRole) : Prop :=
  ∃ m, t.members.get? memberId = some m ∧ m.role = role

/-- A write that changes or removes an owner's row, or makes an owner. -/
def Statement.ConcernsOwner (t : Tables) : Statement → Prop
  | updateRole memberId role => HasRole t memberId .owner ∨
      (role = .owner ∧ t.members.contains memberId = true)
  | removeMember memberId => HasRole t memberId .owner
  | _ => False

/-- The target's membership as the service read it, after the guard. -/
def readTarget : Log Answer → Option WorkspaceMember
  | _ :: ⟨.findMemberById _, member⟩ :: _ => member
  | _ => none

/-- The actor's membership as the service read it, after the target's. -/
def readActor : Log Answer → Option WorkspaceMember
  | _ :: _ :: ⟨.findMember _ _, actorMember⟩ :: _ => actorMember
  | _ => none

/-- Only an owner's request gets to a write that concerns an owner. -/
def OwnerGated (r : Request) (w : World) (log : Log Answer) (op : Statement) : Prop :=
  r.route.changesMember = true → op.ConcernsOwner w.db.toTables →
    ∃ actor, readActor log = some actor ∧ actor.row.role = .owner

/-- The actor's membership passes the check of the route. -/
def PassesGate (actor : WorkspaceMember) : Prop :=
  rbacAllows workspaceAdminRoles actor.row.role = true

/-- The target's role is the one that was read. -/
def TargetStands (t : Tables) (log : Log Answer) : Prop :=
  ∃ target, readTarget log = some target ∧ HasRole t target.id target.row.role

/-- Where a write concerns an owner, the actor's membership has still passed the
check of the route when the service read it; and if it is an admin's, the target
has kept its role since. -/
def GateStands (r : Request) (w : World) (log : Log Answer) (op : Statement) : Prop :=
  r.route.changesMember = true → op.ConcernsOwner w.db.toTables →
    ∃ actor, readActor log = some actor ∧ PassesGate actor ∧
      (actor.row.role = .admin → TargetStands w.db.toTables log)

/-- What the reads of the service tell when it writes: an admin's target was no
owner, and an admin makes no owner. -/
def Checked (log : Log Answer) : Statement → Prop
  | .updateRole memberId role => ∃ target, readTarget log = some target ∧ target.id = memberId ∧
      (MembershipService.hasRole (readActor log) .admin = true →
        target.row.role ≠ .owner ∧ role ≠ .owner)
  | .removeMember memberId => ∃ target, readTarget log = some target ∧ target.id = memberId ∧
      (MembershipService.hasRole (readActor log) .admin = true → target.row.role ≠ .owner)
  | _ => True

theorem hasRole_some {actor : WorkspaceMember} {role : WorkspaceRole} :
    MembershipService.hasRole (some actor) role = true ↔ actor.row.role = role := by
  simp [MembershipService.hasRole]

/-- An admin who has been checked does not get to an owner whose role stands. -/
theorem Checked.not_admin {t : Tables} {log : Log Answer} {op : Statement}
    (h : Checked log op) (hconcerns : op.ConcernsOwner t) (hstands : TargetStands t log) :
    ¬ MembershipService.hasRole (readActor log) .admin = true := by
  intro hadmin
  obtain ⟨target, htarget, m, hm, hrole⟩ := hstands
  cases op with
  | updateRole memberId role =>
      obtain ⟨target', htarget', rfl, hchecked⟩ := h
      obtain rfl := Option.some.inj (htarget.symm.trans htarget')
      obtain ⟨hno, hnew⟩ := hchecked hadmin
      rcases hconcerns with ⟨m', hm', howner⟩ | ⟨howner, -⟩
      · obtain rfl := Option.some.inj (hm.symm.trans hm')
        exact hno (hrole.symm.trans howner)
      · exact hnew howner
  | removeMember memberId =>
      obtain ⟨target', htarget', rfl, hchecked⟩ := h
      obtain rfl := Option.some.inj (htarget.symm.trans htarget')
      obtain ⟨m', hm', howner⟩ := hconcerns
      obtain rfl := Option.some.inj (hm.symm.trans hm')
      exact hchecked hadmin (hrole.symm.trans howner)
  | _ => cases hconcerns

/-- A checked write is an owner's exactly when the gate stands. -/
theorem ownerGated_iff {r : Request} {w : World} {log : Log Answer} {op : Statement}
    (h : r.route.changesMember = true → Checked log op) :
    OwnerGated r w log op ↔ GateStands r w log op := by
  constructor
  · intro hgated hroute hconcerns
    obtain ⟨actor, hactor, howner⟩ := hgated hroute hconcerns
    refine ⟨actor, hactor, rbacAllows_admin_iff.mpr (.inl howner), fun hadmin => ?_⟩
    cases hadmin.symm.trans howner
  · intro hstands hroute hconcerns
    obtain ⟨actor, hactor, hpasses, htarget⟩ := hstands hroute hconcerns
    rcases rbacAllows_admin_iff.mp hpasses with howner | hadmin
    · exact ⟨actor, hactor, howner⟩
    · have hnot := (h hroute).not_admin hconcerns (htarget hadmin)
      rw [hactor, hasRole_some] at hnot
      exact absurd hadmin hnot

theorem checked_of_replaces {log : Log Answer} {op : Statement} (h : Replaces op) :
    Checked log op := by
  cases op <;> trivial

section Requests
variable {ws memberId userId : Uuid} {w : World} {log : Log Answer}

/-- A program of which each write is checked, whatever the others do. -/
abbrev Checks {α : Type} (p : Service α) (log : Log Answer) (w : World)
    (post : α → Log Answer → World → Prop) : Prop :=
  p.Safe answer (fun _ _ => True) (fun _ => True) (fun _ log op => Checked log op) log w post

theorem checks_findMemberIn {post : WorkspaceMember → Log Answer → World → Prop}
    (h : ∀ member w', member.id = memberId →
      post member (log ++ [⟨.findMemberById memberId, some member⟩]) w') :
    Checks (MembershipService.findMemberIn ws memberId) log w post := by
  refine safe_ask_bind.mpr fun w' _ _ => ⟨trivial, fun x => safe_demand.mpr fun member hmember => ?_⟩
  obtain ⟨hread, -⟩ := Option.filter_eq_some_iff.mp hmember
  have hid : member.id = memberId := by
    obtain ⟨m, -, rfl⟩ := Option.map_eq_some_iff.mp hread
    rfl
  exact hread ▸ h member w' hid

theorem checks_workspaceAuth {roles : List WorkspaceRole}
    {post : Unit → Log Answer → World → Prop}
    (h : ∀ member w', post () (log ++ [⟨.findMember ws userId, member⟩]) w') :
    Checks (workspaceAuth roles ws userId) log w post :=
  safe_ask_bind.mpr fun w' _ _ => ⟨trivial, fun _ =>
    safe_demand_bind.mpr fun _ _ => safe_refuseIf.mpr fun _ => h _ w'⟩

/-- The statements of `replaceOwner` need no check; the log that is left starts
with what has been read before. -/
theorem checks_replaceOwner {stepsDown : Bool} {soleOwner : AppError}
    {post : Unit → Log Answer → World → Prop} (h : ∀ rest w', post () (log ++ rest) w') :
    Checks (MembershipService.replaceOwner stepsDown ws userId soleOwner) log w post := by
  refine Safe.of_only (fun _ _ _ hop => checked_of_replaces hop) only_replaceOwner ?_
  rintro _ _ w' ⟨rest, rfl⟩
  exact h rest w'

/-- What follows the write of a call asks nothing that needs a check. -/
theorem checks_emit {event : WorkspaceEvent} {post : Unit → Log Answer → World → Prop}
    (h : ∀ log' w', post () log' w') : Checks (emit event) log w post :=
  fun _ _ _ => ⟨trivial, fun _ => h _ _⟩

theorem checks_updateMemberRole {role : WorkspaceRole} {guard : Σ op, Answer op} :
    Checks (MembershipService.updateMemberRole ws memberId role (some userId)) [guard] w
      fun _ _ _ => True := by
  refine safe_bind.mpr (checks_findMemberIn fun member w₁ hid => ?_)
  refine safe_bind.mpr (safe_ask_bind.mpr fun w₂ _ _ => ⟨trivial, fun x₂ => ?_⟩)
  refine safe_refuseIf_bind.mpr fun howner => safe_refuseIf.mpr fun hnew => ?_
  refine safe_bind.mpr (checks_replaceOwner fun rest w₃ => ?_)
  refine safe_bind.mpr (safe_ask_bind.mpr fun w₄ _ _ => ⟨⟨member, rfl, hid, fun hadmin => ?_⟩,
    fun x₄ => safe_orThrow.mpr fun _ _ => ?_⟩)
  · have hread : MembershipService.hasRole (answer x₂ (.findMember ws userId) w₂).1 .admin = true :=
      hadmin
    simp only [hread, Bool.true_and, beq_eq_false_iff_ne] at howner hnew
    exact ⟨howner, hnew⟩
  · exact safe_bind.mpr (checks_emit fun _ _ => trivial)

theorem checks_removeMember {guard : Σ op, Answer op} :
    Checks (MembershipService.removeMember ws memberId (some userId)) [guard] w
      fun _ _ _ => True := by
  refine safe_bind.mpr (checks_findMemberIn fun member w₁ hid => ?_)
  refine safe_bind.mpr (safe_ask_bind.mpr fun w₂ _ _ => ⟨trivial, fun x₂ => ?_⟩)
  refine safe_refuseIf.mpr fun howner => ?_
  refine safe_bind.mpr (checks_replaceOwner fun rest w₃ => ?_)
  refine safe_bind.mpr (safe_ask_bind.mpr fun w₄ _ _ => ⟨⟨member, rfl, hid, fun hadmin => ?_⟩,
    fun x₄ => safe_orThrow.mpr fun _ _ => ?_⟩)
  · have hread : MembershipService.hasRole (answer x₂ (.findMember ws userId) w₂).1 .admin = true :=
      hadmin
    simp only [hread, Bool.true_and, beq_eq_false_iff_ne] at howner
    exact howner
  · exact checks_emit fun _ _ => trivial

end Requests

/-- The writes of the requests that change or remove a member are checked. -/
def gateDiscipline (env : Env) : Discipline answer (Request.handle env) where
  later _ _ := True
  inv _ := True
  allowed r _ log op := r.route.changesMember = true → Checked log op
  post _ _ := True
  later_refl _ := trivial
  later_trans _ _ _ _ _ := trivial
  post_later _ _ _ _ _ := trivial
  kept _ _ _ _ _ _ _ := ⟨trivial, trivial⟩
  safe r w _ := by
    by_cases hroute : r.route.changesMember = true
    · suffices h : Checks (r.handle env) [] w fun _ _ _ => True from
        h.mono fun _ _ _ hchecked _ => hchecked
      obtain ⟨userId, route⟩ := r
      cases route with
      | updateMemberRole workspaceId memberId role =>
          refine safe_bind.mpr (checks_workspaceAuth fun member w' => ?_)
          exact safe_bind.mpr (checks_updateMemberRole.imp fun _ _ _ _ => trivial)
      | removeMember workspaceId memberId =>
          exact safe_bind.mpr (checks_workspaceAuth fun member w' => checks_removeMember)
      | _ => cases hroute
    · exact Safe.of_only (fun _ _ _ _ h => absurd h hroute) (Only.any _) fun _ _ _ _ => trivial

/-- The state of the workspaces under requests that interleave. -/
abbrev RequestPool := Pool Statement Answer AppError Request World

/-- In a run of requests that interleave at their statements, no write that
concerns an owner is made for anybody but an owner exactly when at each of them
the gate stands. -/
theorem ownersGated_iff (env : Env) (w : World) {as : List (Move Request Outside)} :
    AllSteps (Pool.step answer (Request.handle env))
        (Pool.OnStatement fun r _ w log op => OwnerGated r w log op)
        ({ store := w } : RequestPool) as ↔
      AllSteps (Pool.step answer (Request.handle env))
        (Pool.OnStatement fun r _ w log op => GateStands r w log op)
        ({ store := w } : RequestPool) as := by
  apply AllSteps.congr (I := Disciplined (gateDiscipline env)) (H := fun _ _ => True)
  · intro p m p' hp _ hstep
    exact hp.step hstep
  · intro p m hp _
    cases m with
    | start r => exact Iff.rfl
    | resume i x =>
        refine forall_congr' fun task => forall_congr' fun op => forall_congr' fun next => ?_
        exact forall_congr' fun hasks => ownerGated_iff (hp.allowed hasks)
  · exact Disciplined.initial trivial
  · intro bs a t _ _
    trivial

/-- Workspace 1 with its owner 1, its admin 2 and its member 3. -/
def threeMembers : Database where
  users := ⟨[(1, { email := js "a@b.io", displayName := js "A" }),
    (2, { email := js "b@b.io", displayName := js "B" }),
    (3, { email := js "c@b.io", displayName := js "C" })], by decide⟩
  workspaces := .single 1 { name := js "W", slug := js "w", ownerId := 1 }
  members := ⟨[(11, { workspaceId := 1, userId := 1, role := .owner, joinedAt := 0 }),
    (12, { workspaceId := 1, userId := 2, role := .admin, joinedAt := 0 }),
    (13, { workspaceId := 1, userId := 3, role := .member, joinedAt := 0 })], by decide⟩
  wellFormed :=
    { emails := Table.Unique.of_rows (by decide)
      workspaces := Table.All.of_rows (by decide)
      slugs := Table.Unique.of_rows (by decide)
      members := Table.All.of_rows (by decide)
      memberKeys := Table.Unique.of_rows (by decide)
      invitations := Table.All.of_rows (by decide)
      tokens := Table.Unique.of_rows (by decide) }

/-- The admin's request to make the member an owner passes the guard; the owner
removes the admin; then the service reads no actor and refuses nothing. -/
def removedInBetween : List (Move Request Outside) :=
  [.start ⟨2, .updateMemberRole 1 13 .owner⟩, .resume 0 (atTime 0),
    .start ⟨1, .removeMember 1 12⟩] ++
    List.replicate 5 (.resume 1 (atTime 0)) ++ List.replicate 2 (.resume 0 (atTime 0))

/-- An admin who is removed in the meantime makes an owner. -/
theorem removedInBetween_escapes :
    ¬ ∀ (env : Env) (w : World) (as : List (Move Request Outside)),
      AllSteps (Pool.step answer (Request.handle env))
        (Pool.OnStatement fun r _ w log op => OwnerGated r w log op)
        ({ store := w } : RequestPool) as := by
  intro hall
  obtain ⟨p, hp⟩ : ∃ p : RequestPool, exec (Pool.step answer (Request.handle plainEnv))
      { store := { db := threeMembers } } removedInBetween = some p := ⟨_, rfl⟩
  have hgated := hall plainEnv { db := threeMembers } (removedInBetween ++ [.resume 0 (atTime 0)])
    removedInBetween (.resume 0 (atTime 0)) p (List.prefix_refl _) (run_of_exec hp)
  cases hp
  obtain ⟨actor, hactor, -⟩ := hgated _ _ _ ⟨rfl, rfl⟩ rfl (.inr ⟨rfl, rfl⟩)
  cases hactor

end SyncBoard.Workspace
