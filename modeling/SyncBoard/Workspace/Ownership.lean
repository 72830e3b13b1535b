import SyncBoard.Workspace.CallRules

/-!
# `ownerId` and the owners' memberships

`ownerId` of a workspace and the role of a membership say the same thing twice.
`Coherent` is their agreement. Every statement that the calls ask keeps it, so it
also holds in the middle of a call; the reads in front of a statement are what
makes sure of it.
-/

namespace SyncBoard.Workspace

open Relational Interleaved Interleaved.Program Labelled

/-- A user has one membership in a workspace, and the `ownerId` of a workspace that
is not archived is a member of it whose role is owner. -/
structure Coherent (t : Tables) : Prop where
  unique : t.members.Unique WorkspaceMemberRow.key
  owned : t.workspaces.All fun id workspace => workspace.archivedAt = none →
    Holds (· = .owner) id workspace.ownerId t

/-- The membership is the one behind the `ownerId` of a workspace that is not
archived. -/
def Represents (t : Tables) (memberId : Uuid) : Prop :=
  ∃ m workspace, t.members.get? memberId = some m ∧
    t.workspaces.get? m.workspaceId = some workspace ∧ workspace.archivedAt = none ∧
    workspace.ownerId = m.userId

/-- The statement leaves no `ownerId` without its owner. -/
def KeepsOwners (t : Tables) : Statement → Prop
  | .updateRole memberId role => role = .owner ∨ ¬ Represents t memberId
  | .removeMember memberId => ¬ Represents t memberId
  | .updateOwner id ownerId => Holds (· = .owner) id ownerId t
  | .transfer currentId targetId workspaceId newOwnerUserId =>
      (∀ m, t.members.get? currentId = some m → m.workspaceId = workspaceId) ∧
        ∀ m, t.members.get? targetId = some m → m.key = (workspaceId, newOwnerUserId)
  | _ => True

section Statements
variable {x : Outside} {t t' : Tables} {op : Statement}

theorem Holds.mono {p : WorkspaceRole → Prop} {ws userId : Uuid} (h : Holds p ws userId t)
    (hsub : ∀ id m, t.members.get? id = some m → m.key = (ws, userId) → p m.role →
      ∃ m', t'.members.get? id = some m' ∧ m'.key = m.key ∧ p m'.role) :
    Holds p ws userId t' := by
  obtain ⟨id, m, hm, hkey, hrole⟩ := h
  obtain ⟨m', hm', hkey', hrole'⟩ := hsub id m hm hkey hrole
  exact ⟨id, m', hm', hkey'.trans hkey, hrole'⟩

/-- Only the one membership that represents the workspace matters to it. -/
theorem Coherent.not_represents (h : Coherent t) {id : Uuid} {m : WorkspaceMemberRow}
    (hm : t.members.get? id = some m) (hrole : m.role ≠ .owner) : ¬ Represents t id := by
  rintro ⟨m', workspace, hm', hworkspace, hactive, howner⟩
  obtain rfl := Option.some.inj (hm.symm.trans hm')
  obtain ⟨j, q, hq, hkey, hqrole⟩ := h.owned _ workspace hworkspace hactive
  obtain rfl : j = id := h.unique j id q m hq hm (hkey.trans (by rw [howner]; rfl))
  obtain rfl := Option.some.inj (hm.symm.trans hq)
  exact hrole hqrole

theorem Coherent.setMembers (h : Coherent t) {members : Table Uuid WorkspaceMemberRow}
    (hunique : members.Unique WorkspaceMemberRow.key)
    (howned : ∀ id workspace, t.workspaces.get? id = some workspace →
      workspace.archivedAt = none → ∀ memberId m, t.members.get? memberId = some m →
        m.key = (id, workspace.ownerId) → m.role = .owner →
          ∃ m', members.get? memberId = some m' ∧ m'.key = m.key ∧ m'.role = .owner) :
    Coherent { t with members := members } where
  unique := hunique
  owned := by
    intro id workspace hworkspace hactive
    exact (h.owned id workspace hworkspace hactive).mono (howned id workspace hworkspace hactive)

theorem Coherent.addMember (h : Coherent t) {id : Uuid} {m : WorkspaceMemberRow}
    (hid : t.members.get? id = none) (hkey : t.members.All fun _ other => other.key ≠ m.key) :
    Coherent (t.addMember id m hid) := by
  apply h.setMembers (h.unique.insert hid hkey)
  intro _ _ _ _ j q hq _ hrole
  refine ⟨q, ?_, rfl, hrole⟩
  rw [Table.get?_insert, if_neg, hq]
  rintro rfl
  rw [hid] at hq
  cases hq

theorem unique_setRole (h : t.members.Unique WorkspaceMemberRow.key) (id : Uuid)
    (role : WorkspaceRole) : (t.setRole id role).members.Unique WorkspaceMemberRow.key :=
  h.modify (g := fun m => { m with role := role }) fun _ => rfl

theorem Coherent.setRole (h : Coherent t) {id : Uuid} {role : WorkspaceRole}
    (hid : role = .owner ∨ ¬ Represents t id) : Coherent (t.setRole id role) := by
  apply h.setMembers (unique_setRole h.unique id role)
  intro ws workspace hworkspace hactive j q hq hkey hrole
  simp only [Tables.setRole]
  rw [Table.get?_modify]
  by_cases hj : j = id
  · subst hj
    rw [if_pos rfl, hq]
    refine ⟨{ q with role := role }, rfl, rfl, hid.resolve_right fun hnot => hnot ?_⟩
    obtain rfl : q.workspaceId = ws := congrArg Prod.fst hkey
    exact ⟨q, workspace, hq, hworkspace, hactive, (congrArg Prod.snd hkey).symm⟩
  · rw [if_neg hj]
    exact ⟨q, hq, rfl, hrole⟩

theorem Coherent.delete (h : Coherent t) {id : Uuid} (hid : ¬ Represents t id) :
    Coherent { t with members := t.members.delete id } := by
  apply h.setMembers (h.unique.delete id)
  intro ws workspace hworkspace hactive j q hq hkey hrole
  rw [Table.get?_delete]
  by_cases hj : j = id
  · subst hj
    refine absurd ?_ hid
    obtain rfl : q.workspaceId = ws := congrArg Prod.fst hkey
    exact ⟨q, workspace, hq, hworkspace, hactive, (congrArg Prod.snd hkey).symm⟩
  · rw [if_neg hj]
    exact ⟨q, hq, rfl, hrole⟩

/-- The ownership of one workspace is moved to one of its owners; what the others
rest on stays. -/
theorem Coherent.of_setOwner {ws ownerId : Uuid}
    (hunique : t.members.Unique WorkspaceMemberRow.key)
    (howned : ∀ id workspace, t.workspaces.get? id = some workspace →
      workspace.archivedAt = none → id ≠ ws → Holds (· = .owner) id workspace.ownerId t)
    (howner : Holds (· = .owner) ws ownerId t) : Coherent (t.setOwner ws ownerId) where
  unique := hunique
  owned := by
    intro id workspace hworkspace hactive
    simp only [Tables.setOwner] at hworkspace
    rw [Table.get?_modify] at hworkspace
    split at hworkspace
    · next hid =>
        subst hid
        obtain ⟨workspace', hworkspace', rfl⟩ := Option.map_eq_some_iff.mp hworkspace
        exact howner
    · next hid => exact howned id workspace hworkspace hactive hid

theorem Coherent.transfer (h : Coherent t) {currentId targetId ws newOwnerUserId : Uuid}
    {target : WorkspaceMemberRow} (htarget : t.members.get? targetId = some target)
    (hop : KeepsOwners t (.transfer currentId targetId ws newOwnerUserId)) :
    Coherent (((t.setRole currentId .admin).setRole targetId .owner).setOwner ws
      newOwnerUserId) := by
  apply Coherent.of_setOwner
  · exact unique_setRole (unique_setRole h.unique currentId .admin) targetId .owner
  · intro id workspace hworkspace hactive hid
    refine (h.owned id workspace hworkspace hactive).mono fun j q hq hkey hrole => ?_
    have hqws : q.workspaceId ≠ ws := fun hws => hid ((congrArg Prod.fst hkey).symm.trans hws)
    have hj : j ≠ currentId := by
      rintro rfl
      exact hqws (hop.1 q hq)
    have hj' : j ≠ targetId := by
      rintro rfl
      exact hqws (congrArg Prod.fst (hop.2 q hq))
    refine ⟨q, ?_, rfl, hrole⟩
    simp only [Tables.setRole]
    rw [Table.get?_modify, if_neg hj', Table.get?_modify, if_neg hj, hq]
  · have hkey : target.key = (ws, newOwnerUserId) := hop.2 target htarget
    simp only [Tables.setRole]
    by_cases hsame : targetId = currentId
    · subst hsame
      refine ⟨targetId, { target with role := .owner }, ?_, hkey, rfl⟩
      rw [Table.get?_modify_self, Table.get?_modify_self, htarget]
      rfl
    · refine ⟨targetId, { target with role := .owner }, ?_, hkey, rfl⟩
      rw [Table.get?_modify_self, Table.get?_modify, if_neg hsame, htarget]
      rfl

/-- Every statement keeps the two in agreement whose reads have been made. -/
theorem Coherent.effect (h : Coherent t) (heff : Effect x t op t') (hop : KeepsOwners t op) :
    Coherent t' := by
  cases heff with
  | unchanged | createInvitation | updateStatus => exact ⟨h.unique, h.owned⟩
  | updateRole => exact h.setRole hop
  | removeMember => exact h.delete hop
  | updateOwner =>
      exact Coherent.of_setOwner h.unique (fun id workspace hget hactive _ =>
        h.owned id workspace hget hactive) hop
  | transfer hcurrent htarget => exact h.transfer htarget hop
  | @accept invitation userId hid hkey =>
      have hadd := h.addMember (m := invitedMember x invitation userId) hid hkey
      exact ⟨hadd.unique, hadd.owned⟩
  | @archive id =>
      refine ⟨h.unique, fun j workspace hget hactive => ?_⟩
      rw [Table.get?_modify] at hget
      split at hget
      · obtain ⟨workspace', -, rfl⟩ := Option.map_eq_some_iff.mp hget
        cases hactive
      · exact h.owned j workspace hget hactive
  | @createWorkspaceWithOwner data hid hmember hkey =>
      have hadd := h.addMember (m := ownerMember x data) hmember hkey
      refine ⟨hadd.unique, fun j workspace hget hactive => ?_⟩
      rw [Table.get?_insert] at hget
      split at hget
      · next hj =>
          cases hget
          refine ⟨x.newMemberId, ownerMember x data, ?_, by rw [hj]; rfl, rfl⟩
          exact (Table.get?_insert _ _ _ _ hmember).trans (if_pos rfl)
      · exact hadd.owned j workspace hget hactive

end Statements

section Calls
variable {w : World} {ws memberId userId : Uuid} {m : WorkspaceMemberRow}

/-- The program keeps the two in agreement, statement by statement. -/
abbrev KeepsCoherent {α : Type} (p : Service α) (w : World) (post : α → World → Prop) : Prop :=
  p.Keeps answer (fun w => Coherent w.db.toTables) w post

/-- A statement that moves neither ownership nor the role of an owner. -/
def LeavesOwners (op : Statement) : Prop :=
  ∀ t, KeepsOwners t op

theorem Coherent.answer (h : Coherent w.db.toTables) (x : Outside) {op : Statement}
    (hop : KeepsOwners w.db.toTables op) : Coherent (answer x op w).2.db.toTables :=
  h.effect (effect_answer x op w) hop

theorem keepsCoherent_of_only {α : Type} {p : Service α} (hp : p.Only LeavesOwners)
    (hs : Coherent w.db.toTables) : KeepsCoherent p w fun _ _ => True :=
  Keeps.of_only (fun _ => True) (fun x _ _ hop ht _ => ⟨ht.answer x (hop _), trivial⟩) hp hs trivial
    fun _ _ _ _ => trivial

/-- Another owner than one of them, where more than one is counted. -/
theorem exists_otherOwner {db : Database} (hm : db.members.get? memberId = some m)
    (hkey : m.key = (ws, userId)) (howner : m.role = .owner)
    (hcount : 1 < WorkspaceMemberRepository.countOwners db ws) :
    ∃ j q, db.members.get? j = some q ∧
      (WorkspaceMemberRepository.ownerOf ws q && q.userId != userId) = true := by
  have hself : WorkspaceMemberRepository.ownerOf ws m = true := by
    simp only [WorkspaceMemberRepository.ownerOf, Bool.and_eq_true, beq_iff_eq]
    exact ⟨congrArg Prod.fst hkey, howner⟩
  obtain ⟨j, q, hj, hq, hqowner⟩ := (Table.one_lt_count_iff hm hself).mp hcount
  refine ⟨j, q, hq, ?_⟩
  rw [Bool.and_eq_true, bne_iff_ne]
  refine ⟨hqowner, fun huser => hj ?_⟩
  simp only [WorkspaceMemberRepository.ownerOf, Bool.and_eq_true, beq_iff_eq] at hqowner
  have hqkey : q.key = (ws, userId) := Prod.ext hqowner.1 huser
  exact db.wellFormed.memberKeys j memberId q m hq hm (hqkey.trans hkey.symm)

/-- The `ownerId` goes to another owner than the one who steps down. -/
theorem keepsCoherent_handOver {pick : Nat} {nextOwner : WorkspaceMember}
    {post : Unit → World → Prop} (hs : Coherent w.db.toTables)
    (hm : w.db.members.get? memberId = some m) (hkey : m.key = (ws, userId))
    (hfind : WorkspaceMemberRepository.findOtherOwner w.db ws userId pick = some nextOwner)
    (h : ∀ t, Coherent t.db.toTables → t.db.members = w.db.members →
      ¬ Represents t.db.toTables memberId → post () t) :
    KeepsCoherent (MembershipService.handOver ws (some nextOwner)) w post := by
  obtain ⟨next, hnext, rfl⟩ := Option.map_eq_some_iff.mp hfind
  obtain ⟨hget, hother⟩ := Table.findFirst_eq_some hnext
  rw [Bool.and_eq_true, bne_iff_ne, WorkspaceMemberRepository.ownerOf, Bool.and_eq_true,
    beq_iff_eq, beq_iff_eq] at hother
  obtain ⟨⟨hnextWs, hnextOwner⟩, hne⟩ := hother
  have hholds : KeepsOwners w.db.toTables (.updateOwner ws next.2.userId) :=
    ⟨next.1, next.2, hget, Prod.ext hnextWs rfl, hnextOwner⟩
  refine keeps_ask_bind.mpr fun x => ⟨hs.answer x hholds, keeps_orThrow.mpr fun _ hok => ?_⟩
  have ht := answer_updateOwner_ok hok
  have hmembers : (answer x (.updateOwner ws next.2.userId) w).2.db.members = w.db.members := by
    rw [ht]
    rfl
  refine h _ (hs.answer x hholds) hmembers ?_
  rw [ht]
  rintro ⟨m', workspace, hm', hworkspace, -, howner⟩
  obtain rfl := Option.some.inj (hm.symm.trans hm')
  have hwsOf : m.workspaceId = ws := congrArg Prod.fst hkey
  simp only [Tables.setOwner] at hworkspace
  rw [hwsOf, Table.get?_modify_self] at hworkspace
  obtain ⟨workspace', -, rfl⟩ := Option.map_eq_some_iff.mp hworkspace
  exact hne (howner.trans (congrArg Prod.snd hkey))

/-- After `replaceOwner` an owner who steps down is not the `ownerId` any more. -/
theorem keepsCoherent_replaceOwner {stepsDown : Bool} {soleOwner : AppError}
    {post : Unit → World → Prop} (hs : Coherent w.db.toTables)
    (hm : w.db.members.get? memberId = some m) (hkey : m.key = (ws, userId))
    (howner : stepsDown = true → m.role = .owner)
    (h : ∀ t, Coherent t.db.toTables → t.db.members = w.db.members →
      (stepsDown = true → ¬ Represents t.db.toTables memberId) → post () t) :
    KeepsCoherent (MembershipService.replaceOwner stepsDown ws userId soleOwner) w post := by
  cases stepsDown with
  | false => exact h w hs rfl nofun
  | true =>
      refine keeps_ask_bind.mpr fun x₁ => ⟨hs, keeps_refuseIf_bind.mpr fun hcount => ?_⟩
      have hcount : 1 < WorkspaceMemberRepository.countOwners w.db ws := by
        have hcount : decide (WorkspaceMemberRepository.countOwners w.db ws ≤ 1) = false := hcount
        simpa using hcount
      refine keeps_ask_bind.mpr fun x₂ => ⟨hs, ?_⟩
      have hwsOf : m.workspaceId = ws := congrArg Prod.fst hkey
      split
      · next hrepresents =>
          refine keeps_ask_bind.mpr fun x₃ => ⟨hs, ?_⟩
          obtain ⟨j, q, hq, hqother⟩ := exists_otherOwner hm hkey (howner rfl) hcount
          cases hfind : WorkspaceMemberRepository.findOtherOwner w.db ws userId x₃.pick with
          | none =>
              have hnone := Table.findFirst_eq_none (Option.map_eq_none_iff.mp hfind) hq
              rw [hqother] at hnone
              cases hnone
          | some nextOwner =>
              have hread : (answer x₃ (.findOtherOwner ws userId) w).1 = some nextOwner := hfind
              change KeepsCoherent
                (MembershipService.handOver ws (answer x₃ (.findOtherOwner ws userId) w).1) w post
              rw [hread]
              exact keepsCoherent_handOver hs hm hkey hfind fun t ht hmembers hnot =>
                h t ht hmembers fun _ => hnot
      · next hnot =>
          refine h w hs rfl fun _ => ?_
          rintro ⟨m', workspace, hm', hworkspace, hactive, hownerId⟩
          obtain rfl := Option.some.inj (hm.symm.trans hm')
          rw [hwsOf] at hworkspace
          have hread : (answer x₂ (.findWorkspace ws) w).1 = some ⟨ws, workspace⟩ := by
            simp [answer, WorkspaceRepository.findById, hworkspace, Option.filter, hactive]
          apply hnot
          have huser : workspace.ownerId = userId := hownerId.trans (congrArg Prod.snd hkey)
          change Option.any _ (answer x₂ (.findWorkspace ws) w).1 = true
          rw [hread, Option.any_some, huser, beq_self_eq_true]

theorem only_emit_return {α : Type} {event : WorkspaceEvent} {a : α} :
    (emit event >>= fun _ => pure a : Service α).Only LeavesOwners :=
  (Only.ask fun _ => trivial).bind fun _ => Only.pure _

theorem keepsCoherent_updateMemberRole {role : WorkspaceRole} {actorId : Option Uuid}
    (hs : Coherent w.db.toTables) :
    KeepsCoherent (MembershipService.updateMemberRole ws memberId role actorId) w
      fun _ _ => True := by
  refine keeps_bind.mpr (keeps_findMemberIn hs fun m hm hws => ?_)
  refine keeps_bind.mpr (keeps_of_reads (only_gateRoleChange fun _ _ _ => rfl) hs fun _ => ?_)
  have howner : (m.role == .owner && role != .owner) = true → m.role = .owner := by
    rw [Bool.and_eq_true, beq_iff_eq]
    exact And.left
  have hkey : m.key = (ws, m.userId) := Prod.ext hws rfl
  refine keeps_bind.mpr (keepsCoherent_replaceOwner hs hm hkey howner fun t ht hmembers hnot => ?_)
  have hop : KeepsOwners t.db.toTables (.updateRole memberId role) := by
    have hmt : t.db.members.get? memberId = some m := hmembers ▸ hm
    by_cases hrole : role = .owner
    · exact .inl hrole
    · by_cases hm' : m.role = .owner
      · exact .inr (hnot (by simp [hm', hrole]))
      · exact .inr (ht.not_represents hmt hm')
  refine keeps_bind.mpr (keeps_ask_bind.mpr fun x => ⟨ht.answer x hop, ?_⟩)
  exact keeps_orThrow.mpr fun _ _ => keepsCoherent_of_only only_emit_return (ht.answer x hop)

/-- The last two steps of a removal: nobody who represents the workspace goes. -/
theorem keepsCoherent_deleting {event : WorkspaceEvent} (hs : Coherent w.db.toTables)
    (hnot : ¬ Represents w.db.toTables memberId) :
    KeepsCoherent (memberRepo.removeMember memberId >>= fun _ => emit event) w
      fun _ _ => True := by
  have hop : KeepsOwners w.db.toTables (.removeMember memberId) := hnot
  refine keeps_bind.mpr (keeps_ask_bind.mpr fun x => ⟨hs.answer x hop, ?_⟩)
  exact keeps_orThrow.mpr fun _ _ =>
    keepsCoherent_of_only (Only.ask fun _ => trivial) (hs.answer x hop)

theorem keepsCoherent_stepDown {event : WorkspaceEvent} {soleOwner : AppError}
    (hs : Coherent w.db.toTables) (hm : w.db.members.get? memberId = some m)
    (hkey : m.key = (ws, userId)) :
    KeepsCoherent (do
      MembershipService.replaceOwner (m.role == .owner) ws userId soleOwner
      memberRepo.removeMember memberId
      emit event) w fun _ _ => True := by
  refine keeps_bind.mpr (keepsCoherent_replaceOwner hs hm hkey (fun h => by simpa using h)
    fun t ht hmembers hnot => keepsCoherent_deleting ht ?_)
  have hmt : t.db.members.get? memberId = some m := hmembers ▸ hm
  by_cases howner : m.role = .owner
  · exact hnot (by simp [howner])
  · exact ht.not_represents hmt howner

theorem keepsCoherent_removeMember {actorId : Option Uuid} (hs : Coherent w.db.toTables) :
    KeepsCoherent (MembershipService.removeMember ws memberId actorId) w fun _ _ => True := by
  refine keeps_bind.mpr (keeps_findMemberIn hs fun m hm hws => ?_)
  refine keeps_bind.mpr (keeps_of_reads (only_gateRemoval fun _ _ _ => rfl) hs fun _ => ?_)
  exact keepsCoherent_stepDown hs hm (Prod.ext hws rfl)

theorem keepsCoherent_leaveWorkspace (hs : Coherent w.db.toTables) :
    KeepsCoherent (MembershipService.leaveWorkspace ws userId) w fun _ _ => True := by
  refine keeps_ask_bind.mpr fun x => ⟨hs, keeps_demand_bind.mpr fun member hfind => ?_⟩
  obtain ⟨hget, hws, huser⟩ := get?_of_findMember hfind
  exact keepsCoherent_stepDown hs hget (Prod.ext hws huser)

theorem keepsCoherent_transferOwnership {currentOwnerId newOwnerUserId : Uuid}
    (hs : Coherent w.db.toTables) :
    KeepsCoherent (MembershipService.transferOwnership ws currentOwnerId newOwnerUserId) w
      fun _ _ => True := by
  refine keeps_ask_bind.mpr fun x₁ => ⟨hs, keeps_demand_bind.mpr fun current hcurrent => ?_⟩
  obtain ⟨hcurrent, -⟩ := Option.filter_eq_some_iff.mp hcurrent
  obtain ⟨hget, hws, -⟩ := get?_of_findMember hcurrent
  refine keeps_ask_bind.mpr fun x₂ => ⟨hs, keeps_demand_bind.mpr fun target htarget => ?_⟩
  obtain ⟨hget', hws', huser'⟩ := get?_of_findMember htarget
  have hop : KeepsOwners w.db.toTables (.transfer current.id target.id ws newOwnerUserId) := by
    constructor
    · intro m hm
      obtain rfl := Option.some.inj (hget.symm.trans hm)
      exact hws
    · intro m hm
      obtain rfl := Option.some.inj (hget'.symm.trans hm)
      exact Prod.ext hws' huser'
  refine keeps_bind.mpr (keeps_ask_bind.mpr fun x₃ => ⟨hs.answer x₃ hop, ?_⟩)
  exact keeps_orThrow.mpr fun _ _ => keepsCoherent_of_only only_emit_return (hs.answer x₃ hop)

theorem Creates.leavesOwners (op : Statement) (h : Creates op) : LeavesOwners op := by
  cases op <;> first | exact fun _ => trivial | cases h

theorem Archives.leavesOwners (op : Statement) (h : Archives op) : LeavesOwners op := by
  cases op <;> first | exact fun _ => trivial | cases h

theorem Invites.leavesOwners (op : Statement) (h : Invites op) : LeavesOwners op := by
  cases op <;> first | exact fun _ => trivial | cases h

theorem Accepts.leavesOwners (op : Statement) (h : Accepts op) : LeavesOwners op := by
  cases op <;> first | exact fun _ => trivial | cases h

theorem Revokes.leavesOwners (op : Statement) (h : Revokes op) : LeavesOwners op := by
  cases op <;> first | exact fun _ => trivial | cases h

theorem keepsCoherent_run {env : Env} {call : Call} (hs : Coherent w.db.toTables) :
    KeepsCoherent (call.run env) w fun _ _ => True := by
  cases call with
  | create dto userId =>
      exact keepsCoherent_of_only (only_ignoreResult (only_create.imp Creates.leavesOwners)) hs
  | archive workspaceId =>
      exact keepsCoherent_of_only (only_archive.imp Archives.leavesOwners) hs
  | membership call =>
      cases call with
      | updateMemberRole workspaceId memberId role actorId =>
          exact keeps_bind.mpr (keepsCoherent_updateMemberRole hs)
      | removeMember workspaceId memberId actorId => exact keepsCoherent_removeMember hs
      | leaveWorkspace workspaceId userId => exact keepsCoherent_leaveWorkspace hs
      | transferOwnership workspaceId currentOwnerId newOwnerUserId =>
          exact keeps_bind.mpr (keepsCoherent_transferOwnership hs)
  | invitation call =>
      cases call with
      | inviteMember workspaceId dto invitedBy =>
          refine keepsCoherent_of_only (only_ignoreResult ?_) hs
          exact only_inviteMember.imp Invites.leavesOwners
      | acceptInvitation token userId =>
          refine keepsCoherent_of_only (only_ignoreResult ?_) hs
          exact only_acceptInvitation.imp Accepts.leavesOwners
      | revokeInvitation workspaceId invitationId =>
          exact keepsCoherent_of_only (only_revokeInvitation.imp Revokes.leavesOwners) hs

end Calls

theorem Coherent.step {env : Env} {w w' : World} {a : Call × (Nat → Outside)}
    (hs : Coherent w.db.toTables) (hstep : step env w a = some w') :
    Coherent w'.db.toTables := by
  obtain rfl := Option.some.inj hstep
  exact (keepsCoherent_run hs).leaves hs a.2

/-- Whatever calls are made one after the other, `ownerId` and the owners'
memberships stay in agreement. -/
theorem coherent_of_run (env : Env) {w w' : World} {as : List (Call × (Nat → Outside))}
    (hs : Coherent w.db.toTables) (run : Run (step env) w as w') : Coherent w'.db.toTables := by
  apply run.invariant (I := fun w => Coherent w.db.toTables) _ hs
  intro t a u ht hstep
  exact ht.step hstep

/-- A user, and no workspace yet. -/
def oneUser : Database where
  users := ⟨[(1, { email := js "a@b.io", displayName := js "A" })], by decide⟩
  wellFormed :=
    { emails := Table.Unique.of_rows (by decide)
      workspaces := Table.All.of_rows (by decide)
      slugs := Table.Unique.of_rows (by decide)
      members := Table.All.of_rows (by decide)
      memberKeys := Table.Unique.of_rows (by decide)
      invitations := Table.All.of_rows (by decide)
      tokens := Table.Unique.of_rows (by decide) }

theorem coherent_oneUser : Coherent oneUser.toTables where
  unique := oneUser.wellFormed.memberKeys
  owned := Table.All.of_rows (by simp [oneUser, Table.empty])

/-- The user creates a workspace and tries to leave it. -/
def createAndLeave : List (Call × (Nat → Outside)) :=
  [(.create { name := js "Team" } 1, fun _ => { newId := 5, newMemberId := 6, now := 0 }),
    (.membership (.leaveWorkspace 5 1), fun _ => atTime 0)]

theorem coherent_of_run_createAndLeave :
    ∃ w, Run (step plainEnv) { db := oneUser } createAndLeave w ∧ Coherent w.db.toTables := by
  obtain ⟨w, hw⟩ : ∃ w, exec (step plainEnv) { db := oneUser } createAndLeave = some w := ⟨_, rfl⟩
  exact ⟨w, run_of_exec hw, coherent_of_run plainEnv coherent_oneUser (run_of_exec hw)⟩

end SyncBoard.Workspace
