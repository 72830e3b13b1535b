import SyncBoard.Workspace.Calls

/-!
# What the statements do to the tables

Each write names the rows it inserts, changes or deletes. A statement that reads,
and a write that is refused, leave the tables as they are.
-/

namespace SyncBoard.Workspace

open Relational Fallible

/-- The membership that `createWorkspaceWithOwner` inserts. -/
def ownerMember (x : Outside) (data : WorkspaceRow) : WorkspaceMemberRow :=
  { workspaceId := x.newId, userId := data.ownerId, role := .owner, joinedAt := x.now }

/-- The membership that the acceptance of an invitation inserts. -/
def invitedMember (x : Outside) (invitation : WorkspaceInvitation) (userId : Uuid) :
    WorkspaceMemberRow :=
  { workspaceId := invitation.row.workspaceId, userId := userId, role := invitation.row.role,
    joinedAt := x.now }

namespace Tables
variable (t : Tables)

def setRole (id : Uuid) (role : WorkspaceRole) : Tables :=
  { t with members := t.members.modify id fun m => { m with role := role } }

def setOwner (id ownerId : Uuid) : Tables :=
  { t with
    workspaces := t.workspaces.modify id fun workspace => { workspace with ownerId := ownerId } }

def setStatus (id : Uuid) (status : InvitationStatus) (acceptedAt : Option Timestamp) : Tables :=
  { t with
    invitations := t.invitations.modify id fun i =>
      { i with status := status, acceptedAt := acceptedAt <|> i.acceptedAt } }

def addMember (id : Uuid) (m : WorkspaceMemberRow) (h : t.members.get? id = none) : Tables :=
  { t with members := t.members.insert id m h }

end Tables

/-- The writes by id that need a row, and nothing else. -/
def Statement.Applies (t : Tables) : Statement → Prop
  | archive id => t.workspaces.contains id = true
  | updateRole memberId _ | removeMember memberId => t.members.contains memberId = true
  | updateStatus invitationId _ => t.invitations.contains invitationId = true
  | _ => False

/-- What a statement leaves of the tables. -/
inductive Effect (x : Outside) (t : Tables) : Statement → Tables → Prop
  | unchanged {op : Statement} (hop : ¬ op.Applies t) : Effect x t op t
  | createWorkspaceWithOwner {data : WorkspaceRow}
      (hid : t.workspaces.get? x.newId = none) (hmember : t.members.get? x.newMemberId = none)
      (hkey : t.members.All fun _ other => other.key ≠ (x.newId, data.ownerId)) :
      Effect x t (.createWorkspaceWithOwner data)
        { t with
          workspaces := t.workspaces.insert x.newId data hid
          members := t.members.insert x.newMemberId (ownerMember x data) hmember }
  | updateOwner {id ownerId : Uuid} (huser : t.users.contains ownerId = true) :
      Effect x t (.updateOwner id ownerId) (t.setOwner id ownerId)
  | archive {id : Uuid} :
      Effect x t (.archive id)
        { t with
          workspaces := t.workspaces.modify id fun workspace =>
            { workspace with archivedAt := some x.now } }
  | updateRole {memberId : Uuid} {role : WorkspaceRole} :
      Effect x t (.updateRole memberId role) (t.setRole memberId role)
  | removeMember {memberId : Uuid} :
      Effect x t (.removeMember memberId) { t with members := t.members.delete memberId }
  | transfer {currentId targetId workspaceId newOwnerUserId : Uuid}
      {current target : WorkspaceMemberRow} (hcurrent : t.members.get? currentId = some current)
      (htarget : t.members.get? targetId = some target) :
      Effect x t (.transfer currentId targetId workspaceId newOwnerUserId)
        (((t.setRole currentId .admin).setRole targetId .owner).setOwner workspaceId
          newOwnerUserId)
  | createInvitation {data : WorkspaceInvitationRow}
      (hid : t.invitations.get? x.newId = none) :
      Effect x t (.createInvitation data)
        { t with invitations := t.invitations.insert x.newId data hid }
  | updateStatus {invitationId : Uuid} {status : InvitationStatus} :
      Effect x t (.updateStatus invitationId status) (t.setStatus invitationId status none)
  | accept {invitation : WorkspaceInvitation} {userId : Uuid}
      (hid : t.members.get? x.newId = none)
      (hkey : t.members.All fun _ other =>
        other.key ≠ (invitation.row.workspaceId, userId)) :
      Effect x t (.accept invitation userId)
        ((t.addMember x.newId (invitedMember x invitation userId) hid).setStatus invitation.id
          .accepted (some x.now))

section Writes
variable {db db' : Database}

theorem insertWorkspace_ok {id : Uuid} {workspace : WorkspaceRow}
    (h : db.insertWorkspace id workspace = .ok db') :
    ∃ hid : db.workspaces.get? id = none,
      db'.toTables =
        { db.toTables with workspaces := db.workspaces.insert id workspace hid } := by
  unfold Database.insertWorkspace at h
  split_ifs at h with hfresh haccepted hwidth
  obtain rfl := Except.ok.inj h
  exact ⟨hfresh.1, rfl⟩

theorem insertMember_ok {id : Uuid} {m : WorkspaceMemberRow}
    (h : db.insertMember id m = .ok db') :
    ∃ hid : db.members.get? id = none, (db.members.All fun _ other => other.key ≠ m.key) ∧
      m.Accepted db.toTables ∧ db'.toTables = db.toTables.addMember id m hid := by
  unfold Database.insertMember at h
  split_ifs at h with hfresh haccepted
  obtain rfl := Except.ok.inj h
  exact ⟨hfresh.1, hfresh.2, haccepted, rfl⟩

theorem insertMember_of_accepted {id : Uuid} {m : WorkspaceMemberRow}
    (hid : db.members.get? id = none) (hkey : db.members.All fun _ other => other.key ≠ m.key)
    (haccepted : m.Accepted db.toTables) :
    ∃ db', db.insertMember id m = .ok db' ∧ db'.toTables = db.toTables.addMember id m hid := by
  unfold Database.insertMember
  rw [dif_pos ⟨hid, hkey⟩, dif_pos haccepted]
  exact ⟨_, rfl, rfl⟩

theorem insertInvitation_ok {id : Uuid} {i : WorkspaceInvitationRow}
    (h : db.insertInvitation id i = .ok db') :
    ∃ hid : db.invitations.get? id = none,
      db'.toTables = { db.toTables with invitations := db.invitations.insert id i hid } := by
  unfold Database.insertInvitation at h
  split_ifs at h with hfresh haccepted
  obtain rfl := Except.ok.inj h
  exact ⟨hfresh.1, rfl⟩

end Writes

section Effects
variable {x : Outside} {w : World} {db' : Database}

theorem write_error {α : Type} {r : Except DbError (α × Database)} {e : DbError}
    (h : (w.write r).1 = .error e) : (w.write r).2 = w := by
  cases r with
  | error e' => rfl
  | ok p => cases h

theorem write_ok {α : Type} {r : Except DbError (α × Database)} {a : α}
    (h : (w.write r).1 = .ok a) : ∃ db', r = .ok (a, db') ∧ (w.write r).2.db = db' := by
  cases r with
  | error e => cases h
  | ok p =>
      obtain ⟨b, db'⟩ := p
      cases h
      exact ⟨db', rfl, rfl⟩

/-- A write has the effect of its success, or none. -/
theorem effect_write {α : Type} {op : Statement} {r : Except DbError (α × Database)}
    (herror : ∀ e, r = .error e → ¬ op.Applies w.db.toTables)
    (h : ∀ a db', r = .ok (a, db') → Effect x w.db.toTables op db'.toTables) :
    Effect x w.db.toTables op (w.write r).2.db.toTables := by
  cases r with
  | error e => exact .unchanged (herror e rfl)
  | ok p => exact h p.1 p.2 rfl

theorem effect_writeOnly {op : Statement} {r : Except DbError Database}
    (herror : ∀ e, r = .error e → ¬ op.Applies w.db.toTables)
    (h : ∀ db', r = .ok db' → Effect x w.db.toTables op db'.toTables) :
    Effect x w.db.toTables op (w.writeOnly r).2.db.toTables := by
  cases r with
  | error e => exact .unchanged (herror e rfl)
  | ok db' => exact h db' rfl

theorem effect_createWorkspaceWithOwner {data : WorkspaceRow} {a : WorkspaceRecord}
    (h : WorkspaceRepository.createWorkspaceWithOwner w.db x.newId x.newMemberId data x.now =
      .ok (a, db')) :
    Effect x w.db.toTables (.createWorkspaceWithOwner data) db'.toTables := by
  obtain ⟨⟨t, ht⟩, h₁, h⟩ := bind_eq_ok.mp h
  obtain ⟨db₂, h₂, h⟩ := bind_eq_ok.mp h
  cases h
  obtain ⟨hid, rfl⟩ := insertWorkspace_ok h₁
  obtain ⟨hmember, hkey, -, ht₂⟩ := insertMember_ok h₂
  rw [ht₂]
  exact .createWorkspaceWithOwner hid hmember hkey

theorem effect_updateOwner {id ownerId : Uuid}
    (h : WorkspaceRepository.updateOwner w.db id ownerId = .ok db') :
    Effect x w.db.toTables (.updateOwner id ownerId) db'.toTables := by
  unfold WorkspaceRepository.updateOwner at h
  split_ifs at h with howner
  cases h
  exact .updateOwner howner.2

theorem answer_updateOwner_ok {id ownerId : Uuid} {u : Unit}
    (h : (answer x (.updateOwner id ownerId) w).1 = .ok u) :
    (answer x (.updateOwner id ownerId) w).2.db.toTables = w.db.toTables.setOwner id ownerId := by
  simp only [answer, World.writeOnly, WorkspaceRepository.updateOwner] at h ⊢
  split_ifs at h ⊢ with howner
  · rfl
  · cases h

theorem effect_archive {id : Uuid} (h : WorkspaceRepository.archive w.db id x.now = .ok db') :
    Effect x w.db.toTables (.archive id) db'.toTables := by
  unfold WorkspaceRepository.archive at h
  split_ifs at h
  cases h
  exact .archive

theorem updateRole_ok {db : Database} {memberId : Uuid} {role : WorkspaceRole}
    {a : WorkspaceMember}
    (h : WorkspaceMemberRepository.updateRole db memberId role = .ok (a, db')) :
    ∃ m, db.members.get? memberId = some m ∧ a = ⟨memberId, { m with role := role }⟩ ∧
      db'.toTables = db.toTables.setRole memberId role := by
  unfold WorkspaceMemberRepository.updateRole at h
  split at h
  · next m hm =>
      cases h
      exact ⟨m, hm, rfl, rfl⟩
  · cases h

theorem effect_removeMember {memberId : Uuid}
    (h : WorkspaceMemberRepository.removeMember w.db memberId = .ok db') :
    Effect x w.db.toTables (.removeMember memberId) db'.toTables := by
  unfold WorkspaceMemberRepository.removeMember at h
  split_ifs at h
  cases h
  exact .removeMember

/-- The role of the one membership is set before the other is found. -/
theorem get?_setRole_isSome {t : Tables} {id j : Uuid} {role : WorkspaceRole}
    {m : WorkspaceMemberRow} (h : (t.setRole id role).members.get? j = some m) :
    ∃ m', t.members.get? j = some m' := by
  rw [Tables.setRole, Table.get?_modify] at h
  split at h
  · obtain ⟨m', hm', -⟩ := Option.map_eq_some_iff.mp h
    exact ⟨m', hm'⟩
  · exact ⟨m, h⟩

theorem effect_transfer {currentId targetId workspaceId newOwnerUserId : Uuid}
    {a : WorkspaceMember}
    (h : WorkspaceMemberRepository.transfer w.db currentId targetId workspaceId
      newOwnerUserId = .ok (a, db')) :
    Effect x w.db.toTables (.transfer currentId targetId workspaceId newOwnerUserId)
      db'.toTables := by
  obtain ⟨⟨a₁, ⟨t₁, wf₁⟩⟩, h₁, h⟩ := bind_eq_ok.mp h
  obtain ⟨⟨a₂, ⟨t₂, wf₂⟩⟩, h₂, h⟩ := bind_eq_ok.mp h
  obtain ⟨db₃, h₃, h⟩ := bind_eq_ok.mp h
  cases h
  obtain ⟨current, hcurrent, -, rfl⟩ := updateRole_ok h₁
  obtain ⟨target', htarget', -, rfl⟩ := updateRole_ok h₂
  obtain ⟨target, htarget⟩ := get?_setRole_isSome htarget'
  unfold WorkspaceRepository.updateOwner at h₃
  split_ifs at h₃
  cases h₃
  exact .transfer hcurrent htarget

theorem effect_createInvitation {data : WorkspaceInvitationRow} {a : WorkspaceInvitation}
    (h : WorkspaceInvitationRepository.createInvitation w.db x.newId data = .ok (a, db')) :
    Effect x w.db.toTables (.createInvitation data) db'.toTables := by
  obtain ⟨db₁, h₁, h⟩ := bind_eq_ok.mp h
  cases h
  obtain ⟨hid, ht⟩ := insertInvitation_ok h₁
  rw [ht]
  exact .createInvitation hid

theorem updateStatus_ok {db : Database} {id : Uuid} {status : InvitationStatus}
    {acceptedAt : Option Timestamp} {a : WorkspaceInvitation}
    (h : WorkspaceInvitationRepository.updateStatus db id status acceptedAt = .ok (a, db')) :
    ∃ i, db.invitations.get? id = some i ∧
      db'.toTables = db.toTables.setStatus id status acceptedAt := by
  unfold WorkspaceInvitationRepository.updateStatus at h
  split at h
  · next i hi =>
      cases h
      exact ⟨i, hi, rfl⟩
  · cases h

theorem accept_ok {invitation : WorkspaceInvitation} {userId : Uuid} {a : WorkspaceMember}
    (h : WorkspaceInvitationRepository.accept w.db x.newId invitation userId x.now =
      .ok (a, db')) :
    ∃ hid : w.db.members.get? x.newId = none,
      (w.db.members.All fun _ other => other.key ≠ (invitation.row.workspaceId, userId)) ∧
      (invitedMember x invitation userId).Accepted w.db.toTables ∧
      w.db.invitations.contains invitation.id = true ∧
      db'.toTables = (w.db.toTables.addMember x.newId (invitedMember x invitation userId)
        hid).setStatus invitation.id .accepted (some x.now) := by
  obtain ⟨⟨t₁, wf₁⟩, h₁, h⟩ := bind_eq_ok.mp h
  obtain ⟨⟨i, db₂⟩, h₂, h⟩ := bind_eq_ok.mp h
  cases h
  obtain ⟨hid, hkey, haccepted, rfl⟩ := insertMember_ok h₁
  obtain ⟨row, hrow, ht⟩ := updateStatus_ok h₂
  exact ⟨hid, hkey, haccepted, (Table.contains_iff _ _).mpr ⟨row, hrow⟩, ht⟩

/-- What a statement does to the tables. -/
theorem effect_answer (x : Outside) (op : Statement) (w : World) :
    Effect x w.db.toTables op (answer x op w).2.db.toTables := by
  cases op with
  | createWorkspaceWithOwner data =>
      exact effect_write (fun _ _ => not_false) fun _ _ => effect_createWorkspaceWithOwner
  | updateOwner id ownerId =>
      exact effect_writeOnly (fun _ _ => not_false) fun _ => effect_updateOwner
  | archive id =>
      refine effect_writeOnly (fun e he => ?_) fun _ => effect_archive
      unfold WorkspaceRepository.archive at he
      split_ifs at he with hid
      exact hid
  | updateRole memberId role =>
      refine effect_write (fun e he => ?_) fun a db' h => ?_
      · unfold WorkspaceMemberRepository.updateRole at he
        split at he
        · cases he
        · next hm => simp [Statement.Applies, Table.contains, hm]
      · obtain ⟨m, hm, -, ht⟩ := updateRole_ok h
        exact ht ▸ .updateRole
  | removeMember memberId =>
      refine effect_writeOnly (fun e he => ?_) fun _ => effect_removeMember
      unfold WorkspaceMemberRepository.removeMember at he
      split_ifs at he with hid
      exact hid
  | transfer currentId targetId workspaceId newOwnerUserId =>
      exact effect_write (fun _ _ => not_false) fun _ _ => effect_transfer
  | createInvitation data =>
      exact effect_write (fun _ _ => not_false) fun _ _ => effect_createInvitation
  | updateStatus invitationId status =>
      refine effect_write (fun e he => ?_) fun a db' h => ?_
      · unfold WorkspaceInvitationRepository.updateStatus at he
        split at he
        · cases he
        · next hi => simp [Statement.Applies, Table.contains, hi]
      · obtain ⟨i, hi, ht⟩ := updateStatus_ok h
        exact ht ▸ .updateStatus
  | accept invitation userId =>
      refine effect_write (fun _ _ => not_false) fun a db' h => ?_
      obtain ⟨hid, hkey, -, -, ht⟩ := accept_ok h
      exact ht ▸ .accept hid hkey
  | _ => exact .unchanged not_false

theorem users_answer (x : Outside) (op : Statement) (w : World) :
    (answer x op w).2.db.users = w.db.users := by
  have heff := effect_answer x op w
  generalize (answer x op w).2.db.toTables = t' at heff
  cases heff <;> rfl

end Effects

end SyncBoard.Workspace
