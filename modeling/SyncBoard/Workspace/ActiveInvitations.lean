import SyncBoard.Workspace.Invitations

/-!
# Active invitations

An invitation is active while it is pending and has not expired. `inviteMember` looks for a
membership and for an active invitation of the address before it inserts a row, and no
index stands behind these reads. The results say what an insertion does to the active
invitations, and what the two reads would have to find.
-/

namespace SyncBoard.Workspace

open Relational Fallible Interleaved Interleaved.Program Labelled

/-- The workspace and the address of an invitation, while it is pending and has not
expired. -/
def WorkspaceInvitationRow.activeFor (now : Timestamp) (i : WorkspaceInvitationRow) :
    Option (Uuid × JsString) :=
  if i.status = .pending ∧ now < i.expiresAt then some (i.workspaceId, i.email) else none

/-- No two active invitations are for one workspace and one address. -/
def OneActive (now : Timestamp) (t : Tables) : Prop :=
  t.invitations.UniqueWhere (WorkspaceInvitationRow.activeFor now)

/-- The user with an address is a member of the workspace. -/
def Belongs (workspaceId : Uuid) (email : JsString) (t : Tables) : Prop :=
  ∃ userId user, t.users.get? userId = some user ∧ user.email = email ∧
    Holds (fun _ => True) workspaceId userId t

/-- What an insertion of an invitation needs in order to succeed. -/
structure CanCreate (x : Outside) (t : Tables) (data : WorkspaceInvitationRow) : Prop where
  fresh : t.invitations.get? x.newId = none
  token : t.invitations.All fun _ other => other.token ≠ data.token
  accepted : data.Accepted t

section Rows
variable {now : Timestamp} {i : WorkspaceInvitationRow} {t : Tables}

theorem activeFor_eq_some {ws : Uuid} {email : JsString} :
    i.activeFor now = some (ws, email) ↔
      (i.status = .pending ∧ now < i.expiresAt) ∧ i.workspaceId = ws ∧ i.email = email := by
  rw [WorkspaceInvitationRow.activeFor, Option.ite_none_right_eq_some, Option.some.injEq,
    Prod.mk.injEq]

/-- What is active under an id. -/
def activeKey (now : Timestamp) (id : Uuid) (t : Tables) : Option (Uuid × JsString) :=
  (t.invitations.get? id).bind (WorkspaceInvitationRow.activeFor now)

theorem activeKey_eq_some {id : Uuid} {key : Uuid × JsString} :
    activeKey now id t = some key ↔
      ∃ i, t.invitations.get? id = some i ∧ i.activeFor now = some key :=
  Option.bind_eq_some_iff

theorem OneActive.same (h : OneActive now t) {j k : Uuid} {key : Uuid × JsString}
    (hj : activeKey now j t = some key) (hk : activeKey now k t = some key) : j = k := by
  obtain ⟨q, hq, hqkey⟩ := activeKey_eq_some.mp hj
  obtain ⟨r, hr, hrkey⟩ := activeKey_eq_some.mp hk
  exact h j k q r key hq hr hqkey hrkey

/-- Where nothing has become active, the property stays. -/
theorem OneActive.mono (h : OneActive now t) {since : Timestamp} {t' : Tables}
    (hkeys : ∀ id key, activeKey since id t' = some key → activeKey now id t = some key) :
    OneActive since t' := by
  intro j k q r key hq hr hqkey hrkey
  apply h.same
  · exact hkeys j key (activeKey_eq_some.mpr ⟨q, hq, hqkey⟩)
  · exact hkeys k key (activeKey_eq_some.mpr ⟨r, hr, hrkey⟩)

/-- Active invitations run out. -/
theorem activeKey_later {since : Timestamp} (hle : now ≤ since) {id : Uuid}
    {key : Uuid × JsString} (h : activeKey since id t = some key) :
    activeKey now id t = some key := by
  obtain ⟨i, hi, hactive⟩ := activeKey_eq_some.mp h
  obtain ⟨⟨hpending, hlt⟩, hkey⟩ := activeFor_eq_some.mp hactive
  exact activeKey_eq_some.mpr
    ⟨i, hi, activeFor_eq_some.mpr ⟨⟨hpending, hle.trans_lt hlt⟩, hkey⟩⟩

/-- A status other than pending ends an active invitation. -/
theorem activeKey_setStatus {j id : Uuid} {status : InvitationStatus} (hstatus : status ≠ .pending)
    {acceptedAt : Option Timestamp} {key : Uuid × JsString}
    (h : activeKey now id (t.setStatus j status acceptedAt) = some key) :
    activeKey now id t = some key := by
  obtain ⟨i, hi, hactive⟩ := activeKey_eq_some.mp h
  rw [Tables.setStatus, Table.get?_modify] at hi
  split at hi
  · obtain ⟨old, -, rfl⟩ := Option.map_eq_some_iff.mp hi
    obtain ⟨⟨hpending, -⟩, -⟩ := activeFor_eq_some.mp hactive
    exact absurd hpending hstatus
  · exact activeKey_eq_some.mpr ⟨i, hi, hactive⟩

end Rows

/-- Both checks of `inviteMember` for an existing member, on one state. -/
def isMember (db : Database) (workspaceId : Uuid) (email : JsString) : Bool :=
  (UserRepository.findUserSummaryByEmail db email).any fun existingUserSummary =>
    (WorkspaceMemberRepository.findMember db workspaceId existingUserSummary.id).isSome

section Reads
variable {db : Database} {ws : Uuid} {email : JsString}

theorem findUserSummaryByEmail_eq_some_iff {user : User} :
    UserRepository.findUserSummaryByEmail db email = some user ↔
      db.users.get? user.id = some user.row ∧ user.row.email = email := by
  have hfind := db.wellFormed.emails.find?_eq_some_iff (x := email) (k := user.id) (r := user.row)
  simp only [UserRepository.findUserSummaryByEmail, beq_eq_decide]
  rw [← hfind, Option.map_eq_some_iff]
  constructor
  · rintro ⟨⟨id, row⟩, hrow, rfl⟩
    exact hrow
  · intro hrow
    exact ⟨_, hrow, rfl⟩

theorem findMember_isSome_iff {userId : Uuid} :
    (WorkspaceMemberRepository.findMember db ws userId).isSome = true ↔
      Holds (fun _ => True) ws userId db.toTables := by
  rw [Option.isSome_iff_exists]
  constructor
  · rintro ⟨m, hm⟩
    obtain ⟨hget, hws, huser⟩ := get?_of_findMember hm
    exact ⟨m.id, m.row, hget, Prod.ext hws huser, trivial⟩
  · rintro ⟨id, m, hget, hkey, -⟩
    exact ⟨_, findMember_of_get? hget hkey⟩

theorem isMember_iff : isMember db ws email = true ↔ Belongs ws email db.toTables := by
  rw [isMember, Option.any_eq_true]
  constructor
  · rintro ⟨user, huser, hmember⟩
    obtain ⟨hget, hemail⟩ := findUserSummaryByEmail_eq_some_iff.mp huser
    exact ⟨user.id, user.row, hget, hemail, findMember_isSome_iff.mp hmember⟩
  · rintro ⟨userId, row, hget, hemail, hholds⟩
    exact ⟨⟨userId, row⟩, findUserSummaryByEmail_eq_some_iff.mpr ⟨hget, hemail⟩,
      findMember_isSome_iff.mpr hholds⟩

theorem findPendingByEmailAndWorkspace_eq_none_iff {now : Timestamp} {pick : Nat} :
    WorkspaceInvitationRepository.findPendingByEmailAndWorkspace db email ws now pick = none ↔
      db.invitations.All fun _ i => i.activeFor now ≠ some (ws, email) := by
  have hactive : ∀ i : WorkspaceInvitationRow,
      (i.workspaceId == ws && i.email == email && i.status == .pending &&
        decide (now < i.expiresAt)) = true ↔ i.activeFor now = some (ws, email) := by
    intro i
    rw [activeFor_eq_some]
    simp only [Bool.and_eq_true, beq_iff_eq, decide_eq_true_eq]
    tauto
  rw [WorkspaceInvitationRepository.findPendingByEmailAndWorkspace, Option.map_eq_none_iff]
  constructor
  · intro hnone id i hi hkey
    have hfalse := Table.findFirst_eq_none hnone hi
    rw [(hactive i).mpr hkey] at hfalse
    cases hfalse
  · intro hall
    rw [Option.eq_none_iff_forall_ne_some]
    rintro ⟨id, i⟩ hfirst
    obtain ⟨hi, hmatch⟩ := Table.findFirst_eq_some hfirst
    exact hall id i hi ((hactive i).mp hmatch)

end Reads

section Statements
variable {x : Outside} {w : World} {data : WorkspaceInvitationRow}

theorem insertInvitation_of_canCreate (h : CanCreate x w.db.toTables data) :
    ∃ db', w.db.insertInvitation x.newId data = .ok db' := by
  unfold Database.insertInvitation
  rw [dif_pos ⟨h.fresh, h.token⟩, dif_pos h.accepted]
  exact ⟨_, rfl⟩

theorem createInvitation_ok_iff :
    (∃ invitation, (answer x (.createInvitation data) w).1 = .ok invitation) ↔
      CanCreate x w.db.toTables data := by
  constructor
  · rintro ⟨invitation, h⟩
    obtain ⟨db', hr, -⟩ := write_ok h
    obtain ⟨db₁, hinsert, -⟩ := bind_eq_ok.mp hr
    unfold Database.insertInvitation at hinsert
    split_ifs at hinsert with hfresh haccepted
    exact ⟨hfresh.1, hfresh.2, haccepted⟩
  · intro h
    obtain ⟨db', hinsert⟩ := insertInvitation_of_canCreate h
    have hr : WorkspaceInvitationRepository.createInvitation w.db x.newId data =
        .ok (⟨x.newId, data⟩, db') := bind_eq_ok.mpr ⟨db', hinsert, rfl⟩
    refine ⟨⟨x.newId, data⟩, ?_⟩
    simp only [answer, hr, World.write]

theorem wrote_createInvitation (h : CanCreate x w.db.toTables data) :
    w.db.invitations.Wrote (answer x (.createInvitation data) w).2.db.invitations x.newId data := by
  obtain ⟨invitation, hok⟩ := createInvitation_ok_iff.mpr h
  obtain ⟨db', hr, hdb⟩ := write_ok hok
  obtain ⟨db₁, hinsert, hreturn⟩ := bind_eq_ok.mp hr
  cases hreturn
  have hanswer : (answer x (.createInvitation data) w).2.db = db' := hdb
  obtain ⟨hid, ht⟩ := insertInvitation_ok hinsert
  rw [hanswer, ht]
  exact w.db.invitations.wrote_insert hid

theorem id_of_createInvitation {invitation : WorkspaceInvitation}
    (h : (answer x (.createInvitation data) w).1 = .ok invitation) : invitation.id = x.newId := by
  obtain ⟨db', hr, -⟩ := write_ok h
  obtain ⟨db₁, -, hreturn⟩ := bind_eq_ok.mp hr
  cases hreturn
  rfl

/-- What an insertion that can succeed must find: both checks of `inviteMember`,
made once more, would pass. The second one matters only if the new invitation has
not expired already. -/
def ChecksStand (x : Outside) (w : World) : Statement → Prop
  | .createInvitation data => CanCreate x w.db.toTables data →
      isMember w.db data.workspaceId data.email = false ∧
        (x.now < data.expiresAt →
          WorkspaceInvitationRepository.findPendingByEmailAndWorkspace w.db data.email
            data.workspaceId x.now x.pick = none)
  | _ => True

instance (workspaceId : Uuid) (email : JsString) (t : Tables) :
    Decidable (Belongs workspaceId email t) :=
  decidable_of_iff (∃ user ∈ t.users.rows, user.2.email = email ∧
    ∃ member ∈ t.members.rows, member.2.key = (workspaceId, user.1)) <| by
    constructor
    · rintro ⟨user, huser, hemail, member, hmember, hkey⟩
      exact ⟨user.1, user.2, (t.users.mem_rows_iff _ _).mp huser, hemail, member.1, member.2,
        (t.members.mem_rows_iff _ _).mp hmember, hkey, trivial⟩
    · rintro ⟨userId, user, huser, hemail, id, member, hmember, hkey, -⟩
      exact ⟨(userId, user), (t.users.mem_rows_iff _ _).mpr huser, hemail, (id, member),
        (t.members.mem_rows_iff _ _).mpr hmember, hkey⟩

/-- The statement inserts no invitation for a member. -/
def InvitesNoMember (x : Outside) (w : World) : Statement → Prop
  | .createInvitation data =>
      (∃ invitation, (answer x (.createInvitation data) w).1 = .ok invitation) →
        ¬ Belongs data.workspaceId data.email w.db.toTables
  | _ => True

instance (x : Outside) (w : World) : ∀ op, Decidable (InvitesNoMember x w op)
  | .createInvitation data =>
      decidable_of_iff ((answer x (.createInvitation data) w).1.toOption.isSome = true →
        ¬Belongs data.workspaceId data.email w.db.toTables) <| by
        refine imp_congr_left ?_
        cases (answer x (.createInvitation data) w).1 <;> simp [Except.toOption]
  | .clock | .randomBytes | .emit _ | .findUserSummaryByEmail _ | .findByIdPublic _
  | .findWorkspace _ | .existsBySlug _ | .createWorkspaceWithOwner _ | .updateOwner _ _
  | .archive _ | .findMember _ _ | .findMemberById _ | .countOwners _ | .findOtherOwner _ _
  | .updateRole _ _ | .removeMember _ | .transfer _ _ _ _ | .findByToken _ | .findInvitation _
  | .findPendingByEmailAndWorkspace _ _ | .updateStatus _ _ | .accept _ _ => .isTrue trivial

/-- The statements of the three calls. -/
def SendsOrSettles : Statement → Prop
  | .createInvitation data => data.status = .pending
  | .updateStatus _ status => status = .revoked
  | .createWorkspaceWithOwner _ | .updateOwner _ _ | .archive _ | .updateRole _ _
  | .removeMember _ | .transfer _ _ _ _ => False
  | _ => True

/-- An insertion keeps to one active invitation exactly where it finds no other. -/
theorem oneActive_createInvitation (hpending : data.status = .pending)
    (h : OneActive x.now w.db.toTables) (hcan : CanCreate x w.db.toTables data) :
    OneActive x.now (answer x (.createInvitation data) w).2.db.toTables ↔
      (x.now < data.expiresAt →
        WorkspaceInvitationRepository.findPendingByEmailAndWorkspace w.db data.email
          data.workspaceId x.now x.pick = none) := by
  rw [OneActive, Table.UniqueWhere.wrote_iff h (wrote_createInvitation hcan),
    findPendingByEmailAndWorkspace_eq_none_iff]
  constructor
  · intro hfree hlt id i hi hactive
    apply hfree (data.workspaceId, data.email)
    · exact activeFor_eq_some.mpr ⟨⟨hpending, hlt⟩, rfl, rfl⟩
    · refine ⟨id, i, ?_, hi, hactive⟩
      rintro rfl
      cases hcan.fresh.symm.trans hi
  · rintro hnone ⟨ws, email⟩ hactive ⟨id, i, -, hi, htaken⟩
    obtain ⟨⟨-, hlt⟩, rfl, rfl⟩ := activeFor_eq_some.mp hactive
    exact hnone hlt id i hi htaken

/-- The other statements of the calls make no invitation active. -/
theorem activeKey_others {op : Statement} (hop : SendsOrSettles op)
    (hother : ∀ data, op ≠ .createInvitation data) {now : Timestamp} {id : Uuid}
    {key : Uuid × JsString} (h : activeKey now id (answer x op w).2.db.toTables = some key) :
    activeKey now id w.db.toTables = some key := by
  have heff := effect_answer x op w
  generalize (answer x op w).2.db.toTables = t' at heff h
  cases heff with
  | createInvitation => exact absurd rfl (hother _)
  | @updateStatus id status =>
      obtain rfl : status = .revoked := hop
      exact activeKey_setStatus (by decide) h
  | accept => exact activeKey_setStatus (t := w.db.toTables.addMember ..) (by decide) h
  | _ => exact h

/-- One statement keeps the property exactly where the checks stand. -/
theorem checksStand_iff {op : Statement} (hop : SendsOrSettles op)
    (h : OneActive x.now w.db.toTables) :
    (OneActive x.now (answer x op w).2.db.toTables ∧ InvitesNoMember x w op) ↔
      ChecksStand x w op := by
  by_cases hcreate : ∃ data, op = .createInvitation data
  · obtain ⟨data, rfl⟩ := hcreate
    simp only [InvitesNoMember, ChecksStand, createInvitation_ok_iff, ← isMember_iff,
      Bool.not_eq_true]
    by_cases hcan : CanCreate x w.db.toTables data
    · rw [oneActive_createInvitation hop h hcan]
      constructor
      · rintro ⟨hactive, hmember⟩ -
        exact ⟨hmember hcan, hactive⟩
      · intro hstand
        exact ⟨(hstand hcan).2, fun _ => (hstand hcan).1⟩
    · have hsame : (answer x (.createInvitation data) w).2 = w := by
        cases hanswer : (answer x (.createInvitation data) w).1 with
        | ok invitation => exact absurd (createInvitation_ok_iff.mp ⟨invitation, hanswer⟩) hcan
        | error e => exact write_error hanswer
      rw [hsame]
      exact iff_of_true ⟨h, fun hc => absurd hc hcan⟩ fun hc => absurd hc hcan
  · have hother : ∀ data, op ≠ .createInvitation data := fun data hdata => hcreate ⟨data, hdata⟩
    have hkept : OneActive x.now (answer x op w).2.db.toTables :=
      h.mono fun _ _ => activeKey_others hop hother
    cases op with
    | createInvitation data => exact absurd rfl (hother data)
    | _ => exact iff_of_true ⟨hkept, trivial⟩ trivial

end Statements

end SyncBoard.Workspace
