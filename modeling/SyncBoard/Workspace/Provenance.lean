import SyncBoard.Workspace.OwnerGate
import SyncBoard.Workspace.Warrants

/-!
# Where memberships and roles come from

Who is in a workspace has created it, or has accepted an invitation to the own address that an
admin or owner of the workspace sent. Who holds a role there got it so, or from an admin or
owner since. Both hold after every interleaving of requests.

## Implementation notes

Memberships are deleted, so that the same id could be drawn for another one while a request
holds the old one. `DrawsNew` excludes it where the result rests on it.
-/

namespace SyncBoard.Workspace

open Relational Interleaved Interleaved.Program Labelled

/-- The request has sent the invitation, by somebody who was an admin or owner then. -/
def SendsInvitation (i : WorkspaceInvitationRow) (r : Request) (log : RequestLog) : Prop :=
  r = ⟨i.invitedBy, .inviteMember i.workspaceId ⟨i.email, i.role⟩⟩ ∧
    Admitted workspaceAdminRoles i.workspaceId i.invitedBy log

/-- The request has made the user a member of the workspace. -/
inductive Joins (env : Env) (workspaceId userId : Uuid) : Request → RequestLog → Prop
  | created {dto : CreateWorkspaceDto} {data : WorkspaceRow} {workspace : WorkspaceRecord}
      {log : RequestLog} (created : Told log (.createWorkspaceWithOwner data) (.ok workspace))
      (hid : workspace.id = workspaceId) : Joins env workspaceId userId ⟨userId, .create dto⟩ log
  | accepted {token : JsString} {invitation : WorkspaceInvitation} {member : WorkspaceMember}
      {log : RequestLog} (invited : Invited env token invitation userId log)
      (hworkspace : invitation.row.workspaceId = workspaceId)
      (accepted : Told log (.accept invitation userId) (.ok member)) :
      Joins env workspaceId userId ⟨userId, .acceptInvitation token⟩ log

/-- The request has given the user the role in the workspace. -/
inductive Grants (env : Env) (workspaceId userId : Uuid) :
    WorkspaceRole → Request → RequestLog → Prop
  | created {dto : CreateWorkspaceDto} {data : WorkspaceRow} {workspace : WorkspaceRecord}
      {log : RequestLog} (created : Told log (.createWorkspaceWithOwner data) (.ok workspace))
      (hid : workspace.id = workspaceId) :
      Grants env workspaceId userId .owner ⟨userId, .create dto⟩ log
  | accepted {token : JsString} {invitation : WorkspaceInvitation} {member : WorkspaceMember}
      {log : RequestLog} (invited : Invited env token invitation userId log)
      (hworkspace : invitation.row.workspaceId = workspaceId)
      (accepted : Told log (.accept invitation userId) (.ok member)) :
      Grants env workspaceId userId invitation.row.role ⟨userId, .acceptInvitation token⟩ log
  | changed {actorId memberId : Uuid} {role : WorkspaceRole} {member : WorkspaceMember}
      {log : RequestLog} (admitted : Admitted workspaceAdminRoles workspaceId actorId log)
      (found : Told log (.findMemberById memberId) (some member))
      (hmember : member.row.key = (workspaceId, userId)) {updated : WorkspaceMember}
      (changed : Told log (.updateRole memberId role) (.ok updated)) :
      Grants env workspaceId userId role ⟨actorId, .updateMemberRole workspaceId memberId role⟩ log
  | transferred {ownerId targetId : Uuid} {current updated : WorkspaceMember} {log : RequestLog}
      (owner : Told log (.findMember workspaceId ownerId) (some current))
      (hrole : current.row.role = .owner)
      (transferred : Told log (.transfer current.id targetId workspaceId userId) (.ok updated)) :
      Grants env workspaceId userId .owner ⟨ownerId, .transferOwnership workspaceId userId⟩ log
  | handedOver {newOwnerId targetId : Uuid} {current updated : WorkspaceMember} {log : RequestLog}
      (owner : Told log (.findMember workspaceId userId) (some current))
      (hrole : current.row.role = .owner)
      (transferred : Told log (.transfer current.id targetId workspaceId newOwnerId)
        (.ok updated)) :
      Grants env workspaceId userId .admin ⟨userId, .transferOwnership workspaceId newOwnerId⟩ log

section Snoc
variable {env : Env} {workspaceId userId : Uuid} {role : WorkspaceRole}
  {i : WorkspaceInvitationRow} (r : Request) (log : RequestLog) (entry : Σ op, Answer op)

theorem Invited.extend {log log' : RequestLog} {token : JsString} {invitation : WorkspaceInvitation}
    (h : Invited env token invitation userId log) (hlog : log <+: log') :
    Invited env token invitation userId log' := by
  obtain ⟨now, hnow, hcurrent⟩ := h.current
  obtain ⟨user, huser, hemail⟩ := h.addressed
  exact
    { found := h.found.extend hlog
      pending := h.pending
      current := ⟨now, hnow.extend hlog, hcurrent⟩
      addressed := ⟨user, huser.extend hlog, hemail⟩ }

theorem SendsInvitation.snoc (h : SendsInvitation i r log) :
    SendsInvitation i r (log ++ [entry]) :=
  ⟨h.1, h.2.extend (List.prefix_append _ _)⟩

theorem Joins.snoc (h : Joins env workspaceId userId r log) :
    Joins env workspaceId userId r (log ++ [entry]) := by
  have hlog : log <+: log ++ [entry] := List.prefix_append _ _
  cases h with
  | created created hid => exact .created (created.extend hlog) hid
  | accepted invited hworkspace accepted =>
      exact .accepted (invited.extend hlog) hworkspace (accepted.extend hlog)

theorem Grants.snoc (h : Grants env workspaceId userId role r log) :
    Grants env workspaceId userId role r (log ++ [entry]) := by
  have hlog : log <+: log ++ [entry] := List.prefix_append _ _
  cases h with
  | created created hid => exact .created (created.extend hlog) hid
  | accepted invited hworkspace accepted =>
      exact .accepted (invited.extend hlog) hworkspace (accepted.extend hlog)
  | changed admitted found hmember changed =>
      exact .changed (admitted.extend hlog) (found.extend hlog) hmember (changed.extend hlog)
  | transferred owner hrole transferred =>
      exact .transferred (owner.extend hlog) hrole (transferred.extend hlog)
  | handedOver owner hrole transferred =>
      exact .handedOver (owner.extend hlog) hrole (transferred.extend hlog)

end Snoc

/-- How a statement makes a membership, or changes the role of one. -/
inductive Seats (x : Outside) (t : Tables) :
    (op : Statement) → Answer op → Uuid → WorkspaceMemberRow → Prop
  | created {data : WorkspaceRow} :
      Seats x t (.createWorkspaceWithOwner data) (.ok ⟨x.newId, data⟩) x.newMemberId
        (ownerMember x data)
  | accepted {invitation : WorkspaceInvitation} {userId : Uuid} {member : WorkspaceMember} :
      Seats x t (.accept invitation userId) (.ok member) x.newId
        (invitedMember x invitation userId)
  | updated {memberId : Uuid} {role : WorkspaceRole} {member : WorkspaceMember}
      {old : WorkspaceMemberRow} (hold : t.members.get? memberId = some old) :
      Seats x t (.updateRole memberId role) (.ok member) memberId { old with role := role }
  | demoted {currentId targetId workspaceId newOwnerUserId : Uuid} {member : WorkspaceMember}
      {old : WorkspaceMemberRow} (hold : t.members.get? currentId = some old) :
      Seats x t (.transfer currentId targetId workspaceId newOwnerUserId) (.ok member) currentId
        { old with role := .admin }
  | promoted {currentId targetId workspaceId newOwnerUserId : Uuid} {member : WorkspaceMember}
      {old : WorkspaceMemberRow} (hold : t.members.get? targetId = some old) :
      Seats x t (.transfer currentId targetId workspaceId newOwnerUserId) (.ok member) targetId
        { old with role := .owner }

section Statements
variable {x : Outside} {w : World} {t : Tables} {id : Uuid} {m : WorkspaceMemberRow}

/-- A write that is refused changes nothing. -/
theorem write_cases {α : Type} (w : World) (r : Except DbError (α × Database)) :
    (∃ a, (w.write r).1 = .ok a) ∨ (w.write r).2 = w := by
  cases r with
  | ok p => exact .inl ⟨p.1, rfl⟩
  | error e => exact .inr rfl

theorem setRole_cases {memberId : Uuid} {role : WorkspaceRole}
    (h : (t.setRole memberId role).members.get? id = some m) :
    t.members.get? id = some m ∨
      id = memberId ∧ ∃ old, t.members.get? id = some old ∧ m = { old with role := role } := by
  by_cases hid : id = memberId
  · subst hid
    rw [get?_setRole_self] at h
    obtain ⟨old, hold, rfl⟩ := Option.map_eq_some_iff.mp h
    exact .inr ⟨rfl, old, hold, rfl⟩
  · exact .inl ((get?_setRole_ne hid).symm.trans h)

theorem seats_of_created {data : WorkspaceRow}
    (h : (answer x (.createWorkspaceWithOwner data) w).2.db.members.get? id = some m) :
    w.db.members.get? id = some m ∨
      Seats x w.db.toTables (.createWorkspaceWithOwner data)
        (answer x (.createWorkspaceWithOwner data) w).1 id m := by
  change (w.write (WorkspaceRepository.createWorkspaceWithOwner w.db x.newId x.newMemberId data
    x.now)).2.db.members.get? id = some m at h
  change _ ∨ Seats x w.db.toTables (.createWorkspaceWithOwner data)
    (w.write (WorkspaceRepository.createWorkspaceWithOwner w.db x.newId x.newMemberId data
      x.now)).1 id m
  cases hwritten : WorkspaceRepository.createWorkspaceWithOwner w.db x.newId x.newMemberId data
    x.now with
  | error e =>
      rw [hwritten] at h
      exact .inl h
  | ok p =>
      obtain ⟨a, db'⟩ := p
      rw [hwritten] at h
      obtain ⟨⟨t₁, wf₁⟩, h₁, hrest⟩ := Fallible.bind_eq_ok.mp hwritten
      obtain ⟨db₂, h₂, hrest⟩ := Fallible.bind_eq_ok.mp hrest
      obtain ⟨rfl, rfl⟩ := Prod.mk.inj (Except.ok.inj hrest)
      obtain ⟨hnew, rfl⟩ := insertWorkspace_ok h₁
      obtain ⟨hfresh, -, -, ht⟩ := insertMember_ok h₂
      have hmembers : db₂.members.get? id = some m := h
      rw [ht, Tables.addMember, Table.get?_insert] at hmembers
      split at hmembers
      · next hid =>
          subst hid
          obtain rfl := Option.some.inj hmembers
          exact .inr .created
      · exact .inl hmembers

theorem seats_of_accepted {invitation : WorkspaceInvitation} {userId : Uuid}
    (h : (answer x (.accept invitation userId) w).2.db.members.get? id = some m) :
    w.db.members.get? id = some m ∨
      Seats x w.db.toTables (.accept invitation userId)
        (answer x (.accept invitation userId) w).1 id m := by
  change (w.write (WorkspaceInvitationRepository.accept w.db x.newId invitation userId
    x.now)).2.db.members.get? id = some m at h
  change _ ∨ Seats x w.db.toTables (.accept invitation userId)
    (w.write (WorkspaceInvitationRepository.accept w.db x.newId invitation userId x.now)).1 id m
  cases hwritten : WorkspaceInvitationRepository.accept w.db x.newId invitation userId x.now with
  | error e =>
      rw [hwritten] at h
      exact .inl h
  | ok p =>
      obtain ⟨a, db'⟩ := p
      rw [hwritten] at h
      obtain ⟨hfresh, -, -, -, ht⟩ := accept_ok hwritten
      have hmembers : db'.members.get? id = some m := h
      rw [ht, Tables.setStatus, Tables.addMember, Table.get?_insert] at hmembers
      split at hmembers
      · next hid =>
          subst hid
          obtain rfl := Option.some.inj hmembers
          exact .inr .accepted
      · exact .inl hmembers

/-- The other statements make no membership and change none. -/
theorem get?_of_ordinary {op : Statement} (hop : Ordinary op)
    (h : (answer x op w).2.db.members.get? id = some m) : w.db.members.get? id = some m := by
  have heff := effect_answer x op w
  generalize (answer x op w).2.db.toTables = t' at heff h
  cases heff with
  | unchanged | updateOwner | archive | updateStatus => exact h
  | removeMember =>
      rw [Table.get?_delete] at h
      split at h
      · cases h
      · exact h
  | createWorkspaceWithOwner | updateRole | transfer | createInvitation | accept => cases hop

/-- A membership was there before the statement, or the statement made it or changed its role. -/
theorem seats_cases {op : Statement}
    (h : (answer x op w).2.db.members.get? id = some m) :
    w.db.members.get? id = some m ∨ Seats x w.db.toTables op (answer x op w).1 id m := by
  cases op with
  | createWorkspaceWithOwner data => exact seats_of_created h
  | accept invitation userId => exact seats_of_accepted h
  | updateRole memberId role =>
      obtain ⟨member, hok⟩ | hsame :
          (∃ member, (answer x (.updateRole memberId role) w).1 = .ok member) ∨
            (answer x (.updateRole memberId role) w).2 = w := write_cases w _
      swap
      · exact .inl (hsame ▸ h)
      rw [hok]
      have heff := effect_answer x (.updateRole memberId role) w
      generalize (answer x (.updateRole memberId role) w).2.db.toTables = t' at heff h
      cases heff with
      | unchanged => exact .inl h
      | updateRole =>
          rcases setRole_cases h with hold | ⟨rfl, old, hold, rfl⟩
          · exact .inl hold
          · exact .inr (.updated hold)
  | transfer currentId targetId workspaceId newOwnerUserId =>
      obtain ⟨member, hok⟩ | hsame : (∃ member,
          (answer x (.transfer currentId targetId workspaceId newOwnerUserId) w).1 = .ok member) ∨
            (answer x (.transfer currentId targetId workspaceId newOwnerUserId) w).2 = w :=
        write_cases w _
      swap
      · exact .inl (hsame ▸ h)
      rw [hok]
      have heff := effect_answer x (.transfer currentId targetId workspaceId newOwnerUserId) w
      generalize (answer x (.transfer currentId targetId workspaceId newOwnerUserId)
        w).2.db.toTables = t' at heff h
      cases heff with
      | unchanged => exact .inl h
      | transfer =>
          -- the second role is set in the table that the first was set in
          rcases setRole_cases h with hset | ⟨rfl, old, hset, rfl⟩
          · rcases setRole_cases hset with hold | ⟨rfl, old, hold, rfl⟩
            · exact .inl hold
            · exact .inr (.demoted hold)
          · rcases setRole_cases hset with hold | ⟨-, old', hold, rfl⟩
            · exact .inr (.promoted hold)
            · have hseats : Seats x w.db.toTables
                  (.transfer currentId id workspaceId newOwnerUserId) (.ok member) id
                  { old' with role := .owner } := .promoted hold
              exact .inr hseats
  | createInvitation data =>
      have heff := effect_answer x (.createInvitation data) w
      generalize (answer x (.createInvitation data) w).2.db.toTables = t' at heff h
      cases heff with
      | unchanged | createInvitation => exact .inl h
  | clock | randomBytes | emit | findUserSummaryByEmail | findByIdPublic | findWorkspace
  | existsBySlug | updateOwner | archive | findMember | findMemberById | countOwners
  | findOtherOwner | removeMember | findByToken | findInvitation
  | findPendingByEmailAndWorkspace | updateStatus => 
      exact .inl (get?_of_ordinary (by exact trivial) h)

theorem setStatus_cases {i : WorkspaceInvitationRow} {invitationId : Uuid}
    {status : InvitationStatus} {acceptedAt : Option Timestamp}
    (h : (t.setStatus invitationId status acceptedAt).invitations.get? id = some i) :
    ∃ old status acceptedAt, t.invitations.get? id = some old ∧
      i = { old with status := status, acceptedAt := acceptedAt } := by
  rw [Tables.setStatus, Table.get?_modify] at h
  split at h
  · obtain ⟨old, hold, rfl⟩ := Option.map_eq_some_iff.mp h
    exact ⟨old, _, _, hold, rfl⟩
  · exact ⟨i, _, _, h, rfl⟩

/-- An invitation was there before the statement, up to its status, or the statement made it. -/
theorem invitation_cases {op : Statement} {i : WorkspaceInvitationRow}
    (h : (answer x op w).2.db.invitations.get? id = some i) :
    (∃ old status acceptedAt, w.db.invitations.get? id = some old ∧
      i = { old with status := status, acceptedAt := acceptedAt }) ∨ op = .createInvitation i := by
  have heff := effect_answer x op w
  generalize (answer x op w).2.db.toTables = t' at heff h
  cases heff with
  | unchanged | createWorkspaceWithOwner | updateOwner | archive | updateRole | removeMember
  | transfer => exact .inl ⟨i, _, _, h, rfl⟩
  | createInvitation hid =>
      rw [Table.get?_insert] at h
      split at h
      · obtain rfl := Option.some.inj h
        exact .inr rfl
      · exact .inl ⟨i, _, _, h, rfl⟩
  | updateStatus => exact .inl (setStatus_cases h)
  | accept => exact .inl (setStatus_cases h)

theorem get?_of_findByToken {db : Database} {token : JsString} {i : WorkspaceInvitation}
    (h : WorkspaceInvitationRepository.findByToken db token = some i) :
    db.invitations.get? i.id = some i.row := by
  obtain ⟨p, hp, rfl⟩ := Option.map_eq_some_iff.mp h
  exact (Table.find?_eq_some hp).1

end Statements

/-- What answers go on saying: users stay, and an invitation that was found was sent. -/
def Recalled (p : RequestPool) : (op : Statement) → Answer op → Prop
  | .findByIdPublic userId, profile =>
      ∀ user, profile = some user → p.store.db.users.get? userId = some user.row
  | .findByToken _, invitation =>
      ∀ i, invitation = some i → p.Evidence (SendsInvitation i.row)
  | _, _ => True

/-- Every invitation was sent by an admin or owner, and every member has joined. -/
structure Placed (env : Env) (p : RequestPool) : Prop where
  recalled : p.AnswersHold (Recalled p)
  sent : ∀ id i, p.store.db.invitations.get? id = some i → p.Evidence (SendsInvitation i)
  joined : ∀ id m, p.store.db.members.get? id = some m →
    p.Evidence (Joins env m.workspaceId m.userId)

section Steps
variable {env : Env} {p : RequestPool}

/-- Who is given a membership has joined; the other statements change members only. -/
theorem Seats.joins {x : Outside} {t : Tables} {op : Statement} {a : Answer op} {id : Uuid}
    {m : WorkspaceMemberRow} (h : Seats x t op a id m) {r : Request} {log : RequestLog}
    (hop : Warranted env r log op) :
    (∃ old, t.members.get? id = some old ∧ old.key = m.key) ∨
      Joins env m.workspaceId m.userId r (log ++ [⟨op, a⟩]) := by
  cases h with
  | created =>
      cases hop with
      | ordinary hop => cases hop
      | create howner =>
          subst howner
          exact .inr (.created (told_last _ _ _) rfl)
  | accepted =>
      cases hop with
      | ordinary hop => cases hop
      | accept invited =>
          exact .inr (.accepted (invited.extend (List.prefix_append _ _)) rfl (told_last _ _ _))
  | updated hold | demoted hold | promoted hold => exact .inl ⟨_, hold, rfl⟩

theorem Recalled.later {op : Statement} {a : Answer op} (h : Recalled p op a) {p' : RequestPool}
    (husers : p'.store.db.users = p.store.db.users)
    (hsent : ∀ i, p.Evidence (SendsInvitation i) → p'.Evidence (SendsInvitation i)) :
    Recalled p' op a := by
  cases op with
  | findByIdPublic userId =>
      intro user hfound
      rw [husers]
      exact h user hfound
  | findByToken token =>
      intro i hfound
      exact hsent i.row (h i hfound)
  | _ => exact trivial

theorem Placed.recalled_answer (h : Placed env p) (x : Outside) (op : Statement) {p' : RequestPool}
    (husers : p'.store.db.users = p.store.db.users)
    (hsent : ∀ i, p.Evidence (SendsInvitation i) → p'.Evidence (SendsInvitation i)) :
    Recalled p' op (answer x op p.store).1 := by
  cases op with
  | findByIdPublic userId =>
      intro user hfound
      obtain ⟨row, hrow, rfl⟩ := Option.map_eq_some_iff.mp hfound
      rw [husers]
      exact hrow
  | findByToken token =>
      intro i hfound
      exact hsent i.row (h.sent i.id i.row (get?_of_findByToken hfound))
  | _ => exact trivial

theorem Placed.answered (h : Placed env p) {i : Nat} {x : Outside}
    {task : Task Statement Answer AppError Request} {op : Statement}
    {next : Answer op → Service Unit} (ha : p.Asks i task op next)
    (hop : Warranted env task.call task.log op) :
    Placed env (p.answered answer i x task op next) := by
  have husers := users_answer x op p.store
  have hsent : ∀ i', p.Evidence (SendsInvitation i') →
      (p.answered answer i x task op next).Evidence (SendsInvitation i') :=
    fun i' hevidence => hevidence.answered SendsInvitation.snoc ha
  refine ⟨?_, ?_, ?_⟩
  · exact h.recalled.answered ha (fun _ _ _ _ _ hholds => hholds.later husers hsent)
      (h.recalled_answer x op husers hsent)
  · intro id row hrow
    rcases invitation_cases hrow with ⟨old, status, acceptedAt, hold, rfl⟩ | rfl
    · exact hsent old (h.sent id old hold)
    · obtain ⟨call, log, rest⟩ := task
      cases hop with
      | ordinary hop => cases hop
      | invite admitted =>
          exact .of_asks ha ⟨rfl, admitted.extend (List.prefix_append _ _)⟩
  · intro id m hm
    have hkept : ∀ old : WorkspaceMemberRow, p.store.db.members.get? id = some old →
        old.key = m.key → (p.answered answer i x task op next).Evidence
          (Joins env m.workspaceId m.userId) := by
      intro old hold hkey
      obtain ⟨hworkspace, huser⟩ := Prod.mk.inj hkey
      rw [← hworkspace, ← huser]
      exact (h.joined id old hold).answered Joins.snoc ha
    rcases seats_cases hm with hold | hseats
    · exact hkept m hold rfl
    · rcases hseats.joins hop with ⟨old, hold, hkey⟩ | hjoins
      · exact hkept old hold hkey
      · exact .of_asks ha hjoins

theorem Placed.initial {w : World} (hmembers : w.db.members = Table.empty)
    (hinvitations : w.db.invitations = Table.empty) : Placed env { store := w } := by
  refine ⟨nofun, ?_, ?_⟩
  · intro id i hi
    rw [hinvitations] at hi
    cases hi
  · intro id m hm
    rw [hmembers] at hm
    cases hm

theorem Placed.start (h : Placed env p) (r : Request) :
    Placed env { p with tasks := p.tasks ++ [⟨r, [], r.handle env⟩] } := by
  refine ⟨?_, fun id i hi => (h.sent id i hi).start r, fun id m hm => (h.joined id m hm).start r⟩
  intro task htask op a htold
  exact (h.recalled.start r task htask op a htold).later rfl fun i hevidence => hevidence.start r

theorem placed_of_run {w : World} (hmembers : w.db.members = Table.empty)
    (hinvitations : w.db.invitations = Table.empty) {ms : List (Move Request Outside)}
    (run : Run (Pool.step answer (Request.handle env)) { store := w } ms p) : Placed env p := by
  refine (Pool.invariant_of_traces (traces_handle env) ?_ ?_ (.initial hmembers hinvitations)
    run).1
  · exact fun p r hp => hp.start r
  · exact fun p i x task op next hp ha hop => hp.answered ha hop

end Steps

/-- After any interleaving of requests, starting without members and invitations, every member of
a workspace has created it, or has accepted an invitation that was pending and had not expired
when it was read, that is addressed to the email of the user, and that somebody sent who had
passed as an admin or owner of the workspace. -/
theorem member_of_invitation (env : Env) {w : World} (hmembers : w.db.members = Table.empty)
    (hinvitations : w.db.invitations = Table.empty) {ms : List (Move Request Outside)}
    {p : RequestPool} (run : Run (Pool.step answer (Request.handle env)) { store := w } ms p)
    {id : Uuid} {m : WorkspaceMemberRow} (hm : p.store.db.members.get? id = some m) :
    (∃ task ∈ p.tasks, ∃ dto data workspace, task.call = ⟨m.userId, .create dto⟩ ∧
      Told task.log (.createWorkspaceWithOwner data) (.ok workspace) ∧
        workspace.id = m.workspaceId) ∨
    ∃ task ∈ p.tasks, ∃ token invitation member user,
      task.call = ⟨m.userId, .acceptInvitation token⟩ ∧
      Invited env token invitation m.userId task.log ∧
      Told task.log (.accept invitation m.userId) (.ok member) ∧
      invitation.row.workspaceId = m.workspaceId ∧
      p.store.db.users.get? m.userId = some user ∧
      env.platform.toLowerCase invitation.row.email = env.platform.toLowerCase user.email ∧
      ∃ invite ∈ p.tasks, ∃ inviter role,
        invite.call = ⟨inviter, .inviteMember m.workspaceId ⟨invitation.row.email, role⟩⟩ ∧
          Admitted workspaceAdminRoles m.workspaceId inviter invite.log := by
  have hplaced := placed_of_run hmembers hinvitations run
  obtain ⟨task, htask, hjoins⟩ := hplaced.joined id m hm
  obtain ⟨call, log, rest⟩ := task
  cases hjoins with
  | created created hid => exact .inl ⟨_, htask, _, _, _, rfl, created, hid⟩
  | @accepted token invitation member _ invited hworkspace accepted =>
      obtain ⟨user, huser, hemail⟩ := invited.addressed
      have hprofile := hplaced.recalled _ htask _ _ huser user rfl
      obtain ⟨invite, hinvite, hcall, admitted⟩ :=
        hplaced.recalled _ htask _ _ invited.found invitation rfl
      rw [hworkspace] at hcall admitted
      exact .inr ⟨_, htask, token, invitation, member, user.row, rfl, invited, accepted,
        hworkspace, hprofile, hemail, invite, hinvite, _, _, hcall, admitted⟩

/-- The database before anybody has made a workspace. -/
def twoUsers : Database where
  users := ⟨[(1, { email := js "a@b.io", displayName := js "Ann" }),
    (2, { email := js "b@b.io", displayName := js "Ben" })], by decide⟩
  wellFormed :=
    { emails := Table.Unique.of_rows (by decide)
      workspaces := Table.All.of_rows (by decide)
      slugs := Table.Unique.of_rows (by decide)
      members := Table.All.of_rows (by decide)
      memberKeys := Table.Unique.of_rows (by decide)
      invitations := Table.All.of_rows (by decide)
      tokens := Table.Unique.of_rows (by decide) }

/-- A request that is answered a number of times, and nothing else. -/
def alone (i : Nat) (r : Request) (statements : Nat) (newId newMemberId : Uuid) :
    List (Move Request Outside) :=
  .start r :: List.replicate statements
    (.resume i { newId, newMemberId, now := 0, bytes := js "t" })

/-- The first user makes a workspace and invites the second one, who accepts. -/
def invitedUser : List (Move Request Outside) :=
  alone 0 ⟨1, .create { name := js "Team" }⟩ 3 5 6 ++
    alone 1 ⟨1, .inviteMember 5 ⟨js "b@b.io", .member⟩⟩ 10 7 7 ++
    alone 2 ⟨2, .acceptInvitation (js "t")⟩ 7 8 8

theorem member_of_invitedUser : ∃ p : RequestPool, ∃ m,
    Run (Pool.step answer (Request.handle plainEnv)) { store := { db := twoUsers } } invitedUser p ∧
      p.store.db.members.get? 8 = some m ∧ m.userId = 2 ∧
        ∃ task ∈ p.tasks, (∃ dto, task.call = ⟨2, .create dto⟩) ∨
          ∃ token invitation member, task.call = ⟨2, .acceptInvitation token⟩ ∧
            Told task.log (.accept invitation 2) (.ok member) := by
  obtain ⟨p, m, hexec, hm, huser⟩ : ∃ p m, exec (Pool.step answer (Request.handle plainEnv))
      ({ store := { db := twoUsers } } : RequestPool) invitedUser = some p ∧
        p.store.db.members.get? 8 = some m ∧ m.userId = 2 := ⟨_, _, rfl, rfl, rfl⟩
  have run := run_of_exec hexec
  refine ⟨p, m, run, hm, huser, ?_⟩
  rcases member_of_invitation plainEnv rfl rfl run hm with
    ⟨task, htask, dto, data, workspace, hcall, -⟩ |
      ⟨task, htask, token, invitation, member, -, hcall, -, haccepted, -⟩
  · exact ⟨task, htask, .inl ⟨dto, huser ▸ hcall⟩⟩
  · exact ⟨task, htask, .inr ⟨token, invitation, member, huser ▸ hcall, huser ▸ haccepted⟩⟩

/-- The ids of the memberships that a request has been told of. -/
def seenIds (log : RequestLog) : List Uuid :=
  log.filterMap fun
    | ⟨.findMember _ _, member⟩ => Option.map WorkspaceMember.id member
    | ⟨.findMemberById _, member⟩ => Option.map WorkspaceMember.id member
    | _ => none

/-- No id that is drawn is that of a membership which a request has been told of. -/
def DrawsNew (p : RequestPool) : Move Request Outside → Prop
  | .start _ => True
  | .resume _ x => ∀ task ∈ p.tasks, ∀ id ∈ seenIds task.log, id ≠ x.newId ∧ id ≠ x.newMemberId

instance (p : RequestPool) (m : Move Request Outside) : Decidable (DrawsNew p m) :=
  match m with
  | .start _ => .isTrue trivial
  | .resume _ x => inferInstanceAs (Decidable (∀ task ∈ p.tasks, ∀ id ∈ seenIds task.log,
      id ≠ x.newId ∧ id ≠ x.newMemberId))

/-- Where there is a membership under the id, it is still that of the same user. -/
def SameMember (t : Tables) (member : WorkspaceMember) : Prop :=
  ∀ m, t.members.get? member.id = some m → m.key = member.row.key

/-- What a request goes on knowing of the memberships that it has read. -/
def Known (t : Tables) : (op : Statement) → Answer op → Prop
  | .findMember workspaceId userId, found => ∀ member, found = some member →
      member.row.key = (workspaceId, userId) ∧ SameMember t member
  | .findMemberById id, found => ∀ member, found = some member →
      member.id = id ∧ SameMember t member
  | _, _ => True

/-- Every role was given. -/
structure Granted (env : Env) (p : RequestPool) : Prop where
  known : p.AnswersHold (Known p.store.db.toTables)
  roles : ∀ id m, p.store.db.members.get? id = some m →
    p.Evidence (Grants env m.workspaceId m.userId m.role)

section Steps
variable {env : Env} {p : RequestPool}

/-- A statement changes a membership of the same user, or draws the id. -/
theorem Seats.kept_or_new {x : Outside} {t : Tables} {op : Statement} {a : Answer op} {id : Uuid}
    {m : WorkspaceMemberRow} (h : Seats x t op a id m) :
    (∃ old, t.members.get? id = some old ∧ old.key = m.key) ∨ id = x.newId ∨
      id = x.newMemberId := by
  cases h with
  | created => exact .inr (.inr rfl)
  | accepted => exact .inr (.inl rfl)
  | updated hold | demoted hold | promoted hold => exact .inl ⟨_, hold, rfl⟩

theorem SameMember.later {member : WorkspaceMember} {w : World}
    (h : SameMember w.db.toTables member) {x : Outside}
    (hnew : member.id ≠ x.newId ∧ member.id ≠ x.newMemberId) (op : Statement) :
    SameMember (answer x op w).2.db.toTables member := by
  intro m hm
  rcases seats_cases hm with hold | hseats
  · exact h m hold
  · rcases hseats.kept_or_new with ⟨old, hold, hkey⟩ | hid | hid
    · exact hkey.symm.trans (h old hold)
    · exact absurd hid hnew.1
    · exact absurd hid hnew.2

theorem Known.later {w : World} {op : Statement} {a : Answer op}
    (h : Known w.db.toTables op a) {log : RequestLog} (htold : Told log op a) {x : Outside}
    (hnew : ∀ id ∈ seenIds log, id ≠ x.newId ∧ id ≠ x.newMemberId) (op' : Statement) :
    Known (answer x op' w).2.db.toTables op a := by
  cases op with
  | findMember workspaceId userId =>
      rintro member rfl
      obtain ⟨hkey, hsame⟩ := h member rfl
      have hseen : member.id ∈ seenIds log := List.mem_filterMap.mpr ⟨_, htold, rfl⟩
      exact ⟨hkey, hsame.later (hnew _ hseen) op'⟩
  | findMemberById id =>
      rintro member rfl
      obtain ⟨hid, hsame⟩ := h member rfl
      have hseen : member.id ∈ seenIds log := List.mem_filterMap.mpr ⟨_, htold, rfl⟩
      exact ⟨hid, hsame.later (hnew _ hseen) op'⟩
  | _ => exact trivial

theorem known_answer (x : Outside) (op : Statement) (w : World) :
    Known (answer x op w).2.db.toTables op (answer x op w).1 := by
  cases op with
  | findMember workspaceId userId =>
      intro member hfound
      obtain ⟨hget, hworkspace, huser⟩ := get?_of_findMember hfound
      refine ⟨Prod.ext hworkspace huser, fun m hm => ?_⟩
      obtain rfl := Option.some.inj (hget.symm.trans hm)
      rfl
  | findMemberById id =>
      intro member hfound
      obtain ⟨row, hrow, rfl⟩ := Option.map_eq_some_iff.mp hfound
      refine ⟨rfl, fun m hm => ?_⟩
      obtain rfl := Option.some.inj (hrow.symm.trans hm)
      rfl
  | _ => exact trivial

/-- Whoever a statement gives a role, the request gives it the role. -/
theorem Seats.grants {x : Outside} {t : Tables} {op : Statement} {a : Answer op} {id : Uuid}
    {m : WorkspaceMemberRow} (h : Seats x t op a id m) {r : Request} {log : RequestLog}
    (hop : Warranted env r log op) (hknown : ∀ op a, Told log op a → Known t op a) :
    Grants env m.workspaceId m.userId m.role r (log ++ [⟨op, a⟩]) := by
  have hlog : log <+: log ++ [⟨op, a⟩] := List.prefix_append _ _
  cases h with
  | created =>
      cases hop with
      | ordinary hop => cases hop
      | create howner =>
          subst howner
          exact .created (told_last _ _ _) rfl
  | accepted =>
      cases hop with
      | ordinary hop => cases hop
      | accept invited => exact .accepted (invited.extend hlog) rfl (told_last _ _ _)
  | updated hold =>
      cases hop with
      | ordinary hop => cases hop
      | @updateRole _ _ _ _ _ member admitted found hworkspace =>
          obtain ⟨rfl, hsame⟩ := hknown _ _ found member rfl
          have hkey := hsame _ hold
          obtain ⟨hworkspace', -⟩ := Prod.mk.inj hkey
          rw [← hworkspace, ← hworkspace'] at admitted ⊢
          exact .changed (admitted.extend hlog) (found.extend hlog) hkey.symm (told_last _ _ _)
  | demoted hold =>
      cases hop with
      | ordinary hop => cases hop
      | @transfer _ _ _ _ current target owner hrole found =>
          obtain ⟨hkey, hsame⟩ := hknown _ _ owner current rfl
          obtain ⟨hworkspace, huser⟩ := Prod.mk.inj ((hsame _ hold).trans hkey)
          subst hworkspace huser
          exact .handedOver (owner.extend hlog) hrole (told_last _ _ _)
  | promoted hold =>
      cases hop with
      | ordinary hop => cases hop
      | @transfer _ _ _ _ current target owner hrole found =>
          obtain ⟨hkey, hsame⟩ := hknown _ _ found target rfl
          obtain ⟨hworkspace, huser⟩ := Prod.mk.inj ((hsame _ hold).trans hkey)
          subst hworkspace huser
          exact .transferred (owner.extend hlog) hrole (told_last _ _ _)

theorem Granted.answered (h : Granted env p) {i : Nat} {x : Outside}
    (hnew : DrawsNew p (.resume i x)) {task : Task Statement Answer AppError Request}
    {op : Statement} {next : Answer op → Service Unit} (ha : p.Asks i task op next)
    (hop : Warranted env task.call task.log op) :
    Granted env (p.answered answer i x task op next) := by
  refine ⟨?_, ?_⟩
  · refine h.known.answered ha (fun task' htask' op' a htold hholds => ?_)
      (known_answer x op p.store)
    exact hholds.later htold (hnew task' htask') op
  · intro id m hm
    rcases seats_cases hm with hold | hseats
    · exact (h.roles id m hold).answered Grants.snoc ha
    · exact .of_asks ha (hseats.grants hop (h.known task ha.mem))

theorem Granted.initial {w : World} (hmembers : w.db.members = Table.empty) :
    Granted env { store := w } := by
  refine ⟨nofun, ?_⟩
  intro id m hm
  rw [hmembers] at hm
  cases hm

theorem Granted.start (h : Granted env p) (r : Request) :
    Granted env { p with tasks := p.tasks ++ [⟨r, [], r.handle env⟩] } :=
  ⟨h.known.start r, fun id m hm => (h.roles id m hm).start r⟩

end Steps

/-- After any interleaving of requests that starts without members, whoever holds a role in a
workspace has got this very role by creating the workspace, by accepting an invitation to it that
is addressed to the email of the user, from somebody who had passed as an admin or owner of the
workspace, or with the ownership that an owner of it transferred. -/
theorem role_of_grant (env : Env) {w : World} (hmembers : w.db.members = Table.empty)
    {ms : List (Move Request Outside)} {p : RequestPool}
    (run : Run (Pool.step answer (Request.handle env)) { store := w } ms p)
    (hnew : AllSteps (Pool.step answer (Request.handle env)) DrawsNew { store := w } ms)
    {id : Uuid} {m : WorkspaceMemberRow} (hm : p.store.db.members.get? id = some m) :
    ∃ task ∈ p.tasks, Grants env m.workspaceId m.userId m.role task.call task.log := by
  have hgranted : Granted env p := by
    refine (Pool.guarded_of_traces (traces_handle env) ?_ ?_ (.initial hmembers) run hnew).1
    · exact fun p r hp => hp.start r
    · exact fun p i x task op next hp hnew ha hop => hp.answered hnew ha hop
  exact hgranted.roles id m hm

/-- Then the first user makes the second one a viewer. -/
def changedRole : List (Move Request Outside) :=
  invitedUser ++ alone 3 ⟨1, .updateMemberRole 5 8 .viewer⟩ 4 9 9

theorem role_of_changedRole : ∃ p : RequestPool, ∃ m, ∃ task ∈ p.tasks,
    Run (Pool.step answer (Request.handle plainEnv)) { store := { db := twoUsers } }
        changedRole p ∧
      p.store.db.members.get? 8 = some m ∧ m.role = .viewer ∧
        Grants plainEnv m.workspaceId m.userId m.role task.call task.log := by
  obtain ⟨p, m, hexec, hm, hrole⟩ : ∃ p m, exec (Pool.step answer (Request.handle plainEnv))
      ({ store := { db := twoUsers } } : RequestPool) changedRole = some p ∧
        p.store.db.members.get? 8 = some m ∧ m.role = .viewer := ⟨_, _, rfl, rfl, rfl⟩
  have run := run_of_exec hexec
  have hnew : AllSteps (Pool.step answer (Request.handle plainEnv)) DrawsNew
      { store := { db := twoUsers } } changedRole := by
    decide +kernel
  obtain ⟨task, htask, hgrants⟩ := role_of_grant plainEnv rfl run hnew hm
  exact ⟨p, m, task, htask, run, hm, hrole, hgrants⟩

end SyncBoard.Workspace
