import SyncBoard.Lib.Positions
import SyncBoard.Workspace.ActiveInvitations

/-!
# One active invitation

The checks of `inviteMember` and its insertion are statements of their own, and other calls
come in between. A run keeps to one active invitation for an address, and invites no member,
exactly where between the checks of a call and its insertion nobody with the address joins
and no other invitation for it is inserted that is still active.

## Implementation notes

The pool is run with a clock, which each statement may set forward, and with a trace of the
statements that have been answered. No statement reads the trace.
-/

namespace SyncBoard.Workspace

open Relational Fallible Interleaved Interleaved.Program Labelled Positional

/-- A statement of a call, with its answer. -/
abbrev Answered := Nat × Σ op, Answer op

/-- The invitations under calls that interleave, the time of the last statement, and all
statements in their order. -/
structure TracedPool where
  pool : InvitationPool
  now : Timestamp
  trace : List Answered := []

/-- The last answer that a call has got. -/
def lastAnswer (p : InvitationPool) (i : Nat) : Option Answered :=
  (p.tasks[i]?.bind fun task => task.log.getLast?).map (i, ·)

/-- A move of the pool. The clock does not run backwards between two statements. -/
def TracedPool.step (platform : Platform) (s : TracedPool) (m : Move InvitationCall Outside) :
    Option TracedPool :=
  match m with
  | .start call =>
      (s.pool.step answer (InvitationCall.run platform) (.start call)).map fun p =>
        { s with pool := p }
  | .resume i x =>
      if s.now ≤ x.now then
        (s.pool.step answer (InvitationCall.run platform) (.resume i x)).map fun p =>
          ⟨p, x.now, s.trace ++ (lastAnswer p i).toList⟩
      else none

/-- The check of call `i` has found no membership of the user. -/
def foundNoMember (i : Nat) (workspaceId userId : Uuid) : Answered :=
  (i, ⟨.findMember workspaceId userId, none⟩)

/-- An acceptance has made the user a member. -/
def joined (i : Nat) (invitation : WorkspaceInvitation) (userId : Uuid)
    (member : WorkspaceMember) : Answered :=
  (i, ⟨.accept invitation userId, .ok member⟩)

/-- The check of call `i` has found no active invitation for the address. -/
def foundNoInvitation (i : Nat) (workspaceId : Uuid) (email : JsString) : Answered :=
  (i, ⟨.findPendingByEmailAndWorkspace email workspaceId, none⟩)

/-- An invitation has been inserted. -/
def inserted (i : Nat) (data : WorkspaceInvitationRow) (invitation : WorkspaceInvitation) :
    Answered :=
  (i, ⟨.createInvitation data, .ok invitation⟩)

/-- A call that can insert its invitation has not been overtaken: since it looked for the
membership, the user with the address has not joined the workspace, and since it looked for
an invitation, none has been inserted for the address that is active still. The second part
matters only if the new invitation has not expired already. -/
def Undisturbed (s : TracedPool) : Move InvitationCall Outside → Prop
  | .start _ => True
  | .resume i x => ∀ task data next, s.pool.Asks i task (.createInvitation data) next →
      CanCreate x s.pool.store.db.toTables data →
        (∀ userId user j invitation member,
          s.pool.store.db.users.get? userId = some user → user.email = data.email →
            invitation.row.workspaceId = data.workspaceId →
              ¬ [foundNoMember i data.workspaceId userId,
                  joined j invitation userId member].Sublist s.trace) ∧
        (x.now < data.expiresAt → ∀ j other invitation,
          [foundNoInvitation i data.workspaceId data.email,
              inserted j other invitation].Sublist s.trace →
            activeKey x.now invitation.id s.pool.store.db.toTables ≠
              some (data.workspaceId, data.email))

/-- An insertion comes after the checks of its call. -/
def ChecksFirst (log : Log Answer) : Statement → Prop
  | .createInvitation data =>
      (∃ user, ⟨.findUserSummaryByEmail data.email, user⟩ ∈ log ∧
        ∀ existing, user = some existing →
          ⟨.findMember data.workspaceId existing.id, none⟩ ∈ log) ∧
      ⟨.findPendingByEmailAndWorkspace data.email data.workspaceId, none⟩ ∈ log
  | _ => True

section Calls
variable {platform : Platform} {log : Log Answer} {w : World}

/-- What a call may ask. -/
abbrev AsksChecked {α : Type} (p : Service α) (log : Log Answer) (w : World) : Prop :=
  p.Safe answer (fun _ _ => True) (fun _ => True)
    (fun _ log op => SendsOrSettles op ∧ ChecksFirst log op) log w fun _ _ _ => True

/-- A statement that needs no checks. -/
def Unchecked (op : Statement) : Prop :=
  SendsOrSettles op ∧ ∀ log, ChecksFirst log op

theorem asksChecked_of_only {α : Type} {p : Service α} (hp : p.Only Unchecked) :
    AsksChecked p log w :=
  Safe.of_only (fun _ log _ hop => ⟨hop.1, hop.2 log⟩) hp fun _ _ _ _ => trivial

/-- The check for a member finds none. -/
theorem safe_refuseMember {ws : Uuid} {user : Option User} :
    (InvitationService.refuseMember ws user).Safe answer (fun _ _ => True) (fun _ => True)
      (fun _ log op => SendsOrSettles op ∧ ChecksFirst log op) log w fun _ log' _ =>
        log <+: log' ∧ ∀ existing, user = some existing →
          ⟨.findMember ws existing.id, none⟩ ∈ log' := by
  cases user with
  | none => exact (safe_pure _).mpr ⟨List.prefix_refl log, fun existing h => by cases h⟩
  | some user =>
      refine safe_ask_bind.mpr fun t _ _ => ⟨⟨trivial, trivial⟩, fun x => ?_⟩
      refine safe_refuseIf.mpr fun hnone => ⟨List.prefix_append _ _, fun existing h => ?_⟩
      obtain rfl := Option.some.inj h
      have hfound : (answer x (.findMember ws user.id) t).1 = none := by simpa using hnone
      rw [hfound]
      exact List.mem_append_right log (List.mem_singleton_self _)

/-- An invitation is sent after the checks. -/
theorem asksChecked_inviteMember {ws invitedBy : Uuid} {dto : InviteMemberDto} :
    AsksChecked (InvitationService.inviteMember platform ws dto invitedBy) log w := by
  have hworkspace : (MembershipService.requireWorkspace ws).Only Unchecked :=
    (Only.ask ⟨trivial, fun _ => trivial⟩).bind fun _ => (Only.demand _ _).bind fun _ =>
      Only.pure _
  refine safe_bind.mpr (Safe.of_only (fun _ log _ hop => ⟨hop.1, hop.2 log⟩) hworkspace
    fun _ log w _ => ?_)
  refine safe_ask_bind.mpr fun w _ _ => ⟨⟨trivial, trivial⟩, fun x => ?_⟩
  refine safe_refuseIf_bind.mpr fun _ => ?_
  refine safe_ask_bind.mpr fun w _ _ => ⟨⟨trivial, trivial⟩, fun x => ?_⟩
  generalize (answer x (.findUserSummaryByEmail dto.email) w).1 = user
  refine safe_bind.mpr (safe_refuseMember.imp ?_)
  rintro - log' t ⟨hlog, hmember⟩
  refine safe_ask_bind.mpr fun u _ _ => ⟨⟨trivial, trivial⟩, fun y => ?_⟩
  refine safe_refuseIf_bind.mpr fun hnone => ?_
  have hinvitation : (answer y (.findPendingByEmailAndWorkspace dto.email ws) u).1 = none := by
    simpa using hnone
  rw [hinvitation]
  refine safe_ask_bind.mpr fun u _ _ => ⟨⟨trivial, trivial⟩, fun y => ?_⟩
  refine safe_ask_bind.mpr fun u _ _ => ⟨⟨trivial, trivial⟩, fun y => ?_⟩
  refine safe_ask_bind.mpr fun u _ _ => ⟨⟨rfl, ?_⟩, fun y => ?_⟩
  · refine ⟨⟨user, ?_, fun existing hexisting => ?_⟩, ?_⟩
    · have huser : ⟨.findUserSummaryByEmail dto.email, user⟩ ∈ log' :=
        List.IsPrefix.subset hlog (List.mem_append_right _ (List.mem_singleton_self _))
      simp [huser]
    · simp [hmember existing hexisting]
    · simp
  · refine asksChecked_of_only (Only.bind (Only.orThrow _ _) fun invitation => ?_)
    refine (Only.ask ⟨trivial, fun _ => trivial⟩).bind fun _ => ?_
    exact (only_getProfile ⟨trivial, fun _ => trivial⟩).bind fun _ => Only.pure _

theorem Accepts.unchecked (op : Statement) (h : Accepts op) : Unchecked op := by
  cases op with
  | createInvitation | updateStatus => cases h
  | _ => first | exact ⟨trivial, fun _ => trivial⟩ | cases h

theorem Revokes.unchecked (op : Statement) (h : Revokes op) : Unchecked op := by
  cases op with
  | updateStatus => exact ⟨h, fun _ => trivial⟩
  | _ => first | exact ⟨trivial, fun _ => trivial⟩ | cases h

/-- What the calls ask of each other: nothing. -/
def checkingDiscipline (platform : Platform) :
    Discipline answer (InvitationCall.run platform) where
  later _ _ := True
  inv _ := True
  allowed _ _ log op := SendsOrSettles op ∧ ChecksFirst log op
  post _ _ := True
  later_refl _ := trivial
  later_trans _ _ _ _ _ := trivial
  post_later _ _ _ _ _ := trivial
  kept _ _ _ _ _ _ _ := ⟨trivial, trivial⟩
  safe call w _ := by
    cases call with
    | inviteMember workspaceId dto invitedBy =>
        exact safe_bind.mpr (asksChecked_inviteMember.imp fun _ _ _ _ => (safe_pure _).mpr trivial)
    | acceptInvitation token userId =>
        exact asksChecked_of_only
          (only_ignoreResult (only_acceptInvitation.imp Accepts.unchecked))
    | revokeInvitation workspaceId invitationId =>
        exact asksChecked_of_only (only_revokeInvitation.imp Revokes.unchecked)

end Calls

section Statements
variable {x : Outside} {w : World} {op : Statement}

theorem members_answer (hop : SendsOrSettles op) (hother : ∀ invitation userId,
    op ≠ .accept invitation userId) : (answer x op w).2.db.members = w.db.members := by
  have heff := effect_answer x op w
  generalize (answer x op w).2.db.toTables = t' at heff
  cases heff with
  | accept => exact absurd rfl (hother _ _)
  | unchanged | createInvitation | updateStatus => rfl
  | _ => exact hop.elim

/-- An acceptance that succeeds makes one user a member. -/
theorem holds_accept {invitation : WorkspaceInvitation} {joining : Uuid} {member : WorkspaceMember}
    (h : (answer x (.accept invitation joining) w).1 = .ok member) {ws userId : Uuid} :
    Holds (fun _ => True) ws userId (answer x (.accept invitation joining) w).2.db.toTables ↔
      Holds (fun _ => True) ws userId w.db.toTables ∨
        (invitation.row.workspaceId, joining) = (ws, userId) := by
  obtain ⟨db', hr, hdb⟩ := write_ok h
  obtain ⟨hid, -, -, -, ht⟩ := accept_ok hr
  have hanswer : (answer x (.accept invitation joining) w).2.db = db' := hdb
  have hwrote : w.db.members.Wrote (answer x (.accept invitation joining) w).2.db.members x.newId
      (invitedMember x invitation joining) := by
    rw [hanswer, ht]
    exact w.db.members.wrote_insert hid
  constructor
  · rintro ⟨id, m, hm, hkey, -⟩
    rcases hwrote.eq_or_old hm with ⟨-, rfl⟩ | ⟨-, hold⟩
    · exact .inr hkey
    · exact .inl ⟨id, m, hold, hkey, trivial⟩
  · rintro (⟨id, m, hm, hkey, -⟩ | hkey)
    · have hne : id ≠ x.newId := by
        rintro rfl
        cases hid.symm.trans hm
      exact ⟨id, m, (hwrote.other hne).trans hm, hkey, trivial⟩
    · exact ⟨x.newId, _, hwrote.self, hkey, trivial⟩

/-- Nobody leaves, and who becomes a member does so by an acceptance. -/
theorem holds_answer_iff (hop : SendsOrSettles op) {ws userId : Uuid} :
    Holds (fun _ => True) ws userId (answer x op w).2.db.toTables ↔
      Holds (fun _ => True) ws userId w.db.toTables ∨
        ∃ invitation member, invitation.row.workspaceId = ws ∧
          (⟨op, (answer x op w).1⟩ : Σ op, Answer op) =
            ⟨.accept invitation userId, .ok member⟩ := by
  by_cases haccept : ∃ invitation joining, op = .accept invitation joining
  · obtain ⟨invitation, joining, rfl⟩ := haccept
    cases hanswer : (answer x (.accept invitation joining) w).1 with
    | error e =>
        have hsame : (answer x (.accept invitation joining) w).2 = w := write_error hanswer
        rw [hsame]
        simp
    | ok member =>
        rw [holds_accept hanswer]
        refine or_congr_right ?_
        constructor
        · intro hkey
          cases hkey
          exact ⟨invitation, member, rfl, rfl⟩
        · rintro ⟨invitation', member', rfl, hentry⟩
          cases hentry
          rfl
  · have hother : ∀ invitation joining, op ≠ .accept invitation joining :=
      fun invitation joining h => haccept ⟨invitation, joining, h⟩
    have hmembers : (answer x op w).2.db.members = w.db.members := members_answer hop hother
    rw [Holds, Holds, hmembers]
    refine (or_iff_left ?_).symm
    rintro ⟨invitation, member, -, hentry⟩
    exact hother invitation userId (Sigma.mk.inj hentry).1

/-- What becomes active is inserted. -/
theorem activeKey_answer (hop : SendsOrSettles op) {id : Uuid} {key : Uuid × JsString}
    (h : activeKey x.now id (answer x op w).2.db.toTables = some key) :
    activeKey x.now id w.db.toTables = some key ∨
      ∃ data invitation, invitation.id = id ∧
        (⟨op, (answer x op w).1⟩ : Σ op, Answer op) =
          ⟨.createInvitation data, .ok invitation⟩ := by
  by_cases hcreate : ∃ data, op = .createInvitation data
  · obtain ⟨data, rfl⟩ := hcreate
    cases hanswer : (answer x (.createInvitation data) w).1 with
    | error e =>
        have hsame : (answer x (.createInvitation data) w).2 = w := write_error hanswer
        rw [hsame] at h
        exact .inl h
    | ok invitation =>
        have hwrote := wrote_createInvitation (createInvitation_ok_iff.mp ⟨invitation, hanswer⟩)
        by_cases hid : id = x.newId
        · subst hid
          exact .inr ⟨data, invitation, id_of_createInvitation hanswer, rfl⟩
        · rw [activeKey, hwrote.other hid] at h
          exact .inl h
  · exact .inl (activeKey_others hop (fun data hdata => hcreate ⟨data, hdata⟩) h)

end Statements

/-- What the statements that have been answered say about the store. -/
structure Recorded (trace : List Answered) (now : Nat) (w : World) : Prop where
  users : ∀ i email user, (i, ⟨.findUserSummaryByEmail email, user⟩) ∈ trace →
    UserRepository.findUserSummaryByEmail w.db email = user
  joins : ∀ i invitation userId member, joined i invitation userId member ∈ trace →
    Holds (fun _ => True) invitation.row.workspaceId userId w.db.toTables
  members : ∀ i ws userId, foundNoMember i ws userId ∈ trace →
    Holds (fun _ => True) ws userId w.db.toTables →
      ∃ j invitation member, invitation.row.workspaceId = ws ∧
        [foundNoMember i ws userId, joined j invitation userId member].Sublist trace
  invitations : ∀ i ws email id, foundNoInvitation i ws email ∈ trace →
    activeKey now id w.db.toTables = some (ws, email) →
      ∃ j data invitation, invitation.id = id ∧
        [foundNoInvitation i ws email, inserted j data invitation].Sublist trace

section Recorded
variable {trace : List Answered} {now : Nat} {x : Outside} {w : World} {op : Statement}

theorem recorded_nil : Recorded [] now w where
  users _ _ _ h := by cases h
  joins _ _ _ _ h := by cases h
  members _ _ _ h := by cases h
  invitations _ _ _ _ h := by cases h

/-- What is last in the trace is the last answer. -/
theorem eq_of_answered {i j : Nat} {op' : Statement} {ans : Answer op'}
    (h : ((i, ⟨op', ans⟩) : Answered) = (j, ⟨op, (answer x op w).1⟩)) :
    op = op' ∧ (answer x op' w).1 = ans := by
  obtain ⟨rfl, hentry⟩ := Prod.mk.inj h
  obtain ⟨rfl, hans⟩ := Sigma.mk.inj hentry
  exact ⟨rfl, (eq_of_heq hans).symm⟩

/-- One answer. -/
theorem Recorded.concat (h : Recorded trace now w) (j : Nat) (hop : SendsOrSettles op)
    (hle : now ≤ x.now) :
    Recorded (trace ++ [(j, ⟨op, (answer x op w).1⟩)]) x.now (answer x op w).2 where
  users i email user hmem := by
    have hsame : UserRepository.findUserSummaryByEmail (answer x op w).2.db email =
        UserRepository.findUserSummaryByEmail w.db email := by
      rw [UserRepository.findUserSummaryByEmail, users_answer]
      rfl
    rw [hsame]
    rcases List.mem_append.mp hmem with hmem | hmem
    · exact h.users i email user hmem
    · exact (eq_of_answered (List.mem_singleton.mp hmem)).2
  joins i invitation userId member hmem := by
    rw [holds_answer_iff hop]
    rcases List.mem_append.mp hmem with hmem | hmem
    · exact .inl (h.joins i invitation userId member hmem)
    · have hentry := (Prod.mk.inj (List.mem_singleton.mp hmem)).2
      exact .inr ⟨invitation, member, rfl, hentry.symm⟩
  members i ws userId hmem hholds := by
    rcases List.mem_append.mp hmem with hmem | hmem
    · rcases (holds_answer_iff hop).mp hholds with hholds | ⟨invitation, member, hws, hentry⟩
      · obtain ⟨k, invitation, member, hws, hafter⟩ := h.members i ws userId hmem hholds
        exact ⟨k, invitation, member, hws, hafter.trans (List.sublist_append_left _ _)⟩
      · exact ⟨j, invitation, member, hws,
          pair_sublist_concat.mpr (.inr ⟨hmem, by rw [joined, hentry]⟩)⟩
    · -- the check has only read, and found nobody
      obtain ⟨rfl, hnone⟩ := eq_of_answered (List.mem_singleton.mp hmem)
      have hread : WorkspaceMemberRepository.findMember w.db ws userId = none := hnone
      have hsome := findMember_isSome_iff.mpr hholds
      exact absurd (hread ▸ hsome) (by decide)
  invitations i ws email id hmem hactive := by
    rcases List.mem_append.mp hmem with hmem | hmem
    · rcases activeKey_answer hop hactive with hactive | ⟨data, invitation, hid, hentry⟩
      · obtain ⟨k, data, invitation, hid, hafter⟩ :=
          h.invitations i ws email id hmem (activeKey_later hle hactive)
        exact ⟨k, data, invitation, hid, hafter.trans (List.sublist_append_left _ _)⟩
      · exact ⟨j, data, invitation, hid,
          pair_sublist_concat.mpr (.inr ⟨hmem, by rw [inserted, hentry]⟩)⟩
    · obtain ⟨rfl, hnone⟩ := eq_of_answered (List.mem_singleton.mp hmem)
      obtain ⟨row, hrow, hkey⟩ := activeKey_eq_some.mp hactive
      exact absurd hkey (findPendingByEmailAndWorkspace_eq_none_iff.mp hnone id row hrow)

end Recorded

section Traced
variable {platform : Platform} {s s' : TracedPool}

theorem lastAnswer_answered {p : InvitationPool} {i : Nat} {x : Outside}
    {task : Task Statement Answer AppError InvitationCall} {op : Statement}
    {next : Answer op → Service Unit} (h : p.Asks i task op next) :
    lastAnswer (p.answered answer i x task op next) i =
      some (i, ⟨op, (answer x op p.store).1⟩) := by
  have hlt : i < p.tasks.length := (List.getElem?_eq_some_iff.mp h.1).1
  rw [lastAnswer, Pool.answered, List.getElem?_set_self hlt, Option.bind_some,
    List.getLast?_concat, Option.map_some]

theorem tracedStep_start {call : InvitationCall} :
    s.step platform (.start call) = some s' ↔
      ∃ p, s.pool.step answer (InvitationCall.run platform) (.start call) = some p ∧
        { s with pool := p } = s' := by
  rw [TracedPool.step, Option.map_eq_some_iff]

theorem tracedStep_resume {i : Nat} {x : Outside} :
    s.step platform (.resume i x) = some s' ↔ s.now ≤ x.now ∧ ∃ task op next,
      s.pool.Asks i task op next ∧ ⟨s.pool.answered answer i x task op next, x.now,
        s.trace ++ [(i, ⟨op, (answer x op s.pool.store).1⟩)]⟩ = s' := by
  rw [TracedPool.step, Option.ite_none_right_eq_some, Option.map_eq_some_iff]
  refine and_congr_right fun _ => ?_
  constructor
  · rintro ⟨p, hp, rfl⟩
    obtain ⟨task, op, next, hasks, rfl⟩ := Pool.step_resume.mp hp
    exact ⟨task, op, next, hasks, by rw [lastAnswer_answered hasks, Option.toList_some]⟩
  · rintro ⟨task, op, next, hasks, rfl⟩
    refine ⟨_, Pool.step_resume.mpr ⟨task, op, next, hasks, rfl⟩, ?_⟩
    rw [lastAnswer_answered hasks, Option.toList_some]

/-- The trace holds what every call has read, and says what there is to say. -/
structure Traced (platform : Platform) (s : TracedPool) : Prop where
  disciplined : Disciplined (checkingDiscipline platform) s.pool
  logs : ∀ i task, s.pool.tasks[i]? = some task → ∀ entry ∈ task.log, (i, entry) ∈ s.trace
  recorded : Recorded s.trace s.now s.pool.store

theorem traced_initial (platform : Platform) (w : World) (now : Timestamp) :
    Traced platform ⟨{ store := w }, now, []⟩ where
  disciplined := Disciplined.initial trivial
  logs i task htask := by cases htask
  recorded := recorded_nil

theorem Traced.step (h : Traced platform s) {m : Move InvitationCall Outside}
    (hstep : s.step platform m = some s') : Traced platform s' := by
  cases m with
  | start call =>
      obtain ⟨p, hp, rfl⟩ := tracedStep_start.mp hstep
      refine ⟨h.disciplined.step hp, fun i task htask entry hentry => ?_, ?_⟩
      · exact h.logs i task (Pool.log_start hp htask hentry) entry hentry
      · obtain rfl := Pool.step_start.mp hp
        exact h.recorded
  | resume i x =>
      obtain ⟨hle, task, op, next, hasks, rfl⟩ := tracedStep_resume.mp hstep
      have hp : s.pool.step answer (InvitationCall.run platform) (.resume i x) =
          some (s.pool.answered answer i x task op next) :=
        Pool.step_resume.mpr ⟨task, op, next, hasks, rfl⟩
      refine ⟨h.disciplined.step hp, fun j task' htask' entry hentry => ?_, ?_⟩
      · rcases hasks.log_cases htask' hentry with ⟨old, hold, hentry⟩ | ⟨rfl, rfl⟩
        · exact List.mem_append_left _ (h.logs j old hold entry hentry)
        · exact List.mem_append_right _ (List.mem_singleton_self _)
      · exact h.recorded.concat i (h.disciplined.allowed hasks).1 hle

/-- The checks of a call stand exactly as long as nothing has overtaken it. -/
theorem checksStand_iff_undisturbed (h : Traced platform s) {i : Nat} {x : Outside}
    (hle : s.now ≤ x.now) {task : Task Statement Answer AppError InvitationCall}
    {data : WorkspaceInvitationRow} {next : Answer (.createInvitation data) → Service Unit}
    (hasks : s.pool.Asks i task (.createInvitation data) next) :
    ChecksStand x s.pool.store (.createInvitation data) ↔ Undisturbed s (.resume i x) := by
  constructor
  · intro hstand task' data' next' hasks' hcan
    obtain ⟨-, hop⟩ := hasks.unique hasks'
    cases hop
    obtain ⟨hmember, hpending⟩ := hstand hcan
    constructor
    · intro userId user j invitation member huser hemail hws hafter
      have hholds := h.recorded.joins j invitation userId member (hafter.subset (by simp))
      have htrue := isMember_iff.mpr ⟨userId, user, huser, hemail, hws ▸ hholds⟩
      cases hmember.symm.trans htrue
    · intro hlt j other invitation _ hactive
      obtain ⟨row, hrow, hkey⟩ := activeKey_eq_some.mp hactive
      exact findPendingByEmailAndWorkspace_eq_none_iff.mp (hpending hlt) _ row hrow hkey
  · intro hundisturbed hcan
    obtain ⟨hjoined, hinserted⟩ := hundisturbed task data next hasks hcan
    obtain ⟨⟨user, huser, hfound⟩, hnone⟩ := (h.disciplined.allowed hasks).2
    have hlogs := h.logs i task hasks.1
    constructor
    · rw [← Bool.not_eq_true, isMember_iff]
      rintro ⟨userId, row, hget, hemail, hholds⟩
      have hread := h.recorded.users i data.email user (hlogs _ huser)
      have hexisting : user = some ⟨userId, row⟩ :=
        hread.symm.trans (findUserSummaryByEmail_eq_some_iff.mpr ⟨hget, hemail⟩)
      obtain ⟨j, invitation, member, hws, hafter⟩ :=
        h.recorded.members i data.workspaceId userId (hlogs _ (hfound _ hexisting)) hholds
      exact hjoined userId row j invitation member hget hemail hws hafter
    · intro hlt
      rw [findPendingByEmailAndWorkspace_eq_none_iff]
      intro id row hrow hkey
      have hactive : activeKey x.now id s.pool.store.db.toTables =
          some (data.workspaceId, data.email) := activeKey_eq_some.mpr ⟨row, hrow, hkey⟩
      obtain ⟨j, other, invitation, rfl, hafter⟩ := h.recorded.invitations i data.workspaceId
        data.email id (hlogs _ hnone) (activeKey_later hle hactive)
      exact hinserted hlt j other invitation hafter hactive

/-- One move keeps the property exactly where it is undisturbed. -/
theorem oneActive_move (ht : Traced platform s) (h : OneActive s.now s.pool.store.db.toTables)
    {m : Move InvitationCall Outside} (hstep : s.step platform m = some s') :
    OneActive s'.now s'.pool.store.db.toTables ∧
        s.pool.OnStatement (fun _ x w _ op => InvitesNoMember x w op) m ↔
      Undisturbed s m := by
  cases m with
  | start call =>
      obtain ⟨p, hp, rfl⟩ := tracedStep_start.mp hstep
      obtain rfl := Pool.step_start.mp hp
      exact iff_of_true ⟨h, trivial⟩ trivial
  | resume i x =>
      obtain ⟨hle, task, op, next, hasks, rfl⟩ := tracedStep_resume.mp hstep
      rw [Pool.onStatement_of_asks hasks]
      obtain ⟨hop, -⟩ := ht.disciplined.allowed hasks
      refine (checksStand_iff hop (h.mono fun _ _ => activeKey_later hle)).trans ?_
      by_cases hcreate : ∃ data, op = .createInvitation data
      · obtain ⟨data, rfl⟩ := hcreate
        exact checksStand_iff_undisturbed ht hle hasks
      · have hstand : ChecksStand x s.pool.store op := by
          cases op with
          | createInvitation data => exact absurd ⟨data, rfl⟩ hcreate
          | _ => trivial
        refine iff_of_true hstand fun task' data next' hasks' => ?_
        exact absurd ⟨data, (hasks.unique hasks').2⟩ hcreate

end Traced

/-- In a pool of invitations, acceptances and revocations that interleave, a
workspace never has two active invitations for one address, and none is made for a
member, exactly when no insertion has been overtaken since the checks of its call. -/
theorem oneInvitation_iff (platform : Platform) (w : World) (now : Timestamp)
    (hstart : OneActive now w.db.toTables) {ms : List (Move InvitationCall Outside)}
    {s : TracedPool} (run : Run (TracedPool.step platform) ⟨{ store := w }, now, []⟩ ms s) :
    AllStates (TracedPool.step platform)
          (fun s => OneActive s.now s.pool.store.db.toTables) ⟨{ store := w }, now, []⟩ ms ∧
        AllSteps (TracedPool.step platform)
          (fun s => s.pool.OnStatement fun _ x w _ op => InvitesNoMember x w op)
          ⟨{ store := w }, now, []⟩ ms ↔
      AllSteps (TracedPool.step platform) Undisturbed ⟨{ store := w }, now, []⟩ ms := by
  apply allStates_and_allSteps_iff (I := Traced platform)
  · intro s m s' ht hstep
    exact ht.step hstep
  · intro s m s' ht hactive hstep
    exact oneActive_move ht hactive hstep
  · exact run
  · exact traced_initial platform w now
  · exact hstart

/-- One row of invitations is no two. -/
theorem oneInvitation_active : OneActive 5 oneInvitation.toTables := by
  intro j k q r x hq hr _ _
  have hrows : ∀ i row, oneInvitation.invitations.get? i = some row → i = 21 := by
    intro i row hrow
    have hmem := (oneInvitation.invitations.mem_rows_iff i row).mpr hrow
    exact congrArg Prod.fst (List.mem_singleton.mp hmem)
  rw [hrows j q hq, hrows k r hr]

/-- User 1 invites an address that nobody has. -/
def invitesAddress : Move InvitationCall Outside :=
  .start (.inviteMember 1 { email := js "c@b.io", role := .member } 1)

def answersFirst : Move InvitationCall Outside :=
  .resume 0 { newId := 31, now := 5, bytes := js "p" }

def answersSecond : Move InvitationCall Outside :=
  .resume 1 { newId := 32, now := 5, bytes := js "q" }

/-- The address is invited, and then once more, which is refused. -/
def invitedAgain : List (Move InvitationCall Outside) :=
  [invitesAddress] ++ List.replicate 9 answersFirst ++ [invitesAddress] ++
    List.replicate 4 answersSecond

theorem oneInvitation_iff_invitedAgain :
    AllSteps (TracedPool.step plainEnv.platform) Undisturbed
      ⟨{ store := { db := oneInvitation } }, 5, []⟩ invitedAgain := by
  have hexec : (exec (TracedPool.step plainEnv.platform)
      ⟨{ store := { db := oneInvitation } }, 5, []⟩ invitedAgain).isSome = true := by
    decide +kernel
  obtain ⟨s, hs⟩ := Option.isSome_iff_exists.mp hexec
  refine (oneInvitation_iff plainEnv.platform { db := oneInvitation } 5 oneInvitation_active
    (run_of_exec hs)).mp ⟨?_, ?_⟩
  · unfold OneActive
    decide +kernel
  · decide +kernel

/-- Two calls for one address read before either of them inserts. -/
def invitedTwice : List (Move InvitationCall Outside) :=
  [invitesAddress, invitesAddress] ++ List.replicate 6 answersFirst ++
    List.replicate 6 answersSecond ++ [answersFirst, answersSecond]

/-- An address can get two active invitations. -/
theorem invitedTwice_twoActive :
    ¬ ∀ (platform : Platform) (w : World) (now : Timestamp),
      OneActive now w.db.toTables → ∀ (ms : List (Move InvitationCall Outside)) (s : TracedPool),
        Run (TracedPool.step platform) ⟨{ store := w }, now, []⟩ ms s →
          AllStates (TracedPool.step platform)
              (fun s => OneActive s.now s.pool.store.db.toTables) ⟨{ store := w }, now, []⟩ ms ∧
            AllSteps (TracedPool.step platform)
              (fun s => s.pool.OnStatement fun _ x w _ op => InvitesNoMember x w op)
              ⟨{ store := w }, now, []⟩ ms := by
  intro hall
  have hexec : (exec (TracedPool.step plainEnv.platform)
      ⟨{ store := { db := oneInvitation } }, 5, []⟩ invitedTwice).map (fun s =>
        (s.now, activeKey s.now 31 s.pool.store.db.toTables,
          activeKey s.now 32 s.pool.store.db.toTables)) =
      some (5, some (1, js "c@b.io"), some (1, js "c@b.io")) := by
    decide +kernel
  obtain ⟨s, hs, hread⟩ := Option.map_eq_some_iff.mp hexec
  simp only [Prod.mk.injEq] at hread
  have run := run_of_exec hs
  have hactive : OneActive s.now s.pool.store.db.toTables :=
    (hall plainEnv.platform { db := oneInvitation } 5 oneInvitation_active invitedTwice s run).1
      invitedTwice s (List.prefix_refl _) run
  have hsame : (31 : Uuid) = 32 := hactive.same hread.2.1 hread.2.2
  exact absurd hsame (by decide)

end SyncBoard.Workspace
