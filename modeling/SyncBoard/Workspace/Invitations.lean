import SyncBoard.Workspace.CallRules

/-!
# The life of an invitation

An acceptance and a revocation read the status of the invitation and later write
it by id, whatever it is by then. The results compare what becomes of the status,
and of the memberships made from the invitation, with the status at the writes.

## Implementation notes

An acceptance is a transaction of `acceptInvitation` that commits. What a pool has
accepted and revoked is read off its calls: their logs, and which of them have
returned. The pools hold invitations as well, which only insert rows.
-/

namespace SyncBoard.Workspace

open Relational Fallible Interleaved Interleaved.Program Labelled

def statusOf (invitationId : Uuid) (t : Tables) : Option InvitationStatus :=
  (t.invitations.get? invitationId).map WorkspaceInvitationRow.status

/-- Not there yet, or pending. -/
def Open (invitationId : Uuid) (t : Tables) : Prop :=
  statusOf invitationId t = none ∨ statusOf invitationId t = some .pending

/-- Accepted or revoked. -/
def InvitationStatus.terminal : InvitationStatus → Bool
  | accepted | revoked => true
  | pending | expired => false

/-- What the transaction of `acceptInvitation` needs in order to commit. -/
structure CanAccept (x : Outside) (t : Tables) (invitation : WorkspaceInvitation)
    (userId : Uuid) : Prop where
  fresh : t.members.get? x.newId = none
  key : t.members.All fun _ other => other.key ≠ (invitation.row.workspaceId, userId)
  accepted : (invitedMember x invitation userId).Accepted t
  known : t.invitations.contains invitation.id = true

section Statements
variable {x : Outside} {w : World} {invitationId : Uuid} {t t' : Tables} {op : Statement}

theorem accept_ok_iff {invitation : WorkspaceInvitation} {userId : Uuid} :
    (∃ member, (answer x (.accept invitation userId) w).1 = .ok member) ↔
      CanAccept x w.db.toTables invitation userId := by
  constructor
  · rintro ⟨member, h⟩
    obtain ⟨db', hr, -⟩ := write_ok h
    obtain ⟨hid, hkey, haccepted, hknown, -⟩ := accept_ok hr
    exact ⟨hid, hkey, haccepted, hknown⟩
  · intro h
    obtain ⟨row, hrow⟩ := (Table.contains_iff _ _).mp h.known
    have hkey : w.db.members.All fun _ other =>
        other.key ≠ (invitedMember x invitation userId).key := h.key
    obtain ⟨⟨t₁, wf₁⟩, h₁, rfl⟩ := insertMember_of_accepted h.fresh hkey h.accepted
    obtain ⟨i, db₂, h₂⟩ : ∃ i db₂, WorkspaceInvitationRepository.updateStatus
        ⟨w.db.toTables.addMember x.newId _ h.fresh, wf₁⟩ invitation.id .accepted (some x.now) =
          .ok (i, db₂) := by
      unfold WorkspaceInvitationRepository.updateStatus
      simp only [Tables.addMember, hrow]
      exact ⟨_, _, rfl⟩
    have hr : WorkspaceInvitationRepository.accept w.db x.newId invitation userId x.now =
        .ok (⟨x.newId, invitedMember x invitation userId⟩, db₂) :=
      bind_eq_ok.mpr ⟨_, h₁, bind_eq_ok.mpr ⟨_, h₂, rfl⟩⟩
    refine ⟨⟨x.newId, invitedMember x invitation userId⟩, ?_⟩
    simp only [answer, hr, World.write]

theorem answer_accept_ok {invitation : WorkspaceInvitation} {userId : Uuid}
    {member : WorkspaceMember} (h : (answer x (.accept invitation userId) w).1 = .ok member) :
    (answer x (.accept invitation userId) w).2.db.invitations =
      (w.db.toTables.setStatus invitation.id .accepted (some x.now)).invitations := by
  obtain ⟨db', hr, hdb⟩ := write_ok h
  obtain ⟨hid, -, -, -, ht⟩ := accept_ok hr
  have hanswer : (answer x (.accept invitation userId) w).2.db = db' := hdb
  rw [hanswer, ht]
  rfl

theorem answer_updateStatus_ok {status : InvitationStatus} {i : WorkspaceInvitation}
    (h : (answer x (.updateStatus invitationId status) w).1 = .ok i) :
    (answer x (.updateStatus invitationId status) w).2.db.toTables =
      w.db.toTables.setStatus invitationId status none := by
  obtain ⟨db', hr, hdb⟩ := write_ok h
  obtain ⟨i', -, ht⟩ := updateStatus_ok hr
  have hanswer : (answer x (.updateStatus invitationId status) w).2.db = db' := hdb
  rw [hanswer, ht]

theorem statusOf_setStatus {id : Uuid} {status : InvitationStatus}
    {acceptedAt : Option Timestamp} :
    statusOf invitationId (t.setStatus id status acceptedAt) =
      if invitationId = id then (statusOf invitationId t).map fun _ => status
      else statusOf invitationId t := by
  simp only [statusOf, Tables.setStatus]
  rw [Table.get?_modify]
  split_ifs
  · rw [Option.map_map, Option.map_map]
    rfl
  · rfl

/-- A statement that can be asked when the calls start from certain tables: an
invitation is accepted that has been read as pending, and one that is not is set
to revoked only. -/
def Lawful (invitationId : Uuid) (start : Tables) : Statement → Prop
  | .accept invitation _ => invitation.id = invitationId → Open invitationId start
  | .updateStatus _ status => status = .revoked
  | .createInvitation data => data.status = .pending
  | _ => True

/-- What a lawful statement can make of the status. -/
theorem statusOf_effect {start : Tables} (heff : Effect x t op t')
    (hop : Lawful invitationId start op) :
    statusOf invitationId t' = statusOf invitationId t ∨
      (statusOf invitationId t = none ∧ statusOf invitationId t' = some .pending) ∨
      (statusOf invitationId t' = some .revoked ∧ op = .updateStatus invitationId .revoked) ∨
      (statusOf invitationId t' = some .accepted ∧
        ∃ invitation userId, op = .accept invitation userId ∧ invitation.id = invitationId) := by
  cases heff with
  | @createInvitation data hid =>
      by_cases hi : invitationId = x.newId
      · subst hi
        refine .inr (.inl ⟨?_, ?_⟩)
        · rw [statusOf, hid, Option.map_none]
        · rw [statusOf, Table.get?_insert, if_pos rfl, Option.map_some, hop]
      · left
        rw [statusOf, Table.get?_insert, if_neg hi]
        rfl
  | @updateStatus id status =>
      obtain rfl : status = .revoked := hop
      rw [statusOf_setStatus]
      split_ifs with hi
      · subst hi
        cases statusOf invitationId t with
        | none => exact .inl rfl
        | some status => exact .inr (.inr (.inl ⟨rfl, rfl⟩))
      · exact .inl rfl
  | @accept invitation userId hid hkey =>
      rw [statusOf_setStatus]
      split_ifs with hi
      · have hsame : statusOf invitationId (t.addMember x.newId
          (invitedMember x invitation userId) hid) = statusOf invitationId t := rfl
        rw [hsame]
        cases statusOf invitationId t with
        | none => exact .inl rfl
        | some status => exact .inr (.inr (.inr ⟨rfl, invitation, userId, rfl, hi.symm⟩))
      · exact .inl rfl
  | _ => exact .inl rfl

theorem statusOf_revoke (heff : Effect x t (.updateStatus invitationId .revoked) t') :
    statusOf invitationId t' = (statusOf invitationId t).map fun _ => .revoked := by
  cases heff with
  | unchanged happlies =>
      have hnone : t.invitations.get? invitationId = none := by
        simpa [Statement.Applies, Table.contains] using happlies
      rw [statusOf, hnone, Option.map_none, Option.map_none]
  | updateStatus => rw [statusOf_setStatus, if_pos rfl]

theorem not_open_accepted (h : statusOf invitationId t = some .accepted) :
    ¬ Open invitationId t := by
  rintro (hs | hs)
  · cases h.symm.trans hs
  · cases h.symm.trans hs

theorem not_open_revoked (h : statusOf invitationId t = some .revoked) :
    ¬ Open invitationId t := by
  rintro (hs | hs)
  · cases h.symm.trans hs
  · cases h.symm.trans hs

/-- What is settled stays settled. -/
theorem open_effect {start : Tables} (heff : Effect x t op t')
    (hop : Lawful invitationId start op) (h : Open invitationId t') : Open invitationId t := by
  rcases statusOf_effect heff hop with hs | ⟨hs, -⟩ | ⟨hs, -⟩ | ⟨hs, -⟩
  · rcases h with h | h
    · exact .inl (hs.symm.trans h)
    · exact .inr (hs.symm.trans h)
  · exact .inl hs
  · exact absurd h (not_open_revoked hs)
  · exact absurd h (not_open_accepted hs)

end Statements

section Calls
variable {platform : Platform} {invitationId ws userId : Uuid} {start : Tables} {w : World}
  {log : Log Answer}

/-- The invitation is open only if it was at the start, and has not expired since. -/
structure Dated (invitationId : Uuid) (start t : Tables) : Prop where
  opened : Open invitationId t → Open invitationId start
  expired : statusOf invitationId t = some .expired → ¬ Open invitationId start

theorem Dated.refl (t : Tables) : Dated invitationId t t :=
  ⟨id, fun h hopen => by rcases hopen with hs | hs <;> cases h.symm.trans hs⟩

theorem Dated.effect {x : Outside} {t t' : Tables} {op : Statement}
    (h : Dated invitationId start t) (heff : Effect x t op t')
    (hop : Lawful invitationId start op) : Dated invitationId start t' := by
  refine ⟨fun hopen => h.opened (open_effect heff hop hopen), fun hexpired => ?_⟩
  rcases statusOf_effect heff hop with hs | ⟨-, hs⟩ | ⟨hs, -⟩ | ⟨hs, -⟩
  · exact h.expired (hs.symm.trans hexpired)
  · cases hs.symm.trans hexpired
  · cases hs.symm.trans hexpired
  · cases hs.symm.trans hexpired

/-- A program of which each statement is lawful, whatever the other calls do. -/
abbrev AsksLawfully (invitationId : Uuid) (start : Tables) {α : Type} (p : Service α)
    (log : Log Answer) (w : World) (post : α → Log Answer → World → Prop) : Prop :=
  p.Safe answer (fun s t => Open invitationId t.db.toTables → Open invitationId s.db.toTables)
    (fun w => Dated invitationId start w.db.toTables)
    (fun _ _ op => Lawful invitationId start op) log w post

theorem asksLawfully_of_only {α : Type} {p : Service α}
    (hp : p.Only (Lawful invitationId start)) :
    AsksLawfully invitationId start p log w fun _ _ _ => True :=
  Safe.of_only (fun _ _ _ hop => hop) hp fun _ _ _ _ => trivial

theorem Invites.lawful (op : Statement) (h : Invites op) : Lawful invitationId start op := by
  cases op with
  | createInvitation data => exact h
  | _ => trivial

/-- An invitation that is accepted has been read as pending. -/
theorem asksLawfully_acceptInvitation {token : JsString} :
    AsksLawfully invitationId start (InvitationService.acceptInvitation platform token userId)
      log w fun _ _ _ => True := by
  refine safe_ask_bind.mpr fun w₁ _ hdated => ⟨trivial, fun x₁ => ?_⟩
  refine safe_ask_bind.mpr fun w₂ _ _ => ⟨trivial, fun x₂ => ?_⟩
  refine safe_demand_bind.mpr fun invitation hinvitation => asksLawfully_of_only ?_
  obtain ⟨hread, hpending⟩ := Option.filter_eq_some_iff.mp hinvitation
  obtain ⟨p, hp, rfl⟩ := Option.map_eq_some_iff.mp hread
  obtain ⟨hget, -⟩ := Table.find?_eq_some hp
  rw [Bool.and_eq_true, beq_iff_eq] at hpending
  have hopen : p.1 = invitationId → Open invitationId start := by
    rintro rfl
    refine hdated.opened (.inr ?_)
    rw [statusOf, hget, Option.map_some, hpending.1]
  refine (Only.ask trivial).bind fun workspace => (Only.demand _ _).bind fun _ => ?_
  refine (only_getProfile trivial).bind fun userProfile => (Only.refuseIf _ _).bind fun _ => ?_
  refine (Only.ask trivial).bind fun existingMember => (Only.refuseIf _ _).bind fun _ => ?_
  refine (only_write (Only.ask hopen)).bind fun member => ?_
  exact (Only.ask trivial).bind fun _ => Only.pure _

/-- A revocation that returns has settled the invitation. -/
theorem asksLawfully_revokeInvitation {id : Uuid} :
    AsksLawfully invitationId start (InvitationService.revokeInvitation ws id) log w
      fun _ _ w => id = invitationId → ¬ Open invitationId w.db.toTables := by
  refine safe_ask_bind.mpr fun w₁ _ _ => ⟨trivial, fun x₁ => ?_⟩
  refine safe_demand_bind.mpr fun invitation _ => ?_
  refine safe_bind.mpr (safe_ask_bind.mpr fun w₂ _ _ => ⟨rfl, fun x₂ => ?_⟩)
  refine safe_orThrow.mpr fun i hi => ?_
  rintro rfl
  have ht := answer_updateStatus_ok hi
  obtain ⟨db', hr, -⟩ := write_ok hi
  obtain ⟨row, hrow, -⟩ := updateStatus_ok hr
  apply not_open_revoked
  rw [ht, statusOf_setStatus, if_pos rfl, statusOf, hrow]
  rfl

end Calls

/-- What the calls rely on for one invitation: what is settled stays settled, and
who accepts it has read it as pending. -/
def invitationDiscipline (platform : Platform) (invitationId : Uuid) (start : Tables) :
    Discipline answer (InvitationCall.run platform) where
  later s t := Open invitationId t.db.toTables → Open invitationId s.db.toTables
  inv w := Dated invitationId start w.db.toTables
  allowed _ _ _ op := Lawful invitationId start op
  post c w := ∀ ws, c = .revokeInvitation ws invitationId → ¬ Open invitationId w.db.toTables
  later_refl _ := id
  later_trans _ _ _ hrs hst := fun ht => hrs (hst ht)
  post_later c s t hst hs := fun ws hc ht => hs ws hc (hst ht)
  kept _ x op _ w hw hop :=
    ⟨open_effect (effect_answer x op w) hop, hw.effect (effect_answer x op w) hop⟩
  safe c w _ := by
    cases c with
    | inviteMember workspaceId dto invitedBy =>
        refine Safe.imp (asksLawfully_of_only (only_ignoreResult ?_)) fun _ _ _ _ => nofun
        exact only_inviteMember.imp Invites.lawful
    | acceptInvitation token userId =>
        exact safe_bind.mpr (asksLawfully_acceptInvitation.imp fun _ _ _ _ => nofun)
    | revokeInvitation workspaceId id =>
        refine asksLawfully_revokeInvitation.imp fun _ _ w hw ws hc => hw ?_
        exact (InvitationCall.revokeInvitation.inj hc).2

/-- The invitations under calls that interleave. -/
abbrev InvitationPool := Pool Statement Answer AppError InvitationCall World

section Pools
variable (platform : Platform) (invitationId : Uuid)

/-- An acceptance of the invitation has committed. -/
def Accepted (p : InvitationPool) : Prop :=
  ∃ invitation userId member, invitation.id = invitationId ∧
    p.Logged ⟨.accept invitation userId, .ok member⟩

/-- A revocation of the invitation has completed. -/
def Revoked (p : InvitationPool) : Prop :=
  ∃ task ∈ p.tasks, ∃ workspaceId, task.call = .revokeInvitation workspaceId invitationId ∧
    task.rest = .done (.ok ())

/-- The statement makes a membership from the invitation. -/
def MakesMember (x : Outside) (w : World) (op : Statement) : Prop :=
  ∃ invitation userId, op = .accept invitation userId ∧ invitation.id = invitationId ∧
    ∃ member, (answer x (.accept invitation userId) w).1 = .ok member

/-- A move leaves a terminal status as it is, and makes a membership from the
invitation only where none has been made and no revocation has completed. -/
def Lifecycle (p : InvitationPool) (m : Move InvitationCall Outside) : Prop :=
  (∀ p', p.step answer (InvitationCall.run platform) m = some p' →
    ∀ status, status.terminal = true → statusOf invitationId p.store.db.toTables = some status →
      statusOf invitationId p'.store.db.toTables = some status) ∧
  p.OnStatement (fun _ x w _ op => MakesMember invitationId x w op →
    ¬ Accepted invitationId p ∧ ¬ Revoked invitationId p) m

/-- An acceptance that can commit finds the invitation pending at its write, and a
revocation does not find it accepted. -/
def StatusStands (x : Outside) (w : World) : Statement → Prop
  | .accept invitation userId => invitation.id = invitationId →
      CanAccept x w.db.toTables invitation userId →
        statusOf invitationId w.db.toTables = some .pending
  | .updateStatus id _ => id = invitationId →
      statusOf invitationId w.db.toTables ≠ some .accepted
  | _ => True

end Pools

section Moves
variable {platform : Platform} {invitationId : Uuid} {start : Tables} {p p' : InvitationPool}

/-- What a pool knows of the invitation: it has been accepted where its status
says so, and an acceptance settles it. -/
structure Tracked (invitationId : Uuid) (start : Tables) (p : InvitationPool) : Prop where
  logged : statusOf invitationId p.store.db.toTables = some .accepted →
    Open invitationId start → Accepted invitationId p
  settled : Accepted invitationId p → ¬ Open invitationId p.store.db.toTables

theorem tracked_start {w : World} :
    Tracked invitationId w.db.toTables ({ store := w } : InvitationPool) where
  logged := fun h hopen => absurd hopen (not_open_accepted h)
  settled := by
    rintro ⟨_, _, _, _, task, htask, _⟩
    cases htask

/-- An invitation that a membership has just been made from is accepted. -/
theorem MakesMember.accepted {x : Outside} {w : World} {op : Statement}
    (h : MakesMember invitationId x w op) :
    statusOf invitationId (answer x op w).2.db.toTables = some .accepted := by
  obtain ⟨invitation, userId, rfl, rfl, hok⟩ := h
  obtain ⟨row, hrow⟩ := (Table.contains_iff _ _).mp (accept_ok_iff.mp hok).known
  obtain ⟨member, hmember⟩ := hok
  rw [statusOf, answer_accept_ok hmember]
  refine (statusOf_setStatus.trans (if_pos rfl)).trans ?_
  rw [statusOf, hrow]
  rfl

/-- The status becomes accepted only where a membership is made. -/
theorem accepted_of_not_makes {x : Outside} {w : World} {op : Statement}
    (hop : Lawful invitationId start op) (hmakes : ¬ MakesMember invitationId x w op)
    (h : statusOf invitationId (answer x op w).2.db.toTables = some .accepted) :
    statusOf invitationId w.db.toTables = some .accepted := by
  rcases statusOf_effect (effect_answer x op w) hop with
    hs | ⟨-, hs⟩ | ⟨hs, -⟩ | ⟨-, invitation, userId, rfl, hid⟩
  · exact hs.symm.trans h
  · cases hs.symm.trans h
  · cases hs.symm.trans h
  · cases hanswer : (answer x (.accept invitation userId) w).1 with
    | ok member => exact absurd ⟨invitation, userId, rfl, hid, member, hanswer⟩ hmakes
    | error e =>
        have hsame : (answer x (.accept invitation userId) w).2 = w := write_error hanswer
        rwa [hsame] at h

theorem accepted_start {call : InvitationCall}
    (hstep : p.step answer (InvitationCall.run platform) (.start call) = some p') :
    Accepted invitationId p' ↔ Accepted invitationId p := by
  simp only [Accepted, Pool.logged_start hstep]

theorem accepted_answered {i : Nat} {x : Outside}
    {task : Task Statement Answer AppError InvitationCall} {op : Statement}
    {next : Answer op → Service Unit} (hasks : p.Asks i task op next) :
    Accepted invitationId (p.answered answer i x task op next) ↔
      Accepted invitationId p ∨ MakesMember invitationId x p.store op := by
  constructor
  · rintro ⟨invitation, userId, member, hid, hentry⟩
    rcases hasks.logged.mp hentry with hentry | hentry
    · exact .inl ⟨invitation, userId, member, hid, hentry⟩
    · obtain ⟨rfl, hanswer⟩ := Sigma.mk.inj hentry
      exact .inr ⟨invitation, userId, rfl, hid, member, (eq_of_heq hanswer).symm⟩
  · rintro (⟨invitation, userId, member, hid, hentry⟩ | ⟨invitation, userId, rfl, hid, member, hok⟩)
    · exact ⟨invitation, userId, member, hid, hasks.logged.mpr (.inl hentry)⟩
    · exact ⟨invitation, userId, member, hid, hasks.logged.mpr (.inr (by rw [hok]))⟩

theorem Tracked.step (h : Tracked invitationId start p)
    (hp : Disciplined (invitationDiscipline platform invitationId start) p)
    {m : Move InvitationCall Outside}
    (hstep : p.step answer (InvitationCall.run platform) m = some p') :
    Tracked invitationId start p' := by
  cases m with
  | start call =>
      have haccepted : Accepted invitationId p' ↔ Accepted invitationId p :=
        accepted_start hstep
      obtain rfl := Pool.step_start.mp hstep
      exact ⟨fun hs hopen => haccepted.mpr (h.logged hs hopen),
        fun ha => h.settled (haccepted.mp ha)⟩
  | resume i x =>
      obtain ⟨task, op, next, hasks, rfl⟩ := Pool.step_resume.mp hstep
      have hop : Lawful invitationId start op := hp.allowed hasks
      have heff := effect_answer x op p.store
      constructor
      · intro hstatus hopen
        rw [accepted_answered hasks]
        by_cases hmakes : MakesMember invitationId x p.store op
        · exact .inr hmakes
        · exact .inl (h.logged (accepted_of_not_makes hop hmakes hstatus) hopen)
      · intro haccepted hopen
        rcases (accepted_answered hasks).mp haccepted with haccepted | hmakes
        · exact h.settled haccepted (open_effect heff hop hopen)
        · exact not_open_accepted hmakes.accepted hopen

/-- A revocation that has completed has settled the invitation. -/
theorem Revoked.not_open
    (hp : Disciplined (invitationDiscipline platform invitationId start) p)
    (h : Revoked invitationId p) : ¬ Open invitationId p.store.db.toTables := by
  obtain ⟨task, htask, ws, hcall, hdone⟩ := h
  exact hp.post htask hdone ws hcall

/-- Without a membership made and without a revocation written, no terminal
status changes and the status stands. -/
theorem statusStands_of_others {x : Outside} {w : World} {op : Statement}
    (hop : Lawful invitationId start op) (hmakes : ¬ MakesMember invitationId x w op)
    (hrevokes : op ≠ .updateStatus invitationId .revoked) :
    (∀ status : InvitationStatus, status.terminal = true →
      statusOf invitationId w.db.toTables = some status →
        statusOf invitationId (answer x op w).2.db.toTables = some status) ∧
      StatusStands invitationId x w op := by
  constructor
  · intro status hterminal hstatus
    rcases statusOf_effect (effect_answer x op w) hop with
      hs | ⟨hs, -⟩ | ⟨-, hs⟩ | ⟨hs, -⟩
    · exact hs.trans hstatus
    · cases hs.symm.trans hstatus
    · exact absurd hs hrevokes
    · cases (accepted_of_not_makes hop hmakes hs).symm.trans hstatus
      exact hs
  · cases op with
    | accept invitation userId =>
        intro hid hcan
        exact absurd ⟨invitation, userId, rfl, hid, accept_ok_iff.mpr hcan⟩ hmakes
    | updateStatus id status =>
        rintro rfl
        obtain rfl : status = .revoked := hop
        exact absurd rfl hrevokes
    | _ => trivial

/-- One statement keeps the lifecycle exactly when the status stands. -/
theorem statusStands_iff (h : Tracked invitationId start p)
    (hp : Disciplined (invitationDiscipline platform invitationId start) p) {x : Outside}
    {op : Statement} (hop : Lawful invitationId start op) :
    ((∀ status : InvitationStatus, status.terminal = true →
        statusOf invitationId p.store.db.toTables = some status →
          statusOf invitationId (answer x op p.store).2.db.toTables = some status) ∧
      (MakesMember invitationId x p.store op →
        ¬ Accepted invitationId p ∧ ¬ Revoked invitationId p)) ↔
      StatusStands invitationId x p.store op := by
  by_cases hmakes : MakesMember invitationId x p.store op
  · have hafter := hmakes.accepted
    obtain ⟨invitation, userId, rfl, hid, hok⟩ := hmakes
    have hcan := accept_ok_iff.mp hok
    constructor
    · rintro ⟨hterminal, hfirst⟩ - -
      obtain ⟨hnot, -⟩ := hfirst ⟨invitation, userId, rfl, hid, hok⟩
      cases hstatus : statusOf invitationId p.store.db.toTables with
      | none =>
          obtain ⟨row, hrow⟩ := (Table.contains_iff _ _).mp hcan.known
          rw [statusOf, ← hid, hrow] at hstatus
          cases hstatus
      | some status =>
          cases status with
          | pending => rfl
          | accepted => exact absurd (h.logged hstatus (hop hid)) hnot
          | revoked => cases (hterminal .revoked rfl hstatus).symm.trans hafter
          | expired => exact absurd (hop hid) (hp.inv.expired hstatus)
    · intro hstands
      have hpending := hstands hid hcan
      refine ⟨fun status hterminal hstatus => ?_, fun _ => ⟨?_, ?_⟩⟩
      · cases hpending.symm.trans hstatus
        cases hterminal
      · exact fun haccepted => h.settled haccepted (.inr hpending)
      · exact fun hrevoked => hrevoked.not_open hp (.inr hpending)
  · by_cases hrevokes : op = .updateStatus invitationId .revoked
    · subst hrevokes
      have hafter := statusOf_revoke (effect_answer x (.updateStatus invitationId .revoked) p.store)
      constructor
      · rintro ⟨hterminal, -⟩ - haccepted
        rw [hterminal .accepted rfl haccepted, haccepted] at hafter
        cases hafter
      · intro hstands
        refine ⟨fun status hterminal hstatus => ?_, fun h => absurd h hmakes⟩
        rw [hafter, hstatus, Option.map_some]
        cases status with
        | accepted => exact absurd hstatus (hstands rfl)
        | revoked => rfl
        | _ => cases hterminal
    · obtain ⟨hterminal, hstands⟩ := statusStands_of_others hop hmakes hrevokes
      exact iff_of_true ⟨hterminal, fun h => absurd h hmakes⟩ hstands

/-- One move keeps the lifecycle exactly when the status stands. -/
theorem lifecycle_move (h : Tracked invitationId start p)
    (hp : Disciplined (invitationDiscipline platform invitationId start) p)
    (m : Move InvitationCall Outside) :
    Lifecycle platform invitationId p m ↔
      p.OnStatement (fun _ x w _ op => StatusStands invitationId x w op) m := by
  cases m with
  | start call =>
      refine iff_of_true ⟨fun p' hstep status _ hstatus => ?_, trivial⟩ trivial
      obtain rfl := Pool.step_start.mp hstep
      exact hstatus
  | resume i x =>
      constructor
      · rintro ⟨hterminal, hfirst⟩ task op next hasks
        refine (statusStands_iff h hp (hp.allowed hasks)).mp ⟨?_, hfirst task op next hasks⟩
        exact hterminal _ (Pool.step_resume.mpr ⟨task, op, next, hasks, rfl⟩)
      · intro hstands
        refine ⟨fun p' hstep => ?_, fun task op next hasks => ?_⟩
        · obtain ⟨task, op, next, hasks, rfl⟩ := Pool.step_resume.mp hstep
          exact ((statusStands_iff h hp (hp.allowed hasks)).mpr (hstands task op next hasks)).1
        · exact ((statusStands_iff h hp (hp.allowed hasks)).mpr (hstands task op next hasks)).2

end Moves

/-- In a pool of invitations, acceptances and revocations that interleave, a
terminal status stays, a membership is made at most once from an invitation and
never after a revocation of it has completed, exactly when the status stands at
each write. -/
theorem lifecycle_iff (platform : Platform) (invitationId : Uuid) (w : World)
    {as : List (Move InvitationCall Outside)} :
    AllSteps (Pool.step answer (InvitationCall.run platform)) (Lifecycle platform invitationId)
        { store := w } as ↔
      AllSteps (Pool.step answer (InvitationCall.run platform))
        (Pool.OnStatement fun _ x w _ op => StatusStands invitationId x w op)
        { store := w } as := by
  apply AllSteps.congr (H := fun _ _ => True)
    (I := fun p => Disciplined (invitationDiscipline platform invitationId w.db.toTables) p ∧
      Tracked invitationId w.db.toTables p)
  · intro p m p' hp _ hstep
    exact ⟨hp.1.step hstep, hp.2.step hp.1 hstep⟩
  · intro p m hp _
    exact lifecycle_move hp.2 hp.1 m
  · exact ⟨Disciplined.initial (.refl _), tracked_start⟩
  · intro bs a t _ _
    trivial

/-- Workspace 1 of user 1, who has invited user 2. -/
def oneInvitation : Database where
  users := ⟨[(1, { email := js "a@b.io", displayName := js "A" }),
    (2, { email := js "b@b.io", displayName := js "B" })], by decide⟩
  workspaces := ⟨[(1, { name := js "W", slug := js "w", ownerId := 1 })], by decide⟩
  members := ⟨[(11, { workspaceId := 1, userId := 1, role := .owner, joinedAt := 0 })], by decide⟩
  invitations :=
    ⟨[(21, { workspaceId := 1
             email := js "b@b.io"
             token := js "t"
             invitedBy := 1
             expiresAt := 9 })], by decide⟩
  wellFormed :=
    { emails := Table.Unique.of_rows (by decide)
      workspaces := Table.All.of_rows (by decide)
      slugs := Table.Unique.of_rows (by decide)
      members := Table.All.of_rows (by decide)
      memberKeys := Table.Unique.of_rows (by decide)
      invitations := Table.All.of_rows (by decide)
      tokens := Table.Unique.of_rows (by decide) }

/-- The revocation comes between the last read of an acceptance and its
transaction. -/
def revokedInBetween : List (Move InvitationCall Outside) :=
  [.start (.acceptInvitation (js "t") 2)] ++ List.replicate 5 (.resume 0 (atTime 5)) ++
    [.start (.revokeInvitation 1 21)] ++ List.replicate 2 (.resume 1 (atTime 5))

/-- A revoked invitation can still be accepted. -/
theorem revokedInBetween_accepted :
    ¬ ∀ (platform : Platform) (invitationId : Uuid) (w : World)
      (as : List (Move InvitationCall Outside)),
        AllSteps (Pool.step answer (InvitationCall.run platform))
          (Lifecycle platform invitationId) { store := w } as := by
  intro hall
  obtain ⟨p, hp⟩ : ∃ p : InvitationPool, exec
      (Pool.step answer (InvitationCall.run plainEnv.platform))
        { store := { db := oneInvitation } } revokedInBetween = some p := ⟨_, rfl⟩
  have hlifecycle := hall plainEnv.platform 21 { db := oneInvitation }
    (revokedInBetween ++ [.resume 0 (atTime 5)]) revokedInBetween (.resume 0 (atTime 5)) p
    (List.prefix_refl _) (run_of_exec hp)
  cases hp
  cases hlifecycle.1 _ rfl .revoked rfl rfl

end SyncBoard.Workspace
