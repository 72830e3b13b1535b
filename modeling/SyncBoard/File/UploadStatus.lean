import SyncBoard.File.FileService

/-!
# The status of an upload

A status should move once, from pending to completed or failed, and an archived file
should not become completed. Every statement keeps to that except the write of `confirm`:
by then the row may have failed, or may have been archived. A run keeps to it exactly
where every such write finds the row as `confirm` has checked it, or already completed.
-/

namespace SyncBoard.File

open Relational Relational.Table Interleaved Interleaved.Program Labelled

/-- What may become of a row. -/
structure FileAttachment.MayBecome (row row' : FileAttachment) : Prop where
  status : row'.status = row.status ∨ row.status = .pending
  archived : row.archivedAt.isSome = true →
    row'.archivedAt.isSome = true ∧ (row'.status = .completed → row.status = .completed)

/-- What may become of all rows. -/
def MayBecome (files files' : Files) : Prop :=
  ∀ id row, files.get? id = some row → ∃ row', files'.get? id = some row' ∧ row.MayBecome row'

/-- Along the labels, each row becomes only what it may. -/
def StatusesMove (p : FilePool) (ms : List (Move FileCall Outside)) : Prop :=
  ∀ bs cs q r, bs ++ cs <+: ms → Run FilePool.step p bs q → Run FilePool.step q cs r →
    MayBecome q.store r.store

/-- A file may be completed: it has not failed, and is completed already if archived. -/
def FileAttachment.Confirmable (row : FileAttachment) : Prop :=
  row.status ≠ .failed ∧ (row.archivedAt.isSome = true → row.status = .completed)

/-- The write of `confirm` finds a row that may be completed. -/
def FileStatement.InTime (files : Files) : FileStatement → Prop
  | .confirm id => ∀ row, files.get? id = some row → row.Confirmable
  | _ => True

instance (row : FileAttachment) : Decidable row.Confirmable :=
  inferInstanceAs (Decidable (_ ∧ _))

instance (files : Files) : ∀ op : FileStatement, Decidable (op.InTime files)
  | .confirm id => inferInstanceAs (Decidable (∀ row ∈ files.get? id, row.Confirmable))
  | .findActiveById _ | .findWorkspace _ | .findMember _ _ | .archive _ | .deleteObject _
  | .markStalePendingAsFailed _ => .isTrue trivial

/-- Whatever is answered is in time. -/
def ConfirmsInTime (p : FilePool) (m : Move FileCall Outside) : Prop :=
  p.OnStatement (fun _ _ files _ op => op.InTime files) m

section Rows
variable {row row' row'' : FileAttachment}

theorem FileAttachment.MayBecome.refl (row : FileAttachment) : row.MayBecome row :=
  ⟨.inl rfl, fun h => ⟨h, fun h => h⟩⟩

theorem FileAttachment.MayBecome.trans (h : row.MayBecome row') (h' : row'.MayBecome row'') :
    row.MayBecome row'' := by
  constructor
  · rcases h.status with hsame | hpending
    · rw [← hsame]
      exact h'.status
    · exact .inr hpending
  · intro harchived
    obtain ⟨harchived', hback⟩ := h.archived harchived
    obtain ⟨harchived'', hback'⟩ := h'.archived harchived'
    exact ⟨harchived'', fun hcompleted => hback (hback' hcompleted)⟩

/-- Completing a row is lawful exactly where it may be completed. -/
theorem mayBecome_completed_iff :
    row.MayBecome { row with status := .completed } ↔ row.Confirmable := by
  constructor
  · rintro ⟨hstatus, harchived⟩
    refine ⟨fun hfailed => ?_, fun h => (harchived h).2 rfl⟩
    rw [hfailed] at hstatus
    simp at hstatus
  · rintro ⟨hfailed, harchived⟩
    refine ⟨?_, fun h => ⟨h, fun _ => harchived h⟩⟩
    cases hstatus : row.status with
    | pending => exact .inr rfl
    | completed => exact .inl rfl
    | failed => exact absurd hstatus hfailed

end Rows

section Tables
variable {files files' files'' : Files}

theorem MayBecome.refl (files : Files) : MayBecome files files :=
  fun _ row h => ⟨row, h, .refl row⟩

theorem MayBecome.trans (h : MayBecome files files') (h' : MayBecome files' files'') :
    MayBecome files files'' := by
  intro id row hrow
  obtain ⟨row', hrow', hbecome⟩ := h id row hrow
  obtain ⟨row'', hrow'', hbecome'⟩ := h' id row' hrow'
  exact ⟨row'', hrow'', hbecome.trans hbecome'⟩

theorem mayBecome_mapRows {f : FileAttachment → FileAttachment}
    (hf : ∀ row, FileAttachment.MayBecome row (f row)) :
    MayBecome files (files.mapRows fun _ row => f row) := by
  intro id row hrow
  refine ⟨f row, ?_, hf row⟩
  rw [get?_mapRows, hrow, Option.map_some]

/-- A row that is updated is the only one that becomes another. -/
theorem mayBecome_update_iff {id : Uuid} {data : FileAttachment → FileAttachment} :
    MayBecome files (FileRepository.update files id data).2 ↔
      ∀ row, files.get? id = some row → row.MayBecome (data row) := by
  cases hid : files.get? id with
  | none =>
      simp only [FileRepository.update, hid]
      exact iff_of_true (.refl files) (by simp)
  | some found =>
      simp only [FileRepository.update, hid, Option.some.injEq, forall_eq']
      constructor
      · intro h
        obtain ⟨row', hrow', hbecome⟩ := h id found hid
        rw [get?_modify_self, hid, Option.map_some] at hrow'
        exact Option.some.inj hrow' ▸ hbecome
      · intro h j row hrow
        by_cases hj : j = id
        · subst hj
          obtain rfl := Option.some.inj (hid.symm.trans hrow)
          exact ⟨data found, by rw [get?_modify_self, hid, Option.map_some], h⟩
        · exact ⟨row, by rw [get?_modify, if_neg hj, hrow], .refl row⟩

/-- A statement leaves the statuses as they may become exactly where it is in time. -/
theorem mayBecome_answer_iff (x : Outside) (op : FileStatement) (files : Files) :
    MayBecome files (fileAnswer x op files).2 ↔ op.InTime files := by
  cases op with
  | confirm id =>
      change MayBecome files (FileRepository.update files id _).2 ↔ _
      rw [mayBecome_update_iff]
      exact forall_congr' fun row => imp_congr_right fun _ => mayBecome_completed_iff
  | archive id =>
      refine iff_of_true ?_ trivial
      apply mayBecome_update_iff.mpr
      exact fun row _ => ⟨.inl rfl, fun _ => ⟨rfl, fun h => h⟩⟩
  | markStalePendingAsFailed cutoff =>
      refine iff_of_true ?_ trivial
      apply mayBecome_mapRows
      intro row
      by_cases hstale : FileRepository.isStalePending cutoff row = true
      · rw [if_pos hstale]
        rw [FileRepository.isStalePending, Bool.and_eq_true, beq_iff_eq] at hstale
        exact ⟨.inr hstale.1, fun h => ⟨h, fun hcompleted => by cases hcompleted⟩⟩
      · rw [if_neg hstale]
        exact .refl row
  | findActiveById | findWorkspace | findMember | deleteObject =>
      exact iff_of_true (.refl files) trivial

end Tables

section Runs
variable {p q : FilePool} {m : Move FileCall Outside}

/-- A step leaves the statuses as they may become exactly where its statement is in time. -/
theorem mayBecome_step_iff (h : p.step m = some q) :
    MayBecome p.store q.store ↔ ConfirmsInTime p m := by
  cases m with
  | start call =>
      obtain rfl := Pool.step_start.mp h
      exact iff_of_true (.refl _) trivial
  | resume i x =>
      obtain ⟨task, op, next, hasks, rfl⟩ := Pool.step_resume.mp h
      rw [ConfirmsInTime, Pool.onStatement_of_asks hasks]
      exact mayBecome_answer_iff x op p.store

/-- A call that asks to complete a file has read it as pending. -/
def Checked (log : Log FileAnswer) (op : FileStatement)
    (_next : FileAnswer op → FileProcedure Unit) : Prop :=
  match op with
  | .confirm id => ∃ row, ⟨.findActiveById id, some row⟩ ∈ log ∧ row.status = .pending
  | _ => True

theorem checked_confirm (fileId userId : Uuid) :
    (FileCall.confirm fileId userId).program.Throughout Checked [] := by
  refine ⟨trivial, fun found => ?_⟩
  cases found with
  | none => trivial
  | some row =>
      refine ⟨trivial, fun isThere => ?_⟩
      cases isThere with
      | false => trivial
      | true =>
          refine ⟨trivial, fun member => ?_⟩
          cases member with
          | none => trivial
          | some role =>
              change Throughout Checked (((refuseIf
                (!(row.uploadedBy == userId) && !(role == .owner || role == .admin))
                FileError.forbidden >>= fun _ => pure row : FileProcedure FileAttachment) >>= _) >>=
                  _) _
              cases !(row.uploadedBy == userId) && !(role == .owner || role == .admin) with
              | true => trivial
              | false =>
                  change Throughout Checked ((if row.status = .completed then _ else _ :
                    FileProcedure FileAttachment) >>= _) _
                  cases hstatus : row.status with
                  | completed => trivial
                  | failed => trivial
                  | pending =>
                      refine ⟨⟨row, by simp, hstatus⟩, fun confirmed => ?_⟩
                      cases confirmed <;> trivial

/-- No other statement than the write of `confirm` completes a file. -/
def FileStatement.Completes : FileStatement → Prop
  | .confirm _ => True
  | _ => False

theorem only_requireMembership (workspaceId userId : Uuid) :
    (FileService.requireMembership workspaceId userId).Only fun op => ¬ op.Completes :=
  (Only.ask id).bind fun _ => (Only.refuseIf _ _).bind fun _ => (Only.ask id).bind fun _ =>
    Only.demand _ _

theorem only_requireOwned (fileId userId : Uuid) :
    (FileService.requireOwned fileId userId).Only fun op => ¬ op.Completes :=
  (Only.ask id).bind fun _ => (Only.demand _ _).bind fun row =>
    (only_requireMembership row.workspaceId userId).bind fun _ =>
      (Only.refuseIf _ _).bind fun _ => Only.pure row

theorem checked_program (call : FileCall) : call.program.Throughout Checked [] := by
  have hother : ∀ (log : Log FileAnswer) (op : FileStatement)
      (next : FileAnswer op → FileProcedure Unit), ¬ op.Completes →
        (∀ a, (next a).Only fun op => ¬ op.Completes) → Checked log op next := by
    intro log op next hop _
    cases op with
    | confirm id => exact absurd trivial hop
    | _ => trivial
  cases call with
  | confirm fileId userId => exact checked_confirm fileId userId
  | delete fileId userId =>
      apply Throughout.of_only hother
      exact (only_requireOwned fileId userId).bind fun row => (Only.ask id).bind fun _ =>
        (Only.orThrow _ _).bind fun _ => (Only.ask id).bind fun _ => Only.pure ()
  | markStaleUploadsFailed now =>
      apply Throughout.of_only hother
      exact (Only.ask id).bind fun _ => Only.pure ()

/-- Whatever comes too late was in time when it was checked: whenever a call is about to
complete a file, it has read that file as pending. -/
theorem asked_of_run {files : Files} {ms : List (Move FileCall Outside)}
    (run : Run FilePool.step { store := files } ms p) {i : Nat}
    {task : Task FileStatement FileAnswer FileError FileCall} {id : Uuid}
    {next : FileAnswer (.confirm id) → FileProcedure Unit} (h : p.Asks i task (.confirm id) next) :
    ∃ row, ⟨.findActiveById id, some row⟩ ∈ task.log ∧ row.status = .pending := by
  have hall : ∀ task ∈ p.tasks, task.rest.Throughout Checked task.log :=
    run.invariant (I := fun p => ∀ task ∈ p.tasks, task.rest.Throughout Checked task.log)
      (fun _ _ _ hp hstep => Pool.throughout_step checked_program hp hstep) (by simp)
  exact (h.required hall).1

/-- The statuses of the files move as they may, in every interleaving, if and only if no
`confirm` writes to a row that has failed, or that was archived before it was completed. -/
theorem statusesMove_iff (files : Files) (ms : List (Move FileCall Outside)) (p : FilePool)
    (run : Run FilePool.step { store := files } ms p) :
    StatusesMove { store := files } ms ↔ AllSteps FilePool.step ConfirmsInTime { store := files } ms := by
  constructor
  · intro h bs m q hb hq
    obtain ⟨rest, rfl⟩ := hb
    obtain ⟨r, hr, -⟩ := run.split
    obtain ⟨q', hq', hlast⟩ := hr.split
    obtain rfl := hq.functional hq'
    have hstep : q.step m = some r := (exec_singleton q m).symm.trans hlast.exec_eq
    exact (mayBecome_step_iff hstep).mp (h bs [m] q r (List.prefix_append _ _) hq hlast)
  · intro h bs cs q r hb hq hr
    have htail : AllSteps FilePool.step ConfirmsInTime q cs := (h.shorten hb).tail hq
    have hrelated := hr.related (I := fun _ => True) (R := fun p q => MayBecome p.store q.store)
      (fun p => .refl p.store) (fun _ _ _ => .trans)
      (fun _ _ _ _ hm hstep => ⟨trivial, (mayBecome_step_iff hstep).mpr hm⟩) trivial htail
    exact hrelated.2

end Runs

/-- A file of user 7 that was created at time 0. -/
def upload (status : AttachmentStatus) (archivedAt : Option Timestamp) : FileAttachment :=
  { workspaceId := 1, uploadedBy := 7, s3Key := js "key", status, archivedAt, createdAt := 0 }

def pendingUpload : Files :=
  ⟨[(1, upload .pending none)], by decide⟩

/-- User 7 confirms the file, up to the write. -/
def checkUpload : List (Move FileCall Outside) :=
  [.start (.confirm 1 7), .resume 0 {}, .resume 0 {}, .resume 0 { role := some .member }]

/-- Meanwhile the task marks the file as failed. -/
def failUpload : List (Move FileCall Outside) :=
  [.start (.markStaleUploadsFailed 86400001), .resume 1 {}]

/-- Meanwhile user 7 deletes the file. -/
def archiveUpload : List (Move FileCall Outside) :=
  [.start (.delete 1 7), .resume 1 {}, .resume 1 {}, .resume 1 { role := some .member },
    .resume 1 { now := 5 }]

/-- The file is completed, and then the task runs. -/
theorem statusesMove_iff_confirmedFirst :
    StatusesMove { store := pendingUpload } (checkUpload ++ [.resume 0 {}] ++ failUpload) := by
  obtain ⟨p, hp⟩ : ∃ p, exec FilePool.step { store := pendingUpload }
      (checkUpload ++ [.resume 0 {}] ++ failUpload) = some p :=
    Option.isSome_iff_exists.mp (by decide +kernel)
  have hintime : AllSteps FilePool.step ConfirmsInTime { store := pendingUpload }
      (checkUpload ++ [.resume 0 {}] ++ failUpload) := by
    unfold ConfirmsInTime
    decide +kernel
  exact (statusesMove_iff pendingUpload _ p (run_of_exec hp)).mpr hintime

/-- Where the file fails, or is archived, between the check and the write of `confirm`, it
becomes completed. -/
theorem confirm_completesFailedAndArchived :
    ¬ StatusesMove { store := pendingUpload } (checkUpload ++ failUpload ++ [.resume 0 {}]) ∧
      ¬ StatusesMove { store := pendingUpload } (checkUpload ++ archiveUpload ++ [.resume 0 {}]) := by
  have hrun (meanwhile : List (Move FileCall Outside)) (before after : FileAttachment)
      (h : ((exec FilePool.step { store := pendingUpload } (checkUpload ++ meanwhile)).bind fun q =>
        (exec FilePool.step q [.resume 0 {}]).map fun r => (q.store.get? 1, r.store.get? 1)) =
          some (some before, some after))
      (hmove : StatusesMove { store := pendingUpload } (checkUpload ++ meanwhile ++ [.resume 0 {}])) :
      before.MayBecome after := by
    obtain ⟨q, hq, hlast⟩ := Option.bind_eq_some_iff.mp h
    obtain ⟨r, hr, hrows⟩ := Option.map_eq_some_iff.mp hlast
    obtain ⟨hbefore, hafter⟩ := Prod.mk.inj hrows
    obtain ⟨row, hrow, hbecome⟩ := hmove _ _ q r (List.prefix_refl _) (run_of_exec hq)
      (run_of_exec hr) 1 before hbefore
    obtain rfl := Option.some.inj (hrow.symm.trans hafter)
    exact hbecome
  constructor
  · intro h
    have hbecome := hrun failUpload (upload .failed none) (upload .completed none)
      (by decide +kernel) h
    rcases hbecome.status with hstatus | hstatus
    · cases hstatus
    · cases hstatus
  · intro h
    have hbecome := hrun archiveUpload (upload .pending (some 5)) (upload .completed (some 5))
      (by decide +kernel) h
    cases (hbecome.archived rfl).2 rfl

end SyncBoard.File
