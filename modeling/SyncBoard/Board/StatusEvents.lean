import SyncBoard.Board.StatusPaths
import SyncBoard.Lib.Positions

/-!
# Status changes and their events

A status can be changed by `updateStatus`, which emits `card.status_changed`, and by
`update`, which emits `card.updated` only. Both leave the same status and flag. The
results compare, over runs in which the calls interleave, the status changes that the
table goes through with the events: they match exactly where no `update` changes a
status, and where every `updateStatus` still finds the status that it has read, which
is the old status that its event gives.

## Implementation notes

The changes of a run are a history variable, read off the tables before and after each
step. An event is emitted right after the answer of the write that it reports, so the
events of writes that are just answered count as well.
-/

namespace SyncBoard.Board

open Relational Interleaved Interleaved.Program Labelled Positional
open CardProcedure (ofSubcard)

/-- A card's status became another one. -/
structure StatusChange where
  cardId : Uuid
  before : CardStatus
  after : CardStatus
  deriving DecidableEq, Repr

/-- The change of one row. -/
def statusChange (after : Table Uuid CardRow) (p : Uuid × CardRow) : Option StatusChange :=
  match after.get? p.1 with
  | none => none
  | some row => if p.2.status = row.status then none else some ⟨p.1, p.2.status, row.status⟩

/-- The changes from one table to another. -/
def statusChanges (before after : Table Uuid CardRow) : List StatusChange :=
  before.rows.filterMap (statusChange after)

/-- The change that a `card.status_changed` event reports. -/
def CardEvent.statusChange : CardEvent → Option StatusChange
  | .statusChanged cardId _ before after _ _ => some ⟨cardId, before, after⟩
  | _ => none

/-- The change whose event a call emits next. -/
def pendingChange : CardProcedure Unit → Option StatusChange
  | .await (.subcard (.emit event)) _ => event.statusChange
  | _ => none

/-- The status of the card that a call has found last. -/
def lastRead (log : Log CardAnswer) : Option CardStatus :=
  log.foldl
    (fun status entry =>
      match entry with
      | ⟨.subcard (.findCard _ _), some card⟩ => some card.row.status
      | _ => status)
    none

section Changes
variable {before after : Table Uuid CardRow} {cardId : Uuid} {old new : CardRow}

theorem statusChanges_self (cards : Table Uuid CardRow) : statusChanges cards cards = [] := by
  apply Table.filterMap_rows_eq_nil
  intro id row hrow
  simp [statusChange, hrow]

theorem statusChanges_insert (hfresh : before.get? cardId = none)
    (hwrote : before.Wrote after cardId new) : statusChanges before after = [] := by
  apply Table.filterMap_rows_eq_nil
  intro id row hrow
  have hid : id ≠ cardId := by
    rintro rfl
    rw [hfresh] at hrow
    cases hrow
  simp [statusChange, hwrote.other hid, hrow]

theorem statusChanges_update (hold : before.get? cardId = some old)
    (hwrote : before.Wrote after cardId new) : statusChanges before after =
      if old.status = new.status then [] else [⟨cardId, old.status, new.status⟩] := by
  have hrow : statusChange after (cardId, old) =
      if old.status = new.status then none else some ⟨cardId, old.status, new.status⟩ := by
    simp only [statusChange, hwrote.self]
  rw [statusChanges, Table.filterMap_rows hold, hrow]
  · split <;> rfl
  · intro id row hid hrow
    simp [statusChange, hwrote.other hid, hrow]

end Changes

/-- The change that an answer makes the call report, from the status that it has read. -/
def announced (log : Log CardAnswer) : (op : CardStatement) → CardAnswer op → Option StatusChange
  | .changeCard (.updateStatus cardId status _), .ok _ =>
      (lastRead log).map fun read => ⟨cardId, read, status⟩
  | _, _ => none

/-- What the change does to the status of a card is what its call reports: an `update`
leaves the status as it is, and an `updateStatus` finds the one that the call has read. -/
def CardChange.Reported (log : Log CardAnswer) (old : CardRow) : CardChange → Prop
  | .update _ status _ _ => ∀ new ∈ status, old.status = new
  | .updateStatus _ _ _ => lastRead log = some old.status
  | _ => True

/-- The statement finds each card as its call reports it. -/
def CardStatement.Reported (log : Log CardAnswer) (db : Database) : CardStatement → Prop
  | .changeCard change =>
      ∀ old, db.cards.get? change.cardId = some old → change.Reported log old
  | _ => True

/-- An `updateStatus` is asked where the call has read another status. -/
def CardStatement.Moves (log : Log CardAnswer) : CardStatement → Prop
  | .changeCard (.updateStatus _ status _) => ∃ read, lastRead log = some read ∧ read ≠ status
  | _ => True

/-- A change of a card is what its call reports exactly under the condition. -/
theorem CardChange.perm_announced_iff {log : Log CardAnswer} (change : CardChange) (now : Timestamp)
    (old : CardRow) (card : Card) (hmoves : (CardStatement.changeCard change).Moves log) :
    (if old.status = (change.data now old).status then []
      else [⟨change.cardId, old.status, (change.data now old).status⟩] : List StatusChange).Perm
        (announced log (.changeCard change) (.ok card)).toList ↔ change.Reported log old := by
  cases change with
  | update cardId status flag dto =>
      change List.Perm _ [] ↔ ∀ new ∈ status, old.status = new
      rw [List.perm_nil]
      cases status with
      | none =>
          exact iff_of_true (if_pos rfl) (by simp)
      | some new =>
          change (if old.status = new then [] else _) = [] ↔ _
          simp
  | updateStatus cardId status flag =>
      obtain ⟨read, hread, hne⟩ := hmoves
      change List.Perm (if old.status = status then [] else [⟨cardId, old.status, status⟩])
        ((lastRead log).map fun read => (⟨cardId, read, status⟩ : StatusChange)).toList ↔
          lastRead log = some old.status
      rw [hread, Option.map_some, Option.toList_some, List.perm_singleton, Option.some.injEq]
      split
      · next hsame =>
          rw [hsame]
          exact iff_of_false (List.cons_ne_nil _ _).symm hne
      · simp [eq_comm]
  | updatePriority | deletePermanently =>
      refine iff_of_true ?_ trivial
      change List.Perm (if old.status = old.status then [] else _) []
      rw [if_pos rfl]

section Answers
variable (ranking : Ranking) (x : Outside)

/-- A change of a card is refused only where there is no such card. -/
theorem cardAnswer_changeCard (change : CardChange) (w : World) :
    (w.db.cards.get? change.cardId = none ∧
        cardAnswer ranking x (.changeCard change) w = (.error .recordNotFound, w)) ∨
      ∃ old card, w.db.cards.get? change.cardId = some old ∧
        (cardAnswer ranking x (.changeCard change) w).1 = .ok card ∧
        w.db.cards.Wrote (cardAnswer ranking x (.changeCard change) w).2.db.cards change.cardId
          { change.data x.now old with updatedAt := x.now } := by
  cases hold : w.db.cards.get? change.cardId with
  | none =>
      refine .inl ⟨rfl, ?_⟩
      simp only [cardAnswer, CardChange.run_eq, CardRepository.update, hold, World.write]
  | some old =>
      obtain ⟨card, db, hupdate⟩ : ∃ card db,
          CardRepository.update w.db change.cardId (change.data x.now) x.now = .ok (card, db) := by
        apply CardRepository.exists_update _ hold
        · cases change <;> rfl
        · cases change <;> rfl
        · cases change <;> rfl
        · left
          cases change <;> rfl
      have hanswer : cardAnswer ranking x (.changeCard change) w =
          (.ok card, { w with db := db }) := by
        simp only [cardAnswer, CardChange.run_eq, hupdate, World.write]
      obtain ⟨old', hold', -, hwrote, -, -⟩ := CardRepository.update_wrote hupdate
      obtain rfl := Option.some.inj (hold.symm.trans hold')
      rw [hanswer]
      exact .inr ⟨old, card, rfl, rfl, hwrote⟩

/-- The statements of the other calls change no status. -/
theorem statusChanges_subcard (op : Statement) (w : World) :
    statusChanges w.db.cards (cardAnswer ranking x (.subcard op) w).2.db.cards = [] := by
  rcases cardAnswer_cases ranking x (.subcard op) w with hsame | ⟨cardId, old, new, h⟩
  · rw [hsame]
    exact statusChanges_self _
  · have hbefore := h.before
    cases h.write with
    | subcard write =>
        cases write with
        | createCard => exact statusChanges_insert hbefore h.cards
        | @updateCard update row =>
            have hstatus : row.status = (update.data x.now row).status := by
              cases update <;> rfl
            rw [statusChanges_update hbefore h.cards, if_pos hstatus]

/-- What a statement changes is what its call reports exactly under the condition. -/
theorem statusChanges_perm_iff {log : Log CardAnswer} {op : CardStatement} (w : World)
    (hmoves : op.Moves log) :
    (statusChanges w.db.cards (cardAnswer ranking x op w).2.db.cards).Perm
        (announced log op (cardAnswer ranking x op w).1).toList ↔ op.Reported log w.db := by
  cases op with
  | subcard op =>
      rw [statusChanges_subcard]
      exact iff_of_true (List.Perm.refl _) trivial
  | findCardIncludingDeleted cardId boardId =>
      refine iff_of_true ?_ trivial
      change (statusChanges w.db.cards w.db.cards).Perm []
      rw [statusChanges_self]
  | changeCard change =>
      rcases cardAnswer_changeCard ranking x change w with
        ⟨hnone, hanswer⟩ | ⟨old, card, hold, hanswer, hwrote⟩
      · -- the card does not exist: the statement fails, and nothing is reported
        rw [hanswer, statusChanges_self]
        refine iff_of_true ?_ fun old hold => ?_
        · cases change <;> exact List.Perm.refl _
        · rw [hnone] at hold
          cases hold
      · rw [hanswer, statusChanges_update hold hwrote]
        apply (change.perm_announced_iff x.now old card hmoves).trans
        constructor
        · intro h old' hold'
          obtain rfl := Option.some.inj (hold.symm.trans hold')
          exact h
        · intro h
          exact h old hold

end Answers

/-- The statement does not change a status by `updateStatus` or report a change. -/
def CardStatement.Quiet : CardStatement → Prop
  | .subcard (.emit event) => event.statusChange = none
  | .changeCard (.updateStatus _ _ _) => False
  | _ => True

/-- The call reports what the answer makes it report, and moves a card to another status. -/
structure Announces (log : Log CardAnswer) (op : CardStatement)
    (next : CardAnswer op → CardProcedure Unit) : Prop where
  pending : ∀ a, pendingChange (next a) = announced log op a
  moves : op.Moves log

theorem pendingChange_of_only {p : CardProcedure Unit} (hp : p.Only CardStatement.Quiet) :
    pendingChange p = none := by
  cases p with
  | done result => rfl
  | await op next =>
      cases op with
      | subcard op =>
          cases op with
          | emit event => exact hp.1
          | _ => rfl
      | _ => rfl

/-- Quiet statements make a call report nothing. -/
theorem announces_of_only {p : CardProcedure Unit} (hp : p.Only CardStatement.Quiet)
    (log : Log CardAnswer) : p.Throughout Announces log := by
  refine Throughout.of_only (fun log op next hop hnext => ⟨fun a => ?_, ?_⟩) hp log
  · rw [pendingChange_of_only (hnext a)]
    cases op with
    | changeCard change =>
        cases change with
        | updateStatus => cases hop
        | _ => rfl
    | _ => rfl
  · cases op with
    | changeCard change =>
        cases change with
        | updateStatus => cases hop
        | _ => trivial
    | _ => trivial

section Programs
variable {α : Type} {ranking : Ranking}

/-- The subcard statements that are quiet. -/
abbrev QuietSubcard (op : Statement) : Prop :=
  (CardStatement.subcard op).Quiet

theorem quiet_ofSubcard {p : Procedure α} (hp : p.Only QuietSubcard) :
    (ofSubcard p).Only CardStatement.Quiet :=
  Only.via (f := CardStatement.subcard) (fun _ hop => hop) hp

theorem quiet_reads {p : Procedure α} (hp : p.Only Statement.Reads) : p.Only QuietSubcard := by
  refine hp.imp fun op hop => ?_
  cases op with
  | emit => cases hop
  | _ => trivial

theorem quiet_announce {event : CardEvent} (h : event.statusChange = none) :
    (CardProgram.announce event).Only QuietSubcard :=
  Only.ask h

theorem quiet_save (update : CardUpdate) : (CardProgram.save update).Only QuietSubcard :=
  (Only.ask trivial).bind fun _ => Only.orThrow _ _

theorem quiet_insertCard (dto : CreateCardDto) (listId : Uuid) (rank : JsString)
    (parentCardId : Option Uuid) (userId : Uuid) :
    (CardProgram.insertCard dto listId rank parentCardId userId).Only QuietSubcard :=
  (Only.ask trivial).bind fun _ => Only.orThrow _ _

theorem quiet_board (boardId workspaceId : Uuid) :
    (CardProgram.verifyBoardInWorkspace boardId workspaceId).Only QuietSubcard :=
  quiet_reads (CardProgram.reads_verifyBoardInWorkspace _ _)

theorem quiet_card (cardId boardId : Uuid) :
    (CardProgram.findCard cardId boardId).Only QuietSubcard :=
  quiet_reads (CardProgram.reads_findCard _ _)

theorem quiet_create (boardId workspaceId listId : Uuid) (dto : CreateCardDto) (userId : Uuid) :
    (CardProgram.create ranking boardId workspaceId listId dto userId).Only QuietSubcard := by
  refine (quiet_reads (CardProgram.reads_findList _ _ _)).bind fun _ => ?_
  refine (quiet_reads (CardProgram.reads_validateAssignees _ _)).bind fun _ => ?_
  refine (quiet_reads (CardProgram.reads_validateLabels _ _)).bind fun _ => ?_
  refine (quiet_reads (CardProgram.reads_parentFor _ _)).bind fun _ => ?_
  refine (quiet_reads (CardProgram.reads_rankAfterLast _)).bind fun _ => ?_
  refine (quiet_insertCard _ _ _ _ _).bind fun _ => ?_
  exact (quiet_announce rfl).bind fun _ => Only.pure _

theorem quiet_createSubcard (boardId workspaceId parentId : Uuid) (dto : CreateCardDto)
    (userId : Uuid) :
    (CardProgram.createSubcard ranking boardId workspaceId parentId dto userId).Only
      QuietSubcard := by
  refine (quiet_board _ _).bind fun _ => (quiet_card _ _).bind fun _ => ?_
  refine (Only.refuseIf _ _).bind fun _ => ?_
  refine (quiet_reads (CardProgram.reads_validateAssignees _ _)).bind fun _ => ?_
  refine (quiet_reads (CardProgram.reads_validateLabels _ _)).bind fun _ => ?_
  refine (quiet_reads (CardProgram.reads_rankAfterLast _)).bind fun _ => ?_
  refine (quiet_insertCard _ _ _ _ _).bind fun _ => ?_
  exact (quiet_announce rfl).bind fun _ => Only.pure _

theorem quiet_attachSubcard (boardId workspaceId : Uuid) (parentId : UuidText)
    (subcardId userId : Uuid) :
    (CardProgram.attachSubcard boardId workspaceId parentId subcardId userId).Only
      QuietSubcard := by
  refine (quiet_board _ _).bind fun _ => (quiet_card _ _).bind fun _ => ?_
  refine (Only.refuseIf _ _).bind fun _ => (quiet_card _ _).bind fun _ => ?_
  refine (Only.refuseIf _ _).bind fun _ => (Only.refuseIf _ _).bind fun _ => ?_
  refine Only.bind (Only.ask trivial) fun _ => (Only.refuseIf _ _).bind fun _ => ?_
  exact (quiet_save _).bind fun _ => (quiet_announce rfl).bind fun _ => Only.pure _

/-- The subcard calls report no change of a status. -/
theorem quiet_program (call : SubcardCall) : (call.program ranking).Only QuietSubcard := by
  cases call with
  | create => exact (quiet_create _ _ _ _ _).bind fun _ => Only.pure _
  | createSubcard => exact (quiet_createSubcard _ _ _ _ _).bind fun _ => Only.pure _
  | attachSubcard => exact (quiet_attachSubcard _ _ _ _ _).bind fun _ => Only.pure _
  | detachSubcard =>
      refine Only.bind ?_ fun _ => Only.pure _
      refine (quiet_board _ _).bind fun _ => (quiet_card _ _).bind fun _ => ?_
      refine (Only.refuseIf _ _).bind fun _ => (quiet_save _).bind fun _ => ?_
      exact (quiet_announce rfl).bind fun _ => Only.pure _
  | move =>
      refine Only.bind ?_ fun _ => Only.pure _
      refine (quiet_board _ _).bind fun _ => (quiet_card _ _).bind fun _ => ?_
      refine (quiet_reads (CardProgram.reads_findList _ _ _)).bind fun _ => ?_
      exact (quiet_save _).bind fun _ => (quiet_announce rfl).bind fun _ => Only.pure _
  | archive =>
      refine (quiet_board _ _).bind fun _ => (quiet_card _ _).bind fun _ => ?_
      exact (quiet_save _).bind fun _ => quiet_announce rfl
  | unarchive =>
      refine Only.bind ?_ fun _ => Only.pure _
      refine (quiet_board _ _).bind fun _ => ?_
      refine (quiet_reads (CardProgram.reads_findCardIncludingArchived _ _)).bind fun _ => ?_
      exact (quiet_save _).bind fun _ => (quiet_announce rfl).bind fun _ => Only.pure _

theorem quiet_saveChange {change : CardChange} (h : (CardStatement.changeCard change).Quiet)
    (rejected : DbError → AppError) :
    (CardProgram.saveChange change rejected).Only CardStatement.Quiet :=
  (Only.ask h).bind fun _ => Only.orThrow _ _

theorem quiet_update (boardId workspaceId cardId : Uuid) (dto : UpdateCardDto) (userId : Uuid) :
    (CardProgram.update boardId workspaceId cardId dto userId).Only CardStatement.Quiet := by
  refine (quiet_ofSubcard (quiet_board _ _)).bind fun _ => ?_
  refine (quiet_ofSubcard (quiet_card _ _)).bind fun existing => ?_
  refine Only.bind (quiet_saveChange ?_ _) fun _ => ?_
  · exact trivial
  · exact (quiet_ofSubcard (quiet_announce rfl)).bind fun _ => Only.pure _

theorem quiet_updatePriority (boardId workspaceId cardId : Uuid) (priority : CardPriority)
    (userId : Uuid) :
    (CardProgram.updatePriority boardId workspaceId cardId priority userId).Only
      CardStatement.Quiet := by
  refine (quiet_ofSubcard (quiet_board _ _)).bind fun _ => ?_
  refine (quiet_ofSubcard (quiet_card _ _)).bind fun existing => ?_
  split
  · exact Only.pure _
  · refine Only.bind (quiet_saveChange ?_ _) fun _ => ?_
    · exact trivial
    · exact (quiet_ofSubcard (quiet_announce rfl)).bind fun _ => Only.pure _

theorem quiet_deletePermanently (boardId workspaceId cardId userId : Uuid) :
    (CardProgram.deletePermanently boardId workspaceId cardId userId).Only
      CardStatement.Quiet := by
  refine (quiet_ofSubcard (quiet_board _ _)).bind fun _ => Only.bind ?_ fun card => ?_
  · exact (Only.ask trivial).bind fun _ => Only.demand _ _
  · refine (Only.refuseIf _ _).bind fun _ => Only.bind (quiet_saveChange ?_ _) fun _ => ?_
    · exact trivial
    · exact quiet_ofSubcard (quiet_announce rfl)

theorem lastRead_findCard (log : Log CardAnswer) (cardId boardId : Uuid)
    (card : CardWithDetails) :
    lastRead (log ++ [⟨.subcard (.findCard cardId boardId), some card⟩]) =
      some card.row.status := by
  simp [lastRead]

/-- `updateStatus` reports the change from the status that it has read. -/
theorem announces_updateStatus (boardId workspaceId cardId : Uuid) (status : CardStatus)
    (userId : Uuid) (log : Log CardAnswer) :
    ((CardCall.updateStatus boardId workspaceId cardId status userId).program ranking).Throughout
      Announces log := by
  refine ⟨⟨fun board => by cases board <;> rfl, trivial⟩, fun board => ?_⟩
  cases board with
  | none => trivial
  | some board =>
      refine ⟨⟨fun card => ?_, trivial⟩, fun card => ?_⟩
      · cases card with
        | none => rfl
        | some existing =>
            change pendingChange
              ((if !isStatusTransitionAllowed existing.row.status status then _ else _) >>= _) = none
            split <;> rfl
      · cases card with
        | none => trivial
        | some existing =>
            change Throughout Announces
              ((if !isStatusTransitionAllowed existing.row.status status then _ else _) >>= _) _
            split
            · trivial
            · next hallowed =>
                have hread := lastRead_findCard (log ++ [⟨.subcard (.findBoard boardId workspaceId),
                  some board⟩]) cardId boardId existing
                have hne : existing.row.status ≠ status := by
                  simpa [isStatusTransitionAllowed] using hallowed
                refine ⟨⟨fun saved => ?_, existing.row.status, hread, hne⟩, fun saved => ?_⟩
                · cases saved with
                  | error e => rfl
                  | ok card =>
                      rw [announced, hread]
                      rfl
                · cases saved with
                  | error e => trivial
                  | ok card => exact ⟨⟨fun _ => rfl, trivial⟩, fun _ => trivial⟩

/-- Every call reports as it is to. -/
theorem announces_program (call : CardCall) (log : Log CardAnswer) :
    (call.program ranking).Throughout Announces log := by
  cases call with
  | subcard call => exact announces_of_only (quiet_ofSubcard (quiet_program call)) log
  | update =>
      exact announces_of_only ((quiet_update _ _ _ _ _).bind fun _ => Only.pure _) log
  | updatePriority =>
      exact announces_of_only ((quiet_updatePriority _ _ _ _ _).bind fun _ => Only.pure _) log
  | updateStatus => exact announces_updateStatus _ _ _ _ _ log
  | deletePermanently => exact announces_of_only (quiet_deletePermanently _ _ _ _) log

theorem pendingChange_program (call : CardCall) : pendingChange (call.program ranking) = none := by
  cases call with
  | subcard call => exact pendingChange_of_only (quiet_ofSubcard (quiet_program call))
  | _ => rfl

end Programs

/-- The changes that the events emitted so far report. -/
def reportedChanges (w : World) : List StatusChange :=
  w.events.filterMap CardEvent.statusChange

/-- The changes so far, with those of a move. -/
def recordChanges (ranking : Ranking) (changes : List StatusChange) (p : CardPool)
    (m : Move CardCall Outside) : List StatusChange :=
  match p.step (cardAnswer ranking) (CardCall.program ranking) m with
  | none => changes
  | some p' => changes ++ statusChanges p.store.db.cards p'.store.db.cards

/-- The calls that interleave, with the status changes so far. -/
abbrev statusStep (ranking : Ranking) :
    CardPool × List StatusChange → Move CardCall Outside → Option (CardPool × List StatusChange) :=
  track (Pool.step (cardAnswer ranking) (CardCall.program ranking)) (recordChanges ranking)

/-- Every change has exactly one event, emitted or about to be. -/
def Accompanied (s : CardPool × List StatusChange) : Prop :=
  s.2.Perm (reportedChanges s.1.store ++ s.1.tasks.filterMap fun task => pendingChange task.rest)

/-- The statement that a move answers finds each card as its call reports it. -/
def MoveReported (s : CardPool × List StatusChange) (m : Move CardCall Outside) : Prop :=
  s.1.OnStatement (fun _ _ w log op => op.Reported log w.db) m

/-- The rest of every call reports as it is to. -/
def AllAnnounce (s : CardPool × List StatusChange) : Prop :=
  ∀ task ∈ s.1.tasks, task.rest.Throughout Announces task.log

section Steps
variable {ranking : Ranking}

/-- An answer emits the event that was to be emitted, if any. -/
theorem reportedChanges_answer (x : Outside) (op : CardStatement) (w : World)
    (next : CardAnswer op → CardProcedure Unit) :
    reportedChanges (cardAnswer ranking x op w).2 =
      reportedChanges w ++ (pendingChange (.await op next)).toList := by
  have hwrite : ∀ {α : Type} (r : Except DbError (α × Database)),
      reportedChanges (w.write r).2 = reportedChanges w ++ [] := by
    intro α r
    rw [List.append_nil]
    cases r <;> rfl
  cases op with
  | subcard op =>
      cases op with
      | emit event =>
          change (w.events ++ [event]).filterMap _ = w.events.filterMap _ ++ event.statusChange.toList
          rw [List.filterMap_append]
          congr 1
      | createCard => exact hwrite _
      | updateCard => exact hwrite _
      | _ => exact (List.append_nil _).symm
  | findCardIncludingDeleted => exact (List.append_nil _).symm
  | changeCard => exact hwrite _

/-- An answer keeps every change with its event exactly where the statement finds each
card as its call reports it. -/
theorem accompanied_answered {p : CardPool} {changes : List StatusChange} {i : Nat} {x : Outside}
    {task : Task CardStatement CardAnswer AppError CardCall} {op : CardStatement}
    {next : CardAnswer op → CardProcedure Unit} (hasks : p.Asks i task op next)
    (hnext : Announces task.log op next) (h : Accompanied (p, changes)) :
    Accompanied (p.answered (cardAnswer ranking) i x task op next,
        changes ++ statusChanges p.store.db.cards (cardAnswer ranking x op p.store).2.db.cards) ↔
      op.Reported task.log p.store.db := by
  let emitted := reportedChanges p.store
  let pending := p.tasks.filterMap fun task => pendingChange task.rest
  let changed := statusChanges p.store.db.cards (cardAnswer ranking x op p.store).2.db.cards
  let reports := (announced task.log op (cardAnswer ranking x op p.store).1).toList
  have hreported : (reportedChanges (cardAnswer ranking x op p.store).2 ++
      (p.answered (cardAnswer ranking) i x task op next).tasks.filterMap
        fun task => pendingChange task.rest).Perm (emitted ++ pending ++ reports) := by
    have hset := perm_filterMap_set (fun task => pendingChange task.rest) hasks.1
      { task with
        log := task.log ++ [⟨op, (cardAnswer ranking x op p.store).1⟩]
        rest := next (cardAnswer ranking x op p.store).1 }
    simp only [hasks.2, hnext.pending] at hset
    rw [reportedChanges_answer x op p.store next, List.append_assoc, List.append_assoc]
    exact (hset.trans List.perm_append_comm).append_left _
  calc
    _ ↔ (changes ++ changed).Perm (emitted ++ pending ++ reports) :=
      ⟨fun h => List.Perm.trans h hreported, fun h => List.Perm.trans h hreported.symm⟩
    _ ↔ (changes ++ changed).Perm (changes ++ reports) := by
      have hsame := h.append_right reports
      exact ⟨fun h => h.trans hsame.symm, fun h => h.trans hsame⟩
    _ ↔ changed.Perm reports := List.perm_append_left_iff changes
    _ ↔ op.Reported task.log p.store.db := statusChanges_perm_iff ranking x p.store hnext.moves

/-- A move keeps every change with its event exactly where its statement finds each
card as its call reports it. -/
theorem accompanied_step {s s' : CardPool × List StatusChange} {m : Move CardCall Outside}
    (hs : AllAnnounce s) (h : Accompanied s) (hstep : statusStep ranking s m = some s') :
    Accompanied s' ↔ MoveReported s m := by
  obtain ⟨p, changes⟩ := s
  obtain ⟨p', changes'⟩ := s'
  obtain ⟨hmove, hrecord⟩ := track_eq_some.mp hstep
  dsimp only at hmove hrecord
  simp only [recordChanges, hmove] at hrecord
  subst hrecord
  cases m with
  | start call =>
      obtain rfl := Pool.step_start.mp hmove
      refine iff_of_true ?_ trivial
      rw [statusChanges_self, List.append_nil]
      simp only [Accompanied, List.filterMap_append] at h ⊢
      simpa [pendingChange_program call] using h
  | resume i x =>
      obtain ⟨task, op, next, hasks, rfl⟩ := Pool.step_resume.mp hmove
      have hnext : Announces task.log op next := (hasks.required hs).1
      rw [MoveReported, Pool.onStatement_of_asks hasks]
      exact accompanied_answered hasks hnext h

theorem AllAnnounce.step {s s' : CardPool × List StatusChange} {m : Move CardCall Outside}
    (hs : AllAnnounce s) (hstep : statusStep ranking s m = some s') : AllAnnounce s' :=
  Pool.throughout_step (fun call => announces_program call []) hs (track_eq_some.mp hstep).1

end Steps

/-- The paths agree in every state, whatever the interleaving; every change of a status
has exactly one event, with the old and the new status, in every state of a run exactly
where no `update` changes a status and every `updateStatus` finds the status that its
call has read. -/
theorem statusPathsAgree_iff (ranking : Ranking) {w : World} (h : FlagsDerived w)
    {ms : List (Move CardCall Outside)} {s : CardPool × List StatusChange}
    (run : Run (statusStep ranking) ({ store := w }, reportedChanges w) ms s) :
    AllStates (statusStep ranking) (fun s => PathsAgree s.1.store ∧ Accompanied s)
        ({ store := w }, reportedChanges w) ms ↔
      AllSteps (statusStep ranking) MoveReported ({ store := w }, reportedChanges w) ms := by
  have hpaths : AllStates (statusStep ranking) (fun s => PathsAgree s.1.store)
      ({ store := w }, reportedChanges w) ms :=
    fun _ _ _ run' => pathsAgree (flagsDerived_of_run h run'.of_track)
  have hstart : Accompanied ({ store := w }, reportedChanges w) := by
    simp [Accompanied]
  have hnone : AllAnnounce ({ store := w }, reportedChanges w) := by
    simp [AllAnnounce]
  have hevents := allStates_iff_allSteps (fun _ _ _ ht hstep => AllAnnounce.step ht hstep)
    (fun _ _ _ ht hc hstep => accompanied_step ht hc hstep) run hnone hstart
  rw [← hevents]
  constructor
  · intro hall bs t hb run'
    exact (hall bs t hb run').2
  · intro hall bs t hb run'
    exact ⟨hpaths bs t hb run', hall bs t hb run'⟩

/-- Card 40 is created, started by `updateStatus` and renamed by `update`. -/
def startAndRename : List (Move CardCall Outside) :=
  List.flatten [
    [.start (.subcard (.create 20 1 30 { title := js "Ship" } 7))],
    List.replicate 4 (.resume 0 (withId 40)),
    [.start (.updateStatus 20 1 40 .active 7), .start (.update 20 1 40 { title := some (js "Send") } 7)],
    List.replicate 4 (.resume 1 (withId 0)),
    List.replicate 4 (.resume 2 (withId 0))]

theorem statusPathsAgree_iff_startAndRename :
    AllStates (statusStep firstRanks) (fun s => PathsAgree s.1.store ∧ Accompanied s)
        ({ store := { db := oneBoard } }, reportedChanges { db := oneBoard }) startAndRename ↔
      AllSteps (statusStep firstRanks) MoveReported
        ({ store := { db := oneBoard } }, reportedChanges { db := oneBoard }) startAndRename := by
  obtain ⟨s, hs⟩ : ∃ s, exec (statusStep firstRanks)
      ({ store := { db := oneBoard } }, reportedChanges { db := oneBoard }) startAndRename =
        some s :=
    Option.isSome_iff_exists.mp (by decide +kernel)
  exact statusPathsAgree_iff firstRanks flagsDerived_oneBoard (run_of_exec hs)

/-- Card 40 is created, and an `update` completes it by the flag. -/
def completeByFlag : List (Move CardCall Outside) :=
  List.flatten [
    [.start (.subcard (.create 20 1 30 { title := js "Ship" } 7))],
    List.replicate 4 (.resume 0 (withId 40)),
    [.start (.update 20 1 40 { isComplete := some true } 7)],
    List.replicate 4 (.resume 1 (withId 0))]

/-- The change of the status has no event. -/
theorem completeByFlag_unreported : ¬ ∀ (ranking : Ranking) (w : World), FlagsDerived w →
    ∀ (ms : List (Move CardCall Outside)) (s : CardPool × List StatusChange),
      Run (statusStep ranking) ({ store := w }, reportedChanges w) ms s →
        PathsAgree s.1.store ∧ Accompanied s := by
  intro hall
  have hchanges : (exec (statusStep firstRanks)
      ({ store := { db := oneBoard } }, reportedChanges { db := oneBoard }) completeByFlag).map
        (fun s => (s.2, reportedChanges s.1.store,
          s.1.tasks.filterMap fun task => pendingChange task.rest)) =
      some ([⟨40, .notStarted, .done⟩], [], []) := by
    decide +kernel
  obtain ⟨s, hs, heq⟩ := Option.map_eq_some_iff.mp hchanges
  obtain ⟨hchange, hreported, hpending⟩ : s.2 = [⟨40, .notStarted, .done⟩] ∧
      reportedChanges s.1.store = [] ∧
        (s.1.tasks.filterMap fun task => pendingChange task.rest) = [] := by
    simpa only [Prod.mk.injEq] using heq
  have hperm := (hall firstRanks { db := oneBoard } flagsDerived_oneBoard completeByFlag s
    (run_of_exec hs)).2
  rw [Accompanied, hchange, hreported, hpending] at hperm
  simpa using hperm.length_eq

end SyncBoard.Board
