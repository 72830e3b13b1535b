import SyncBoard.Board.CardCalls

/-!
# Status and completion

`isComplete` repeats what `status` says. Three paths derive the pair: the insert of a
card from its status, `updateStatus` from the status it is given, and `update` from
its payload and from the status that it has read, which may be stale when the update
is made. Every path asks for both values or for neither, and for a pair that agrees,
so the two columns agree whatever the interleaving.
-/

namespace SyncBoard.Board

open Relational Interleaved Interleaved.Program Labelled
open CardProcedure (ofSubcard)

/-- The flag is the one that the status gives. -/
def CardRow.FlagDerived (card : CardRow) : Prop :=
  card.isComplete = isCompleteFromStatus card.status

/-- Every card has the flag that its status gives. -/
def FlagsDerived (w : World) : Prop :=
  w.db.cards.All fun _ card => card.FlagDerived

theorem isCompleteFromStatus_iff (status : CardStatus) :
    isCompleteFromStatus status = true ↔ status = .done ∨ status = .closed := by
  cases status <;> decide

/-- The statement gives a card the flag of the status that it gives, or neither. -/
def CardStatement.DerivesFlag : CardStatement → Prop
  | .changeCard (.update _ status isComplete _) => isComplete = status.map isCompleteFromStatus
  | .changeCard (.updateStatus _ status isComplete) => isComplete = isCompleteFromStatus status
  | _ => True

section Statements
variable {ranking : Ranking} {x : Outside} {op : CardStatement} {cardId : Uuid}
variable {old : Option CardRow} {new : CardRow}

/-- Every row written agrees where the row before it did. -/
theorem CardStatementWrite.flagDerived (h : CardStatementWrite ranking x op cardId old new)
    (hop : op.DerivesFlag) (hold : ∀ row ∈ old, row.FlagDerived) : new.FlagDerived := by
  cases h with
  | subcard write =>
      cases write with
      | createCard => rfl
      | @updateCard update row =>
          have hrow := hold row rfl
          cases update <;> exact hrow
  | @changeCard change row =>
      have hrow := hold row rfl
      cases change with
      | update cardId status isComplete dto =>
          obtain rfl : isComplete = status.map isCompleteFromStatus := hop
          cases status with
          | none => exact hrow
          | some status => rfl
      | updateStatus cardId status isComplete => exact hop
      | updatePriority | deletePermanently => exact hrow

theorem FlagsDerived.answer {w : World} (hw : FlagsDerived w) (hop : op.DerivesFlag) :
    FlagsDerived (cardAnswer ranking x op w).2 := by
  rcases cardAnswer_cases ranking x op w with hsame | ⟨cardId, old, new, h⟩
  · rw [FlagsDerived, hsame]
    exact hw
  · intro id card hcard
    rcases h.cards.eq_or_old hcard with ⟨-, rfl⟩ | ⟨-, hcard⟩
    · apply h.write.flagDerived hop
      intro row hrow
      exact hw cardId row (h.before.trans hrow)
    · exact hw id card hcard

end Statements

/-- Whatever the status that was read, `update` derives the flag from the status that
it writes, or the status from the flag. -/
theorem statusPatch_derived (existing : CardRow) (dto : UpdateCardDto) :
    (CardService.statusPatch existing dto).2 =
      (CardService.statusPatch existing dto).1.map isCompleteFromStatus := by
  rw [CardService.statusPatch]
  split
  · rfl
  · next isComplete _ _ =>
      cases isComplete <;> cases existing.status <;> rfl
  · rfl

section Programs
variable {α : Type}

theorem derivesFlag_ofSubcard (p : Procedure α) : (ofSubcard p).Only CardStatement.DerivesFlag :=
  (Only.any p).via fun _ _ => trivial

theorem derivesFlag_saveChange {change : CardChange} (h : (CardStatement.changeCard change).DerivesFlag)
    (rejected : DbError → AppError) :
    (CardProgram.saveChange change rejected).Only CardStatement.DerivesFlag :=
  (Only.ask h).bind fun _ => Only.orThrow _ _

/-- Two programs of the subcard calls in front of another one. -/
theorem derivesFlag_onCard {β γ : Type} (p : Procedure β) (q : Procedure γ)
    {f : γ → CardProcedure α} (hf : ∀ c, (f c).Only CardStatement.DerivesFlag) :
    (ofSubcard p >>= fun _ => ofSubcard q >>= f).Only CardStatement.DerivesFlag :=
  (derivesFlag_ofSubcard p).bind fun _ => (derivesFlag_ofSubcard q).bind hf

/-- A change of a card, and what is announced of it. -/
theorem derivesFlag_announced {change : CardChange} (h : (CardStatement.changeCard change).DerivesFlag)
    (rejected : DbError → AppError) (p : Card → Procedure Unit) (r : Card → α) :
    (CardProgram.saveChange change rejected >>= fun card =>
      ofSubcard (p card) >>= fun _ => pure (r card)).Only CardStatement.DerivesFlag := by
  apply (derivesFlag_saveChange h rejected).bind
  intro card
  exact (derivesFlag_ofSubcard (p card)).bind fun _ => Only.pure _

theorem derivesFlag_program (ranking : Ranking) (call : CardCall) :
    (call.program ranking).Only CardStatement.DerivesFlag := by
  cases call with
  | subcard call => exact derivesFlag_ofSubcard _
  | update b w c dto u =>
      refine Only.bind ?_ fun _ => Only.pure _
      apply derivesFlag_onCard
      intro existing
      apply derivesFlag_announced
      exact statusPatch_derived existing.row dto
  | updatePriority b w c priority u =>
      refine Only.bind ?_ fun _ => Only.pure _
      apply derivesFlag_onCard
      intro existing
      split
      · exact Only.pure _
      · apply derivesFlag_announced
        exact trivial
  | updateStatus b w c status u =>
      refine Only.bind ?_ fun _ => Only.pure _
      apply derivesFlag_onCard
      intro existing
      split
      · exact Only.pure _
      · apply derivesFlag_announced
        exact rfl
  | deletePermanently b w c u =>
      refine (derivesFlag_ofSubcard _).bind fun _ => Only.bind ?_ fun card => ?_
      · exact (Only.ask trivial).bind fun _ => Only.demand _ _
      · refine (Only.refuseIf _ _).bind fun _ => Only.bind (derivesFlag_saveChange ?_ _) fun _ => ?_
        · exact trivial
        · exact derivesFlag_ofSubcard _

end Programs

/-- The state of the boards whose cards are created and changed in calls that
interleave. -/
abbrev CardPool := Pool CardStatement CardAnswer AppError CardCall World

theorem flagsDerived_of_run {ranking : Ranking} {w : World} (h : FlagsDerived w)
    {ms : List (Move CardCall Outside)} {p : CardPool}
    (run : Run (Pool.step (cardAnswer ranking) (CardCall.program ranking)) { store := w } ms p) :
    FlagsDerived p.store :=
  Pool.invariant_of_only (derivesFlag_program ranking) (fun _ _ _ _ hop hw => hw.answer hop) h run

/-- Whatever the interleaving, a card is complete exactly where its status is done or
closed. -/
theorem isComplete_iff_status (ranking : Ranking) {w : World} (h : FlagsDerived w)
    {ms : List (Move CardCall Outside)} {p : CardPool}
    (run : Run (Pool.step (cardAnswer ranking) (CardCall.program ranking)) { store := w } ms p)
    {cardId : Uuid} {card : CardRow} (hcard : p.store.db.cards.get? cardId = some card) :
    card.isComplete = true ↔ card.status = .done ∨ card.status = .closed := by
  have hderived : card.isComplete = isCompleteFromStatus card.status :=
    flagsDerived_of_run h run cardId card hcard
  rw [hderived]
  exact isCompleteFromStatus_iff card.status

theorem flagsDerived_oneBoard : FlagsDerived { db := oneBoard } := by
  intro cardId card hcard
  cases hcard

/-- Card 40 is created. An update that only completes it reads its status, then another
call closes it, and then the update is made. -/
def completeWhileClosed : List (Move CardCall Outside) :=
  List.flatten [
    [.start (.subcard (.create 20 1 30 { title := js "Ship" } 7))],
    List.replicate 4 (.resume 0 (withId 40)),
    [.start (.update 20 1 40 { isComplete := some true } 7),
      .start (.updateStatus 20 1 40 .closed 7)],
    List.replicate 2 (.resume 1 (withId 0)),
    List.replicate 4 (.resume 2 (withId 0)),
    [.resume 1 (withId 0)]]

theorem isComplete_iff_status_completeWhileClosed : ∃ (p : CardPool) (card : CardRow),
    Run (Pool.step (cardAnswer firstRanks) (CardCall.program firstRanks))
      { store := { db := oneBoard } } completeWhileClosed p ∧
    p.store.db.cards.get? 40 = some card ∧ card.status = .done ∧
      (card.isComplete = true ↔ card.status = .done ∨ card.status = .closed) := by
  have hstatus : ((exec (Pool.step (cardAnswer firstRanks) (CardCall.program firstRanks))
      { store := { db := oneBoard } } completeWhileClosed).bind
        fun p => p.store.db.cards.get? 40).map (·.status) = some .done := by
    decide +kernel
  obtain ⟨card, hcard, hdone⟩ := Option.map_eq_some_iff.mp hstatus
  obtain ⟨p, hp, hcard⟩ := Option.bind_eq_some_iff.mp hcard
  have run := run_of_exec hp
  exact ⟨p, card, run, hcard, hdone, isComplete_iff_status firstRanks flagsDerived_oneBoard run hcard⟩

end SyncBoard.Board
