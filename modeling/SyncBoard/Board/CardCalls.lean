import SyncBoard.Board.SubcardCycles

/-!
# The calls on cards, statement by statement

The calls of `CardPrograms` together with those that change what a card says:
`update`, `updatePriority`, `updateStatus` and `deletePermanently`. A call of the
first group asks the same statements here (`via`). As before, a program that nobody
interrupts is the call of `CardService`.
-/

namespace SyncBoard.Board

open Relational Interleaved Interleaved.Program

/-- The updates of a card that leave it in its list and under its parent. -/
inductive CardChange
  | update (cardId : Uuid) (status : Option CardStatus) (isComplete : Option Bool)
      (dto : UpdateCardDto)
  | updatePriority (cardId : Uuid) (priority : CardPriority)
  | updateStatus (cardId : Uuid) (status : CardStatus) (isComplete : Bool)
  | deletePermanently (cardId : Uuid)
  deriving DecidableEq, Repr

namespace CardChange

def run (db : Database) (now : Timestamp) : CardChange → Except DbError (Card × Database)
  | .update cardId status isComplete dto =>
      CardRepository.update db cardId (CardService.patch status isComplete dto) now
  | .updatePriority cardId priority => CardRepository.updatePriority db cardId priority now
  | .updateStatus cardId status isComplete =>
      CardRepository.updateStatus db cardId status isComplete now
  | .deletePermanently cardId => CardRepository.deletePermanently db cardId now

/-- The card of a change. -/
def cardId : CardChange → Uuid
  | .update cardId _ _ _ => cardId
  | .updatePriority cardId _ => cardId
  | .updateStatus cardId _ _ => cardId
  | .deletePermanently cardId => cardId

/-- The data of a change. -/
def data (now : Timestamp) : CardChange → CardRow → CardRow
  | .update _ status isComplete dto, card => CardService.patch status isComplete dto card
  | .updatePriority _ priority, card => { card with priority := priority }
  | .updateStatus _ status isComplete, card =>
      { card with status := status, isComplete := isComplete }
  | .deletePermanently _, card => { card with deletedAt := some now }

theorem run_eq (change : CardChange) (db : Database) (now : Timestamp) :
    change.run db now = CardRepository.update db change.cardId (change.data now) now := by
  cases change <;> rfl

end CardChange

/-- What the calls on cards ask, each up to its next await. -/
inductive CardStatement
  | subcard (op : Statement)
  | findCardIncludingDeleted (cardId boardId : Uuid)
  | changeCard (change : CardChange)
  deriving DecidableEq, Repr

/-- What a statement returns. -/
abbrev CardAnswer : CardStatement → Type
  | .subcard op => Answer op
  | .findCardIncludingDeleted _ _ => Option Card
  | .changeCard _ => Except DbError Card

/-- The answer to a statement and what it leaves. -/
def cardAnswer (ranking : Ranking) (x : Outside) :
    (op : CardStatement) → World → CardAnswer op × World
  | .subcard op, w => answer ranking x op w
  | .findCardIncludingDeleted cardId boardId, w =>
      (CardRepository.findByIdIncludingDeleted w.db cardId (some boardId), w)
  | .changeCard change, w => w.write (change.run w.db x.now)

abbrev CardProcedure := Program CardStatement CardAnswer AppError

/-- A program of the subcard calls. -/
def CardProcedure.ofSubcard {α : Type} (p : Procedure α) : CardProcedure α :=
  p.via CardStatement.subcard fun _ a => a

open CardProcedure (ofSubcard)

namespace CardProgram

/-- A change of a card; `rejected` is what its errors are thrown as. -/
def saveChange (change : CardChange) (rejected : DbError → AppError := .database) :
    CardProcedure Card := do
  let changed ← ask (.changeCard change)
  Program.orThrow rejected changed

def findCardIncludingDeleted (cardId boardId : Uuid) : CardProcedure Card := do
  let card ← ask (.findCardIncludingDeleted cardId boardId)
  demand card (.entityNotFound "Card" cardId)

def update (boardId workspaceId cardId : Uuid) (dto : UpdateCardDto) (userId : Uuid) :
    CardProcedure Card := do
  ofSubcard (verifyBoardInWorkspace boardId workspaceId)
  let existing ← ofSubcard (findCard cardId boardId)
  let (status, isComplete) := CardService.statusPatch existing.row dto
  let updated ← saveChange (.update cardId status isComplete dto)
  ofSubcard (announce (.updated updated boardId userId))
  return updated

def updatePriority (boardId workspaceId cardId : Uuid) (priority : CardPriority)
    (userId : Uuid) : CardProcedure Card := do
  ofSubcard (verifyBoardInWorkspace boardId workspaceId)
  let existing ← ofSubcard (findCard cardId boardId)
  if existing.row.priority == priority then return existing.toCard
  else do
    let updated ← saveChange (.updatePriority cardId priority) (CardRepository.missingCard cardId)
    ofSubcard
      (announce (.priorityChanged cardId boardId existing.row.priority priority userId))
    return updated

def updateStatus (boardId workspaceId cardId : Uuid) (status : CardStatus) (userId : Uuid) :
    CardProcedure Card := do
  ofSubcard (verifyBoardInWorkspace boardId workspaceId)
  let existing ← ofSubcard (findCard cardId boardId)
  if !isStatusTransitionAllowed existing.row.status status then return existing.toCard
  else do
    let isComplete := isCompleteFromStatus status
    let updated ← saveChange (.updateStatus cardId status isComplete)
      (CardRepository.missingCard cardId)
    ofSubcard
      (announce (.statusChanged cardId boardId existing.row.status status isComplete userId))
    return updated

def deletePermanently (boardId workspaceId cardId userId : Uuid) : CardProcedure Unit := do
  ofSubcard (verifyBoardInWorkspace boardId workspaceId)
  let card ← findCardIncludingDeleted cardId boardId
  Program.refuseIf card.row.deletedAt.isSome
    (.businessRule "CARD_ALREADY_DELETED" "Card is already deleted")
  let _ ← saveChange (.deletePermanently cardId)
  ofSubcard (announce (.deleted cardId boardId card.row.listId userId))

end CardProgram

/-- A call that creates a card or changes one. -/
inductive CardCall
  | subcard (call : SubcardCall)
  | update (boardId workspaceId cardId : Uuid) (dto : UpdateCardDto) (userId : Uuid)
  | updatePriority (boardId workspaceId cardId : Uuid) (priority : CardPriority) (userId : Uuid)
  | updateStatus (boardId workspaceId cardId : Uuid) (status : CardStatus) (userId : Uuid)
  | deletePermanently (boardId workspaceId cardId userId : Uuid)
  deriving DecidableEq, Repr

namespace CardCall

def program (ranking : Ranking) : CardCall → CardProcedure Unit
  | .subcard call => ofSubcard (call.program ranking)
  | .update b w c dto u => do let _ ← CardProgram.update b w c dto u
  | .updatePriority b w c p u => do let _ ← CardProgram.updatePriority b w c p u
  | .updateStatus b w c s u => do let _ ← CardProgram.updateStatus b w c s u
  | .deletePermanently b w c u => CardProgram.deletePermanently b w c u

/-- The call of `CardService`. -/
def toCall : CardCall → Call
  | .subcard call => call.toCall
  | .update b w c dto u => .update b w c dto u
  | .updatePriority b w c p u => .updatePriority b w c p u
  | .updateStatus b w c s u => .updateStatus b w c s u
  | .deletePermanently b w c u => .deletePermanently b w c u

end CardCall

section Alone
variable {α : Type} {ranking : Ranking} {x : Outside}

theorem action_ofSubcard (p : Procedure α) :
    (ofSubcard p).action (cardAnswer ranking x) = p.action (answer ranking x) := by
  apply action_via
  intro op w
  exact ⟨rfl, rfl⟩

theorem action_findCardIncludingDeleted (cardId boardId : Uuid) :
    (CardProgram.findCardIncludingDeleted cardId boardId).action (cardAnswer ranking x) =
      find (CardRepository.findByIdIncludingDeleted · cardId (some boardId))
        (.entityNotFound "Card" cardId) := by
  rw [CardProgram.findCardIncludingDeleted, action_ask_bind fun _ => rfl]
  simp only [action_demand]
  exact Fallible.query_bind_demand _ _

theorem action_saveChange (change : CardChange) (rejected : DbError → AppError) :
    (CardProgram.saveChange change rejected).action (cardAnswer ranking x) =
      write (fun db => change.run db x.now) rejected :=
  action_written (fun _ => rfl) fun _ => rfl

/-- The program of a call that nobody interrupts is the call of `CardService`. -/
theorem action_cardProgram (call : CardCall) :
    (call.program ranking).action (cardAnswer ranking x) = call.toCall.run (x.env ranking) := by
  cases call with
  | subcard call =>
      exact (action_ofSubcard _).trans (action_program call)
  | update =>
      simp only [CardCall.program, CardProgram.update, action_bind, action_ofSubcard,
        action_verifyBoardInWorkspace, action_findCard, action_saveChange, action_announce,
        action_pure]
      rfl
  | updatePriority =>
      simp only [CardCall.program, CardProgram.updatePriority, action_bind, action_ofSubcard,
        action_verifyBoardInWorkspace, action_findCard, action_saveChange, action_announce,
        action_pure, apply_ite (Program.action (cardAnswer ranking x))]
      rfl
  | updateStatus =>
      simp only [CardCall.program, CardProgram.updateStatus, action_bind, action_ofSubcard,
        action_verifyBoardInWorkspace, action_findCard, action_saveChange, action_announce,
        action_pure, apply_ite (Program.action (cardAnswer ranking x))]
      rfl
  | deletePermanently =>
      simp only [CardCall.program, CardProgram.deletePermanently, action_bind, action_ofSubcard,
        action_verifyBoardInWorkspace, action_findCardIncludingDeleted, action_refuseIf,
        action_saveChange, action_announce]
      rfl

end Alone

/-- The row that a statement writes, under which id and over which row. -/
inductive CardStatementWrite (ranking : Ranking) (x : Outside) :
    CardStatement → Uuid → Option CardRow → CardRow → Prop
  | subcard {op : Statement} {cardId : Uuid} {old : Option CardRow} {new : CardRow}
      (write : StatementWrite ranking x op cardId old new) :
      CardStatementWrite ranking x (.subcard op) cardId old new
  | changeCard {change : CardChange} {old : CardRow} :
      CardStatementWrite ranking x (.changeCard change) change.cardId (some old)
        { change.data x.now old with updatedAt := x.now }

/-- The statement has written the row to the cards. -/
structure CardWritten (ranking : Ranking) (x : Outside) (op : CardStatement) (db db' : Database)
    (cardId : Uuid) (old : Option CardRow) (new : CardRow) : Prop where
  write : CardStatementWrite ranking x op cardId old new
  before : db.cards.get? cardId = old
  cards : db.cards.Wrote db'.cards cardId new

/-- A statement writes one card, or leaves the database as it was. -/
theorem cardAnswer_cases (ranking : Ranking) (x : Outside) (op : CardStatement) (w : World) :
    (cardAnswer ranking x op w).2.db = w.db ∨ ∃ cardId old new,
      CardWritten ranking x op w.db (cardAnswer ranking x op w).2.db cardId old new := by
  cases op with
  | subcard op =>
      rcases answer_cases ranking x op w with hsame | ⟨cardId, old, new, h⟩
      · exact .inl hsame
      · exact .inr ⟨cardId, old, new, .subcard h.write, h.before, h.cards⟩
  | findCardIncludingDeleted =>
      exact .inl rfl
  | changeCard change =>
      simp only [cardAnswer, World.write]
      cases hrun : change.run w.db x.now with
      | error e => exact .inl rfl
      | ok changed =>
          obtain ⟨card, db⟩ := changed
          rw [CardChange.run_eq] at hrun
          obtain ⟨old, hold, -, hwrote, -, -⟩ := CardRepository.update_wrote hrun
          exact .inr ⟨_, _, _, .changeCard, hold, hwrote⟩

/-- No card is lost. -/
theorem cardAnswer_grows (ranking : Ranking) (x : Outside) (op : CardStatement) (w : World) :
    w.db.cards.Grows (cardAnswer ranking x op w).2.db.cards := by
  rcases cardAnswer_cases ranking x op w with hsame | ⟨cardId, old, new, h⟩
  · rw [hsame]
    exact fun _ hk => hk
  · exact h.cards.grows

end SyncBoard.Board
