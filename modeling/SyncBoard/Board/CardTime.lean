import SyncBoard.Board.CardCalls

/-!
# CardTimeRepository and CardTimeService

Time entries and the calls that set an estimate and log time, statement by statement,
beside the calls of `CardService`. `addEntry` is one transaction: it inserts the entry
and increments `loggedMinutes`, and where it breaks off before its commit neither is
there.

## Implementation notes

Where a transaction breaks off, and with which error, comes from outside. That covers
a sum that exceeds the column, and a commit whose answer is lost. A transaction is one
statement of its call: what it has written is not visible before its commit, and the
increment locks the row.
-/

namespace SyncBoard.Board

open Relational Interleaved Interleaved.Program

/-- A row of `card_time_entries`. -/
structure CardTimeEntryRow where
  cardId : Uuid
  userId : Uuid
  minutes : Nat
  note : Option JsString := none
  createdAt : Timestamp
  deriving DecidableEq, Repr

structure LogTimeDto where
  minutes : Nat
  note : Option JsString := none
  deriving DecidableEq, Repr

structure UpdateEstimateDto where
  estimateMinutes : Nat
  deriving DecidableEq, Repr

/-- `CardTimeLoggedEvent`. -/
structure CardTimeLogged where
  cardId : Uuid
  boardId : Uuid
  minutes : Nat
  loggedTotal : Nat
  entryId : Uuid
  loggedBy : Uuid
  deriving DecidableEq, Repr

/-- The board tables with the time entries, and the events emitted so far. -/
structure CardStore where
  world : World
  entries : Table Uuid CardTimeEntryRow := Table.empty
  timeLogged : List CardTimeLogged := []
  /-- The foreign key `card_id`. -/
  keys : entries.All fun _ entry => world.db.cards.contains entry.cardId = true

namespace CardStore

/-- The store after a write to the board tables that loses no card. -/
def withWorld (s : CardStore) (w : World) (h : s.world.db.cards.Grows w.db.cards) :
    CardStore where
  world := w
  entries := s.entries
  timeLogged := s.timeLogged
  keys := s.keys.imp fun _ _ hkey => h _ hkey

/-- Insert a row of `card_time_entries`. -/
def insertEntry (s : CardStore) (id : Uuid) (entry : CardTimeEntryRow) :
    Except DbError CardStore :=
  if hfresh : s.entries.get? id = none then
    if hkeys : s.world.db.cards.contains entry.cardId = true ∧
        s.world.db.users.contains entry.userId = true then
      .ok
        { s with
          entries := s.entries.insert id entry hfresh
          keys := s.keys.insert hfresh hkeys.1 }
    else .error .foreignKeyViolation
  else .error .uniqueViolation

/-- The row with more time logged. -/
def increment (minutes : Nat) (card : CardRow) : CardRow :=
  { card with loggedMinutes := card.loggedMinutes + minutes }

theorem grows_of_update {db : Database} {cardId : Uuid} {data : CardRow → CardRow}
    {now : Timestamp} {r : Card × Database} (h : CardRepository.update db cardId data now = .ok r) :
    db.cards.Grows r.2.cards := by
  obtain ⟨old, -, -, hwrote, -, -⟩ := CardRepository.update_wrote h
  exact hwrote.grows

/-- Increment `logged_minutes` of a row of `cards`. -/
def incrementLoggedMinutes (s : CardStore) (cardId : Uuid) (minutes : Nat) (now : Timestamp) :
    Except DbError CardStore :=
  match h : CardRepository.update s.world.db cardId (increment minutes) now with
  | .ok r => .ok (s.withWorld { s.world with db := r.2 } (grows_of_update h))
  | .error e => .error e

end CardStore

/-- What a transaction does one after the other. -/
inductive TransactionStep
  | start
  | createEntry
  | updateCard
  | commit
  | acknowledge
  deriving DecidableEq, Repr

/-- Where a transaction breaks off, and what is thrown there. -/
structure Fault where
  step : TransactionStep
  error : AppError
  deriving DecidableEq, Repr

/-- What one statement takes from outside. -/
structure TimeOutside extends Outside where
  fault : Option Fault := none

/-- The next step of the transaction, unless it breaks off there. -/
def TimeOutside.reach (x : TimeOutside) (step : TransactionStep) : Except AppError Unit :=
  match x.fault with
  | none => .ok ()
  | some fault => if fault.step = step then .error fault.error else .ok ()

namespace CardTimeRepository

/-- The `catch` of `addEntry`: `P2003` and `P2025` become a 404. -/
def missingCard (cardId : Uuid) : DbError → AppError
  | .foreignKeyViolation | .recordNotFound => .entityNotFound "Card" cardId
  | e => .database e

/-- The transaction; an error leaves nothing of it. -/
def addEntry (s : CardStore) (x : TimeOutside) (cardId userId : Uuid) (dto : LogTimeDto) :
    Except AppError (Loaded CardTimeEntryRow × CardStore) := do
  let entry : CardTimeEntryRow :=
    { cardId := cardId, userId := userId, minutes := dto.minutes, note := dto.note,
      createdAt := x.now }
  x.reach .start
  x.reach .createEntry
  let s ← (s.insertEntry x.newId entry).mapError (missingCard cardId)
  x.reach .updateCard
  let s ← (s.incrementLoggedMinutes cardId dto.minutes x.now).mapError (missingCard cardId)
  x.reach .commit
  return (⟨x.newId, entry⟩, s)

/-- The minutes of the entries of a card. -/
def sumForCard (s : CardStore) (cardId : Uuid) : Nat :=
  s.entries.total (fun _ entry => entry.cardId == cardId) (·.minutes)

end CardTimeRepository

/-- What the calls ask, each up to its next await. -/
inductive TimeStatement
  | card (op : CardStatement)
  | addEntry (cardId userId : Uuid) (dto : LogTimeDto)
  | emitTimeLogged (event : CardTimeLogged)
  deriving DecidableEq, Repr

/-- What a statement returns. -/
abbrev TimeAnswer : TimeStatement → Type
  | .card op => CardAnswer op
  | .addEntry _ _ _ => Except AppError (Loaded CardTimeEntryRow)
  | .emitTimeLogged _ => Unit

/-- The answer to a statement and what it leaves. -/
def timeAnswer (ranking : Ranking) (x : TimeOutside) :
    (op : TimeStatement) → CardStore → TimeAnswer op × CardStore
  | .card op, s =>
      ((cardAnswer ranking x.toOutside op s.world).1,
        s.withWorld (cardAnswer ranking x.toOutside op s.world).2 (cardAnswer_grows _ _ _ _))
  | .addEntry cardId userId dto, s =>
      match CardTimeRepository.addEntry s x cardId userId dto with
      | .ok (entry, s') => ((x.reach .acknowledge).map fun _ => entry, s')
      | .error e => (.error e, s)
  | .emitTimeLogged event, s => ((), { s with timeLogged := s.timeLogged ++ [event] })

abbrev TimeProcedure := Program TimeStatement TimeAnswer AppError

/-- A program of the calls of `CardService`. -/
def TimeProcedure.ofCard {α : Type} (p : CardProcedure α) : TimeProcedure α :=
  p.via TimeStatement.card fun _ a => a

open CardProcedure (ofSubcard)
open TimeProcedure (ofCard)

namespace CardTimeProgram

def addEntry (cardId userId : Uuid) (dto : LogTimeDto) :
    TimeProcedure (Loaded CardTimeEntryRow) := do
  let entry ← ask (.addEntry cardId userId dto)
  Program.orThrow id entry

def verifyBoardInWorkspace (boardId workspaceId : Uuid) : TimeProcedure Unit :=
  ofCard (ofSubcard (CardProgram.verifyBoardInWorkspace boardId workspaceId))

def findCard (cardId boardId : Uuid) : TimeProcedure CardWithDetails :=
  ofCard (ofSubcard (CardProgram.findCard cardId boardId))

def setEstimate (boardId workspaceId cardId : Uuid) (dto : UpdateEstimateDto) (userId : Uuid) :
    TimeProcedure Card := do
  verifyBoardInWorkspace boardId workspaceId
  let _ ← findCard cardId boardId
  let updated ← ofCard (CardProgram.saveChange
    (.update cardId none none { estimateMinutes := some (some dto.estimateMinutes) }))
  ofCard (ofSubcard (CardProgram.announce (.updated updated boardId userId)))
  return updated

def logTime (boardId workspaceId cardId : Uuid) (dto : LogTimeDto) (userId : Uuid) :
    TimeProcedure CardWithDetails := do
  verifyBoardInWorkspace boardId workspaceId
  let _ ← findCard cardId boardId
  let entry ← addEntry cardId userId dto
  let updated ← findCard cardId boardId
  ask (TimeStatement.emitTimeLogged
    ⟨cardId, boardId, dto.minutes, updated.row.loggedMinutes, entry.id, userId⟩)
  return updated

end CardTimeProgram

/-- A call that creates a card, changes one or logs time on it. -/
inductive TimeCall
  | card (call : CardCall)
  | setEstimate (boardId workspaceId cardId : Uuid) (dto : UpdateEstimateDto) (userId : Uuid)
  | logTime (boardId workspaceId cardId : Uuid) (dto : LogTimeDto) (userId : Uuid)
  deriving DecidableEq, Repr

def TimeCall.program (ranking : Ranking) : TimeCall → TimeProcedure Unit
  | .card call => ofCard (call.program ranking)
  | .setEstimate b w c dto u => do let _ ← CardTimeProgram.setEstimate b w c dto u
  | .logTime b w c dto u => do let _ ← CardTimeProgram.logTime b w c dto u

/-- A program of the calls of `CardService` does to the board tables what it does
without the entries, and leaves the entries as they are. -/
theorem exec_ofCard {α : Type} (ranking : Ranking) (x : TimeOutside) (p : CardProcedure α)
    (s : CardStore) :
    ((ofCard p).exec (timeAnswer ranking x) s).1 =
        (p.exec (cardAnswer ranking x.toOutside) s.world).1 ∧
      ((ofCard p).exec (timeAnswer ranking x) s).2.world =
          (p.exec (cardAnswer ranking x.toOutside) s.world).2 ∧
        ((ofCard p).exec (timeAnswer ranking x) s).2.entries = s.entries := by
  rw [TimeProcedure.ofCard]
  apply exec_via (R := fun (w : World) (t : CardStore) => t.world = w ∧ t.entries = s.entries)
  · rintro op w t ⟨rfl, hentries⟩
    exact ⟨rfl, rfl, hentries⟩
  · exact ⟨rfl, rfl⟩

/-- The program of a call of `CardService` that nobody interrupts is that call. -/
theorem exec_cardCall (ranking : Ranking) (x : TimeOutside) (call : CardCall) (s : CardStore) :
    ((ofCard (call.program ranking)).exec (timeAnswer ranking x) s).1 =
        (Fallible.exec (call.toCall.run (x.env ranking)) s.world).1 ∧
      ((ofCard (call.program ranking)).exec (timeAnswer ranking x) s).2.world =
        (Fallible.exec (call.toCall.run (x.env ranking)) s.world).2 := by
  obtain ⟨hresult, hworld, -⟩ := exec_ofCard ranking x (call.program ranking) s
  rw [← action_cardProgram]
  exact ⟨hresult, hworld⟩

end SyncBoard.Board
