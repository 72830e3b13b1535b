import SyncBoard.Board.Operations
import SyncBoard.Lib.Program

/-!
# The subcard calls, statement by statement

The calls of `CardService` that move cards in the hierarchy, on the board or out of
the way, as programs that interleave at their awaits. Each statement is a query, an
update or the transaction of `create`; an event is a step of its own, which no
statement depends on. `action_program` says that a program which nobody interrupts
is the call of `CardService`.
-/

namespace SyncBoard.Board

open Relational Interleaved Interleaved.Program

/-- The updates of one row of `cards`. -/
inductive CardUpdate
  | attachSubcard (childId parentId : Uuid)
  | detachSubcard (childId : Uuid)
  | moveCard (cardId targetListId : Uuid) (newRank : JsString)
  | archive (cardId : Uuid)
  | unarchive (cardId : Uuid)
  deriving DecidableEq, Repr

def CardUpdate.run (db : Database) (now : Timestamp) :
    CardUpdate → Except DbError (Card × Database)
  | .attachSubcard childId parentId => CardRepository.attachSubcard db childId parentId now
  | .detachSubcard childId => CardRepository.detachSubcard db childId now
  | .moveCard cardId targetListId newRank =>
      CardRepository.moveCard db cardId targetListId newRank now
  | .archive cardId => CardRepository.archive db cardId now
  | .unarchive cardId => CardRepository.unarchive db cardId now

/-- What the calls ask, each up to its next await. -/
inductive Statement
  | findBoard (boardId workspaceId : Uuid)
  | findList (listId boardId : Uuid)
  | isUserMember (workspaceId userId : Uuid)
  | findLabel (labelId : Uuid)
  | findCard (cardId boardId : Uuid)
  | findCardIncludingArchived (cardId boardId : Uuid)
  | findLastInList (listId : Uuid)
  | countSubcards (parentId : Uuid)
  | createCard (dto : CreateCardDto) (listId : Uuid) (rank : JsString)
      (parentCardId : Option Uuid) (userId : Uuid)
  | updateCard (update : CardUpdate)
  | emit (event : CardEvent)
  deriving DecidableEq, Repr

/-- What a statement returns. -/
abbrev Answer : Statement → Type
  | .findBoard _ _ => Option BoardRow
  | .findList _ _ => Option ListRow
  | .isUserMember _ _ => Bool
  | .findLabel _ => Option LabelRow
  | .findCard _ _ => Option CardWithDetails
  | .findCardIncludingArchived _ _ => Option Card
  | .findLastInList _ => Option CardRow
  | .countSubcards _ => Nat
  | .createCard _ _ _ _ _ => Except DbError CardWithDetails
  | .updateCard _ => Except DbError Card
  | .emit _ => Unit

/-- What one statement takes from outside: the id of a new row and the clock. -/
structure Outside where
  newId : Uuid
  now : Timestamp

/-- What a statement or a transaction writes, or why it is refused. -/
def World.write {α : Type} (w : World) (r : Except DbError (α × Database)) :
    Except DbError α × World :=
  match r with
  | .ok (a, db) => (.ok a, { w with db := db })
  | .error e => (.error e, w)

def Outside.env (ranking : Ranking) (x : Outside) : Env where
  lexorank := ranking.lexorank
  rankLe := ranking.rankLe
  newId := x.newId
  now := x.now

/-- The answer to a statement and what it leaves. -/
def answer (ranking : Ranking) (x : Outside) : (op : Statement) → World → Answer op × World
  | .findBoard boardId workspaceId, w =>
      (BoardRepository.findById w.db boardId (some workspaceId), w)
  | .findList listId boardId, w =>
      (ListRepository.findActiveById w.db listId (some boardId), w)
  | .isUserMember workspaceId userId, w =>
      (WorkspaceService.isUserMember w.db workspaceId userId, w)
  | .findLabel labelId, w => (LabelRepository.findById w.db labelId, w)
  | .findCard cardId boardId, w => (CardRepository.findActiveById w.db cardId (some boardId), w)
  | .findCardIncludingArchived cardId boardId, w =>
      (CardRepository.findByIdIncludingArchived w.db cardId (some boardId), w)
  | .findLastInList listId, w => (CardRepository.findLastInList ranking.rankLe w.db listId, w)
  | .countSubcards parentId, w => (CardRepository.countSubcards w.db parentId, w)
  | .createCard dto listId rank parentCardId userId, w =>
      w.write (CardRepository.create w.db x.newId
        (CardService.newCard (x.env ranking) dto listId rank parentCardId userId)
        dto.assigneeIds dto.labelIds x.now)
  | .updateCard update, w => w.write (update.run w.db x.now)
  | .emit event, w => ((), { w with events := w.events ++ [event] })

abbrev Procedure := Program Statement Answer AppError

namespace CardProgram
variable (ranking : Ranking)

/-- `eventEmitter.emit`. -/
def announce (event : CardEvent) : Procedure Unit :=
  ask (Statement.emit event)

def verifyBoardInWorkspace (boardId workspaceId : Uuid) : Procedure Unit := do
  let board ← ask (.findBoard boardId workspaceId)
  let _ ← demand board (.entityNotFound "Board" boardId)

/-- The active list of a board, or the error that the call throws without it. -/
def findList (listId boardId : Uuid) (e : AppError) : Procedure ListRow := do
  let list ← ask (.findList listId boardId)
  demand list e

def findCard (cardId boardId : Uuid) : Procedure CardWithDetails := do
  let card ← ask (.findCard cardId boardId)
  demand card (.entityNotFound "Card" cardId)

def findCardIncludingArchived (cardId boardId : Uuid) : Procedure Card := do
  let card ← ask (.findCardIncludingArchived cardId boardId)
  demand card (.entityNotFound "Card" cardId)

def validateAssignees (workspaceId : Uuid) (assigneeIds : List Uuid) : Procedure Unit :=
  forM assigneeIds fun userId => do
    let isMember ← ask (.isUserMember workspaceId userId)
    Program.refuseIf (!isMember)
      (.badRequest s!"User {userId} is not a member of workspace {workspaceId}")

def validateLabels (workspaceId : Uuid) (labelIds : List Uuid) : Procedure Unit :=
  forM labelIds fun labelId => do
    let label ← ask (Statement.findLabel labelId)
    Program.refuseIf (!label.any fun label => label.workspaceId == workspaceId)
      (.badRequest s!"Label {labelId} is not available in workspace {workspaceId}")

def parentFor (boardId : Uuid) : Option Uuid → Procedure (Option Uuid)
  | none => pure none
  | some parentCardId => do
      let parent ← findCard parentCardId boardId
      Program.refuseIf parent.row.parentCardId.isSome
        (.businessRule "MAX_DEPTH" "Cannot create subcard under a subcard (max depth 2)")
      return some parent.id

/-- The rank after a last card, or the initial rank. -/
def rankAfter (lastCard : Option CardRow) : JsString :=
  match lastCard with
  | some lastCard => LexorankService.rankOrInitial ranking.lexorank (some lastCard.rank) none
  | none => LexorankService.getInitialRank ranking.lexorank

def rankAfterLast (listId : Uuid) : Procedure JsString := do
  let lastCard ← ask (.findLastInList listId)
  return rankAfter ranking lastCard

/-- The transaction of `create`. -/
def insertCard (dto : CreateCardDto) (listId : Uuid) (rank : JsString)
    (parentCardId : Option Uuid) (userId : Uuid) : Procedure CardWithDetails := do
  let created ← ask (.createCard dto listId rank parentCardId userId)
  Program.orThrow .database created

/-- An update of a card. -/
def save (update : CardUpdate) : Procedure Card := do
  let updated ← ask (.updateCard update)
  Program.orThrow .database updated

def create (boardId workspaceId listId : Uuid) (dto : CreateCardDto) (userId : Uuid) :
    Procedure CardWithDetails := do
  let _ ← findList listId boardId (.entityNotFound "List" listId)
  validateAssignees workspaceId dto.assigneeIds
  validateLabels workspaceId dto.labelIds
  let parentCardId ← parentFor boardId dto.parentCardId
  let rank ← rankAfterLast ranking listId
  let card ← insertCard dto listId rank parentCardId userId
  announce (.created card.toCard boardId listId userId)
  return card

def createSubcard (boardId workspaceId parentId : Uuid) (dto : CreateCardDto) (userId : Uuid) :
    Procedure CardWithDetails := do
  verifyBoardInWorkspace boardId workspaceId
  let parent ← findCard parentId boardId
  Program.refuseIf parent.row.parentCardId.isSome
    (.businessRule "MAX_DEPTH" "Cannot create subcard under a subcard (max depth 2)")
  validateAssignees workspaceId dto.assigneeIds
  validateLabels workspaceId dto.labelIds
  let rank ← rankAfterLast ranking parent.row.listId
  let card ← insertCard dto parent.row.listId rank (some parentId) userId
  announce (.subcardCreated parentId card.id boardId userId)
  return card

def attachSubcard (boardId workspaceId : Uuid) (parentId : UuidText) (subcardId userId : Uuid) :
    Procedure Card := do
  verifyBoardInWorkspace boardId workspaceId
  let parent ← findCard parentId.id boardId
  Program.refuseIf parent.row.parentCardId.isSome
    (.businessRule "MAX_DEPTH" "Cannot attach subcard under a subcard (max depth 2)")
  let child ← findCard subcardId boardId
  Program.refuseIf (.canonical child.id == parentId)
    (.businessRule "CYCLE" "A card cannot be its own parent")
  Program.refuseIf child.row.parentCardId.isSome
    (.businessRule "ALREADY_HAS_PARENT" "Card already has a parent")
  let subcardCount ← ask (.countSubcards child.id)
  Program.refuseIf (decide (0 < subcardCount))
    (.businessRule "HAS_SUBCARDS" "A card with subcards cannot become a subcard")
  let attached ← save (.attachSubcard subcardId parentId.id)
  announce (.subcardCreated parentId.id subcardId boardId userId)
  return attached

def detachSubcard (boardId workspaceId subcardId userId : Uuid) : Procedure Card := do
  verifyBoardInWorkspace boardId workspaceId
  let child ← findCard subcardId boardId
  Program.refuseIf child.row.parentCardId.isNone
    (.businessRule "NO_PARENT" "Card is not a subcard")
  let detached ← save (.detachSubcard subcardId)
  announce (.updated detached boardId userId)
  return detached

def move (boardId workspaceId cardId : Uuid) (dto : MoveCardDto) (userId : Uuid) :
    Procedure Card := do
  verifyBoardInWorkspace boardId workspaceId
  let card ← findCard cardId boardId
  let _ ← findList dto.targetListId boardId
    (.badRequest s!"Target list {dto.targetListId} does not belong to board {boardId}")
  let newRank := LexorankService.rankOrInitial ranking.lexorank dto.prevRank dto.nextRank
  let moved ← save (.moveCard cardId dto.targetListId newRank)
  announce (.moved cardId boardId card.row.listId dto.targetListId newRank userId)
  return moved

def archive (boardId workspaceId cardId userId : Uuid) : Procedure Unit := do
  verifyBoardInWorkspace boardId workspaceId
  let card ← findCard cardId boardId
  let _ ← save (.archive cardId)
  announce (.archived cardId boardId card.row.listId userId)

def unarchive (boardId workspaceId cardId userId : Uuid) : Procedure Card := do
  verifyBoardInWorkspace boardId workspaceId
  let _ ← findCardIncludingArchived cardId boardId
  let restored ← save (.unarchive cardId)
  announce (.unarchived restored boardId restored.row.listId userId)
  return restored

end CardProgram

/-- A call that changes where a card is in the hierarchy, on the board or out of it. -/
inductive SubcardCall
  | create (boardId workspaceId listId : Uuid) (dto : CreateCardDto) (userId : Uuid)
  | createSubcard (boardId workspaceId parentId : Uuid) (dto : CreateCardDto) (userId : Uuid)
  | attachSubcard (boardId workspaceId : Uuid) (parentId : UuidText) (subcardId userId : Uuid)
  | detachSubcard (boardId workspaceId subcardId userId : Uuid)
  | move (boardId workspaceId cardId : Uuid) (dto : MoveCardDto) (userId : Uuid)
  | archive (boardId workspaceId cardId userId : Uuid)
  | unarchive (boardId workspaceId cardId userId : Uuid)
  deriving DecidableEq, Repr

namespace SubcardCall

def program (ranking : Ranking) : SubcardCall → Procedure Unit
  | .create b w l dto u => do let _ ← CardProgram.create ranking b w l dto u
  | .createSubcard b w p dto u => do let _ ← CardProgram.createSubcard ranking b w p dto u
  | .attachSubcard b w p c u => do let _ ← CardProgram.attachSubcard b w p c u
  | .detachSubcard b w c u => do let _ ← CardProgram.detachSubcard b w c u
  | .move b w c dto u => do let _ ← CardProgram.move ranking b w c dto u
  | .archive b w c u => CardProgram.archive b w c u
  | .unarchive b w c u => do let _ ← CardProgram.unarchive b w c u

/-- The call of `CardService`. -/
def toCall : SubcardCall → Call
  | .create b w l dto u => .create b w l dto u
  | .createSubcard b w p dto u => .createSubcard b w p dto u
  | .attachSubcard b w p c u => .attachSubcard b w p c u
  | .detachSubcard b w c u => .detachSubcard b w c u
  | .move b w c dto u => .move b w c dto u
  | .archive b w c u => .archive b w c u
  | .unarchive b w c u => .unarchive b w c u

end SubcardCall

/-- The statement neither writes nor emits. -/
def Statement.Reads : Statement → Prop
  | .createCard _ _ _ _ _ | .updateCard _ | .emit _ => False
  | _ => True

namespace CardProgram
variable {ranking : Ranking}

theorem reads_verifyBoardInWorkspace (boardId workspaceId : Uuid) :
    (verifyBoardInWorkspace boardId workspaceId).Only Statement.Reads :=
  (Only.ask trivial).bind fun _ => (Only.demand _ _).bind fun _ => Only.pure _

theorem reads_findList (listId boardId : Uuid) (e : AppError) :
    (findList listId boardId e).Only Statement.Reads :=
  (Only.ask trivial).bind fun _ => Only.demand _ _

theorem reads_findCard (cardId boardId : Uuid) :
    (findCard cardId boardId).Only Statement.Reads :=
  (Only.ask trivial).bind fun _ => Only.demand _ _

theorem reads_findCardIncludingArchived (cardId boardId : Uuid) :
    (findCardIncludingArchived cardId boardId).Only Statement.Reads :=
  (Only.ask trivial).bind fun _ => Only.demand _ _

theorem reads_validateAssignees (workspaceId : Uuid) (assigneeIds : List Uuid) :
    (validateAssignees workspaceId assigneeIds).Only Statement.Reads :=
  Only.forM fun _ => (Only.ask trivial).bind fun _ => Only.refuseIf _ _

theorem reads_validateLabels (workspaceId : Uuid) (labelIds : List Uuid) :
    (validateLabels workspaceId labelIds).Only Statement.Reads :=
  Only.forM fun _ => (Only.ask trivial).bind fun _ => Only.refuseIf _ _

theorem reads_parentFor (boardId : Uuid) (parentCardId : Option Uuid) :
    (parentFor boardId parentCardId).Only Statement.Reads := by
  cases parentCardId with
  | none => exact Only.pure _
  | some parentCardId =>
      exact (reads_findCard _ _).bind fun _ => (Only.refuseIf _ _).bind fun _ => Only.pure _

theorem reads_rankAfterLast (listId : Uuid) :
    (rankAfterLast ranking listId).Only Statement.Reads :=
  (Only.ask trivial).bind fun _ => Only.pure _

end CardProgram

section Alone
variable {α : Type} {ranking : Ranking} {x : Outside}

theorem action_announce (event : CardEvent) :
    (CardProgram.announce event).action (answer ranking x) = emit event := rfl

theorem action_findCard (cardId boardId : Uuid) :
    (CardProgram.findCard cardId boardId).action (answer ranking x) =
      CardService.findCard cardId boardId := by
  rw [CardProgram.findCard, action_ask_bind fun _ => rfl]
  simp only [action_demand]
  exact Fallible.query_bind_demand _ _

theorem action_findList (listId boardId : Uuid) (e : AppError) :
    (CardProgram.findList listId boardId e).action (answer ranking x) =
      find (ListRepository.findActiveById · listId (some boardId)) e := by
  rw [CardProgram.findList, action_ask_bind fun _ => rfl]
  simp only [action_demand]
  exact Fallible.query_bind_demand _ _

theorem action_findCardIncludingArchived (cardId boardId : Uuid) :
    (CardProgram.findCardIncludingArchived cardId boardId).action (answer ranking x) =
      find (CardRepository.findByIdIncludingArchived · cardId (some boardId))
        (.entityNotFound "Card" cardId) := by
  rw [CardProgram.findCardIncludingArchived, action_ask_bind fun _ => rfl]
  simp only [action_demand]
  exact Fallible.query_bind_demand _ _

theorem action_verifyBoardInWorkspace (boardId workspaceId : Uuid) :
    (CardProgram.verifyBoardInWorkspace boardId workspaceId).action (answer ranking x) =
      CardService.verifyBoardInWorkspace boardId workspaceId := by
  rw [CardProgram.verifyBoardInWorkspace, action_ask_bind fun _ => rfl,
    CardService.verifyBoardInWorkspace, find, ← Fallible.query_bind_demand]
  simp only [action_bind, action_demand, action_pure, LawfulMonad.bind_assoc]

theorem action_validateAssignees (workspaceId : Uuid) (assigneeIds : List Uuid) :
    (CardProgram.validateAssignees workspaceId assigneeIds).action (answer ranking x) =
      CardService.validateAssignees workspaceId assigneeIds := by
  rw [CardProgram.validateAssignees, action_forM, CardService.validateAssignees]
  congr 1
  funext userId
  rw [action_ask_bind fun _ => rfl]
  simp only [action_refuseIf, Bool.not_not]
  exact Fallible.query_bind_check _ _ _

theorem action_validateLabels (workspaceId : Uuid) (labelIds : List Uuid) :
    (CardProgram.validateLabels workspaceId labelIds).action (answer ranking x) =
      CardService.validateLabels workspaceId labelIds := by
  rw [CardProgram.validateLabels, action_forM, CardService.validateLabels]
  congr 1
  funext labelId
  rw [action_ask_bind fun _ => rfl]
  simp only [action_refuseIf, Bool.not_not]
  exact Fallible.query_bind_check _ _ _

theorem action_parentFor (boardId : Uuid) (parentCardId : Option Uuid) :
    (CardProgram.parentFor boardId parentCardId).action (answer ranking x) =
      CardService.parentFor boardId parentCardId := by
  cases parentCardId with
  | none => rfl
  | some parentCardId =>
      rw [CardProgram.parentFor, CardService.parentFor]
      simp only [action_bind, action_findCard, action_refuseIf, action_pure, refuseIf]

theorem action_rankAfterLast (listId : Uuid) :
    (CardProgram.rankAfterLast ranking listId).action (answer ranking x) =
      Fallible.query fun w => CardService.rankAfterLast (x.env ranking) w.db listId := by
  rw [CardProgram.rankAfterLast, action_ask_bind fun _ => rfl]
  rfl

/-- A statement that writes the database, where what refuses it is thrown. -/
theorem action_written {Op : Type} {Ans : Op → Type} {answer : (op : Op) → World → Ans op × World}
    {op : Op} {f : Database → Except DbError (α × Database)}
    {result : Ans op → Except DbError α} {rejected : DbError → AppError}
    (hresult : ∀ w, result (answer op w).1 = (w.write (f w.db)).1)
    (hworld : ∀ w, (answer op w).2 = (w.write (f w.db)).2) :
    (ask op >>= fun r => Program.orThrow rejected (result r)).action answer =
      write f rejected := by
  apply action_ask_orThrow
  · intro w a w' h
    rw [hresult, hworld]
    cases hf : f w.db with
    | ok r =>
        rw [hf] at h
        obtain ⟨rfl, rfl⟩ := Prod.mk.inj (Except.ok.inj h)
        exact ⟨rfl, rfl⟩
    | error e =>
        rw [hf] at h
        cases h
  · intro w e h
    rw [hresult, hworld]
    cases hf : f w.db with
    | ok r =>
        rw [hf] at h
        cases h
    | error d =>
        rw [hf] at h
        exact ⟨d, rfl, Except.error.inj h, rfl⟩

theorem action_save (update : CardUpdate) :
    (CardProgram.save update).action (answer ranking x) =
      write fun db => update.run db x.now :=
  action_written (fun _ => rfl) fun _ => rfl

theorem action_insertCard (dto : CreateCardDto) (listId : Uuid) (rank : JsString)
    (parentCardId : Option Uuid) (userId : Uuid) :
    (CardProgram.insertCard dto listId rank parentCardId userId).action (answer ranking x) =
      write fun db => CardRepository.create db x.newId
        (CardService.newCard (x.env ranking) dto listId rank parentCardId userId)
        dto.assigneeIds dto.labelIds x.now :=
  action_written (fun _ => rfl) fun _ => rfl

theorem action_createSubcard (boardId workspaceId parentId : Uuid) (dto : CreateCardDto)
    (userId : Uuid) :
    (CardProgram.createSubcard ranking boardId workspaceId parentId dto userId).action
      (answer ranking x) =
        CardService.createSubcard (x.env ranking) boardId workspaceId parentId dto userId := by
  simp only [CardProgram.createSubcard, action_bind, action_verifyBoardInWorkspace,
    action_findCard, action_refuseIf, action_validateAssignees, action_validateLabels,
    action_rankAfterLast, action_insertCard, action_announce, action_pure]
  rfl

/-- The program of a call that nobody interrupts is the call of `CardService`. -/
theorem action_program (call : SubcardCall) :
    (call.program ranking).action (answer ranking x) = call.toCall.run (x.env ranking) := by
  cases call with
  | create =>
      simp only [SubcardCall.program, CardProgram.create, action_bind, action_findList,
        action_validateAssignees, action_validateLabels, action_parentFor, action_rankAfterLast,
        action_insertCard, action_announce, action_pure]
      rfl
  | createSubcard =>
      simp only [SubcardCall.program, action_bind, action_createSubcard, action_pure]
      rfl
  | attachSubcard =>
      simp only [SubcardCall.program, CardProgram.attachSubcard, action_bind,
        action_verifyBoardInWorkspace, action_findCard, action_refuseIf, action_save,
        action_announce, action_pure]
      rfl
  | detachSubcard =>
      simp only [SubcardCall.program, CardProgram.detachSubcard, action_bind,
        action_verifyBoardInWorkspace, action_findCard, action_refuseIf, action_save,
        action_announce, action_pure]
      rfl
  | move =>
      simp only [SubcardCall.program, CardProgram.move, action_bind,
        action_verifyBoardInWorkspace, action_findCard, action_findList, action_save,
        action_announce, action_pure]
      rfl
  | archive =>
      simp only [SubcardCall.program, CardProgram.archive, action_bind,
        action_verifyBoardInWorkspace, action_findCard, action_save, action_announce]
      rfl
  | unarchive =>
      simp only [SubcardCall.program, CardProgram.unarchive, action_bind,
        action_verifyBoardInWorkspace, action_findCardIncludingArchived, action_save,
        action_announce, action_pure]
      rfl

end Alone

end SyncBoard.Board
