import SyncBoard.Board.Repositories
import SyncBoard.Lib.Action

/-!
# CardService and LabelService

The calls that create or change cards, their assignees and their labels. A call
runs on the database and the events emitted so far; it returns or throws, and
its awaits run without another call in between.

## Implementation notes

The `lexorank` package is a parameter: its four functions, `none` where one of
them throws. So is the order of the `rank` column, which is the database's
collation. A payload field is absent or a value, as its DTO declares it; the
fields of nullable columns may also be null in an update, which clears them.
`assigneeIds` and `labelIds` are treated alike when absent and when empty. Ids
are what `ParseUUIDPipe` and the DTOs let through, so a filter that the source
leaves out for an empty id is always there. One of them is compared as a string with that of a
row, the parent of an attach, so it keeps its spelling. The fields that `update` ignores
(`assigneeIds`, `labelIds`, `parentCardId`) are left out of its payload, and so
are log lines.
-/

namespace SyncBoard.Board

open Fallible

structure CreateCardDto where
  title : JsString
  description : Option JsString := none
  dueDate : Option Timestamp := none
  coverImageUrl : Option JsString := none
  assigneeIds : List Uuid := []
  labelIds : List Uuid := []
  priority : Option CardPriority := none
  status : Option CardStatus := none
  parentCardId : Option Uuid := none
  estimateMinutes : Option Nat := none
  deriving DecidableEq, Repr

structure UpdateCardDto where
  title : Option JsString := none
  description : Option (Option JsString) := none
  dueDate : Option (Option Timestamp) := none
  coverImageUrl : Option (Option JsString) := none
  priority : Option CardPriority := none
  status : Option CardStatus := none
  isComplete : Option Bool := none
  estimateMinutes : Option (Option Nat) := none
  deriving DecidableEq, Repr

structure MoveCardDto where
  targetListId : Uuid
  prevRank : Option JsString := none
  nextRank : Option JsString := none
  deriving DecidableEq, Repr

structure CreateLabelDto where
  name : Option JsString := none
  color : JsString
  cardId : Option Uuid := none
  deriving DecidableEq, Repr

/-- The events of `card.events`, in the order of their fields there. -/
inductive CardEvent
  | created (card : Card) (boardId listId createdBy : Uuid)
  | moved (cardId boardId sourceListId targetListId : Uuid) (newRank : JsString)
      (movedBy : Uuid)
  | updated (card : Card) (boardId updatedBy : Uuid)
  | archived (cardId boardId listId archivedBy : Uuid)
  | unarchived (card : Card) (boardId listId unarchivedBy : Uuid)
  | deleted (cardId boardId listId deletedBy : Uuid)
  | assigneeAdded (cardId boardId userId addedBy : Uuid)
  | assigneeRemoved (cardId boardId userId removedBy : Uuid)
  | priorityChanged (cardId boardId : Uuid) (before after : CardPriority) (changedBy : Uuid)
  | statusChanged (cardId boardId : Uuid) (before after : CardStatus) (isComplete : Bool)
      (changedBy : Uuid)
  | subcardCreated (parentCardId childCardId boardId createdBy : Uuid)
  deriving DecidableEq, Repr

/-- The events of `list.events`. -/
inductive ListEvent
  | created (list : Loaded ListRow) (createdBy : Uuid)
  | updated (list : Loaded ListRow) (updatedBy : Uuid)
  | archived (listId boardId archivedBy : Uuid)
  | unarchived (list : Loaded ListRow) (unarchivedBy : Uuid)
  | moved (listId boardId : Uuid) (newRank : JsString) (movedBy : Uuid)
  | deleted (listId boardId deletedBy : Uuid)
  deriving DecidableEq, Repr

/-- The events of `board.events`. -/
inductive BoardEvent
  | created (board : Loaded BoardRow) (createdBy : Uuid)
  | updated (board : Loaded BoardRow) (updatedBy : Uuid)
  | archived (boardId workspaceId archivedBy : Uuid)
  | unarchived (board : Loaded BoardRow) (unarchivedBy : Uuid)
  | deleted (boardId workspaceId deletedBy : Uuid)
  deriving DecidableEq, Repr

/-- The events of `checklist.events`. -/
inductive ChecklistEvent
  | created (checklist : ChecklistWithItems) (boardId createdBy : Uuid)
  | updated (checklistId cardId boardId updatedBy : Uuid)
  | deleted (checklistId cardId boardId deletedBy : Uuid)
  deriving DecidableEq, Repr

/-- The functions of the `lexorank` package, on rank strings. -/
structure LexoRank where
  middle : JsString
  genPrev : JsString → Option JsString
  genNext : JsString → Option JsString
  between : JsString → JsString → Option JsString

/-- What a call takes from outside: the package, the order of the `rank`
column, the id of a new row and the clock. -/
structure Env where
  lexorank : LexoRank
  rankLe : JsString → JsString → Bool
  newId : Uuid
  now : Timestamp

/-- The database and the events emitted so far, of each kind. -/
structure World where
  db : Database
  events : List CardEvent := []
  listEvents : List ListEvent := []
  boardEvents : List BoardEvent := []
  checklistEvents : List ChecklistEvent := []

abbrev Service := Action World AppError

/-- A row, or the error that the service throws without it. -/
def find {α : Type} (f : Database → Option α) (e : AppError) : Service α :=
  demand (fun w => f w.db) e

/-- A statement or a transaction. -/
def write {α : Type} (f : Database → Except DbError (α × Database))
    (rejected : DbError → AppError := .database) : Service α :=
  commit fun w =>
    match f w.db with
    | .ok (a, db) => .ok (a, { w with db := db })
    | .error e => .error (rejected e)

/-- `eventEmitter.emit`. -/
def emit (event : CardEvent) : Service Unit :=
  record fun w => { w with events := w.events ++ [event] }

/-- `eventEmitter.emit` of a list event. -/
def emitList (event : ListEvent) : Service Unit :=
  record fun w => { w with listEvents := w.listEvents ++ [event] }

/-- `eventEmitter.emit` of a board event. -/
def emitBoard (event : BoardEvent) : Service Unit :=
  record fun w => { w with boardEvents := w.boardEvents ++ [event] }

/-- `eventEmitter.emit` of a checklist event. -/
def emitChecklist (event : ChecklistEvent) : Service Unit :=
  record fun w => { w with checklistEvents := w.checklistEvents ++ [event] }

/-- Throw where a condition holds. -/
def refuseIf (c : Bool) (e : AppError) : Service Unit :=
  check (fun _ => !c) e

/-- The value of a computation that may throw. -/
def orThrow {α : Type} (r : Except AppError α) : Service α :=
  commit fun w => r.map fun a => (a, w)

section Outcomes
variable {α β : Type} {w w' : World}

@[simp] theorem returns_find {f : Database → Option α} {e : AppError} {a : α} :
    Returns (find f e) w a w' ↔ f w.db = some a ∧ w = w' :=
  returns_demand

@[simp] theorem returns_write {f : Database → Except DbError (α × Database)}
    {rejected : DbError → AppError} {a : α} :
    Returns (write f rejected) w a w' ↔
      ∃ db, f w.db = .ok (a, db) ∧ { w with db := db } = w' := by
  rw [write, returns_commit]
  rcases f w.db with e | ⟨b, db⟩ <;> simp

@[simp] theorem returns_emit {event : CardEvent} {u : Unit} :
    Returns (emit event) w u w' ↔ { w with events := w.events ++ [event] } = w' :=
  returns_record

@[simp] theorem returns_refuseIf {c : Bool} {e : AppError} {u : Unit} :
    Returns (refuseIf c e) w u w' ↔ c = false ∧ w = w' := by
  simp [refuseIf]

@[simp] theorem returns_orThrow {r : Except AppError α} {a : α} :
    Returns (orThrow r) w a w' ↔ r = .ok a ∧ w = w' :=
  returns_commit_map

@[simp] theorem returns_emitList {event : ListEvent} {u : Unit} :
    Returns (emitList event) w u w' ↔
      { w with listEvents := w.listEvents ++ [event] } = w' :=
  returns_record

@[simp] theorem returns_emitBoard {event : BoardEvent} {u : Unit} :
    Returns (emitBoard event) w u w' ↔
      { w with boardEvents := w.boardEvents ++ [event] } = w' :=
  returns_record

@[simp] theorem returns_emitChecklist {event : ChecklistEvent} {u : Unit} :
    Returns (emitChecklist event) w u w' ↔
      { w with checklistEvents := w.checklistEvents ++ [event] } = w' :=
  returns_record

/-- A read in front of the rest of a call. -/
theorem returns_find_bind {f : Database → Option α} {e : AppError} {rest : α → Service β}
    {b : β} :
    Returns (find f e >>= rest) w b w' ↔ ∃ a, f w.db = some a ∧ Returns (rest a) w b w' := by
  simp [and_assoc]

theorem returns_query_bind {f : World → α} {rest : α → Service β} {b : β} :
    Returns (query f >>= rest) w b w' ↔ Returns (rest (f w)) w b w' := by
  simp

/-- A check in front of the rest of a call. -/
theorem returns_check_bind {p : World → Bool} {e : AppError} {rest : Unit → Service β} {b : β} :
    Returns (check p e >>= rest) w b w' ↔ p w = true ∧ Returns (rest ()) w b w' := by
  simp [and_assoc, Unique.exists_iff]

theorem returns_refuseIf_bind {c : Bool} {e : AppError} {rest : Unit → Service β} {b : β} :
    Returns (refuseIf c e >>= rest) w b w' ↔ c = false ∧ Returns (rest ()) w b w' := by
  simp [and_assoc, Unique.exists_iff]

theorem reads_find (f : Database → Option α) (e : AppError) : Reads (find f e) :=
  Reads.demand _ e

theorem reads_refuseIf (c : Bool) (e : AppError) : Reads (refuseIf c e) :=
  Reads.check _ e

theorem reads_orThrow (r : Except AppError α) : Reads (orThrow r) :=
  Reads.commit_map r

theorem total_emit (event : CardEvent) : Total (emit event) :=
  Total.record _

theorem total_emitList (event : ListEvent) : Total (emitList event) :=
  Total.record _

theorem total_emitBoard (event : BoardEvent) : Total (emitBoard event) :=
  Total.record _

theorem total_emitChecklist (event : ChecklistEvent) : Total (emitChecklist event) :=
  Total.record _

theorem clean_write (f : Database → Except DbError (α × Database))
    (rejected : DbError → AppError) : Clean (write f rejected) :=
  Clean.commit _

end Outcomes

namespace LexorankService

def getInitialRank (lexorank : LexoRank) : JsString :=
  lexorank.middle

/-- The package function for two ranks; the empty string counts as no rank. -/
def rankBetween (lexorank : LexoRank) : JsString → JsString → Option JsString
  | [], [] => some lexorank.middle
  | [], next => lexorank.genPrev next
  | prev, [] => lexorank.genNext prev
  | prev, next => lexorank.between prev next

def getRankBetween (lexorank : LexoRank) (prevRank nextRank : Option JsString) :
    Except AppError JsString :=
  match rankBetween lexorank (prevRank.getD []) (nextRank.getD []) with
  | some rank => .ok rank
  | none => .error (.businessRule "INVALID_RANK" "Invalid LexoRank ordering string provided")

/-- `getRankBetween` with the `catch` of its callers. -/
def rankOrInitial (lexorank : LexoRank) (prevRank nextRank : Option JsString) : JsString :=
  match getRankBetween lexorank prevRank nextRank with
  | .ok rank => rank
  | .error _ => getInitialRank lexorank

end LexorankService

def isStatusTransitionAllowed (before after : CardStatus) : Bool :=
  before != after

def isCompleteFromStatus (status : CardStatus) : Bool :=
  status == .done || status == .closed

namespace CardService
variable (env : Env)

def verifyBoardInWorkspace (boardId workspaceId : Uuid) : Service Unit := do
  let _ ← find (BoardRepository.findById · boardId (some workspaceId))
    (.entityNotFound "Board" boardId)

def validateAssignees (workspaceId : Uuid) (assigneeIds : List Uuid) : Service Unit :=
  forM assigneeIds fun userId =>
    check (fun w => WorkspaceService.isUserMember w.db workspaceId userId)
      (.badRequest s!"User {userId} is not a member of workspace {workspaceId}")

/-- The label exists and is one of the workspace's. -/
def labelAvailable (db : Database) (workspaceId labelId : Uuid) : Bool :=
  (LabelRepository.findById db labelId).any fun label => label.workspaceId == workspaceId

def validateLabels (workspaceId : Uuid) (labelIds : List Uuid) : Service Unit :=
  forM labelIds fun labelId =>
    check (fun w => labelAvailable w.db workspaceId labelId)
      (.badRequest s!"Label {labelId} is not available in workspace {workspaceId}")

/-- The active card of a board, or the 404 that every call throws without it. -/
def findCard (cardId boardId : Uuid) : Service CardWithDetails :=
  find (CardRepository.findActiveById · cardId (some boardId)) (.entityNotFound "Card" cardId)

/-- The rank after the last card of a list. -/
def rankAfterLast (db : Database) (listId : Uuid) : JsString :=
  match CardRepository.findLastInList env.rankLe db listId with
  | some lastCard => LexorankService.rankOrInitial env.lexorank (some lastCard.rank) none
  | none => LexorankService.getInitialRank env.lexorank

/-- The row that `create` and `createSubcard` insert. -/
def newCard (dto : CreateCardDto) (listId : Uuid) (rank : JsString) (parentCardId : Option Uuid)
    (userId : Uuid) : CardRow :=
  let status := dto.status.getD .notStarted
  { listId := listId
    title := dto.title
    description := dto.description
    rank := rank
    dueDate := dto.dueDate
    coverImageUrl := dto.coverImageUrl
    priority := dto.priority.getD .medium
    status := status
    isComplete := isCompleteFromStatus status
    parentCardId := parentCardId
    estimateMinutes := dto.estimateMinutes
    createdBy := userId
    updatedAt := env.now }

/-- The optional parent of `create`. -/
def parentFor (boardId : Uuid) : Option Uuid → Service (Option Uuid)
  | none => pure none
  | some parentCardId => do
      let parent ← findCard parentCardId boardId
      refuseIf parent.row.parentCardId.isSome
        (.businessRule "MAX_DEPTH" "Cannot create subcard under a subcard (max depth 2)")
      return some parent.id

def create (boardId workspaceId listId : Uuid) (dto : CreateCardDto) (userId : Uuid) :
    Service CardWithDetails := do
  let _ ← find (ListRepository.findActiveById · listId (some boardId))
    (.entityNotFound "List" listId)
  validateAssignees workspaceId dto.assigneeIds
  validateLabels workspaceId dto.labelIds
  let parentCardId ← parentFor boardId dto.parentCardId
  let rank ← query fun w => rankAfterLast env w.db listId
  let card ← write fun db =>
    CardRepository.create db env.newId (newCard env dto listId rank parentCardId userId)
      dto.assigneeIds dto.labelIds env.now
  emit (.created card.toCard boardId listId userId)
  return card

/-- The status and completion flag that `update` writes: a status decides the
flag, and a flag alone decides the status. -/
def statusPatch (existing : CardRow) (dto : UpdateCardDto) : Option CardStatus × Option Bool :=
  match dto.status, dto.isComplete with
  | some status, _ => (some status, some (isCompleteFromStatus status))
  | none, some isComplete =>
      if isComplete && existing.status != .closed then (some .done, some isComplete)
      else if !isComplete && existing.status != .notStarted then (some .active, some isComplete)
      else (some existing.status, some isComplete)
  | none, none => (none, none)

/-- The data of `update`: every field that the payload gives. -/
def patch (status : Option CardStatus) (isComplete : Option Bool) (dto : UpdateCardDto)
    (card : CardRow) : CardRow :=
  { card with
    title := dto.title.getD card.title
    description := dto.description.getD card.description
    dueDate := dto.dueDate.getD card.dueDate
    isComplete := isComplete.getD card.isComplete
    status := status.getD card.status
    priority := dto.priority.getD card.priority
    estimateMinutes := dto.estimateMinutes.getD card.estimateMinutes
    coverImageUrl := dto.coverImageUrl.getD card.coverImageUrl }

def update (boardId workspaceId cardId : Uuid) (dto : UpdateCardDto) (userId : Uuid) :
    Service Card := do
  verifyBoardInWorkspace boardId workspaceId
  let existing ← findCard cardId boardId
  let (status, isComplete) := statusPatch existing.row dto
  let updated ← write (CardRepository.update · cardId (patch status isComplete dto) env.now)
  emit (.updated updated boardId userId)
  return updated

def updatePriority (boardId workspaceId cardId : Uuid) (priority : CardPriority)
    (userId : Uuid) : Service Card := do
  verifyBoardInWorkspace boardId workspaceId
  let existing ← findCard cardId boardId
  if existing.row.priority == priority then return existing.toCard
  else do
    let updated ← write (CardRepository.updatePriority · cardId priority env.now)
      (CardRepository.missingCard cardId)
    emit (.priorityChanged cardId boardId existing.row.priority priority userId)
    return updated

def updateStatus (boardId workspaceId cardId : Uuid) (status : CardStatus) (userId : Uuid) :
    Service Card := do
  verifyBoardInWorkspace boardId workspaceId
  let existing ← findCard cardId boardId
  if !isStatusTransitionAllowed existing.row.status status then return existing.toCard
  else do
    let isComplete := isCompleteFromStatus status
    let updated ← write (CardRepository.updateStatus · cardId status isComplete env.now)
      (CardRepository.missingCard cardId)
    emit (.statusChanged cardId boardId existing.row.status status isComplete userId)
    return updated

def createSubcard (boardId workspaceId parentId : Uuid) (dto : CreateCardDto) (userId : Uuid) :
    Service CardWithDetails := do
  verifyBoardInWorkspace boardId workspaceId
  let parent ← findCard parentId boardId
  refuseIf parent.row.parentCardId.isSome
    (.businessRule "MAX_DEPTH" "Cannot create subcard under a subcard (max depth 2)")
  validateAssignees workspaceId dto.assigneeIds
  validateLabels workspaceId dto.labelIds
  let rank ← query fun w => rankAfterLast env w.db parent.row.listId
  let card ← write fun db =>
    CardRepository.create db env.newId
      (newCard env dto parent.row.listId rank (some parentId) userId)
      dto.assigneeIds dto.labelIds env.now
  emit (.subcardCreated parentId card.id boardId userId)
  return card

def attachSubcard (boardId workspaceId : Uuid) (parentId : UuidText) (subcardId userId : Uuid) :
    Service Card := do
  verifyBoardInWorkspace boardId workspaceId
  let parent ← findCard parentId.id boardId
  refuseIf parent.row.parentCardId.isSome
    (.businessRule "MAX_DEPTH" "Cannot attach subcard under a subcard (max depth 2)")
  let child ← findCard subcardId boardId
  refuseIf (.canonical child.id == parentId)
    (.businessRule "CYCLE" "A card cannot be its own parent")
  refuseIf child.row.parentCardId.isSome
    (.businessRule "ALREADY_HAS_PARENT" "Card already has a parent")
  let subcardCount ← query fun w => CardRepository.countSubcards w.db child.id
  refuseIf (0 < subcardCount)
    (.businessRule "HAS_SUBCARDS" "A card with subcards cannot become a subcard")
  let attached ← write (CardRepository.attachSubcard · subcardId parentId.id env.now)
  emit (.subcardCreated parentId.id subcardId boardId userId)
  return attached

def detachSubcard (boardId workspaceId subcardId userId : Uuid) : Service Card := do
  verifyBoardInWorkspace boardId workspaceId
  let child ← findCard subcardId boardId
  refuseIf child.row.parentCardId.isNone (.businessRule "NO_PARENT" "Card is not a subcard")
  let detached ← write (CardRepository.detachSubcard · subcardId env.now)
  emit (.updated detached boardId userId)
  return detached

def move (boardId workspaceId cardId : Uuid) (dto : MoveCardDto) (userId : Uuid) :
    Service Card := do
  verifyBoardInWorkspace boardId workspaceId
  let card ← findCard cardId boardId
  let _ ← find (ListRepository.findActiveById · dto.targetListId (some boardId))
    (.badRequest s!"Target list {dto.targetListId} does not belong to board {boardId}")
  let newRank := LexorankService.rankOrInitial env.lexorank dto.prevRank dto.nextRank
  let moved ← write (CardRepository.moveCard · cardId dto.targetListId newRank env.now)
  emit (.moved cardId boardId card.row.listId dto.targetListId newRank userId)
  return moved

def archive (boardId workspaceId cardId userId : Uuid) : Service Unit := do
  verifyBoardInWorkspace boardId workspaceId
  let card ← findCard cardId boardId
  let _ ← write (CardRepository.archive · cardId env.now)
  emit (.archived cardId boardId card.row.listId userId)

def unarchive (boardId workspaceId cardId userId : Uuid) : Service Card := do
  verifyBoardInWorkspace boardId workspaceId
  let _ ← find (CardRepository.findByIdIncludingArchived · cardId (some boardId))
    (.entityNotFound "Card" cardId)
  let restored ← write (CardRepository.unarchive · cardId env.now)
  emit (.unarchived restored boardId restored.row.listId userId)
  return restored

def deletePermanently (boardId workspaceId cardId userId : Uuid) : Service Unit := do
  verifyBoardInWorkspace boardId workspaceId
  let card ← find (CardRepository.findByIdIncludingDeleted · cardId (some boardId))
    (.entityNotFound "Card" cardId)
  refuseIf card.row.deletedAt.isSome
    (.businessRule "CARD_ALREADY_DELETED" "Card is already deleted")
  let _ ← write (CardRepository.deletePermanently · cardId env.now)
  emit (.deleted cardId boardId card.row.listId userId)

/-- The board is not looked up in the workspace here. -/
def addAssignee (boardId workspaceId cardId assigneeUserId addedBy : Uuid) : Service Unit := do
  let _ ← findCard cardId boardId
  check (fun w => WorkspaceService.isUserMember w.db workspaceId assigneeUserId)
    (.badRequest s!"User {assigneeUserId} is not a member of workspace {workspaceId}")
  write fun db => (db.upsertCardAssignee cardId assigneeUserId env.now).map ((), ·)
  emit (.assigneeAdded cardId boardId assigneeUserId addedBy)

def removeAssignee (boardId workspaceId cardId assigneeUserId removedBy : Uuid) :
    Service Unit := do
  verifyBoardInWorkspace boardId workspaceId
  let _ ← findCard cardId boardId
  write fun db => .ok ((), db.deleteCardAssignee cardId assigneeUserId)
  emit (.assigneeRemoved cardId boardId assigneeUserId removedBy)

/-- The board is not looked up in the workspace here either. -/
def addLabel (boardId workspaceId cardId labelId : Uuid) : Service Unit := do
  let _ ← findCard cardId boardId
  check (fun w => labelAvailable w.db workspaceId labelId)
    (.badRequest s!"Label {labelId} is not available in workspace {workspaceId}")
  write fun db => (db.upsertCardLabel cardId labelId).map ((), ·)

def removeLabel (boardId workspaceId cardId labelId : Uuid) : Service Unit := do
  verifyBoardInWorkspace boardId workspaceId
  let _ ← findCard cardId boardId
  write fun db => .ok ((), db.deleteCardLabel cardId labelId)

end CardService

namespace LabelService
variable (env : Env)

/-- The row that both calls insert. -/
def newLabel (workspaceId : Uuid) (dto : CreateLabelDto) : LabelRow where
  workspaceId := workspaceId
  name := dto.name
  color := dto.color

def createLabel (boardId workspaceId : Uuid) (dto : CreateLabelDto) : Service Label := do
  let _ ← find (BoardRepository.findById · boardId (some workspaceId))
    (.entityNotFound "Board" boardId)
  write fun db =>
    LabelRepository.createWithCard db env.newId (newLabel workspaceId dto) dto.cardId

def createWorkspaceLabel (workspaceId : Uuid) (dto : CreateLabelDto) : Service Label :=
  write fun db =>
    LabelRepository.createWithCard db env.newId (newLabel workspaceId dto) dto.cardId

end LabelService

end SyncBoard.Board
