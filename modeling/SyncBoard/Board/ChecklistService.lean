import SyncBoard.Board.CardService

/-!
# ChecklistService

The calls that create or change the checklists of a card and their items, and the
one that turns an item into a subcard. Four checks are shared by the calls: the
board in the workspace, the card on the board, the checklist on the card and the
item in the checklist. `addItem` leaves out the second, and the calls on an item
leave out the third.

## Implementation notes

`promoteItemToSubcard` calls `CardService.createSubcard`, which takes the id of the
new card from the environment; the other rows have the id of the environment too,
as no call inserts two of them. What the `catch` of that call logs is left out.
-/

namespace SyncBoard.Board

open Fallible

structure CreateChecklistDto where
  title : JsString
  deriving DecidableEq, Repr

structure UpdateChecklistDto where
  title : Option JsString := none
  deriving DecidableEq, Repr

structure CreateChecklistItemDto where
  content : JsString
  deriving DecidableEq, Repr

structure UpdateChecklistItemDto where
  content : Option JsString := none
  isDone : Option Bool := none
  deriving DecidableEq, Repr

namespace ChecklistService
variable (env : Env)

/-- `assertBoardInWorkspace`, as `CardService` calls it. -/
def verifyBoardInWorkspace (boardId workspaceId : Uuid) : Service Unit :=
  CardService.verifyBoardInWorkspace boardId workspaceId

def verifyCardInBoard (boardId cardId : Uuid) : Service Unit := do
  let _ ← find (CardRepository.findActiveById · cardId (some boardId))
    (.entityNotFound "Card" cardId)

def getChecklistInCard (checklistId cardId : Uuid) : Service ChecklistWithItems :=
  find (fun db => (ChecklistRepository.findActiveChecklist env.rankLe db checklistId).filter
      fun checklist => checklist.row.cardId == cardId)
    (.entityNotFound "CardChecklist" checklistId)

def getItemInChecklist (itemId checklistId : Uuid) : Service ItemWithChecklist :=
  find (fun db => (ChecklistRepository.findItem db itemId).filter
      fun item => item.row.checklistId == checklistId)
    (.entityNotFound "ChecklistItem" itemId)

def emitUpdated (checklistId cardId boardId userId : Uuid) : Service Unit :=
  emitChecklist (.updated checklistId cardId boardId userId)

/-- The rank after a last row, or the first rank where there is none. -/
def rankAfter (last : Option JsString) : Except AppError JsString :=
  match last with
  | some rank => LexorankService.getRankBetween env.lexorank (some rank) none
  | none => .ok (LexorankService.getInitialRank env.lexorank)

def createChecklist (workspaceId boardId cardId : Uuid) (dto : CreateChecklistDto)
    (userId : Uuid) : Service ChecklistWithItems := do
  verifyBoardInWorkspace boardId workspaceId
  verifyCardInBoard boardId cardId
  let existing ← query fun w => ChecklistRepository.findChecklistsByCard env.rankLe w.db cardId
  let rank ← orThrow (rankAfter env (existing.getLast?.map fun last => last.row.rank))
  let checklist ← write fun db => ChecklistRepository.createChecklist env.rankLe db env.newId
    { cardId := cardId, title := dto.title, rank := rank, updatedAt := env.now }
  emitChecklist (.created checklist boardId userId)
  return checklist

def renameChecklist (workspaceId boardId cardId checklistId : Uuid) (dto : UpdateChecklistDto)
    (userId : Uuid) : Service ChecklistWithItems := do
  verifyBoardInWorkspace boardId workspaceId
  verifyCardInBoard boardId cardId
  let _ ← getChecklistInCard env checklistId cardId
  let updated ← write (ChecklistRepository.updateChecklist env.rankLe · checklistId
    (fun checklist => { checklist with title := dto.title.getD checklist.title }) env.now)
  emitUpdated checklistId cardId boardId userId
  return updated

def deleteChecklist (workspaceId boardId cardId checklistId userId : Uuid) : Service Unit := do
  verifyBoardInWorkspace boardId workspaceId
  verifyCardInBoard boardId cardId
  let _ ← getChecklistInCard env checklistId cardId
  write (ChecklistRepository.deleteChecklist · checklistId)
  emitChecklist (.deleted checklistId cardId boardId userId)

/-- The card is not looked up on the board here. -/
def addItem (workspaceId boardId cardId checklistId : Uuid) (dto : CreateChecklistItemDto)
    (userId : Uuid) : Service (Loaded ChecklistItemRow) := do
  verifyBoardInWorkspace boardId workspaceId
  let checklist ← getChecklistInCard env checklistId cardId
  let rank ← orThrow (rankAfter env (checklist.items.getLast?.map fun last => last.row.rank))
  let item ← write fun db => ChecklistRepository.createItem db env.newId
    { checklistId := checklistId, content := dto.content, rank := rank, updatedAt := env.now }
  emitUpdated checklistId cardId boardId userId
  return item

/-- The data of `updateItem`: every field that the payload gives. -/
def patchItem (dto : UpdateChecklistItemDto) (item : ChecklistItemRow) : ChecklistItemRow :=
  { item with
    content := dto.content.getD item.content
    isDone := dto.isDone.getD item.isDone }

/-- The checklist is not looked up on the card here. -/
def updateItem (workspaceId boardId cardId checklistId itemId : Uuid)
    (dto : UpdateChecklistItemDto) (userId : Uuid) : Service (Loaded ChecklistItemRow) := do
  verifyBoardInWorkspace boardId workspaceId
  verifyCardInBoard boardId cardId
  let _ ← getItemInChecklist itemId checklistId
  let updated ← write (ChecklistRepository.updateItem · itemId (patchItem dto) env.now)
  emitUpdated checklistId cardId boardId userId
  return updated

/-- The checklist is not looked up on the card here either. -/
def removeItem (workspaceId boardId cardId checklistId itemId userId : Uuid) : Service Unit := do
  verifyBoardInWorkspace boardId workspaceId
  verifyCardInBoard boardId cardId
  let _ ← getItemInChecklist itemId checklistId
  write (ChecklistRepository.deleteItem · itemId)
  emitUpdated checklistId cardId boardId userId

/-- Nor is it here. The item is marked done after the subcard has been created. -/
def promoteItemToSubcard (workspaceId boardId cardId checklistId itemId userId : Uuid) :
    Service CardWithDetails := do
  verifyBoardInWorkspace boardId workspaceId
  verifyCardInBoard boardId cardId
  let item ← getItemInChecklist itemId checklistId
  let subcard ← CardService.createSubcard env boardId workspaceId cardId
    { title := item.row.content } userId
  let _ ← write (ChecklistRepository.updateItem · itemId
      (patchItem { isDone := some true }) env.now)
    fun _ => .appException "PROMOTE_FAILED"
      "Subcard was created but the source item could not be archived" 500
  emitUpdated checklistId cardId boardId userId
  return subcard

end ChecklistService

/-- A call of one of the mutations, with its arguments. -/
inductive ChecklistCall
  | createChecklist (workspaceId boardId cardId : Uuid) (dto : CreateChecklistDto)
      (userId : Uuid)
  | renameChecklist (workspaceId boardId cardId checklistId : Uuid) (dto : UpdateChecklistDto)
      (userId : Uuid)
  | deleteChecklist (workspaceId boardId cardId checklistId userId : Uuid)
  | addItem (workspaceId boardId cardId checklistId : Uuid) (dto : CreateChecklistItemDto)
      (userId : Uuid)
  | updateItem (workspaceId boardId cardId checklistId itemId : Uuid)
      (dto : UpdateChecklistItemDto) (userId : Uuid)
  | removeItem (workspaceId boardId cardId checklistId itemId userId : Uuid)
  | promoteItemToSubcard (workspaceId boardId cardId checklistId itemId userId : Uuid)

/-- The service call; what it returns is dropped. -/
def ChecklistCall.run (env : Env) : ChecklistCall → Service Unit
  | .createChecklist w b c dto u => do
      let _ ← ChecklistService.createChecklist env w b c dto u
  | .renameChecklist w b c k dto u => do
      let _ ← ChecklistService.renameChecklist env w b c k dto u
  | .deleteChecklist w b c k u => ChecklistService.deleteChecklist env w b c k u
  | .addItem w b c k dto u => do let _ ← ChecklistService.addItem env w b c k dto u
  | .updateItem w b c k i dto u => do let _ ← ChecklistService.updateItem env w b c k i dto u
  | .removeItem w b c k i u => ChecklistService.removeItem w b c k i u
  | .promoteItemToSubcard w b c k i u => do
      let _ ← ChecklistService.promoteItemToSubcard env w b c k i u

end SyncBoard.Board
