import SyncBoard.Board.CardCalls

/-!
# The calls of all board services, statement by statement

Every call of `CardService`, `LabelService`, `ListService` and `BoardService` as a program
that interleaves at its awaits. The programs of `CardCalls` ask the same statements here
(`via`). `action_operation` says that a program which nobody interrupts is the call of its
service.
-/

namespace SyncBoard.Board

open Relational Interleaved Interleaved.Program

/-- The writes of one row of `lists`. -/
inductive ListChange
  | create (boardId : Uuid) (dto : CreateListDto) (rank : JsString)
  | update (listId : Uuid) (dto : UpdateListDto)
  | move (listId : Uuid) (newRank : JsString)
  | archive (listId : Uuid)
  | unarchive (listId : Uuid)
  | deletePermanently (listId : Uuid)
  deriving DecidableEq, Repr

/-- The writes of one row of `boards`. -/
inductive BoardChange
  | create (workspaceId : Uuid) (dto : CreateBoardDto) (userId : Uuid)
  | update (boardId : Uuid) (dto : UpdateBoardDto)
  | archive (boardId : Uuid)
  | unarchive (boardId : Uuid)
  | deletePermanently (boardId : Uuid)
  deriving DecidableEq, Repr

/-- The writes of rows that link two others. -/
inductive LinkChange
  | addAssignee (cardId userId : Uuid)
  | removeAssignee (cardId userId : Uuid)
  | addLabel (cardId labelId : Uuid)
  | removeLabel (cardId labelId : Uuid)
  | starBoard (userId boardId : Uuid)
  | unstarBoard (userId boardId : Uuid)
  deriving DecidableEq, Repr

section Changes
variable (env : Env) (db : Database)

def ListChange.run : ListChange → Except DbError (Loaded ListRow × Database)
  | .create boardId dto rank =>
      ListRepository.create db env.newId (ListService.newList env boardId dto rank)
  | .update listId dto => ListRepository.update db listId (ListService.patch dto) env.now
  | .move listId newRank =>
      ListRepository.update db listId (fun list => { list with rank := newRank }) env.now
  | .archive listId => ListRepository.archive db listId env.now
  | .unarchive listId => ListRepository.unarchive db listId env.now
  | .deletePermanently listId => ListRepository.deletePermanently db listId env.now

def BoardChange.run : BoardChange → Except DbError (Loaded BoardRow × Database)
  | .create workspaceId dto userId =>
      BoardRepository.create db env.newId (BoardService.newBoard env workspaceId dto userId)
  | .update boardId dto => BoardRepository.update db boardId (BoardService.patch dto) env.now
  | .archive boardId => BoardRepository.archive db boardId env.now
  | .unarchive boardId => BoardRepository.unarchive db boardId env.now
  | .deletePermanently boardId => BoardRepository.deletePermanently db boardId env.now

def LinkChange.run : LinkChange → Except DbError (Unit × Database)
  | .addAssignee cardId userId => (db.upsertCardAssignee cardId userId env.now).map ((), ·)
  | .removeAssignee cardId userId => .ok ((), db.deleteCardAssignee cardId userId)
  | .addLabel cardId labelId => (db.upsertCardLabel cardId labelId).map ((), ·)
  | .removeLabel cardId labelId => .ok ((), db.deleteCardLabel cardId labelId)
  | .starBoard userId boardId => BoardRepository.starBoard db userId boardId
  | .unstarBoard userId boardId => BoardRepository.unstarBoard db userId boardId

end Changes

/-- What the calls ask, each up to its next await. -/
inductive BoardStatement
  | card (op : CardStatement)
  | findBoardIncludingArchived (boardId workspaceId : Uuid)
  | findBoardIncludingDeleted (boardId workspaceId : Uuid)
  | findListIncludingArchived (listId boardId : Uuid)
  | findLastInBoard (boardId : Uuid)
  | changeList (change : ListChange)
  | changeBoard (change : BoardChange)
  | changeLink (change : LinkChange)
  | createLabel (workspaceId : Uuid) (dto : CreateLabelDto)
  | emitList (event : ListEvent)
  | emitBoard (event : BoardEvent)
  deriving DecidableEq, Repr

/-- What a statement returns. -/
abbrev BoardAnswer : BoardStatement → Type
  | .card op => CardAnswer op
  | .findBoardIncludingArchived _ _ | .findBoardIncludingDeleted _ _ => Option BoardRow
  | .findListIncludingArchived _ _ | .findLastInBoard _ => Option ListRow
  | .changeList _ => Except DbError (Loaded ListRow)
  | .changeBoard _ => Except DbError (Loaded BoardRow)
  | .changeLink _ => Except DbError Unit
  | .createLabel _ _ => Except DbError Label
  | .emitList _ | .emitBoard _ => Unit

/-- The answer to a statement and what it leaves. -/
def boardAnswer (ranking : Ranking) (x : Outside) :
    (op : BoardStatement) → World → BoardAnswer op × World
  | .card op, w => cardAnswer ranking x op w
  | .findBoardIncludingArchived boardId workspaceId, w =>
      (BoardRepository.findByIdIncludingArchived w.db boardId (some workspaceId), w)
  | .findBoardIncludingDeleted boardId workspaceId, w =>
      (BoardRepository.findByIdIncludingDeleted w.db boardId (some workspaceId), w)
  | .findListIncludingArchived listId boardId, w =>
      (ListRepository.findByIdIncludingArchived w.db listId (some boardId), w)
  | .findLastInBoard boardId, w => (ListRepository.findLastInBoard ranking.rankLe w.db boardId, w)
  | .changeList change, w => w.write (change.run (x.env ranking) w.db)
  | .changeBoard change, w => w.write (change.run (x.env ranking) w.db)
  | .changeLink change, w => w.write (change.run (x.env ranking) w.db)
  | .createLabel workspaceId dto, w =>
      w.write (LabelRepository.createWithCard w.db x.newId (LabelService.newLabel workspaceId dto)
        dto.cardId)
  | .emitList event, w => ((), { w with listEvents := w.listEvents ++ [event] })
  | .emitBoard event, w => ((), { w with boardEvents := w.boardEvents ++ [event] })

abbrev BoardProcedure := Program BoardStatement BoardAnswer AppError

/-- A program of the calls on cards. -/
def BoardProcedure.ofCard {α : Type} (p : CardProcedure α) : BoardProcedure α :=
  p.via BoardStatement.card fun _ a => a

/-- A program of the subcard calls. -/
def BoardProcedure.ofSubcard {α : Type} (p : Procedure α) : BoardProcedure α :=
  BoardProcedure.ofCard (CardProcedure.ofSubcard p)

open BoardProcedure (ofCard ofSubcard)

namespace BoardProgram

def findBoard (boardId workspaceId : Uuid) : BoardProcedure BoardRow := do
  let board ← ask (.card (.subcard (.findBoard boardId workspaceId)))
  demand board (.entityNotFound "Board" boardId)

/-- A write of a board. -/
def save (change : BoardChange) : BoardProcedure (Loaded BoardRow) := do
  let changed ← ask (.changeBoard change)
  Program.orThrow .database changed

/-- A write of a link. -/
def link (change : LinkChange) : BoardProcedure Unit := do
  let changed ← ask (.changeLink change)
  Program.orThrow .database changed

/-- `eventEmitter.emit`. -/
def announce (event : BoardEvent) : BoardProcedure Unit :=
  ask (BoardStatement.emitBoard event)

def create (workspaceId : Uuid) (dto : CreateBoardDto) (userId : Uuid) :
    BoardProcedure (Loaded BoardRow) := do
  let board ← save (.create workspaceId dto userId)
  announce (.created board userId)
  return board

def update (boardId workspaceId : Uuid) (dto : UpdateBoardDto) (userId : Uuid) :
    BoardProcedure (Loaded BoardRow) := do
  let _ ← findBoard boardId workspaceId
  let updated ← save (.update boardId dto)
  announce (.updated updated userId)
  return updated

def archive (boardId workspaceId userId : Uuid) : BoardProcedure Unit := do
  let _ ← findBoard boardId workspaceId
  let _ ← save (.archive boardId)
  announce (.archived boardId workspaceId userId)

def findBoardIncludingArchived (boardId workspaceId : Uuid) : BoardProcedure BoardRow := do
  let board ← ask (.findBoardIncludingArchived boardId workspaceId)
  demand board (.entityNotFound "Board" boardId)

def unarchive (boardId workspaceId userId : Uuid) : BoardProcedure (Loaded BoardRow) := do
  let _ ← findBoardIncludingArchived boardId workspaceId
  let restored ← save (.unarchive boardId)
  announce (.unarchived restored userId)
  return restored

def findBoardIncludingDeleted (boardId workspaceId : Uuid) : BoardProcedure BoardRow := do
  let board ← ask (.findBoardIncludingDeleted boardId workspaceId)
  demand board (.entityNotFound "Board" boardId)

def deletePermanently (boardId workspaceId userId : Uuid) : BoardProcedure Unit := do
  let board ← findBoardIncludingDeleted boardId workspaceId
  Program.refuseIf board.deletedAt.isSome
    (.businessRule "BOARD_ALREADY_DELETED" "Board is already deleted")
  let _ ← save (.deletePermanently boardId)
  announce (.deleted boardId workspaceId userId)

def starBoard (userId boardId workspaceId : Uuid) : BoardProcedure Unit := do
  let _ ← findBoard boardId workspaceId
  link (.starBoard userId boardId)

def unstarBoard (userId boardId workspaceId : Uuid) : BoardProcedure Unit := do
  let _ ← findBoard boardId workspaceId
  link (.unstarBoard userId boardId)

end BoardProgram

namespace ListProgram
variable (ranking : Ranking)

def verifyBoardInWorkspace (boardId workspaceId : Uuid) : BoardProcedure Unit :=
  ofSubcard (CardProgram.verifyBoardInWorkspace boardId workspaceId)

def findList (listId boardId : Uuid) : BoardProcedure ListRow :=
  ofSubcard (CardProgram.findList listId boardId (.entityNotFound "List" listId))

def findListIncludingArchived (listId boardId : Uuid) : BoardProcedure ListRow := do
  let list ← ask (.findListIncludingArchived listId boardId)
  demand list (.entityNotFound "List" listId)

/-- A write of a list. -/
def save (change : ListChange) : BoardProcedure (Loaded ListRow) := do
  let changed ← ask (.changeList change)
  Program.orThrow .database changed

/-- `eventEmitter.emit`. -/
def announce (event : ListEvent) : BoardProcedure Unit :=
  ask (BoardStatement.emitList event)

/-- The rank after a last list, or the initial rank. -/
def rankAfter (lastList : Option ListRow) : Except AppError JsString :=
  match lastList with
  | some lastList => LexorankService.getRankBetween ranking.lexorank (some lastList.rank) none
  | none => .ok (LexorankService.getInitialRank ranking.lexorank)

def create (boardId workspaceId : Uuid) (dto : CreateListDto) (userId : Uuid) :
    BoardProcedure (Loaded ListRow) := do
  verifyBoardInWorkspace boardId workspaceId
  let lastList ← ask (.findLastInBoard boardId)
  let rank ← Program.orThrow id (rankAfter ranking lastList)
  let list ← save (.create boardId dto rank)
  announce (.created list userId)
  return list

def update (boardId workspaceId listId : Uuid) (dto : UpdateListDto) (userId : Uuid) :
    BoardProcedure (Loaded ListRow) := do
  verifyBoardInWorkspace boardId workspaceId
  let _ ← findList listId boardId
  let updated ← save (.update listId dto)
  announce (.updated updated userId)
  return updated

def move (boardId workspaceId listId : Uuid) (dto : MoveListDto) (userId : Uuid) :
    BoardProcedure (Loaded ListRow) := do
  verifyBoardInWorkspace boardId workspaceId
  let _ ← findList listId boardId
  let newRank ← Program.orThrow id
    (LexorankService.getRankBetween ranking.lexorank dto.prevRank dto.nextRank)
  let updated ← save (.move listId newRank)
  announce (.moved listId boardId newRank userId)
  return updated

def archive (boardId workspaceId listId userId : Uuid) : BoardProcedure Unit := do
  verifyBoardInWorkspace boardId workspaceId
  let _ ← findList listId boardId
  let _ ← save (.archive listId)
  announce (.archived listId boardId userId)

def unarchive (boardId workspaceId listId userId : Uuid) : BoardProcedure (Loaded ListRow) := do
  verifyBoardInWorkspace boardId workspaceId
  let _ ← findListIncludingArchived listId boardId
  let restored ← save (.unarchive listId)
  announce (.unarchived restored userId)
  return restored

def deletePermanently (boardId workspaceId listId userId : Uuid) : BoardProcedure Unit := do
  verifyBoardInWorkspace boardId workspaceId
  let list ← findListIncludingArchived listId boardId
  Program.refuseIf list.deletedAt.isSome
    (.businessRule "LIST_ALREADY_DELETED" "List is already deleted")
  let _ ← save (.deletePermanently listId)
  announce (.deleted listId boardId userId)

end ListProgram

namespace CardProgram

/-- The check of `addAssignee`. -/
def checkMember (workspaceId userId : Uuid) : BoardProcedure Unit := do
  let isMember ← ask (BoardStatement.card (.subcard (.isUserMember workspaceId userId)))
  Program.refuseIf (!isMember)
    (.badRequest s!"User {userId} is not a member of workspace {workspaceId}")

/-- The check of `addLabel`. -/
def checkLabel (workspaceId labelId : Uuid) : BoardProcedure Unit := do
  let label ← ask (BoardStatement.card (.subcard (.findLabel labelId)))
  Program.refuseIf (!label.any fun label => label.workspaceId == workspaceId)
    (.badRequest s!"Label {labelId} is not available in workspace {workspaceId}")

def addAssignee (boardId workspaceId cardId assigneeUserId addedBy : Uuid) :
    BoardProcedure Unit := do
  let _ ← ofSubcard (findCard cardId boardId)
  checkMember workspaceId assigneeUserId
  BoardProgram.link (.addAssignee cardId assigneeUserId)
  ofSubcard (announce (.assigneeAdded cardId boardId assigneeUserId addedBy))

def removeAssignee (boardId workspaceId cardId assigneeUserId removedBy : Uuid) :
    BoardProcedure Unit := do
  ofSubcard (verifyBoardInWorkspace boardId workspaceId)
  let _ ← ofSubcard (findCard cardId boardId)
  BoardProgram.link (.removeAssignee cardId assigneeUserId)
  ofSubcard (announce (.assigneeRemoved cardId boardId assigneeUserId removedBy))

def addLabel (boardId workspaceId cardId labelId : Uuid) : BoardProcedure Unit := do
  let _ ← ofSubcard (findCard cardId boardId)
  checkLabel workspaceId labelId
  BoardProgram.link (.addLabel cardId labelId)

def removeLabel (boardId workspaceId cardId labelId : Uuid) : BoardProcedure Unit := do
  ofSubcard (verifyBoardInWorkspace boardId workspaceId)
  let _ ← ofSubcard (findCard cardId boardId)
  BoardProgram.link (.removeLabel cardId labelId)

end CardProgram

namespace LabelProgram

def createWorkspaceLabel (workspaceId : Uuid) (dto : CreateLabelDto) : BoardProcedure Label := do
  let created ← ask (.createLabel workspaceId dto)
  Program.orThrow .database created

def createLabel (boardId workspaceId : Uuid) (dto : CreateLabelDto) : BoardProcedure Label := do
  let _ ← BoardProgram.findBoard boardId workspaceId
  createWorkspaceLabel workspaceId dto

end LabelProgram

section Calls
variable (ranking : Ranking)

def ListCall.program : ListCall → BoardProcedure Unit
  | .create b w dto u => do let _ ← ListProgram.create ranking b w dto u
  | .update b w l dto u => do let _ ← ListProgram.update b w l dto u
  | .move b w l dto u => do let _ ← ListProgram.move ranking b w l dto u
  | .archive b w l u => ListProgram.archive b w l u
  | .unarchive b w l u => do let _ ← ListProgram.unarchive b w l u
  | .deletePermanently b w l u => ListProgram.deletePermanently b w l u

def BoardCall.program : BoardCall → BoardProcedure Unit
  | .create w dto u => do let _ ← BoardProgram.create w dto u
  | .update b w dto u => do let _ ← BoardProgram.update b w dto u
  | .archive b w u => BoardProgram.archive b w u
  | .unarchive b w u => do let _ ← BoardProgram.unarchive b w u
  | .deletePermanently b w u => BoardProgram.deletePermanently b w u
  | .starBoard u b w => BoardProgram.starBoard u b w
  | .unstarBoard u b w => BoardProgram.unstarBoard u b w

def Call.program : Call → BoardProcedure Unit
  | .create b w l dto u => ofSubcard ((SubcardCall.create b w l dto u).program ranking)
  | .update b w c dto u => ofCard ((CardCall.update b w c dto u).program ranking)
  | .updatePriority b w c p u => ofCard ((CardCall.updatePriority b w c p u).program ranking)
  | .updateStatus b w c s u => ofCard ((CardCall.updateStatus b w c s u).program ranking)
  | .createSubcard b w p dto u =>
      ofSubcard ((SubcardCall.createSubcard b w p dto u).program ranking)
  | .attachSubcard b w p c u => ofSubcard ((SubcardCall.attachSubcard b w p c u).program ranking)
  | .detachSubcard b w c u => ofSubcard ((SubcardCall.detachSubcard b w c u).program ranking)
  | .move b w c dto u => ofSubcard ((SubcardCall.move b w c dto u).program ranking)
  | .archive b w c u => ofSubcard ((SubcardCall.archive b w c u).program ranking)
  | .unarchive b w c u => ofSubcard ((SubcardCall.unarchive b w c u).program ranking)
  | .deletePermanently b w c u => ofCard ((CardCall.deletePermanently b w c u).program ranking)
  | .addAssignee b w c a u => CardProgram.addAssignee b w c a u
  | .removeAssignee b w c a u => CardProgram.removeAssignee b w c a u
  | .addLabel b w c l => CardProgram.addLabel b w c l
  | .removeLabel b w c l => CardProgram.removeLabel b w c l
  | .createLabel b w dto => do let _ ← LabelProgram.createLabel b w dto
  | .createWorkspaceLabel w dto => do let _ ← LabelProgram.createWorkspaceLabel w dto

def Operation.program : Operation → BoardProcedure Unit
  | .card call => call.program ranking
  | .list call => call.program ranking
  | .board call => call.program

end Calls

section Alone
variable {α : Type} {ranking : Ranking} {x : Outside}

theorem action_ofCard (p : CardProcedure α) :
    (ofCard p).action (boardAnswer ranking x) = p.action (cardAnswer ranking x) := by
  apply action_via
  intro op w
  exact ⟨rfl, rfl⟩

theorem action_ofSubcards (p : Procedure α) :
    (ofSubcard p).action (boardAnswer ranking x) = p.action (answer ranking x) :=
  (action_ofCard _).trans (action_ofSubcard p)

theorem action_findBoard (boardId workspaceId : Uuid) :
    (BoardProgram.findBoard boardId workspaceId).action (boardAnswer ranking x) =
      BoardService.findBoard boardId workspaceId := by
  rw [BoardProgram.findBoard, action_ask_bind fun _ => rfl]
  simp only [action_demand]
  exact Fallible.query_bind_demand _ _

theorem action_findBoardIncludingArchived (boardId workspaceId : Uuid) :
    (BoardProgram.findBoardIncludingArchived boardId workspaceId).action (boardAnswer ranking x) =
      find (BoardRepository.findByIdIncludingArchived · boardId (some workspaceId))
        (.entityNotFound "Board" boardId) := by
  rw [BoardProgram.findBoardIncludingArchived, action_ask_bind fun _ => rfl]
  simp only [action_demand]
  exact Fallible.query_bind_demand _ _

theorem action_findBoardIncludingDeleted (boardId workspaceId : Uuid) :
    (BoardProgram.findBoardIncludingDeleted boardId workspaceId).action (boardAnswer ranking x) =
      find (BoardRepository.findByIdIncludingDeleted · boardId (some workspaceId))
        (.entityNotFound "Board" boardId) := by
  rw [BoardProgram.findBoardIncludingDeleted, action_ask_bind fun _ => rfl]
  simp only [action_demand]
  exact Fallible.query_bind_demand _ _

theorem action_findListIncludingArchived (listId boardId : Uuid) :
    (ListProgram.findListIncludingArchived listId boardId).action (boardAnswer ranking x) =
      find (ListRepository.findByIdIncludingArchived · listId (some boardId))
        (.entityNotFound "List" listId) := by
  rw [ListProgram.findListIncludingArchived, action_ask_bind fun _ => rfl]
  simp only [action_demand]
  exact Fallible.query_bind_demand _ _

theorem action_verifyBoard (boardId workspaceId : Uuid) :
    (ListProgram.verifyBoardInWorkspace boardId workspaceId).action (boardAnswer ranking x) =
      ListService.verifyBoardInWorkspace boardId workspaceId :=
  (action_ofSubcards _).trans (action_verifyBoardInWorkspace boardId workspaceId)

theorem action_findActiveList (listId boardId : Uuid) :
    (ListProgram.findList listId boardId).action (boardAnswer ranking x) =
      ListService.findList listId boardId :=
  (action_ofSubcards _).trans (action_findList listId boardId _)

theorem action_saveList (change : ListChange) :
    (ListProgram.save change).action (boardAnswer ranking x) =
      write (change.run (x.env ranking)) :=
  action_written (fun _ => rfl) fun _ => rfl

theorem action_saveBoard (change : BoardChange) :
    (BoardProgram.save change).action (boardAnswer ranking x) =
      write (change.run (x.env ranking)) :=
  action_written (fun _ => rfl) fun _ => rfl

theorem action_link (change : LinkChange) :
    (BoardProgram.link change).action (boardAnswer ranking x) =
      write (change.run (x.env ranking)) :=
  action_written (fun _ => rfl) fun _ => rfl

theorem action_createWorkspaceLabel (workspaceId : Uuid) (dto : CreateLabelDto) :
    (LabelProgram.createWorkspaceLabel workspaceId dto).action (boardAnswer ranking x) =
      LabelService.createWorkspaceLabel (x.env ranking) workspaceId dto :=
  action_written (fun _ => rfl) fun _ => rfl

theorem action_announceList (event : ListEvent) :
    (ListProgram.announce event).action (boardAnswer ranking x) = emitList event := rfl

theorem action_announceBoard (event : BoardEvent) :
    (BoardProgram.announce event).action (boardAnswer ranking x) = emitBoard event := rfl

/-- A computation that may throw. -/
theorem action_orThrow (r : Except AppError α) :
    (Program.orThrow id r : BoardProcedure α).action (boardAnswer ranking x) = orThrow r := by
  cases r <;> rfl

theorem action_listCall (call : ListCall) :
    (call.program ranking).action (boardAnswer ranking x) = call.run (x.env ranking) := by
  cases call with
  | create =>
      simp only [ListCall.program, ListProgram.create, action_bind, action_verifyBoard,
        action_orThrow, action_saveList, action_announceList, action_pure]
      rfl
  | update =>
      simp only [ListCall.program, ListProgram.update, action_bind, action_verifyBoard,
        action_findActiveList, action_saveList, action_announceList, action_pure]
      rfl
  | move =>
      simp only [ListCall.program, ListProgram.move, action_bind, action_verifyBoard,
        action_findActiveList, action_orThrow, action_saveList, action_announceList, action_pure]
      rfl
  | archive =>
      simp only [ListCall.program, ListProgram.archive, action_bind, action_verifyBoard,
        action_findActiveList, action_saveList, action_announceList]
      rfl
  | unarchive =>
      simp only [ListCall.program, ListProgram.unarchive, action_bind, action_verifyBoard,
        action_findListIncludingArchived, action_saveList, action_announceList, action_pure]
      rfl
  | deletePermanently =>
      simp only [ListCall.program, ListProgram.deletePermanently, action_bind, action_verifyBoard,
        action_findListIncludingArchived, action_refuseIf, action_saveList, action_announceList]
      rfl

theorem action_boardCall (call : BoardCall) :
    call.program.action (boardAnswer ranking x) = call.run (x.env ranking) := by
  cases call with
  | create =>
      simp only [BoardCall.program, BoardProgram.create, action_bind, action_saveBoard,
        action_announceBoard, action_pure]
      rfl
  | update =>
      simp only [BoardCall.program, BoardProgram.update, action_bind, action_findBoard,
        action_saveBoard, action_announceBoard, action_pure]
      rfl
  | archive =>
      simp only [BoardCall.program, BoardProgram.archive, action_bind, action_findBoard,
        action_saveBoard, action_announceBoard]
      rfl
  | unarchive =>
      simp only [BoardCall.program, BoardProgram.unarchive, action_bind,
        action_findBoardIncludingArchived, action_saveBoard, action_announceBoard, action_pure]
      rfl
  | deletePermanently =>
      simp only [BoardCall.program, BoardProgram.deletePermanently, action_bind,
        action_findBoardIncludingDeleted, action_refuseIf, action_saveBoard, action_announceBoard]
      rfl
  | starBoard =>
      simp only [BoardCall.program, BoardProgram.starBoard, action_bind, action_findBoard,
        action_link]
      rfl
  | unstarBoard =>
      simp only [BoardCall.program, BoardProgram.unstarBoard, action_bind, action_findBoard,
        action_link]
      rfl

theorem action_checkMember (workspaceId userId : Uuid) :
    (CardProgram.checkMember workspaceId userId).action (boardAnswer ranking x) =
      Fallible.check (fun w => WorkspaceService.isUserMember w.db workspaceId userId)
        (.badRequest s!"User {userId} is not a member of workspace {workspaceId}") := by
  rw [CardProgram.checkMember, action_ask_bind fun _ => rfl]
  simp only [action_refuseIf, Bool.not_not]
  exact Fallible.query_bind_check _ _ _

theorem action_checkLabel (workspaceId labelId : Uuid) :
    (CardProgram.checkLabel workspaceId labelId).action (boardAnswer ranking x) =
      Fallible.check (fun w => CardService.labelAvailable w.db workspaceId labelId)
        (.badRequest s!"Label {labelId} is not available in workspace {workspaceId}") := by
  rw [CardProgram.checkLabel, action_ask_bind fun _ => rfl]
  simp only [action_refuseIf, Bool.not_not]
  exact Fallible.query_bind_check _ _ _

theorem action_call (call : Call) :
    (call.program ranking).action (boardAnswer ranking x) = call.run (x.env ranking) := by
  cases call with
  | create | createSubcard | attachSubcard | detachSubcard | move | archive | unarchive =>
      exact (action_ofSubcards _).trans (action_program _)
  | update | updatePriority | updateStatus | deletePermanently =>
      exact (action_ofCard _).trans (action_cardProgram _)
  | addAssignee =>
      simp only [Call.program, CardProgram.addAssignee, action_bind, action_ofSubcards,
        action_findCard, action_checkMember, action_link, action_announce]
      rfl
  | removeAssignee =>
      simp only [Call.program, CardProgram.removeAssignee, action_bind, action_ofSubcards,
        action_verifyBoardInWorkspace, action_findCard, action_link, action_announce]
      rfl
  | addLabel =>
      simp only [Call.program, CardProgram.addLabel, action_bind, action_ofSubcards,
        action_findCard, action_checkLabel, action_link]
      rfl
  | removeLabel =>
      simp only [Call.program, CardProgram.removeLabel, action_bind, action_ofSubcards,
        action_verifyBoardInWorkspace, action_findCard, action_link]
      rfl
  | createLabel =>
      simp only [Call.program, LabelProgram.createLabel, action_bind, action_findBoard,
        action_createWorkspaceLabel, action_pure]
      rfl
  | createWorkspaceLabel =>
      simp only [Call.program, action_bind, action_createWorkspaceLabel, action_pure]
      rfl

/-- The program of a call that nobody interrupts is the call of its service. -/
theorem action_operation (op : Operation) :
    (op.program ranking).action (boardAnswer ranking x) = op.run (x.env ranking) := by
  cases op with
  | card call => exact action_call call
  | list call => exact action_listCall call
  | board call => exact action_boardCall call

end Alone

end SyncBoard.Board
