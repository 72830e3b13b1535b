import SyncBoard.Board.CardService

/-!
# BoardService and ListService

The calls that create or change boards, their stars and their lists. Every call of
`ListService` verifies its board in the workspace before anything else; the calls
that unarchive or delete look their row up whether it is archived or deleted.

## Implementation notes

As for cards, a payload field is absent or a value, and the fields of nullable
columns may also be null in an update. A rank that `getRankBetween` cannot compute
is thrown on here.
-/

namespace SyncBoard.Board

open Fallible

structure CreateBoardDto where
  title : JsString
  description : Option JsString := none
  backgroundColor : Option JsString := none
  deriving DecidableEq, Repr

structure UpdateBoardDto where
  title : Option JsString := none
  description : Option (Option JsString) := none
  backgroundColor : Option (Option JsString) := none
  deriving DecidableEq, Repr

structure CreateListDto where
  title : JsString
  deriving DecidableEq, Repr

structure UpdateListDto where
  title : Option JsString := none
  deriving DecidableEq, Repr

structure MoveListDto where
  prevRank : Option JsString := none
  nextRank : Option JsString := none
  deriving DecidableEq, Repr

namespace BoardService
variable (env : Env)

/-- The row that `create` inserts. -/
def newBoard (workspaceId : Uuid) (dto : CreateBoardDto) (userId : Uuid) : BoardRow where
  workspaceId := workspaceId
  title := dto.title
  description := dto.description
  backgroundColor := some (dto.backgroundColor.getD (js "#1A1A2E"))
  createdBy := userId
  updatedAt := env.now

/-- The data of `update`: every field that the payload gives. -/
def patch (dto : UpdateBoardDto) (board : BoardRow) : BoardRow :=
  { board with
    title := dto.title.getD board.title
    description := dto.description.getD board.description
    backgroundColor := dto.backgroundColor.getD board.backgroundColor }

/-- The active board of a workspace, or the 404 without it. -/
def findBoard (boardId workspaceId : Uuid) : Service BoardRow :=
  find (BoardRepository.findById · boardId (some workspaceId)) (.entityNotFound "Board" boardId)

def create (workspaceId : Uuid) (dto : CreateBoardDto) (userId : Uuid) :
    Service (Loaded BoardRow) := do
  let board ← write fun db =>
    BoardRepository.create db env.newId (newBoard env workspaceId dto userId)
  emitBoard (.created board userId)
  return board

def update (boardId workspaceId : Uuid) (dto : UpdateBoardDto) (userId : Uuid) :
    Service (Loaded BoardRow) := do
  let _ ← findBoard boardId workspaceId
  let updated ← write (BoardRepository.update · boardId (patch dto) env.now)
  emitBoard (.updated updated userId)
  return updated

def archive (boardId workspaceId userId : Uuid) : Service Unit := do
  let _ ← findBoard boardId workspaceId
  let _ ← write (BoardRepository.archive · boardId env.now)
  emitBoard (.archived boardId workspaceId userId)

def unarchive (boardId workspaceId userId : Uuid) : Service (Loaded BoardRow) := do
  let _ ← find (BoardRepository.findByIdIncludingArchived · boardId (some workspaceId))
    (.entityNotFound "Board" boardId)
  let restored ← write (BoardRepository.unarchive · boardId env.now)
  emitBoard (.unarchived restored userId)
  return restored

def deletePermanently (boardId workspaceId userId : Uuid) : Service Unit := do
  let board ← find (BoardRepository.findByIdIncludingDeleted · boardId (some workspaceId))
    (.entityNotFound "Board" boardId)
  refuseIf board.deletedAt.isSome
    (.businessRule "BOARD_ALREADY_DELETED" "Board is already deleted")
  let _ ← write (BoardRepository.deletePermanently · boardId env.now)
  emitBoard (.deleted boardId workspaceId userId)

def starBoard (userId boardId workspaceId : Uuid) : Service Unit := do
  let _ ← findBoard boardId workspaceId
  write (BoardRepository.starBoard · userId boardId)

def unstarBoard (userId boardId workspaceId : Uuid) : Service Unit := do
  let _ ← findBoard boardId workspaceId
  write (BoardRepository.unstarBoard · userId boardId)

end BoardService

namespace ListService
variable (env : Env)

/-- `assertBoardInWorkspace`, as `CardService` calls it. -/
def verifyBoardInWorkspace (boardId workspaceId : Uuid) : Service Unit :=
  CardService.verifyBoardInWorkspace boardId workspaceId

/-- The active list of a board, or the 404 without it. -/
def findList (listId boardId : Uuid) : Service ListRow :=
  find (ListRepository.findActiveById · listId (some boardId)) (.entityNotFound "List" listId)

/-- The rank after the last list of a board. -/
def rankAfterLast (db : Database) (boardId : Uuid) : Except AppError JsString :=
  match ListRepository.findLastInBoard env.rankLe db boardId with
  | some lastList => LexorankService.getRankBetween env.lexorank (some lastList.rank) none
  | none => .ok (LexorankService.getInitialRank env.lexorank)

/-- The row that `create` inserts. -/
def newList (boardId : Uuid) (dto : CreateListDto) (rank : JsString) : ListRow where
  boardId := boardId
  title := dto.title
  rank := rank
  updatedAt := env.now

/-- The data of `update`: the title, where the payload gives one. -/
def patch (dto : UpdateListDto) (list : ListRow) : ListRow :=
  { list with title := dto.title.getD list.title }

def create (boardId workspaceId : Uuid) (dto : CreateListDto) (userId : Uuid) :
    Service (Loaded ListRow) := do
  verifyBoardInWorkspace boardId workspaceId
  let rank ← query fun w => rankAfterLast env w.db boardId
  let rank ← orThrow rank
  let list ← write fun db => ListRepository.create db env.newId (newList env boardId dto rank)
  emitList (.created list userId)
  return list

def update (boardId workspaceId listId : Uuid) (dto : UpdateListDto) (userId : Uuid) :
    Service (Loaded ListRow) := do
  verifyBoardInWorkspace boardId workspaceId
  let _ ← findList listId boardId
  let updated ← write (ListRepository.update · listId (patch dto) env.now)
  emitList (.updated updated userId)
  return updated

def move (boardId workspaceId listId : Uuid) (dto : MoveListDto) (userId : Uuid) :
    Service (Loaded ListRow) := do
  verifyBoardInWorkspace boardId workspaceId
  let _ ← findList listId boardId
  let newRank ← orThrow (LexorankService.getRankBetween env.lexorank dto.prevRank dto.nextRank)
  let updated ← write (ListRepository.update · listId
    (fun list => { list with rank := newRank }) env.now)
  emitList (.moved listId boardId newRank userId)
  return updated

def archive (boardId workspaceId listId userId : Uuid) : Service Unit := do
  verifyBoardInWorkspace boardId workspaceId
  let _ ← findList listId boardId
  let _ ← write (ListRepository.archive · listId env.now)
  emitList (.archived listId boardId userId)

def unarchive (boardId workspaceId listId userId : Uuid) : Service (Loaded ListRow) := do
  verifyBoardInWorkspace boardId workspaceId
  let _ ← find (ListRepository.findByIdIncludingArchived · listId (some boardId))
    (.entityNotFound "List" listId)
  let restored ← write (ListRepository.unarchive · listId env.now)
  emitList (.unarchived restored userId)
  return restored

def deletePermanently (boardId workspaceId listId userId : Uuid) : Service Unit := do
  verifyBoardInWorkspace boardId workspaceId
  let list ← find (ListRepository.findByIdIncludingArchived · listId (some boardId))
    (.entityNotFound "List" listId)
  refuseIf list.deletedAt.isSome
    (.businessRule "LIST_ALREADY_DELETED" "List is already deleted")
  let _ ← write (ListRepository.deletePermanently · listId env.now)
  emitList (.deleted listId boardId userId)

end ListService

/-- A call of one of the mutations of `BoardService`, with its arguments. -/
inductive BoardCall
  | create (workspaceId : Uuid) (dto : CreateBoardDto) (userId : Uuid)
  | update (boardId workspaceId : Uuid) (dto : UpdateBoardDto) (userId : Uuid)
  | archive (boardId workspaceId userId : Uuid)
  | unarchive (boardId workspaceId userId : Uuid)
  | deletePermanently (boardId workspaceId userId : Uuid)
  | starBoard (userId boardId workspaceId : Uuid)
  | unstarBoard (userId boardId workspaceId : Uuid)

/-- A call of one of the mutations of `ListService`, with its arguments. -/
inductive ListCall
  | create (boardId workspaceId : Uuid) (dto : CreateListDto) (userId : Uuid)
  | update (boardId workspaceId listId : Uuid) (dto : UpdateListDto) (userId : Uuid)
  | move (boardId workspaceId listId : Uuid) (dto : MoveListDto) (userId : Uuid)
  | archive (boardId workspaceId listId userId : Uuid)
  | unarchive (boardId workspaceId listId userId : Uuid)
  | deletePermanently (boardId workspaceId listId userId : Uuid)

/-- The service call; what it returns is dropped. -/
def BoardCall.run (env : Env) : BoardCall → Service Unit
  | .create w dto u => do let _ ← BoardService.create env w dto u
  | .update b w dto u => do let _ ← BoardService.update env b w dto u
  | .archive b w u => BoardService.archive env b w u
  | .unarchive b w u => do let _ ← BoardService.unarchive env b w u
  | .deletePermanently b w u => BoardService.deletePermanently env b w u
  | .starBoard u b w => BoardService.starBoard u b w
  | .unstarBoard u b w => BoardService.unstarBoard u b w

/-- The service call; what it returns is dropped. -/
def ListCall.run (env : Env) : ListCall → Service Unit
  | .create b w dto u => do let _ ← ListService.create env b w dto u
  | .update b w l dto u => do let _ ← ListService.update env b w l dto u
  | .move b w l dto u => do let _ ← ListService.move env b w l dto u
  | .archive b w l u => ListService.archive env b w l u
  | .unarchive b w l u => do let _ ← ListService.unarchive env b w l u
  | .deletePermanently b w l u => ListService.deletePermanently env b w l u

end SyncBoard.Board
