import SyncBoard.Board.Repositories
import SyncBoard.Lib.Program

/-!
# CardCommentService

The calls that write and list the comments of a card, statement by statement over the
table `card_comments`. `create` reads the parent of a reply in one statement and inserts
the reply in another; `update` and `delete` read the comment and then write it by id.

## Implementation notes

The boards, cards and users belong to other services: every statement finds them as they
are at its time, which comes from outside with the clock and the id of a new row. The
author summary of a loaded comment and the mentions of a created one are left out.
-/

namespace SyncBoard.Comment

open Relational Interleaved Interleaved.Program
open Board (BoardRow CardWithDetails)

/-- A row of `card_comments`. -/
structure CardCommentRow where
  cardId : Uuid
  authorId : Uuid
  content : JsString
  parentCommentId : Option Uuid := none
  createdAt : Timestamp
  updatedAt : Timestamp
  deletedAt : Option Timestamp := none
  deriving DecidableEq, Repr

abbrev Comments := Table Uuid CardCommentRow

/-- A loaded comment. -/
structure CardComment where
  id : Uuid
  row : CardCommentRow
  deriving DecidableEq, Repr

/-- The events of `comment.events`. -/
inductive CommentEvent
  | created (comment : CardComment) (boardId authorId : Uuid)
  | updated (comment : CardComment) (boardId updatedBy : Uuid)
  | deleted (commentId cardId boardId deletedBy : Uuid)
  deriving DecidableEq, Repr

/-- The data of `create`. -/
structure CommentData where
  cardId : Uuid
  authorId : Uuid
  content : JsString
  parentCommentId : Option Uuid
  deriving DecidableEq, Repr

structure CommentStore where
  comments : Comments := Table.empty
  events : List CommentEvent := []

/-- What an answer takes from outside. -/
structure Outside where
  now : Timestamp
  newId : Uuid
  board : Board.Database

inductive CommentStatement
  | findBoard (boardId workspaceId : Uuid)
  | findCard (cardId boardId : Uuid)
  | findActiveById (id cardId : Uuid)
  | create (data : CommentData)
  | findUniqueOrThrow (id : Uuid)
  | update (id : Uuid) (content : JsString)
  | softDelete (id : Uuid)
  | findRepliesByParentId (parentCommentId : Uuid)
  | emit (event : CommentEvent)
  deriving DecidableEq, Repr

abbrev CommentAnswer : CommentStatement → Type
  | .findBoard _ _ => Option BoardRow
  | .findCard _ _ => Option CardWithDetails
  | .findActiveById _ _ => Option CardComment
  | .create _ => Except DbError Uuid
  | .findUniqueOrThrow _ => Except DbError CardComment
  | .update _ _ | .softDelete _ => Except DbError Unit
  | .findRepliesByParentId _ => List CardComment
  | .emit _ => Unit

namespace CardCommentRepository

/-- The comment, unless it is deleted or on another card. -/
def findActiveById (comments : Comments) (id cardId : Uuid) : Option CardComment :=
  ((comments.get? id).filter fun row => row.deletedAt.isNone && row.cardId == cardId).map
    (CardComment.mk id)

/-- Insert a row; the foreign keys are the card, the author and the parent. -/
def create (comments : Comments) (board : Board.Database) (id : Uuid) (data : CommentData)
    (now : Timestamp) : Except DbError Uuid × Comments :=
  if board.cards.contains data.cardId && board.users.contains data.authorId &&
      data.parentCommentId.all comments.contains then
    match comments.insert? id
        { cardId := data.cardId
          authorId := data.authorId
          content := data.content
          parentCommentId := data.parentCommentId
          createdAt := now
          updatedAt := now } with
    | some inserted => (.ok id, inserted)
    | none => (.error .uniqueViolation, comments)
  else (.error .foreignKeyViolation, comments)

def findUniqueOrThrow (comments : Comments) (id : Uuid) : Except DbError CardComment :=
  match comments.get? id with
  | some row => .ok ⟨id, row⟩
  | none => .error .recordNotFound

/-- `update({ where: { id }, data })`. -/
def updateRow (comments : Comments) (id : Uuid) (data : CardCommentRow → CardCommentRow)
    (now : Timestamp) : Except DbError Unit × Comments :=
  if comments.contains id then
    (.ok (), comments.modify id fun row => { data row with updatedAt := now })
  else (.error .recordNotFound, comments)

def update (comments : Comments) (id : Uuid) (content : JsString) (now : Timestamp) :
    Except DbError Unit × Comments :=
  updateRow comments id (fun row => { row with content := content }) now

def softDelete (comments : Comments) (id : Uuid) (now : Timestamp) :
    Except DbError Unit × Comments :=
  updateRow comments id (fun row => { row with deletedAt := some now }) now

/-- The active replies, oldest first. -/
def findRepliesByParentId (comments : Comments) (parentCommentId : Uuid) : List CardComment :=
  ((comments.select fun _ row =>
      row.parentCommentId == some parentCommentId && row.deletedAt.isNone).insertionSort
    fun a b => a.2.createdAt ≤ b.2.createdAt).map fun p => ⟨p.1, p.2⟩

end CardCommentRepository

/-- A write to the table of comments. -/
def CommentStore.write {α : Type} (s : CommentStore) (r : α × Comments) : α × CommentStore :=
  (r.1, { s with comments := r.2 })

def commentAnswer (x : Outside) : (op : CommentStatement) → CommentStore →
    CommentAnswer op × CommentStore
  | .findBoard boardId workspaceId, s =>
      (Board.BoardRepository.findById x.board boardId (some workspaceId), s)
  | .findCard cardId boardId, s =>
      (Board.CardRepository.findActiveById x.board cardId (some boardId), s)
  | .findActiveById id cardId, s =>
      (CardCommentRepository.findActiveById s.comments id cardId, s)
  | .create data, s => s.write (CardCommentRepository.create s.comments x.board x.newId data x.now)
  | .findUniqueOrThrow id, s => (CardCommentRepository.findUniqueOrThrow s.comments id, s)
  | .update id content, s => s.write (CardCommentRepository.update s.comments id content x.now)
  | .softDelete id, s => s.write (CardCommentRepository.softDelete s.comments id x.now)
  | .findRepliesByParentId parentCommentId, s =>
      (CardCommentRepository.findRepliesByParentId s.comments parentCommentId, s)
  | .emit event, s => ((), { s with events := s.events ++ [event] })

inductive CommentError
  | entityNotFound (entity : String) (id : Uuid)
  | businessRule (code message : String)
  | forbidden (message : String)
  | database (error : DbError)
  deriving DecidableEq, Repr

abbrev CommentProcedure := Program CommentStatement CommentAnswer CommentError

structure CreateCommentDto where
  content : JsString
  parentCommentId : Option Uuid := none
  deriving DecidableEq, Repr

/-- The content that `CreateCommentDto` requires is optional to the service. -/
structure UpdateCommentDto where
  content : Option JsString := none
  deriving DecidableEq, Repr

/-- `commentRepo.create`: the row as it is inserted, and then as it is read. -/
def commentRepo.create (data : CommentData) : CommentProcedure CardComment := do
  let inserted ← ask (CommentStatement.create data)
  let id ← orThrow .database inserted
  let comment ← ask (CommentStatement.findUniqueOrThrow id)
  orThrow .database comment

/-- `commentRepo.update`. -/
def commentRepo.update (id : Uuid) (content : JsString) : CommentProcedure CardComment := do
  let updated ← ask (CommentStatement.update id content)
  orThrow .database updated
  let comment ← ask (CommentStatement.findUniqueOrThrow id)
  orThrow .database comment

namespace CardCommentService

def verifyBoardInWorkspace (boardId workspaceId : Uuid) : CommentProcedure Unit := do
  let board ← ask (CommentStatement.findBoard boardId workspaceId)
  let _ ← demand board (.entityNotFound "Board" boardId)

def verifyCardInBoard (boardId cardId : Uuid) : CommentProcedure Unit := do
  let card ← ask (CommentStatement.findCard cardId boardId)
  let _ ← demand card (.entityNotFound "Card" cardId)

/-- The active comment on the card. -/
def findComment (commentId cardId : Uuid) : CommentProcedure CardComment := do
  let comment ← ask (CommentStatement.findActiveById commentId cardId)
  demand comment (.entityNotFound "CardComment" commentId)

/-- A reply goes to a comment on the card that is no reply itself. -/
def validateParent (cardId : Uuid) : Option Uuid → CommentProcedure Unit
  | none => pure ()
  | some parentCommentId => do
      let parentComment ← findComment parentCommentId cardId
      refuseIf parentComment.row.parentCommentId.isSome
        (.businessRule "MAX_THREAD_DEPTH" "Only one reply level is supported")

def create (boardId workspaceId cardId : Uuid) (dto : CreateCommentDto) (userId : Uuid) :
    CommentProcedure CardComment := do
  verifyBoardInWorkspace boardId workspaceId
  verifyCardInBoard boardId cardId
  validateParent cardId dto.parentCommentId
  let comment ← commentRepo.create
    { cardId := cardId
      authorId := userId
      content := dto.content
      parentCommentId := dto.parentCommentId }
  ask (CommentStatement.emit (.created comment boardId userId))
  return comment

def update (boardId workspaceId cardId commentId : Uuid) (dto : UpdateCommentDto)
    (userId : Uuid) : CommentProcedure CardComment := do
  verifyBoardInWorkspace boardId workspaceId
  verifyCardInBoard boardId cardId
  let comment ← findComment commentId cardId
  refuseIf (comment.row.authorId != userId) (.forbidden "FORBIDDEN")
  let updated ← commentRepo.update commentId (dto.content.getD comment.row.content)
  ask (CommentStatement.emit (.updated updated boardId userId))
  return updated

def delete (boardId workspaceId cardId commentId userId : Uuid) : CommentProcedure Unit := do
  verifyBoardInWorkspace boardId workspaceId
  verifyCardInBoard boardId cardId
  let comment ← findComment commentId cardId
  refuseIf (comment.row.authorId != userId) (.forbidden "FORBIDDEN")
  let deleted ← ask (CommentStatement.softDelete commentId)
  orThrow .database deleted
  ask (CommentStatement.emit (.deleted commentId cardId boardId userId))

/-- The comment with its replies. -/
def listThread (boardId workspaceId cardId commentId : Uuid) :
    CommentProcedure (CardComment × List CardComment) := do
  verifyBoardInWorkspace boardId workspaceId
  verifyCardInBoard boardId cardId
  let parentComment ← findComment commentId cardId
  let replies ← ask (CommentStatement.findRepliesByParentId commentId)
  return (parentComment, replies)

end CardCommentService

/-- A call of the service, with its arguments. -/
inductive CommentCall
  | create (boardId workspaceId cardId : Uuid) (dto : CreateCommentDto) (userId : Uuid)
  | update (boardId workspaceId cardId commentId : Uuid) (dto : UpdateCommentDto) (userId : Uuid)
  | delete (boardId workspaceId cardId commentId userId : Uuid)
  | listThread (boardId workspaceId cardId commentId : Uuid)

def CommentCall.program : CommentCall → CommentProcedure Unit
  | .create boardId workspaceId cardId dto userId => do
      let _ ← CardCommentService.create boardId workspaceId cardId dto userId
      return ()
  | .update boardId workspaceId cardId commentId dto userId => do
      let _ ← CardCommentService.update boardId workspaceId cardId commentId dto userId
      return ()
  | .delete boardId workspaceId cardId commentId userId =>
      CardCommentService.delete boardId workspaceId cardId commentId userId
  | .listThread boardId workspaceId cardId commentId => do
      let _ ← CardCommentService.listThread boardId workspaceId cardId commentId
      return ()

/-- The comments, and the calls made so far. -/
abbrev CommentPool := Pool CommentStatement CommentAnswer CommentError CommentCall CommentStore

/-- A call starts, or one of its awaits ends. -/
def CommentPool.step (p : CommentPool) (m : Move CommentCall Outside) : Option CommentPool :=
  Pool.step commentAnswer CommentCall.program p m

end SyncBoard.Comment
