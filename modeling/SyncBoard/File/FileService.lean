import SyncBoard.Basic
import SyncBoard.Lib.Program
import SyncBoard.Lib.Table
import SyncBoard.Workspace.Database

/-!
# Uploads

`confirm` and `delete` of `FileService` and the task that fails stale uploads, statement
by statement over the table `file_attachments`. `confirm` reads the status in one
statement and writes it in another, and the write asks for no status.

## Implementation notes

Whether the workspace exists and which role the user has in it, the clock, and whether
the object store deletes an object, come from outside at each statement. What a row says
about the bytes and what hosts them is left out.
-/

namespace SyncBoard.File

open Relational Interleaved Interleaved.Program
open Workspace (WorkspaceRole)

/-- `AttachmentStatus`. -/
inductive AttachmentStatus
  | pending
  | completed
  | failed
  deriving DecidableEq, Repr

def AttachmentStatus.name : AttachmentStatus → String
  | .pending => "pending"
  | .completed => "completed"
  | .failed => "failed"

/-- A row of `file_attachments`. -/
structure FileAttachment where
  workspaceId : Uuid
  uploadedBy : Uuid
  s3Key : JsString
  status : AttachmentStatus := .pending
  archivedAt : Option Timestamp := none
  createdAt : Timestamp
  deriving DecidableEq, Repr

abbrev Files := Table Uuid FileAttachment

/-- What an answer takes from outside. -/
structure Outside where
  now : Timestamp := 0
  workspaceExists : Bool := true
  role : Option WorkspaceRole := none
  objectDeleted : Bool := true

inductive FileStatement
  | findActiveById (id : Uuid)
  | findWorkspace (workspaceId : Uuid)
  | findMember (workspaceId userId : Uuid)
  | confirm (id : Uuid)
  | archive (id : Uuid)
  | deleteObject (s3Key : JsString)
  | markStalePendingAsFailed (cutoff : Int)

abbrev FileAnswer : FileStatement → Type
  | .findActiveById _ => Option FileAttachment
  | .findWorkspace _ => Bool
  | .findMember _ _ => Option WorkspaceRole
  | .confirm _ => Except DbError FileAttachment
  | .archive _ => Except DbError FileAttachment
  | .deleteObject _ => Bool
  | .markStalePendingAsFailed _ => Nat

namespace FileRepository
variable (files : Files)

/-- `findFirst({ where: { id, archivedAt: null } })`. -/
def findActiveById (id : Uuid) : Option FileAttachment :=
  (files.get? id).filter fun row => row.archivedAt.isNone

/-- `update({ where: { id }, data })`. -/
def update (id : Uuid) (data : FileAttachment → FileAttachment) :
    Except DbError FileAttachment × Files :=
  match files.get? id with
  | none => (.error .recordNotFound, files)
  | some row => (.ok (data row), files.modify id data)

def confirm (id : Uuid) : Except DbError FileAttachment × Files :=
  update files id fun row => { row with status := .completed }

def archive (id : Uuid) (now : Timestamp) : Except DbError FileAttachment × Files :=
  update files id fun row => { row with archivedAt := some now }

/-- The condition of `markStalePendingAsFailed`. -/
def isStalePending (cutoff : Int) (row : FileAttachment) : Bool :=
  row.status == .pending && decide ((row.createdAt : Int) < cutoff)

def markStalePendingAsFailed (cutoff : Int) : Nat × Files :=
  (files.count fun _ row => isStalePending cutoff row,
    files.mapRows fun _ row =>
      if isStalePending cutoff row then { row with status := .failed } else row)

end FileRepository

def fileAnswer (x : Outside) : (op : FileStatement) → Files → FileAnswer op × Files
  | .findActiveById id, files => (FileRepository.findActiveById files id, files)
  | .findWorkspace _, files => (x.workspaceExists, files)
  | .findMember _ _, files => (x.role, files)
  | .confirm id, files => FileRepository.confirm files id
  | .archive id, files => FileRepository.archive files id x.now
  | .deleteObject _, files => (x.objectDeleted, files)
  | .markStalePendingAsFailed cutoff, files =>
      FileRepository.markStalePendingAsFailed files cutoff

inductive FileError
  | entityNotFound (entity : String) (id : Uuid)
  | forbidden
  | businessRule (code message : String) (status : AttachmentStatus)
  | database (error : DbError)
  deriving DecidableEq, Repr

abbrev FileProcedure := Program FileStatement FileAnswer FileError

namespace FileService

def requireMembership (workspaceId userId : Uuid) : FileProcedure WorkspaceRole := do
  let isThere ← ask (FileStatement.findWorkspace workspaceId)
  refuseIf (!isThere) (.entityNotFound "Workspace" workspaceId)
  let member ← ask (FileStatement.findMember workspaceId userId)
  demand member .forbidden

/-- The row of a file, for its uploader and for those who administrate its workspace. -/
def requireOwned (fileId userId : Uuid) : FileProcedure FileAttachment := do
  let found ← ask (FileStatement.findActiveById fileId)
  let row ← demand found (.entityNotFound "FileAttachment" fileId)
  let role ← requireMembership row.workspaceId userId
  let isOwner := row.uploadedBy == userId
  let isAdmin := role == .owner || role == .admin
  refuseIf (!isOwner && !isAdmin) .forbidden
  return row

def confirm (fileId userId : Uuid) : FileProcedure FileAttachment := do
  let row ← requireOwned fileId userId
  if row.status = .completed then
    return row
  refuseIf (row.status != .pending)
    (.businessRule "INVALID_FILE_STATUS"
      s!"Upload with status {row.status.name} cannot be confirmed" row.status)
  let confirmed ← ask (FileStatement.confirm fileId)
  orThrow .database confirmed

/-- An object that is not deleted is only logged. -/
def delete (fileId userId : Uuid) : FileProcedure Unit := do
  let row ← requireOwned fileId userId
  let archived ← ask (FileStatement.archive fileId)
  let _ ← orThrow .database archived
  let _ ← ask (FileStatement.deleteObject row.s3Key)
  return ()

end FileService

/-- `STALE_UPLOAD_TTL_HOURS`. -/
def staleUploadTtlHours : Int := 24

/-- `StaleUploadTask.markStaleUploadsFailed`. -/
def markStaleUploadsFailed (now : Timestamp) : FileProcedure Unit := do
  let cutoff := (now : Int) - staleUploadTtlHours * 60 * 60 * 1000
  let _ ← ask (FileStatement.markStalePendingAsFailed cutoff)
  return ()

inductive FileCall
  | confirm (fileId userId : Uuid)
  | delete (fileId userId : Uuid)
  | markStaleUploadsFailed (now : Timestamp)

def FileCall.program : FileCall → FileProcedure Unit
  | .confirm fileId userId => do
      let _ ← FileService.confirm fileId userId
      return ()
  | .delete fileId userId => FileService.delete fileId userId
  | .markStaleUploadsFailed now => File.markStaleUploadsFailed now

/-- The files, and the calls made so far. -/
abbrev FilePool := Pool FileStatement FileAnswer FileError FileCall Files

/-- A call starts, or one of its awaits ends. -/
def FilePool.step (p : FilePool) (m : Move FileCall Outside) : Option FilePool :=
  Pool.step fileAnswer FileCall.program p m

end SyncBoard.File
