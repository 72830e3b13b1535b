import SyncBoard.Workspace.Services

/-!
# Updates of a workspace

`WorkspaceService.update` changes the details of a workspace and, where they bring
a new name, its slug. Besides the statements of the other calls it asks one of its
own, which rewrites a row together with its unique column.

## Implementation notes

The DTO trims its texts, which turns a `null` into an absent field; `avatarUrl` is
not trimmed, so that a `null` reaches the row. A slug that is too wide is refused
before it is compared with the others.
-/

namespace SyncBoard.Workspace

open Relational Interleaved Interleaved.Program

/-- A field that is `none` is absent. -/
structure UpdateWorkspaceDto where
  name : Option JsString := none
  description : Option JsString := none
  avatarUrl : Option (Option JsString) := none
  deriving DecidableEq, Repr

/-- `{ ...dto, slug }`, or the DTO alone. -/
structure WorkspaceUpdateInput extends UpdateWorkspaceDto where
  slug : Option JsString := none
  deriving DecidableEq, Repr

/-- An absent field stays as it is in the row. -/
def WorkspaceUpdateInput.apply (data : WorkspaceUpdateInput) (workspace : WorkspaceRow) :
    WorkspaceRow :=
  { workspace with
    name := data.name.getD workspace.name
    slug := data.slug.getD workspace.slug
    description := data.description <|> workspace.description
    avatarUrl := data.avatarUrl.getD workspace.avatarUrl }

/-- Rewrite a row of `workspaces`, its slug included. -/
def Database.rewriteWorkspace (db : Database) (id : Uuid) (data : WorkspaceUpdateInput) :
    Except DbError (WorkspaceRow × Database) :=
  match hrow : db.workspaces.get? id with
  | none => .error .recordNotFound
  | some workspace =>
      if hwidth : (data.apply workspace).slug.length ≤ slugWidth then
        if hfree : db.workspaces.All fun j other =>
            j ≠ id → other.slug ≠ (data.apply workspace).slug then
          .ok
            (data.apply workspace,
              { toTables :=
                  { db.toTables with workspaces := db.workspaces.modify id data.apply }
                wellFormed := by
                  apply db.wellFormed.setWorkspaces (db.workspaces.grows_modify id data.apply)
                  · refine db.wellFormed.workspaces.modify fun old hold => ?_
                    obtain rfl := Option.some.inj (hrow.symm.trans hold)
                    exact ⟨(db.wellFormed.workspaces id workspace hold).1, hwidth⟩
                  · refine db.wellFormed.slugs.modify_of_ne fun old hold => ?_
                    obtain rfl := Option.some.inj (hrow.symm.trans hold)
                    exact hfree })
        else .error .uniqueViolation
      else .error .valueTooLong

/-- Archived workspaces are updated as well. -/
def WorkspaceRepository.update (db : Database) (id : Uuid) (data : WorkspaceUpdateInput) :
    Except DbError (WorkspaceRecord × Database) := do
  let (workspace, db) ← db.rewriteWorkspace id data
  return (⟨id, workspace⟩, db)

/-- The statements of the other calls, and the update. -/
inductive WorkspaceStatement
  | shared (op : Statement)
  | update (id : Uuid) (data : WorkspaceUpdateInput)
  deriving DecidableEq, Repr

abbrev WorkspaceAnswer : WorkspaceStatement → Type
  | .shared op => Answer op
  | .update _ _ => Except DbError WorkspaceRecord

def workspaceAnswer (x : Outside) : (op : WorkspaceStatement) → World → WorkspaceAnswer op × World
  | .shared op, w => answer x op w
  | .update id data, w => w.write (WorkspaceRepository.update w.db id data)

abbrev WorkspaceProgram := Program WorkspaceStatement WorkspaceAnswer AppError

/-- A program over the statements of the other calls. -/
def shared {α : Type} (p : Service α) : WorkspaceProgram α :=
  p.via WorkspaceStatement.shared fun _ a => a

/-- The new name of the workspace, where the DTO brings one. -/
def UpdateWorkspaceDto.newName (dto : UpdateWorkspaceDto) (existing : WorkspaceRecord) :
    Option JsString :=
  dto.name.filter fun name => !name.isEmpty && name != existing.row.name

namespace WorkspaceService
variable (platform : Platform)

/-- The loop of `update`, with the attempts that are left. -/
def updateAttempts (tries : Nat) (workspaceId : Uuid) (dto : UpdateWorkspaceDto)
    (name : JsString) : Nat → JsString → WorkspaceProgram WorkspaceRecord
  | 0, _ =>
      fail (.businessRule "SLUG_COLLISION"
        "Could not generate unique workspace slug, please try again")
  | attempts + 1, slug => do
      let updated ← ask (WorkspaceStatement.update workspaceId
        { toUpdateWorkspaceDto := dto, slug := some slug })
      match updated with
      | .ok workspace => return workspace
      | .error .uniqueViolation => do
          let slug ← shared (generateUniqueSlug platform tries name)
          updateAttempts tries workspaceId dto name attempts slug
      | .error e => fail (.database e)

/-- A new name brings a new slug. -/
def updateExisting (tries : Nat) (workspaceId : Uuid) (dto : UpdateWorkspaceDto)
    (existing : WorkspaceRecord) : WorkspaceProgram WorkspaceRecord :=
  match dto.newName existing with
  | some name => do
      let slug ← shared (generateUniqueSlug platform tries name)
      updateAttempts platform tries workspaceId dto name 3 slug
  | none => do
      let updated ← ask (WorkspaceStatement.update workspaceId { toUpdateWorkspaceDto := dto })
      orThrow .database updated

def update (tries : Nat) (workspaceId : Uuid) (dto : UpdateWorkspaceDto) :
    WorkspaceProgram WorkspaceRecord := do
  let existing ← shared (workspaceRepo.findById workspaceId)
  let existing ← demand existing (.entityNotFound "Workspace" workspaceId)
  updateExisting platform tries workspaceId dto existing

end WorkspaceService

end SyncBoard.Workspace
