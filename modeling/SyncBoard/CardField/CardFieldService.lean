import Mathlib.Data.Rat.Defs
import SyncBoard.Board.Footprint
import SyncBoard.Messaging.Message

/-!
# CardFieldService

Custom fields: their definitions, of a workspace, and their values, of a card. A value is
validated when it is written. The tables are kept next to the board tables, which these
calls only read.

## Implementation notes

`Date.parse` and the identifier that a text denotes are parameters. What the database
client refuses besides the constraints (a JSON `null` in a column that takes none, a
character that no `jsonb` holds, a position outside the column's range) is decided from
outside, for each write. A payload field is absent or a value. The generated id of a value
is left out, as its key is the field with the card; so are log lines, timestamps and the
two lists that only read.
-/

namespace SyncBoard.CardField

open Relational Fallible
open Board (Loaded)

/-- What a numeral in JSON is read as; one that is too large is infinite. -/
inductive JsNumber
  | finite (value : ℚ)
  | infinite (negative : Bool)

def JsNumber.isFinite : JsNumber → Bool
  | .finite _ => true
  | .infinite _ => false

inductive Json
  | null
  | bool (b : Bool)
  | number (n : JsNumber)
  | string (s : JsString)
  | array (items : List Json)
  | object (properties : List (JsString × Json))

namespace Json

/-- The property of an object; no other value has properties of its own. -/
def property (name : JsString) : Json → Option Json
  | .object properties => (properties.find? fun p => p.1 == name).map (·.2)
  | _ => none

def asString : Json → Option JsString
  | .string s => some s
  | _ => none

/-- The items, where `Array.isArray`. -/
def asArray : Json → Option (List Json)
  | .array items => some items
  | _ => none

def isNull : Json → Bool
  | .null => true
  | _ => false

end Json

/-- `CardFieldType`. -/
inductive CardFieldType
  | text
  | number
  | date
  | select
  | user
  deriving DecidableEq, Repr

/-- A row of `card_field_defs`. -/
structure CardFieldDefRow where
  workspaceId : Uuid
  name : JsString
  fieldType : CardFieldType
  options : Option Json := none
  required : Bool := false
  position : Nat := 0

/-- A row of `card_field_values`. -/
structure CardFieldValue where
  fieldId : Uuid
  cardId : Uuid
  value : Json

structure CreateFieldDefDto where
  name : JsString
  fieldType : CardFieldType
  options : Option Json := none
  required : Option Bool := none
  position : Option Nat := none

structure UpdateFieldDefDto where
  name : Option JsString := none
  options : Option Json := none
  required : Option Bool := none
  position : Option Nat := none

inductive FieldError
  | entityNotFound (entityName : String) (entityId : Uuid)
  | businessRule (code message : String)
  | badRequest (message : String)
  | database (error : DbError)
  | refused
  deriving DecidableEq, Repr

/-- Functions of the platform. -/
structure Platform where
  /-- `!Number.isNaN(Date.parse(value))`. -/
  dateParses : JsString → Bool
  /-- The identifier that a text denotes in a column of type `uuid`. -/
  uuidOf : JsString → Uuid

/-- The options of a select field: the wrapped array, or the flat one. -/
def rawOptions (options : Option Json) : List Json :=
  match (options.bind (·.property (js "options"))).bind Json.asArray with
  | some wrapped => wrapped
  | none =>
      match options.bind Json.asArray with
      | some flat => flat
      | none => []

def allowedOptions (options : Option Json) : List JsString :=
  (rawOptions options).filterMap Json.asString

/-- The condition on a value that is not null. -/
def FitsType (platform : Platform) (options : Option Json) : CardFieldType → Json → Bool
  | .text, .string _ => true
  | .number, .number n => n.isFinite
  | .date, .string s => platform.dateParses s
  | .select, .string s => s ∈ allowedOptions options
  | .user, .string s => (Messaging.isUuidV4 (.string s)).isSome
  | _, _ => false

/-- The text of the exception. -/
def CardFieldType.complaint : CardFieldType → String
  | .text => "Text field expects a string"
  | .number => "Number field expects a finite number"
  | .date => "Date field expects ISO 8601 string"
  | .select => "Select value not in field options"
  | .user => "User field expects a user UUID"

/-- `validateFieldValue`; an undefined value is `none`. -/
def validateFieldValue (platform : Platform) (fieldType : CardFieldType) (options : Option Json)
    (value : Option Json) : Except FieldError Unit :=
  match value with
  | none | some .null => .ok ()
  | some value =>
      if FitsType platform options fieldType value then .ok ()
      else .error (.badRequest fieldType.complaint)

/-- The tables of the custom fields next to those of the boards; values are under the
field and the card. -/
structure Tables where
  board : Board.Database
  defs : Table Uuid CardFieldDefRow := Table.empty
  values : Table (Uuid × Uuid) Json := Table.empty

/-- `name` is a `VarChar(100)`. -/
def nameWidth : Nat := 100

def CardFieldDefRow.Accepted (t : Tables) (row : CardFieldDefRow) : Prop :=
  t.board.workspaces.contains row.workspaceId = true ∧ charCount row.name ≤ nameWidth

instance (t : Tables) (row : CardFieldDefRow) : Decidable (row.Accepted t) :=
  inferInstanceAs (Decidable (_ ∧ _))

/-- The columns of `unique_field_def_name`. -/
def CardFieldDefRow.key (row : CardFieldDefRow) : Uuid × JsString :=
  (row.workspaceId, row.name)

/-- Every row satisfies the constraints of its table. -/
structure Tables.WellFormed (t : Tables) : Prop where
  defs : t.defs.All fun _ row => row.Accepted t
  names : t.defs.Unique CardFieldDefRow.key
  values : t.values.All fun k _ =>
    t.defs.contains k.1 = true ∧ t.board.cards.contains k.2 = true

/-- Tables whose rows satisfy their constraints. -/
structure World extends Tables where
  wellFormed : toTables.WellFormed

namespace World

/-- No custom fields yet. -/
def initial (board : Board.Database) : World where
  board := board
  wellFormed :=
    { defs := by
        intro _ _ h
        cases h
      names := Table.Unique.empty _
      values := by
        intro _ _ h
        cases h }

/-- The error of a definition that is not accepted. -/
def rejection (row : CardFieldDefRow) : DbError :=
  if nameWidth < charCount row.name then .valueTooLong else .foreignKeyViolation

/-- Insert a row of `card_field_defs`. -/
def insertDef (w : World) (id : Uuid) (row : CardFieldDefRow) : Except DbError World :=
  if hfresh : w.defs.get? id = none ∧ w.defs.All fun _ other => other.key ≠ row.key then
    if haccepted : row.Accepted w.toTables then
      .ok
        { toTables := { w.toTables with defs := w.defs.insert id row hfresh.1 }
          wellFormed :=
            { defs := w.wellFormed.defs.insert hfresh.1 haccepted
              names := w.wellFormed.names.insert hfresh.1 hfresh.2
              values := w.wellFormed.values.imp fun _ _ hv =>
                ⟨w.defs.grows_insert hfresh.1 _ hv.1, hv.2⟩ } }
    else .error (rejection row)
  else .error .uniqueViolation

/-- Replace a row of `card_field_defs`. -/
def updateDef (w : World) (id : Uuid) (row : CardFieldDefRow) : Except DbError World :=
  if hfree : w.defs.All fun k other => k ≠ id → other.key ≠ row.key then
    if haccepted : row.Accepted w.toTables then
      .ok
        { toTables := { w.toTables with defs := w.defs.modify id fun _ => row }
          wellFormed :=
            { defs := w.wellFormed.defs.modify fun _ _ => haccepted
              names := w.wellFormed.names.modify_of_ne fun _ _ => hfree
              values := w.wellFormed.values.imp fun _ _ hv =>
                ⟨w.defs.grows_modify id _ _ hv.1, hv.2⟩ } }
    else .error (rejection row)
  else .error .uniqueViolation

/-- Delete a row of `card_field_defs`; its values go with it. -/
def deleteDef (w : World) (id : Uuid) : World where
  toTables :=
    { w.toTables with
      defs := w.defs.delete id
      values := w.values.deleteWhere fun k _ => k.1 == id }
  wellFormed :=
    { defs := w.wellFormed.defs.delete id
      names := w.wellFormed.names.delete id
      values := by
        intro k value hvalue
        obtain ⟨hvalue, hkept⟩ := Table.get?_deleteWhere_eq_some.mp hvalue
        have hother : k.1 ≠ id := by simpa using hkept
        obtain ⟨hdef, hcard⟩ := w.wellFormed.values k value hvalue
        refine ⟨?_, hcard⟩
        rw [Table.contains, Table.get?_delete, if_neg hother]
        exact hdef }

/-- Insert a row of `card_field_values`, or replace the one of the field and the card. -/
def upsertValue (w : World) (k : Uuid × Uuid) (value : Json) : Except DbError World :=
  if hkeys : w.defs.contains k.1 = true ∧ w.board.cards.contains k.2 = true then
    if hfresh : w.values.get? k = none then
      .ok
        { toTables := { w.toTables with values := w.values.insert k value hfresh }
          wellFormed :=
            { w.wellFormed with values := w.wellFormed.values.insert hfresh hkeys } }
    else
      .ok
        { toTables := { w.toTables with values := w.values.modify k fun _ => value }
          wellFormed :=
            { w.wellFormed with values := w.wellFormed.values.modify fun _ _ => hkeys } }
  else .error .foreignKeyViolation

end World

/-- What a call takes from outside: the id of a new row, and whether the client refuses
what it is to write. -/
structure Env where
  newId : Uuid
  refuses : Bool := false

/-- The errors that the writes of definitions translate. -/
def defRejected (id : Uuid) : DbError → FieldError
  | .uniqueViolation =>
      .businessRule "FIELD_NAME_EXISTS" "A field with this name already exists in the workspace"
  | .recordNotFound => .entityNotFound "CardFieldDef" id
  | e => .database e

namespace CardFieldRepository
variable (env : Env) (w : World)

def createDef (data : CardFieldDefRow) : Except FieldError (Loaded CardFieldDefRow × World) :=
  if env.refuses then .error .refused
  else
    match w.insertDef env.newId data with
    | .ok w => .ok (⟨env.newId, data⟩, w)
    | .error .uniqueViolation => .error (defRejected env.newId .uniqueViolation)
    | .error e => .error (.database e)

def findDefById (id : Uuid) : Option (Loaded CardFieldDefRow) :=
  (w.defs.get? id).map (Loaded.mk id)

def updateDef (id : Uuid) (data : UpdateFieldDefDto) :
    Except FieldError (Loaded CardFieldDefRow × World) :=
  if env.refuses then .error .refused
  else
    match w.defs.get? id with
    | none => .error (defRejected id .recordNotFound)
    | some row =>
        let updated : CardFieldDefRow :=
          { row with
            name := data.name.getD row.name
            options := data.options.or row.options
            required := data.required.getD row.required
            position := data.position.getD row.position }
        match w.updateDef id updated with
        | .ok w => .ok (⟨id, updated⟩, w)
        | .error e => .error (defRejected id e)

def deleteDef (id : Uuid) : Except FieldError (Unit × World) :=
  if w.defs.contains id then .ok ((), w.deleteDef id)
  else .error (defRejected id .recordNotFound)

/-- A value that is missing is refused. -/
def setValue (fieldId cardId : Uuid) (value : Option Json) :
    Except FieldError (CardFieldValue × World) :=
  match value with
  | none => .error .refused
  | some value =>
      if env.refuses then .error .refused
      else
        match w.upsertValue (fieldId, cardId) value with
        | .ok w => .ok (⟨fieldId, cardId, value⟩, w)
        | .error e => .error (.database e)

end CardFieldRepository

abbrev Service := Action World FieldError

/-- The value of a computation that may throw. -/
def orThrow {α : Type} (r : Except FieldError α) : Service α :=
  commit fun w => r.map fun a => (a, w)

namespace CardFieldService
variable (platform : Platform) (env : Env)

def verifyBoardInWorkspace (boardId workspaceId : Uuid) : Service Unit := do
  let _ ← demand (fun w => Board.BoardRepository.findById w.board boardId (some workspaceId))
    (.entityNotFound "Board" boardId)

/-- The definition, where it is one of the workspace's. -/
def findDef (workspaceId fieldId : Uuid) : Service (Loaded CardFieldDefRow) :=
  demand (fun w => (CardFieldRepository.findDefById w fieldId).filter fun field =>
    field.row.workspaceId == workspaceId) (.entityNotFound "CardFieldDef" fieldId)

def createDef (workspaceId : Uuid) (dto : CreateFieldDefDto) :
    Service (Loaded CardFieldDefRow) :=
  commit fun w => CardFieldRepository.createDef env w
    { workspaceId := workspaceId
      name := dto.name
      fieldType := dto.fieldType
      options := dto.options.filter fun options => !options.isNull
      required := dto.required.getD false
      position := dto.position.getD 0 }

def updateDef (workspaceId fieldId : Uuid) (dto : UpdateFieldDefDto) :
    Service (Loaded CardFieldDefRow) := do
  let _ ← findDef workspaceId fieldId
  commit fun w => CardFieldRepository.updateDef env w fieldId dto

def deleteDef (workspaceId fieldId : Uuid) : Service Unit := do
  let _ ← findDef workspaceId fieldId
  commit fun w => CardFieldRepository.deleteDef w fieldId

/-- Whether a value of a user field names a member of the workspace. -/
def namesMember (w : World) (workspaceId : Uuid) (field : CardFieldDefRow)
    (value : Option Json) : Bool :=
  match field.fieldType, value.bind Json.asString with
  | .user, some userId =>
      Board.WorkspaceService.isUserMember w.board workspaceId (platform.uuidOf userId)
  | _, _ => true

def setValue (boardId workspaceId cardId fieldId : Uuid) (value : Option Json) :
    Service CardFieldValue := do
  verifyBoardInWorkspace boardId workspaceId
  let field ← findDef workspaceId fieldId
  let _ ← demand (fun w => Board.CardRepository.findActiveById w.board cardId (some boardId))
    (.entityNotFound "Card" cardId)
  orThrow (validateFieldValue platform field.row.fieldType field.row.options value)
  check (fun w => namesMember platform w workspaceId field.row value)
    (.badRequest "Referenced user is not a member of this workspace")
  commit fun w => CardFieldRepository.setValue env w fieldId cardId value

end CardFieldService

inductive FieldCall
  | createDef (workspaceId : Uuid) (dto : CreateFieldDefDto)
  | updateDef (workspaceId fieldId : Uuid) (dto : UpdateFieldDefDto)
  | deleteDef (workspaceId fieldId : Uuid)
  | setValue (boardId workspaceId cardId fieldId : Uuid) (value : Option Json)

def FieldCall.run (platform : Platform) (env : Env) : FieldCall → Service Unit
  | .createDef workspaceId dto => do
      let _ ← CardFieldService.createDef env workspaceId dto
  | .updateDef workspaceId fieldId dto => do
      let _ ← CardFieldService.updateDef env workspaceId fieldId dto
  | .deleteDef workspaceId fieldId => CardFieldService.deleteDef workspaceId fieldId
  | .setValue boardId workspaceId cardId fieldId value => do
      let _ ← CardFieldService.setValue platform env boardId workspaceId cardId fieldId value

/-- A call leaves the tables, whether it returns or throws. -/
def fieldStep (platform : Platform) (w : World) (a : Env × FieldCall) : Option World :=
  some (exec (a.2.run platform a.1) w).2

end SyncBoard.CardField
