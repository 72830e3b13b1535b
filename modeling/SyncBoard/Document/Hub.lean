import SyncBoard.Basic
import SyncBoard.Lib.Run
import Mathlib.Data.Finset.Basic
import Mathlib.Logic.Function.Basic

/-!
# The live-document hub

`DocumentManagerService` keeps one live `Y.Doc` per open document, saves it
five seconds after its last change and unloads it after five idle minutes. An
action of the hub is what runs between two awaits; what waits meanwhile (the
loads, the calls of `saveState`, the `finally` of `unloadIdle`) is in the state.

## Implementation notes

A `Y.Doc`, and the bytes that encode one, is the set of the updates merged into
it, and applying an update is a union. The hook on `'update'` runs only when
the union adds something. Entries live in a heap, because the closures of the
source keep the entry they captured after the map has dropped it. The preview
text that `saveState` writes next to the state is left out.
-/

namespace SyncBoard.Document

abbrev SocketId := Nat

/-- The heap address of an entry. -/
abbrev EntryId := Nat

/-- `DOCUMENT_CONSTANTS.SAVE_DEBOUNCE_MS`. -/
def saveDebounceMs : Nat := 5000

/-- `DOCUMENT_CONSTANTS.IDLE_UNLOAD_MS`. -/
def idleUnloadMs : Nat := 5 * 60000

inductive DocumentStatus
  | active
  | archived
  deriving DecidableEq, Repr

/-- A row of `documents`; an absent or empty `yjs_state` is `∅`. -/
structure DocumentRow (U : Type) where
  workspaceId : Uuid
  status : DocumentStatus := .active
  yjsState : Finset U := ∅

/-- An entry of the live map. `documentId` is the one its update hook captured,
and `saveTimeout` is the time at which the pending timer is due. -/
structure ActiveDocument (U : Type) where
  documentId : Uuid
  ydoc : Finset U
  connections : Finset SocketId := ∅
  lastActivity : Timestamp
  saveTimeout : Option Timestamp := none
  isDirty : Bool := false
  destroyed : Bool := false

/-- A load in flight, before and after its read. -/
inductive Load (U : Type)
  | reading
  | read (yjsState : Finset U)

/-- A `persistNow` that awaits `saveState`, numbered in the order of the
encodings. `committed` says that the write is in the table, of which the call
has not heard yet; `forUnload` says that `unloadIdle` awaits the call. -/
structure SaveCall (U : Type) where
  number : Nat
  documentId : Uuid
  entry : EntryId
  state : Finset U
  forUnload : Bool
  committed : Bool := false

/-- An `unloadIdle` past its `persistNow`, before its `finally` block. -/
structure Unload where
  documentId : Uuid
  entry : EntryId

structure HubState (U : Type) where
  now : Timestamp := 0
  rows : Uuid → Option (DocumentRow U)
  docs : Uuid → Option EntryId := fun _ => none
  entries : EntryId → ActiveDocument U := fun _ => { documentId := 0, ydoc := ∅, lastActivity := 0 }
  nextEntry : EntryId := 0
  loading : Uuid → Option (Load U) := fun _ => none
  saves : List (SaveCall U) := []
  nextSave : Nat := 1
  unloads : List Unload := []

variable {U : Type} [DecidableEq U]

/-- The row of an active document; an archived one is not found. -/
def findWithState (rows : Uuid → Option (DocumentRow U)) (id : Uuid) : Option (DocumentRow U) :=
  (rows id).filter fun row => row.status = .active

/-- Overwrite the stored state; `none` is the error for a missing row. -/
def saveState (rows : Uuid → Option (DocumentRow U)) (id : Uuid) (bytes : Finset U) :
    Option (Uuid → Option (DocumentRow U)) :=
  (rows id).map fun row => Function.update rows id (some { row with yjsState := bytes })

def archive (rows : Uuid → Option (DocumentRow U)) (id : Uuid) :
    Option (Uuid → Option (DocumentRow U)) :=
  (rows id).map fun row => Function.update rows id (some { row with status := .archived })

namespace HubState

def modifyEntry (s : HubState U) (e : EntryId) (f : ActiveDocument U → ActiveDocument U) :
    HubState U :=
  { s with entries := Function.update s.entries e (f (s.entries e)) }

/-- `getOrLoad` up to its first await. -/
def getOrLoad (s : HubState U) (documentId : Uuid) : HubState U :=
  match s.docs documentId with
  | some e => s.modifyEntry e fun entry => { entry with lastActivity := s.now }
  | none =>
      match s.loading documentId with
      | some _ => s
      | none => { s with loading := Function.update s.loading documentId (some .reading) }

/-- The read of a load in flight. -/
def loadRead (s : HubState U) (documentId : Uuid) : Option (HubState U) :=
  match s.loading documentId with
  | some .reading =>
      let yjsState := ((findWithState s.rows documentId).map (·.yjsState)).getD ∅
      some { s with loading := Function.update s.loading documentId (some (.read yjsState)) }
  | _ => none

/-- A load whose read was rejected. -/
def loadFail (s : HubState U) (documentId : Uuid) : Option (HubState U) :=
  match s.loading documentId with
  | some .reading => some { s with loading := Function.update s.loading documentId none }
  | _ => none

/-- The rest of a load: the hydrated entry becomes the live one. -/
def loadDone (s : HubState U) (documentId : Uuid) : Option (HubState U) :=
  match s.loading documentId with
  | some (.read yjsState) =>
      some { s with
        docs := Function.update s.docs documentId (some s.nextEntry)
        entries := Function.update s.entries s.nextEntry
          { documentId, ydoc := yjsState, lastActivity := s.now }
        nextEntry := s.nextEntry + 1
        loading := Function.update s.loading documentId none }
  | _ => none

def scheduleSave (s : HubState U) (documentId : Uuid) : HubState U :=
  match s.docs documentId with
  | none => s
  | some e => s.modifyEntry e fun entry => { entry with saveTimeout := some (s.now + saveDebounceMs) }

/-- The hook on `'update'`. -/
def onUpdate (s : HubState U) (e : EntryId) : HubState U :=
  (s.modifyEntry e fun entry => { entry with isDirty := true, lastActivity := s.now }).scheduleSave
    (s.entries e).documentId

def applyUpdate (s : HubState U) (documentId : Uuid) (update : Finset U) : HubState U :=
  match s.docs documentId with
  | none => s
  | some e =>
      if update ⊆ (s.entries e).ydoc then s
      else (s.modifyEntry e fun entry => { entry with ydoc := entry.ydoc ∪ update }).onUpdate e

/-- What a peer is missing that has the updates `stateVector`; `none` is the
error for a document that is not loaded. -/
def encodeDiff (s : HubState U) (documentId : Uuid) (stateVector : Finset U) :
    Option (Finset U) :=
  (s.docs documentId).map fun e => (s.entries e).ydoc \ stateVector

def addConnection (s : HubState U) (documentId : Uuid) (socketId : SocketId) : HubState U :=
  match s.docs documentId with
  | none => s
  | some e => s.modifyEntry e fun entry =>
      { entry with connections := insert socketId entry.connections }

def removeConnection (s : HubState U) (documentId : Uuid) (socketId : SocketId) : HubState U :=
  match s.docs documentId with
  | none => s
  | some e => s.modifyEntry e fun entry =>
      { entry with connections := entry.connections.erase socketId, lastActivity := s.now }

/-- The call of `saveState` with the encoded document of an entry. -/
def startSave (s : HubState U) (documentId : Uuid) (e : EntryId) (forUnload : Bool) :
    HubState U :=
  { s with
    saves := s.saves ++
      [{ number := s.nextSave, documentId, entry := e, state := (s.entries e).ydoc, forUnload }]
    nextSave := s.nextSave + 1 }

/-- `persistNow` up to the await of `saveState`; `none` is its early return. -/
def persistNow (s : HubState U) (documentId : Uuid) (forUnload : Bool) : Option (HubState U) :=
  match s.docs documentId with
  | none => none
  | some e => if (s.entries e).isDirty then some (s.startSave documentId e forUnload) else none

/-- The debounce timer of an entry. -/
def timer (s : HubState U) (e : EntryId) : Option (HubState U) :=
  match (s.entries e).saveTimeout with
  | none => none
  | some due =>
      if due ≤ s.now then
        let s := s.modifyEntry e fun entry => { entry with saveTimeout := none }
        some ((s.persistNow (s.entries e).documentId false).getD s)
      else none

/-- The write of an awaited `saveState` reaches the table. -/
def commit (s : HubState U) (call : Nat) : Option (HubState U) :=
  match s.saves[call]? with
  | none => none
  | some c =>
      if c.committed then none
      else (saveState s.rows c.documentId c.state).map fun rows =>
        { s with rows, saves := s.saves.set call { c with committed := true } }

/-- Back from `saveState`, `unloadIdle` goes on to its `finally` block. -/
def settle (s : HubState U) (call : Nat) (c : SaveCall U) : HubState U :=
  { s with
    saves := s.saves.eraseIdx call
    unloads := if c.forUnload then s.unloads ++ [⟨c.documentId, c.entry⟩] else s.unloads }

/-- `saveState` resolves, and `persistNow` resets the flag of the entry it saved. -/
def resolve (s : HubState U) (call : Nat) : Option (HubState U) :=
  match s.saves[call]? with
  | none => none
  | some c =>
      if c.committed then
        some ((s.modifyEntry c.entry fun entry =>
          { entry with isDirty := false, lastActivity := s.now }).settle call c)
      else none

/-- `saveState` rejects, whether or not its write is in the table. -/
def reject (s : HubState U) (call : Nat) : Option (HubState U) :=
  (s.saves[call]?).map fun c => s.settle call c

/-- `unloadIdle`, started at some time up to now, visits a document of the map. -/
def unloadIdle (s : HubState U) (documentId : Uuid) (startedAt : Timestamp) :
    Option (HubState U) :=
  match s.docs documentId with
  | none => none
  | some e =>
      let entry := s.entries e
      if startedAt ≤ s.now ∧ entry.connections = ∅ ∧
          entry.lastActivity + idleUnloadMs < startedAt then
        some ((s.persistNow documentId true).getD
          { s with unloads := s.unloads ++ [⟨documentId, e⟩] })
      else none

/-- The `finally` block of `unloadIdle`. -/
def evict (s : HubState U) (unload : Nat) : Option (HubState U) :=
  (s.unloads[unload]?).map fun v =>
    let s := s.modifyEntry v.entry fun entry =>
      { entry with saveTimeout := none, destroyed := true }
    { s with
      docs := Function.update s.docs v.documentId none
      unloads := s.unloads.eraseIdx unload }

end HubState

/-- What runs between two awaits of the hub, and what the clock, the table and
the archive route do meanwhile. -/
inductive HubAction (U : Type)
  | tick (ms : Nat)
  | getOrLoad (documentId : Uuid)
  | loadRead (documentId : Uuid)
  | loadFail (documentId : Uuid)
  | loadDone (documentId : Uuid)
  | applyUpdate (documentId : Uuid) (update : Finset U)
  | addConnection (documentId : Uuid) (socketId : SocketId)
  | removeConnection (documentId : Uuid) (socketId : SocketId)
  | timer (entry : EntryId)
  | commit (call : Nat)
  | resolve (call : Nat)
  | reject (call : Nat)
  | unloadIdle (documentId : Uuid) (startedAt : Timestamp)
  | evict (unload : Nat)
  | archive (documentId : Uuid)

def HubState.step (s : HubState U) : HubAction U → Option (HubState U)
  | .tick ms => some { s with now := s.now + ms }
  | .getOrLoad documentId => some (s.getOrLoad documentId)
  | .loadRead documentId => s.loadRead documentId
  | .loadFail documentId => s.loadFail documentId
  | .loadDone documentId => s.loadDone documentId
  | .applyUpdate documentId update => some (s.applyUpdate documentId update)
  | .addConnection documentId socketId => some (s.addConnection documentId socketId)
  | .removeConnection documentId socketId => some (s.removeConnection documentId socketId)
  | .timer entry => s.timer entry
  | .commit call => s.commit call
  | .resolve call => s.resolve call
  | .reject call => s.reject call
  | .unloadIdle documentId startedAt => s.unloadIdle documentId startedAt
  | .evict unload => s.evict unload
  | .archive documentId => (Document.archive s.rows documentId).map fun rows => { s with rows }

end SyncBoard.Document
