import SyncBoard.Basic
import SyncBoard.Lib.Run
import SyncBoard.Realtime.RateLimiter
import Mathlib.Data.Finset.Basic
import Mathlib.Data.Finset.Lattice.Basic
import Mathlib.Logic.Function.Basic

/-!
# Editors and the server of one document

The sync effect of `DocumentEditor` against the handlers of `DocumentGateway`:
an editor emits an update when it makes one and the socket is connected, asks
for what it misses when the socket connects, and merges what it receives. Before
either handler `WsRateLimitGuard` asks whether the user has events left.

## Implementation notes

A replica is the set of the updates merged into it, so a state vector is the
set of updates that a peer has. A local edit has a new id, as in Yjs, and is
emitted in one message. The two directions of a connection are queues. When a
connection breaks, the updates that the server had not handled yet are `late`:
the server may still find them in its buffers and let them through, or never see
or refuse them. The limits are those of the users: their other sockets use them
up too, and Redis may lose them, so they may change at any time. A call of the
limiter that fails lets its event through. The document stays loaded on the
server.
-/

namespace SyncBoard.Document

open Labelled Realtime

/-- What an editor emits. -/
inductive Uplink (U : Type)
  | join (stateVector : Finset U)
  | update (u : U)

/-- What the server emits to an editor. -/
inductive Downlink (U : Type)
  | joined (state : Finset U)
  | update (us : Finset U)

/-- The updates that a message carries to an editor. -/
def Downlink.updates {U : Type} : Downlink U → Finset U
  | .joined state => state
  | .update us => us

/-- How far `handleJoin` has come for the socket of an editor. -/
inductive Session (U : Type)
  | none
  | checking (stateVector : Finset U)
  | inRoom (stateVector : Finset U)
  | acked

/-- The socket is in the room of the document. -/
def Session.InRoom {U : Type} : Session U → Bool
  | .inRoom _ | .acked => true
  | _ => false

structure Editor (U : Type) where
  ydoc : Finset U := ∅
  connected : Bool := false
  /-- `doc:joined` was processed since the socket connected. -/
  joined : Bool := false
  session : Session U := .none
  up : List (Uplink U) := []
  down : List (Downlink U) := []

/-- The limits of `DOC_RATE_LIMITS` on the two events. -/
def Uplink.limits {U : Type} : Uplink U → WsRateLimitOptions
  | .join _ => { category := js "join", limit := 10, windowMs := 60000 }
  | .update _ => { category := js "doc_update", limit := 120, windowMs := 60000 }

/-- The editors with the users whose tokens they have, the calls that the limiter has
recorded, the server's `Y.Doc`, the late updates, and all updates made. -/
structure SyncState (ι U : Type) where
  user : ι → JsString
  editors : ι → Editor U := fun _ => {}
  limits : RedisSets := fun _ => {}
  server : Finset U
  late : Finset U := ∅
  made : Finset U

/-- The updates among the messages of a queue. -/
def pending {U : Type} (up : List (Uplink U)) : List U :=
  up.filterMap fun
    | .join _ => none
    | .update u => some u

inductive SyncAction (ι U : Type)
  | edit (c : ι) (u : U)
  | connect (c : ι)
  | disconnect (c : ι)
  | handle (c : ι) (call : Option RateLimitCall)
  | denyJoin (c : ι)
  | enterRoom (c : ι)
  | ack (c : ι)
  | receive (c : ι)
  | saved
  | elsewhere (limits : RedisSets)
  | deliverLate (u : U)
  | dropLate (u : U)

variable {ι U : Type} [DecidableEq ι] [DecidableEq U]

namespace SyncState

def setEditor (s : SyncState ι U) (c : ι) (e : Editor U) : SyncState ι U :=
  { s with editors := Function.update s.editors c e }

/-- `client.to(room).emit`: to the sockets in the room for which `p` holds. -/
def relay (s : SyncState ι U) (p : ι → Bool) (us : Finset U) : SyncState ι U :=
  { s with editors := fun c =>
      let e := s.editors c
      if e.session.InRoom && p c then { e with down := e.down ++ [.update us] } else e }

/-- `handleUpdate`: apply the update and relay it. -/
def handleUpdate (s : SyncState ι U) (p : ι → Bool) (u : U) : SyncState ι U :=
  { s with server := insert u s.server }.relay p {u}

/-- The hook on `'update'` of an editor, after a local edit. -/
def edit (s : SyncState ι U) (c : ι) (u : U) : SyncState ι U :=
  let e := s.editors c
  let up := if e.connected then e.up ++ [.update u] else e.up
  { s.setEditor c { e with ydoc := insert u e.ydoc, up } with made := insert u s.made }

/-- The hook on `'connect'`: ask for what the document misses. -/
def connect (s : SyncState ι U) (c : ι) : SyncState ι U :=
  let e := s.editors c
  s.setEditor c { e with
    connected := true, joined := false, session := .none
    up := e.up ++ [.join e.ydoc], down := [] }

def disconnect (s : SyncState ι U) (c : ι) : SyncState ι U :=
  let e := s.editors c
  { s.setEditor c { e with
      connected := false, joined := false, session := .none, up := [], down := [] } with
    late := s.late ∪ (pending e.up).toFinset }

/-- `WsRateLimitGuard` on an event of an editor; without a call the limiter has failed. -/
def guard (s : SyncState ι U) (c : ι) (m : Uplink U) (call : Option RateLimitCall) :
    Except WsException Bool × RedisSets :=
  match call with
  | none => (.ok true, s.limits)
  | some call => canActivate (some m.limits) (some (s.user c)) call s.limits

/-- The event gets past the guard. -/
def admits (s : SyncState ι U) (c : ι) (m : Uplink U) (call : Option RateLimitCall) : Bool :=
  reachesHandler (s.guard c m call).1

/-- The handler of an event, which is off the queue. `handleJoin` begins with its checks. -/
def handler (s : SyncState ι U) (c : ι) : Uplink U → SyncState ι U
  | .join stateVector =>
      s.setEditor c { s.editors c with session := .checking stateVector }
  | .update u => s.handleUpdate (fun c' => c' ≠ c) u

/-- The server takes the next message of an editor. -/
def handle (s : SyncState ι U) (c : ι) (call : Option RateLimitCall) : Option (SyncState ι U) :=
  match (s.editors c).up with
  | [] => none
  | m :: up =>
      let t := { s.setEditor c { s.editors c with up } with limits := (s.guard c m call).2 }
      some (if s.admits c m call then t.handler c m else t)

/-- A check of `handleJoin` fails. -/
def denyJoin (s : SyncState ι U) (c : ι) : Option (SyncState ι U) :=
  match (s.editors c).session with
  | .checking _ => some (s.setEditor c { s.editors c with session := .none })
  | _ => none

/-- `client.join` in `handleJoin`. -/
def enterRoom (s : SyncState ι U) (c : ι) : Option (SyncState ι U) :=
  match (s.editors c).session with
  | .checking stateVector =>
      some (s.setEditor c { s.editors c with session := .inRoom stateVector })
  | _ => none

/-- The end of `handleJoin`: emit what the state vector misses. -/
def ack (s : SyncState ι U) (c : ι) : Option (SyncState ι U) :=
  let e := s.editors c
  match e.session with
  | .inRoom stateVector =>
      some (s.setEditor c { e with
        session := .acked, down := e.down ++ [.joined (s.server \ stateVector)] })
  | _ => none

/-- An editor merges the next message from the server. -/
def receive (s : SyncState ι U) (c : ι) : Option (SyncState ι U) :=
  let e := s.editors c
  match e.down with
  | [] => none
  | .joined state :: down =>
      some (s.setEditor c { e with ydoc := e.ydoc ∪ state, joined := true, down })
  | .update us :: down => some (s.setEditor c { e with ydoc := e.ydoc ∪ us, down })

def step (s : SyncState ι U) : SyncAction ι U → Option (SyncState ι U)
  | .edit c u => if u ∈ s.made then none else some (s.edit c u)
  | .connect c => if (s.editors c).connected then none else some (s.connect c)
  | .disconnect c => if (s.editors c).connected then some (s.disconnect c) else none
  | .handle c call => s.handle c call
  | .denyJoin c => s.denyJoin c
  | .enterRoom c => s.enterRoom c
  | .ack c => s.ack c
  | .receive c => s.receive c
  -- `handleDocumentSaved` emits the whole document to the room
  | .saved => some (s.relay (fun _ => true) s.server)
  | .elsewhere limits => some { s with limits }
  | .deliverLate u =>
      if u ∈ s.late then
        some ({ s with late := s.late.erase u }.handleUpdate (fun _ => true) u)
      else none
  | .dropLate u => if u ∈ s.late then some { s with late := s.late.erase u } else none

end SyncState

omit [DecidableEq U] in
@[simp] theorem pending_nil : pending ([] : List (Uplink U)) = [] := rfl

omit [DecidableEq U] in
@[simp] theorem pending_join (stateVector : Finset U) (up : List (Uplink U)) :
    pending (.join stateVector :: up) = pending up := rfl

omit [DecidableEq U] in
@[simp] theorem pending_update (u : U) (up : List (Uplink U)) :
    pending (.update u :: up) = u :: pending up := rfl

omit [DecidableEq U] in
@[simp] theorem pending_append (up up' : List (Uplink U)) :
    pending (up ++ up') = pending up ++ pending up' :=
  List.filterMap_append

namespace SyncState

omit [DecidableEq U] in
theorem setEditor_editors (s : SyncState ι U) (c : ι) (e : Editor U) (j : ι) :
    (s.setEditor c e).editors j = if j = c then e else s.editors j := by
  by_cases h : j = c
  · subst h
    simp [setEditor]
  · simp [setEditor, h]

omit [DecidableEq ι] [DecidableEq U] in
/-- A relay only appends to the queue from the server. -/
theorem relay_editors (s : SyncState ι U) (p : ι → Bool) (us : Finset U) (c : ι) :
    (s.relay p us).editors c = { s.editors c with
      down := (s.editors c).down ++
        if (s.editors c).session.InRoom && p c then [.update us] else [] } := by
  simp only [relay]
  split <;> simp_all

omit [DecidableEq ι] in
@[simp] theorem handleUpdate_made (s : SyncState ι U) (p : ι → Bool) (u : U) :
    (s.handleUpdate p u).made = s.made := rfl

omit [DecidableEq ι] in
@[simp] theorem handleUpdate_late (s : SyncState ι U) (p : ι → Bool) (u : U) :
    (s.handleUpdate p u).late = s.late := rfl

omit [DecidableEq ι] in
@[simp] theorem handleUpdate_server (s : SyncState ι U) (p : ι → Bool) (u : U) :
    (s.handleUpdate p u).server = insert u s.server := rfl

omit [DecidableEq ι] in
@[simp] theorem handleUpdate_up (s : SyncState ι U) (p : ι → Bool) (u : U) (c : ι) :
    ((s.handleUpdate p u).editors c).up = (s.editors c).up := by
  rw [handleUpdate, relay_editors]

end SyncState

end SyncBoard.Document
