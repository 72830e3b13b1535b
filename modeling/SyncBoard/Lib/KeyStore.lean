import Mathlib.Logic.Function.Basic
import SyncBoard.Lib.Program

/-!
# Keys with a deadline

A store keeps a value under a key until the deadline that the value was set with. What is
promised is only that the value is there before: afterwards it may be gone or not, and the
environment decides (`lingers`). Time passes between commands and never runs backwards.

A time to live is given in whole seconds, and the clock counts milliseconds. A number of
seconds that is rounded up (`ceilSeconds`) reaches the instant that it was computed for from
whenever on the key is set.
-/

namespace KeyStore

/-- The whole seconds that cover a number of milliseconds. -/
def ceilSeconds (ms : Int) : Int :=
  (ms + 999) / 1000

theorem le_ceilSeconds (ms : Int) : ms ≤ 1000 * ceilSeconds ms := by
  unfold ceilSeconds
  omega

/-- A time to live computed at one time, and set at a later one, reaches the instant that it
was computed for. -/
theorem le_add_ceilSeconds {instant readAt now : Nat} (h : readAt ≤ now) :
    instant ≤ now + 1000 * (ceilSeconds ((instant : Int) - readAt)).toNat := by
  have hceil := le_ceilSeconds ((instant : Int) - readAt)
  omega

/-- The clock, and the values with their deadlines. -/
structure Store (K V : Type) where
  now : Nat := 0
  entries : K → Option (V × Nat) := fun _ => none

namespace Store
variable {K V : Type} (s : Store K V)

/-- The value under a key; past the deadline it may linger. -/
def get (lingers : Bool) (k : K) : Option V :=
  (s.entries k).bind fun entry =>
    if s.now < entry.2 ∨ lingers = true then some entry.1 else none

/-- How many of the one key are there. -/
def count (lingers : Bool) (k : K) : Nat :=
  if (s.get lingers k).isSome then 1 else 0

def advance (elapsed : Nat) : Store K V :=
  { s with now := s.now + elapsed }

variable [DecidableEq K]

/-- `SET` with `EX`. -/
def set (k : K) (v : V) (seconds : Nat) : Store K V :=
  { s with entries := Function.update s.entries k (some (v, s.now + 1000 * seconds)) }

def del (k : K) : Store K V :=
  { s with entries := Function.update s.entries k none }

/-- The value under the key stays there until an instant. -/
def KeptUntil (k : K) (instant : Nat) : Prop :=
  ∃ entry, s.entries k = some entry ∧ instant ≤ entry.2

omit [DecidableEq K] in
theorem get_eq_some {lingers : Bool} {k : K} {v : V} : s.get lingers k = some v ↔
    ∃ deadline, s.entries k = some (v, deadline) ∧ (s.now < deadline ∨ lingers = true) := by
  rw [get, Option.bind_eq_some_iff]
  constructor
  · rintro ⟨⟨value, deadline⟩, hentry, hvalue⟩
    obtain ⟨hthere, heq⟩ := Option.ite_none_right_eq_some.mp hvalue
    obtain rfl := Option.some.inj heq
    exact ⟨deadline, hentry, hthere⟩
  · rintro ⟨deadline, hentry, hthere⟩
    exact ⟨(v, deadline), hentry, if_pos hthere⟩

variable {s}

omit [DecidableEq K] in
/-- Before the instant the value is there. -/
theorem KeptUntil.count_eq {k : K} {instant : Nat} (h : s.KeptUntil k instant)
    (hnow : s.now < instant) (lingers : Bool) : s.count lingers k = 1 := by
  obtain ⟨⟨v, deadline⟩, hentry, hdeadline⟩ := h
  have hget : s.get lingers k = some v :=
    s.get_eq_some.mpr ⟨deadline, hentry, .inl (Nat.lt_of_lt_of_le hnow hdeadline)⟩
  rw [count, hget]
  rfl

omit [DecidableEq K] in
@[simp] theorem keptUntil_advance {k : K} {instant elapsed : Nat} :
    (s.advance elapsed).KeptUntil k instant ↔ s.KeptUntil k instant :=
  Iff.rfl

theorem keptUntil_set_self {k : K} {v : V} {seconds instant : Nat} :
    (s.set k v seconds).KeptUntil k instant ↔ instant ≤ s.now + 1000 * seconds := by
  simp [KeptUntil, set]

theorem keptUntil_set_other {j k : K} (h : j ≠ k) {v : V} {seconds instant : Nat} :
    (s.set k v seconds).KeptUntil j instant ↔ s.KeptUntil j instant := by
  simp [KeptUntil, set, h]

end Store

/-- What programs ask of the clock and the store. -/
inductive Command (K V : Type)
  | time
  | set (key : K) (value : V) (seconds : Nat)
  | existsKey (key : K)
  | del (key : K)

/-- `EXISTS` and `DEL` answer with a number of keys. -/
def Command.Answer {K V : Type} : Command K V → Type
  | time => Nat
  | set .. => Unit
  | existsKey _ => Nat
  | del _ => Nat

/-- A command that changes no key. -/
def Command.Reads {K V : Type} : Command K V → Prop
  | time => True
  | existsKey _ => True
  | _ => False

/-- A program over the clock and the store. -/
abbrev StoreProgram (K V ε : Type) := Interleaved.Program (Command K V) Command.Answer ε

section Commands
variable {K V ε : Type}
open Interleaved.Program

abbrev time : StoreProgram K V ε Nat :=
  ask Command.time

abbrev set (key : K) (value : V) (seconds : Nat) : StoreProgram K V ε Unit :=
  ask (Command.set key value seconds)

abbrev existsKey (key : K) : StoreProgram K V ε Nat :=
  ask (Command.existsKey key)

abbrev del (key : K) : StoreProgram K V ε Nat :=
  ask (Command.del key)

end Commands

/-- The time that passes before a command, and whether a value past its deadline is still
there. -/
structure Outside where
  elapsed : Nat := 0
  lingers : Bool := false

variable {K V : Type} [DecidableEq K]

/-- A command at the instant of the store. -/
def perform (lingers : Bool) : (op : Command K V) → Store K V → op.Answer × Store K V
  | .time, s => (s.now, s)
  | .set key value seconds, s => ((), s.set key value seconds)
  | .existsKey key, s => (s.count lingers key, s)
  | .del key, s => (s.count lingers key, s.del key)

def answer (x : Outside) (op : Command K V) (s : Store K V) : op.Answer × Store K V :=
  perform x.lingers op (s.advance x.elapsed)

/-- A key is kept at least from the time before it is set. -/
theorem keptUntil_answer_set (x : Outside) {k : K} {v : V} {seconds instant : Nat} {s : Store K V}
    (h : instant ≤ s.now + 1000 * seconds) :
    (answer x (.set k v seconds) s).2.KeptUntil k instant := by
  apply Store.keptUntil_set_self.mpr
  exact h.trans (Nat.add_le_add_right (Nat.le_add_right s.now x.elapsed) _)

/-- Time does not run backwards. -/
theorem now_le_answer (x : Outside) (op : Command K V) (s : Store K V) :
    s.now ≤ (answer x op s).2.now := by
  cases op with
  | time | set | existsKey | del => exact Nat.le_add_right _ _

end KeyStore
