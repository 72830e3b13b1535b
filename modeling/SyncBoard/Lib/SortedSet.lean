import SyncBoard.Lib.Table

/-!
# Sorted sets that expire

A key holds a set of members with a score each, and may have a time to live in whole
seconds. A key without members is no key, so it has no time to live either. Once its time
is over the key may be gone, and the environment decides (`lingers`).

Commands answer with a number. A pipeline runs its commands in one go, at one instant, and
answers with the list of their answers.
-/

open Relational

structure SortedSet (M S : Type) where
  scores : Table M S := Table.empty
  expiresAt : Option Nat := none

namespace SortedSet

section Keys
variable {M S : Type} (z : SortedSet M S)

/-- What a command finds under the key. -/
def seen (now : Nat) (lingers : Bool) : SortedSet M S :=
  if (∀ deadline ∈ z.expiresAt, now < deadline) ∨ lingers = true then z else {}

def zcard : Nat :=
  z.scores.rows.length

/-- A set that has lost its last member is gone, with its deadline. -/
def keep (left : Table M S) : SortedSet M S :=
  if left.rows = [] then {} else { z with scores := left }

/-- Set the deadline of a key that there is. -/
def expire (now seconds : Nat) : SortedSet M S :=
  if z.scores.rows = [] then z else { z with expiresAt := some (now + 1000 * seconds) }

variable {z}

theorem seen_of_lt {now : Nat} (h : ∀ deadline ∈ z.expiresAt, now < deadline) (lingers : Bool) :
    z.seen now lingers = z :=
  if_pos (.inl h)

theorem rows_keep (left : Table M S) : (z.keep left).scores.rows = left.rows := by
  unfold keep
  split
  · next hempty => exact hempty.symm
  · rfl

end Keys

section Members
variable {M S : Type} [DecidableEq M]

/-- Remove the members with a score between two bounds, both included. -/
def zremrangebyscore [LE S] [DecidableLE S] (z : SortedSet M S) (min max : S) : SortedSet M S :=
  z.keep (z.scores.deleteWhere fun _ score => decide (min ≤ score ∧ score ≤ max))

/-- Add a member, or give it another score. -/
def zadd (z : SortedSet M S) (score : S) (member : M) : SortedSet M S :=
  match z.scores.insert? member score with
  | some scores => { z with scores := scores }
  | none => { z with scores := z.scores.modify member fun _ => score }

variable {z : SortedSet M S} {j member : M} {score r : S}

/-- Members with a score out of bounds stay. -/
theorem get?_zremrangebyscore [LE S] [DecidableLE S] {min max : S} :
    (z.zremrangebyscore min max).scores.get? j = some r ↔
      z.scores.get? j = some r ∧ ¬ (min ≤ r ∧ r ≤ max) := by
  rw [← Table.mem_rows_iff, zremrangebyscore, rows_keep, Table.mem_rows_iff,
    Table.get?_deleteWhere_eq_some, decide_eq_false_iff_not]

theorem get?_zadd :
    (z.zadd score member).scores.get? j = if j = member then some score else z.scores.get? j := by
  unfold zadd
  split
  · next scores hinsert => exact Table.get?_insert? hinsert j
  · next hinsert =>
      rw [Table.insert?_eq_none_iff, Option.ne_none_iff_exists'] at hinsert
      obtain ⟨old, hold⟩ := hinsert
      rw [Table.get?_modify]
      split
      · next heq => rw [heq, hold, Option.map_some]
      · rfl

theorem expire_of_mem (h : z.scores.get? j = some r) (now seconds : Nat) :
    z.expire now seconds = { z with expiresAt := some (now + 1000 * seconds) } := by
  apply if_neg
  intro hempty
  have hmem := (z.scores.mem_rows_iff j r).mpr h
  rw [hempty] at hmem
  cases hmem

/-- Distinct members are counted. -/
theorem length_le_zcard {members : List M} (hdistinct : members.Nodup)
    (h : ∀ member ∈ members, z.scores.contains member = true) : members.length ≤ z.zcard := by
  have hsubset : members ⊆ z.scores.rows.map Prod.fst := by
    intro member hmember
    obtain ⟨score, hscore⟩ := (z.scores.contains_iff member).mp (h member hmember)
    apply List.mem_map.mpr
    exact ⟨(member, score), (z.scores.mem_rows_iff member score).mpr hscore, rfl⟩
  calc members.length
      ≤ (z.scores.rows.map Prod.fst).length := hdistinct.length_le_of_subset hsubset
    _ = z.zcard := List.length_map _

end Members

inductive Command (M S : Type)
  | zremrangebyscore (min max : S)
  | zadd (score : S) (member : M)
  | zcard
  | expire (seconds : Nat)

variable {M S : Type} [DecidableEq M] [LE S] [DecidableLE S]

/-- The answer to a command, and the set that it leaves. -/
def perform (now : Nat) : Command M S → SortedSet M S → Nat × SortedSet M S
  | .zremrangebyscore min max, z =>
      (z.zcard - (z.zremrangebyscore min max).zcard, z.zremrangebyscore min max)
  | .zadd score member, z => (if z.scores.contains member then 0 else 1, z.zadd score member)
  | .zcard, z => (z.zcard, z)
  | .expire seconds, z => (if z.scores.rows = [] then 0 else 1, z.expire now seconds)

def pipeline (now : Nat) : List (Command M S) → SortedSet M S → List Nat × SortedSet M S
  | [], z => ([], z)
  | command :: commands, z =>
      let reply := perform now command z
      let rest := pipeline now commands reply.2
      (reply.1 :: rest.1, rest.2)

end SortedSet
