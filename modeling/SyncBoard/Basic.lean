import Mathlib.Algebra.Group.Nat.Defs

/-!
# Identifiers, times, strings and database errors

Row identifiers are version-4 UUIDs and times are millisecond clock values. The
database takes an identifier in either case and returns it in lower case; the
services compare identifiers, and build keys from them, as the strings that they
are. Where a string of a request comes to be compared or built into a key it is a
`UuidText`; elsewhere only the identifier that it stands for matters. A string is
the list of its UTF-16 code units.
-/

namespace SyncBoard

/-- A row identifier. -/
abbrev Uuid := Nat

/-- An identifier as a request spells it: any of its hexadecimal letters may be a capital. -/
structure UuidText where
  id : Uuid
  /-- Bit `i` is set where the digit `i`, from the right, is a capital. -/
  capitals : Nat
  letters : ∀ i, capitals.testBit i = true → 10 ≤ id / 16 ^ i % 16
  deriving DecidableEq, Repr

/-- An identifier as a row spells it. -/
def UuidText.canonical (id : Uuid) : UuidText :=
  ⟨id, 0, fun i h => by simp at h⟩

@[simp] theorem UuidText.canonical_id (id : Uuid) : (canonical id).id = id := rfl

/-- An identifier that ends in a letter, which is a capital. -/
def UuidText.lastCapital (id : Uuid) (h : 10 ≤ id % 16) : UuidText :=
  ⟨id, 1, fun i hi => by
    obtain rfl := Nat.testBit_one_eq_true_iff_self_eq_zero.mp hi
    simpa using h⟩

instance (id : Nat) : OfNat UuidText id :=
  ⟨.canonical id⟩

/-- Milliseconds since the epoch. -/
abbrev Timestamp := Nat

/-- The UTF-16 code units of a string. -/
abbrev JsString := List Nat

/-- Strings are looked up in lists throughout. -/
instance : LawfulBEq JsString :=
  inferInstance

/-- A literal of the source; all of them are ASCII. -/
def js (s : String) : JsString :=
  s.toList.map Char.toNat

/-- The number of characters of a string, by which a column is wide: two surrogates that
belong together are one. -/
def charCount : JsString → Nat
  | [] => 0
  | [_] => 1
  | high :: low :: s =>
      if 0xD800 ≤ high ∧ high < 0xDC00 ∧ 0xDC00 ≤ low ∧ low < 0xE000 then charCount s + 1
      else charCount (low :: s) + 1

/-- The errors of the database client: `P2002`, `P2003`, `P2000` and `P2025`. -/
inductive DbError
  | uniqueViolation
  | foreignKeyViolation
  | valueTooLong
  | recordNotFound
  deriving DecidableEq, Repr

end SyncBoard
