import Mathlib.Algebra.GroupWithZero.Nat
import Mathlib.Data.List.Basic
import Mathlib.Data.List.Nodup

/-!
# Tables with a primary key

A table is a list of keyed rows whose keys are pairwise distinct; the
distinctness is a field, so that every row is reached through its key. Reads
go through `get?` (by key) and `find?` (by a condition). The writes are
`insert?`, which refuses a key in use, `delete`, and `mapRows`, of which the
update of one row and the update of all rows that satisfy a condition are cases.
`All` is a constraint on every row and `Unique` one on every two; each write has
the rule that keeps it.
-/

namespace Relational

/-- The first row of a result set ordered downwards: an element that no other
one exceeds, the later one of equals. -/
def greatest? {α : Type*} (le : α → α → Bool) : List α → Option α
  | [] => none
  | a :: l =>
      match greatest? le l with
      | none => some a
      | some b => if le a b then some b else some a

section Greatest
variable {α : Type*} {le : α → α → Bool} {l : List α} {a : α}

theorem greatest?_eq_none (h : greatest? le l = none) : l = [] := by
  cases l with
  | nil => rfl
  | cons b l =>
      rw [greatest?] at h
      split at h
      · cases h
      · split at h <;> cases h

/-- The greatest element is an element, and no other one exceeds it. -/
theorem greatest?_eq_some (htotal : ∀ a b, le a b = true ∨ le b a = true)
    (htrans : ∀ a b c, le a b = true → le b c = true → le a c = true)
    (h : greatest? le l = some a) : a ∈ l ∧ ∀ b ∈ l, le b a = true := by
  induction l generalizing a with
  | nil => cases h
  | cons c l ih =>
      rw [greatest?] at h
      split at h
      · next hnone =>
          obtain rfl := Option.some.inj h
          obtain rfl := greatest?_eq_none hnone
          simpa using htotal c c
      · next b hb =>
          obtain ⟨hmem, hle⟩ := ih hb
          split at h
          · next hcb =>
              obtain rfl := Option.some.inj h
              exact ⟨List.mem_cons_of_mem c hmem, List.forall_mem_cons.mpr ⟨hcb, hle⟩⟩
          · next hcb =>
              obtain rfl := Option.some.inj h
              have hbc : le b c = true := (htotal c b).resolve_left hcb
              refine ⟨List.mem_cons_self, List.forall_mem_cons.mpr ⟨?_, fun d hd => ?_⟩⟩
              · simpa using htotal c c
              · exact htrans d b c (hle d hd) hbc

end Greatest

/-- Rows of type `ρ` under pairwise distinct keys of type `κ`. -/
@[ext]
structure Table (κ ρ : Type*) where
  rows : List (κ × ρ)
  nodup : (rows.map Prod.fst).Nodup

namespace Table

variable {κ ρ : Type*}

def empty : Table κ ρ := ⟨[], List.nodup_nil⟩

def single (k : κ) (r : ρ) : Table κ ρ := ⟨[(k, r)], List.nodup_singleton k⟩

/-- Rewrite every row, keeping its key. -/
def mapRows (t : Table κ ρ) (f : κ → ρ → ρ) : Table κ ρ where
  rows := t.rows.map fun p => (p.1, f p.1 p.2)
  nodup := by
    rw [List.map_map]
    exact t.nodup

/-- The first row that satisfies a condition, with its key. -/
def find? (t : Table κ ρ) (p : κ → ρ → Bool) : Option (κ × ρ) :=
  t.rows.find? fun q => p q.1 q.2

section Keys
variable [DecidableEq κ]

/-- The row stored under a key. -/
def get? (t : Table κ ρ) (k : κ) : Option ρ :=
  (t.find? fun j _ => decide (j = k)).map Prod.snd

theorem mem_rows_iff (t : Table κ ρ) (k : κ) (r : ρ) :
    (k, r) ∈ t.rows ↔ t.get? k = some r := by
  constructor
  · intro hmem
    cases hf : t.find? (fun j _ => decide (j = k)) with
    | none =>
        have hn := List.find?_eq_none.mp hf (k, r) hmem
        simp at hn
    | some q =>
        have hq : q ∈ t.rows := List.mem_of_find?_eq_some hf
        have hk : q.1 = k := by simpa using List.find?_some hf
        have hqr : q = (k, r) := List.inj_on_of_nodup_map t.nodup hq hmem hk
        simp [get?, hf, hqr]
  · intro hget
    obtain ⟨q, hf, rfl⟩ := Option.map_eq_some_iff.mp hget
    have hk : q.1 = k := by simpa using List.find?_some hf
    exact hk ▸ List.mem_of_find?_eq_some hf

theorem get?_eq_none_iff (t : Table κ ρ) (k : κ) :
    t.get? k = none ↔ k ∉ t.rows.map Prod.fst := by
  rw [Option.eq_none_iff_forall_ne_some]
  constructor
  · intro h hk
    obtain ⟨q, hq, rfl⟩ := List.mem_map.mp hk
    exact h q.2 ((t.mem_rows_iff q.1 q.2).mp hq)
  · intro h r hr
    exact h (List.mem_map.mpr ⟨(k, r), (t.mem_rows_iff k r).mpr hr, rfl⟩)

/-- Two tables with the same rows under the same keys agree on every read. -/
theorem get?_eq_of_mem_iff {t u : Table κ ρ} {k : κ}
    (h : ∀ r, (k, r) ∈ t.rows ↔ (k, r) ∈ u.rows) : t.get? k = u.get? k := by
  apply Option.ext
  intro r
  rw [← mem_rows_iff, ← mem_rows_iff]
  exact h r

@[simp] theorem get?_empty (k : κ) : (empty : Table κ ρ).get? k = none := rfl

/-- A row found by a condition is the row under its key. -/
theorem find?_eq_some {t : Table κ ρ} {p : κ → ρ → Bool} {k : κ} {r : ρ}
    (h : t.find? p = some (k, r)) : t.get? k = some r ∧ p k r = true := by
  constructor
  · exact (t.mem_rows_iff k r).mp (List.mem_of_find?_eq_some h)
  · simpa using List.find?_some h

theorem find?_eq_none {t : Table κ ρ} {p : κ → ρ → Bool} (h : t.find? p = none)
    {k : κ} {r : ρ} (hr : t.get? k = some r) : p k r = false := by
  have hn := List.find?_eq_none.mp h (k, r) ((t.mem_rows_iff k r).mpr hr)
  simpa using hn

@[simp] theorem get?_mapRows (t : Table κ ρ) (f : κ → ρ → ρ) (k : κ) :
    (t.mapRows f).get? k = (t.get? k).map (f k) := by
  apply Option.ext
  intro r
  rw [← mem_rows_iff, Option.map_eq_some_iff]
  constructor
  · intro h
    obtain ⟨⟨j, q⟩, hq, heq⟩ := List.mem_map.mp h
    obtain ⟨rfl, rfl⟩ := Prod.mk.inj heq
    exact ⟨q, (t.mem_rows_iff _ _).mp hq, rfl⟩
  · rintro ⟨q, hq, rfl⟩
    exact List.mem_map.mpr ⟨(k, q), (t.mem_rows_iff k q).mpr hq, rfl⟩

/-- Whether a key is in use. -/
def contains (t : Table κ ρ) (k : κ) : Bool :=
  (t.get? k).isSome

theorem contains_iff (t : Table κ ρ) (k : κ) :
    t.contains k = true ↔ ∃ r, t.get? k = some r :=
  Option.isSome_iff_exists

/-- Insert a row under a key that is not in use. -/
def insert (t : Table κ ρ) (k : κ) (r : ρ) (h : t.get? k = none) : Table κ ρ :=
  ⟨(k, r) :: t.rows, List.nodup_cons.mpr ⟨(t.get?_eq_none_iff k).mp h, t.nodup⟩⟩

theorem get?_insert (t : Table κ ρ) (k j : κ) (r : ρ) (h : t.get? k = none) :
    (t.insert k r h).get? j = if j = k then some r else t.get? j := by
  by_cases hj : j = k
  · subst hj
    rw [if_pos rfl, ← mem_rows_iff]
    exact List.mem_cons_self
  · rw [if_neg hj]
    apply get?_eq_of_mem_iff
    intro q
    simp [insert, hj]

/-- Insert a row; a key in use is refused. -/
def insert? (t : Table κ ρ) (k : κ) (r : ρ) : Option (Table κ ρ) :=
  if h : t.get? k = none then some (t.insert k r h) else none

theorem insert?_eq_none_iff (t : Table κ ρ) (k : κ) (r : ρ) :
    t.insert? k r = none ↔ t.get? k ≠ none := by
  simp [insert?]

theorem insert?_of_fresh {t : Table κ ρ} {k : κ} (h : t.get? k = none) (r : ρ) :
    ∃ u, t.insert? k r = some u := by
  cases hi : t.insert? k r with
  | none => exact absurd h ((t.insert?_eq_none_iff k r).mp hi)
  | some u => exact ⟨u, rfl⟩

theorem insert?_fresh {t u : Table κ ρ} {k : κ} {r : ρ} (h : t.insert? k r = some u) :
    t.get? k = none := by
  by_contra hk
  rw [(t.insert?_eq_none_iff k r).mpr hk] at h
  cases h

theorem insert?_eq_some {t u : Table κ ρ} {k : κ} {r : ρ} (h : t.insert? k r = some u) :
    ∃ hk, u = t.insert k r hk := by
  have hfresh := insert?_fresh h
  simp only [insert?, dif_pos hfresh, Option.some.injEq] at h
  exact ⟨hfresh, h.symm⟩

theorem get?_insert? {t u : Table κ ρ} {k : κ} {r : ρ} (h : t.insert? k r = some u)
    (j : κ) : u.get? j = if j = k then some r else t.get? j := by
  obtain ⟨hfresh, rfl⟩ := insert?_eq_some h
  exact get?_insert t k j r hfresh

/-- Rewrite the row under one key, if there is one. -/
def modify (t : Table κ ρ) (k : κ) (f : ρ → ρ) : Table κ ρ :=
  t.mapRows fun j r => if j = k then f r else r

theorem get?_modify (t : Table κ ρ) (k j : κ) (f : ρ → ρ) :
    (t.modify k f).get? j = if j = k then (t.get? j).map f else t.get? j := by
  rw [modify, get?_mapRows]
  by_cases hj : j = k <;> simp [hj]

@[simp] theorem get?_modify_self (t : Table κ ρ) (k : κ) (f : ρ → ρ) :
    (t.modify k f).get? k = (t.get? k).map f := by
  simp [get?_modify]

/-- Remove the row under a key, if there is one. -/
def delete (t : Table κ ρ) (k : κ) : Table κ ρ where
  rows := t.rows.filter fun p => decide (p.1 ≠ k)
  nodup := t.nodup.sublist (List.filter_sublist.map Prod.fst)

theorem get?_delete (t : Table κ ρ) (k j : κ) :
    (t.delete k).get? j = if j = k then none else t.get? j := by
  by_cases hj : j = k
  · rw [if_pos hj, get?_eq_none_iff]
    simp [delete, hj]
  · rw [if_neg hj]
    apply get?_eq_of_mem_iff
    intro r
    simp [delete, hj]

/-- Remove the rows that satisfy a condition. -/
def deleteWhere (t : Table κ ρ) (p : κ → ρ → Bool) : Table κ ρ where
  rows := t.rows.filter fun q => !p q.1 q.2
  nodup := t.nodup.sublist (List.filter_sublist.map Prod.fst)

theorem get?_deleteWhere_eq_some {t : Table κ ρ} {p : κ → ρ → Bool} {k : κ} {r : ρ} :
    (t.deleteWhere p).get? k = some r ↔ t.get? k = some r ∧ p k r = false := by
  rw [← mem_rows_iff, deleteWhere, List.mem_filter, mem_rows_iff, Bool.not_eq_true']

/-- Every row satisfies a constraint. -/
def All (t : Table κ ρ) (p : κ → ρ → Prop) : Prop :=
  ∀ k r, t.get? k = some r → p k r

namespace All
variable {t : Table κ ρ} {p q : κ → ρ → Prop}

theorem of_rows (h : ∀ q ∈ t.rows, p q.1 q.2) : t.All p :=
  fun k r hr => h (k, r) ((t.mem_rows_iff k r).mpr hr)

theorem imp (h : t.All p) (hpq : ∀ k r, p k r → q k r) : t.All q :=
  fun k r hr => hpq k r (h k r hr)

theorem insert (h : t.All p) {k : κ} {r : ρ} (hk : t.get? k = none) (hr : p k r) :
    (t.insert k r hk).All p := by
  intro j q hq
  rw [get?_insert] at hq
  split at hq
  · next hj =>
      cases hq
      exact hj ▸ hr
  · exact h j q hq

theorem modify (h : t.All p) {k : κ} {f : ρ → ρ}
    (hf : ∀ r, t.get? k = some r → p k (f r)) : (t.modify k f).All p := by
  intro j q hq
  rw [get?_modify] at hq
  split at hq
  · next hj =>
      subst hj
      obtain ⟨r, hr, rfl⟩ := Option.map_eq_some_iff.mp hq
      exact hf r hr
  · exact h j q hq

theorem delete (h : t.All p) (k : κ) : (t.delete k).All p := by
  intro j q hq
  rw [get?_delete] at hq
  split at hq
  · cases hq
  · exact h j q hq

end All

theorem all_iff_rows {t : Table κ ρ} {p : κ → ρ → Prop} :
    t.All p ↔ ∀ q ∈ t.rows, p q.1 q.2 := by
  constructor
  · intro h q hq
    exact h q.1 q.2 ((t.mem_rows_iff q.1 q.2).mp hq)
  · exact All.of_rows

instance (t : Table κ ρ) (p : κ → ρ → Prop) [∀ k r, Decidable (p k r)] : Decidable (t.All p) :=
  decidable_of_iff _ all_iff_rows.symm

/-- No two rows agree on a column, or on a group of columns. -/
def Unique {β : Type*} (t : Table κ ρ) (f : ρ → β) : Prop :=
  ∀ j k q r, t.get? j = some q → t.get? k = some r → f q = f r → j = k

namespace Unique
variable {β : Type*} {t : Table κ ρ} {f : ρ → β}

theorem empty (f : ρ → β) : (empty : Table κ ρ).Unique f := by
  intro j k q r hq
  cases hq

theorem of_rows (h : (t.rows.map fun p => f p.2).Nodup) : t.Unique f := by
  intro j k q r hq hr hf
  have heq : (j, q) = (k, r) := List.inj_on_of_nodup_map h ((t.mem_rows_iff j q).mpr hq)
    ((t.mem_rows_iff k r).mpr hr) hf
  exact congrArg Prod.fst heq

theorem insert (h : t.Unique f) {k : κ} {r : ρ} (hk : t.get? k = none)
    (hr : t.All fun _ q => f q ≠ f r) : (t.insert k r hk).Unique f := by
  intro i j p q hp hq hf
  rw [get?_insert] at hp hq
  split at hp <;> split at hq
  · next hi hj =>
      exact hi.trans hj.symm
  · cases hp
    exact absurd hf.symm (hr j q hq)
  · cases hq
    exact absurd hf (hr i p hp)
  · exact h i j p q hp hq hf

theorem mapRows (h : t.Unique f) {g : κ → ρ → ρ} (hg : ∀ k r, f (g k r) = f r) :
    (t.mapRows g).Unique f := by
  intro i j p q hp hq hf
  rw [get?_mapRows] at hp hq
  obtain ⟨p', hp', rfl⟩ := Option.map_eq_some_iff.mp hp
  obtain ⟨q', hq', rfl⟩ := Option.map_eq_some_iff.mp hq
  rw [hg, hg] at hf
  exact h i j p' q' hp' hq' hf

theorem modify (h : t.Unique f) {k : κ} {g : ρ → ρ} (hg : ∀ r, f (g r) = f r) :
    (t.modify k g).Unique f := by
  apply h.mapRows
  intro j r
  split
  · exact hg r
  · rfl

/-- One row gets a value that no other row has. -/
theorem modify_of_ne (h : t.Unique f) {k : κ} {g : ρ → ρ}
    (hg : ∀ r, t.get? k = some r → t.All fun j q => j ≠ k → f q ≠ f (g r)) :
    (t.modify k g).Unique f := by
  intro i j p q hp hq hf
  rw [get?_modify] at hp hq
  split at hp <;> split at hq
  · next hi hj =>
      exact hi.trans hj.symm
  · next hi hj =>
      obtain ⟨r, hr, rfl⟩ := Option.map_eq_some_iff.mp hp
      exact absurd hf.symm (hg r (hi ▸ hr) j q hq hj)
  · next hi hj =>
      obtain ⟨r, hr, rfl⟩ := Option.map_eq_some_iff.mp hq
      exact absurd hf (hg r (hj ▸ hr) i p hp hi)
  · exact h i j p q hp hq hf

theorem delete (h : t.Unique f) (k : κ) : (t.delete k).Unique f := by
  intro i j p q hp hq hf
  rw [get?_delete] at hp hq
  split at hp
  · cases hp
  · split at hq
    · cases hq
    · exact h i j p q hp hq hf

/-- A read by a unique column finds the one row with that value. -/
theorem find?_eq_some_iff [DecidableEq β] (h : t.Unique f) {x : β} {k : κ} {r : ρ} :
    t.find? (fun _ q => decide (f q = x)) = some (k, r) ↔ t.get? k = some r ∧ f r = x := by
  constructor
  · intro hfind
    simpa using find?_eq_some hfind
  · rintro ⟨hr, hx⟩
    cases hfind : t.find? (fun _ q => decide (f q = x)) with
    | none => simpa [hx] using find?_eq_none hfind hr
    | some found =>
        obtain ⟨j, q⟩ := found
        obtain ⟨hq, hqx⟩ := find?_eq_some hfind
        have hjk : j = k := h j k q r hq hr (by simpa [hx] using hqx)
        subst hjk
        rw [Option.some.inj (hq.symm.trans hr)]

end Unique

/-- The rows that satisfy a condition. -/
def select (t : Table κ ρ) (p : κ → ρ → Bool) : List (κ × ρ) :=
  t.rows.filter fun q => p q.1 q.2

theorem mem_select {t : Table κ ρ} {p : κ → ρ → Bool} {k : κ} {r : ρ} :
    (k, r) ∈ t.select p ↔ t.get? k = some r ∧ p k r = true := by
  rw [select, List.mem_filter, mem_rows_iff]

/-- One of the rows that satisfy a condition, where there is one; a query without
an order returns any of them, and `pick` says which. -/
def findFirst (t : Table κ ρ) (p : κ → ρ → Bool) (pick : Nat) : Option (κ × ρ) :=
  (t.select p)[pick % (t.select p).length]?

theorem findFirst_eq_some {t : Table κ ρ} {p : κ → ρ → Bool} {pick : Nat} {k : κ} {r : ρ}
    (h : t.findFirst p pick = some (k, r)) : t.get? k = some r ∧ p k r = true :=
  mem_select.mp (List.mem_of_getElem? h)

theorem findFirst_eq_none {t : Table κ ρ} {p : κ → ρ → Bool} {pick : Nat}
    (h : t.findFirst p pick = none) {k : κ} {r : ρ} (hr : t.get? k = some r) :
    p k r = false := by
  by_contra hp
  have hmem : (k, r) ∈ t.select p := mem_select.mpr ⟨hr, by simpa using hp⟩
  have hlt : pick % (t.select p).length < (t.select p).length :=
    Nat.mod_lt _ (List.length_pos_of_mem hmem)
  rw [findFirst, List.getElem?_eq_getElem hlt] at h
  cases h

/-- How many rows satisfy a condition. -/
def count (t : Table κ ρ) (p : κ → ρ → Bool) : Nat :=
  (t.select p).length

/-- Besides a row that satisfies a condition there is another one exactly when
more than one is counted. -/
theorem one_lt_count_iff {t : Table κ ρ} {p : κ → ρ → Bool} {k : κ} {r : ρ}
    (hr : t.get? k = some r) (hp : p k r = true) :
    1 < t.count p ↔ ∃ j q, j ≠ k ∧ t.get? j = some q ∧ p j q = true := by
  have hmem : (k, r) ∈ t.select p := mem_select.mpr ⟨hr, hp⟩
  have hkeys : ((t.select p).map Prod.fst).Nodup :=
    t.nodup.sublist (List.filter_sublist.map Prod.fst)
  obtain ⟨before, after, hsplit⟩ := List.append_of_mem hmem
  have hcount : t.count p = (before ++ after).length + 1 := by
    rw [count, hsplit]
    simp only [List.length_append, List.length_cons]
    omega
  have hsep : ∀ q ∈ before ++ after, q.1 ≠ k := by
    rw [hsplit, List.map_append, List.map_cons, List.nodup_append_comm, List.cons_append,
      List.nodup_cons, ← List.map_append, List.mem_map] at hkeys
    intro q hq hk
    exact hkeys.1 ⟨q, by simpa [or_comm] using hq, hk⟩
  have hothers : ∀ q, q ∈ before ++ after ↔ q ∈ t.select p ∧ q.1 ≠ k := by
    intro q
    constructor
    · intro hq
      refine ⟨?_, hsep q hq⟩
      rw [hsplit, List.mem_append, List.mem_cons]
      rcases List.mem_append.mp hq with hq | hq
      · exact .inl hq
      · exact .inr (.inr hq)
    · rintro ⟨hq, hk⟩
      rw [hsplit, List.mem_append, List.mem_cons] at hq
      rw [List.mem_append]
      rcases hq with hq | rfl | hq
      · exact .inl hq
      · exact absurd rfl hk
      · exact .inr hq
  rw [hcount]
  constructor
  · intro hlt
    obtain ⟨q, hq⟩ := List.exists_mem_of_length_pos (show 0 < (before ++ after).length by omega)
    obtain ⟨hsel, hk⟩ := (hothers q).mp hq
    exact ⟨q.1, q.2, hk, mem_select.mp hsel⟩
  · rintro ⟨j, q, hj, hq, hpq⟩
    have hpos := List.length_pos_of_mem ((hothers (j, q)).mpr ⟨mem_select.mpr ⟨hq, hpq⟩, hj⟩)
    omega

section Counts
variable {t u : Table κ ρ} {k : κ} {r : ρ} {p : κ → ρ → Bool}

omit [DecidableEq κ] in
theorem count_eq_countP (t : Table κ ρ) (p : κ → ρ → Bool) :
    t.count p = t.rows.countP fun q => p q.1 q.2 :=
  List.countP_eq_length_filter.symm

theorem count_insert? (h : t.insert? k r = some u) (p : κ → ρ → Bool) :
    u.count p = t.count p + if p k r then 1 else 0 := by
  have hfresh := insert?_fresh h
  simp only [insert?, dif_pos hfresh, Option.some.injEq] at h
  subst h
  rw [count_eq_countP, count_eq_countP]
  exact List.countP_cons

omit [DecidableEq κ] in
/-- A rewrite that decides the condition as before. -/
theorem count_mapRows {f : κ → ρ → ρ} {p' : κ → ρ → Bool} (h : ∀ k r, p k (f k r) = p' k r) :
    (t.mapRows f).count p = t.count p' := by
  rw [count_eq_countP, count_eq_countP, mapRows, List.countP_map]
  apply List.countP_congr
  intro q _
  simp only [Function.comp_apply, h]

omit [DecidableEq κ] in
/-- Rows that the condition leaves out may go. -/
theorem count_deleteWhere {p' : κ → ρ → Bool} (h : ∀ k r, p' k r = true → p k r = false) :
    (t.deleteWhere p').count p = t.count p := by
  rw [count_eq_countP, count_eq_countP, deleteWhere, List.countP_filter]
  apply List.countP_congr
  intro q _
  cases hp : p q.1 q.2 with
  | false => simp
  | true =>
      have hkept : p' q.1 q.2 = false := by
        by_contra hgone
        rw [h _ _ (by simpa using hgone)] at hp
        cases hp
      simp [hkept]

/-- One row is rewritten so that the condition no longer holds of it. -/
theorem count_modify (hr : t.get? k = some r) (hp : p k r = true) {f : ρ → ρ}
    (hf : p k (f r) = false) : (t.modify k f).count p + 1 = t.count p := by
  have hmem : (k, r) ∈ t.rows := (t.mem_rows_iff k r).mpr hr
  have hrows : ∀ l : List (κ × ρ), (l.map Prod.fst).Nodup → (k, r) ∈ l →
      ((l.map fun q => (q.1, if q.1 = k then f q.2 else q.2)).countP fun q => p q.1 q.2) + 1 =
        l.countP fun q => p q.1 q.2 := by
    intro l hnodup hkr
    induction l with
    | nil => cases hkr
    | cons q l ih =>
        obtain ⟨hfresh, hrest⟩ := List.nodup_cons.mp hnodup
        rw [List.map_cons, List.countP_cons, List.countP_cons]
        rcases List.mem_cons.mp hkr with rfl | hkr
        · have hothers : (l.map fun q => (q.1, if q.1 = k then f q.2 else q.2)) = l := by
            refine (List.map_congr_left fun q hq => ?_).trans (List.map_id l)
            have hne : q.1 ≠ k := by
              rintro rfl
              exact hfresh (List.mem_map.mpr ⟨q, hq, rfl⟩)
            simp [hne]
          simp [hothers, hp, hf]
        · have hne : q.1 ≠ k := by
            rintro rfl
            exact hfresh (List.mem_map.mpr ⟨_, hkr, rfl⟩)
          have hcount := ih hrest hkr
          simp only [hne, if_false]
          omega
  rw [count_eq_countP, count_eq_countP]
  exact hrows t.rows t.nodup hmem

/-- A count of other rows than those under the key. -/
theorem count_modify_other {f : ρ → ρ} (h : ∀ r, t.get? k = some r → p k (f r) = p k r) :
    (t.modify k f).count p = t.count p := by
  rw [count_eq_countP, count_eq_countP, modify, mapRows, List.countP_map]
  apply List.countP_congr
  rintro ⟨j, q⟩ hq
  by_cases hj : j = k
  · subst hj
    simp [h q ((t.mem_rows_iff j q).mp hq)]
  · simp [hj]

end Counts

/-- What the rows contribute to a list, where only the row under one key contributes. -/
theorem filterMap_rows {β : Type*} {t : Table κ ρ} {f : κ × ρ → Option β} {k : κ} {r : ρ}
    (hr : t.get? k = some r) (hothers : ∀ j q, j ≠ k → t.get? j = some q → f (j, q) = none) :
    t.rows.filterMap f = (f (k, r)).toList := by
  have hrows : ∀ l : List (κ × ρ), (l.map Prod.fst).Nodup → (k, r) ∈ l →
      (∀ q ∈ l, q.1 ≠ k → f q = none) → l.filterMap f = (f (k, r)).toList := by
    intro l hnodup hkr hl
    induction l with
    | nil => cases hkr
    | cons q l ih =>
        obtain ⟨hfresh, hrest⟩ := List.nodup_cons.mp hnodup
        rw [List.filterMap_cons]
        rcases List.mem_cons.mp hkr with rfl | hkr
        · have hnone : l.filterMap f = [] := by
            apply List.filterMap_eq_nil_iff.mpr
            intro q hq
            apply hl q (List.mem_cons_of_mem _ hq)
            rintro rfl
            exact hfresh (List.mem_map.mpr ⟨q, hq, rfl⟩)
          rw [hnone]
          cases f (k, r) <;> rfl
        · have hne : q.1 ≠ k := by
            rintro rfl
            exact hfresh (List.mem_map.mpr ⟨_, hkr, rfl⟩)
          rw [hl q List.mem_cons_self hne]
          exact ih hrest hkr fun p hp => hl p (List.mem_cons_of_mem q hp)
  apply hrows t.rows t.nodup ((t.mem_rows_iff k r).mpr hr)
  rintro ⟨j, q⟩ hq hj
  exact hothers j q hj ((t.mem_rows_iff j q).mp hq)

theorem filterMap_rows_eq_nil {β : Type*} {t : Table κ ρ} {f : κ × ρ → Option β}
    (h : ∀ j q, t.get? j = some q → f (j, q) = none) : t.rows.filterMap f = [] := by
  apply List.filterMap_eq_nil_iff.mpr
  rintro ⟨j, q⟩ hq
  exact h j q ((t.mem_rows_iff j q).mp hq)

theorem mem_filter_rows_iff {t : Table κ ρ} {p : κ × ρ → Bool} {q : κ × ρ} :
    q ∈ t.rows.filter p ↔ t.get? q.1 = some q.2 ∧ p q = true := by
  rw [List.mem_filter]
  exact and_congr_left fun _ => t.mem_rows_iff q.1 q.2

omit [DecidableEq κ] in
/-- Where the order of the rows tells their keys apart, no two of them are at one place. -/
theorem nodup_map_filter_rows {β : Type*} {t : Table κ ρ} {f : κ × ρ → β}
    (hf : ∀ a b, f a = f b → a.1 = b.1) (p : κ × ρ → Bool) : ((t.rows.filter p).map f).Nodup := by
  have hrows : (t.rows.map f).Nodup := by
    apply List.pairwise_map.mpr
    exact (List.pairwise_map.mp t.nodup).imp fun hne heq => hne (hf _ _ heq)
  exact hrows.sublist (List.filter_sublist.map f)

/-- Among the rows that satisfy a condition, one is under a given key. -/
theorem filter_rows_key {t : Table κ ρ} {p : κ × ρ → Bool} {k : κ} {r : ρ}
    (hr : t.get? k = some r) (hp : p (k, r) = true) :
    (t.rows.filter p).filter (fun q => q.1 == k) = [(k, r)] := by
  have hothers : ∀ j q, j ≠ k → t.get? j = some q →
      Option.guard (fun q : κ × ρ => q.1 == k && p q) (j, q) = none := by
    intro j q hj _
    apply Option.guard_eq_none_iff.mpr
    simp [hj]
  rw [List.filter_filter, ← List.filterMap_eq_filter, filterMap_rows hr hothers]
  simp [hp]

/-- The sum of a column over the rows that satisfy a condition. -/
def total (t : Table κ ρ) (p : κ → ρ → Bool) (f : ρ → Nat) : Nat :=
  ((t.select p).map fun q => f q.2).sum

section Totals
variable {t : Table κ ρ} {p : κ → ρ → Bool} {f : ρ → Nat}

theorem total_insert {k : κ} (h : t.get? k = none) (r : ρ) :
    (t.insert k r h).total p f = t.total p f + if p k r then f r else 0 := by
  simp only [total, select, insert, List.filter_cons]
  cases p k r with
  | false => simp
  | true => simp [Nat.add_comm]

theorem total_eq_zero (h : t.All fun k r => p k r = false) : t.total p f = 0 := by
  have hnone : t.select p = [] := by
    apply List.filter_eq_nil_iff.mpr
    rintro ⟨k, r⟩ hq
    simp [h k r ((t.mem_rows_iff k r).mp hq)]
  rw [total, hnone]
  rfl

end Totals

/-- The one table is the other with a row written under a key. -/
def Wrote (t u : Table κ ρ) (k : κ) (r : ρ) : Prop :=
  ∀ j, u.get? j = if j = k then some r else t.get? j

theorem wrote_insert (t : Table κ ρ) {k : κ} {r : ρ} (h : t.get? k = none) :
    t.Wrote (t.insert k r h) k r :=
  fun j => t.get?_insert k j r h

theorem wrote_modify {t : Table κ ρ} {k : κ} {q : ρ} (h : t.get? k = some q) (r : ρ) :
    t.Wrote (t.modify k fun _ => r) k r := by
  intro j
  rw [get?_modify]
  split
  · next hj =>
      rw [hj, h, Option.map_some]
  · rfl

namespace Wrote
variable {t u : Table κ ρ} {k j : κ} {r q : ρ}

theorem self (h : t.Wrote u k r) : u.get? k = some r := by
  rw [h k, if_pos rfl]

theorem other (h : t.Wrote u k r) (hj : j ≠ k) : u.get? j = t.get? j := by
  rw [h j, if_neg hj]

/-- A row of the table after the write is the row written or an old one. -/
theorem eq_or_old (h : t.Wrote u k r) (hq : u.get? j = some q) :
    j = k ∧ q = r ∨ j ≠ k ∧ t.get? j = some q := by
  by_cases hj : j = k
  · subst hj
    exact .inl ⟨rfl, (Option.some.inj (h.self.symm.trans hq)).symm⟩
  · exact .inr ⟨hj, (h.other hj).symm.trans hq⟩

/-- What the write keeps of the row it replaces, every row keeps. -/
theorem keeps {P : ρ → Prop} (h : t.Wrote u k r) (hr : ∀ q, t.get? k = some q → P q → P r)
    (hj : ∃ q, t.get? j = some q ∧ P q) : ∃ q, u.get? j = some q ∧ P q := by
  obtain ⟨q, hq, hP⟩ := hj
  by_cases heq : j = k
  · subst heq
    exact ⟨r, h.self, hr q hq hP⟩
  · exact ⟨q, (h.other heq).trans hq, hP⟩

end Wrote

/-- No two of the rows that have a value in the index agree on it. -/
def UniqueWhere {β : Type*} (t : Table κ ρ) (f : ρ → Option β) : Prop :=
  ∀ j k q r x, t.get? j = some q → t.get? k = some r → f q = some x → f r = some x → j = k

instance {β : Type*} [DecidableEq β] (t : Table κ ρ) (f : ρ → Option β) :
    Decidable (t.UniqueWhere f) :=
  decidable_of_iff (∀ a ∈ t.rows, ∀ b ∈ t.rows, (f a.2).isSome → f a.2 = f b.2 → a.1 = b.1) <| by
    constructor
    · intro h j k q r x hq hr hfq hfr
      exact h (j, q) ((t.mem_rows_iff j q).mpr hq) (k, r) ((t.mem_rows_iff k r).mpr hr)
        (Option.isSome_of_eq_some hfq) (hfq.trans hfr.symm)
    · intro h a ha b hb hsome heq
      obtain ⟨x, hx⟩ := Option.isSome_iff_exists.mp hsome
      exact h a.1 b.1 a.2 b.2 x ((t.mem_rows_iff _ _).mp ha) ((t.mem_rows_iff _ _).mp hb) hx
        (heq.symm.trans hx)

/-- A row under another key has the value. -/
def Taken {β : Type*} (t : Table κ ρ) (f : ρ → Option β) (k : κ) (x : β) : Prop :=
  ∃ j q, j ≠ k ∧ t.get? j = some q ∧ f q = some x

namespace UniqueWhere
variable {β : Type*} {t u : Table κ ρ} {f : ρ → Option β} {k : κ} {r : ρ}

/-- The value of a row is not taken. -/
theorem free (h : t.UniqueWhere f) (hk : t.get? k = some r) {x : β} (hx : f r = some x) :
    ¬ t.Taken f k x := by
  rintro ⟨j, q, hj, hq, hqx⟩
  exact hj (h j k q r x hq hk hqx hx)

/-- A write keeps the index exactly where the value of its row is not taken. -/
theorem wrote_iff (h : t.UniqueWhere f) (hw : t.Wrote u k r) :
    u.UniqueWhere f ↔ ∀ x, f r = some x → ¬ t.Taken f k x := by
  constructor
  · rintro hu x hx ⟨j, q, hj, hq, hqx⟩
    exact hj (hu j k q r x ((hw.other hj).trans hq) hw.self hqx hx)
  · intro hfree i j p q x hp hq hpx hqx
    rcases hw.eq_or_old hp with ⟨rfl, rfl⟩ | ⟨hi, hp⟩
    · rcases hw.eq_or_old hq with ⟨hj, -⟩ | ⟨hj, hq⟩
      · exact hj.symm
      · exact absurd ⟨j, q, hj, hq, hqx⟩ (hfree x hpx)
    · rcases hw.eq_or_old hq with ⟨rfl, rfl⟩ | ⟨-, hq⟩
      · exact absurd ⟨i, p, hi, hp, hpx⟩ (hfree x hqx)
      · exact h i j p q x hp hq hpx hqx

end UniqueWhere

section Last
variable {α : Type*} {t : Table κ ρ} {p : ρ → Bool} {g : ρ → α} {le : α → α → Bool} {r : ρ}

theorem mem_filter_rows : r ∈ (t.rows.map Prod.snd).filter p ↔
    (∃ k, t.get? k = some r) ∧ p r = true := by
  simp only [List.mem_filter, List.mem_map, Prod.exists, mem_rows_iff, exists_eq_right]

/-- The row that is greatest in a column, among those that satisfy a condition. -/
theorem greatest?_rows_eq_some (htotal : ∀ a b, le a b = true ∨ le b a = true)
    (htrans : ∀ a b c, le a b = true → le b c = true → le a c = true)
    (h : greatest? (fun a b => le (g a) (g b)) ((t.rows.map Prod.snd).filter p) = some r) :
    ((∃ k, t.get? k = some r) ∧ p r = true) ∧
      ∀ k q, t.get? k = some q → p q = true → le (g q) (g r) = true := by
  obtain ⟨hmem, hle⟩ := greatest?_eq_some (fun a b => htotal (g a) (g b))
    (fun a b c => htrans (g a) (g b) (g c)) h
  exact ⟨mem_filter_rows.mp hmem, fun k q hq hp => hle q (mem_filter_rows.mpr ⟨⟨k, hq⟩, hp⟩)⟩

theorem greatest?_rows_eq_none {le : ρ → ρ → Bool}
    (h : greatest? le ((t.rows.map Prod.snd).filter p) = none) {k : κ} (hk : t.get? k = some r) :
    p r = false := by
  have hempty := greatest?_eq_none h
  by_contra hp
  rw [Bool.not_eq_false] at hp
  have hmem := mem_filter_rows.mpr ⟨⟨k, hk⟩, hp⟩
  rw [hempty] at hmem
  cases hmem

end Last

/-- No key of the one table is missing in the other. -/
def Grows (t u : Table κ ρ) : Prop :=
  ∀ k, t.contains k = true → u.contains k = true

theorem grows_insert (t : Table κ ρ) {k : κ} {r : ρ} (h : t.get? k = none) :
    t.Grows (t.insert k r h) := by
  intro j hj
  rw [contains, get?_insert]
  split
  · rfl
  · exact hj

theorem grows_modify (t : Table κ ρ) (k : κ) (f : ρ → ρ) : t.Grows (t.modify k f) := by
  intro j hj
  rw [contains, get?_modify]
  split
  · rw [Option.isSome_map]
    exact hj
  · exact hj

theorem Wrote.grows {t u : Table κ ρ} {k : κ} {r : ρ} (h : t.Wrote u k r) : t.Grows u := by
  intro j hj
  rw [contains, h j]
  split
  · rfl
  · exact hj

end Keys

end Table

end Relational
