import Mathlib.Data.List.Nodup

/-!
# Maps as lists of entries

A map that iterates over its entries in the order in which their keys came in. A key that is
set again keeps its place. The keys of a list of entries built by `set` are distinct.
-/

namespace Entries

variable {κ ρ : Type*} [DecidableEq κ]

def set (k : κ) (v : ρ) : List (κ × ρ) → List (κ × ρ)
  | [] => [(k, v)]
  | (j, w) :: rest => if j = k then (k, v) :: rest else (j, w) :: set k v rest

variable {k j : κ} {v w : ρ} {m : List (κ × ρ)}

theorem mem_keys_set : j ∈ (set k v m).map Prod.fst ↔ j = k ∨ j ∈ m.map Prod.fst := by
  induction m with
  | nil => simp [set]
  | cons entry rest ih =>
      obtain ⟨i, u⟩ := entry
      rw [set]
      split
      next hi =>
        rw [hi]
        simp
      · rw [List.map_cons, List.mem_cons, ih, List.map_cons, List.mem_cons]
        exact or_left_comm

theorem nodup_keys_set (h : (m.map Prod.fst).Nodup) : ((set k v m).map Prod.fst).Nodup := by
  induction m with
  | nil => simp [set]
  | cons entry rest ih =>
      obtain ⟨i, u⟩ := entry
      rw [List.map_cons, List.nodup_cons] at h
      rw [set]
      split
      next hi =>
        rw [← hi]
        exact List.nodup_cons.mpr h
      next hi =>
        refine List.nodup_cons.mpr ⟨fun hmem => ?_, ih h.2⟩
        rcases mem_keys_set.mp hmem with hk | hrest
        · exact hi hk
        · exact h.1 hrest

/-- Setting a key changes its entry and no other. -/
theorem mem_set (h : (m.map Prod.fst).Nodup) :
    (j, w) ∈ set k v m ↔ if j = k then w = v else (j, w) ∈ m := by
  induction m with
  | nil =>
      rw [set, List.mem_singleton, Prod.mk.injEq]
      split <;> simp_all
  | cons entry rest ih =>
      obtain ⟨i, u⟩ := entry
      rw [List.map_cons, List.nodup_cons] at h
      rw [set]
      split
      next hi =>
        subst hi
        rw [List.mem_cons, Prod.mk.injEq, List.mem_cons, Prod.mk.injEq]
        split
        next hj =>
          subst hj
          have hrest : (j, w) ∉ rest := fun hmem =>
            h.1 (List.mem_map.mpr ⟨(j, w), hmem, rfl⟩)
          simp [hrest]
        next hj => simp [hj]
      next hi =>
        rw [List.mem_cons, ih h.2, List.mem_cons, Prod.mk.injEq]
        split
        next hj =>
          have hji : ¬j = i := fun hji => hi (hji ▸ hj)
          simp [hji]
        · exact Iff.rfl

end Entries
