import Mathlib.Data.List.Basic
import Mathlib.Data.List.Nodup

/-!
# Lists edited at a position

Removing or replacing the element at a position, seen through membership and
through a filter: a queue of which one entry is taken or changed. A position
among the elements that pass a filter is a position in the list exactly when the
filter drops nothing up to there.
-/

namespace Positional

variable {α : Type*} {l : List α} {i : Nat} {a b x : α} {p : α → Bool}

theorem exists_split (h : l[i]? = some a) :
    ∃ l₁ l₂, l = l₁ ++ a :: l₂ ∧ l.eraseIdx i = l₁ ++ l₂ ∧ ∀ b, l.set i b = l₁ ++ b :: l₂ := by
  induction l generalizing i with
  | nil => simp at h
  | cons y l ih =>
      cases i with
      | zero =>
          obtain rfl : y = a := by simpa using h
          exact ⟨[], l, rfl, rfl, fun _ => rfl⟩
      | succ i =>
          obtain ⟨l₁, l₂, hl, he, hs⟩ := ih (by simpa using h)
          refine ⟨y :: l₁, l₂, ?_, ?_, fun b => ?_⟩
          · rw [hl, List.cons_append]
          · rw [List.eraseIdx_cons_succ, he, List.cons_append]
          · rw [List.set_cons_succ, hs b, List.cons_append]

theorem filter_eraseIdx_of_neg (h : l[i]? = some a) (hp : p a = false) :
    (l.eraseIdx i).filter p = l.filter p := by
  obtain ⟨l₁, l₂, hl, he, -⟩ := exists_split h
  rw [he, hl]
  simp [hp]

theorem filter_eraseIdx_of_singleton (h : l[i]? = some a) (hp : p a = true)
    (hl : l.filter p = [x]) : a = x ∧ (l.eraseIdx i).filter p = [] := by
  obtain ⟨l₁, l₂, hl', he, -⟩ := exists_split h
  rw [hl', List.filter_append, List.filter_cons_of_pos hp] at hl
  rw [he, List.filter_append]
  cases h₁ : l₁.filter p with
  | nil =>
      rw [h₁, List.nil_append] at hl
      obtain ⟨hax, h₂⟩ := List.cons.inj hl
      exact ⟨hax, h₂⟩
  | cons y ys =>
      rw [h₁] at hl
      simp at hl

theorem filter_set_of_neg (h : l[i]? = some a) (ha : p a = false) (hb : p b = false) :
    (l.set i b).filter p = l.filter p := by
  obtain ⟨l₁, l₂, hl, -, hs⟩ := exists_split h
  rw [hs, hl]
  simp [ha, hb]

theorem filter_set_of_singleton (h : l[i]? = some a) (ha : p a = true) (hb : p b = true)
    (hl : l.filter p = [x]) : (l.set i b).filter p = [b] := by
  have hnone := (filter_eraseIdx_of_singleton h ha hl).2
  obtain ⟨l₁, l₂, -, he, hs⟩ := exists_split h
  rw [he, List.filter_append, List.append_eq_nil_iff] at hnone
  rw [hs, List.filter_append, List.filter_cons_of_pos hb, hnone.1, hnone.2, List.nil_append]

theorem eq_or_mem_eraseIdx (h : l[i]? = some a) (hx : x ∈ l) : x = a ∨ x ∈ l.eraseIdx i := by
  obtain ⟨l₁, l₂, hl, he, -⟩ := exists_split h
  rw [hl, List.mem_append, List.mem_cons] at hx
  rw [he, List.mem_append]
  rcases hx with hx | rfl | hx
  · exact .inr (.inl hx)
  · exact .inl rfl
  · exact .inr (.inr hx)

theorem eq_or_mem_set (h : l[i]? = some a) (hx : x ∈ l) (b : α) : x = a ∨ x ∈ l.set i b := by
  obtain ⟨l₁, l₂, -, he, hs⟩ := exists_split h
  rw [hs]
  rcases eq_or_mem_eraseIdx h hx with rfl | hx
  · exact .inl rfl
  · right
    rw [he, List.mem_append] at hx
    rw [List.mem_append, List.mem_cons]
    exact hx.imp_right .inr

/-- An element taken out of its position, and the rest. -/
theorem perm_cons_eraseIdx (h : l[i]? = some a) : (a :: l.eraseIdx i).Perm l := by
  obtain ⟨l₁, l₂, rfl, he, -⟩ := exists_split h
  rw [he]
  exact List.perm_middle.symm

/-- A value stands behind another one at the end of a list if it did before, or is the last. -/
theorem pair_sublist_concat {a b c : α} :
    [a, b].Sublist (l ++ [c]) ↔ [a, b].Sublist l ∨ a ∈ l ∧ b = c := by
  have hreverse : ∀ l : List α, [a, b].Sublist l ↔ [b, a].Sublist l.reverse := by
    intro l
    rw [← List.reverse_sublist]
    rfl
  rw [hreverse, hreverse, List.reverse_append, List.reverse_singleton, List.singleton_append]
  constructor
  · intro h
    cases h with
    | cons _ h => exact .inl h
    | cons_cons _ h => exact .inr ⟨by simpa using h, rfl⟩
  · rintro (h | ⟨h, rfl⟩)
    · exact h.cons c
    · exact List.Sublist.cons_cons b (by simpa using h)

/-- At most one position holds a value of a kind. -/
def AtMostOne (P : α → Prop) (l : List α) : Prop :=
  ∀ (i j : Nat) (a b : α), l[i]? = some a → l[j]? = some b → P a → P b → i = j

theorem atMostOne_nil (P : α → Prop) : AtMostOne P [] := by
  intro i j a b ha
  simp at ha

theorem AtMostOne.imp {P Q : α → Prop} (h : AtMostOne P l) (hQ : ∀ a, Q a → P a) :
    AtMostOne Q l :=
  fun i j a b ha hb hqa hqb => h i j a b ha hb (hQ a hqa) (hQ b hqb)

theorem AtMostOne.concat {P : α → Prop} (h : AtMostOne P l) (hb : ¬ P b) :
    AtMostOne P (l ++ [b]) := by
  have hold : ∀ (i : Nat) c, (l ++ [b])[i]? = some c → P c → l[i]? = some c := by
    intro i c hc hp
    by_cases hi : i < l.length
    · rwa [List.getElem?_append_left hi] at hc
    · rw [List.getElem?_append_right (by omega)] at hc
      obtain rfl := List.mem_singleton.mp (List.mem_of_getElem? hc)
      exact absurd hp hb
  intro i j c d hc hd hpc hpd
  exact h i j c d (hold i c hc hpc) (hold j d hd hpd) hpc hpd

/-- A replaced value may be of the kind where the one before was, or where none is. -/
theorem AtMostOne.set {P : α → Prop} (h : AtMostOne P l) (ha : l[i]? = some a)
    (hb : P b → P a ∨ ∀ c ∈ l, ¬ P c) : AtMostOne P (l.set i b) := by
  have hat : ∀ (j : Nat) c, (l.set i b)[j]? = some c → P c → j ≠ i →
      l[j]? = some c ∧ (P b → j = i) := by
    intro j c hc hp hj
    rw [List.getElem?_set_ne (Ne.symm hj)] at hc
    refine ⟨hc, fun hpb => ?_⟩
    rcases hb hpb with hpa | hnone
    · exact h j i c a hc ha hp hpa
    · exact absurd hp (hnone c (List.mem_of_getElem? hc))
  have hself : ∀ c, (l.set i b)[i]? = some c → c = b := by
    intro c hc
    rw [List.getElem?_set_self (List.getElem?_eq_some_iff.mp ha).1] at hc
    exact (Option.some.inj hc).symm
  intro j k c d hc hd hpc hpd
  by_cases hj : j = i
  · by_cases hk : k = i
    · exact hj.trans hk.symm
    · subst hj
      exact ((hat k d hd hpd hk).2 (hself c hc ▸ hpc)).symm
  · by_cases hk : k = i
    · subst hk
      exact (hat j c hc hpc hj).2 (hself d hd ▸ hpd)
    · exact h j k c d (hat j c hc hpc hj).1 (hat k d hd hpd hk).1 hpc hpd

/-- What stands up to a position comes before the element there. -/
theorem rel_of_mem_take {R : α → α → Prop} (hl : l.Pairwise R) (h : l[i]? = some a)
    (hx : x ∈ l.take (i + 1)) : x = a ∨ R x a := by
  induction l generalizing i with
  | nil => cases h
  | cons y l ih =>
      rw [List.pairwise_cons] at hl
      rw [List.take_succ_cons, List.mem_cons] at hx
      cases i with
      | zero =>
          obtain rfl : y = a := by simpa using h
          exact .inl (by simpa using hx)
      | succ i =>
          rw [List.getElem?_cons_succ] at h
          rcases hx with rfl | hx
          · exact .inr (hl.1 a (List.mem_of_getElem? h))
          · exact ih hl.2 h hx

/-- What stands from a position on comes after the element there. -/
theorem rel_of_mem_drop {R : α → α → Prop} (hl : l.Pairwise R) (h : l[i]? = some a)
    (hx : x ∈ l.drop i) : x = a ∨ R a x := by
  induction l generalizing i with
  | nil => cases h
  | cons y l ih =>
      rw [List.pairwise_cons] at hl
      cases i with
      | zero =>
          obtain rfl : y = a := by simpa using h
          rw [List.drop_zero, List.mem_cons] at hx
          exact hx.imp_right (hl.1 x)
      | succ i =>
          rw [List.getElem?_cons_succ] at h
          rw [List.drop_succ_cons] at hx
          exact ih hl.2 h hx

/-- Replacing an element exchanges what it contributes to a `filterMap`. -/
theorem perm_filterMap_set {β : Type*} (f : α → Option β) (h : l[i]? = some a) (b : α) :
    ((f a).toList ++ (l.set i b).filterMap f).Perm ((f b).toList ++ l.filterMap f) := by
  obtain ⟨l₁, l₂, rfl, -, hs⟩ := exists_split h
  have hmid : ∀ c, ((l₁ ++ c :: l₂).filterMap f).Perm
      ((f c).toList ++ (l₁.filterMap f ++ l₂.filterMap f)) := by
    intro c
    have hcons : (c :: l₂).filterMap f = (f c).toList ++ l₂.filterMap f := by
      rw [List.filterMap_cons]
      cases f c <;> rfl
    rw [List.filterMap_append, hcons]
    exact List.perm_append_comm_assoc _ _ _
  rw [hs b]
  calc
    List.Perm _ ((f a).toList ++ ((f b).toList ++ (l₁.filterMap f ++ l₂.filterMap f))) :=
      (hmid b).append_left _
    List.Perm _ ((f b).toList ++ ((f a).toList ++ (l₁.filterMap f ++ l₂.filterMap f))) :=
      List.perm_append_comm_assoc _ _ _
    List.Perm _ ((f b).toList ++ (l₁ ++ a :: l₂).filterMap f) :=
      (hmid a).symm.append_left _

theorem exists_le_of_getElem?_filter (h : (l.filter p)[i]? = some a) :
    ∃ j, i ≤ j ∧ l[j]? = some a := by
  induction l generalizing i with
  | nil => simp at h
  | cons b l ih =>
      by_cases hb : p b = true
      · rw [List.filter_cons_of_pos hb] at h
        cases i with
        | zero => exact ⟨0, Nat.le_refl 0, by simpa using h⟩
        | succ i =>
            obtain ⟨j, hij, hj⟩ := ih (by simpa using h)
            exact ⟨j + 1, by omega, by simpa using hj⟩
      · rw [List.filter_cons_of_neg hb] at h
        obtain ⟨j, hij, hj⟩ := ih h
        exact ⟨j + 1, by omega, by simpa using hj⟩

/-- Where the filter drops nothing before a position, the position is the same in
both lists. -/
theorem getElem?_filter_of_take (h : ∀ b ∈ l.take (i + 1), p b = true) :
    (l.filter p)[i]? = l[i]? := by
  induction l generalizing i with
  | nil => simp
  | cons b l ih =>
      have hb : p b = true := h b (by simp)
      rw [List.filter_cons_of_pos hb]
      cases i with
      | zero => rfl
      | succ i =>
          rw [List.getElem?_cons_succ, List.getElem?_cons_succ]
          apply ih
          intro c hc
          exact h c (List.mem_cons_of_mem b hc)

/-- In a list without repeated values the converse holds too. -/
theorem getElem?_filter_iff {β : Type*} {f : α → β} (hf : (l.map f).Nodup)
    (hi : i ≤ (l.filter p).length) :
    ((l.filter p)[i]?.map f = l[i]?.map f) ↔ ∀ b ∈ l.take (i + 1), p b = true := by
  constructor
  · intro h
    induction l generalizing i with
    | nil => simp
    | cons b l ih =>
        rw [List.map_cons, List.nodup_cons] at hf
        by_cases hb : p b = true
        · rw [List.filter_cons_of_pos hb] at h hi
          intro c hc
          rw [List.take_succ_cons, List.mem_cons] at hc
          rcases hc with rfl | hc
          · exact hb
          · cases i with
            | zero => simp at hc
            | succ i =>
                rw [List.getElem?_cons_succ, List.getElem?_cons_succ] at h
                exact ih hf.2 (by simpa using hi) h c hc
        · -- the element in front is dropped: what the filter has at `i` stands further on
          exfalso
          rw [List.filter_cons_of_neg hb] at h hi
          have hlt : i < (b :: l).length := by
            have hle := List.length_filter_le p l
            rw [List.length_cons]
            omega
          obtain ⟨x, hx⟩ : ∃ x, (b :: l)[i]? = some x := ⟨_, List.getElem?_eq_getElem hlt⟩
          rw [hx, Option.map_some, Option.map_eq_some_iff] at h
          obtain ⟨y, hy, hfy⟩ := h
          obtain ⟨j, hij, hj⟩ := exists_le_of_getElem?_filter hy
          have hnodup : ((b :: l).map f).Nodup := List.nodup_cons.mpr hf
          have hsame : ((b :: l).map f)[i]? = ((b :: l).map f)[j + 1]? := by
            rw [List.getElem?_map, List.getElem?_map, hx, List.getElem?_cons_succ, hj]
            simp [hfy]
          have heq := (List.getElem?_inj (by simpa using hlt) hnodup).mp hsame
          omega
  · intro h
    rw [getElem?_filter_of_take h]

/-- Removing an element by its position removes it by its value. -/
theorem eraseIdx_eq_filter {β : Type*} [DecidableEq β] {f : α → β} (hf : (l.map f).Nodup)
    (h : l[i]? = some a) : l.eraseIdx i = l.filter fun b => decide (f b ≠ f a) := by
  obtain ⟨l₁, l₂, rfl, he, -⟩ := exists_split h
  rw [List.map_append, List.map_cons, List.nodup_middle, List.nodup_cons, ← List.map_append] at hf
  have hkeep : ∀ b ∈ l₁ ++ l₂, decide (f b ≠ f a) = true := by
    intro b hb
    rw [decide_eq_true_iff]
    intro heq
    exact hf.1 (heq ▸ List.mem_map_of_mem hb)
  calc (l₁ ++ a :: l₂).eraseIdx i = l₁ ++ l₂ := he
    _ = (l₁ ++ l₂).filter fun b => decide (f b ≠ f a) := (List.filter_eq_self.mpr hkeep).symm
    _ = (l₁ ++ a :: l₂).filter fun b => decide (f b ≠ f a) := by simp

end Positional
