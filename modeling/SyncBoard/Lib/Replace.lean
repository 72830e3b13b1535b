import Mathlib.Data.List.DropRight
import Mathlib.Data.List.Infix

/-!
# Removing and replacing in a text

Two passes over a list, each from the left: `withoutSpans` removes what lies between an
opening element and the next closing one, `replaceAll` writes one element for every
occurrence of a pattern. Afterwards no opening element stands before a closing one, and
a pattern without the new element no longer occurs.
-/

namespace Replace

variable {α : Type*} [DecidableEq α]

section Spans

variable (opening closing : α)

/-- The elements outside the spans. A span goes from an opening element to the first closing
one after it; where there is none, the opening element stays. -/
def withoutSpans : Bool → List α → List α
  | _, [] => []
  | true, c :: rest => withoutSpans (c != closing) rest
  | false, c :: rest =>
      if c = opening ∧ closing ∈ rest then withoutSpans true rest
      else c :: withoutSpans false rest

attribute [local simp] withoutSpans

variable {opening closing}

theorem withoutSpans_sublist (inside : Bool) (s : List α) :
    (withoutSpans opening closing inside s).Sublist s := by
  induction s generalizing inside with
  | nil => exact List.Sublist.refl []
  | cons c rest ih =>
      cases inside with
      | true =>
          rw [withoutSpans]
          exact (ih _).cons c
      | false =>
          rw [withoutSpans]
          split
          · exact (ih true).cons c
          · exact (ih false).cons_cons c

/-- Without spans, no opening element stands before a closing one. -/
theorem not_sublist_withoutSpans (inside : Bool) (s : List α) :
    ¬[opening, closing].Sublist (withoutSpans opening closing inside s) := by
  induction s generalizing inside with
  | nil => simp
  | cons c rest ih =>
      cases inside with
      | true =>
          rw [withoutSpans]
          exact ih _
      | false =>
          rw [withoutSpans]
          split
          · exact ih true
          next hspan =>
            intro h
            rcases List.sublist_cons_iff.mp h with h | ⟨pair, heq, hpair⟩
            · exact ih false h
            · -- an opening element is kept only where no closing one follows
              obtain ⟨rfl, rfl⟩ := List.cons.inj heq
              have hkept := List.singleton_sublist.mp hpair
              exact hspan ⟨rfl, (withoutSpans_sublist false rest).subset hkept⟩

/-- A text without spans is left as it is. -/
theorem withoutSpans_of_not_sublist {s : List α} (h : ¬[opening, closing].Sublist s) :
    withoutSpans opening closing false s = s := by
  induction s with
  | nil => rfl
  | cons c rest ih =>
      have hspan : ¬(c = opening ∧ closing ∈ rest) := by
        rintro ⟨rfl, hclosing⟩
        exact h ((List.singleton_sublist.mpr hclosing).cons_cons c)
      rw [withoutSpans, if_neg hspan, ih fun hrest => h (hrest.cons c)]

end Spans

section Occurrences

variable (pattern : List α) (new : α)

/-- The text with `new` for every occurrence of a pattern. The counter tells how many of the
next elements belong to an occurrence that was replaced. -/
def replaceAll : Nat → List α → List α
  | _, [] => []
  | skip + 1, _ :: rest => replaceAll skip rest
  | 0, c :: rest =>
      if pattern <+: c :: rest then new :: replaceAll (pattern.length - 1) rest
      else c :: replaceAll 0 rest

attribute [local simp] replaceAll

variable {pattern : List α} {new : α}

theorem replaceAll_of_start {c : α} {rest : List α} (h : pattern <+: c :: rest) :
    replaceAll pattern new 0 (c :: rest) =
      new :: replaceAll pattern new (pattern.length - 1) rest := by
  rw [replaceAll, if_pos h]

variable (new) in
theorem replaceAll_of_not_start {c : α} {rest : List α} (h : ¬pattern <+: c :: rest) :
    replaceAll pattern new 0 (c :: rest) = c :: replaceAll pattern new 0 rest := by
  rw [replaceAll, if_neg h]

/-- A text in which the pattern does not occur is left as it is. -/
theorem replaceAll_of_absent {s : List α} (h : ¬pattern <:+: s) :
    replaceAll pattern new 0 s = s := by
  induction s with
  | nil => rfl
  | cons c rest ih =>
      rw [replaceAll_of_not_start new fun hp => h hp.isInfix,
        ih fun hrest => h (List.infix_cons hrest)]

/-- What the result starts with and was not written, the text starts with. -/
theorem prefix_of_prefix_replaceAll {other s : List α} (hnew : new ∉ other)
    (h : other <+: replaceAll pattern new 0 s) : other <+: s := by
  induction other generalizing s with
  | nil => exact List.nil_prefix
  | cons d other ih =>
      cases s with
      | nil =>
          rw [replaceAll] at h
          exact h
      | cons c rest =>
          by_cases hc : pattern <+: c :: rest
          · rw [replaceAll_of_start hc, List.cons_prefix_cons] at h
            exact absurd List.mem_cons_self (h.1 ▸ hnew)
          · rw [replaceAll_of_not_start new hc, List.cons_prefix_cons] at h
            rw [List.cons_prefix_cons]
            exact ⟨h.1, ih (fun hmem => hnew (List.mem_cons_of_mem d hmem)) h.2⟩

/-- What occurs in the result and was not written, occurs in the text. -/
theorem infix_of_infix_replaceAll {skip : Nat} {other s : List α} (hnew : new ∉ other)
    (h : other <:+: replaceAll pattern new skip s) : other <:+: s := by
  induction s generalizing skip with
  | nil =>
      rw [replaceAll] at h
      exact h
  | cons c rest ih =>
      cases skip with
      | succ skip =>
          rw [replaceAll] at h
          exact List.infix_cons (ih h)
      | zero =>
          by_cases hc : pattern <+: c :: rest
          · rw [replaceAll_of_start hc, List.infix_cons_iff] at h
            rcases h with h | h
            · cases other with
              | nil => exact List.nil_infix
              | cons d other =>
                  rw [List.cons_prefix_cons] at h
                  exact absurd List.mem_cons_self (h.1 ▸ hnew)
            · exact List.infix_cons (ih h)
          · rw [replaceAll_of_not_start new hc, List.infix_cons_iff,
              ← replaceAll_of_not_start new hc] at h
            rcases h with h | h
            · exact (prefix_of_prefix_replaceAll hnew h).isInfix
            · exact List.infix_cons (ih h)

/-- A pattern without the new element no longer occurs. -/
theorem not_infix_replaceAll {skip : Nat} {s : List α} (hpattern : pattern ≠ [])
    (hnew : new ∉ pattern) : ¬pattern <:+: replaceAll pattern new skip s := by
  induction s generalizing skip with
  | nil =>
      rw [replaceAll, List.infix_nil]
      exact hpattern
  | cons c rest ih =>
      cases skip with
      | succ skip =>
          rw [replaceAll]
          exact ih
      | zero =>
          by_cases hc : pattern <+: c :: rest
          · rw [replaceAll_of_start hc, List.infix_cons_iff]
            rintro (h | h)
            · obtain ⟨d, other, rfl⟩ := List.exists_cons_of_ne_nil hpattern
              rw [List.cons_prefix_cons] at h
              exact absurd List.mem_cons_self (h.1 ▸ hnew)
            · exact ih h
          · rw [replaceAll_of_not_start new hc, List.infix_cons_iff,
              ← replaceAll_of_not_start new hc]
            rintro (h | h)
            · exact hc (prefix_of_prefix_replaceAll hnew h)
            · exact ih h

variable (pattern new) in
theorem length_replaceAll_le (skip : Nat) (s : List α) :
    (replaceAll pattern new skip s).length ≤ s.length - skip := by
  induction s generalizing skip with
  | nil => simp
  | cons c rest ih =>
      cases skip with
      | succ skip =>
          rw [replaceAll, List.length_cons, Nat.add_sub_add_right]
          exact ih skip
      | zero =>
          by_cases hc : pattern <+: c :: rest
          · have hrest := ih (pattern.length - 1)
            rw [replaceAll_of_start hc, List.length_cons, List.length_cons]
            omega
          · have hrest := ih 0
            rw [replaceAll_of_not_start new hc, List.length_cons, List.length_cons]
            omega

/-- Replacing an occurrence of two elements or more makes the text shorter. -/
theorem length_replaceAll_lt {s : List α} (hpattern : 2 ≤ pattern.length) (h : pattern <:+: s) :
    (replaceAll pattern new 0 s).length < s.length := by
  induction s with
  | nil =>
      rw [List.infix_nil] at h
      rw [h] at hpattern
      exact absurd hpattern (by simp)
  | cons c rest ih =>
      by_cases hc : pattern <+: c :: rest
      · have hlength := hc.length_le
        have hrest := length_replaceAll_le pattern new (pattern.length - 1) rest
        rw [List.length_cons] at hlength
        rw [replaceAll_of_start hc, List.length_cons, List.length_cons]
        omega
      · rw [replaceAll_of_not_start new hc, List.length_cons, List.length_cons]
        exact Nat.add_lt_add_right (ih ((List.infix_cons_iff.mp h).resolve_left hc)) 1

end Occurrences

end Replace
