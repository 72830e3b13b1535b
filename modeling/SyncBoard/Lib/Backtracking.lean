import Mathlib.Data.List.Basic
import Mathlib.Data.List.Infix

/-!
# Patterns that backtrack

A pattern is tried at the start of a text, together with what is to follow it: a
repetition takes the fewest elements after which the rest succeeds, and an alternative is
tried where the one before it fails. Whatever is found is split off the text, so a search
loses nothing, and it misses nothing: it finds the leftmost match, and for a pattern without
alternatives the shortest there.
-/

namespace Backtracking

variable {α β : Type*}

inductive Pattern (α : Type*)
  | literal (s : List α)
  | lazyMany (p : α → Bool)
  | seq (first second : Pattern α)
  | alt (first second : Pattern α)

/-- Pass over the fewest elements after which `k` succeeds. -/
def passOver (p : α → Bool) (k : List α → Option β) : List α → Option β
  | [] => k []
  | c :: t =>
      match k (c :: t) with
      | some b => some b
      | none => if p c then passOver p k t else none

theorem passOver_eq_some {p : α → Bool} {k : List α → Option β} {t : List α} {b : β}
    (h : passOver p k t = some b) :
    ∃ body u, t = body ++ u ∧ (∀ c ∈ body, p c = true) ∧ k u = some b := by
  induction t with
  | nil => exact ⟨[], [], rfl, by simp, h⟩
  | cons c t ih =>
      rw [passOver] at h
      split at h
      · next hnow =>
          rw [h] at hnow
          exact ⟨[], c :: t, rfl, by simp, hnow⟩
      · split at h
        · next hc =>
            obtain ⟨body, u, rfl, hbody, hu⟩ := ih h
            exact ⟨c :: body, u, rfl, List.forall_mem_cons.mpr ⟨hc, hbody⟩, hu⟩
        · cases h

theorem passOver_append {p : α → Bool} {k : List α → Option β} {body u : List α} {b : β}
    (hbody : ∀ c ∈ body, p c = true) (hu : k u = some b) :
    ∃ b', passOver p k (body ++ u) = some b' := by
  induction body with
  | nil =>
      cases u with
      | nil => exact ⟨b, hu⟩
      | cons c t => exact ⟨b, by rw [List.nil_append, passOver, hu]⟩
  | cons c body ih =>
      obtain ⟨hc, hbody⟩ := List.forall_mem_cons.mp hbody
      rw [List.cons_append, passOver]
      split
      · exact ⟨_, rfl⟩
      · rw [if_pos hc]
        exact ih hbody

/-- What starts later leaves no more. -/
def Later (k : List α → Option (List α)) : Prop :=
  ∀ u u' r r', u' <:+ u → k u = some r → k u' = some r' → r'.length ≤ r.length

theorem later_some : Later (some : List α → Option (List α)) := by
  intro u u' r r' hsuffix hr hr'
  obtain rfl := Option.some.inj hr
  obtain rfl := Option.some.inj hr'
  exact hsuffix.length_le

section Later
variable {p : α → Bool} {k : List α → Option (List α)} {body u t r r' : List α}

/-- The fewest elements leave the most. -/
theorem le_of_passOver (hk : Later k) (h : passOver p k (body ++ u) = some r)
    (hu : k u = some r') : r'.length ≤ r.length := by
  induction body with
  | nil =>
      cases u with
      | nil => exact (congrArg List.length (Option.some.inj (hu.symm.trans h))).le
      | cons c t =>
          rw [List.nil_append, passOver, hu] at h
          exact (congrArg List.length (Option.some.inj h)).le
  | cons c body ih =>
      rw [List.cons_append, passOver] at h
      split at h
      · next hnow =>
          obtain rfl := Option.some.inj h
          exact hk _ u _ _ (List.suffix_append (c :: body) u) hnow hu
      · split at h
        · exact ih h
        · cases h

theorem later_passOver (hk : Later k) : Later (passOver p k) := by
  rintro _ u' r r' ⟨body, rfl⟩ h h'
  obtain ⟨body', u, rfl, -, hu⟩ := passOver_eq_some h'
  rw [← List.append_assoc] at h
  exact le_of_passOver hk h hu

end Later

namespace Pattern

/-- The texts that a pattern stands for. -/
def Matches : Pattern α → List α → Prop
  | literal s, t => t = s
  | lazyMany p, t => ∀ c ∈ t, p c = true
  | seq first second, t => ∃ u v, t = u ++ v ∧ first.Matches u ∧ second.Matches v
  | alt first second, t => first.Matches t ∨ second.Matches t

section Run
variable [DecidableEq α]

/-- Match the pattern at the start of a text, and what follows it with `k`. -/
def run : Pattern α → (List α → Option β) → List α → Option β
  | literal s, k, t => if s.isPrefixOf t then k (t.drop s.length) else none
  | lazyMany p, k, t => passOver p k t
  | seq first second, k, t => first.run (fun u => second.run k u) t
  | alt first second, k, t =>
      match first.run k t with
      | some b => some b
      | none => second.run k t

theorem run_eq_some {P : Pattern α} {k : List α → Option β} {t : List α} {b : β}
    (h : P.run k t = some b) : ∃ token u, t = token ++ u ∧ P.Matches token ∧ k u = some b := by
  induction P generalizing k t with
  | literal s =>
      rw [run] at h
      split at h
      · next hstart =>
          obtain ⟨u, rfl⟩ := List.isPrefixOf_iff_prefix.mp hstart
          rw [List.drop_left] at h
          exact ⟨s, u, rfl, rfl, h⟩
      · cases h
  | lazyMany p => exact passOver_eq_some h
  | seq first second ihfirst ihsecond =>
      obtain ⟨token, u, rfl, hfirst, hrest⟩ := ihfirst h
      obtain ⟨token', u', rfl, hsecond, hu⟩ := ihsecond hrest
      refine ⟨token ++ token', u', ?_, ⟨token, token', rfl, hfirst, hsecond⟩, hu⟩
      rw [List.append_assoc]
  | alt first second ihfirst ihsecond =>
      rw [run] at h
      split at h
      · next hfound =>
          rw [h] at hfound
          obtain ⟨token, u, ht, hmatches, hu⟩ := ihfirst hfound
          exact ⟨token, u, ht, .inl hmatches, hu⟩
      · obtain ⟨token, u, ht, hmatches, hu⟩ := ihsecond h
        exact ⟨token, u, ht, .inr hmatches, hu⟩

/-- A match at the start of a text is not missed. -/
theorem exists_run {P : Pattern α} {k : List α → Option β} {token u : List α} {b : β}
    (hmatches : P.Matches token) (hu : k u = some b) :
    ∃ b', P.run k (token ++ u) = some b' := by
  induction P generalizing k token u b with
  | literal s =>
      obtain rfl : token = s := hmatches
      refine ⟨b, ?_⟩
      rw [run, if_pos (List.isPrefixOf_iff_prefix.mpr (List.prefix_append token u)),
        List.drop_left, hu]
  | lazyMany p => exact passOver_append hmatches hu
  | seq first second ihfirst ihsecond =>
      obtain ⟨v, w, rfl, hfirst, hsecond⟩ := hmatches
      obtain ⟨b', hb'⟩ := ihsecond hsecond hu
      rw [List.append_assoc]
      exact ihfirst hfirst hb'
  | alt first second ihfirst ihsecond =>
      rw [run]
      rcases hmatches with hfirst | hsecond
      · obtain ⟨b', hb'⟩ := ihfirst hfirst hu
        exact ⟨b', by rw [hb']⟩
      · split
        · exact ⟨_, rfl⟩
        · exact ihsecond hsecond hu

/-- A pattern without alternatives. -/
def Single : Pattern α → Prop
  | seq first second => first.Single ∧ second.Single
  | alt _ _ => False
  | _ => True

theorem later_run {P : Pattern α} {k : List α → Option (List α)} (hP : P.Single)
    (hk : Later k) : Later (P.run k) := by
  induction P generalizing k with
  | literal s =>
      rintro _ u' r r' ⟨before, rfl⟩ h h'
      rw [run] at h h'
      split at h
      · split at h'
        · apply hk _ _ r r' _ h h'
          have hdrop : u'.drop s.length <:+ before ++ u' :=
            (List.drop_suffix _ u').trans (List.suffix_append before u')
          apply List.suffix_of_suffix_length_le hdrop (List.drop_suffix _ _)
          simp only [List.length_drop, List.length_append]
          omega
        · cases h'
      · cases h
  | lazyMany p => exact later_passOver hk
  | seq first second ihfirst ihsecond => exact ihfirst hP.1 (ihsecond hP.2 hk)
  | alt => exact hP.elim

/-- No other match leaves more. -/
theorem le_of_run {P : Pattern α} {k : List α → Option (List α)} {token u r r' : List α}
    (hP : P.Single) (hk : Later k) (h : P.run k (token ++ u) = some r)
    (hmatches : P.Matches token) (hu : k u = some r') : r'.length ≤ r.length := by
  induction P generalizing k token u r r' with
  | literal s =>
      obtain rfl : token = s := hmatches
      rw [run, if_pos (List.isPrefixOf_iff_prefix.mpr (List.prefix_append token u)),
        List.drop_left, hu] at h
      exact (congrArg List.length (Option.some.inj h)).le
  | lazyMany p => exact le_of_passOver hk h hu
  | seq first second ihfirst ihsecond =>
      obtain ⟨v, w, rfl, hfirst, hsecond⟩ := hmatches
      rw [List.append_assoc] at h
      obtain ⟨r'', hrun⟩ := exists_run hsecond hu
      exact (ihsecond hP.2 hk hrun hsecond hu).trans
        (ihfirst hP.1 (later_run hP.2 hk) h hfirst hrun)
  | alt => exact hP.elim

/-- The leftmost match in a text, with what is before and after it. -/
structure Found (α : Type*) where
  before : List α
  token : List α
  rest : List α

def search (P : Pattern α) : List α → Option (Found α)
  | [] => (P.run some []).map fun rest => ⟨[], [], rest⟩
  | c :: t =>
      match P.run some (c :: t) with
      | some rest => some ⟨[], (c :: t).take ((c :: t).length - rest.length), rest⟩
      | none => (P.search t).map fun found => { found with before := c :: found.before }

/-- The text falls into what is before the match, the match and the rest. -/
theorem search_eq_some {P : Pattern α} {t : List α} {found : Found α}
    (h : P.search t = some found) :
    t = found.before ++ found.token ++ found.rest ∧ P.Matches found.token := by
  induction t generalizing found with
  | nil =>
      obtain ⟨rest, hrun, rfl⟩ := Option.map_eq_some_iff.mp h
      obtain ⟨token, u, ht, hmatches, hu⟩ := run_eq_some hrun
      obtain ⟨rfl, rfl⟩ := List.nil_eq_append_iff.mp ht
      obtain rfl : [] = rest := Option.some.inj hu
      exact ⟨rfl, hmatches⟩
  | cons c t ih =>
      rw [search] at h
      split at h
      · next rest hrun =>
          obtain rfl := Option.some.inj h
          obtain ⟨token, u, ht, hmatches, hu⟩ := run_eq_some hrun
          obtain rfl : u = rest := Option.some.inj hu
          dsimp only
          rw [ht, List.length_append, Nat.add_sub_cancel, List.take_left]
          exact ⟨rfl, hmatches⟩
      · obtain ⟨inner, hinner, rfl⟩ := Option.map_eq_some_iff.mp h
        obtain ⟨rfl, hmatches⟩ := ih hinner
        exact ⟨rfl, hmatches⟩

/-- A match is found at its place, and none before it. -/
theorem run_of_search {P : Pattern α} {t : List α} {found : Found α}
    (h : P.search t = some found) :
    P.run some (found.token ++ found.rest) = some found.rest ∧
      ∀ x y, found.before = x ++ y → y ≠ [] →
        P.run some (y ++ found.token ++ found.rest) = none := by
  induction t generalizing found with
  | nil =>
      obtain ⟨rest, hrun, rfl⟩ := Option.map_eq_some_iff.mp h
      obtain ⟨token, u, ht, -, hu⟩ := run_eq_some hrun
      obtain ⟨rfl, rfl⟩ := List.nil_eq_append_iff.mp ht
      obtain rfl : [] = rest := Option.some.inj hu
      refine ⟨hrun, fun x y hbefore hy => ?_⟩
      exact absurd (List.nil_eq_append_iff.mp hbefore).2 hy
  | cons c t ih =>
      rw [search] at h
      split at h
      · next rest hrun =>
          obtain rfl := Option.some.inj h
          obtain ⟨token, u, ht, -, hu⟩ := run_eq_some hrun
          obtain rfl : u = rest := Option.some.inj hu
          have htake : (c :: t).take ((c :: t).length - u.length) = token := by
            rw [ht, List.length_append, Nat.add_sub_cancel, List.take_left]
          refine ⟨?_, fun x y hbefore hy => ?_⟩
          · dsimp only
            rw [htake, ← ht, hrun]
          · exact absurd (List.nil_eq_append_iff.mp hbefore).2 hy
      · next hnone =>
          obtain ⟨inner, hinner, rfl⟩ := Option.map_eq_some_iff.mp h
          obtain ⟨hrun, hbefore⟩ := ih hinner
          refine ⟨hrun, fun x y hsplit hy => ?_⟩
          cases x with
          | nil =>
              obtain rfl : c :: inner.before = y := hsplit
              have htext := (search_eq_some hinner).1
              rw [List.cons_append, List.cons_append, ← htext]
              exact hnone
          | cons d x => exact hbefore x y (List.cons.inj hsplit).2 hy

/-- Where nothing is found the pattern fails at every place. -/
theorem run_of_search_none {P : Pattern α} {t : List α} (h : P.search t = none) :
    ∀ y, y <:+ t → P.run some y = none := by
  induction t with
  | nil =>
      intro y hy
      obtain rfl := List.suffix_nil.mp hy
      exact Option.map_eq_none_iff.mp h
  | cons c t ih =>
      rw [search] at h
      split at h
      · cases h
      · next hnone =>
          intro y hy
          rcases List.suffix_cons_iff.mp hy with rfl | hy
          · exact hnone
          · exact ih (Option.map_eq_none_iff.mp h) y hy

/-- A failed pattern matches nothing at the start of the text. -/
theorem not_matches_of_run {P : Pattern α} {t token : List α} (h : P.run some t = none)
    (hfirst : token <+: t) : ¬ P.Matches token := by
  obtain ⟨u, rfl⟩ := hfirst
  intro hmatches
  obtain ⟨b, hb⟩ := exists_run (k := some) hmatches (rfl : some u = some u)
  cases h.symm.trans hb

end Run

end Pattern

end Backtracking
