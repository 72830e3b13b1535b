import Mathlib.Logic.Relation

/-!
# Links that are redirected

A relation in which one element's links are redirected to a single target while all
others stay. It has a cycle afterwards exactly where the target led to the element
before: a path up to its first visit of the element uses none of the links that
differ.
-/

namespace Links

open Relation

variable {α : Type*} {R S : α → α → Prop} {c p : α}

/-- No element leads back to itself. -/
def Acyclic (R : α → α → Prop) : Prop :=
  ∀ a, ¬ TransGen R a a

theorem Acyclic.mono (h : Acyclic S) (hle : ∀ a b, R a b → S a b) : Acyclic R :=
  fun a ha => h a (TransGen.mono hle a a ha)

/-- The links of every element but `c` agree, and those of `c` lead to `p` only. -/
structure Redirected (R S : α → α → Prop) (c p : α) : Prop where
  others : ∀ a b, a ≠ c → (S a b ↔ R a b)
  target : ∀ b, S c b ↔ b = p

namespace Redirected

/-- A path to the redirected element stays a path. -/
theorem leads (h : Redirected R S c p) {a : α} (path : ReflTransGen R a c) :
    ReflTransGen S a c := by
  induction path using ReflTransGen.head_induction_on with
  | refl => exact .refl
  | @head a b hab _ ih =>
      by_cases ha : a = c
      · rw [ha]
      · exact .head ((h.others a b ha).mpr hab) ih

theorem leads_back (h : Redirected R S c p) {a : α} (path : ReflTransGen S a c) :
    ReflTransGen R a c := by
  induction path using ReflTransGen.head_induction_on with
  | refl => exact .refl
  | @head a b hab _ ih =>
      by_cases ha : a = c
      · rw [ha]
      · exact .head ((h.others a b ha).mp hab) ih

/-- A path avoids the redirected element, or it leads through it. -/
theorem avoids_or_visits (h : Redirected R S c p) {a b : α} (path : TransGen S a b) :
    TransGen R a b ∨ ReflTransGen S a c ∧ TransGen S c b := by
  induction path with
  | @single b hab =>
      by_cases ha : a = c
      · subst ha
        exact .inr ⟨.refl, .single hab⟩
      · exact .inl (.single ((h.others a b ha).mp hab))
  | @tail b d path hbd ih =>
      by_cases hb : b = c
      · subst hb
        exact .inr ⟨path.to_reflTransGen, .single hbd⟩
      · rcases ih with ih | ⟨hac, hcb⟩
        · exact .inl (ih.tail ((h.others b d hb).mp hbd))
        · exact .inr ⟨hac, hcb.tail hbd⟩

/-- The redirection closes a cycle exactly where its target led to the element. -/
theorem acyclic_iff (h : Redirected R S c p) (hR : Acyclic R) :
    Acyclic S ↔ ¬ ReflTransGen R p c := by
  constructor
  · intro hS path
    exact hS c (.head' ((h.target p).mpr rfl) (h.leads path))
  · intro hp a cycle
    rcases h.avoids_or_visits cycle with cycle | ⟨hac, hca⟩
    · exact hR a cycle
    · obtain ⟨b, hcb, hbc⟩ := TransGen.head'_iff.mp (hca.trans_left hac)
      obtain rfl := (h.target b).mp hcb
      exact hp (h.leads_back hbc)

/-- Redirecting an element to which nothing leads closes no cycle. -/
theorem acyclic_of_leaf (h : Redirected R S c p) (hR : Acyclic R) (hne : p ≠ c)
    (hleaf : ∀ a, ¬ R a c) : Acyclic S := by
  rw [h.acyclic_iff hR]
  intro path
  rcases path.cases_tail with heq | ⟨a, -, hac⟩
  · exact hne heq.symm
  · exact hleaf a hac

end Redirected

end Links
