import SyncBoard.Basic
import SyncBoard.Lib.Decimal
import Mathlib.Data.List.GetD

/-!
# Collaborator colours

`hashUserId` and `assignCollaboratorColor`. The palette is probed from where the hash points,
round its end, so a free colour of the palette is found if there is one. If there is none, the
hue depends on the hash alone, and nothing compares it with the colours that are taken.

## Implementation notes

A user id is its text here, because it is hashed. The hue is computed in thousandths, exactly;
in floating point it is off by far less than what rounding to a whole number leaves.
-/

namespace SyncBoard

open Decimal

/-- `COLLABORATOR_COLORS`. -/
def collaboratorColors : List JsString :=
  ["#E11D48", "#2563EB", "#059669", "#D97706", "#7C3AED", "#0891B2", "#DB2777", "#4F46E5",
    "#EA580C", "#16A34A", "#9333EA", "#0284C7", "#CA8A04", "#65A30D", "#0D9488", "#C026D3"].map js

/-- FNV-1a in 32 bits: one character. -/
def hashStep (hash : BitVec 32) (c : Nat) : BitVec 32 :=
  (hash ^^^ BitVec.ofNat 32 c) * 16777619#32

def hashUserId (userId : JsString) : Nat :=
  (userId.foldl hashStep 2166136261#32).toNat

/-- `COLLABORATOR_COLORS[colorIdx]`. -/
def paletteColor (colorIdx : Nat) : JsString :=
  collaboratorColors.getD colorIdx []

/-- The loop: where it stops and after how many attempts, of which so many are left. -/
def probe (takenColors : List JsString) : Nat → Nat → Nat → Nat × Nat
  | 0, colorIdx, attempts => (colorIdx, attempts)
  | left + 1, colorIdx, attempts =>
      if paletteColor colorIdx ∈ takenColors then
        probe takenColors left ((colorIdx + 1) % collaboratorColors.length) (attempts + 1)
      else (colorIdx, attempts)

/-- `Math.round((hash + attempts * 137.508) % 360)`. -/
def goldenHue (hash attempts : Nat) : Nat :=
  ((1000 * hash + 137508 * attempts) % 360000 + 500) / 1000

def hslColor (hue : Nat) : JsString :=
  js "hsl(" ++ decimal hue ++ js ", 75%, 50%)"

def assignCollaboratorColor (userId : JsString) (takenColors : List JsString) : JsString :=
  let hash := hashUserId userId
  let stop := probe takenColors collaboratorColors.length (hash % collaboratorColors.length) 0
  if paletteColor stop.1 ∈ takenColors then hslColor (goldenHue hash stop.2)
  else paletteColor stop.1

/-- The colour of a user for whom no colour of the palette is left. -/
def fallbackColor (userId : JsString) : JsString :=
  hslColor ((hashUserId userId + 40) % 360)

/-- Two hashes that point to the same degree of the colour circle. -/
def SameHue (a b : JsString) : Prop :=
  hashUserId a % 360 = hashUserId b % 360

instance (a b : JsString) : Decidable (SameHue a b) :=
  inferInstanceAs (Decidable (_ = _))

/-- A colour that a user can be assigned. -/
def OwnColor (userId color : JsString) : Prop :=
  color ∈ collaboratorColors ∨ color = fallbackColor userId

theorem length_collaboratorColors : collaboratorColors.length = 16 := rfl

/-- After all attempts, the hue is the hash, turned by 40 degrees. -/
theorem goldenHue_sixteen (hash : Nat) : goldenHue hash 16 = (hash + 40) % 360 := by
  rw [goldenHue]
  omega

section Probe
variable {taken : List JsString}

/-- Where the loop stops at a colour that is taken, it has seen all of them taken, one after
the other. -/
theorem probe_taken {left colorIdx attempts : Nat} (hidx : colorIdx < 16)
    (h : paletteColor (probe taken left colorIdx attempts).1 ∈ taken) :
    (probe taken left colorIdx attempts).2 = attempts + left ∧
      ∀ k < left, paletteColor ((colorIdx + k) % 16) ∈ taken := by
  induction left generalizing colorIdx attempts with
  | zero => exact ⟨rfl, fun k hk => absurd hk (Nat.not_lt_zero k)⟩
  | succ left ih =>
      rw [probe, length_collaboratorColors] at h ⊢
      split at h
      next htaken =>
        rw [if_pos htaken]
        obtain ⟨hattempts, hall⟩ := ih (Nat.mod_lt _ (by decide)) h
        refine ⟨by omega, fun k hk => ?_⟩
        cases k with
        | zero => rwa [Nat.add_zero, Nat.mod_eq_of_lt hidx]
        | succ k =>
            have hnext := hall k (Nat.lt_of_succ_lt_succ hk)
            rw [Nat.mod_add_mod] at hnext
            rwa [show colorIdx + (k + 1) = colorIdx + 1 + k by omega]
      next hfree => exact absurd h hfree

theorem mem_collaboratorColors {color : JsString} :
    color ∈ collaboratorColors ↔ ∃ i < 16, paletteColor i = color := by
  constructor
  · intro h
    obtain ⟨i, hi, rfl⟩ := List.getElem_of_mem h
    exact ⟨i, hi, List.getD_eq_getElem _ _ hi⟩
  · rintro ⟨i, hi, rfl⟩
    rw [paletteColor, List.getD_eq_getElem _ _ hi]
    exact List.getElem_mem hi

theorem probe_lt {left colorIdx attempts : Nat} (hidx : colorIdx < 16) :
    (probe taken left colorIdx attempts).1 < 16 := by
  induction left generalizing colorIdx attempts with
  | zero => exact hidx
  | succ left ih =>
      rw [probe]
      split
      · exact ih (Nat.mod_lt _ (by decide))
      · exact hidx

end Probe

/-- A colour that is taken is assigned only where all colours of the palette are, and then it
is the one that depends on the hash alone. -/
theorem assignCollaboratorColor_cases (userId : JsString) (taken : List JsString) :
    ((∃ color ∈ collaboratorColors, color ∉ taken) ∧
      assignCollaboratorColor userId taken ∉ taken) ∨
    ((∀ color ∈ collaboratorColors, color ∈ taken) ∧
      assignCollaboratorColor userId taken = fallbackColor userId) := by
  have hstart : hashUserId userId % 16 < 16 := Nat.mod_lt _ (by decide)
  rw [assignCollaboratorColor, length_collaboratorColors]
  split
  next htaken =>
    obtain ⟨hattempts, hall⟩ := probe_taken hstart htaken
    refine .inr ⟨fun color hcolor => ?_, ?_⟩
    · obtain ⟨i, hi, rfl⟩ := mem_collaboratorColors.mp hcolor
      -- the index is as far from the start, going round
      have hround := hall ((i + 16 - hashUserId userId % 16) % 16) (Nat.mod_lt _ (by decide))
      rwa [show (hashUserId userId % 16 + (i + 16 - hashUserId userId % 16) % 16) % 16 = i by
        omega] at hround
    · rw [hattempts, Nat.zero_add, goldenHue_sixteen, fallbackColor]
  next hfree =>
    exact .inl ⟨⟨_, mem_collaboratorColors.mpr ⟨_, probe_lt hstart, rfl⟩, hfree⟩, hfree⟩

theorem ownColor_assignCollaboratorColor (userId : JsString) (taken : List JsString) :
    OwnColor userId (assignCollaboratorColor userId taken) := by
  have hstart : hashUserId userId % 16 < 16 := Nat.mod_lt _ (by decide)
  rw [assignCollaboratorColor, length_collaboratorColors]
  split
  next htaken =>
    obtain ⟨hattempts, -⟩ := probe_taken hstart htaken
    right
    rw [hattempts, Nat.zero_add, goldenHue_sixteen, fallbackColor]
  next => exact .inl (mem_collaboratorColors.mpr ⟨_, probe_lt hstart, rfl⟩)

section Fallback
variable {a b color : JsString}

theorem hslColor_injective : Function.Injective hslColor := by
  intro hue other h
  rw [hslColor, hslColor, List.append_left_inj, List.append_right_inj] at h
  rw [← value_decimal hue, h, value_decimal]

theorem fallbackColor_eq_iff : fallbackColor a = fallbackColor b ↔ SameHue a b := by
  rw [fallbackColor, fallbackColor, hslColor_injective.eq_iff, SameHue]
  omega

/-- A colour of the palette starts with another character than a hue. -/
theorem fallbackColor_notMem : fallbackColor a ∉ collaboratorColors := by
  intro hmem
  have hpalette : ∀ color ∈ collaboratorColors, color.head? = (js "#").head? := by decide
  have hhead : (fallbackColor a).head? = (js "#").head? := hpalette _ hmem
  have hhue : (fallbackColor a).head? = (js "hsl(").head? := rfl
  exact absurd (hhue.symm.trans hhead) (by decide)

/-- The colour of one user is the hue of another only off the palette. -/
theorem OwnColor.eq_fallbackColor_iff (h : OwnColor a color) :
    color = fallbackColor b ↔ color ∉ collaboratorColors ∧ SameHue a b := by
  constructor
  · rintro rfl
    rcases h with hmem | heq
    · exact absurd hmem fallbackColor_notMem
    · exact ⟨fallbackColor_notMem, fallbackColor_eq_iff.mp heq.symm⟩
  · rintro ⟨hmem, hhue⟩
    exact (h.resolve_left hmem).trans (fallbackColor_eq_iff.mpr hhue)

end Fallback

end SyncBoard
