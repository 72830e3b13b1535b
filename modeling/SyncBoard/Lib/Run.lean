import Mathlib.Data.List.Basic
import Mathlib.Data.List.Infix

/-!
# Labelled runs of a partial step function

A system is a step function `σ → α → Option σ`: the label names everything
that is not determined by the state (which party moves, which value a clock or
an id generator returns), and `none` says that the label is not enabled.

A safety property of a system is a statement about every state a run passes
through. `allStates_iff_allSteps` compares it with a condition on the states
before the steps: where one step preserves the property exactly when its guard
holds, a whole run keeps the property exactly when all its steps are guarded.
-/

namespace Labelled

variable {σ α : Type*} {step : σ → α → Option σ}

/-- A finite run together with the list of its labels, oldest first. -/
inductive Run (step : σ → α → Option σ) : σ → List α → σ → Prop
  | nil (s : σ) : Run step s [] s
  | snoc {s t u : σ} {as : List α} {a : α} (run : Run step s as t)
      (h : step t a = some u) : Run step s (as ++ [a]) u

/-- The state in which a list of labels ends, if every label is enabled. -/
def exec (step : σ → α → Option σ) : σ → List α → Option σ
  | s, [] => some s
  | s, a :: as => (step s a).bind fun t => exec step t as

theorem exec_append (s : σ) (as bs : List α) :
    exec step s (as ++ bs) = (exec step s as).bind fun t => exec step t bs := by
  induction as generalizing s with
  | nil => rfl
  | cons a as ih =>
      simp only [List.cons_append, exec]
      cases step s a with
      | none => rfl
      | some t => exact ih t

theorem exec_singleton (s : σ) (a : α) : exec step s [a] = step s a := by
  simp only [exec]
  cases step s a <;> rfl

theorem Run.exec_eq {s t : σ} {as : List α} (run : Run step s as t) :
    exec step s as = some t := by
  induction run with
  | nil => rfl
  | snoc _ h ih =>
      rw [exec_append, ih, Option.bind_some, exec_singleton]
      exact h

/-- Executing the labels constructs the run. -/
theorem run_of_exec {s t : σ} {as : List α} (h : exec step s as = some t) :
    Run step s as t := by
  induction as using List.reverseRecOn generalizing t with
  | nil =>
      obtain rfl : s = t := Option.some.inj h
      exact .nil s
  | append_singleton as a ih =>
      rw [exec_append] at h
      obtain ⟨u, hu, ht⟩ := Option.bind_eq_some_iff.mp h
      rw [exec_singleton] at ht
      exact .snoc (ih hu) ht

/-- The labels determine the final state. -/
theorem Run.functional {s t u : σ} {as : List α} (run : Run step s as t)
    (run' : Run step s as u) : t = u :=
  Option.some.inj (run.exec_eq.symm.trans run'.exec_eq)

theorem Run.append {s t u : σ} {as bs : List α} (run : Run step s as t)
    (tail : Run step t bs u) : Run step s (as ++ bs) u := by
  apply run_of_exec
  rw [exec_append, run.exec_eq]
  exact tail.exec_eq

/-- A run over a concatenation passes through a state between the two halves. -/
theorem Run.split {s u : σ} {as bs : List α} (run : Run step s (as ++ bs) u) :
    ∃ t, Run step s as t ∧ Run step t bs u := by
  have h := run.exec_eq
  rw [exec_append] at h
  obtain ⟨t, ht, hu⟩ := Option.bind_eq_some_iff.mp h
  exact ⟨t, run_of_exec ht, run_of_exec hu⟩

/-- A property preserved by every step holds at the end of every run. -/
theorem Run.invariant {I : σ → Prop}
    (hstep : ∀ t a u, I t → step t a = some u → I u)
    {s t : σ} {as : List α} (run : Run step s as t) (hs : I s) : I t := by
  induction run with
  | nil => exact hs
  | snoc _ h ih => exact hstep _ _ _ ih h

/-- A preorder that every step respects relates any two states that runs lead through. -/
theorem pairwise_of_isChain {R : σ → σ → Prop} (hrefl : ∀ s, R s s)
    (htrans : ∀ {s t u}, R s t → R t u → R s u) (hstep : ∀ s a t, step s a = some t → R s t)
    {states : List σ} (h : states.IsChain fun s t => ∃ as, Run step s as t) :
    states.Pairwise R := by
  have hrelation : Trans R R R := ⟨htrans⟩
  have hrun : ∀ s t, (∃ as, Run step s as t) → R s t := by
    rintro s t ⟨as, run⟩
    exact run.invariant (fun _ _ _ ht h => htrans ht (hstep _ _ _ h)) (hrefl s)
  exact (h.imp hrun).pairwise

/-- `P` holds in every state that the labels `as` lead through. -/
def AllStates (step : σ → α → Option σ) (P : σ → Prop) (s : σ) (as : List α) : Prop :=
  ∀ bs t, bs <+: as → Run step s bs t → P t

/-- `G` holds before every step that the labels `as` take. -/
def AllSteps (step : σ → α → Option σ) (G : σ → α → Prop) (s : σ) (as : List α) : Prop :=
  ∀ bs a t, bs ++ [a] <+: as → Run step s bs t → G t a

theorem AllStates.shorten {P : σ → Prop} {s : σ} {as bs : List α}
    (h : AllStates step P s as) (hp : bs <+: as) : AllStates step P s bs :=
  fun cs t hc => h cs t (hc.trans hp)

theorem AllSteps.shorten {G : σ → α → Prop} {s : σ} {as bs : List α}
    (h : AllSteps step G s as) (hp : bs <+: as) : AllSteps step G s bs :=
  fun cs a t hc => h cs a t (hc.trans hp)

/-- The guard of the tail of a run is part of the guard of the whole run. -/
theorem AllSteps.tail {G : σ → α → Prop} {s t : σ} {as bs : List α}
    (h : AllSteps step G s (as ++ bs)) (run : Run step s as t) :
    AllSteps step G t bs := by
  intro cs a u hc hu
  refine h (as ++ cs) a u ?_ (run.append hu)
  rw [List.append_assoc]
  exact (List.prefix_append_right_inj as).mpr hc

theorem allStates_nil {P : σ → Prop} {s : σ} : AllStates step P s [] ↔ P s := by
  constructor
  · exact fun h => h [] s (List.prefix_refl _) (.nil s)
  · intro h bs t hb run
    obtain rfl := List.prefix_nil.mp hb
    exact (Run.nil s).functional run ▸ h

/-- What holds along a run holds at its start and along what follows the first step. -/
theorem allStates_cons {P : σ → Prop} {s : σ} {a : α} {as : List α} :
    AllStates step P s (a :: as) ↔ P s ∧ ∀ t, step s a = some t → AllStates step P t as := by
  constructor
  · intro h
    refine ⟨h [] s List.nil_prefix (.nil s), fun t ht bs u hb run => ?_⟩
    exact h (a :: bs) u ((List.prefix_cons_inj a).mpr hb) (((Run.nil s).snoc ht).append run)
  · rintro ⟨hs, htail⟩ bs u hb run
    cases bs with
    | nil => exact (Run.nil s).functional run ▸ hs
    | cons c bs =>
        rw [List.cons_prefix_cons] at hb
        obtain ⟨rfl, hb⟩ := hb
        have hsplit : Run step s ([c] ++ bs) u := run
        obtain ⟨t, ht, hrest⟩ := hsplit.split
        exact htail t ((exec_singleton s c).symm.trans ht.exec_eq) bs u hb hrest

theorem allSteps_nil {G : σ → α → Prop} {s : σ} : AllSteps step G s [] := by
  intro bs a t hb
  simp at hb

theorem allStates_snoc {P : σ → Prop} {s t u : σ} {as : List α} {a : α}
    (run : Run step s as t) (h : step t a = some u) :
    AllStates step P s (as ++ [a]) ↔ AllStates step P s as ∧ P u := by
  constructor
  · intro hp
    exact ⟨hp.shorten (List.prefix_append _ _),
      hp _ u (List.prefix_refl _) (run.snoc h)⟩
  · rintro ⟨hp, hu⟩ bs v hb hv
    rcases List.prefix_concat_iff.mp hb with rfl | hb
    · exact (run.snoc h).functional hv ▸ hu
    · exact hp bs v hb hv

theorem allSteps_snoc {G : σ → α → Prop} {s t : σ} {as : List α} {a : α}
    (run : Run step s as t) :
    AllSteps step G s (as ++ [a]) ↔ AllSteps step G s as ∧ G t a := by
  constructor
  · intro hg
    exact ⟨hg.shorten (List.prefix_append _ _), hg as a t (List.prefix_refl _) run⟩
  · rintro ⟨hg, ht⟩ bs b v hb hv
    rcases List.prefix_concat_iff.mp hb with heq | hb
    · obtain ⟨rfl, hab⟩ := List.append_inj' heq rfl
      obtain rfl : b = a := by simpa using hab
      exact run.functional hv ▸ ht
    · exact hg bs b v hb hv

/-- A run whose steps are all guarded keeps every property that a guarded step
preserves. -/
theorem Run.guarded {P : σ → Prop} {G : σ → α → Prop}
    (hstep : ∀ t a u, P t → G t a → step t a = some u → P u)
    {s t : σ} {as : List α} (run : Run step s as t) (hs : P s)
    (hg : AllSteps step G s as) : P t := by
  induction run with
  | nil => exact hs
  | snoc run h ih =>
      obtain ⟨hg, ha⟩ := (allSteps_snoc run).mp hg
      exact hstep _ _ _ (ih hg) ha h

/-- The guard of a run is the guard of its first step and of what follows it. -/
theorem allSteps_cons {G : σ → α → Prop} {s : σ} {a : α} {as : List α} :
    AllSteps step G s (a :: as) ↔ G s a ∧ ∀ t, step s a = some t → AllSteps step G t as := by
  constructor
  · intro h
    refine ⟨h [] a s (by simp) (.nil s), fun t ht => ?_⟩
    have hsplit : AllSteps step G s ([a] ++ as) := h
    exact hsplit.tail ((Run.nil s).snoc ht)
  · rintro ⟨ha, htail⟩ bs b t hb run
    cases bs with
    | nil =>
        obtain rfl : b = a := by simpa using hb
        exact (Run.nil s).functional run ▸ ha
    | cons c bs =>
        rw [List.cons_append, List.cons_prefix_cons] at hb
        obtain ⟨rfl, hb⟩ := hb
        have hsplit : Run step s ([c] ++ bs) t := run
        obtain ⟨u, hu, hrest⟩ := hsplit.split
        exact htail u ((exec_singleton s c).symm.trans hu.exec_eq) bs b t hb hrest

instance decidableAllStates {P : σ → Prop} [∀ s, Decidable (P s)] :
    ∀ (as : List α) (s : σ), Decidable (AllStates step P s as)
  | [], _ => decidable_of_iff _ allStates_nil.symm
  | a :: as, s =>
      have := decidableAllStates (P := P) as
      decidable_of_iff (P s ∧ ∀ t ∈ step s a, AllStates step P t as) allStates_cons.symm

instance decidableAllSteps {G : σ → α → Prop} [∀ s a, Decidable (G s a)] :
    ∀ (as : List α) (s : σ), Decidable (AllSteps step G s as)
  | [], _ => .isTrue allSteps_nil
  | a :: as, s =>
      have := decidableAllSteps (G := G) as
      decidable_of_iff (G s a ∧ ∀ t ∈ step s a, AllSteps step G t as) allSteps_cons.symm

/-- Where every state of a rank offers a step which, if it succeeds, leads to a state of
lower rank, the steps on offer do not all succeed. -/
theorem exists_refused {I : Nat → σ → Prop} {G S : σ → α → Prop}
    (hoffer : ∀ n s, I n s → ∃ a, G s a ∧
      (S s a → ∃ t m, step s a = some t ∧ m < n ∧ I m t)) {n : Nat} {s : σ} (hs : I n s) :
    ∃ as, AllSteps step G s as ∧ ¬ AllSteps step S s as := by
  induction n using Nat.strong_induction_on generalizing s with
  | _ n ih =>
      obtain ⟨a, hg, hnext⟩ := hoffer n s hs
      by_cases hsucceeds : S s a
      · obtain ⟨t, m, ht, hm, hI⟩ := hnext hsucceeds
        obtain ⟨as, hall, hnot⟩ := ih m hm hI
        refine ⟨a :: as, allSteps_cons.mpr ⟨hg, fun u hu => ?_⟩, fun h => hnot ?_⟩
        · obtain rfl := Option.some.inj (ht.symm.trans hu)
          exact hall
        · exact (allSteps_cons.mp h).2 t ht
      · exact ⟨[a], allSteps_cons.mpr ⟨hg, fun _ _ => allSteps_nil⟩,
          fun h => hsucceeds (allSteps_cons.mp h).1⟩

/-- Some guarded run leads from `s` to `t`. -/
def Reaches (step : σ → α → Option σ) (G : σ → α → Prop) (s t : σ) : Prop :=
  ∃ as, Run step s as t ∧ AllSteps step G s as

theorem Reaches.refl {G : σ → α → Prop} (s : σ) : Reaches step G s s :=
  ⟨[], .nil s, allSteps_nil⟩

theorem Reaches.snoc {G : σ → α → Prop} {s t u : σ} (h : Reaches step G s t) {a : α}
    (hstep : step t a = some u) (hg : G t a) : Reaches step G s u := by
  obtain ⟨as, run, hall⟩ := h
  exact ⟨as ++ [a], run.snoc hstep, (allSteps_snoc run).mpr ⟨hall, hg⟩⟩

/-- A preorder that every guarded step respects relates the ends of a guarded run. -/
theorem Run.related {I : σ → Prop} {G : σ → α → Prop} {R : σ → σ → Prop}
    (hrefl : ∀ s, R s s) (htrans : ∀ s t u, R s t → R t u → R s u)
    (hstep : ∀ t a u, I t → G t a → step t a = some u → I u ∧ R t u)
    {s t : σ} {as : List α} (run : Run step s as t) (hs : I s)
    (hg : AllSteps step G s as) : I t ∧ R s t := by
  induction run with
  | nil => exact ⟨hs, hrefl _⟩
  | snoc run h ih =>
      obtain ⟨hg, ha⟩ := (allSteps_snoc run).mp hg
      obtain ⟨ht, hst⟩ := ih hg
      obtain ⟨hu, htu⟩ := hstep _ _ _ ht ha h
      exact ⟨hu, htrans _ _ _ hst htu⟩

/-- In the runs whose steps satisfy `H`, with the invariant `I` in the background, a
guard that decides exactly whether one step keeps `P` decides whether a whole run
does. -/
theorem allStates_iff_allSteps_of {I P : σ → Prop} {G H : σ → α → Prop}
    (hI : ∀ t a u, I t → H t a → step t a = some u → I u)
    (hG : ∀ t a u, I t → H t a → P t → step t a = some u → (P u ↔ G t a))
    {s t : σ} {as : List α} (run : Run step s as t) (hH : AllSteps step H s as)
    (hIs : I s) (hPs : P s) :
    AllStates step P s as ↔ AllSteps step G s as := by
  induction run with
  | nil => exact iff_of_true (allStates_nil.mpr hPs) allSteps_nil
  | @snoc t u as a run h ih =>
      obtain ⟨hbefore, ha⟩ := (allSteps_snoc run).mp hH
      rw [allStates_snoc run h, allSteps_snoc run, ih hbefore]
      refine and_congr_right fun hg => ?_
      have hPt : P t := (ih hbefore).mpr hg as t (List.prefix_refl _) run
      exact hG t a u (run.guarded hI hIs hbefore) ha hPt h

/-- With the invariant `I` in the background, a guard that decides exactly
whether one step keeps `P` decides whether a whole run does. -/
theorem allStates_iff_allSteps {I P : σ → Prop} {G : σ → α → Prop}
    (hI : ∀ t a u, I t → step t a = some u → I u)
    (hG : ∀ t a u, I t → P t → step t a = some u → (P u ↔ G t a))
    {s t : σ} {as : List α} (run : Run step s as t) (hIs : I s) (hPs : P s) :
    AllStates step P s as ↔ AllSteps step G s as :=
  allStates_iff_allSteps_of (H := fun _ _ => True) (fun t a u ht _ => hI t a u ht)
    (fun t a u ht _ => hG t a u ht) run (fun _ _ _ _ _ => trivial) hIs hPs

/-- With the invariant `I` in the background, a guard that decides exactly whether one
step keeps `P` and satisfies `G` decides whether a whole run does. -/
theorem allStates_and_allSteps_iff {I P : σ → Prop} {G C : σ → α → Prop}
    (hI : ∀ t a u, I t → step t a = some u → I u)
    (hC : ∀ t a u, I t → P t → step t a = some u → (P u ∧ G t a ↔ C t a))
    {s t : σ} {as : List α} (run : Run step s as t) (hIs : I s) (hPs : P s) :
    AllStates step P s as ∧ AllSteps step G s as ↔ AllSteps step C s as := by
  induction run with
  | nil => exact iff_of_true ⟨allStates_nil.mpr hPs, allSteps_nil⟩ allSteps_nil
  | @snoc t u as a run h ih =>
      rw [allStates_snoc run h, allSteps_snoc run, allSteps_snoc run, ← ih, and_and_and_comm]
      refine and_congr_right fun hbefore => ?_
      have hPt : P t := hbefore.1 as t (List.prefix_refl _) run
      exact hC t a u (run.invariant hI hIs) hPt h

/-- With an invariant that the steps of a run keep, two conditions that agree on
each step agree on the run. -/
theorem AllSteps.congr {I : σ → Prop} {H G C : σ → α → Prop}
    (hI : ∀ t a u, I t → H t a → step t a = some u → I u)
    (hG : ∀ t a, I t → H t a → (G t a ↔ C t a))
    {s : σ} {as : List α} (hs : I s) (hH : AllSteps step H s as) :
    AllSteps step G s as ↔ AllSteps step C s as := by
  have hagree : ∀ bs a t, bs ++ [a] <+: as → Run step s bs t → (G t a ↔ C t a) := by
    intro bs a t hb run
    have hbs : AllSteps step H s bs := hH.shorten ((List.prefix_append bs [a]).trans hb)
    exact hG t a (run.guarded hI hs hbs) (hH bs a t hb run)
  constructor
  · intro h bs a t hb run
    exact (hagree bs a t hb run).mp (h bs a t hb run)
  · intro h bs a t hb run
    exact (hagree bs a t hb run).mpr (h bs a t hb run)

/-- The system with a history variable: it records the steps, and no step reads it. -/
def track {η : Type*} (step : σ → α → Option σ) (record : η → σ → α → η) (p : σ × η) (a : α) :
    Option (σ × η) :=
  (step p.1 a).map fun t => (t, record p.2 p.1 a)

theorem track_eq_some {η : Type*} {record : η → σ → α → η} {p q : σ × η} {a : α} :
    track step record p a = some q ↔ step p.1 a = some q.1 ∧ q.2 = record p.2 p.1 a := by
  rw [track, Option.map_eq_some_iff]
  constructor
  · rintro ⟨t, ht, rfl⟩
    exact ⟨ht, rfl⟩
  · intro h
    exact ⟨q.1, h.1, by rw [← h.2]⟩

/-- A run with a history is a run. -/
theorem Run.of_track {η : Type*} {record : η → σ → α → η} {p q : σ × η} {as : List α}
    (run : Run (Labelled.track step record) p as q) : Run step p.1 as q.1 := by
  induction run with
  | nil => exact .nil _
  | snoc _ h ih => exact ih.snoc (track_eq_some.mp h).1

/-- Every run has a history. -/
theorem Run.track {η : Type*} {s t : σ} {as : List α} (run : Run step s as t)
    (record : η → σ → α → η) (h : η) :
    ∃ h', Run (Labelled.track step record) (s, h) as (t, h') := by
  induction run with
  | nil => exact ⟨h, .nil _⟩
  | snoc _ hstep ih =>
      obtain ⟨h', run'⟩ := ih
      exact ⟨_, run'.snoc (track_eq_some.mpr ⟨hstep, rfl⟩)⟩

end Labelled
