import Mathlib.Data.List.Basic

/-!
# Fallible actions on a state

An action reads and writes a state and returns a value or throws. What it wrote
before it throws stays written: nothing is rolled back unless the action says
so. `Returns` and `Throws` are the two outcomes; each way of building actions
has one inversion lemma for a return. `Clean` says that a throw leaves the
state as it was: a run of reads and checks is clean, and stays clean when its
one write comes after them and nothing that can throw comes after the write.
-/

namespace Fallible

/-- Actions over a state `σ` that throw errors of type `ε`. -/
abbrev Action (σ ε : Type) := ExceptT ε (StateM σ)

variable {σ ε α β : Type}

/-- An action given by its outcome and the state it leaves. -/
def ofRun (f : σ → Except ε α × σ) : Action σ ε α :=
  ExceptT.mk f

/-- The outcome of an action and the state it leaves. -/
def exec (x : Action σ ε α) (s : σ) : Except ε α × σ :=
  x.run.run s

/-- The action returns `a` and leaves the state `t`. -/
def Returns (x : Action σ ε α) (s : σ) (a : α) (t : σ) : Prop :=
  exec x s = (.ok a, t)

/-- The action throws `e` and leaves the state `t`. -/
def Throws (x : Action σ ε α) (s : σ) (e : ε) (t : σ) : Prop :=
  exec x s = (.error e, t)

/-- Two steps of which either may be refused. -/
theorem bind_eq_ok {x : Except ε α} {f : α → Except ε β} {b : β} :
    x >>= f = .ok b ↔ ∃ a, x = .ok a ∧ f a = .ok b := by
  cases x with
  | error e => simp [bind, Except.bind]
  | ok a => simp [bind, Except.bind]

theorem mapError_eq_ok {δ : Type} {x : Except δ α} {f : δ → ε} {a : α} :
    x.mapError f = .ok a ↔ x = .ok a := by
  cases x <;> simp [Except.mapError]

/-- A value read off the state. -/
def query (f : σ → α) : Action σ ε α :=
  ofRun fun s => (.ok (f s), s)

/-- A value read off the state; an error where there is none. -/
def demand (f : σ → Option α) (e : ε) : Action σ ε α :=
  ofRun fun s =>
    match f s with
    | some a => (.ok a, s)
    | none => (.error e, s)

/-- Go on only where a condition on the state holds. -/
def check (p : σ → Bool) (e : ε) : Action σ ε Unit :=
  ofRun fun s => if p s = true then (.ok (), s) else (.error e, s)

/-- Write the state, or throw without writing. -/
def commit (f : σ → Except ε (α × σ)) : Action σ ε α :=
  ofRun fun s =>
    match f s with
    | .ok (a, t) => (.ok a, t)
    | .error e => (.error e, s)

/-- Rewrite the state. -/
def record (f : σ → σ) : Action σ ε Unit :=
  ofRun fun s => (.ok (), f s)

/-- Reading a value and asking that there is one is one step. -/
theorem query_bind_demand (f : σ → Option α) (e : ε) :
    (query f >>= fun a => demand (fun _ => a) e : Action σ ε α) = demand f e := by
  funext s
  change exec (demand (fun _ => f s) e) s = exec (demand f e) s
  rfl

/-- Reading a value and checking it is one step. -/
theorem query_bind_check (f : σ → α) (p : α → Bool) (e : ε) :
    (query f >>= fun a => check (fun _ => p a) e : Action σ ε Unit) =
      check (fun s => p (f s)) e := rfl

theorem exec_bind (x : Action σ ε α) (f : α → Action σ ε β) (s : σ) :
    exec (x >>= f) s =
      match exec x s with
      | (.ok a, u) => exec (f a) u
      | (.error e, u) => (.error e, u) := by
  have hrun : exec (x >>= f) s =
      exec (ExceptT.mk (match (exec x s).1 with
        | .ok a => (f a).run
        | .error e => pure (.error e))) (exec x s).2 := rfl
  rw [hrun]
  rcases exec x s with ⟨e | a, u⟩ <;> rfl

@[simp] theorem returns_pure {a b : α} {s t : σ} :
    Returns (pure a : Action σ ε α) s b t ↔ a = b ∧ s = t := by
  change (Except.ok a, s) = (Except.ok b, t) ↔ _
  simp

@[simp] theorem returns_throw {e : ε} {b : α} {s t : σ} :
    ¬ Returns (throw e : Action σ ε α) s b t := by
  intro h
  cases h

/-- An action followed by another returns where both do. -/
@[simp] theorem returns_bind {x : Action σ ε α} {f : α → Action σ ε β} {s t : σ} {b : β} :
    Returns (x >>= f) s b t ↔ ∃ a u, Returns x s a u ∧ Returns (f a) u b t := by
  rw [Returns, exec_bind]
  rcases hx : exec x s with ⟨e | a, u⟩ <;> simp [Returns, hx]

/-- An action followed by another throws where the first does, or the second
after the first returned. -/
theorem throws_bind {x : Action σ ε α} {f : α → Action σ ε β} {s t : σ} {e : ε} :
    Throws (x >>= f) s e t ↔
      Throws x s e t ∨ ∃ a u, Returns x s a u ∧ Throws (f a) u e t := by
  rw [Throws, exec_bind]
  rcases hx : exec x s with ⟨e | a, u⟩ <;> simp [Throws, Returns, hx]

@[simp] theorem returns_query {f : σ → α} {a : α} {s t : σ} :
    Returns (query f : Action σ ε α) s a t ↔ f s = a ∧ s = t := by
  change (Except.ok (f s), s) = (Except.ok a, t) ↔ _
  simp

@[simp] theorem returns_demand {f : σ → Option α} {e : ε} {a : α} {s t : σ} :
    Returns (demand f e) s a t ↔ f s = some a ∧ s = t := by
  change (match f s with
    | some a => (Except.ok a, s)
    | none => (Except.error e, s)) = (Except.ok a, t) ↔ _
  cases f s <;> simp

@[simp] theorem returns_check {p : σ → Bool} {e : ε} {s t : σ} {u : Unit} :
    Returns (check p e) s u t ↔ p s = true ∧ s = t := by
  change (if p s = true then (Except.ok (), s) else (Except.error e, s)) = (Except.ok u, t) ↔ _
  cases p s <;> simp

@[simp] theorem returns_commit {f : σ → Except ε (α × σ)} {a : α} {s t : σ} :
    Returns (commit f) s a t ↔ f s = .ok (a, t) := by
  change (match f s with
    | .ok (a, t) => (Except.ok a, t)
    | .error e => (Except.error e, s)) = (Except.ok a, t) ↔ _
  rcases f s with e | ⟨b, u⟩ <;> simp

/-- A computation beside the state returns what it yields. -/
theorem returns_commit_map {r : Except ε α} {a : α} {s t : σ} :
    Returns (commit fun s => r.map fun a => (a, s)) s a t ↔ r = .ok a ∧ s = t := by
  cases r <;> simp [Except.map]

theorem throws_commit {f : σ → Except ε (α × σ)} {e : ε} {s : σ} :
    Throws (commit f) s e s ↔ f s = .error e := by
  change (match f s with
    | .ok (a, t) => (Except.ok a, t)
    | .error e => (Except.error e, s)) = (Except.error e, s) ↔ _
  rcases f s with e' | ⟨b, u⟩ <;> simp

@[simp] theorem returns_record {f : σ → σ} {s t : σ} {u : Unit} :
    Returns (record f : Action σ ε Unit) s u t ↔ f s = t := by
  change (Except.ok (), f s) = (Except.ok u, t) ↔ _
  simp

/-- A loop of checks returns where every check does. -/
@[simp] theorem returns_forM_check {p : α → σ → Bool} {e : α → ε} {l : List α} {s t : σ}
    {u : PUnit} :
    Returns (forM l fun a => check (p a) (e a)) s u t ↔ (∀ a ∈ l, p a s = true) ∧ s = t := by
  induction l generalizing s with
  | nil =>
      simp
  | cons a l ih =>
      simp [ih, and_assoc]

/-- A fold of steps that all succeed under an invariant succeeds and keeps it. -/
theorem foldlM_ok {f : σ → α → Except ε σ} {inv : σ → Prop} {l : List α}
    (hstep : ∀ a ∈ l, ∀ s, inv s → ∃ t, f s a = .ok t ∧ inv t) {s : σ} (hs : inv s) :
    ∃ t, l.foldlM f s = .ok t ∧ inv t := by
  induction l generalizing s with
  | nil =>
      exact ⟨s, rfl, hs⟩
  | cons a l ih =>
      obtain ⟨u, hu, hinv⟩ := hstep a (by simp) s hs
      obtain ⟨t, ht, htinv⟩ := ih (fun b hb => hstep b (by simp [hb])) hinv
      refine ⟨t, ?_, htinv⟩
      rw [List.foldlM_cons, hu]
      exact ht

/-- A fold of steps that keep an invariant where they succeed keeps it. -/
theorem foldlM_keeps {f : σ → α → Except ε σ} {I : σ → Prop}
    (hstep : ∀ a s t, I s → f s a = .ok t → I t) {l : List α} {s t : σ}
    (h : l.foldlM f s = .ok t) (hs : I s) : I t := by
  induction l generalizing s with
  | nil =>
      obtain rfl : s = t := Except.ok.inj h
      exact hs
  | cons a l ih =>
      rw [List.foldlM_cons, bind_eq_ok] at h
      obtain ⟨u, hu, h⟩ := h
      exact ih h (hstep a s u hs hu)

/-- The action only reads. -/
def Reads (x : Action σ ε α) : Prop :=
  ∀ s, (exec x s).2 = s

/-- A throw leaves the state as it was. -/
def Clean (x : Action σ ε α) : Prop :=
  ∀ s e t, Throws x s e t → t = s

/-- The action never throws. -/
def Total (x : Action σ ε α) : Prop :=
  ∀ s e t, ¬ Throws x s e t

namespace Reads
variable {x : Action σ ε α} {f : α → Action σ ε β}

theorem of_returns (h : Reads x) {s t : σ} {a : α} (hx : Returns x s a t) : t = s := by
  have hs := h s
  rw [hx] at hs
  exact hs

theorem clean (h : Reads x) : Clean x := by
  intro s e t hx
  have hs := h s
  rw [hx] at hs
  exact hs

theorem pure (a : α) : Reads (pure a : Action σ ε α) := fun _ => rfl

theorem throw (e : ε) : Reads (throw e : Action σ ε α) := fun _ => rfl

theorem query (f : σ → α) : Reads (query f : Action σ ε α) := fun _ => rfl

theorem demand (f : σ → Option α) (e : ε) : Reads (demand f e) := by
  intro s
  change (match f s with
    | some a => (Except.ok a, s)
    | none => (Except.error e, s)).2 = s
  cases f s <;> rfl

theorem check (p : σ → Bool) (e : ε) : Reads (check p e) := by
  intro s
  change (if p s = true then (Except.ok (), s) else (Except.error e, s)).2 = s
  split <;> rfl

theorem commit_map (r : Except ε α) :
    Reads (commit fun s => r.map fun a => (a, s) : Action σ ε α) := by
  intro s
  cases r <;> rfl

theorem bind (hx : Reads x) (hf : ∀ a, Reads (f a)) : Reads (x >>= f) := by
  intro s
  have hs := hx s
  rw [exec_bind]
  rcases he : exec x s with ⟨e | a, u⟩
  · rw [he] at hs
    exact hs
  · rw [he] at hs
    exact (hf a u).trans hs

theorem forM (l : List α) {f : α → Action σ ε PUnit} (hf : ∀ a, Reads (f a)) :
    Reads (forM l f) := by
  induction l with
  | nil =>
      exact pure _
  | cons a l ih =>
      rw [List.forM_cons]
      exact bind (hf a) fun _ => ih

/-- What throws after a read throws on the state that was read. -/
theorem throws_bind (hx : Reads x) {s t : σ} {e : ε} (h : Throws (x >>= f) s e t) :
    t = s ∨ ∃ a, Returns x s a s ∧ Throws (f a) s e t := by
  rcases Fallible.throws_bind.mp h with hfirst | ⟨a, u, hu, hrest⟩
  · exact .inl (hx.clean s e t hfirst)
  · obtain rfl := hx.of_returns hu
    exact .inr ⟨a, hu, hrest⟩

end Reads

namespace Total
variable {x : Action σ ε α}

theorem clean (h : Total x) : Clean x := fun s e t hx => absurd hx (h s e t)

theorem pure (a : α) : Total (pure a : Action σ ε α) := by
  intro s e t h
  cases h

theorem record (f : σ → σ) : Total (record f : Action σ ε Unit) := by
  intro s e t h
  cases h

theorem bind {f : α → Action σ ε β} (hx : Total x) (hf : ∀ a, Total (f a)) :
    Total (x >>= f) := by
  intro s e t h
  rcases throws_bind.mp h with h | ⟨a, u, -, h⟩
  · exact hx s e t h
  · exact hf a u e t h

end Total

namespace Clean
variable {x : Action σ ε α} {f : α → Action σ ε β}

theorem commit (f : σ → Except ε (α × σ)) : Clean (commit f) := by
  intro s e t h
  change (match f s with
    | .ok (a, t) => (Except.ok a, t)
    | .error e => (Except.error e, s)) = (Except.error e, t) at h
  cases hf : f s with
  | error e' =>
      simp only [hf, Prod.mk.injEq] at h
      exact h.2.symm
  | ok r =>
      simp [hf] at h

/-- Reads in front of a clean action. -/
theorem after_reads (hx : Reads x) (hf : ∀ a, Clean (f a)) : Clean (x >>= f) := by
  intro s e t h
  rcases throws_bind.mp h with h | ⟨a, u, hu, h⟩
  · exact hx.clean s e t h
  · exact (hf a u e t h).trans (hx.of_returns hu)

/-- A clean action in front of one that never throws. -/
theorem before_total (hx : Clean x) (hf : ∀ a, Total (f a)) : Clean (x >>= f) := by
  intro s e t h
  rcases throws_bind.mp h with h | ⟨a, u, -, h⟩
  · exact hx s e t h
  · exact absurd h (hf a u e t)

end Clean

end Fallible
