import SyncBoard.Lib.Action
import SyncBoard.Lib.Run

/-!
# Calls that interleave at their statements

A program asks statements of a store, one at a time, and ends with a value or an
error. Alone it is an action on the store (`exec`); `Keeps` specifies what it does
then, statement by statement. In a `Pool` many programs run on one store, and any
of them may be the next to have its statement answered; what a program has asked
and been told so far is its log.

`Safe` is the specification of a program among others. It fixes what the others
may do between two of its statements (`later`), what holds of every store
(`inv`), and which statement may be asked after which log (`allowed`). A
`Discipline` closes the circle: where every allowed statement is something the
others put up with, no run of the pool asks a statement that is not allowed.
-/

namespace Interleaved

open Labelled

/-- A statement to ask, with the rest of the program for each answer, or the end. -/
inductive Program (Op : Type) (Ans : Op → Type) (ε α : Type) : Type
  | done (result : Except ε α)
  | await (op : Op) (next : Ans op → Program Op Ans ε α)

/-- Statements with their answers, oldest first. -/
abbrev Log {Op : Type} (Ans : Op → Type) := List (Σ op, Ans op)

variable {Op : Type} {Ans : Op → Type} {ε δ α β : Type}

namespace Program

def bind (p : Program Op Ans ε α) (f : α → Program Op Ans ε β) : Program Op Ans ε β :=
  match p with
  | done (.ok a) => f a
  | done (.error e) => done (.error e)
  | await op next => await op fun a => (next a).bind f

instance : Monad (Program Op Ans ε) where
  pure a := done (.ok a)
  bind := bind

/-- Ask a statement and return its answer. -/
def ask (op : Op) : Program Op Ans ε (Ans op) :=
  await op pure

def fail (e : ε) : Program Op Ans ε α :=
  done (.error e)

/-- Throw where a condition holds. -/
def refuseIf (c : Bool) (e : ε) : Program Op Ans ε Unit :=
  if c then fail e else pure ()

/-- Run a program where a condition holds. -/
def doIf (c : Bool) (p : Program Op Ans ε Unit) : Program Op Ans ε Unit :=
  if c then p else pure ()

/-- The value, or an error where there is none. -/
def demand (a : Option α) (e : ε) : Program Op Ans ε α :=
  match a with
  | some a => pure a
  | none => fail e

/-- The value of a statement that succeeded; its error is thrown on. -/
def orThrow (rejected : δ → ε) (r : Except δ α) : Program Op Ans ε α :=
  match r with
  | .ok a => pure a
  | .error e => fail (rejected e)

section Binds
variable (f : α → Program Op Ans ε β)

@[simp] theorem pure_bind (a : α) : (pure a : Program Op Ans ε α) >>= f = f a := rfl

@[simp] theorem fail_bind (e : ε) : (fail e : Program Op Ans ε α) >>= f = fail e := rfl

@[simp] theorem await_bind (op : Op) (next : Ans op → Program Op Ans ε α) :
    await op next >>= f = await op fun a => next a >>= f := rfl

theorem ask_bind (op : Op) (g : Ans op → Program Op Ans ε β) : ask op >>= g = await op g := rfl

@[simp] theorem refuseIf_false_bind (e : ε) (g : Unit → Program Op Ans ε β) :
    refuseIf false e >>= g = g () := rfl

@[simp] theorem demand_some_bind (a : α) (e : ε) : demand (some a) e >>= f = f a := rfl

@[simp] theorem orThrow_ok_bind (rejected : δ → ε) (a : α) :
    orThrow rejected (.ok a) >>= f = f a := rfl

theorem bind_assoc {γ : Type} (p : Program Op Ans ε α) (g : β → Program Op Ans ε γ) :
    p >>= f >>= g = p >>= fun a => f a >>= g := by
  induction p with
  | done result =>
      cases result <;> rfl
  | await op next ih =>
      rw [await_bind, await_bind, await_bind]
      exact congrArg (await op) (funext ih)

end Binds

/-- Whatever the answers are, only statements of a certain kind are asked. -/
def Only (kind : Op → Prop) : Program Op Ans ε α → Prop
  | done _ => True
  | await op next => kind op ∧ ∀ a, (next a).Only kind

namespace Only
variable {kind : Op → Prop}

theorem pure (a : α) : (pure a : Program Op Ans ε α).Only kind := trivial

theorem fail (e : ε) : (fail e : Program Op Ans ε α).Only kind := trivial

theorem ask {op : Op} (h : kind op) : (ask op : Program Op Ans ε (Ans op)).Only kind :=
  ⟨h, fun _ => trivial⟩

theorem refuseIf (c : Bool) (e : ε) : (refuseIf c e : Program Op Ans ε Unit).Only kind := by
  cases c <;> exact trivial

theorem doIf (c : Bool) {p : Program Op Ans ε Unit} (hp : p.Only kind) :
    (doIf c p).Only kind := by
  cases c with
  | false => exact trivial
  | true => exact hp

theorem demand (a : Option α) (e : ε) : (demand a e : Program Op Ans ε α).Only kind := by
  cases a <;> exact trivial

theorem orThrow (rejected : δ → ε) (r : Except δ α) :
    (orThrow rejected r : Program Op Ans ε α).Only kind := by
  cases r <;> exact trivial

theorem bind {p : Program Op Ans ε α} {f : α → Program Op Ans ε β} (hp : p.Only kind)
    (hf : ∀ a, (f a).Only kind) : (p >>= f).Only kind := by
  induction p with
  | done result =>
      cases result with
      | ok a => exact hf a
      | error e => trivial
  | await op next ih =>
      exact ⟨hp.1, fun a => ih a (hp.2 a)⟩

theorem imp {kind' : Op → Prop} (h : ∀ op, kind op → kind' op) {p : Program Op Ans ε α}
    (hp : p.Only kind) : p.Only kind' := by
  induction p with
  | done result => trivial
  | await op next ih => exact ⟨h op hp.1, fun a => ih a (hp.2 a)⟩

theorem forM {l : List β} {f : β → Program Op Ans ε PUnit} (hf : ∀ b, (f b).Only kind) :
    (forM l f).Only kind := by
  induction l with
  | nil => exact pure _
  | cons b l ih =>
      rw [List.forM_cons]
      exact (hf b).bind fun _ => ih

/-- Every program asks statements. -/
theorem any (p : Program Op Ans ε α) : p.Only fun _ => True := by
  induction p with
  | done result => trivial
  | await op next ih => exact ⟨trivial, ih⟩

end Only

/-- Whatever the answers are, every statement and the program that follows it are as
required. -/
def Everywhere (good : (op : Op) → (Ans op → Program Op Ans ε α) → Prop) :
    Program Op Ans ε α → Prop
  | done _ => True
  | await op next => good op next ∧ ∀ a, (next a).Everywhere good

/-- In front of a program there may be statements that require nothing of what follows. -/
theorem Everywhere.bind {good : (op : Op) → (Ans op → Program Op Ans ε β) → Prop}
    {kind : Op → Prop} (hkind : ∀ op next, kind op → good op next) {p : Program Op Ans ε α}
    {f : α → Program Op Ans ε β} (hp : p.Only kind) (hf : ∀ a, (f a).Everywhere good) :
    (p >>= f).Everywhere good := by
  induction p with
  | done result =>
      cases result with
      | ok a => exact hf a
      | error e => trivial
  | await op next ih =>
      exact ⟨hkind op _ hp.1, fun a => ih a (hp.2 a)⟩

theorem Everywhere.of_only {good : (op : Op) → (Ans op → Program Op Ans ε α) → Prop}
    {kind : Op → Prop} (hkind : ∀ op next, kind op → good op next) {p : Program Op Ans ε α}
    (hp : p.Only kind) : p.Everywhere good := by
  induction p with
  | done result => trivial
  | await op next ih => exact ⟨hkind op next hp.1, fun a => ih a (hp.2 a)⟩

/-- Whatever the answers are, every statement, with what was asked before it and the
program that follows it, is as required. -/
def Throughout (good : Log Ans → (op : Op) → (Ans op → Program Op Ans ε α) → Prop) :
    Program Op Ans ε α → Log Ans → Prop
  | done _, _ => True
  | await op next, log => good log op next ∧ ∀ a, (next a).Throughout good (log ++ [⟨op, a⟩])

theorem Throughout.of_only {good : Log Ans → (op : Op) → (Ans op → Program Op Ans ε α) → Prop}
    {kind : Op → Prop}
    (hkind : ∀ log op next, kind op → (∀ a, (next a).Only kind) → good log op next)
    {p : Program Op Ans ε α} (hp : p.Only kind) (log : Log Ans) : p.Throughout good log := by
  induction p generalizing log with
  | done result => trivial
  | await op next ih => exact ⟨hkind log op next hp.1 hp.2, fun a => ih a (hp.2 a) _⟩

section Via
variable {Op' : Type} {Ans' : Op' → Type} (f : Op → Op') (back : (op : Op) → Ans' (f op) → Ans op)

/-- The program that asks the counterparts of its statements. -/
def via : Program Op Ans ε α → Program Op' Ans' ε α
  | done result => done result
  | await op next => await (f op) fun a => (next (back op a)).via

variable {f back}

theorem via_bind (p : Program Op Ans ε α) (g : α → Program Op Ans ε β) :
    (p >>= g).via f back = p.via f back >>= fun a => (g a).via f back := by
  induction p with
  | done result =>
      cases result <;> rfl
  | await op next ih =>
      rw [await_bind, via, via, await_bind]
      exact congrArg (await (f op)) (funext fun a => ih _)

theorem Only.via {kind : Op → Prop} {kind' : Op' → Prop} (hkind : ∀ op, kind op → kind' (f op))
    {p : Program Op Ans ε α} (hp : p.Only kind) : (p.via f back).Only kind' := by
  induction p with
  | done result => trivial
  | await op next ih => exact ⟨hkind op hp.1, fun a => ih _ (hp.2 _)⟩

end Via

section Alone
variable {σ : Type} (answer : (op : Op) → σ → Ans op × σ)

/-- The outcome of a program that runs without interference, and the store it leaves. -/
def exec : Program Op Ans ε α → σ → Except ε α × σ
  | done result, s => (result, s)
  | await op next, s => (next (answer op s).1).exec (answer op s).2

@[simp] theorem exec_pure (a : α) (s : σ) :
    (pure a : Program Op Ans ε α).exec answer s = (.ok a, s) := rfl

@[simp] theorem exec_fail (e : ε) (s : σ) :
    (fail e : Program Op Ans ε α).exec answer s = (.error e, s) := rfl

theorem exec_await (op : Op) (next : Ans op → Program Op Ans ε α) (s : σ) :
    (await op next).exec answer s = (next (answer op s).1).exec answer (answer op s).2 := rfl

theorem exec_ask_bind {op : Op} {s t : σ} {a : Ans op} (h : answer op s = (a, t))
    (f : Ans op → Program Op Ans ε β) : (ask op >>= f).exec answer s = (f a).exec answer t := by
  rw [ask_bind, exec_await, h]

theorem exec_bind (p : Program Op Ans ε α) (f : α → Program Op Ans ε β) (s : σ) :
    (p >>= f).exec answer s =
      match p.exec answer s with
      | (.ok a, u) => (f a).exec answer u
      | (.error e, u) => (.error e, u) := by
  induction p generalizing s with
  | done result =>
      cases result <;> rfl
  | await op next ih =>
      rw [await_bind, exec_await, ih, exec_await]

/-- The program as an action on the store. -/
def action (p : Program Op Ans ε α) : Fallible.Action σ ε α :=
  Fallible.ofRun (p.exec answer)

theorem action_bind (p : Program Op Ans ε α) (f : α → Program Op Ans ε β) :
    (p >>= f).action answer = p.action answer >>= fun a => (f a).action answer := by
  funext s
  change (p >>= f).exec answer s =
    Fallible.exec (p.action answer >>= fun a => (f a).action answer) s
  have hexec : Fallible.exec (p.action answer) s = p.exec answer s := rfl
  rw [exec_bind, Fallible.exec_bind, hexec]
  rcases p.exec answer s with ⟨e | a, u⟩ <;> rfl

@[simp] theorem action_pure (a : α) :
    (pure a : Program Op Ans ε α).action answer = pure a := rfl

@[simp] theorem action_refuseIf (c : Bool) (e : ε) :
    (refuseIf c e : Program Op Ans ε Unit).action answer = Fallible.check (fun _ => !c) e := by
  cases c <;> rfl

@[simp] theorem action_demand (a : Option α) (e : ε) :
    (demand a e : Program Op Ans ε α).action answer = Fallible.demand (fun _ => a) e := by
  cases a <;> rfl

variable {answer}

/-- A statement that only reads is a query. -/
theorem action_ask_bind {op : Op} {f : σ → Ans op} (h : ∀ s, answer op s = (f s, s))
    (rest : Ans op → Program Op Ans ε α) :
    (ask op >>= rest).action answer =
      Fallible.query f >>= fun a => (rest a).action answer := by
  rw [action_bind]
  congr 1
  funext s
  change (Except.ok (answer op s).1, (answer op s).2) = _
  rw [h s]
  rfl

theorem action_forM (l : List β) (f : β → Program Op Ans ε PUnit) :
    (forM l f).action answer = forM l fun b => (f b).action answer := by
  induction l with
  | nil => rfl
  | cons b l ih =>
      rw [List.forM_cons, List.forM_cons, action_bind]
      simp only [ih]

/-- A statement that writes is a commit, where what refuses it is thrown. -/
theorem action_ask_orThrow {op : Op} {f : σ → Except ε (α × σ)} {result : Ans op → Except δ α}
    {rejected : δ → ε} (hok : ∀ s a t, f s = .ok (a, t) →
      result (answer op s).1 = .ok a ∧ (answer op s).2 = t)
    (herror : ∀ s e, f s = .error e →
      ∃ d, result (answer op s).1 = .error d ∧ rejected d = e ∧ (answer op s).2 = s) :
    (ask op >>= fun r => orThrow rejected (result r)).action answer = Fallible.commit f := by
  funext s
  change (orThrow rejected (result (answer op s).1)).exec answer (answer op s).2 =
    Fallible.exec (Fallible.commit f) s
  cases hf : f s with
  | ok r =>
      obtain ⟨a, t⟩ := r
      obtain ⟨hresult, hstate⟩ := hok s a t hf
      rw [hresult, hstate]
      exact (Fallible.returns_commit.mpr hf).symm
  | error e =>
      obtain ⟨d, hresult, hd, hstate⟩ := herror s e hf
      rw [hresult, hstate]
      change (Except.error (rejected d), s) = _
      rw [hd]
      exact (Fallible.throws_commit.mpr hf).symm

section Via
variable {Op' : Type} {Ans' : Op' → Type} {f : Op → Op'} {back : (op : Op) → Ans' (f op) → Ans op}
variable {τ : Type} {answer' : (op : Op') → τ → Ans' op × τ}

/-- Where the counterpart of a statement is answered alike, on a related store, the
programs end alike. -/
theorem exec_via {R : σ → τ → Prop}
    (hR : ∀ op s t, R s t → back op (answer' (f op) t).1 = (answer op s).1 ∧
      R (answer op s).2 (answer' (f op) t).2)
    (p : Program Op Ans ε α) {s : σ} {t : τ} (h : R s t) :
    ((p.via f back).exec answer' t).1 = (p.exec answer s).1 ∧
      R (p.exec answer s).2 ((p.via f back).exec answer' t).2 := by
  induction p generalizing s t with
  | done result =>
      exact ⟨rfl, h⟩
  | await op next ih =>
      obtain ⟨hans, hnext⟩ := hR op s t h
      have hrest := ih (back op (answer' (f op) t).1) hnext
      rw [hans] at hrest
      rw [Program.via, exec_await, exec_await, hans]
      exact hrest

/-- On the same store, the programs are the same action. -/
theorem action_via {answer' : (op : Op') → σ → Ans' op × σ}
    (h : ∀ op s, back op (answer' (f op) s).1 = (answer op s).1 ∧
      (answer' (f op) s).2 = (answer op s).2)
    (p : Program Op Ans ε α) : (p.via f back).action answer' = p.action answer := by
  funext s
  have hR : ∀ op s t, s = t → back op (answer' (f op) t).1 = (answer op s).1 ∧
      (answer op s).2 = (answer' (f op) t).2 := by
    rintro op s t rfl
    exact ⟨(h op s).1, (h op s).2.symm⟩
  obtain ⟨hresult, hstore⟩ := exec_via hR p (rfl : s = s)
  exact Prod.ext hresult hstore.symm

end Via

end Alone

section Sequential
variable {σ χ : Type} (answer : χ → (op : Op) → σ → Ans op × σ)

/-- An answer that takes from a supply what it needs from outside. -/
def supplied (op : Op) (s : σ × (Nat → χ)) : Ans op × σ × (Nat → χ) :=
  let r := answer (s.2 0) op s.1
  (r.1, r.2, fun n => s.2 (n + 1))

/-- The store that a program leaves which nobody interrupts. -/
def leaves (p : Program Op Ans ε α) (supply : Nat → χ) (s : σ) : σ :=
  (p.exec (supplied answer) (s, supply)).2.1

theorem leaves_ask_bind (op : Op) (f : Ans op → Program Op Ans ε α) (supply : Nat → χ) (s : σ) :
    (ask op >>= f).leaves answer supply s =
      (f (answer (supply 0) op s).1).leaves answer (fun n => supply (n + 1))
        (answer (supply 0) op s).2 := rfl

theorem leaves_pure (a : α) (supply : Nat → χ) (s : σ) :
    (pure a : Program Op Ans ε α).leaves answer supply s = s := rfl

/-- Every statement leaves the invariant, and where the program returns, the
postcondition holds. -/
def Keeps (inv : σ → Prop) : Program Op Ans ε α → σ → (α → σ → Prop) → Prop
  | done (.ok a), s, post => post a s
  | done (.error _), _, _ => True
  | await op next, s, post => ∀ x,
      inv (answer x op s).2 ∧ (next (answer x op s).1).Keeps inv (answer x op s).2 post

variable {answer} {inv : σ → Prop} {p : Program Op Ans ε α} {s : σ} {post : α → σ → Prop}

@[simp] theorem keeps_pure (a : α) :
    (pure a : Program Op Ans ε α).Keeps answer inv s post ↔ post a s :=
  Iff.rfl

@[simp] theorem keeps_fail (e : ε) :
    (fail e : Program Op Ans ε α).Keeps answer inv s post ↔ True :=
  Iff.rfl

theorem keeps_ask_bind {op : Op} {f : Ans op → Program Op Ans ε α} :
    (ask op >>= f).Keeps answer inv s post ↔
      ∀ x, inv (answer x op s).2 ∧
        (f (answer x op s).1).Keeps answer inv (answer x op s).2 post :=
  Iff.rfl

/-- Consecutive programs: the second starts from what the first guarantees. -/
theorem keeps_bind {f : α → Program Op Ans ε β} {post' : β → σ → Prop} :
    (p >>= f).Keeps answer inv s post' ↔
      p.Keeps answer inv s fun a s' => (f a).Keeps answer inv s' post' := by
  induction p generalizing s with
  | done result =>
      cases result <;> exact Iff.rfl
  | await op next ih =>
      rw [await_bind, Keeps, Keeps]
      simp only [ih]

theorem keeps_refuseIf {c : Bool} {e : ε} {post : Unit → σ → Prop} :
    (refuseIf c e : Program Op Ans ε Unit).Keeps answer inv s post ↔ (c = false → post () s) := by
  cases c <;> simp [refuseIf]

theorem keeps_demand {a : Option α} {e : ε} :
    (demand a e : Program Op Ans ε α).Keeps answer inv s post ↔
      ∀ b, a = some b → post b s := by
  cases a <;> simp [demand]

theorem keeps_orThrow {rejected : δ → ε} {r : Except δ α} :
    (orThrow rejected r : Program Op Ans ε α).Keeps answer inv s post ↔
      ∀ b, r = .ok b → post b s := by
  cases r <;> simp [orThrow]

theorem keeps_refuseIf_bind {c : Bool} {e : ε} {f : Unit → Program Op Ans ε α} :
    (refuseIf c e >>= f).Keeps answer inv s post ↔
      (c = false → (f ()).Keeps answer inv s post) := by
  rw [keeps_bind, keeps_refuseIf]

theorem keeps_demand_bind {a : Option β} {e : ε} {f : β → Program Op Ans ε α} :
    (demand a e >>= f).Keeps answer inv s post ↔
      ∀ b, a = some b → (f b).Keeps answer inv s post := by
  rw [keeps_bind, keeps_demand]

/-- A weaker postcondition. -/
theorem Keeps.imp (h : p.Keeps answer inv s post) {post' : α → σ → Prop}
    (hpost : ∀ a t, post a t → post' a t) : p.Keeps answer inv s post' := by
  induction p generalizing s with
  | done result =>
      cases result with
      | ok a => exact hpost a s h
      | error e => trivial
  | await op next ih =>
      intro x
      exact ⟨(h x).1, ih _ (h x).2⟩

/-- Statements of a kind that keeps the invariant, and a frame with it, need no
specification. -/
theorem Keeps.of_only {kind : Op → Prop} (frame : σ → Prop)
    (hkind : ∀ x op t, kind op → inv t → frame t →
      inv (answer x op t).2 ∧ frame (answer x op t).2)
    (hp : p.Only kind) (hs : inv s) (hframe : frame s)
    (hpost : ∀ a t, inv t → frame t → post a t) : p.Keeps answer inv s post := by
  induction p generalizing s with
  | done result =>
      cases result with
      | ok a => exact hpost a s hs hframe
      | error e => trivial
  | await op next ih =>
      intro x
      obtain ⟨hinv, hnext⟩ := hkind x op s hp.1 hs hframe
      exact ⟨hinv, ih _ (hp.2 _) hinv hnext⟩

/-- A program that starts in the invariant ends in it. -/
theorem Keeps.leaves (h : p.Keeps answer inv s post) (hs : inv s) (supply : Nat → χ) :
    inv (p.leaves answer supply s) := by
  induction p generalizing s supply with
  | done result =>
      exact hs
  | await op next ih =>
      obtain ⟨hinv, hnext⟩ := h (supply 0)
      exact ih _ hnext hinv _

variable (answer) in
/-- Whatever is given from outside, the store is as required where the program returns
(`post`) and where it throws (`thrown`); what is between does not matter. -/
def Ends (given : χ → Prop) (thrown : σ → Prop) :
    Program Op Ans ε α → σ → (α → σ → Prop) → Prop
  | done (.ok a), s, post => post a s
  | done (.error _), s, _ => thrown s
  | await op next, s, post => ∀ x, given x →
      (next (answer x op s).1).Ends given thrown (answer x op s).2 post

variable {given : χ → Prop} {thrown : σ → Prop}

@[simp] theorem ends_pure (a : α) :
    (pure a : Program Op Ans ε α).Ends answer given thrown s post ↔ post a s :=
  Iff.rfl

@[simp] theorem ends_fail (e : ε) :
    (fail e : Program Op Ans ε α).Ends answer given thrown s post ↔ thrown s :=
  Iff.rfl

theorem ends_ask {op : Op} {post : Ans op → σ → Prop} :
    (ask op : Program Op Ans ε (Ans op)).Ends answer given thrown s post ↔
      ∀ x, given x → post (answer x op s).1 (answer x op s).2 :=
  Iff.rfl

theorem ends_ask_bind {op : Op} {f : Ans op → Program Op Ans ε α} :
    (ask op >>= f).Ends answer given thrown s post ↔ ∀ x, given x →
      (f (answer x op s).1).Ends answer given thrown (answer x op s).2 post :=
  Iff.rfl

/-- Consecutive programs: the second goes on from where the first ends. -/
theorem ends_bind {f : α → Program Op Ans ε β} {post' : β → σ → Prop} :
    (p >>= f).Ends answer given thrown s post' ↔
      p.Ends answer given thrown s fun a t => (f a).Ends answer given thrown t post' := by
  induction p generalizing s with
  | done result =>
      cases result <;> exact Iff.rfl
  | await op next ih =>
      rw [await_bind, Ends, Ends]
      simp only [ih]

theorem ends_doIf {c : Bool} {q : Program Op Ans ε Unit} {post : Unit → σ → Prop} :
    (doIf c q).Ends answer given thrown s post ↔
      (c = true → q.Ends answer given thrown s post) ∧ (c = false → post () s) := by
  cases c <;> simp [doIf]

theorem ends_refuseIf {c : Bool} {e : ε} {post : Unit → σ → Prop} :
    (refuseIf c e : Program Op Ans ε Unit).Ends answer given thrown s post ↔
      (c = true → thrown s) ∧ (c = false → post () s) := by
  cases c <;> simp [refuseIf]

theorem ends_demand {a : Option α} {e : ε} :
    (demand a e : Program Op Ans ε α).Ends answer given thrown s post ↔
      (a = none → thrown s) ∧ ∀ b, a = some b → post b s := by
  cases a <;> simp [demand]

theorem Ends.imp (h : p.Ends answer given thrown s post) {post' : α → σ → Prop}
    (hpost : ∀ a t, post a t → post' a t) : p.Ends answer given thrown s post' := by
  induction p generalizing s with
  | done result =>
      cases result with
      | ok a => exact hpost a s h
      | error e => exact h
  | await op next ih =>
      intro x hx
      exact ih _ (h x hx)

/-- Statements of a kind that lead from a store to one related to it. -/
theorem Ends.of_only {kind : Op → Prop} {R : σ → σ → Prop} (hrefl : ∀ s, R s s)
    (htrans : ∀ r s t, R r s → R s t → R r t)
    (hkind : ∀ x op s, kind op → R s (answer x op s).2) (hp : p.Only kind)
    (hthrown : ∀ t, R s t → thrown t) (hpost : ∀ a t, R s t → post a t) :
    p.Ends answer given thrown s post := by
  induction p generalizing s with
  | done result =>
      cases result with
      | ok a => exact hpost a s (hrefl s)
      | error e => exact hthrown s (hrefl s)
  | await op next ih =>
      intro x _
      have hfirst := hkind x op s hp.1
      exact ih _ (hp.2 _) (fun t ht => hthrown t (htrans _ _ _ hfirst ht))
        fun a t ht => hpost a t (htrans _ _ _ hfirst ht)

/-- What holds wherever a program ends holds of the store that it leaves. -/
theorem Ends.leaves {I : σ → Prop} {supply : Nat → χ} (hsupply : ∀ n, given (supply n))
    (h : p.Ends answer given I s fun _ t => I t) : I (p.leaves answer supply s) := by
  induction p generalizing s supply with
  | done result =>
      cases result <;> exact h
  | await op next ih =>
      exact ih _ (fun n => hsupply (n + 1)) (h (supply 0) (hsupply 0))

/-- The same, whatever the supply. -/
theorem Ends.leaves_any {I : σ → Prop} {supply : Nat → χ}
    (h : p.Ends answer (fun _ => True) I s fun _ t => I t) : I (p.leaves answer supply s) :=
  h.leaves fun _ => trivial

end Sequential

section Among
variable {σ χ : Type} (answer : χ → (op : Op) → σ → Ans op × σ)
variable (later : σ → σ → Prop) (inv : σ → Prop) (allowed : σ → Log Ans → Op → Prop)

/-- Every statement that the program asks is allowed, whatever the others did
since the one before; where it returns, the postcondition holds. -/
def Safe : Program Op Ans ε α → Log Ans → σ → (α → Log Ans → σ → Prop) → Prop
  | done (.ok a), log, s, post => post a log s
  | done (.error _), _, _, _ => True
  | await op next, log, s, post => ∀ t, later s t → inv t → allowed t log op ∧ ∀ x,
      (next (answer x op t).1).Safe (log ++ [⟨op, (answer x op t).1⟩]) (answer x op t).2 post

variable {answer later inv allowed}
variable {p : Program Op Ans ε α} {log : Log Ans} {s t : σ} {post : α → Log Ans → σ → Prop}

@[simp] theorem safe_pure (a : α) :
    (pure a : Program Op Ans ε α).Safe answer later inv allowed log s post ↔ post a log s :=
  Iff.rfl

@[simp] theorem safe_fail (e : ε) :
    (fail e : Program Op Ans ε α).Safe answer later inv allowed log s post ↔ True :=
  Iff.rfl

theorem safe_await {op : Op} {next : Ans op → Program Op Ans ε α} :
    (await op next).Safe answer later inv allowed log s post ↔
      ∀ t, later s t → inv t → allowed t log op ∧ ∀ x,
        (next (answer x op t).1).Safe answer later inv allowed
          (log ++ [⟨op, (answer x op t).1⟩]) (answer x op t).2 post :=
  Iff.rfl

/-- A statement in front of the rest of a program. -/
theorem safe_ask_bind {op : Op} {f : Ans op → Program Op Ans ε α} :
    (ask op >>= f).Safe answer later inv allowed log s post ↔
      ∀ t, later s t → inv t → allowed t log op ∧ ∀ x,
        (f (answer x op t).1).Safe answer later inv allowed
          (log ++ [⟨op, (answer x op t).1⟩]) (answer x op t).2 post :=
  Iff.rfl

/-- Consecutive programs: the second starts from what the first guarantees. -/
theorem safe_bind {f : α → Program Op Ans ε β} {post' : β → Log Ans → σ → Prop} :
    (p >>= f).Safe answer later inv allowed log s post' ↔
      p.Safe answer later inv allowed log s fun a log' s' =>
        (f a).Safe answer later inv allowed log' s' post' := by
  induction p generalizing log s with
  | done result =>
      cases result <;> exact Iff.rfl
  | await op next ih =>
      rw [await_bind, safe_await, safe_await]
      simp only [ih]

theorem safe_refuseIf {c : Bool} {e : ε} {post : Unit → Log Ans → σ → Prop} :
    (refuseIf c e : Program Op Ans ε Unit).Safe answer later inv allowed log s post ↔
      (c = false → post () log s) := by
  cases c <;> simp [refuseIf]

theorem safe_demand {a : Option α} {e : ε} :
    (demand a e : Program Op Ans ε α).Safe answer later inv allowed log s post ↔
      ∀ b, a = some b → post b log s := by
  cases a <;> simp [demand]

theorem safe_orThrow {rejected : δ → ε} {r : Except δ α} :
    (orThrow rejected r : Program Op Ans ε α).Safe answer later inv allowed log s post ↔
      ∀ b, r = .ok b → post b log s := by
  cases r <;> simp [orThrow]

theorem safe_refuseIf_bind {c : Bool} {e : ε} {f : Unit → Program Op Ans ε α} :
    (refuseIf c e >>= f).Safe answer later inv allowed log s post ↔
      (c = false → (f ()).Safe answer later inv allowed log s post) := by
  rw [safe_bind, safe_refuseIf]

theorem safe_demand_bind {a : Option β} {e : ε} {f : β → Program Op Ans ε α} :
    (demand a e >>= f).Safe answer later inv allowed log s post ↔
      ∀ b, a = some b → (f b).Safe answer later inv allowed log s post := by
  rw [safe_bind, safe_demand]

/-- Statements that are allowed at any time need no specification. -/
theorem Safe.of_only {kind : Op → Prop} (hkind : ∀ t log op, kind op → allowed t log op)
    (hp : p.Only kind) (hpost : ∀ a log' t, log <+: log' → post a log' t) :
    p.Safe answer later inv allowed log s post := by
  induction p generalizing log s with
  | done result =>
      cases result with
      | ok a => exact hpost a log s (List.prefix_refl log)
      | error e => trivial
  | await op next ih =>
      intro t _ _
      refine ⟨hkind t log op hp.1, fun x => ih _ (hp.2 _) ?_⟩
      intro a log' u hlog
      exact hpost a log' u ((List.prefix_append log _).trans hlog)

/-- Statements that are allowed at any time, and that the others put up with, lead
from a store to a later one. -/
theorem Safe.of_only_later {kind : Op → Prop} (hrefl : ∀ s, later s s)
    (htrans : ∀ r s t, later r s → later s t → later r t)
    (hkind : ∀ t log op, kind op → allowed t log op)
    (hlater : ∀ x op t, kind op → inv t → later t (answer x op t).2)
    (hp : p.Only kind) (hpost : ∀ a log' t, later s t → post a log' t) :
    p.Safe answer later inv allowed log s post := by
  induction p generalizing log s with
  | done result =>
      cases result with
      | ok a => exact hpost a log s (hrefl s)
      | error e => trivial
  | await op next ih =>
      intro t hst ht
      refine ⟨hkind t log op hp.1, fun x => ih _ (hp.2 _) ?_⟩
      intro a log' u hu
      have htu : later t u := htrans t _ u (hlater x op t hp.1 ht) hu
      exact hpost a log' u (htrans s t u hst htu)

/-- More statements are allowed. -/
theorem Safe.mono {allowed' : σ → Log Ans → Op → Prop}
    (hallowed : ∀ t log op, allowed t log op → allowed' t log op)
    (h : p.Safe answer later inv allowed log s post) :
    p.Safe answer later inv allowed' log s post := by
  induction p generalizing log s with
  | done result =>
      cases result with
      | ok a => exact h
      | error e => trivial
  | await op next ih =>
      intro t hst ht
      obtain ⟨hop, hnext⟩ := h t hst ht
      exact ⟨hallowed t log op hop, fun x => ih _ (hnext x)⟩

/-- A weaker postcondition. -/
theorem Safe.imp (h : p.Safe answer later inv allowed log s post)
    {post' : α → Log Ans → σ → Prop} (hpost : ∀ a log' s', post a log' s' → post' a log' s') :
    p.Safe answer later inv allowed log s post' := by
  induction p generalizing log s with
  | done result =>
      cases result with
      | ok a => exact hpost a log s h
      | error e => trivial
  | await op next ih =>
      intro t hst ht
      obtain ⟨hop, hnext⟩ := h t hst ht
      exact ⟨hop, fun x => ih _ (hnext x)⟩

/-- Over more statements a program is safe as before, where what is allowed does not
depend on what was asked. -/
theorem safe_via {Op' : Type} {Ans' : Op' → Type} {f : Op → Op'}
    {back : (op : Op) → Ans' (f op) → Ans op} {answer' : χ → (op : Op') → σ → Ans' op × σ}
    (hanswer : ∀ x op s, back op (answer' x (f op) s).1 = (answer x op s).1 ∧
      (answer' x (f op) s).2 = (answer x op s).2)
    {may : σ → Op' → Prop} {log' : Log Ans'} {post : α → σ → Prop} :
    (p.via f back).Safe answer' later inv (fun t _ op => may t op) log' s (fun a _ => post a) ↔
      p.Safe answer later inv (fun t _ op => may t (f op)) log s fun a _ => post a := by
  induction p generalizing log log' s with
  | done result =>
      cases result <;> exact Iff.rfl
  | await op next ih =>
      rw [Program.via, safe_await, safe_await]
      refine forall_congr' fun t => forall_congr' fun _ => forall_congr' fun _ =>
        and_congr Iff.rfl (forall_congr' fun x => ?_)
      rw [(hanswer x op t).1, (hanswer x op t).2]
      exact ih _

/-- What the others do in the meantime does no harm. -/
theorem Safe.elapse (htrans : ∀ r s t, later r s → later s t → later r t)
    (hpost : ∀ a log s t, later s t → post a log s → post a log t)
    (h : p.Safe answer later inv allowed log s post) (hst : later s t) :
    p.Safe answer later inv allowed log t post := by
  cases p with
  | done result =>
      cases result with
      | ok a => exact hpost a log s t hst h
      | error e => trivial
  | await op next =>
      intro u htu hu
      exact h u (htrans s t u hst htu) hu

end Among

end Program

/-- A call with its log and the rest of its program; what it returns is dropped. -/
structure Task (Op : Type) (Ans : Op → Type) (ε Call : Type) where
  call : Call
  log : Log Ans
  rest : Program Op Ans ε Unit

/-- The store and the calls made so far. -/
structure Pool (Op : Type) (Ans : Op → Type) (ε Call σ : Type) where
  store : σ
  tasks : List (Task Op Ans ε Call) := []

/-- A new call arrives, or the next statement of a call is answered; `x` is what
the answer takes from outside. -/
inductive Move (Call χ : Type)
  | start (call : Call)
  | resume (i : Nat) (x : χ)

namespace Pool
variable {Call σ χ : Type} (answer : χ → (op : Op) → σ → Ans op × σ)
variable (program : Call → Program Op Ans ε Unit)

/-- Task `i` is about to ask a statement. -/
def Asks (p : Pool Op Ans ε Call σ) (i : Nat) (task : Task Op Ans ε Call) (op : Op)
    (next : Ans op → Program Op Ans ε Unit) : Prop :=
  p.tasks[i]? = some task ∧ task.rest = .await op next

/-- The statement of task `i` is answered. -/
def answered (p : Pool Op Ans ε Call σ) (i : Nat) (x : χ) (task : Task Op Ans ε Call) (op : Op)
    (next : Ans op → Program Op Ans ε Unit) : Pool Op Ans ε Call σ where
  store := (answer x op p.store).2
  tasks := p.tasks.set i
    { task with
      log := task.log ++ [⟨op, (answer x op p.store).1⟩]
      rest := next (answer x op p.store).1 }

def step (p : Pool Op Ans ε Call σ) : Move Call χ → Option (Pool Op Ans ε Call σ)
  | .start call => some { p with tasks := p.tasks ++ [⟨call, [], program call⟩] }
  | .resume i x =>
      match p.tasks[i]? with
      | none => none
      | some task =>
          match task.rest with
          | .done _ => none
          | .await op next => some (p.answered answer i x task op next)

/-- Some call has asked a statement and been told an answer. -/
def Logged (p : Pool Op Ans ε Call σ) (entry : Σ op, Ans op) : Prop :=
  ∃ task ∈ p.tasks, entry ∈ task.log

/-- A condition on the statement that a move has answered. -/
def OnStatement (cond : Call → χ → σ → Log Ans → Op → Prop) (p : Pool Op Ans ε Call σ) :
    Move Call χ → Prop
  | .start _ => True
  | .resume i x => ∀ task op next, p.Asks i task op next → cond task.call x p.store task.log op

variable {answer program} {p p' : Pool Op Ans ε Call σ}

theorem step_start {call : Call} : p.step answer program (.start call) = some p' ↔
    { p with tasks := p.tasks ++ [⟨call, [], program call⟩] } = p' := by
  simp [step]

theorem step_resume {i : Nat} {x : χ} : p.step answer program (.resume i x) = some p' ↔
    ∃ task op next, p.Asks i task op next ∧ p.answered answer i x task op next = p' := by
  simp only [step, Asks]
  constructor
  · intro h
    split at h
    · cases h
    · next task htask =>
        split at h
        · cases h
        · next op next hrest =>
            exact ⟨task, op, next, ⟨htask, hrest⟩, Option.some.inj h⟩
  · rintro ⟨task, op, next, ⟨htask, hrest⟩, rfl⟩
    simp only [htask, hrest]

/-- A task asks one statement at a time. -/
theorem Asks.unique {i : Nat} {task task' : Task Op Ans ε Call} {op op' : Op}
    {next : Ans op → Program Op Ans ε Unit} {next' : Ans op' → Program Op Ans ε Unit}
    (h : p.Asks i task op next) (h' : p.Asks i task' op' next') : task = task' ∧ op = op' := by
  obtain rfl := Option.some.inj (h.1.symm.trans h'.1)
  have hrest := h.2.symm.trans h'.2
  exact ⟨rfl, (Program.await.inj hrest).1⟩

theorem onStatement_of_asks {cond : Call → χ → σ → Log Ans → Op → Prop} {i : Nat} {x : χ}
    {task : Task Op Ans ε Call} {op : Op} {next : Ans op → Program Op Ans ε Unit}
    (h : p.Asks i task op next) :
    p.OnStatement cond (.resume i x) ↔ cond task.call x p.store task.log op := by
  constructor
  · intro hcond
    exact hcond task op next h
  · intro hcond task' op' next' h'
    obtain ⟨rfl, rfl⟩ := h.unique h'
    exact hcond

instance {cond : Call → χ → σ → Log Ans → Op → Prop}
    [∀ call x s log op, Decidable (cond call x s log op)] (p : Pool Op Ans ε Call σ) :
    ∀ m, Decidable (p.OnStatement cond m)
  | .start _ => .isTrue trivial
  | .resume i x =>
      match h : p.tasks[i]? with
      | none => .isTrue fun task _ _ hasks => by
          cases h.symm.trans hasks.1
      | some ⟨_, _, .done _⟩ => .isTrue fun task op next hasks => by
          cases h.symm.trans hasks.1
          cases hasks.2
      | some ⟨call, log, .await op next⟩ =>
          have hasks : p.Asks i ⟨call, log, .await op next⟩ op next := ⟨h, rfl⟩
          decidable_of_iff (cond call x p.store log op) (onStatement_of_asks hasks).symm

theorem Asks.mem {i : Nat} {task : Task Op Ans ε Call} {op : Op}
    {next : Ans op → Program Op Ans ε Unit} (h : p.Asks i task op next) : task ∈ p.tasks :=
  List.mem_of_getElem? h.1

/-- An answer changes the one task only. -/
theorem Asks.kept {i : Nat} {x : χ} {task : Task Op Ans ε Call} {op : Op}
    {next : Ans op → Program Op Ans ε Unit} (h : p.Asks i task op next)
    {task' : Task Op Ans ε Call} (h' : task' ∈ p.tasks) :
    task' = task ∨ task' ∈ (p.answered answer i x task op next).tasks := by
  obtain ⟨j, hj⟩ := List.mem_iff_getElem?.mp h'
  by_cases hji : j = i
  · subst hji
    exact .inl (Option.some.inj (hj.symm.trans h.1))
  · refine .inr (List.mem_of_getElem? (i := j) ?_)
    rw [answered, List.getElem?_set_ne (Ne.symm hji), hj]

/-- The task goes on with what follows its statement. -/
theorem Asks.renewed {i : Nat} (x : χ) {task : Task Op Ans ε Call} {op : Op}
    {next : Ans op → Program Op Ans ε Unit} (h : p.Asks i task op next) :
    ⟨task.call, task.log ++ [⟨op, (answer x op p.store).1⟩], next (answer x op p.store).1⟩ ∈
      (p.answered answer i x task op next).tasks :=
  List.mem_set (List.getElem?_eq_some_iff.mp h.1).1 _

/-- What is required everywhere of the programs of a pool stays so. -/
theorem Asks.everywhere {good : Call → (op : Op) → (Ans op → Program Op Ans ε Unit) → Prop}
    {i : Nat} {x : χ} {task : Task Op Ans ε Call} {op : Op}
    {next : Ans op → Program Op Ans ε Unit} (h : p.Asks i task op next)
    (hall : ∀ task ∈ p.tasks, task.rest.Everywhere (good task.call)) :
    ∀ task' ∈ (p.answered answer i x task op next).tasks,
      task'.rest.Everywhere (good task'.call) := by
  intro task' htask'
  rcases List.mem_or_eq_of_mem_set htask' with htask' | rfl
  · exact hall task' htask'
  · have hrest := hall task h.mem
    rw [h.2] at hrest
    exact hrest.2 _

/-- The next statement of a task is as its program requires. -/
theorem Asks.required
    {good : Log Ans → (op : Op) → (Ans op → Program Op Ans ε Unit) → Prop}
    {i : Nat} {task : Task Op Ans ε Call} {op : Op} {next : Ans op → Program Op Ans ε Unit}
    (h : p.Asks i task op next) (hall : ∀ task ∈ p.tasks, task.rest.Throughout good task.log) :
    good task.log op next ∧ ∀ a, (next a).Throughout good (task.log ++ [⟨op, a⟩]) := by
  have hrest := hall task h.mem
  rw [h.2] at hrest
  exact hrest

/-- Every call of a pool goes on as its program requires. -/
theorem throughout_step
    {good : Log Ans → (op : Op) → (Ans op → Program Op Ans ε Unit) → Prop}
    (hprogram : ∀ call, (program call).Throughout good []) {m : Move Call χ}
    (hall : ∀ task ∈ p.tasks, task.rest.Throughout good task.log)
    (h : p.step answer program m = some p') :
    ∀ task ∈ p'.tasks, task.rest.Throughout good task.log := by
  cases m with
  | start call =>
      obtain rfl := step_start.mp h
      intro task htask
      rcases List.mem_append.mp htask with htask | htask
      · exact hall task htask
      · obtain rfl := List.mem_singleton.mp htask
        exact hprogram call
  | resume i x =>
      obtain ⟨task, op, next, hasks, rfl⟩ := step_resume.mp h
      intro task' htask'
      rcases List.mem_or_eq_of_mem_set htask' with htask' | rfl
      · exact hall task' htask'
      · exact (hasks.required hall).2 _

/-- What the programs of a pool ask stays of its kind. -/
theorem Asks.only {kind : Call → Op → Prop} {i : Nat} {x : χ} {task : Task Op Ans ε Call} {op : Op}
    {next : Ans op → Program Op Ans ε Unit} (h : p.Asks i task op next)
    (hall : ∀ task ∈ p.tasks, task.rest.Only (kind task.call)) :
    kind task.call op ∧ ∀ task' ∈ (p.answered answer i x task op next).tasks,
      task'.rest.Only (kind task'.call) := by
  have hrest := hall task h.mem
  rw [h.2] at hrest
  refine ⟨hrest.1, fun task' htask' => ?_⟩
  rcases List.mem_or_eq_of_mem_set htask' with htask' | rfl
  · exact hall task' htask'
  · exact hrest.2 _

/-- A property of the store that every statement of the calls keeps holds whatever
the interleaving. -/
theorem invariant_of_only {kind : Call → Op → Prop} {I : σ → Prop}
    (hprogram : ∀ call, (program call).Only (kind call))
    (hkind : ∀ call x op s, kind call op → I s → I (answer x op s).2) {s : σ} (hs : I s)
    {ms : List (Move Call χ)} (run : Run (Pool.step answer program) { store := s } ms p) :
    I p.store := by
  have hinv : I p.store ∧ ∀ task ∈ p.tasks, task.rest.Only (kind task.call) := by
    refine run.invariant (I := fun p => I p.store ∧ ∀ task ∈ p.tasks, task.rest.Only (kind task.call))
      ?_ ⟨hs, by simp⟩
    rintro p m p' ⟨hp, hall⟩ hstep
    cases m with
    | start call =>
        obtain rfl := step_start.mp hstep
        refine ⟨hp, fun task htask => ?_⟩
        rcases List.mem_append.mp htask with htask | htask
        · exact hall task htask
        · obtain rfl := List.mem_singleton.mp htask
          exact hprogram call
    | resume i x =>
        obtain ⟨task, op, next, hasks, rfl⟩ := step_resume.mp hstep
        obtain ⟨hop, hrest⟩ := hasks.only hall
        exact ⟨hkind task.call x op p.store hop hp, hrest⟩
  exact hinv.1

theorem logged_start {call : Call} {entry : Σ op, Ans op}
    (h : p.step answer program (.start call) = some p') : p'.Logged entry ↔ p.Logged entry := by
  obtain rfl := step_start.mp h
  constructor
  · rintro ⟨task, htask, hentry⟩
    rcases List.mem_append.mp htask with htask | htask
    · exact ⟨task, htask, hentry⟩
    · obtain rfl := List.mem_singleton.mp htask
      cases hentry
  · rintro ⟨task, htask, hentry⟩
    exact ⟨task, List.mem_append_left _ htask, hentry⟩

/-- What a call has been told when another one has started, it was told before. -/
theorem log_start {call : Call} (h : p.step answer program (.start call) = some p') {j : Nat}
    {task : Task Op Ans ε Call} (hj : p'.tasks[j]? = some task) {entry : Σ op, Ans op}
    (hentry : entry ∈ task.log) : p.tasks[j]? = some task := by
  obtain rfl := step_start.mp h
  by_cases hlt : j < p.tasks.length
  · rwa [List.getElem?_append_left hlt] at hj
  · rw [List.getElem?_append_right (Nat.le_of_not_lt hlt)] at hj
    obtain rfl := List.mem_singleton.mp (List.mem_of_getElem? hj)
    cases hentry

/-- What a call has been told, it was told before or is the answer. -/
theorem Asks.log_cases {i : Nat} {x : χ} {task : Task Op Ans ε Call} {op : Op}
    {next : Ans op → Program Op Ans ε Unit} (h : p.Asks i task op next) {j : Nat}
    {task' : Task Op Ans ε Call}
    (hj : (p.answered answer i x task op next).tasks[j]? = some task') {entry : Σ op, Ans op}
    (hentry : entry ∈ task'.log) :
    (∃ task, p.tasks[j]? = some task ∧ entry ∈ task.log) ∨
      j = i ∧ entry = ⟨op, (answer x op p.store).1⟩ := by
  by_cases hij : i = j
  · subst hij
    have hlt : i < p.tasks.length := (List.getElem?_eq_some_iff.mp h.1).1
    rw [answered, List.getElem?_set_self hlt] at hj
    obtain rfl := Option.some.inj hj
    rcases List.mem_append.mp hentry with hold | hnew
    · exact .inl ⟨task, h.1, hold⟩
    · exact .inr ⟨rfl, List.mem_singleton.mp hnew⟩
  · rw [answered, List.getElem?_set_ne hij] at hj
    exact .inl ⟨task', hj, hentry⟩

/-- An answer is the one new entry. -/
theorem Asks.logged {i : Nat} {x : χ} {task : Task Op Ans ε Call} {op : Op}
    {next : Ans op → Program Op Ans ε Unit} (h : p.Asks i task op next) {entry : Σ op, Ans op} :
    (p.answered answer i x task op next).Logged entry ↔
      p.Logged entry ∨ entry = ⟨op, (answer x op p.store).1⟩ := by
  have hlt : i < p.tasks.length := (List.getElem?_eq_some_iff.mp h.1).1
  constructor
  · rintro ⟨task', htask', hentry⟩
    rcases List.mem_or_eq_of_mem_set htask' with htask' | rfl
    · exact .inl ⟨task', htask', hentry⟩
    · rcases List.mem_append.mp hentry with hentry | hentry
      · exact .inl ⟨task, h.mem, hentry⟩
      · exact .inr (List.mem_singleton.mp hentry)
  · intro hentry
    by_cases hnew : entry ∈ task.log ++ [⟨op, (answer x op p.store).1⟩]
    · exact ⟨_, List.mem_set hlt _, hnew⟩
    · rw [List.mem_append, List.mem_singleton, not_or] at hnew
      obtain ⟨task', htask', hold⟩ := hentry.resolve_right hnew.2
      obtain ⟨j, hj⟩ := List.mem_iff_getElem?.mp htask'
      have hji : i ≠ j := by
        rintro rfl
        obtain rfl := Option.some.inj (h.1.symm.trans hj)
        exact hnew.1 hold
      refine ⟨task', List.mem_of_getElem? (i := j) ?_, hold⟩
      rw [answered, List.getElem?_set_ne hji, hj]

end Pool

section Discipline
variable {Call σ χ : Type}

/-- What calls rely on between their statements, and keep to themselves; what they
have achieved when they return stays. -/
structure Discipline (answer : χ → (op : Op) → σ → Ans op × σ)
    (program : Call → Program Op Ans ε Unit) where
  later : σ → σ → Prop
  inv : σ → Prop
  allowed : Call → σ → Log Ans → Op → Prop
  post : Call → σ → Prop
  later_refl : ∀ s, later s s
  later_trans : ∀ r s t, later r s → later s t → later r t
  post_later : ∀ c s t, later s t → post c s → post c t
  kept : ∀ c x op log s, inv s → allowed c s log op →
    later s (answer x op s).2 ∧ inv (answer x op s).2
  safe : ∀ c s, inv s → (program c).Safe answer later inv (allowed c) [] s fun _ _ => post c

variable {answer : χ → (op : Op) → σ → Ans op × σ} {program : Call → Program Op Ans ε Unit}

/-- The invariant holds, and the rest of every call is safe. -/
structure Disciplined (d : Discipline answer program) (p : Pool Op Ans ε Call σ) : Prop where
  inv : d.inv p.store
  safe : ∀ task ∈ p.tasks, task.rest.Safe answer d.later d.inv (d.allowed task.call) task.log
    p.store fun _ _ => d.post task.call

variable {d : Discipline answer program} {p p' : Pool Op Ans ε Call σ}

theorem Disciplined.initial {s : σ} (hs : d.inv s) :
    Disciplined d ({ store := s } : Pool Op Ans ε Call σ) :=
  ⟨hs, by simp⟩

/-- The statement that is asked next is allowed. -/
theorem Disciplined.allowed (h : Disciplined d p) {i : Nat} {task : Task Op Ans ε Call} {op : Op}
    {next : Ans op → Program Op Ans ε Unit} (ha : p.Asks i task op next) :
    d.allowed task.call p.store task.log op := by
  have hsafe := h.safe task ha.mem
  rw [ha.2] at hsafe
  exact (hsafe p.store (d.later_refl _) h.inv).1

theorem Disciplined.later (h : Disciplined d p) {i : Nat} {x : χ} {task : Task Op Ans ε Call}
    {op : Op} {next : Ans op → Program Op Ans ε Unit} (ha : p.Asks i task op next) :
    d.later p.store (answer x op p.store).2 :=
  (d.kept task.call x op task.log p.store h.inv (h.allowed ha)).1

/-- What a call has returned from holds still. -/
theorem Disciplined.post (h : Disciplined d p) {task : Task Op Ans ε Call} (htask : task ∈ p.tasks)
    (hdone : task.rest = .done (.ok ())) : d.post task.call p.store := by
  have hsafe := h.safe task htask
  rw [hdone] at hsafe
  exact hsafe

/-- Every move keeps the discipline. -/
theorem Disciplined.step (h : Disciplined d p) {m : Move Call χ}
    (hstep : p.step answer program m = some p') : Disciplined d p' := by
  cases m with
  | start call =>
      rw [Pool.step_start] at hstep
      subst hstep
      refine ⟨h.inv, fun task htask => ?_⟩
      rcases List.mem_append.mp htask with htask | htask
      · exact h.safe task htask
      · obtain rfl := List.mem_singleton.mp htask
        exact d.safe call p.store h.inv
  | resume i x =>
      obtain ⟨task, op, next, ha, rfl⟩ := Pool.step_resume.mp hstep
      obtain ⟨hlater, hinv⟩ := d.kept task.call x op task.log p.store h.inv (h.allowed ha)
      refine ⟨hinv, fun task' htask' => ?_⟩
      rcases List.mem_or_eq_of_mem_set htask' with htask' | rfl
      · -- the other calls put up with what the statement did
        exact (h.safe task' htask').elapse d.later_trans (fun _ _ => d.post_later _) hlater
      · have hsafe := h.safe task ha.mem
        rw [ha.2] at hsafe
        exact (hsafe p.store (d.later_refl _) h.inv).2 x

end Discipline

end Interleaved
