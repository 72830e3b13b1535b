import SyncBoard.Lib.Program

/-!
# Statements that may be rejected

A store may reject a statement instead of answering it; it is then as it was. A
program that does not expect this throws on (`rejectable`). `Yields` specifies the
outcome of a program that nobody interrupts, whether it returns or throws, and
`FailsWith` the errors that it throws by itself.
-/

namespace Interleaved

/-- What became of a statement: its answer, or the error it was rejected with. -/
abbrev Attempted {Op : Type} (δ : Type) (Ans : Op → Type) (op : Op) : Type :=
  Except δ (Ans op)

namespace Program
variable {Op : Type} {Ans : Op → Type} {δ ε α β : Type}

/-- The program over statements that may be rejected. -/
def rejectable (rejected : δ → ε) : Program Op Ans ε α → Program Op (Attempted δ Ans) ε α
  | done result => done result
  | await op next => await op fun answered =>
      match answered with
      | .ok a => (next a).rejectable rejected
      | .error e => fail (rejected e)

theorem rejectable_bind (rejected : δ → ε) (p : Program Op Ans ε α)
    (f : α → Program Op Ans ε β) :
    (p >>= f).rejectable rejected = p.rejectable rejected >>= fun a => (f a).rejectable rejected := by
  induction p with
  | done result =>
      cases result <;> rfl
  | await op next ih =>
      rw [await_bind, rejectable, rejectable, await_bind]
      congr 1
      funext answered
      cases answered with
      | ok a => exact ih a
      | error e => rfl

/-- Whatever the answers are, only errors of a certain kind are thrown. -/
def FailsWith (errors : ε → Prop) : Program Op Ans ε α → Prop
  | done (.ok _) => True
  | done (.error e) => errors e
  | await _ next => ∀ a, (next a).FailsWith errors

namespace FailsWith
variable {errors : ε → Prop}

theorem pure (a : α) : (pure a : Program Op Ans ε α).FailsWith errors := trivial

theorem ask (op : Op) : (ask op : Program Op Ans ε (Ans op)).FailsWith errors :=
  fun _ => trivial

theorem refuseIf (c : Bool) {e : ε} (h : errors e) :
    (refuseIf c e : Program Op Ans ε Unit).FailsWith errors := by
  cases c with
  | false => trivial
  | true => exact h

theorem demand (a : Option α) {e : ε} (h : errors e) :
    (demand a e : Program Op Ans ε α).FailsWith errors := by
  cases a with
  | none => exact h
  | some a => trivial

theorem bind {p : Program Op Ans ε α} {f : α → Program Op Ans ε β} (hp : p.FailsWith errors)
    (hf : ∀ a, (f a).FailsWith errors) : (p >>= f).FailsWith errors := by
  induction p with
  | done result =>
      cases result with
      | ok a => exact hf a
      | error e => exact hp
  | await op next ih => exact fun a => ih a (hp a)

theorem forM {l : List β} {f : β → Program Op Ans ε PUnit} (hf : ∀ b, (f b).FailsWith errors) :
    (forM l f).FailsWith errors := by
  induction l with
  | nil => exact pure _
  | cons b l ih =>
      rw [List.forM_cons]
      exact (hf b).bind fun _ => ih

theorem orThrow {rejected : δ → ε} (r : Except δ α) (h : ∀ e, errors (rejected e)) :
    (orThrow rejected r : Program Op Ans ε α).FailsWith errors := by
  cases r with
  | ok a => trivial
  | error e => exact h e

theorem via {Op' : Type} {Ans' : Op' → Type} {f : Op → Op'}
    {back : (op : Op) → Ans' (f op) → Ans op} {p : Program Op Ans ε α}
    (hp : p.FailsWith errors) : (p.via f back).FailsWith errors := by
  induction p with
  | done result =>
      cases result with
      | ok a => trivial
      | error e => exact hp
  | await op next ih => exact fun a => ih _ (hp _)

end FailsWith

section Outcomes
variable {σ χ : Type} (answer : χ → (op : Op) → σ → Ans op × σ)

/-- Whatever is given from outside, the outcome and the store it leaves are as required. -/
def Yields : Program Op Ans ε α → σ → (Except ε α → σ → Prop) → Prop
  | done result, s, post => post result s
  | await op next, s, post => ∀ x, (next (answer x op s).1).Yields (answer x op s).2 post

variable {answer} {p : Program Op Ans ε α} {s : σ} {post : Except ε α → σ → Prop}

/-- Consecutive programs: the second goes on from where the first returns. -/
theorem yields_bind {f : α → Program Op Ans ε β} {post' : Except ε β → σ → Prop} :
    (p >>= f).Yields answer s post' ↔ p.Yields answer s fun r t =>
      match r with
      | .ok a => (f a).Yields answer t post'
      | .error e => post' (.error e) t := by
  induction p generalizing s with
  | done result =>
      cases result <;> exact Iff.rfl
  | await op next ih =>
      rw [await_bind, Yields, Yields]
      simp only [ih]

/-- Less is required. -/
theorem Yields.imp (h : p.Yields answer s post) {post' : Except ε α → σ → Prop}
    (hpost : ∀ r t, post r t → post' r t) : p.Yields answer s post' := by
  induction p generalizing s with
  | done result => exact hpost result s h
  | await op next ih => exact fun x => ih _ (h x)

/-- What is required of the outcome holds of a run with any supply. -/
theorem Yields.exec (h : p.Yields answer s post) (supply : Nat → χ) :
    post (p.exec (supplied answer) (s, supply)).1 (p.exec (supplied answer) (s, supply)).2.1 := by
  induction p generalizing s supply with
  | done result => exact h
  | await op next ih => exact ih _ (h (supply 0)) _

end Outcomes

section Rejecting
variable {σ χ : Type} (answer : χ → (op : Op) → σ → Ans op × σ) (mayReject : Op → Bool)

/-- The answer of a store that rejects a statement where it may and an error is given. -/
def rejecting (x : Option δ × χ) (op : Op) (s : σ) : Attempted δ Ans op × σ :=
  match if mayReject op then x.1 else none with
  | some e => (.error e, s)
  | none => (.ok (answer x.2 op s).1, (answer x.2 op s).2)

variable {answer mayReject} {rejected : δ → ε} {p : Program Op Ans ε α} {s : σ}
  {post : Except ε α → σ → Prop}

/-- A statement is rejected or answered. -/
theorem yields_rejectable_await {op : Op} {next : Ans op → Program Op Ans ε α}
    (hrejected : mayReject op = true → ∀ e, post (.error (rejected e)) s)
    (hanswered : ∀ x, ((next (answer x op s).1).rejectable rejected).Yields
      (rejecting answer mayReject) (answer x op s).2 post) :
    ((await op next).rejectable rejected).Yields (rejecting answer mayReject) s post := by
  rw [rejectable, Yields]
  rintro ⟨error, x⟩
  rw [rejecting]
  cases hmay : mayReject op with
  | false => exact hanswered x
  | true =>
      cases error with
      | none => exact hanswered x
      | some e => exact hrejected hmay e

/-- A program that only reads leaves the store as it is. -/
theorem yields_rejectable_of_reads {reads : Op → Prop} {errors : ε → Prop}
    (hreads : ∀ x op t, reads op → (answer x op t).2 = t) (hrejected : ∀ e : δ, errors (rejected e))
    (hp : p.Only reads) (hfails : p.FailsWith errors) (hok : ∀ a, post (.ok a) s)
    (herror : ∀ e, errors e → post (.error e) s) :
    (p.rejectable rejected).Yields (rejecting answer mayReject) s post := by
  induction p with
  | done result =>
      cases result with
      | ok a => exact hok a
      | error e => exact herror e hfails
  | await op next ih =>
      apply yields_rejectable_await
      · intro _ e
        exact herror _ (hrejected e)
      · intro x
        rw [hreads x op s hp.1]
        exact ih _ (hp.2 _) (hfails _)

/-- Where nothing is rejected, the program is the action that it is without rejections. -/
theorem action_rejectable {x : χ} :
    (p.rejectable rejected).action (rejecting answer mayReject (none, x)) =
      p.action (answer x) := by
  induction p with
  | done result => rfl
  | await op next ih =>
      have hanswer : ∀ t, rejecting (δ := δ) answer mayReject (none, x) op t =
          (.ok (answer x op t).1, (answer x op t).2) := by
        intro t
        rw [rejecting, ite_self]
      funext t
      change ((await op next).rejectable rejected).exec _ t = (await op next).exec _ t
      rw [rejectable, exec_await, exec_await, hanswer]
      exact congrFun (ih _) _

end Rejecting

end Program

end Interleaved
