import Mathlib.Algebra.GroupWithZero.Nat
import SyncBoard.Lib.Positions
import SyncBoard.Lib.Rejections

/-!
# What a program has been told

A specification of a program by its log alone: which statement is asked after which log
(`asks`), with which log it throws (`fails`) and with which it returns. It says nothing of the
store, so that it holds of the program among any others (`Specified`). What the answers say of
the store, and go on saying while other programs run, is an invariant of the pool
(`invariant_of_traces`), whose step has the log of the statement at hand.
-/

namespace Interleaved

open Labelled

variable {Op : Type} {Ans : Op → Type} {ε δ α β : Type}

/-- The statement was answered so. -/
def Told (log : Log Ans) (op : Op) (a : Ans op) : Prop :=
  ⟨op, a⟩ ∈ log

theorem Told.append {log : Log Ans} {op : Op} {a : Ans op} (h : Told log op a)
    (entries : Log Ans) : Told (log ++ entries) op a :=
  List.mem_append_left entries h

theorem Told.extend {log log' : Log Ans} {op : Op} {a : Ans op} (h : Told log op a)
    (hlog : log <+: log') : Told log' op a :=
  hlog.mem h

theorem told_last (log : Log Ans) (op : Op) (a : Ans op) : Told (log ++ [⟨op, a⟩]) op a :=
  List.mem_append_right log (List.mem_singleton.mpr rfl)

namespace Program

/-- Whatever the answers are, every statement is as required after what was asked before it,
and so is the end. -/
def Traces (asks : Log Ans → Op → Prop) (fails : Log Ans → ε → Prop) :
    Program Op Ans ε α → Log Ans → (α → Log Ans → Prop) → Prop
  | done (.ok a), log, returns => returns a log
  | done (.error e), log, _ => fails log e
  | await op next, log, returns =>
      asks log op ∧ ∀ a, (next a).Traces asks fails (log ++ [⟨op, a⟩]) returns

section Rules
variable {asks : Log Ans → Op → Prop} {fails : Log Ans → ε → Prop} {log : Log Ans}

@[simp] theorem traces_pure {a : α} {returns : α → Log Ans → Prop} :
    (pure a : Program Op Ans ε α).Traces asks fails log returns ↔ returns a log :=
  Iff.rfl

@[simp] theorem traces_fail {e : ε} {returns : α → Log Ans → Prop} :
    (fail e : Program Op Ans ε α).Traces asks fails log returns ↔ fails log e :=
  Iff.rfl

theorem traces_ask {op : Op} {returns : Ans op → Log Ans → Prop} :
    (ask op : Program Op Ans ε (Ans op)).Traces asks fails log returns ↔
      asks log op ∧ ∀ a, returns a (log ++ [⟨op, a⟩]) :=
  Iff.rfl

theorem traces_ask_bind {op : Op} {f : Ans op → Program Op Ans ε α}
    {returns : α → Log Ans → Prop} :
    (ask op >>= f).Traces asks fails log returns ↔
      asks log op ∧ ∀ a, (f a).Traces asks fails (log ++ [⟨op, a⟩]) returns :=
  Iff.rfl

/-- Consecutive programs: the second goes on with the log of the first. -/
theorem traces_bind {p : Program Op Ans ε α} {f : α → Program Op Ans ε β}
    {returns : β → Log Ans → Prop} :
    (p >>= f).Traces asks fails log returns ↔
      p.Traces asks fails log fun a log' => (f a).Traces asks fails log' returns := by
  induction p generalizing log with
  | done result =>
      cases result <;> exact Iff.rfl
  | await op next ih =>
      rw [await_bind, Traces, Traces]
      simp only [ih]

theorem traces_refuseIf {c : Bool} {e : ε} {returns : Unit → Log Ans → Prop} :
    (refuseIf c e : Program Op Ans ε Unit).Traces asks fails log returns ↔
      (c = true → fails log e) ∧ (c = false → returns () log) := by
  cases c <;> simp [refuseIf]

theorem traces_doIf {c : Bool} {p : Program Op Ans ε Unit} {returns : Unit → Log Ans → Prop} :
    (doIf c p).Traces asks fails log returns ↔
      (c = true → p.Traces asks fails log returns) ∧ (c = false → returns () log) := by
  cases c <;> simp [doIf]

theorem traces_demand {a : Option α} {e : ε} {returns : α → Log Ans → Prop} :
    (demand a e : Program Op Ans ε α).Traces asks fails log returns ↔
      (a = none → fails log e) ∧ ∀ b, a = some b → returns b log := by
  cases a <;> simp [demand]

theorem traces_orThrow {rejected : δ → ε} {r : Except δ α} {returns : α → Log Ans → Prop} :
    (orThrow rejected r : Program Op Ans ε α).Traces asks fails log returns ↔
      (∀ e, r = .error e → fails log (rejected e)) ∧ ∀ a, r = .ok a → returns a log := by
  cases r <;> simp [orThrow]

/-- Less is required. -/
theorem Traces.imp {p : Program Op Ans ε α} {returns : α → Log Ans → Prop}
    (h : p.Traces asks fails log returns) {asks' : Log Ans → Op → Prop}
    {fails' : Log Ans → ε → Prop} {returns' : α → Log Ans → Prop}
    (hasks : ∀ log op, asks log op → asks' log op)
    (hfails : ∀ log e, fails log e → fails' log e)
    (hreturns : ∀ a log, returns a log → returns' a log) :
    p.Traces asks' fails' log returns' := by
  induction p generalizing log with
  | done result =>
      cases result with
      | ok a => exact hreturns a log h
      | error e => exact hfails log e h
  | await op next ih =>
      obtain ⟨hop, hnext⟩ := h
      exact ⟨hasks log op hop, fun a => ih a (hnext a)⟩

/-- Statements that may be asked at any time, where any error may be thrown. -/
theorem Traces.of_only {p : Program Op Ans ε α} {kind : Op → Prop}
    {returns : α → Log Ans → Prop} (hkind : ∀ log op, kind op → asks log op)
    (hfails : ∀ log e, fails log e) (hp : p.Only kind)
    (hreturns : ∀ a log', log <+: log' → returns a log') :
    p.Traces asks fails log returns := by
  induction p generalizing log with
  | done result =>
      cases result with
      | ok a => exact hreturns a log (List.prefix_refl log)
      | error e => exact hfails log e
  | await op next ih =>
      refine ⟨hkind log op hp.1, fun a => ih a (hp.2 a) ?_⟩
      intro b log' hlog
      exact hreturns b log' ((List.prefix_append log _).trans hlog)

end Rules

end Program

namespace Pool
variable {Call σ χ : Type} {answer : χ → (op : Op) → σ → Ans op × σ}
variable {program : Call → Program Op Ans ε Unit}
variable {asks : Call → Log Ans → Op → Prop} {fails : Call → Log Ans → ε → Prop}
  {returns : Call → Log Ans → Prop} {p p' : Pool Op Ans ε Call σ}

/-- The rest of every call goes on as specified. -/
def Specified (asks : Call → Log Ans → Op → Prop) (fails : Call → Log Ans → ε → Prop)
    (returns : Call → Log Ans → Prop) (p : Pool Op Ans ε Call σ) : Prop :=
  ∀ task ∈ p.tasks, task.rest.Traces (asks task.call) (fails task.call) task.log
    fun _ log => returns task.call log

namespace Specified

/-- The next statement of a call is as specified. -/
theorem asked (h : p.Specified asks fails returns) {i : Nat} {task : Task Op Ans ε Call} {op : Op}
    {next : Ans op → Program Op Ans ε Unit} (ha : p.Asks i task op next) :
    asks task.call task.log op := by
  have htrace := h task ha.mem
  rw [ha.2] at htrace
  exact htrace.1

theorem returned (h : p.Specified asks fails returns) {task : Task Op Ans ε Call}
    (htask : task ∈ p.tasks) (hdone : task.rest = .done (.ok ())) :
    returns task.call task.log := by
  have htrace := h task htask
  rw [hdone] at htrace
  exact htrace

theorem thrown (h : p.Specified asks fails returns) {task : Task Op Ans ε Call}
    (htask : task ∈ p.tasks) {e : ε} (hdone : task.rest = .done (.error e)) :
    fails task.call task.log e := by
  have htrace := h task htask
  rw [hdone] at htrace
  exact htrace

theorem step (hprogram : ∀ call, (program call).Traces (asks call) (fails call) []
      fun _ log => returns call log)
    (h : p.Specified asks fails returns) {m : Move Call χ}
    (hstep : p.step answer program m = some p') : p'.Specified asks fails returns := by
  cases m with
  | start call =>
      obtain rfl := step_start.mp hstep
      intro task htask
      rcases List.mem_append.mp htask with hold | hnew
      · exact h task hold
      · obtain rfl := List.mem_singleton.mp hnew
        exact hprogram call
  | resume i x =>
      obtain ⟨task, op, next, ha, rfl⟩ := step_resume.mp hstep
      intro task' htask'
      rcases List.mem_or_eq_of_mem_set htask' with hold | rfl
      · exact h task' hold
      · have htrace := h task ha.mem
        rw [ha.2] at htrace
        exact htrace.2 _

end Specified

/-- Every statement in the log of a call was as specified when it was asked. -/
def Justly (asks : Call → Log Ans → Op → Prop) (p : Pool Op Ans ε Call σ) : Prop :=
  ∀ task ∈ p.tasks, ∀ before entry after, task.log = before ++ entry :: after →
    asks task.call before entry.1

namespace Justly

theorem start (h : p.Justly asks) (call : Call) :
    ({ p with tasks := p.tasks ++ [⟨call, [], program call⟩] } : Pool Op Ans ε Call σ).Justly
      asks := by
  intro task htask before entry after hlog
  rcases List.mem_append.mp htask with hold | hnew
  · exact h task hold before entry after hlog
  · obtain rfl := List.mem_singleton.mp hnew
    cases before <;> cases hlog

theorem answered (h : p.Justly asks) {i : Nat} {x : χ} {task : Task Op Ans ε Call} {op : Op}
    {next : Ans op → Program Op Ans ε Unit} (ha : p.Asks i task op next)
    (hop : asks task.call task.log op) : (p.answered answer i x task op next).Justly asks := by
  intro task' htask' before entry after hlog
  rcases List.mem_or_eq_of_mem_set htask' with hold | rfl
  · exact h task' hold before entry after hlog
  · -- the entry was there, or it is the last one
    rcases List.eq_nil_or_concat after with rfl | ⟨after, last, rfl⟩
    · obtain ⟨rfl, hentry⟩ := List.append_inj' hlog rfl
      obtain rfl := List.singleton_inj.mp hentry
      exact hop
    · rw [List.concat_eq_append, ← List.cons_append, ← List.append_assoc] at hlog
      obtain ⟨hbefore, -⟩ := List.append_inj' hlog rfl
      exact h task ha.mem before entry after hbefore

end Justly

/-- Whatever any call has been told holds. -/
def AnswersHold (holds : (op : Op) → Ans op → Prop) (p : Pool Op Ans ε Call σ) : Prop :=
  ∀ task ∈ p.tasks, ∀ op a, Told task.log op a → holds op a

namespace AnswersHold
variable {holds holds' : (op : Op) → Ans op → Prop}

theorem start (h : p.AnswersHold holds) (call : Call) :
    ({ p with tasks := p.tasks ++ [⟨call, [], program call⟩] } : Pool Op Ans ε Call σ).AnswersHold
      holds := by
  intro task htask op a htold
  rcases List.mem_append.mp htask with hold | hnew
  · exact h task hold op a htold
  · obtain rfl := List.mem_singleton.mp hnew
    cases htold

/-- What was told goes on holding, and the answer holds when it is given. -/
theorem answered (h : p.AnswersHold holds) {i : Nat} {x : χ} {task : Task Op Ans ε Call} {op : Op}
    {next : Ans op → Program Op Ans ε Unit} (ha : p.Asks i task op next)
    (hlater : ∀ task ∈ p.tasks, ∀ op a, Told task.log op a → holds op a → holds' op a)
    (hanswer : holds' op (answer x op p.store).1) :
    (p.answered answer i x task op next).AnswersHold holds' := by
  intro task' htask' op' a htold
  rcases List.mem_or_eq_of_mem_set htask' with hold | rfl
  · exact hlater task' hold op' a htold (h task' hold op' a htold)
  · rcases List.mem_append.mp htold with hold | hnew
    · exact hlater task ha.mem op' a hold (h task ha.mem op' a hold)
    · obtain ⟨rfl, ha'⟩ := Sigma.mk.inj (List.mem_singleton.mp hnew)
      obtain rfl := eq_of_heq ha'
      exact hanswer

end AnswersHold

/-- The log of some call is evidence of a fact. -/
def Evidence (fact : Call → Log Ans → Prop) (p : Pool Op Ans ε Call σ) : Prop :=
  ∃ task ∈ p.tasks, fact task.call task.log

namespace Evidence
variable {fact : Call → Log Ans → Prop}

theorem start (h : p.Evidence fact) (call : Call) :
    ({ p with tasks := p.tasks ++ [⟨call, [], program call⟩] } : Pool Op Ans ε Call σ).Evidence
      fact := by
  obtain ⟨task, htask, hfact⟩ := h
  exact ⟨task, List.mem_append_left _ htask, hfact⟩

/-- Evidence that more answers do not take away stays. -/
theorem answered (h : p.Evidence fact)
    (hmono : ∀ call log entry, fact call log → fact call (log ++ [entry])) {i : Nat} {x : χ}
    {task : Task Op Ans ε Call} {op : Op} {next : Ans op → Program Op Ans ε Unit}
    (ha : p.Asks i task op next) : (p.answered answer i x task op next).Evidence fact := by
  obtain ⟨task', htask', hfact⟩ := h
  have hcases : task' = task ∨ task' ∈ (p.answered answer i x task op next).tasks := ha.kept htask'
  rcases hcases with rfl | hkept
  · exact ⟨_, ha.renewed x, hmono _ _ _ hfact⟩
  · exact ⟨task', hkept, hfact⟩

/-- What a call has been told, its answer included, is evidence. -/
theorem of_asks {i : Nat} {x : χ} {task : Task Op Ans ε Call} {op : Op}
    {next : Ans op → Program Op Ans ε Unit} (ha : p.Asks i task op next)
    (h : fact task.call (task.log ++ [⟨op, (answer x op p.store).1⟩])) :
    (p.answered answer i x task op next).Evidence fact :=
  ⟨_, ha.renewed x, h⟩

end Evidence

/-- How many answers of a kind the calls have been given. -/
def times (q : (Σ op, Ans op) → Bool) (p : Pool Op Ans ε Call σ) : Nat :=
  (p.tasks.map fun task => task.log.countP q).sum

section Times
variable {q : (Σ op, Ans op) → Bool}

theorem times_start (p : Pool Op Ans ε Call σ) (call : Call) :
    ({ p with tasks := p.tasks ++ [⟨call, [], program call⟩] } : Pool Op Ans ε Call σ).times q =
      p.times q := by
  simp [times]

/-- An answer is one more, where it is of the kind. -/
theorem times_answered {i : Nat} {x : χ} {task : Task Op Ans ε Call} {op : Op}
    {next : Ans op → Program Op Ans ε Unit} (ha : p.Asks i task op next) :
    (p.answered answer i x task op next).times q =
      p.times q + if q ⟨op, (answer x op p.store).1⟩ = true then 1 else 0 := by
  obtain ⟨l₁, l₂, hl, -, hset⟩ := Positional.exists_split ha.1
  simp only [times, answered]
  rw [hset, hl]
  simp only [List.map_append, List.map_cons, List.sum_append, List.sum_cons, List.countP_append,
    List.countP_singleton]
  omega

/-- The calls that have been given such an answer are at most the answers. -/
theorem countP_any_le_times (p : Pool Op Ans ε Call σ) :
    (p.tasks.countP fun task => task.log.any q) ≤ p.times q := by
  unfold times
  induction p.tasks with
  | nil => exact Nat.le_refl 0
  | cons task tasks ih =>
      rw [List.countP_cons, List.map_cons, List.sum_cons]
      split
      · next hany =>
          obtain ⟨entry, hentry, hq⟩ := List.any_eq_true.mp hany
          have hpos : 0 < task.log.countP q := List.countP_pos_iff.mpr ⟨entry, hentry, hq⟩
          omega
      · omega

end Times

/-- An invariant that is kept by the start of a call, and by a guarded answer to a statement that
is as specified, holds after every run whose steps are guarded. -/
theorem guarded_of_traces (hprogram : ∀ call, (program call).Traces (asks call) (fails call) []
      fun _ log => returns call log)
    {I : Pool Op Ans ε Call σ → Prop} {G : Pool Op Ans ε Call σ → Move Call χ → Prop}
    (hstart : ∀ p call, I p → I { p with tasks := p.tasks ++ [⟨call, [], program call⟩] })
    (hanswer : ∀ (p : Pool Op Ans ε Call σ) i x task op next, I p → G p (.resume i x) →
      p.Asks i task op next → asks task.call task.log op → I (p.answered answer i x task op next))
    {s : σ} (hs : I { store := s }) {ms : List (Move Call χ)}
    (run : Run (Pool.step answer program) { store := s } ms p)
    (hguard : AllSteps (Pool.step answer program) G { store := s } ms) :
    I p ∧ p.Specified asks fails returns := by
  refine run.guarded (P := fun p => I p ∧ p.Specified asks fails returns) ?_ ⟨hs, ?_⟩ hguard
  · rintro q m q' ⟨hI, hspec⟩ hG hstep
    refine ⟨?_, hspec.step hprogram hstep⟩
    cases m with
    | start call =>
        obtain rfl := step_start.mp hstep
        exact hstart q call hI
    | resume i x =>
        obtain ⟨task, op, next, ha, rfl⟩ := step_resume.mp hstep
        exact hanswer q i x task op next hI hG ha (hspec.asked ha)
  · intro task htask
    cases htask

/-- An invariant that is kept by the start of a call, and by an answer to a statement that is
as specified, holds after every run. -/
theorem invariant_of_traces (hprogram : ∀ call, (program call).Traces (asks call) (fails call) []
      fun _ log => returns call log)
    {I : Pool Op Ans ε Call σ → Prop}
    (hstart : ∀ p call, I p → I { p with tasks := p.tasks ++ [⟨call, [], program call⟩] })
    (hanswer : ∀ (p : Pool Op Ans ε Call σ) i x task op next, I p →
      p.Asks i task op next → asks task.call task.log op → I (p.answered answer i x task op next))
    {s : σ} (hs : I { store := s }) {ms : List (Move Call χ)}
    (run : Run (Pool.step answer program) { store := s } ms p) :
    I p ∧ p.Specified asks fails returns := by
  refine guarded_of_traces (G := fun _ _ => True) hprogram hstart ?_ hs run
    fun _ _ _ _ _ => trivial
  intro q i x task op next hI _ ha hop
  exact hanswer q i x task op next hI ha hop

end Pool

end Interleaved
