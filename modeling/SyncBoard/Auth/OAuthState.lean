import SyncBoard.Auth.Blacklist
import SyncBoard.Lib.Positions

/-!
# OAuth states

`validateOAuthState` asks whether the key of a state exists and deletes it afterwards. Between
the two, other calls find the key as well. A state is used once where no call finds its key
while another one is about to delete it.

## Implementation notes

The URL that `getGoogleAuthUrl` returns is left out. A state is drawn once: no call of a run
sets the key of a state that is presented in it.
-/

namespace SyncBoard.Auth

open Interleaved Interleaved.Program Labelled KeyStore Positional

abbrev OAuthProgram := StoreProgram JsString JsString AuthError

/-- `getGoogleAuthUrl`, which stores the state for ten minutes. -/
def getGoogleAuthUrl (state : JsString) : OAuthProgram Unit :=
  set state (js "1") 600

/-- The deletion of the key, with which `validateOAuthState` ends. -/
def consumeState (state : JsString) : OAuthProgram Unit := do
  let _ ← del state
  return ()

def validateOAuthState (state : Option JsString) : OAuthProgram Unit := do
  let state ← demand (state.filter fun s => !s.isEmpty) .invalidOAuthState
  let found ← existsKey state
  refuseIf (found != 1) .invalidOAuthState
  consumeState state

inductive OAuthCall
  | getGoogleAuthUrl (state : JsString)
  | validateOAuthState (state : Option JsString)
  deriving DecidableEq, Repr

def OAuthCall.program : OAuthCall → OAuthProgram Unit
  | .getGoogleAuthUrl state => Auth.getGoogleAuthUrl state
  | .validateOAuthState state => Auth.validateOAuthState state

abbrev OAuthTask := Task (Command JsString JsString) Command.Answer AuthError OAuthCall

abbrev OAuthPool :=
  Pool (Command JsString JsString) Command.Answer AuthError OAuthCall (Store JsString JsString)

abbrev OAuthPool.step : OAuthPool → Move OAuthCall Outside → Option OAuthPool :=
  Pool.step answer OAuthCall.program

/-- A call with the state has returned. -/
def Succeeded (state : JsString) (task : OAuthTask) : Prop :=
  task.call = .validateOAuthState (some state) ∧ task.rest = .done (.ok ())

/-- At most one call with the state has returned. -/
def UsedOnce (state : JsString) (p : OAuthPool) : Prop :=
  AtMostOne (Succeeded state) p.tasks

/-- A call that finds the key of the state finds it while no other one is about to delete it. -/
def FindsAlone (state : JsString) (p : OAuthPool) : Move OAuthCall Outside → Prop
  | .start _ => True
  | .resume i x => ∀ (task : OAuthTask) next, p.Asks i task (.existsKey state) next →
      (p.store.advance x.elapsed).count x.lingers state = 1 →
        ∀ (j : Nat) (task' : OAuthTask) next', ¬ p.Asks j task' (.del state) next'

/-- A command on another key than that of the state. -/
def OnOtherKey (state : JsString) : Command JsString JsString → Prop
  | .time => True
  | .set key _ _ => key ≠ state
  | .existsKey key => key ≠ state
  | .del key => key ≠ state

/-- A call with the state has yet to ask for its key, or to delete it, or it is over; another
call leaves the key alone. -/
inductive StateTask (state : JsString) : OAuthTask → Prop
  | asking {log} : StateTask state ⟨.validateOAuthState (some state), log,
      validateOAuthState (some state)⟩
  | consuming {log} : StateTask state ⟨.validateOAuthState (some state), log, consumeState state⟩
  | ended {log result} : StateTask state ⟨.validateOAuthState (some state), log, .done result⟩
  | other {call log rest} (hcall : call ≠ .validateOAuthState (some state))
      (hrest : rest.Only (OnOtherKey state)) : StateTask state ⟨call, log, rest⟩

/-- The call has found the key: it is about to delete it, or has done so. -/
def HasFound (state : JsString) (task : OAuthTask) : Prop :=
  task.call = .validateOAuthState (some state) ∧
    (task.rest = consumeState state ∨ task.rest = .done (.ok ()))

/-- One call at most has found the key, and after it has returned the key is gone. -/
structure StateHeld (state : JsString) (p : OAuthPool) : Prop where
  tasks : ∀ task ∈ p.tasks, StateTask state task
  one : AtMostOne (HasFound state) p.tasks
  gone : ∀ task ∈ p.tasks, Succeeded state task → p.store.entries state = none

/-- The call that stores the state does not come in the run. -/
def NotDrawn (state : JsString) (m : Move OAuthCall Outside) : Prop :=
  m ≠ .start (.getGoogleAuthUrl state)

section Tasks
variable {state : JsString} {p q : OAuthPool} {m : Move OAuthCall Outside}

theorem validateOAuthState_of_ne (h : state ≠ []) : validateOAuthState (some state) =
    existsKey state >>= fun found =>
      refuseIf (found != 1) .invalidOAuthState >>= fun _ => consumeState state := by
  cases state with
  | nil => exact absurd rfl h
  | cons => rfl

theorem only_validateOAuthState {presented : Option JsString} (h : presented ≠ some state) :
    (validateOAuthState presented).Only (OnOtherKey state) := by
  cases presented with
  | none => trivial
  | some key =>
      have hkey : key ≠ state := fun heq => h (congrArg some heq)
      by_cases hempty : key = []
      · subst hempty
        trivial
      · have hexists : OnOtherKey state (Command.existsKey key) := hkey
        have hdel : OnOtherKey state (Command.del key) := hkey
        rw [validateOAuthState_of_ne hempty]
        refine (Only.ask hexists).bind fun found => (Only.refuseIf _ _).bind fun _ => ?_
        exact (Only.ask hdel).bind fun _ => Only.pure _

/-- A call starts with asking for the key, or leaves it alone. -/
theorem stateTask_start {call : OAuthCall} (h : call ≠ .getGoogleAuthUrl state) :
    StateTask state ⟨call, [], call.program⟩ := by
  by_cases hcall : call = .validateOAuthState (some state)
  · subst hcall
    exact .asking
  · refine .other hcall ?_
    cases call with
    | getGoogleAuthUrl key =>
        refine Only.ask ?_
        rintro rfl
        exact h rfl
    | validateOAuthState presented =>
        exact only_validateOAuthState fun heq => hcall (congrArg _ heq)

theorem not_hasFound_asking {log : Log Command.Answer} : ¬ HasFound state
    ⟨.validateOAuthState (some state), log, validateOAuthState (some state)⟩ := by
  rintro ⟨-, hrest | hrest⟩
  · cases state <;> cases hrest
  · cases state <;> cases hrest

/-- A command on another key leaves the entry of the state as it is. -/
theorem entries_of_onOtherKey {op : Command JsString JsString} (h : OnOtherKey state op)
    (x : Outside) (s : Store JsString JsString) :
    (answer x op s).2.entries state = s.entries state := by
  cases op with
  | time | existsKey => rfl
  | set key value seconds => exact Function.update_of_ne (Ne.symm h) _ _
  | del key => exact Function.update_of_ne (Ne.symm h) _ _

/-- What the answer makes of a call, and of the key of the state: the key is found or not,
it is deleted, or it is left alone. -/
inductive StateAnswer (state : JsString) (p : OAuthPool) (x : Outside) :
    Command JsString JsString → OAuthTask → OAuthTask → Option (JsString × Nat) → Prop
  | found {log log'} (hfound : (p.store.advance x.elapsed).count x.lingers state = 1) :
      StateAnswer state p x (.existsKey state)
        ⟨.validateOAuthState (some state), log, validateOAuthState (some state)⟩
        ⟨.validateOAuthState (some state), log', consumeState state⟩ (p.store.entries state)
  | refused {op log log' e} : StateAnswer state p x op
      ⟨.validateOAuthState (some state), log, validateOAuthState (some state)⟩
      ⟨.validateOAuthState (some state), log', .done (.error e)⟩ (p.store.entries state)
  | consumed {log log'} : StateAnswer state p x (.del state)
      ⟨.validateOAuthState (some state), log, consumeState state⟩
      ⟨.validateOAuthState (some state), log', .done (.ok ())⟩ none
  | other {op call log log' rest rest'} (hcall : call ≠ .validateOAuthState (some state))
      (hrest : rest'.Only (OnOtherKey state)) :
      StateAnswer state p x op ⟨call, log, rest⟩ ⟨call, log', rest'⟩ (p.store.entries state)

theorem StateTask.answered {i : Nat} {x : Outside} {task : OAuthTask}
    {op : Command JsString JsString} {next : op.Answer → OAuthProgram Unit}
    (h : StateTask state task) (ha : p.Asks i task op next) :
    StateAnswer state p x op task
      ⟨task.call, task.log ++ [⟨op, (answer x op p.store).1⟩], next (answer x op p.store).1⟩
      ((answer x op p.store).2.entries state) := by
  obtain ⟨-, hrest⟩ := ha
  cases h with
  | asking =>
      by_cases hempty : state = []
      · subst hempty
        cases hrest
      · rw [validateOAuthState_of_ne hempty] at hrest
        obtain ⟨rfl, hnext⟩ := Program.await.inj hrest
        obtain rfl := eq_of_heq hnext
        change StateAnswer state p x _ _ ⟨_, _,
          refuseIf ((p.store.advance x.elapsed).count x.lingers state != 1) .invalidOAuthState >>=
            fun _ => consumeState state⟩ (p.store.entries state)
        by_cases hcount : (p.store.advance x.elapsed).count x.lingers state = 1
        · have hrest : ((p.store.advance x.elapsed).count x.lingers state != 1) = false := by
            simp [hcount]
          rw [hrest, refuseIf_false_bind]
          exact .found hcount
        · have hrest : ((p.store.advance x.elapsed).count x.lingers state != 1) = true := by
            simpa using hcount
          rw [hrest]
          exact .refused
  | consuming =>
      obtain ⟨rfl, hnext⟩ := Program.await.inj hrest
      obtain rfl := eq_of_heq hnext
      have hgone : (answer x (Command.del state) p.store).2.entries state = none :=
        Function.update_self _ _ _
      rw [hgone]
      exact .consumed
  | ended => cases hrest
  | other hcall honly =>
      dsimp only at hrest
      subst hrest
      rw [entries_of_onOtherKey honly.1]
      exact .other hcall (honly.2 _)

theorem StateAnswer.stateTask {x : Outside} {op : Command JsString JsString}
    {task task' : OAuthTask} {entry : Option (JsString × Nat)}
    (h : StateAnswer state p x op task task' entry) : StateTask state task' := by
  cases h with
  | found => exact .consuming
  | refused => exact .ended
  | consumed => exact .ended
  | other hcall hrest => exact .other hcall hrest

/-- What is left of the calls is kept by every step. -/
theorem stateTasks_step (h : ∀ task ∈ p.tasks, StateTask state task) (hm : NotDrawn state m)
    (hstep : p.step m = some q) : ∀ task ∈ q.tasks, StateTask state task := by
  cases m with
  | start call =>
      obtain rfl := Pool.step_start.mp hstep
      intro task htask
      rcases List.mem_append.mp htask with htask | htask
      · exact h task htask
      · obtain rfl := List.mem_singleton.mp htask
        exact stateTask_start fun hcall => hm (congrArg _ hcall)
  | resume i x =>
      obtain ⟨task, op, next, ha, rfl⟩ := Pool.step_resume.mp hstep
      intro task' htask'
      rcases List.mem_or_eq_of_mem_set htask' with htask' | rfl
      · exact h task' htask'
      · exact ((h task ha.mem).answered ha).stateTask

/-- A call that is over has not found the key, unless it has returned. -/
theorem not_hasFound_error {log : Log Command.Answer} {call : OAuthCall} {e : AuthError} :
    ¬ HasFound state ⟨call, log, .done (.error e)⟩ := by
  rintro ⟨-, hrest | hrest⟩
  · cases hrest
  · cases hrest

theorem asks_of_consuming {j : Nat} {task : OAuthTask} (htask : p.tasks[j]? = some task)
    (hrest : task.rest = consumeState state) :
    ∃ next, p.Asks j task (.del state) next ∧ ∀ a, next a = .done (.ok ()) :=
  ⟨_, ⟨htask, hrest⟩, fun _ => rfl⟩

/-- A key that is found while no call is about to delete it has not been found before. -/
theorem StateHeld.not_hasFound (h : StateHeld state p) {x : Outside}
    (hcount : (p.store.advance x.elapsed).count x.lingers state = 1)
    (halone : ∀ (j : Nat) (task' : OAuthTask) next', ¬ p.Asks j task' (.del state) next') :
    ∀ task ∈ p.tasks, ¬ HasFound state task := by
  rintro task htask ⟨hcall, hrest | hrest⟩
  · obtain ⟨j, hj⟩ := List.mem_iff_getElem?.mp htask
    obtain ⟨next, ha, -⟩ := asks_of_consuming hj hrest
    exact halone j task next ha
  · have hgone := h.gone task htask ⟨hcall, hrest⟩
    have hnone : (p.store.advance x.elapsed).get x.lingers state = none := by
      rw [Store.get, Store.advance, hgone, Option.bind_none]
    rw [Store.count, hnone] at hcount
    cases hcount

theorem not_hasFound_start (call : OAuthCall) : ¬ HasFound state ⟨call, [], call.program⟩ := by
  rintro ⟨hcall, hrest⟩
  dsimp only at hcall
  subst hcall
  exact not_hasFound_asking ⟨rfl, hrest⟩

theorem Succeeded.hasFound {task : OAuthTask} (h : Succeeded state task) : HasFound state task :=
  ⟨h.1, .inr h.2⟩

/-- Whatever the answer is, one call at most has found the key, and where it has returned the
key is gone. -/
theorem StateHeld.answered (h : StateHeld state p) {i : Nat} {x : Outside} {task task' : OAuthTask}
    {op : Command JsString JsString} {next : op.Answer → OAuthProgram Unit}
    {entry : Option (JsString × Nat)} (ha : p.Asks i task op next)
    (halone : FindsAlone state p (.resume i x))
    (hanswer : StateAnswer state p x op task task' entry) :
    AtMostOne (HasFound state) (p.tasks.set i task') ∧
      ∀ t ∈ p.tasks.set i task', Succeeded state t → entry = none := by
  have hold : ∀ t ∈ p.tasks.set i task', Succeeded state t →
      t = task' ∨ p.store.entries state = none := by
    intro t ht hsucceeded
    rcases List.mem_or_eq_of_mem_set ht with ht | rfl
    · exact .inr (h.gone t ht hsucceeded)
    · exact .inl rfl
  cases hanswer with
  | found hcount =>
      have hnone := h.not_hasFound hcount (halone _ next ha hcount)
      refine ⟨h.one.set ha.1 fun _ => .inr hnone, fun t ht hsucceeded => ?_⟩
      rcases hold t ht hsucceeded with rfl | hgone
      · cases hsucceeded.2
      · exact hgone
  | refused =>
      refine ⟨h.one.set ha.1 fun hfound => absurd hfound not_hasFound_error, ?_⟩
      intro t ht hsucceeded
      rcases hold t ht hsucceeded with rfl | hgone
      · cases hsucceeded.2
      · exact hgone
  | consumed => exact ⟨h.one.set ha.1 fun _ => .inl ⟨rfl, .inl rfl⟩, fun _ _ _ => rfl⟩
  | other hcall =>
      refine ⟨h.one.set ha.1 fun hfound => absurd hfound.1 hcall, fun t ht hsucceeded => ?_⟩
      rcases hold t ht hsucceeded with rfl | hgone
      · exact absurd hsucceeded.1 hcall
      · exact hgone

theorem StateHeld.step (h : StateHeld state p) (hm : NotDrawn state m)
    (halone : FindsAlone state p m) (hstep : p.step m = some q) : StateHeld state q := by
  have htasks := stateTasks_step h.tasks hm hstep
  cases m with
  | start call =>
      obtain rfl := Pool.step_start.mp hstep
      refine ⟨htasks, h.one.concat (not_hasFound_start call), fun task htask hsucceeded => ?_⟩
      rcases List.mem_append.mp htask with htask | htask
      · exact h.gone task htask hsucceeded
      · obtain rfl := List.mem_singleton.mp htask
        exact absurd hsucceeded.hasFound (not_hasFound_start call)
  | resume i x =>
      obtain ⟨task, op, next, ha, rfl⟩ := Pool.step_resume.mp hstep
      have hanswer := (h.tasks task ha.mem).answered (x := x) ha
      obtain ⟨hone, hgone⟩ := h.answered ha halone hanswer
      exact ⟨htasks, hone, hgone⟩

/-- Two calls that have found the key both return. -/
theorem not_usedOnce_of_consuming {i j : Nat} {task task' : OAuthTask}
    (hi : p.tasks[i]? = some task) (hj : p.tasks[j]? = some task') (hij : i ≠ j)
    (hcall : task.call = .validateOAuthState (some state))
    (hcall' : task'.call = .validateOAuthState (some state))
    (hrest : task.rest = consumeState state) (hrest' : task'.rest = consumeState state) :
    ∃ q, Run OAuthPool.step p [.resume i {}, .resume j {}] q ∧ ¬ UsedOnce state q := by
  obtain ⟨next, ha, hnext⟩ := asks_of_consuming hi hrest
  let first : OAuthPool := p.answered answer i {} task (.del state) next
  have hfirst : p.step (.resume i {}) = some first := Pool.step_resume.mpr ⟨_, _, _, ha, rfl⟩
  have hj' : first.tasks[j]? = some task' := by
    rw [← hj]
    exact List.getElem?_set_ne hij
  obtain ⟨next', ha', hnext'⟩ := asks_of_consuming hj' hrest'
  let second : OAuthPool := first.answered answer j {} task' (.del state) next'
  have hsecond : first.step (.resume j {}) = some second :=
    Pool.step_resume.mpr ⟨_, _, _, ha', rfl⟩
  have hilt : i < p.tasks.length := (List.getElem?_eq_some_iff.mp hi).1
  have hjlt : j < first.tasks.length := (List.getElem?_eq_some_iff.mp hj').1
  obtain ⟨t, ht, hdone⟩ : ∃ t, second.tasks[i]? = some t ∧ Succeeded state t :=
    ⟨_, (List.getElem?_set_ne (Ne.symm hij)).trans (List.getElem?_set_self hilt), hcall, hnext _⟩
  obtain ⟨t', ht', hdone'⟩ : ∃ t', second.tasks[j]? = some t' ∧ Succeeded state t' :=
    ⟨_, List.getElem?_set_self hjlt, hcall', hnext' _⟩
  refine ⟨second, ((Run.nil p).snoc hfirst).snoc hsecond, fun hone => hij ?_⟩
  exact hone i j t t' ht ht' hdone hdone'

/-- A call that asks for the key of the state, and finds it, goes on to delete it. -/
theorem StateTask.consumes {task : OAuthTask} {next : Nat → OAuthProgram Unit}
    (h : StateTask state task) (hrest : task.rest = .await (.existsKey state) next) :
    task.call = .validateOAuthState (some state) ∧ next 1 = consumeState state := by
  cases h with
  | asking =>
      by_cases hempty : state = []
      · subst hempty
        cases hrest
      · rw [validateOAuthState_of_ne hempty] at hrest
        obtain rfl := eq_of_heq (Program.await.inj hrest).2
        exact ⟨rfl, rfl⟩
  | consuming => cases (Program.await.inj hrest).1
  | ended => cases hrest
  | other _ honly =>
      dsimp only at hrest
      subst hrest
      exact absurd rfl honly.1

theorem StateTask.consuming_of_del {task : OAuthTask} {next : Nat → OAuthProgram Unit}
    (h : StateTask state task) (hrest : task.rest = .await (.del state) next) :
    task.call = .validateOAuthState (some state) ∧ task.rest = consumeState state := by
  cases h with
  | asking =>
      by_cases hempty : state = []
      · subst hempty
        cases hrest
      · rw [validateOAuthState_of_ne hempty] at hrest
        cases (Program.await.inj hrest).1
  | consuming => exact ⟨rfl, rfl⟩
  | ended => cases hrest
  | other _ honly =>
      dsimp only at hrest
      subst hrest
      exact absurd rfl honly.1

/-- Where a call finds the key while another one is about to delete it, both can return. -/
theorem exists_reuse (h : ∀ task ∈ p.tasks, StateTask state task)
    (hshared : ¬ FindsAlone state p m) (hstep : p.step m = some q) :
    ∃ i j u, Run OAuthPool.step q [.resume i {}, .resume j {}] u ∧ ¬ UsedOnce state u := by
  cases m with
  | start call => exact absurd trivial hshared
  | resume i x =>
      simp only [FindsAlone, not_forall, not_not] at hshared
      obtain ⟨task, next, ha, hcount, j, task', next', ha'⟩ := hshared
      obtain ⟨task'', op, next'', ha'', rfl⟩ := Pool.step_resume.mp hstep
      obtain ⟨rfl, rfl⟩ := ha.unique ha''
      obtain rfl := eq_of_heq (Program.await.inj (ha.2.symm.trans ha''.2)).2
      obtain ⟨hcall, hnext⟩ := (h task ha.mem).consumes ha.2
      obtain ⟨hcall', hrest'⟩ := (h task' ha'.mem).consuming_of_del ha'.2
      have hij : i ≠ j := by
        rintro rfl
        cases (ha.unique ha').2
      have hanswer : (answer x (Command.existsKey state) p.store).1 = (1 : Nat) := hcount
      have hi : (p.answered answer i x task (.existsKey state) next).tasks[i]? =
          some { task with
            log := task.log ++ [⟨.existsKey state, (answer x (.existsKey state) p.store).1⟩]
            rest := next (answer x (Command.existsKey state) p.store).1 } :=
        List.getElem?_set_self (List.getElem?_eq_some_iff.mp ha.1).1
      have hj : (p.answered answer i x task (.existsKey state) next).tasks[j]? = some task' :=
        (List.getElem?_set_ne hij).trans ha'.1
      obtain ⟨u, hu⟩ := not_usedOnce_of_consuming hi hj hij hcall hcall'
        ((congrArg next hanswer).trans hnext) hrest'
      exact ⟨i, j, u, hu⟩

end Tasks

theorem stateHeld_initial (state : JsString) (s : Store JsString JsString) :
    StateHeld state { store := s } where
  tasks _ htask := by cases htask
  one := atMostOne_nil _
  gone _ htask := by cases htask

/-- In a run in which every call that finds the key of the state finds it while no other one
is about to delete it, at most one call with the state returns. Where a call finds the key
while another one is about to delete it, the run can go on so that both return. -/
theorem state_used_once (state : JsString) (s : Store JsString JsString)
    (ms : List (Move OAuthCall Outside)) (hdrawn : ∀ m ∈ ms, NotDrawn state m) :
    (AllSteps OAuthPool.step (FindsAlone state) { store := s } ms →
      AllStates OAuthPool.step (UsedOnce state) { store := s } ms) ∧
    ∀ bs m p q, bs ++ [m] <+: ms → Run OAuthPool.step { store := s } bs p → p.step m = some q →
      ¬ FindsAlone state p m →
        ∃ i j u, Run OAuthPool.step q [.resume i {}, .resume j {}] u ∧ ¬ UsedOnce state u := by
  have hall : AllSteps OAuthPool.step (fun _ m => NotDrawn state m) { store := s } ms := by
    intro bs m p hprefix _
    apply hdrawn m
    exact List.IsPrefix.subset hprefix (List.mem_append_right bs (List.mem_singleton_self m))
  constructor
  · intro halone bs p hprefix run
    have hguards : AllSteps OAuthPool.step (fun p m => NotDrawn state m ∧ FindsAlone state p m)
        { store := s } bs := by
      intro cs m q hcs hq
      exact ⟨hall cs m q (hcs.trans hprefix) hq, halone cs m q (hcs.trans hprefix) hq⟩
    have hheld : StateHeld state p :=
      run.guarded (fun _ _ _ hp hg hstep => hp.step hg.1 hg.2 hstep) (stateHeld_initial state s)
        hguards
    exact hheld.one.imp fun _ => Succeeded.hasFound
  · intro bs m p q hprefix run hstep hshared
    have htasks : ∀ task ∈ p.tasks, StateTask state task :=
      run.guarded (fun _ _ _ hp hg hstep => stateTasks_step hp hg hstep)
        (stateHeld_initial state s).tasks (hall.shorten ((List.prefix_append bs [m]).trans hprefix))
    exact exists_reuse htasks hshared hstep

/-- The state `abc`, stored by `getGoogleAuthUrl`. -/
def storedState : Store JsString JsString :=
  ({} : Store JsString JsString).set (js "abc") (js "1") 600

/-- Two callbacks with the state, of which the second asks for the key once the first has
deleted it. -/
def callbackTwice : List (Move OAuthCall Outside) :=
  [.start (.validateOAuthState (some (js "abc"))), .start (.validateOAuthState (some (js "abc"))),
    .resume 0 {}, .resume 0 {}, .resume 1 {}]

/-- Two callbacks that both ask for the key before one of them deletes it. -/
def callbackRace : List (Move OAuthCall Outside) :=
  [.start (.validateOAuthState (some (js "abc"))), .start (.validateOAuthState (some (js "abc"))),
    .resume 0 {}, .resume 1 {}, .resume 0 {}, .resume 1 {}]

/-- No call is about to delete the key. -/
theorem findsAlone_of_none {state : JsString} {p : OAuthPool}
    (h : ∀ task ∈ p.tasks, ∀ next, task.rest ≠ .await (.del state) next)
    (m : Move OAuthCall Outside) : FindsAlone state p m := by
  cases m with
  | start call => trivial
  | resume i x =>
      intro task next _ _ j task' next' ha'
      exact h task' (List.mem_of_getElem? ha'.1) next' ha'.2

/-- The first of the two callbacks returns, and the second one is refused. -/
theorem state_used_once_callbackTwice :
    AllStates OAuthPool.step (UsedOnce (js "abc")) { store := storedState } callbackTwice ∧
      ∃ p, Run OAuthPool.step { store := storedState } callbackTwice p ∧
        p.tasks.map (·.rest) = [.done (.ok ()), .done (.error .invalidOAuthState)] := by
  refine ⟨(state_used_once (js "abc") storedState callbackTwice ?_).1 ?_, ?_⟩
  · intro m hm
    rintro rfl
    simp [callbackTwice] at hm
  · refine allSteps_cons.mpr ⟨trivial, fun p hp => ?_⟩
    obtain rfl := Option.some.inj hp
    refine allSteps_cons.mpr ⟨trivial, fun p hp => ?_⟩
    obtain rfl := Option.some.inj hp
    refine allSteps_cons.mpr ⟨?_, fun p hp => ?_⟩
    · -- both are about to ask for the key
      apply findsAlone_of_none
      intro task htask next hrest
      have hasking : task.rest = validateOAuthState (some (js "abc")) := by
        rcases List.mem_cons.mp htask with rfl | htask
        · rfl
        · obtain rfl := List.mem_singleton.mp htask
          rfl
      cases hasking.symm.trans hrest
    · obtain rfl := Option.some.inj hp
      refine allSteps_cons.mpr ⟨?_, fun p hp => ?_⟩
      · -- the first one deletes it
        rintro task next ⟨htask, hrest⟩
        obtain rfl := Option.some.inj htask
        cases hrest
      · obtain rfl := Option.some.inj hp
        refine allSteps_cons.mpr ⟨?_, fun p _ => allSteps_nil⟩
        -- the second one does not find it
        intro task next _ hfound
        exact absurd hfound (by decide)
  · obtain ⟨p, hp⟩ : ∃ p, exec OAuthPool.step { store := storedState } callbackTwice = some p :=
      ⟨_, rfl⟩
    refine ⟨p, run_of_exec hp, ?_⟩
    obtain rfl := Option.some.inj hp
    rfl

/-- Both callbacks return. -/
theorem callbackRace_uses_twice : ¬ ∀ (state : JsString) (s : Store JsString JsString)
    (ms : List (Move OAuthCall Outside)), (∀ m ∈ ms, NotDrawn state m) →
      AllStates OAuthPool.step (UsedOnce state) { store := s } ms := by
  intro hall
  have honce := hall (js "abc") storedState callbackRace (by
    intro m hm
    rintro rfl
    simp [callbackRace] at hm)
  obtain ⟨p, hp⟩ : ∃ p, exec OAuthPool.step { store := storedState } callbackRace = some p :=
    ⟨_, rfl⟩
  have htwice := honce callbackRace p (List.prefix_refl _) (run_of_exec hp)
  obtain rfl := Option.some.inj hp
  cases htwice 0 1 _ _ rfl rfl ⟨rfl, rfl⟩ ⟨rfl, rfl⟩

end SyncBoard.Auth
