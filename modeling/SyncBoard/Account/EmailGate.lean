import SyncBoard.Account.Provenance

/-!
# The gate for unverified addresses

`EmailVerifiedGuard` believes the claim of an access token, then a key of the cache, then the
row of the user. All three say of a user only what the row says: a claim is signed from a row
that was verified, the key is set after such a row was read, and no verification is taken back.
So nobody who is not verified passes, and nobody is refused who was verified before the request
came.
-/

namespace SyncBoard.Account

open Interleaved Interleaved.Program Relational Labelled

/-- The row of the user says that the address is verified. -/
def IsVerified (s : Store) (id : Uuid) : Prop :=
  ∃ row, s.users.get? id = some row ∧ row.isEmailVerified = true

/-- What the guard believes is so. -/
structure Sound (p : AccountPool) : Prop where
  claims : ∀ payload ∈ p.store.signed, payload.isEmailVerified = true →
    IsVerified p.store payload.sub
  cache : ∀ id value deadline,
    p.store.keys.entries (.emailVerified id) = some (value, deadline) → IsVerified p.store id
  read : ∀ task ∈ p.tasks, ∀ id value,
    Answered task.log (.getKey (.emailVerified id)) (some value) → IsVerified p.store id

section Steps
variable {prims : Primitives} {p : AccountPool} {s t : Store}

theorem IsVerified.later {id : Uuid} (h : IsVerified s id) (hst : Later s t) :
    IsVerified t id := by
  obtain ⟨row, hrow, hverified⟩ := h
  obtain ⟨row', hrow', -, hkept⟩ := hst.users id row hrow
  exact ⟨row', hrow', hkept hverified⟩

theorem Store.Remembers.isVerified {user : User} (h : s.Remembers user.id user.toUserRow)
    (hverified : user.isEmailVerified = true) : IsVerified s user.id := by
  obtain ⟨row, hrow, -, hkept⟩ := h
  exact ⟨row, hrow, hkept hverified⟩

/-- Who is identified is a user whose row is there. -/
theorem Identified.remembers {call : AccountCall} {log : AccountLog} {user : User}
    (h : Identified prims call log user)
    (hrecalled : ∀ op value, Answered log op value → Recalled prims s op value) :
    s.Remembers user.id user.toUserRow := by
  cases h with
  | registered haddress created => exact (hrecalled _ _ created).1
  | loggedIn found hhash compared => exact (hrecalled _ _ found user rfl).1
  | refreshed found hactive => exact (hrecalled _ _ found _ rfl).1
  | reset consumed found => exact (hrecalled _ _ found user rfl).1
  | changed verified found hhash compared => exact (hrecalled _ _ found user rfl).1
  | google huser =>
      cases huser with
      | account hdata byAccount updated => exact (hrecalled _ _ updated).1
      | address hemail hdata unknown byAddress updated => exact (hrecalled _ _ updated).1
      | created hemail haddress haccount created => exact (hrecalled _ _ created).1

/-- A token is signed for a user who is identified. -/
theorem Justified.identified {call : AccountCall} {log : AccountLog} {user : User}
    (h : Justified prims call log (.signToken user)) : Identified prims call log user := by
  cases h with
  | harmless hop => cases hop
  | signToken identified => exact identified

/-- The cache is set for a user who is verified. -/
theorem Justified.cached {call : AccountCall} {log : AccountLog} {id : Uuid} {value : RedisValue}
    {seconds : Nat} (h : Justified prims call log (.setKey (.emailVerified id) value seconds))
    (hrecalled : ∀ op value, Answered log op value → Recalled prims s op value) :
    IsVerified s id := by
  cases h with
  | harmless hop => cases hop
  | setVerified found hverified =>
      obtain ⟨hremembers, hid⟩ := hrecalled _ _ found _ rfl
      have hsame : _ = id := of_decide_eq_true hid
      rw [← hsame]
      exact hremembers.isVerified hverified

theorem Sound.initial : Sound { store := {} } := by
  refine ⟨fun payload hpayload => ?_, fun id value deadline hentry => ?_, fun task htask => ?_⟩
  · cases hpayload
  · cases hentry
  · cases htask

theorem Sound.start (h : Sound p) (call : AccountCall) :
    Sound { p with tasks := p.tasks ++ [⟨call, [], call.program prims⟩] } := by
  refine ⟨h.claims, h.cache, fun task htask id value htold => ?_⟩
  rcases List.mem_append.mp htask with hold | hnew
  · exact h.read task hold id value htold
  · obtain rfl := List.mem_singleton.mp hnew
    cases htold

theorem Sound.answered (h : Sound p) (hfaithful : Faithful prims p) {i : Nat}
    {x : Outside} {task : Task Statement Statement.Reply AccountError AccountCall}
    {op : Statement} {next : op.Reply → AccountProgram Unit} (ha : p.Asks i task op next)
    (hop : Justified prims task.call task.log op) :
    Sound (p.answered (answer prims) i x task op next) := by
  have hrecalled := hfaithful task ha.mem
  have hclaims : ∀ user, op = .signToken user → user.isEmailVerified = true →
      IsVerified p.store user.id := by
    rintro user rfl hclaim
    exact (hop.identified.remembers hrecalled).isVerified hclaim
  have heffect := @effect_answer prims x op p.store
  have hlater : Later p.store (answer prims x op p.store).2 := later_answer x hop
  refine ⟨fun payload hpayload hclaim => ?_, fun id value deadline hentry => ?_, ?_⟩
  · refine IsVerified.later ?_ hlater
    rcases heffect.signed hpayload with hold | ⟨user, hsigned, hsub, hsame⟩
    · exact h.claims payload hold hclaim
    · rw [hsub]
      exact hclaims user hsigned (hsame.symm.trans hclaim)
  · refine IsVerified.later ?_ hlater
    rcases heffect.entries hentry with hold | ⟨value', seconds, rfl, -⟩
    · exact h.cache id value deadline hold
    · exact hop.cached hrecalled
  · intro task' htask' id value htold
    refine IsVerified.later ?_ hlater
    rcases List.mem_or_eq_of_mem_set htask' with hold | rfl
    · exact h.read task' hold id value htold
    · rcases List.mem_append.mp htold with hold | hnew
      · exact h.read task ha.mem id value hold
      · obtain ⟨rfl, hvalue⟩ := Sigma.mk.inj (List.mem_singleton.mp hnew)
        obtain ⟨deadline, hentry⟩ := truthful_answer (eq_of_heq hvalue).symm value rfl
        exact h.cache id value deadline hentry

end Steps

/-- In every state that calls in any order lead to, a request that changes something and has
passed the gate comes from a user whose address is verified. -/
theorem verified_of_passed {prims : Primitives} {p : AccountPool} (h : Reachable prims p)
    {task : Task Statement Statement.Reply AccountError AccountCall} (htask : task ∈ p.tasks)
    {token : AccessToken} {method : Method} (hcall : task.call = .request (some token) method false)
    (hwrites : method.isReadOnly = false) (hdone : task.rest = .done (.ok ())) :
    IsVerified p.store token.sub := by
  have hsound : Sound p := (h.invariant .initial (fun p call hp => hp.start call)
    fun p i x task op next hp hfaithful ha hop => hp.answered hfaithful ha hop).1.1
  have hfaithful := h.faithful
  have hpassed := h.specified.returned htask hdone
  rw [hcall] at hpassed
  obtain ⟨token', payload, htoken, verified, hwhy⟩ := hpassed
  obtain rfl := Option.some.inj htoken
  obtain ⟨rfl, hsigned⟩ := hfaithful task htask _ _ verified payload rfl
  rcases hwhy with hskip | hread | hclaim | cached | ⟨user, found, hverified⟩
  · cases hskip
  · rw [hwrites] at hread
    cases hread
  · exact hsound.claims payload hsigned hclaim
  · exact hsound.read task htask _ _ cached
  · obtain ⟨hremembers, hid⟩ := hfaithful task htask _ _ found user rfl
    have hsame : user.id = payload.sub := of_decide_eq_true hid
    rw [← hsame]
    exact hremembers.isVerified hverified

/-- The access token of the registration, which says that the address is not verified. -/
def earlyToken : AccessToken where
  sub := 1
  email := js "a@b.c"
  displayName := js "Ann"
  avatarUrl := none
  isEmailVerified := false
  iat := 5
  exp := 905
  jti := 1

/-- A request that changes something comes with it. -/
def earlyRequest : List (Move AccountCall Outside) :=
  alone 2 (.request (some earlyToken) .post false) 5 3 300

theorem verified_of_earlyRequest : ∃ p, Reachable plainPrimitives p ∧
    IsVerified p.store earlyToken.sub := by
  obtain ⟨p, task, hexec, htask, hcall, hdone⟩ : ∃ (p : AccountPool) (task : Task Statement
      Statement.Reply AccountError AccountCall), Labelled.exec (AccountPool.step plainPrimitives)
        { store := {} } (verification ++ earlyRequest) = some p ∧ p.tasks[2]? = some task ∧
          task.call = .request (some earlyToken) .post false ∧ task.rest = .done (.ok ()) :=
    ⟨_, _, rfl, rfl, rfl, rfl⟩
  have hreach : Reachable plainPrimitives p := ⟨_, Labelled.run_of_exec hexec⟩
  exact ⟨p, hreach, verified_of_passed hreach (List.mem_of_getElem? htask) hcall rfl hdone⟩

section Refusals
variable {prims : Primitives} {p q : AccountPool} {s : Store}

theorem Store.findUser_id {id : Uuid} {row : UserRow} (h : s.users.get? id = some row) :
    s.findUser (.id id) = some { row with id := id } := by
  cases hfind : s.findUser (.id id) with
  | none =>
      have hselects := Store.findUser_eq_none hfind h
      simp [UserKey.selects] at hselects
  | some user =>
      obtain ⟨hrow, hselects⟩ := Store.findUser_eq_some hfind
      have hid : user.id = id := of_decide_eq_true hselects
      rw [hid, h] at hrow
      obtain ⟨row', id'⟩ := user
      obtain rfl := Option.some.inj hrow
      obtain rfl : id' = id := hid
      rfl

/-- The calls from a position on have read the user as verified, if at all. -/
structure ReadsVerified (prims : Primitives) (id : Uuid) (n : Nat) (p : AccountPool) : Prop where
  reachable : Reachable prims p
  verified : IsVerified p.store id
  reads : ∀ j task, n ≤ j → p.tasks[j]? = some task → ∀ found,
    Answered task.log (.findUser (.id id)) found →
      (found.any fun user => user.isEmailVerified) = true

theorem Reachable.step (h : Reachable prims p) {m : Move AccountCall Outside}
    (hstep : AccountPool.step prims p m = some q) : Reachable prims q := by
  obtain ⟨ms, run⟩ := h
  exact ⟨ms ++ [m], run.snoc hstep⟩

/-- A read of a verified user finds it verified. -/
theorem any_of_isVerified {id : Uuid} (h : IsVerified s id) {x : Outside} {found : Option User}
    (hanswer : (answer prims x (.findUser (.id id)) s).1 = .ok found) :
    (found.any fun user => user.isEmailVerified) = true := by
  obtain ⟨row, hrow, hverified⟩ := h
  obtain ⟨hfound, -⟩ := answer_eq_ok hanswer
  have hrow' : (s.advance x.elapsed).users.get? id = some row := hrow
  have hread : (Except.ok ((s.advance x.elapsed).findUser (.id id)) : Except StoreError _) =
      .ok found := hfound
  rw [Store.findUser_id hrow'] at hread
  cases hread
  exact hverified

theorem ReadsVerified.step {id : Uuid} {n : Nat}
    (h : ReadsVerified prims id n p) {m : Move AccountCall Outside}
    (hstep : AccountPool.step prims p m = some q) : ReadsVerified prims id n q := by
  have hspec := h.reachable.specified
  refine ⟨h.reachable.step hstep, ?_, ?_⟩
  · cases m with
    | start call =>
        obtain rfl := Pool.step_start.mp hstep
        exact h.verified
    | resume i x =>
        obtain ⟨task, op, next, ha, rfl⟩ := Pool.step_resume.mp hstep
        exact h.verified.later (later_answer x (hspec.asked ha))
  · intro j task hj htask found htold
    cases m with
    | start call =>
        have hbefore := Pool.log_start hstep htask htold
        exact h.reads j task hj hbefore found htold
    | resume i x =>
        obtain ⟨task', op, next, ha, rfl⟩ := Pool.step_resume.mp hstep
        rcases ha.log_cases htask htold with ⟨old, hold, hentry⟩ | ⟨rfl, hentry⟩
        · exact h.reads j old hj hold found hentry
        · obtain ⟨rfl, hvalue⟩ := Sigma.mk.inj hentry
          exact any_of_isVerified h.verified (eq_of_heq hvalue).symm

end Refusals

/-- A request that comes after the address of its user was verified is not refused for an
address that is not verified, whatever its access token claims. -/
theorem not_refused_of_verified {prims : Primitives} {p q : AccountPool} (h : Reachable prims p)
    {id : Uuid} (hverified : IsVerified p.store id) {ms : List (Move AccountCall Outside)}
    (run : Run (AccountPool.step prims) p ms q) {j : Nat} (hj : p.tasks.length ≤ j)
    {task : Task Statement Statement.Reply AccountError AccountCall}
    (htask : q.tasks[j]? = some task) {token : AccessToken} {method : Method} {skip : Bool}
    (hcall : task.call = .request (some token) method skip) (hsub : token.sub = id) :
    task.rest ≠ .done (.error .emailNotVerified) := by
  intro hdone
  have hreads : ReadsVerified prims id p.tasks.length q := by
    refine run.invariant (I := ReadsVerified prims id p.tasks.length)
      (fun _ _ _ hp hstep => hp.step hstep) ⟨h, hverified, fun j task hj htask => ?_⟩
    rw [List.getElem?_eq_none hj] at htask
    cases htask
  have hmem : task ∈ q.tasks := List.mem_of_getElem? htask
  obtain ⟨token', method', payload, found, hcall', verified, hfound, hno⟩ :=
    hreads.reachable.specified.thrown hmem hdone rfl
  rw [hcall] at hcall'
  cases hcall'
  obtain ⟨rfl, -⟩ := hreads.reachable.faithful task hmem _ _ verified payload rfl
  rw [hsub] at hfound
  have hyes := hreads.reads j task hj htask found hfound
  rw [hno] at hyes
  cases hyes

theorem not_refused_of_verification : ∃ p q task, Reachable plainPrimitives p ∧
    Run (AccountPool.step plainPrimitives) p earlyRequest q ∧ q.tasks[2]? = some task ∧
      task.rest ≠ .done (.error .emailNotVerified) := by
  obtain ⟨p, hexec, hlength, hrow⟩ : ∃ p, Labelled.exec (AccountPool.step plainPrimitives)
      { store := {} } verification = some p ∧ p.tasks.length = 2 ∧
        (p.store.users.get? 1).map (fun row => row.isEmailVerified) = some true :=
    ⟨_, rfl, rfl, rfl⟩
  obtain ⟨q, task, hexec', htask, hcall⟩ : ∃ (q : AccountPool) (task : Task Statement
      Statement.Reply AccountError AccountCall), Labelled.exec (AccountPool.step plainPrimitives)
        { store := {} } (verification ++ earlyRequest) = some q ∧ q.tasks[2]? = some task ∧
          task.call = .request (some earlyToken) .post false :=
    ⟨_, _, rfl, rfl, rfl⟩
  rw [exec_append, hexec, Option.bind_some] at hexec'
  have hreach : Reachable plainPrimitives p := ⟨_, run_of_exec hexec⟩
  have hverified : IsVerified p.store 1 := Option.map_eq_some_iff.mp hrow
  exact ⟨p, q, task, hreach, run_of_exec hexec', htask,
    not_refused_of_verified hreach hverified (run_of_exec hexec') hlength.le htask hcall rfl⟩

end SyncBoard.Account
