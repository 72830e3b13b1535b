import SyncBoard.Account.EmailGate

/-!
# One user for each Google account

`findOrCreateGoogleUser` reads by the account, then by the address, then creates, and where the
insert loses a race reads by the address once more; other sign-ins come between any two of
these. As long as an address stands for one Google account, a user that has an account keeps
it, and every sign-in with the account ends with this user.
-/

namespace SyncBoard.Account

open Interleaved Interleaved.Program Relational

/-- The user has the Google account. -/
def HasAccount (s : Store) (id : Uuid) (googleId : JsString) : Prop :=
  ∃ row, s.users.get? id = some row ∧ row.googleId = some googleId

/-- The call presents a profile of the account with the address, in lower case. -/
def Presents (prims : Primitives) (googleId address : JsString) (call : AccountCall) : Prop :=
  ∃ profile state email, call = .googleCallback profile state ∧ profile.googleId = googleId ∧
    profile.email = some email ∧ prims.toLowerCase email = address

/-- Profiles that are presented with one address are of one account. -/
def OneAccountPerAddress (prims : Primitives) (p : AccountPool) : Prop :=
  ∀ address googleId googleId', ∀ task ∈ p.tasks, ∀ task' ∈ p.tasks,
    Presents prims googleId address task.call → Presents prims googleId' address task'.call →
      googleId = googleId'

/-- No two users have one account; an account was presented with the address of its user; and
what a call has been told of an account stays true. -/
structure Linked (prims : Primitives) (p : AccountPool) : Prop where
  unique : p.store.users.UniqueWhere fun row => row.googleId
  presented : ∀ id row googleId, p.store.users.get? id = some row →
    row.googleId = some googleId → p.Evidence fun call _ => Presents prims googleId row.email call
  found : ∀ task ∈ p.tasks, ∀ googleId user,
    Answered task.log (.findUser (.googleId googleId)) (some user) →
      HasAccount p.store user.id googleId
  updated : ∀ task ∈ p.tasks, ∀ id data user googleId,
    Answered task.log (.updateUser id data) user → data.googleId = some googleId →
      HasAccount p.store user.id googleId
  created : ∀ task ∈ p.tasks, ∀ data user googleId,
    Answered task.log (.createUser data) user → data.googleId = some googleId →
      HasAccount p.store user.id googleId

section Steps
variable {prims : Primitives} {p : AccountPool} {s t : Store}

theorem not_taken_of_clashes {id : Uuid} {row : UserRow} (h : s.clashes id row = false)
    {googleId : JsString} (hrow : row.googleId = some googleId) :
    ¬ s.users.Taken (fun row => row.googleId) id googleId := by
  rintro ⟨j, q, hj, hq, hgoogle⟩
  have hnone := Table.find?_eq_none (Option.not_isSome_iff_eq_none.mp
    (Bool.not_eq_true _ ▸ h)) hq
  simp [hj, hrow, hgoogle] at hnone

/-- A statement keeps the accounts apart. -/
theorem Effect.unique {op : Statement} (h : Effect s op t)
    (hs : s.users.UniqueWhere fun row => row.googleId) :
    t.users.UniqueWhere fun row => row.googleId := by
  cases h with
  | createUser hfresh hfree hwrote =>
      exact (hs.wrote_iff hwrote).mpr fun googleId hrow => not_taken_of_clashes hfree hrow
  | updateUser hold hfree hwrote =>
      exact (hs.wrote_iff hwrote).mpr fun googleId hrow => not_taken_of_clashes hfree hrow
  | @revokeTokens sessions =>
      cases sessions with
      | family | token | user => exact hs
  | unchanged | createToken | rotateToken | setKey | getdelKey | delKey | signToken | emit =>
      exact hs

/-- The account that an update gives to a user is presented with the address of the user. -/
theorem Justified.presents {call : AccountCall} {log : AccountLog} {id : Uuid} {data : UserData}
    (h : Justified prims call log (.updateUser id data))
    (hrecalled : ∀ op value, Answered log op value → Recalled prims s op value)
    {row : UserRow} (hrow : s.users.get? id = some row) {googleId : JsString}
    (hdata : data.googleId = some googleId) : Presents prims googleId row.email call := by
  cases h with
  | harmless hop => cases hop
  | cosmetic hcosmetic =>
      rw [hcosmetic.2.1] at hdata
      cases hdata
  | resetPassword | changePassword | verifyEmail => cases hdata
  | linkGoogle hemail unknown byAddress hlink =>
      obtain ⟨⟨row', hrow', haddress, -⟩, hselects⟩ := hrecalled _ _ byAddress _ rfl
      obtain rfl := Option.some.inj (hrow.symm.trans hrow')
      obtain rfl := Option.some.inj (hlink.2.1.symm.trans hdata)
      exact ⟨_, _, _, rfl, rfl, hemail,
        (of_decide_eq_true hselects : _ = _).symm.trans haddress.symm⟩

theorem Justified.presents_created {call : AccountCall} {log : AccountLog} {data : UserRow}
    (h : Justified prims call log (.createUser data)) {googleId : JsString}
    (hdata : data.googleId = some googleId) : Presents prims googleId data.email call := by
  cases h with
  | harmless hop => cases hop
  | register => cases hdata
  | createGoogleUser hemail unknown =>
      obtain rfl := Option.some.inj hdata
      exact ⟨_, _, _, rfl, rfl, hemail, rfl⟩

/-- While an address stands for one account, a user keeps the account. -/
theorem Linked.kept (h : Linked prims p) (hone : OneAccountPerAddress prims p)
    (hfaithful : Faithful prims p) {i : Nat} {x : Outside}
    {task : Task Statement Statement.Reply AccountError AccountCall} {op : Statement}
    {next : op.Reply → AccountProgram Unit} (ha : p.Asks i task op next)
    (hop : Justified prims task.call task.log op) {id : Uuid} {googleId : JsString}
    (haccount : HasAccount p.store id googleId) :
    HasAccount (answer prims x op p.store).2 id googleId := by
  obtain ⟨row, hrow, hgoogle⟩ := haccount
  rcases (@effect_answer prims x op p.store).user_kept hrow with
    hsame | ⟨data, rfl, hupdated⟩
  · exact ⟨row, hsame, hgoogle⟩
  · refine ⟨_, hupdated, ?_⟩
    change data.googleId.or row.googleId = some googleId
    cases hdata : data.googleId with
    | none => exact hgoogle
    | some googleId' =>
        -- the address of the row was presented with the one account and with the other
        obtain ⟨task', htask', hpresents'⟩ := h.presented id row googleId hrow hgoogle
        have hpresents := hop.presents (hfaithful task ha.mem) hrow hdata
        obtain rfl := hone _ _ _ task ha.mem task' htask' hpresents hpresents'
        rfl

/-- The calls of a pool are calls of the pool after an answer. -/
theorem OneAccountPerAddress.of_answered {i : Nat} {x : Outside}
    {task : Task Statement Statement.Reply AccountError AccountCall} {op : Statement}
    {next : op.Reply → AccountProgram Unit} (ha : p.Asks i task op next)
    (h : OneAccountPerAddress prims (p.answered (answer prims) i x task op next)) :
    OneAccountPerAddress prims p := by
  have hcalls : ∀ t ∈ p.tasks, ∃ t' ∈ (p.answered (answer prims) i x task op next).tasks,
      t'.call = t.call := by
    intro t ht
    have hcases : t = task ∨ t ∈ (p.answered (answer prims) i x task op next).tasks := ha.kept ht
    rcases hcases with rfl | hkept
    · exact ⟨_, ha.renewed x, rfl⟩
    · exact ⟨t, hkept, rfl⟩
  intro address googleId googleId' t ht u hu hpresents hpresents'
  obtain ⟨t', ht', hcall⟩ := hcalls t ht
  obtain ⟨u', hu', hcall'⟩ := hcalls u hu
  refine h address googleId googleId' t' ht' u' hu' ?_ ?_
  · rwa [hcall]
  · rwa [hcall']

theorem Linked.initial : Linked prims { store := {} } := by
  refine ⟨fun j k q r g hq => ?_, fun id row googleId hrow => ?_, ?_, ?_, ?_⟩
  · cases hq
  · cases hrow
  · intro task htask
    cases htask
  · intro task htask
    cases htask
  · intro task htask
    cases htask

theorem Linked.start (h : Linked prims p) (call : AccountCall) :
    Linked prims { p with tasks := p.tasks ++ [⟨call, [], call.program prims⟩] } := by
  have hnew : ∀ task ∈ p.tasks ++ [⟨call, [], call.program prims⟩],
      ∀ op value, Answered task.log op value → task ∈ p.tasks := by
    intro task htask op value htold
    rcases List.mem_append.mp htask with hold | hnew
    · exact hold
    · obtain rfl := List.mem_singleton.mp hnew
      cases htold
  exact ⟨h.unique,
    fun id row googleId hrow hgoogle => (h.presented id row googleId hrow hgoogle).start call,
    fun task htask googleId user htold => h.found task (hnew task htask _ _ htold) _ _ htold,
    fun task htask id data user googleId htold =>
      h.updated task (hnew task htask _ _ htold) id data user googleId htold,
    fun task htask data user googleId htold =>
      h.created task (hnew task htask _ _ htold) data user googleId htold⟩

theorem Linked.answered (h : Linked prims p) (hone : OneAccountPerAddress prims p)
    (hfaithful : Faithful prims p) {i : Nat} {x : Outside}
    {task : Task Statement Statement.Reply AccountError AccountCall} {op : Statement}
    {next : op.Reply → AccountProgram Unit} (ha : p.Asks i task op next)
    (hop : Justified prims task.call task.log op) :
    Linked prims (p.answered (answer prims) i x task op next) := by
  have heffect := @effect_answer prims x op p.store
  have hkept : ∀ {id googleId}, HasAccount p.store id googleId →
      HasAccount (answer prims x op p.store).2 id googleId :=
    fun haccount => h.kept hone hfaithful ha hop haccount
  -- a value was told before, or it is the answer
  have htold : ∀ task' ∈ (p.answered (answer prims) i x task op next).tasks, ∀ op' value,
      Answered task'.log op' value → (∃ old ∈ p.tasks, Answered old.log op' value) ∨
        ∃ hop : op' = op,
          Truthful prims p.store (answer prims x op p.store).2 op (hop ▸ value) := by
    intro task' htask' op' value hvalue
    rcases List.mem_or_eq_of_mem_set htask' with hold | rfl
    · exact .inl ⟨task', hold, hvalue⟩
    · rcases List.mem_append.mp hvalue with hold | hlast
      · exact .inl ⟨task, ha.mem, hold⟩
      · obtain ⟨rfl, heq⟩ := Sigma.mk.inj (List.mem_singleton.mp hlast)
        exact .inr ⟨rfl, truthful_answer (eq_of_heq heq).symm⟩
  refine ⟨heffect.unique h.unique, fun id row googleId hrow hgoogle => ?_, ?_, ?_, ?_⟩
  · refine Pool.Evidence.answered ?_ (fun _ _ _ h => h) ha
    rcases heffect.user hrow with hold | ⟨data, rfl, -, rfl⟩ | ⟨data, old, rfl, hold, rfl⟩
    · exact h.presented id row googleId hold hgoogle
    · exact ⟨task, ha.mem, hop.presents_created hgoogle⟩
    · rcases Option.or_eq_some_iff.mp hgoogle with hdata | ⟨-, hbefore⟩
      · exact ⟨task, ha.mem, hop.presents (hfaithful task ha.mem) hold hdata⟩
      · exact h.presented id old googleId hold hbefore
  · intro task' htask' googleId user hvalue
    rcases htold task' htask' _ _ hvalue with ⟨old, hold, hsame⟩ | ⟨rfl, htruth⟩
    · exact hkept (h.found old hold googleId user hsame)
    · obtain ⟨hrow, hselects⟩ := htruth user rfl
      exact ⟨_, hrow, of_decide_eq_true hselects⟩
  · intro task' htask' id data user googleId hvalue hdata
    rcases htold task' htask' _ _ hvalue with ⟨old, hold, hsame⟩ | ⟨rfl, htruth⟩
    · exact hkept (h.updated old hold id data user googleId hsame hdata)
    · obtain ⟨hrow, -, hgoogle⟩ := htruth
      rw [hdata] at hgoogle
      exact ⟨_, hrow, hgoogle⟩
  · intro task' htask' data user googleId hvalue hdata
    rcases htold task' htask' _ _ hvalue with ⟨old, hold, hsame⟩ | ⟨rfl, htruth⟩
    · exact hkept (h.created old hold data user googleId hsame hdata)
    · obtain ⟨hrow, -, hgoogle⟩ := htruth
      exact ⟨_, hrow, hgoogle.trans hdata⟩

/-- A Google sign-in ends with a user that has the account. -/
theorem GoogleUser.hasAccount (h : Linked prims p) (hfaithful : Faithful prims p)
    {task : Task Statement Statement.Reply AccountError AccountCall} (htask : task ∈ p.tasks)
    {profile : GoogleProfile} {user : User} (huser : GoogleUser prims profile task.log user) :
    HasAccount p.store user.id profile.googleId := by
  cases huser with
  | account hdata byAccount updated =>
      rw [(hfaithful task htask _ _ updated).2]
      exact h.found task htask _ _ byAccount
  | address hemail hdata unknown byAddress updated =>
      exact h.updated task htask _ _ _ _ updated hdata
  | created hemail haddress haccount created => exact h.created task htask _ _ _ created haccount

end Steps

/-- In every state that calls in any order lead to, where an address stands for one Google
account, all that is signed at sign-ins with a Google account is signed for one user. -/
theorem one_user_per_googleAccount {prims : Primitives} {p : AccountPool}
    (h : Reachable prims p) (hone : OneAccountPerAddress prims p) (googleId : JsString) :
    ∃ id, ∀ task ∈ p.tasks, ∀ profile state, task.call = .googleCallback profile state →
      profile.googleId = googleId → ∀ user token,
        Answered task.log (.signToken user) token → user.id = id := by
  have hlinked : Linked prims p := by
    refine (h.invariant (I := fun p => OneAccountPerAddress prims p → Linked prims p)
      (fun _ => .initial) ?_ ?_).1.1 hone
    · intro p call hp hone
      refine Linked.start (hp ?_) call
      intro address googleId googleId' t ht u hu
      exact hone address googleId googleId' t (List.mem_append_left _ ht) u
        (List.mem_append_left _ hu)
    · intro p i x task op next hp hfaithful ha hop hone
      have hbefore := hone.of_answered ha
      exact (hp hbefore).answered hbefore hfaithful ha hop
  have haccount : ∀ task ∈ p.tasks, ∀ profile state, task.call = .googleCallback profile state →
      profile.googleId = googleId → ∀ user token, Answered task.log (.signToken user) token →
        HasAccount p.store user.id googleId := by
    rintro task htask profile state hcall rfl user token hsigned
    obtain ⟨before, after, hlog⟩ := List.append_of_mem hsigned
    have hidentified := (h.justly task htask before _ after hlog).identified
    rw [hcall] at hidentified
    have hprefix : before <+: task.log := ⟨_, hlog.symm⟩
    cases hidentified with
    | google huser => exact (huser.mono hprefix).hasAccount hlinked h.faithful htask
  by_cases hany : ∃ id, HasAccount p.store id googleId
  · obtain ⟨id, row, hrow, hgoogle⟩ := hany
    refine ⟨id, fun task htask profile state hcall hprofile user token hsigned => ?_⟩
    obtain ⟨row', hrow', hgoogle'⟩ :=
      haccount task htask profile state hcall hprofile user token hsigned
    exact hlinked.unique _ _ _ _ _ hrow' hrow hgoogle' hgoogle
  · refine ⟨0, fun task htask profile state hcall hprofile user token hsigned => ?_⟩
    exact absurd ⟨_, haccount task htask profile state hcall hprofile user token hsigned⟩ hany

/-- A Google account signs in twice. -/
def googleTwice : List (Move AccountCall Outside) :=
  let profile : GoogleProfile := { googleId := js "g1", email := some (js "Ann@b.c") }
  alone 0 (.googleAuth {}) 2 1 100 ++ alone 1 (.googleCallback profile (some [100])) 12 1 200 ++
    alone 2 (.googleAuth {}) 2 2 300 ++ alone 3 (.googleCallback profile (some [300])) 11 3 400

/-- The calls whose statements sign for a user. -/
def signers (p : AccountPool) : List Uuid :=
  p.tasks.filterMap fun task => task.log.findSome? fun
    | ⟨.signToken user, .ok _⟩ => some user.id
    | _ => none

theorem one_user_of_googleTwice : ∃ p, Reachable plainPrimitives p ∧ signers p = [1, 1] ∧
    ∃ id, ∀ task ∈ p.tasks, ∀ profile state, task.call = .googleCallback profile state →
      profile.googleId = js "g1" → ∀ user token,
        Answered task.log (.signToken user) token → user.id = id := by
  obtain ⟨p, hexec, hsigners, hcalls⟩ : ∃ p, Labelled.exec (AccountPool.step plainPrimitives)
      { store := {} } googleTwice = some p ∧ signers p = [1, 1] ∧
        p.tasks.map (fun task => task.call) = [.googleAuth {},
          .googleCallback { googleId := js "g1", email := some (js "Ann@b.c") } (some [100]),
          .googleAuth {},
          .googleCallback { googleId := js "g1", email := some (js "Ann@b.c") } (some [300])] :=
    ⟨_, rfl, rfl, rfl⟩
  have hreach : Reachable plainPrimitives p := ⟨_, Labelled.run_of_exec hexec⟩
  refine ⟨p, hreach, hsigners, one_user_per_googleAccount hreach ?_ _⟩
  have hg1 : ∀ task ∈ p.tasks, ∀ googleId address,
      Presents plainPrimitives googleId address task.call → googleId = js "g1" := by
    rintro task htask googleId address ⟨profile, state, email, hcall, rfl, -⟩
    have hmem : task.call ∈ p.tasks.map fun task => task.call := List.mem_map_of_mem htask
    rw [hcalls, hcall] at hmem
    simp only [List.mem_cons, List.not_mem_nil, or_false, reduceCtorEq, false_or,
      AccountCall.googleCallback.injEq] at hmem
    rcases hmem with ⟨rfl, -⟩ | ⟨rfl, -⟩ <;> rfl
  intro address googleId googleId' task htask task' htask' h h'
  rw [hg1 task htask _ _ h, hg1 task' htask' _ _ h']

end SyncBoard.Account
