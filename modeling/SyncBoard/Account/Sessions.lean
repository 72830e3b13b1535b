import SyncBoard.Account.Recall

/-!
# Sessions come of sign-ins

A refresh token or a signed access token of a user is there only if some call has shown who its
caller is: by the password, by a reset token, by a Google account or by having registered. A
refresh shows nothing but another refresh token, so that its evidence is that of the family.
-/

namespace SyncBoard.Account

open Interleaved Interleaved.Program Relational

/-- What the caller has shown for the service to take it for the user, other than a session. -/
def SignsIn (prims : Primitives) (id : Uuid) : AccountCall → AccountLog → Prop
  | .register _ dto, log => ∃ data user, Answered log (.createUser data) user ∧ user.id = id ∧
      user.email = dto.email
  | .login _ dto, log => ∃ user hash, Answered log (.findUser (.email dto.email)) (some user) ∧
      user.id = id ∧ user.passwordHash = some hash ∧
        prims.bcryptCompare dto.password hash = true
  | .resetPassword _ token _, log =>
      Answered log (.getdelKey (.passwordReset (prims.hashToken token))) (some (.userId id))
  | .changePassword _ dto, log => ∃ user hash, Answered log (.findUser (.id id)) (some user) ∧
      user.passwordHash = some hash ∧ prims.bcryptCompare dto.currentPassword hash = true
  | .googleCallback profile _, log => ∃ user, GoogleUser prims profile log user ∧ user.id = id
  | _, _ => False

/-- Some call has signed in as the user. -/
abbrev SignedIn (prims : Primitives) (p : AccountPool) (id : Uuid) : Prop :=
  p.Evidence (SignsIn prims id)

section Steps
variable {prims : Primitives} {p : AccountPool}

theorem SignsIn.snoc {id : Uuid} (call : AccountCall) (log : AccountLog)
    (entry : Σ op, Statement.Reply op) (h : SignsIn prims id call log) :
    SignsIn prims id call (log ++ [entry]) := by
  cases call with
  | register visitor dto =>
      obtain ⟨data, user, created, hrest⟩ := h
      exact ⟨data, user, created.append _, hrest⟩
  | login visitor dto =>
      obtain ⟨user, hash, found, hrest⟩ := h
      exact ⟨user, hash, found.append _, hrest⟩
  | resetPassword visitor token newPassword => exact Told.append h _
  | changePassword authorization dto =>
      obtain ⟨user, hash, found, hrest⟩ := h
      exact ⟨user, hash, found.append _, hrest⟩
  | googleCallback profile state =>
      obtain ⟨user, huser, hid⟩ := h
      exact ⟨user, huser.mono (List.prefix_append _ _), hid⟩
  | refresh | logout | logoutAll | forgotPassword | verifyEmail | resendVerification | googleAuth
  | updateProfile | request => exact h

/-- Who is identified has signed in, by this call or by the one that the refresh token is from. -/
theorem Identified.signedIn {call : AccountCall} {log : AccountLog} {user : User}
    (h : Identified prims call log user)
    (hrecalled : ∀ op value, Answered log op value → Recalled prims p.store op value) :
    SignsIn prims user.id call log ∨ ∃ rawToken existing, call = .refresh (some rawToken) ∧
      Answered log (.findToken (prims.hashToken rawToken)) (some existing) ∧
        existing.token.userId = user.id := by
  cases h with
  | registered haddress created =>
      have hemail := (hrecalled _ _ created).2
      exact .inl ⟨_, user, created, rfl, hemail.trans haddress⟩
  | loggedIn found hhash compared =>
      exact .inl ⟨user, _, found, rfl, hhash, (hrecalled _ _ compared).symm⟩
  | @refreshed rawToken _ existing found hactive =>
      exact .inr ⟨rawToken, existing, rfl, found, (hrecalled _ _ found existing rfl).2.1.symm⟩
  | reset consumed found =>
      obtain ⟨-, hid⟩ := hrecalled _ _ found user rfl
      rw [of_decide_eq_true hid]
      exact .inl consumed
  | changed verified found hhash compared =>
      obtain ⟨-, hid⟩ := hrecalled _ _ found user rfl
      rw [of_decide_eq_true hid]
      exact .inl ⟨user, _, found, hhash, (hrecalled _ _ compared).symm⟩
  | google huser => exact .inl ⟨user, huser, rfl⟩

/-- Sessions are backed by sign-ins, and so is what a refresh has read of one. -/
structure Backed (prims : Primitives) (p : AccountPool) : Prop where
  signed : ∀ payload ∈ p.store.signed, SignedIn prims p payload.sub
  tokens : ∀ id row, p.store.tokens.get? id = some row → SignedIn prims p row.userId
  told : ∀ task ∈ p.tasks, ∀ tokenHash existing,
    Answered task.log (.findToken tokenHash) (some existing) →
      SignedIn prims p existing.token.userId

theorem Backed.initial : Backed prims { store := {} } := by
  refine ⟨fun payload hpayload => ?_, fun id row hrow => ?_, fun task htask => ?_⟩
  · cases hpayload
  · cases hrow
  · cases htask

theorem Backed.start (h : Backed prims p) (call : AccountCall) :
    Backed prims { p with tasks := p.tasks ++ [⟨call, [], call.program prims⟩] } := by
  refine ⟨fun payload hp => (h.signed payload hp).start call,
    fun id row hrow => (h.tokens id row hrow).start call, ?_⟩
  intro task htask tokenHash existing htold
  rcases List.mem_append.mp htask with hold | hnew
  · exact (h.told task hold tokenHash existing htold).start call
  · obtain rfl := List.mem_singleton.mp hnew
    cases htold

/-- The rows of a bulk revocation belong to whom they belonged. -/
theorem userId_revokeTokens {s : Store} {sessions : Sessions} {id : Uuid}
    {row : Auth.RefreshToken} (h : (s.revokeTokens sessions).tokens.get? id = some row) :
    ∃ old, s.tokens.get? id = some old ∧ old.userId = row.userId := by
  have hwhere : ∀ (q : Auth.RefreshToken → Bool) now,
      (Auth.revokeWhere s.tokens q now).get? id = some row →
        ∃ old, s.tokens.get? id = some old ∧ old.userId = row.userId := by
    intro q now hrow
    rw [Auth.revokeWhere, Table.get?_mapRows, Option.map_eq_some_iff] at hrow
    obtain ⟨old, hold, rfl⟩ := hrow
    refine ⟨old, hold, ?_⟩
    split <;> rfl
  cases sessions with
  | family | token | user => exact hwhere _ _ h

/-- The row of a session after a rotation was inserted by it, or was there before. -/
theorem userId_rotate {s : Store} {previous newId id : Uuid} {data row : Auth.RefreshToken}
    {tokens : Auth.TokenTable} {now : Timestamp}
    (h : Auth.rotate s.tokens previous newId data now = some tokens)
    (hrow : tokens.get? id = some row) :
    (∃ old, s.tokens.get? id = some old ∧ old.userId = row.userId) ∨
      data.userId = row.userId := by
  obtain ⟨withSuccessor, hcreate, hupdate⟩ := Option.bind_eq_some_iff.mp h
  obtain ⟨-, heq⟩ := Option.ite_none_right_eq_some.mp hupdate
  obtain rfl := Option.some.inj heq
  have hsuccessor : ∃ old, withSuccessor.get? id = some old ∧ old.userId = row.userId := by
    rw [Table.get?_modify] at hrow
    split at hrow
    · obtain ⟨old, hold, rfl⟩ := Option.map_eq_some_iff.mp hrow
      exact ⟨old, hold, rfl⟩
    · exact ⟨row, hrow, rfl⟩
  obtain ⟨old, hold, huser⟩ := hsuccessor
  rw [(Auth.create_eq_some hcreate).2 id] at hold
  split at hold
  · cases hold
    exact .inr huser
  · exact .inl ⟨old, hold, huser⟩

/-- A session that a statement leaves was there before, or belongs to whom the statement says. -/
theorem Effect.tokens {s t : Store} {op : Statement} (h : Effect s op t) {id : Uuid}
    {row : Auth.RefreshToken} (hrow : t.tokens.get? id = some row) :
    (∃ old, s.tokens.get? id = some old ∧ old.userId = row.userId) ∨
      ∃ data, (op = .createToken data ∨ ∃ previous, op = .rotateToken previous data) ∧
        data.userId = row.userId := by
  cases h with
  | @createToken data newId tokens hcreate =>
      rw [(Auth.create_eq_some hcreate).2 id] at hrow
      split at hrow
      · cases hrow
        exact .inr ⟨_, .inl rfl, rfl⟩
      · exact .inl ⟨row, hrow, rfl⟩
  | rotateToken hrotate =>
      rcases userId_rotate hrotate hrow with hold | hnew
      · exact .inl hold
      · exact .inr ⟨_, .inr ⟨_, rfl⟩, hnew⟩
  | revokeTokens => exact .inl (userId_revokeTokens hrow)
  | unchanged | createUser | updateUser | setKey | getdelKey | delKey | signToken | emit =>
      exact .inl ⟨row, hrow, rfl⟩

/-- Who is identified is signed in. -/
theorem Backed.identified (h : Backed prims p) (hfaithful : Faithful prims p) {i : Nat}
    {task : Task Statement Statement.Reply AccountError AccountCall} {op : Statement}
    {next : op.Reply → AccountProgram Unit} (ha : p.Asks i task op next) {user : User}
    (hidentified : Identified prims task.call task.log user) : SignedIn prims p user.id := by
  rcases hidentified.signedIn (hfaithful task ha.mem) with
    hsigns | ⟨rawToken, existing, -, found, hid⟩
  · exact ⟨task, ha.mem, hsigns⟩
  · rw [← hid]
    exact h.told task ha.mem _ existing found

/-- The user whose session a statement writes is signed in. -/
theorem Backed.justified (h : Backed prims p) (hfaithful : Faithful prims p) {i : Nat}
    {task : Task Statement Statement.Reply AccountError AccountCall} {op : Statement}
    {next : op.Reply → AccountProgram Unit} (ha : p.Asks i task op next)
    (hop : Justified prims task.call task.log op) :
    (∀ user, op = .signToken user → SignedIn prims p user.id) ∧
      ∀ data, (op = .createToken data ∨ ∃ previous, op = .rotateToken previous data) →
        SignedIn prims p data.userId := by
  obtain ⟨call, log, rest⟩ := task
  cases hop with
  | signToken identified =>
      refine ⟨?_, by rintro data (hdata | ⟨previous, hdata⟩) <;> cases hdata⟩
      rintro user heq
      cases heq
      exact h.identified hfaithful ha identified
  | createToken identified huser =>
      refine ⟨nofun, ?_⟩
      rintro data (hdata | ⟨previous, hdata⟩)
      · cases hdata
        rw [huser]
        exact h.identified hfaithful ha identified
      · cases hdata
  | rotateToken found hactive huser =>
      refine ⟨nofun, ?_⟩
      rintro data (hdata | ⟨previous, hdata⟩)
      · cases hdata
      · cases hdata
        rw [huser]
        exact h.told _ ha.mem _ _ found
  | harmless hharmless =>
      refine ⟨?_, ?_⟩
      · rintro user rfl
        exact absurd hharmless id
      · rintro data (rfl | ⟨previous, rfl⟩) <;> exact absurd hharmless id
  | register | createGoogleUser | cosmetic | resetPassword | changePassword | verifyEmail
  | linkGoogle | setVerification | setReset | setVerified | mailRegistered | mailReset
  | mailVerification =>
      refine ⟨nofun, ?_⟩
      rintro data (hdata | ⟨previous, hdata⟩) <;> cases hdata

theorem Backed.answered (h : Backed prims p) (hfaithful : Faithful prims p) {i : Nat}
    {x : Outside} {task : Task Statement Statement.Reply AccountError AccountCall}
    {op : Statement} {next : op.Reply → AccountProgram Unit} (ha : p.Asks i task op next)
    (hop : Justified prims task.call task.log op) :
    Backed prims (p.answered (answer prims) i x task op next) := by
  obtain ⟨hsign, hwrite⟩ := h.justified hfaithful ha hop
  have heffect := @effect_answer prims x op p.store
  have stays : ∀ {id}, SignedIn prims p id →
      SignedIn prims (p.answered (answer prims) i x task op next) id :=
    fun hsigned => hsigned.answered SignsIn.snoc ha
  have htokens : ∀ id row, (answer prims x op p.store).2.tokens.get? id = some row →
      SignedIn prims p row.userId := by
    intro id row hrow
    rcases heffect.tokens hrow with ⟨old, hold, huser⟩ | ⟨data, hdata, huser⟩
    · rw [← huser]
      exact h.tokens id old hold
    · rw [← huser]
      exact hwrite data hdata
  refine ⟨fun payload hpayload => stays ?_, fun id row hrow => stays (htokens id row hrow), ?_⟩
  · rcases heffect.signed hpayload with hold | ⟨user, hsigned, hsub, -⟩
    · exact h.signed payload hold
    · rw [hsub]
      exact hsign user hsigned
  · intro task' htask' tokenHash existing htold
    rcases List.mem_or_eq_of_mem_set htask' with hold | rfl
    · exact stays (h.told task' hold tokenHash existing htold)
    · rcases List.mem_append.mp htold with hold | hnew
      · exact stays (h.told task ha.mem tokenHash existing hold)
      · -- what is read of a session is in the table that the read leaves
        obtain ⟨rfl, hvalue⟩ := Sigma.mk.inj (List.mem_singleton.mp hnew)
        obtain ⟨hrow, -⟩ := truthful_answer (eq_of_heq hvalue).symm existing rfl
        exact stays (htokens _ _ hrow)

end Steps

/-- In every state that calls in any order lead to, with any statements failing, a session of a
user and an access token signed for a user come of a sign-in as this user. -/
theorem session_of_signIn {prims : Primitives} {p : AccountPool} (h : Reachable prims p) :
    (∀ payload ∈ p.store.signed, SignedIn prims p payload.sub) ∧
      ∀ id row, p.store.tokens.get? id = some row → SignedIn prims p row.userId := by
  have hbacked : Backed prims p := by
    refine (h.invariant .initial (fun p call hp => hp.start call) ?_).1.1
    intro p i x task op next hp hfaithful ha hop
    exact hp.answered hfaithful ha hop
  exact ⟨hbacked.signed, hbacked.tokens⟩

/-- A user registers and logs in again. -/
def registerAndLogin : List (Move AccountCall Outside) :=
  registration ++ alone 1 (.login {} ⟨js "a@b.c", js "Pa55word!"⟩) 10 2 200

theorem session_of_registerAndLogin : ∃ p, Reachable plainPrimitives p ∧
    p.store.signed.map (fun payload => payload.sub) = [1, 1] ∧
      ∀ payload ∈ p.store.signed, SignedIn plainPrimitives p payload.sub := by
  obtain ⟨p, hexec, hsigned⟩ : ∃ p, Labelled.exec (AccountPool.step plainPrimitives)
      { store := {} } registerAndLogin = some p ∧
        p.store.signed.map (fun payload => payload.sub) = [1, 1] := ⟨_, rfl, rfl⟩
  have hreach : Reachable plainPrimitives p := ⟨_, Labelled.run_of_exec hexec⟩
  exact ⟨p, hreach, hsigned, (session_of_signIn hreach).1⟩

end SyncBoard.Account
