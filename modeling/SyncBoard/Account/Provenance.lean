import SyncBoard.Account.OneTimeKeys

/-!
# Where passwords and verifications come from

The password of a user was set by the registration of the address, by somebody who gave the
password before, or by somebody who presented a token that was made for the user at the request
of the address. A user is verified only by a token that was made for the user, or by a Google
account of the address.
-/

namespace SyncBoard.Account

open Interleaved Interleaved.Program Relational

/-- The call has set the password of the user with the address. -/
def SetsPassword (prims : Primitives) (id : Uuid) (email hash : JsString) :
    AccountCall → AccountLog → Prop
  | .register _ dto, _ =>
      (∃ salt, hash = prims.bcryptHash salt dto.password) ∧ email = dto.email
  | .resetPassword _ token newPassword, log =>
      (∃ salt, hash = prims.bcryptHash salt newPassword) ∧
        Answered log (.getdelKey (.passwordReset (prims.hashToken token))) (some (.userId id))
  | .changePassword _ dto, log =>
      (∃ salt, hash = prims.bcryptHash salt dto.newPassword) ∧
        ∃ user old, Answered log (.findUser (.id id)) (some user) ∧
          user.passwordHash = some old ∧ prims.bcryptCompare dto.currentPassword old = true
  | _, _ => False

/-- The call has verified the user with the address. -/
def Verifies (prims : Primitives) (id : Uuid) (email : JsString) :
    AccountCall → AccountLog → Prop
  | .verifyEmail token, log =>
      Answered log (.getdelKey (.emailVerification (prims.hashToken token))) (some (.userId id))
  | .googleCallback profile _, _ =>
      ∃ address, profile.email = some address ∧ prims.toLowerCase address = email
  | _, _ => False

/-- The password and the verification of every user come of calls. -/
structure Earned (prims : Primitives) (p : AccountPool) : Prop where
  password : ∀ id row hash, p.store.users.get? id = some row → row.passwordHash = some hash →
    p.Evidence (SetsPassword prims id row.email hash)
  verified : ∀ id row, p.store.users.get? id = some row → row.isEmailVerified = true →
    p.Evidence (Verifies prims id row.email)

section Steps
variable {prims : Primitives} {p : AccountPool}

theorem SetsPassword.snoc {id : Uuid} {email hash : JsString} (call : AccountCall)
    (log : AccountLog) (entry : Σ op, Statement.Reply op)
    (h : SetsPassword prims id email hash call log) :
    SetsPassword prims id email hash call (log ++ [entry]) := by
  cases call with
  | resetPassword visitor token newPassword => exact ⟨h.1, h.2.append _⟩
  | changePassword authorization dto =>
      obtain ⟨hhash, user, old, found, hrest⟩ := h
      exact ⟨hhash, user, old, found.append _, hrest⟩
  | register | login | refresh | logout | logoutAll | forgotPassword | verifyEmail
  | resendVerification | googleAuth | googleCallback | updateProfile | request => exact h

theorem Verifies.snoc {id : Uuid} {email : JsString} (call : AccountCall) (log : AccountLog)
    (entry : Σ op, Statement.Reply op) (h : Verifies prims id email call log) :
    Verifies prims id email call (log ++ [entry]) := by
  cases call with
  | verifyEmail token => exact Told.append h _
  | register | login | refresh | logout | logoutAll | forgotPassword | resetPassword
  | resendVerification | googleAuth | googleCallback | updateProfile | changePassword
  | request => exact h

/-- A new user has the password and the verification that the call gives. -/
theorem Justified.creates {call : AccountCall} {log : AccountLog} {data : UserRow}
    (h : Justified prims call log (.createUser data))
    (hrecalled : ∀ op value, Answered log op value → Recalled prims p.store op value) (id : Uuid) :
    (∀ hash, data.passwordHash = some hash → SetsPassword prims id data.email hash call log) ∧
      (data.isEmailVerified = true → Verifies prims id data.email call log) := by
  cases h with
  | harmless hop => cases hop
  | register hashed =>
      refine ⟨?_, nofun⟩
      rintro hash heq
      obtain rfl := Option.some.inj heq
      exact ⟨hrecalled _ _ hashed, rfl⟩
  | createGoogleUser hemail unknown => exact ⟨nofun, fun _ => ⟨_, hemail, rfl⟩⟩

/-- An updated user has the password and the verification as before, or the call gives them. -/
theorem Justified.updates {call : AccountCall} {log : AccountLog} {id : Uuid} {data : UserData}
    (h : Justified prims call log (.updateUser id data))
    (hrecalled : ∀ op value, Answered log op value → Recalled prims p.store op value)
    {row : UserRow} (hrow : p.store.users.get? id = some row) :
    (∀ hash, data.passwordHash = some hash → SetsPassword prims id row.email hash call log) ∧
      (data.isEmailVerified = some true → Verifies prims id row.email call log) := by
  cases h with
  | harmless hop => cases hop
  | cosmetic hdata =>
      obtain ⟨hpassword, -, hverified⟩ := hdata
      rw [hpassword, hverified]
      exact ⟨nofun, nofun⟩
  | resetPassword consumed hashed =>
      refine ⟨?_, nofun⟩
      rintro hash heq
      obtain rfl := Option.some.inj heq
      exact ⟨hrecalled _ _ hashed, consumed⟩
  | changePassword verified found hold compared hashed =>
      refine ⟨?_, nofun⟩
      rintro hash heq
      obtain rfl := Option.some.inj heq
      exact ⟨hrecalled _ _ hashed, _, _, found, hold, (hrecalled _ _ compared).symm⟩
  | verifyEmail consumed => exact ⟨nofun, fun _ => consumed⟩
  | linkGoogle hemail unknown byAddress hdata =>
      rw [hdata.1]
      refine ⟨nofun, fun _ => ⟨_, hemail, ?_⟩⟩
      obtain ⟨⟨row', hrow', haddress, -⟩, hselects⟩ := hrecalled _ _ byAddress _ rfl
      obtain rfl := Option.some.inj (hrow.symm.trans hrow')
      exact ((of_decide_eq_true hselects).symm.trans haddress.symm)

theorem Earned.answered (h : Earned prims p) (hfaithful : Faithful prims p) {i : Nat}
    {x : Outside} {task : Task Statement Statement.Reply AccountError AccountCall}
    {op : Statement} {next : op.Reply → AccountProgram Unit} (ha : p.Asks i task op next)
    (hop : Justified prims task.call task.log op) :
    Earned prims (p.answered (answer prims) i x task op next) := by
  have hrecalled := hfaithful task ha.mem
  have heffect := @effect_answer prims x op p.store
  -- what every row of the store after the statement comes of
  have hrows : ∀ id row, (answer prims x op p.store).2.users.get? id = some row →
      (∀ hash, row.passwordHash = some hash → p.Evidence (SetsPassword prims id row.email hash)) ∧
        (row.isEmailVerified = true → p.Evidence (Verifies prims id row.email)) := by
    intro id row hrow
    rcases heffect.user hrow with hold | ⟨data, rfl, -, rfl⟩ | ⟨data, old, rfl, hold, rfl⟩
    · exact ⟨fun hash => h.password id row hash hold, h.verified id row hold⟩
    · obtain ⟨hpassword, hverified⟩ := hop.creates hrecalled id
      exact ⟨fun hash hhash => ⟨task, ha.mem, hpassword hash hhash⟩,
        fun hflag => ⟨task, ha.mem, hverified hflag⟩⟩
    · obtain ⟨hpassword, hverified⟩ := hop.updates hrecalled hold
      refine ⟨fun hash hhash => ?_, fun hflag => ?_⟩
      · rcases Option.or_eq_some_iff.mp hhash with hdata | ⟨-, hbefore⟩
        · exact ⟨task, ha.mem, hpassword hash hdata⟩
        · exact h.password id old hash hold hbefore
      · change data.isEmailVerified.getD old.isEmailVerified = true at hflag
        rcases hdata : data.isEmailVerified with _ | flag
        · rw [hdata, Option.getD_none] at hflag
          exact h.verified id old hold hflag
        · rw [hdata, Option.getD_some] at hflag
          exact ⟨task, ha.mem, hverified (hdata.trans (congrArg some hflag))⟩
  refine ⟨fun id row hash hrow hhash => ?_, fun id row hrow hflag => ?_⟩
  · exact ((hrows id row hrow).1 hash hhash).answered SetsPassword.snoc ha
  · exact ((hrows id row hrow).2 hflag).answered Verifies.snoc ha

theorem Earned.initial : Earned prims { store := {} } := by
  refine ⟨fun id row hash hrow => ?_, fun id row hrow => ?_⟩
  · cases hrow
  · cases hrow

theorem Earned.start (h : Earned prims p) (call : AccountCall) :
    Earned prims { p with tasks := p.tasks ++ [⟨call, [], call.program prims⟩] } :=
  ⟨fun id row hash hrow hhash => (h.password id row hash hrow hhash).start call,
    fun id row hrow hflag => (h.verified id row hrow hflag).start call⟩

theorem earned_of_reachable (h : Reachable prims p) : Earned prims p := by
  refine (h.invariant .initial (fun p call hp => hp.start call) ?_).1.1
  intro p i x task op next hp hfaithful ha hop
  exact hp.answered hfaithful ha hop

/-- A one-time key that was read for a user was made for the user; that of a reset, at the
request of the address. -/
theorem madeFor_of_read (h : Reachable prims p)
    {task : Task Statement Statement.Reply AccountError AccountCall} (htask : task ∈ p.tasks)
    {tokenHash : Auth.TokenHash} {id : Uuid}
    (consumed : Answered task.log (.getdelKey (.passwordReset tokenHash)) (some (.userId id)))
    {row : UserRow} (hrow : p.store.users.get? id = some row) :
    ∃ request ∈ p.tasks, ∃ visitor token, request.call = .forgotPassword visitor row.email ∧
      Answered request.log .randomToken token ∧ prims.hashToken token = tokenHash := by
  obtain ⟨request, hrequest, token, user, drawn, rfl, hmade⟩ :=
    (issued_of_reachable h).told task htask _ id rfl consumed
  rcases hmade with ⟨hkey, visitor, email, hcall, found⟩ | ⟨hkey, -⟩
  · obtain ⟨⟨row', hrow', haddress, -⟩, hselects⟩ :=
      h.faithful request hrequest _ _ found user rfl
    obtain rfl := Option.some.inj (hrow.symm.trans hrow')
    obtain rfl : user.email = email := of_decide_eq_true hselects
    refine ⟨request, hrequest, visitor, token, ?_, drawn, ?_⟩
    · rw [hcall, haddress]
    · injection hkey with hhash
      exact hhash.symm
  · cases hkey

end Steps

/-- In every state that calls in any order lead to, the password of a user is the one that was
registered with the address, one that was chosen by somebody who gave the password that was
stored before, or one that was chosen with a reset token which somebody had requested for the
address, by a call that took the key of the token. -/
theorem password_of_owner {prims : Primitives} {p : AccountPool} (h : Reachable prims p)
    {id : Uuid} {row : UserRow} {hash : JsString} (hrow : p.store.users.get? id = some row)
    (hhash : row.passwordHash = some hash) :
    ∃ salt password, hash = prims.bcryptHash salt password ∧ ∃ task ∈ p.tasks,
      (∃ visitor displayName, task.call = .register visitor ⟨row.email, password, displayName⟩) ∨
      (∃ authorization current user old,
        task.call = .changePassword authorization ⟨current, password⟩ ∧
          Answered task.log (.findUser (.id id)) (some user) ∧ user.passwordHash = some old ∧
            prims.bcryptCompare current old = true) ∨
      ∃ visitor token, task.call = .resetPassword visitor token password ∧
        Answered task.log (.getdelKey (.passwordReset (prims.hashToken token)))
          (some (.userId id)) ∧
        ∃ request ∈ p.tasks, ∃ visitor' token',
          request.call = .forgotPassword visitor' row.email ∧
            Answered request.log .randomToken token' ∧
              prims.hashToken token' = prims.hashToken token := by
  obtain ⟨task, htask, hsets⟩ := (earned_of_reachable h).password id row hash hrow hhash
  obtain ⟨call, log, rest⟩ := task
  cases call with
  | register visitor dto =>
      obtain ⟨⟨salt, hsalt⟩, hemail⟩ := hsets
      refine ⟨salt, dto.password, hsalt, _, htask, .inl ⟨visitor, dto.displayName, ?_⟩⟩
      rw [hemail]
  | resetPassword visitor token newPassword =>
      obtain ⟨⟨salt, hsalt⟩, consumed⟩ := hsets
      exact ⟨salt, newPassword, hsalt, _, htask, .inr (.inr ⟨visitor, token, rfl, consumed,
        madeFor_of_read h htask consumed hrow⟩)⟩
  | changePassword authorization dto =>
      obtain ⟨⟨salt, hsalt⟩, user, old, found, hold, hcompared⟩ := hsets
      exact ⟨salt, dto.newPassword, hsalt, _, htask, .inr (.inl ⟨authorization,
        dto.currentPassword, user, old, rfl, found, hold, hcompared⟩)⟩
  | login | refresh | logout | logoutAll | forgotPassword | verifyEmail | resendVerification
  | googleAuth | googleCallback | updateProfile | request => cases hsets

/-- Whether the call is one to change a password. -/
def AccountCall.changes : AccountCall → Bool
  | .changePassword _ _ => true
  | _ => false

/-- Nobody changes a password, so it was registered or reset by a call that took the key. -/
theorem password_of_resetTwice : ∃ p : AccountPool, ∃ row hash salt password,
    Reachable plainPrimitives p ∧ p.store.users.get? 1 = some row ∧
      row.passwordHash = some hash ∧ hash = plainPrimitives.bcryptHash salt password ∧
        ∃ task ∈ p.tasks,
          (∃ visitor displayName,
            task.call = .register visitor ⟨row.email, password, displayName⟩) ∨
          ∃ visitor token, task.call = .resetPassword visitor token password ∧
            Answered task.log (.getdelKey (.passwordReset (plainPrimitives.hashToken token)))
              (some (.userId 1)) ∧
            ∃ request ∈ p.tasks, ∃ visitor', request.call = .forgotPassword visitor' row.email := by
  obtain ⟨p, row, hash, hexec, hrow, hhash, hcalls⟩ : ∃ p row hash, Labelled.exec
      (AccountPool.step plainPrimitives) { store := {} } resetTwice = some p ∧
        p.store.users.get? 1 = some row ∧ row.passwordHash = some hash ∧
          (p.tasks.any fun task => task.call.changes) = false :=
    ⟨_, _, _, rfl, rfl, rfl, rfl⟩
  have hreach : Reachable plainPrimitives p := ⟨_, Labelled.run_of_exec hexec⟩
  obtain ⟨salt, password, hsalt, task, htask, hwho⟩ := password_of_owner hreach hrow hhash
  refine ⟨p, row, hash, salt, password, hreach, hrow, hhash, hsalt, task, htask, ?_⟩
  rcases hwho with hregistered | ⟨authorization, current, -, -, hcall, -⟩ |
    ⟨visitor, token, hcall, htook, request, hrequest, visitor', -, hforgot, -⟩
  · exact .inl hregistered
  · have hchanges := List.any_eq_false.mp hcalls task htask
    rw [hcall] at hchanges
    exact absurd rfl hchanges
  · exact .inr ⟨visitor, token, hcall, htook, request, hrequest, visitor', hforgot⟩

/-- In every state that calls in any order lead to, each mail that brings a token has gone to the
address of the user that the key of the token was stored for. -/
theorem mail_of_owner {prims : Primitives} {p : AccountPool} (h : Reachable prims p)
    {event : AuthEvent} (hevent : event ∈ p.store.events) : Addressed prims p event :=
  (issued_of_reachable h).mails event hevent

theorem mail_of_resetTwice : ∃ p, Reachable plainPrimitives p ∧
    Mailed p 1 (js "a@b.c") (.passwordReset 201) := by
  obtain ⟨p, hexec, hevent⟩ : ∃ p, Labelled.exec (AccountPool.step plainPrimitives)
      { store := {} } resetTwice = some p ∧
        p.store.events.head? = some (.passwordResetRequested 1 (js "a@b.c") [201]) :=
    ⟨_, rfl, rfl⟩
  have hreach : Reachable plainPrimitives p := ⟨_, Labelled.run_of_exec hexec⟩
  exact ⟨p, hreach, mail_of_owner hreach (List.mem_of_head? hevent)⟩

/-- In every state that calls in any order lead to, a verified user has been verified by a call
that took the key of a token that was drawn for this user, or by a Google account that has the
address. -/
theorem verified_of_owner {prims : Primitives} {p : AccountPool} (h : Reachable prims p)
    {id : Uuid} {row : UserRow} (hrow : p.store.users.get? id = some row)
    (hverified : row.isEmailVerified = true) : ∃ task ∈ p.tasks,
      (∃ token, task.call = .verifyEmail token ∧
        Answered task.log (.getdelKey (.emailVerification (prims.hashToken token)))
          (some (.userId id)) ∧
        p.Evidence (MadeFor prims (.emailVerification (prims.hashToken token)) id)) ∨
      ∃ profile state address, task.call = .googleCallback profile state ∧
        profile.email = some address ∧ prims.toLowerCase address = row.email := by
  obtain ⟨task, htask, hverifies⟩ := (earned_of_reachable h).verified id row hrow hverified
  obtain ⟨call, log, rest⟩ := task
  cases call with
  | verifyEmail token =>
      exact ⟨_, htask, .inl ⟨token, rfl, hverifies,
        (issued_of_reachable h).told _ htask _ id rfl hverifies⟩⟩
  | googleCallback profile state =>
      obtain ⟨address, hprofile, haddress⟩ := hverifies
      exact ⟨_, htask, .inr ⟨profile, state, address, rfl, hprofile, haddress⟩⟩
  | register | login | refresh | logout | logoutAll | forgotPassword | resetPassword
  | resendVerification | googleAuth | updateProfile | changePassword | request => cases hverifies

/-- The token of the registration is presented. -/
def verification : List (Move AccountCall Outside) :=
  registration ++ alone 1 (.verifyEmail [102]) 4 2 200

/-- Whether the call is a sign-in with a Google account. -/
def AccountCall.isFromGoogle : AccountCall → Bool
  | .googleCallback _ _ => true
  | _ => false

/-- No call is from a Google account, so the token has verified the user. -/
theorem verified_of_verification : ∃ p : AccountPool, ∃ row, ∃ task ∈ p.tasks,
    Reachable plainPrimitives p ∧ p.store.users.get? 1 = some row ∧
      ∃ token, task.call = .verifyEmail token ∧
        Answered task.log (.getdelKey (.emailVerification (plainPrimitives.hashToken token)))
          (some (.userId 1)) ∧
        p.Evidence (MadeFor plainPrimitives
          (.emailVerification (plainPrimitives.hashToken token)) 1) := by
  obtain ⟨p, row, hexec, hrow, hverified, hcalls⟩ : ∃ p row, Labelled.exec
      (AccountPool.step plainPrimitives) { store := {} } verification = some p ∧
        p.store.users.get? 1 = some row ∧ row.isEmailVerified = true ∧
          (p.tasks.any fun task => task.call.isFromGoogle) = false :=
    ⟨_, _, rfl, rfl, rfl, rfl⟩
  have hreach : Reachable plainPrimitives p := ⟨_, Labelled.run_of_exec hexec⟩
  obtain ⟨task, htask, hwho⟩ := verified_of_owner hreach hrow hverified
  refine ⟨p, row, task, htask, hreach, hrow, ?_⟩
  rcases hwho with htoken | ⟨profile, state, address, hcall, -⟩
  · exact htoken
  · have hgoogle := List.any_eq_false.mp hcalls task htask
    rw [hcall] at hgoogle
    exact absurd rfl hgoogle

end SyncBoard.Account
