import SyncBoard.Account.Evidence

/-!
# The calls keep to what they have been told

One lemma for each function of the service and its guards, from the statements up to the
calls. `traces_program` is all that the results about runs use.
-/

namespace SyncBoard.Account

open Interleaved Interleaved.Program

variable {prims : Primitives} {call : AccountCall} {log : AccountLog} {α β : Type}

theorem refused_of_ne {error : AccountError} (h : error ≠ .emailNotVerified) :
    Refused log call error :=
  fun heq => absurd heq h

/-- A part of the call asks what is justified, and refuses as specified. -/
def Runs (prims : Primitives) (call : AccountCall) (p : AccountProgram α) (log : AccountLog)
    (returns : α → AccountLog → Prop) : Prop :=
  p.Traces (Justified prims call) (fun log => Refused log call) log returns

namespace Runs
variable {p : AccountProgram α} {returns : α → AccountLog → Prop}

theorem pure {a : α} (h : returns a log) : Runs prims call (pure a) log returns := h

theorem fail {error : AccountError} (h : error ≠ .emailNotVerified) :
    Runs prims call (fail error) log returns :=
  refused_of_ne h

theorem bind {f : α → AccountProgram β} {returns : β → AccountLog → Prop}
    (h : Runs prims call p log fun a log' => Runs prims call (f a) log' returns) :
    Runs prims call (p >>= f) log returns :=
  traces_bind.mpr h

theorem imp (h : Runs prims call p log returns) {returns' : α → AccountLog → Prop}
    (himp : ∀ a log', returns a log' → returns' a log') : Runs prims call p log returns' :=
  Traces.imp h (fun _ _ => id) (fun _ _ => id) himp

theorem attempt {op : Statement} {returns : op.Reply → AccountLog → Prop}
    (h : Justified prims call log op) (hnext : ∀ reply, returns reply (log ++ [⟨op, reply⟩])) :
    Runs prims call (attempt op) log returns :=
  ⟨h, hnext⟩

theorem query {op : Statement} {returns : op.Value → AccountLog → Prop}
    (h : Justified prims call log op)
    (hnext : ∀ value, returns value (log ++ [⟨op, .ok value⟩])) :
    Runs prims call (query op) log returns :=
  (traces_query fun _ _ => refused_of_ne nofun).mpr ⟨h, hnext⟩

/-- The statement is asked, and its value is used. -/
theorem query_bind {op : Statement} {f : op.Value → AccountProgram β}
    {returns : β → AccountLog → Prop} (h : Justified prims call log op)
    (hnext : ∀ value, Runs prims call (f value) (log ++ [⟨op, .ok value⟩]) returns) :
    Runs prims call (Account.query op >>= f) log returns :=
  bind (query h hnext)

theorem refuseIf_bind {c : Bool} {error : AccountError} {f : Unit → AccountProgram β}
    {returns : β → AccountLog → Prop} (h : error ≠ .emailNotVerified)
    (hnext : c = false → Runs prims call (f ()) log returns) :
    Runs prims call (refuseIf c error >>= f) log returns :=
  bind (traces_refuseIf.mpr ⟨fun _ => refused_of_ne h, hnext⟩)

theorem demand_bind {a : Option α} {error : AccountError} {f : α → AccountProgram β}
    {returns : β → AccountLog → Prop} (h : error ≠ .emailNotVerified)
    (hnext : ∀ b, a = some b → Runs prims call (f b) log returns) :
    Runs prims call (demand a error >>= f) log returns :=
  bind (traces_demand.mpr ⟨fun _ => refused_of_ne h, hnext⟩)

/-- A part that is there or not only adds to the log. -/
theorem whenSome {a : Option α} {f : α → AccountProgram Unit}
    {returns : Unit → AccountLog → Prop} (hnext : ∀ log', log <+: log' → returns () log')
    (h : ∀ b, Runs prims call (f b) log returns) :
    Runs prims call (Account.whenSome a f) log returns := by
  cases a with
  | none => exact hnext log (List.prefix_refl log)
  | some b => exact h b

end Runs

theorem runs_issueTokenPair {user : User} (h : Identified prims call log user)
    {returns : TokenPair → AccountLog → Prop}
    (hnext : ∀ pair log', log <+: log' → returns pair log') :
    Runs prims call (AuthService.issueTokenPair prims user) log returns := by
  unfold AuthService.issueTokenPair JwtTokenService.generateAccessToken
  refine .query_bind (.signToken h) fun accessToken => ?_
  refine .query_bind (.harmless trivial) fun refreshToken => ?_
  refine .query_bind (.harmless trivial) fun now => ?_
  refine .query_bind (.harmless trivial) fun familyId => ?_
  refine .query_bind ?_ fun _ => .pure (hnext _ _ ?_)
  · refine .createToken (h.mono ?_) rfl
    simp only [List.append_assoc, List.prefix_append]
  · simp only [List.append_assoc, List.prefix_append]

theorem runs_blacklist {jti : Uuid} {expiresAt : Timestamp} {returns : Unit → AccountLog → Prop}
    (hnext : ∀ log', log <+: log' → returns () log') :
    Runs prims call (TokenBlacklistService.blacklist jti expiresAt) log returns := by
  unfold TokenBlacklistService.blacklist
  refine .query_bind (.harmless trivial) fun now => traces_doIf.mpr ⟨fun _ => ?_, fun _ => ?_⟩
  · exact Runs.query (.harmless trivial) fun _ => hnext _ (by simp)
  · exact hnext _ (List.prefix_append _ _)

theorem runs_jwtAuthGuard {authorization : Option AccessToken}
    {returns : JwtPayload → AccountLog → Prop}
    (hnext : ∀ token payload log', authorization = some token →
      Answered log' (.verifyToken token) (.ok payload) → returns payload log') :
    Runs prims call (JwtAuthGuard.canActivate authorization) log returns := by
  unfold JwtAuthGuard.canActivate JwtTokenService.verifyAccessToken
    TokenBlacklistService.isBlacklisted
  refine .demand_bind nofun fun token htoken => ?_
  refine .bind (.query_bind (.harmless trivial) fun verified => traces_orThrow.mpr ⟨?_, ?_⟩)
  · rintro (_ | _) _
    · exact refused_of_ne nofun
    · exact refused_of_ne nofun
  · rintro payload rfl
    refine .bind (.query_bind (.harmless trivial) fun count => ?_)
    refine .refuseIf_bind nofun fun _ => .pure (hnext token payload _ htoken ?_)
    exact (told_last _ _ _).append _

theorem runs_checkAccessToken {token : AccessToken} {returns : Unit → AccountLog → Prop}
    (hnext : ∀ log', log <+: log' → returns () log') :
    Runs prims call (AnonymousGuard.checkAccessToken token) log returns := by
  unfold AnonymousGuard.checkAccessToken
  refine .query_bind (.harmless trivial) fun verified => ?_
  cases verified with
  | error _ => exact .pure (hnext _ (List.prefix_append _ _))
  | ok payload =>
      refine .bind (.attempt (.harmless trivial) fun result => ?_)
      cases result with
      | error _ => exact .pure (hnext _ (by simp))
      | ok count =>
          exact traces_refuseIf.mpr ⟨fun _ => refused_of_ne nofun, fun _ => hnext _ (by simp)⟩

theorem runs_anonymousGuard {visitor : Visitor} {returns : Unit → AccountLog → Prop}
    (hnext : ∀ log', log <+: log' → returns () log') :
    Runs prims call (AnonymousGuard.canActivate prims visitor) log returns := by
  unfold AnonymousGuard.canActivate
  have hcookie : ∀ log', log <+: log' → Runs prims call
      (whenSome (visitor.cookie.filter fun s => !s.isEmpty)
        (AnonymousGuard.checkRefreshToken prims)) log' returns := by
    intro log' hlog
    refine .whenSome (fun log'' hlog' => hnext _ (hlog.trans hlog')) fun rawRefreshToken => ?_
    unfold AnonymousGuard.checkRefreshToken
    refine .query_bind (.harmless trivial) fun found => ?_
    refine .query_bind (.harmless trivial) fun now => traces_refuseIf.mpr ⟨?_, fun _ => ?_⟩
    · exact fun _ => refused_of_ne nofun
    · exact hnext _ (hlog.trans (by simp))
  exact .bind (.whenSome hcookie fun token => runs_checkAccessToken hcookie)

/-- The lookup finds the user verified, or it does not. -/
theorem runs_lookUp {userId : Uuid} {returns : Bool → AccountLog → Prop}
    (hyes : ∀ user log', log <+: log' →
      Answered log' (.findUser (.id userId)) (some user) → user.isEmailVerified = true →
        returns true log')
    (hno : ∀ found log', log <+: log' → Answered log' (.findUser (.id userId)) found →
      (found.any fun user => user.isEmailVerified) = false → returns false log') :
    Runs prims call (EmailVerifiedGuard.lookUp userId) log returns := by
  unfold EmailVerifiedGuard.lookUp UserRepository.findById
  refine .query_bind (.harmless trivial) fun found => ?_
  split
  · next hverified =>
      cases found with
      | none => cases hverified
      | some user =>
          refine .bind (.attempt (.setVerified (told_last _ _ _) hverified) ?_)
          intro reply
          exact .pure (hyes user _ (by simp) ((told_last _ _ _).append _) hverified)
  · next hverified =>
      rw [Bool.not_eq_true] at hverified
      exact .pure (hno found _ (List.prefix_append _ _) (told_last _ _ _) hverified)

/-- The guard lets pass who is verified, and refuses who is not. -/
theorem runs_emailVerifiedGuard {token : AccessToken} {method : Method} {skip : Bool}
    {payload : JwtPayload} (verified : Answered log (.verifyToken token) (.ok payload)) :
    Runs prims (.request (some token) method skip)
      (EmailVerifiedGuard.canActivate skip method payload) log fun _ log' =>
        Passed prims log' (.request (some token) method skip) := by
  unfold EmailVerifiedGuard.canActivate
  split
  · next hopen =>
      refine .pure ⟨token, payload, rfl, verified, ?_⟩
      rw [Bool.or_eq_true, Bool.or_eq_true] at hopen
      rcases hopen with (hskip | hclaim) | hread
      · exact .inl hskip
      · exact .inr (.inr (.inl hclaim))
      · exact .inr (.inl hread)
  · next hclosed =>
      obtain rfl : skip = false := by
        cases skip with
        | false => rfl
        | true => exact absurd rfl hclosed
      refine .bind ?_
      unfold EmailVerifiedGuard.isVerifiedInDb
      refine .bind (.attempt (.harmless trivial) fun cached => ?_)
      -- what follows where the cache does not have the user
      have hlookUp : Runs prims (.request (some token) method false)
          (EmailVerifiedGuard.lookUp payload.sub)
          (log ++ [⟨.getKey (.emailVerified payload.sub), cached⟩]) fun isVerified log' =>
            Runs prims (.request (some token) method false)
              (refuseIf (!isVerified) .emailNotVerified) log' fun _ log'' =>
                Passed prims log'' (.request (some token) method false) := by
        refine runs_lookUp ?_ ?_
        · intro user log' hlog found huser
          have hprefix := (List.prefix_append log _).trans hlog
          exact .pure ⟨token, payload, rfl, verified.extend hprefix,
            .inr (.inr (.inr (.inr ⟨user, found, huser⟩)))⟩
        · intro found log' hlog hfound hno
          have hprefix := (List.prefix_append log _).trans hlog
          intro _
          exact ⟨token, method, payload, found, rfl, verified.extend hprefix, hfound, hno⟩
      match cached with
      | .ok (some .one) =>
          exact .pure (.pure ⟨token, payload, rfl, verified.append _,
            .inr (.inr (.inr (.inl (told_last _ _ _))))⟩)
      | .ok (some (.userId _)) => exact hlookUp
      | .ok none => exact hlookUp
      | .error _ => exact hlookUp

theorem runs_createEmailVerificationToken {user : User} {returns : JsString → AccountLog → Prop}
    (known : (∃ data, Answered log (.createUser data) user) ∨
      ∃ id, Answered log (.findUser (.id id)) (some user))
    (hnext : ∀ token log', log <+: log' → Answered log'
      (.setKey (.emailVerification (prims.hashToken token)) (.userId user.id) 86400) () →
        returns token log') :
    Runs prims call (AuthService.createEmailVerificationToken prims user.id) log returns := by
  unfold AuthService.createEmailVerificationToken
  refine .query_bind (.harmless trivial) fun rawToken => ?_
  refine .query_bind (.setVerification (told_last _ _ _) ?_) fun _ => ?_
  · rcases known with ⟨data, created⟩ | ⟨id, found⟩
    · exact .inl ⟨data, created.append _⟩
    · exact .inr ⟨id, found.append _⟩
  · exact .pure (hnext _ _ (by simp) (told_last _ _ _))

theorem runs_register {visitor : Visitor} {dto : RegisterDto} :
    Runs prims (.register visitor dto) (AuthService.register prims dto) log fun _ _ => True := by
  unfold AuthService.register UserRepository.createUser
  refine .query_bind (.harmless trivial) fun passwordHash => ?_
  refine .bind (.bind (.attempt (.register (told_last _ _ _)) fun reply => ?_))
  refine traces_orThrow.mpr ⟨fun error _ => refused_of_ne ?_, ?_⟩
  · split <;> nofun
  · rintro user rfl
    have created := told_last (log ++ [⟨.hashPassword dto.password, .ok passwordHash⟩])
      (.createUser
        { email := dto.email, passwordHash := some passwordHash, displayName := dto.displayName })
      (.ok user)
    refine .bind (runs_createEmailVerificationToken (.inl ⟨_, created⟩) ?_)
    intro token log' hlog stored
    refine .bind (runs_issueTokenPair (.registered rfl (created.extend hlog)) ?_)
    intro pair log'' hlog'
    refine .query_bind ?_ fun _ => .pure trivial
    exact .mailRegistered (created.extend (hlog.trans hlog')) (stored.extend hlog')

theorem runs_login {visitor : Visitor} {dto : LoginDto} :
    Runs prims (.login visitor dto) (AuthService.login prims dto) log fun _ _ => True := by
  unfold AuthService.login UserRepository.findByEmail UserRepository.updateLastLogin
  refine .query_bind (.harmless trivial) fun found => ?_
  refine .demand_bind nofun fun user huser => .demand_bind nofun fun hash hhash => ?_
  refine .query_bind (.harmless trivial) fun isPasswordValid => .refuseIf_bind nofun ?_
  intro hvalid
  obtain rfl : isPasswordValid = true := by simpa using hvalid
  subst huser
  refine .bind (.query_bind (.harmless trivial) fun now => ?_)
  refine .query_bind (.cosmetic ⟨rfl, rfl, rfl⟩) fun _ => .pure ?_
  refine .bind (runs_issueTokenPair (.loggedIn ?_ hhash ?_) fun _ _ _ => ?_)
  · simp [Told]
  · simp [Told]
  · exact .query_bind (.harmless trivial) fun _ => .pure trivial

theorem runs_refreshTokens {rawToken : JsString} :
    Runs prims (.refresh (some rawToken)) (AuthService.refreshTokens prims rawToken) log
      fun _ _ => True := by
  unfold AuthService.refreshTokens JwtTokenService.generateAccessToken
  refine .query_bind (.harmless trivial) fun found => .demand_bind nofun fun existing hfound => ?_
  refine .query_bind (.harmless trivial) fun readAt => .refuseIf_bind nofun fun _ => ?_
  subst hfound
  split
  · exact .query_bind (.harmless trivial) fun _ => .fail nofun
  · next hactive =>
      rw [Option.not_isSome_iff_eq_none] at hactive
      refine .query_bind (.harmless trivial) fun newRawToken => ?_
      refine .query_bind (.harmless trivial) fun now => ?_
      refine .query_bind (.rotateToken ?_ hactive rfl) fun _ => ?_
      · simp [Told]
      · refine .query_bind (.signToken (.refreshed ?_ hactive)) fun _ => .pure trivial
        simp [Told]

theorem runs_forgotPassword {visitor : Visitor} {email : JsString} :
    Runs prims (.forgotPassword visitor email) (AuthService.forgotPassword prims email) log
      fun _ _ => True := by
  unfold AuthService.forgotPassword UserRepository.findByEmail
  refine .query_bind (.harmless trivial) fun found => ?_
  cases found with
  | none => exact .pure trivial
  | some user =>
      refine .query_bind (.harmless trivial) fun resetToken => ?_
      refine .query_bind (.setReset (told_last _ _ _) ?_) fun _ => ?_
      · exact (told_last _ _ _).append _
      · have found : Answered (log ++ [⟨.findUser (.email email), .ok (some user)⟩])
            (.findUser (.email email)) (some user) := told_last _ _ _
        exact .query (.mailReset (found.extend (by simp)) (told_last _ _ _)) fun _ => trivial

/-- The id that the call goes on with was read under the key. -/
theorem runs_consume {key : RedisKey} {returns : Uuid → AccountLog → Prop}
    (hnext : ∀ id, returns id (log ++ [⟨.getdelKey key, .ok (some (.userId id))⟩])) :
    Runs prims call (AuthService.consume key) log returns := by
  unfold AuthService.consume
  refine .query_bind (.harmless trivial) fun value => ?_
  match value with
  | some (.userId id) => exact .pure (hnext id)
  | some .one => exact .fail nofun
  | none => exact .fail nofun

theorem runs_resetPassword {visitor : Visitor} {token newPassword : JsString} :
    Runs prims (.resetPassword visitor token newPassword)
      (AuthService.resetPassword prims token newPassword) log fun _ log' =>
        Passed prims log' (.resetPassword visitor token newPassword) := by
  unfold AuthService.resetPassword UserRepository.findById UserRepository.updatePassword
  refine .bind (runs_consume fun userId => ?_)
  refine .query_bind (.harmless trivial) fun found => .demand_bind nofun fun user hfound => ?_
  subst hfound
  refine .query_bind (.harmless trivial) fun passwordHash => ?_
  refine .bind (.query_bind (.resetPassword ?_ (told_last _ _ _)) fun _ => .pure ?_)
  · simp [Told]
  · refine .query_bind (.harmless trivial) fun _ => ?_
    have consumed := told_last log (.getdelKey (.passwordReset (prims.hashToken token)))
      (.ok (some (.userId userId)))
    refine runs_issueTokenPair (.reset (consumed.extend (by simp)) ?_) fun _ log' hlog => ?_
    · simp [Told]
    · exact ⟨userId, (consumed.extend (by simp)).extend hlog⟩

theorem runs_requestEmailVerification {userId : Uuid} :
    Runs prims call (AuthService.requestEmailVerification prims userId) log fun _ _ => True := by
  unfold AuthService.requestEmailVerification UserRepository.findById
  refine .query_bind (.harmless trivial) fun found => .demand_bind nofun fun user hfound => ?_
  subst hfound
  refine .refuseIf_bind nofun fun _ => ?_
  refine .bind (runs_createEmailVerificationToken (.inr ⟨userId, told_last _ _ _⟩) ?_)
  intro token log' hlog stored
  exact .query (.mailVerification ((told_last _ _ _).extend hlog) stored) fun _ => trivial

theorem runs_verifyEmail {token : JsString} :
    Runs prims (.verifyEmail token) (AuthService.verifyEmail prims token) log fun _ log' =>
      Passed prims log' (.verifyEmail token) := by
  unfold AuthService.verifyEmail UserRepository.findById UserRepository.setEmailVerified
  refine .bind (runs_consume fun userId => ?_)
  refine .query_bind (.harmless trivial) fun found => .demand_bind nofun fun user hfound => ?_
  refine .bind (.query_bind (.verifyEmail ?_) fun _ => .pure ?_)
  · simp [Told]
  · refine .query (.harmless trivial) fun _ => ⟨userId, ?_⟩
    simp [Told]

theorem runs_changePassword {token : AccessToken} {payload : JwtPayload} {dto : ChangePasswordDto}
    (verified : Answered log (.verifyToken token) (.ok payload)) :
    Runs prims (.changePassword (some token) dto) (AuthService.changePassword prims payload dto) log
      fun _ _ => True := by
  unfold AuthService.changePassword UserRepository.findById UserRepository.updatePassword
  refine .query_bind (.harmless trivial) fun found => .demand_bind nofun fun user hfound => ?_
  refine .demand_bind nofun fun old hold => ?_
  refine .query_bind (.harmless trivial) fun isCurrentValid => .refuseIf_bind nofun fun hvalid => ?_
  obtain rfl : isCurrentValid = true := by simpa using hvalid
  subst hfound
  refine .query_bind (.harmless trivial) fun hash => ?_
  refine .bind (.query_bind (.changePassword ?_ ?_ hold ?_ ?_)
    fun _ => .pure ?_)
  · exact verified.extend (by simp)
  · simp [Told]
  · simp [Told]
  · simp [Told]
  · refine .query_bind (.harmless trivial) fun _ => .bind (runs_blacklist fun log' hlog => ?_)
    have found : Answered log' (.findUser (.id payload.sub)) (some user) :=
      Told.extend (by simp [Told]) hlog
    have compared : Answered log' (.comparePassword dto.currentPassword old) true :=
      Told.extend (by simp [Told]) hlog
    have hverified : log <+: log' := (by simp : log <+: _).trans hlog
    exact runs_issueTokenPair (.changed (verified.extend hverified) found hold compared)
      fun _ _ _ => trivial

section Google
variable {profile : GoogleProfile} {state : Option JsString} {email : JsString}

theorem runs_linkGoogle {existing : User} {avatarUrl : Option JsString}
    (hemail : profile.email = some email)
    (unknown : Answered log (.findUser (.googleId profile.googleId)) none)
    (byAddress : Answered log (.findUser (.email (prims.toLowerCase email))) (some existing)) :
    Runs prims (.googleCallback profile state)
      (AuthService.linkGoogle existing profile.googleId avatarUrl) log
      fun user log' => GoogleUser prims profile log' user := by
  unfold AuthService.linkGoogle UserRepository.updateGoogleLogin
  refine .query_bind (.harmless trivial) fun now => ?_
  refine .query (.linkGoogle hemail (unknown.append _) (byAddress.append _) ⟨rfl, rfl, rfl⟩) ?_
  intro user
  refine .address hemail ?_ ?_ ?_ (told_last _ _ _)
  · rfl
  · exact unknown.extend (by simp)
  · exact byAddress.extend (by simp)

theorem runs_findOrCreateGoogleUser {displayName : JsString} {avatarUrl : Option JsString}
    (hemail : profile.email = some email) :
    Runs prims (.googleCallback profile state)
      (AuthService.findOrCreateGoogleUser prims profile.googleId email displayName avatarUrl) log
      fun user log' => GoogleUser prims profile log' user := by
  unfold AuthService.findOrCreateGoogleUser UserRepository.findByGoogleId
    UserRepository.findByEmail
  refine .refuseIf_bind nofun fun _ => .query_bind (.harmless trivial) fun byAccount => ?_
  cases byAccount with
  | some found =>
      unfold UserRepository.updateGoogleLogin
      refine .query_bind (.harmless trivial) fun now => ?_
      refine .query (.cosmetic ⟨rfl, rfl, rfl⟩) fun user => ?_
      have byAccount := told_last log (.findUser (.googleId profile.googleId)) (.ok (some found))
      refine .account ?_ (byAccount.extend (by simp)) (told_last _ _ _)
      rfl
  | none =>
      have unknown := told_last log (.findUser (.googleId profile.googleId)) (.ok none)
      refine .query_bind (.harmless trivial) fun byAddress => ?_
      cases byAddress with
      | some user => exact runs_linkGoogle hemail (unknown.append _) (told_last _ _ _)
      | none =>
          refine .query_bind (.harmless trivial) fun now => ?_
          refine .bind (.attempt (.createGoogleUser hemail ?_) fun created => ?_)
          · exact unknown.extend (by simp)
          · cases created with
            | ok user =>
                refine .pure (.created hemail ?_ ?_ (told_last _ _ _))
                · rfl
                · rfl
            | error error =>
                dsimp only
                split
                · refine .query_bind (.harmless trivial) fun existing => ?_
                  cases existing with
                  | none => exact .fail nofun
                  | some user =>
                      exact runs_linkGoogle hemail (unknown.extend (by simp)) (told_last _ _ _)
                · exact .fail nofun

theorem runs_googleStrategy :
    Runs prims (.googleCallback profile state) (GoogleStrategy.validate prims profile) log
      fun user log' => GoogleUser prims profile log' user := by
  unfold GoogleStrategy.validate
  refine .demand_bind nofun fun email hemail => runs_findOrCreateGoogleUser ?_
  exact (Option.filter_eq_some_iff.mp hemail).1

theorem runs_googleCallback :
    Runs prims (.googleCallback profile state) (AuthController.googleCallback prims profile state)
      log fun _ _ => True := by
  unfold AuthController.googleCallback AuthService.validateOAuthState
    AuthService.handleGoogleCallback
  refine .bind (runs_googleStrategy.imp fun user log' huser => ?_)
  refine .bind (.demand_bind nofun fun state _ => ?_)
  refine .query_bind (.harmless trivial) fun found => .refuseIf_bind nofun fun _ => ?_
  refine .query_bind (.harmless trivial) fun _ => .pure (.bind (.bind ?_))
  refine runs_issueTokenPair (.google (huser.mono (by simp))) fun _ _ _ => ?_
  exact .query_bind (.harmless trivial) fun _ => .pure (.pure trivial)

end Google

theorem runs_logout {visitor : Visitor} :
    Runs prims call (AuthController.logout prims visitor) log fun _ _ => True := by
  unfold AuthController.logout
  have hlogout : ∀ access log', Runs prims call
      (whenSome (visitor.cookie.filter fun s => !s.isEmpty) fun rawToken =>
        AuthService.logout prims (some rawToken) access) log' fun _ _ => True := by
    intro access log'
    refine .whenSome (fun _ _ => trivial) fun rawToken => ?_
    unfold AuthService.logout
    refine .bind (.query (.harmless trivial) fun _ => ?_)
    exact .whenSome (fun _ _ => trivial) fun payload => runs_blacklist fun _ _ => trivial
  refine .bind ?_
  unfold AuthService.tryVerifyAccessToken
  cases visitor.authorization with
  | none => exact .pure (hlogout _ _)
  | some token => exact .query_bind (.harmless trivial) fun verified => .pure (hlogout _ _)

/-- Every call asks what is justified, refuses as specified, and passes as specified. -/
theorem traces_program (call : AccountCall) :
    (call.program prims).Traces (Justified prims call) (fun log => Refused log call) []
      fun _ log => Passed prims log call := by
  change Runs prims call (call.program prims) [] fun _ log => Passed prims log call
  cases call with
  | register visitor dto =>
      exact .bind (runs_anonymousGuard fun _ _ => .bind (runs_register.imp fun _ _ _ => trivial))
  | login visitor dto =>
      exact .bind (runs_anonymousGuard fun _ _ => .bind (runs_login.imp fun _ _ _ => trivial))
  | refresh cookie =>
      refine .demand_bind nofun fun rawToken hcookie => .bind ?_
      obtain ⟨rfl, -⟩ := Option.filter_eq_some_iff.mp hcookie
      exact runs_refreshTokens.imp fun _ _ _ => trivial
  | logout visitor => exact runs_logout
  | logoutAll authorization =>
      refine .bind (runs_jwtAuthGuard fun token payload log' htoken verified => ?_)
      exact .query_bind (.harmless trivial) fun _ => runs_blacklist fun _ _ => trivial
  | forgotPassword visitor email =>
      exact .bind (runs_anonymousGuard fun _ _ => runs_forgotPassword)
  | resetPassword visitor token newPassword =>
      exact .bind (runs_anonymousGuard fun _ _ =>
        .bind (runs_resetPassword.imp fun _ _ h => .pure h))
  | verifyEmail token => exact runs_verifyEmail
  | resendVerification authorization =>
      exact .bind (runs_jwtAuthGuard fun _ _ _ _ _ => runs_requestEmailVerification)
  | googleAuth visitor =>
      refine .bind (runs_anonymousGuard fun _ _ => .bind ?_)
      refine .query_bind (.harmless trivial) fun state => ?_
      exact .query_bind (.harmless trivial) fun _ => .pure trivial
  | googleCallback profile state => exact runs_googleCallback
  | updateProfile authorization dto =>
      refine .bind (runs_jwtAuthGuard fun token payload log' htoken verified => .bind ?_)
      exact .query (.cosmetic ⟨rfl, rfl, rfl⟩) fun _ => trivial
  | changePassword authorization dto =>
      refine .bind (runs_jwtAuthGuard fun token payload log' htoken verified => .bind ?_)
      subst htoken
      exact (runs_changePassword verified).imp fun _ _ _ => trivial
  | request authorization method skip =>
      refine .bind (runs_jwtAuthGuard fun token payload log' htoken verified => ?_)
      subst htoken
      exact runs_emailVerifiedGuard verified

end SyncBoard.Account
