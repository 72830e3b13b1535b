import SyncBoard.Account.AuthService

/-!
# What the calls have been told when they write

Each call of `AuthService` is specified by its log: a write that concerns an identity (a user,
a session, a signed token, a one-time key, a mail) is asked only after certain answers
(`Justified`), and a guarded request passes or is refused only after certain answers
(`Passed`, `Refused`). The rest of the account package uses the calls through
`traces_program` alone.
-/

namespace SyncBoard.Account

open Interleaved Interleaved.Program

abbrev AccountLog := Log Statement.Reply

/-- The statement was answered with a value. -/
abbrev Answered (log : AccountLog) (op : Statement) (value : op.Value) : Prop :=
  Told log op (.ok value)

/-- The user that a Google sign-in ends with: the one whose account it is, the one that has the
address, or a new one. -/
inductive GoogleUser (prims : Primitives) (profile : GoogleProfile) (log : AccountLog) :
    User → Prop
  | account {found user : User} {data : UserData} (hdata : data.googleId = none)
      (byAccount : Answered log (.findUser (.googleId profile.googleId)) (some found))
      (updated : Answered log (.updateUser found.id data) user) :
      GoogleUser prims profile log user
  | address {email : JsString} {found user : User} {data : UserData}
      (hemail : profile.email = some email) (hdata : data.googleId = some profile.googleId)
      (unknown : Answered log (.findUser (.googleId profile.googleId)) none)
      (byAddress : Answered log (.findUser (.email (prims.toLowerCase email))) (some found))
      (updated : Answered log (.updateUser found.id data) user) :
      GoogleUser prims profile log user
  | created {email : JsString} {user : User} {data : UserRow}
      (hemail : profile.email = some email) (haddress : data.email = prims.toLowerCase email)
      (haccount : data.googleId = some profile.googleId)
      (created : Answered log (.createUser data) user) : GoogleUser prims profile log user

/-- The call has been told enough to take its caller for the user. -/
inductive Identified (prims : Primitives) : AccountCall → AccountLog → User → Prop
  | registered {visitor : Visitor} {dto : RegisterDto} {log : AccountLog} {user : User}
      {data : UserRow} (haddress : data.email = dto.email)
      (created : Answered log (.createUser data) user) :
      Identified prims (.register visitor dto) log user
  | loggedIn {visitor : Visitor} {dto : LoginDto} {log : AccountLog} {user : User}
      {hash : JsString} (found : Answered log (.findUser (.email dto.email)) (some user))
      (hhash : user.passwordHash = some hash)
      (compared : Answered log (.comparePassword dto.password hash) true) :
      Identified prims (.login visitor dto) log user
  | refreshed {rawToken : JsString} {log : AccountLog} {existing : TokenWithUser}
      (found : Answered log (.findToken (prims.hashToken rawToken)) (some existing))
      (hactive : existing.token.revokedAt = none) :
      Identified prims (.refresh (some rawToken)) log existing.user
  | reset {visitor : Visitor} {token newPassword : JsString} {log : AccountLog} {id : Uuid}
      {user : User}
      (consumed : Answered log (.getdelKey (.passwordReset (prims.hashToken token)))
        (some (.userId id)))
      (found : Answered log (.findUser (.id id)) (some user)) :
      Identified prims (.resetPassword visitor token newPassword) log user
  | changed {token : AccessToken} {dto : ChangePasswordDto} {log : AccountLog}
      {payload : JwtPayload} {user : User} {hash : JsString}
      (verified : Answered log (.verifyToken token) (.ok payload))
      (found : Answered log (.findUser (.id payload.sub)) (some user))
      (hhash : user.passwordHash = some hash)
      (compared : Answered log (.comparePassword dto.currentPassword hash) true) :
      Identified prims (.changePassword (some token) dto) log user
  | google {profile : GoogleProfile} {state : Option JsString} {log : AccountLog} {user : User}
      (huser : GoogleUser prims profile log user) :
      Identified prims (.googleCallback profile state) log user

namespace Statement

/-- Neither a user nor a session nor a one-time key comes of the statement. -/
def Harmless : Statement → Prop
  | createUser _ | updateUser .. | createToken _ | rotateToken .. | signToken _ => False
  | setKey (.blacklist _) .. | setKey (.oauthState _) .. => True
  | setKey .. => False
  | emit (.loggedIn ..) | emit (.emailVerified ..) => True
  | emit _ => False
  | _ => True

end Statement

/-- The update leaves the password, the Google account and the verification as they are. -/
def UserData.Cosmetic (data : UserData) : Prop :=
  data.passwordHash = none ∧ data.googleId = none ∧ data.isEmailVerified = none

/-- What a call has been told before it asks a statement. -/
inductive Justified (prims : Primitives) : AccountCall → AccountLog → Statement → Prop
  | harmless {call : AccountCall} {log : AccountLog} {op : Statement} (h : op.Harmless) :
      Justified prims call log op
  | register {visitor : Visitor} {dto : RegisterDto} {log : AccountLog} {hash : JsString}
      (hashed : Answered log (.hashPassword dto.password) hash) :
      Justified prims (.register visitor dto) log (.createUser
        { email := dto.email, passwordHash := some hash, displayName := dto.displayName })
  | createGoogleUser {profile : GoogleProfile} {state : Option JsString} {log : AccountLog}
      {email displayName : JsString} {avatarUrl : Option JsString} {now : Timestamp}
      (hemail : profile.email = some email)
      (unknown : Answered log (.findUser (.googleId profile.googleId)) none) :
      Justified prims (.googleCallback profile state) log (.createUser
        { email := prims.toLowerCase email, googleId := some profile.googleId, displayName,
          avatarUrl, isEmailVerified := true, lastLoginAt := some now })
  | cosmetic {call : AccountCall} {log : AccountLog} {id : Uuid} {data : UserData}
      (h : data.Cosmetic) : Justified prims call log (.updateUser id data)
  | resetPassword {visitor : Visitor} {token newPassword : JsString} {log : AccountLog}
      {id : Uuid} {hash : JsString}
      (consumed : Answered log (.getdelKey (.passwordReset (prims.hashToken token)))
        (some (.userId id)))
      (hashed : Answered log (.hashPassword newPassword) hash) :
      Justified prims (.resetPassword visitor token newPassword) log
        (.updateUser id { passwordHash := some hash })
  | changePassword {token : AccessToken} {dto : ChangePasswordDto} {log : AccountLog}
      {payload : JwtPayload} {user : User} {old hash : JsString}
      (verified : Answered log (.verifyToken token) (.ok payload))
      (found : Answered log (.findUser (.id payload.sub)) (some user))
      (hold : user.passwordHash = some old)
      (compared : Answered log (.comparePassword dto.currentPassword old) true)
      (hashed : Answered log (.hashPassword dto.newPassword) hash) :
      Justified prims (.changePassword (some token) dto) log
        (.updateUser payload.sub { passwordHash := some hash })
  | verifyEmail {token : JsString} {log : AccountLog} {id : Uuid}
      (consumed : Answered log (.getdelKey (.emailVerification (prims.hashToken token)))
        (some (.userId id))) :
      Justified prims (.verifyEmail token) log (.updateUser id { isEmailVerified := some true })
  | linkGoogle {profile : GoogleProfile} {state : Option JsString} {log : AccountLog}
      {email : JsString} {found : User} {data : UserData} (hemail : profile.email = some email)
      (unknown : Answered log (.findUser (.googleId profile.googleId)) none)
      (byAddress : Answered log (.findUser (.email (prims.toLowerCase email))) (some found))
      (hdata : data.passwordHash = none ∧ data.googleId = some profile.googleId ∧
        data.isEmailVerified = some true) :
      Justified prims (.googleCallback profile state) log (.updateUser found.id data)
  | createToken {call : AccountCall} {log : AccountLog} {user : User} {data : Auth.RefreshToken}
      (identified : Identified prims call log user) (huser : data.userId = user.id) :
      Justified prims call log (.createToken data)
  | rotateToken {rawToken : JsString} {log : AccountLog} {existing : TokenWithUser}
      {data : Auth.RefreshToken}
      (found : Answered log (.findToken (prims.hashToken rawToken)) (some existing))
      (hactive : existing.token.revokedAt = none)
      (huser : data.userId = existing.token.userId) :
      Justified prims (.refresh (some rawToken)) log (.rotateToken existing.id data)
  | signToken {call : AccountCall} {log : AccountLog} {user : User}
      (identified : Identified prims call log user) : Justified prims call log (.signToken user)
  | setVerification {call : AccountCall} {log : AccountLog} {user : User} {rawToken : JsString}
      (drawn : Answered log .randomToken rawToken)
      (known : (∃ data, Answered log (.createUser data) user) ∨
        ∃ id, Answered log (.findUser (.id id)) (some user)) :
      Justified prims call log
        (.setKey (.emailVerification (prims.hashToken rawToken)) (.userId user.id) 86400)
  | setReset {visitor : Visitor} {email : JsString} {log : AccountLog} {user : User}
      {resetToken : JsString} (drawn : Answered log .randomToken resetToken)
      (found : Answered log (.findUser (.email email)) (some user)) :
      Justified prims (.forgotPassword visitor email) log
        (.setKey (.passwordReset (prims.hashToken resetToken)) (.userId user.id) 3600)
  | setVerified {call : AccountCall} {log : AccountLog} {id : Uuid} {user : User}
      (found : Answered log (.findUser (.id id)) (some user))
      (hverified : user.isEmailVerified = true) :
      Justified prims call log (.setKey (.emailVerified id) .one 300)
  | mailRegistered {call : AccountCall} {log : AccountLog} {user : User} {token : JsString}
      {data : UserRow} (created : Answered log (.createUser data) user)
      (stored : Answered log
        (.setKey (.emailVerification (prims.hashToken token)) (.userId user.id) 86400) ()) :
      Justified prims call log (.emit (.registered user.id user.email user.displayName token))
  | mailReset {call : AccountCall} {log : AccountLog} {user : User} {email token : JsString}
      (found : Answered log (.findUser (.email email)) (some user))
      (stored : Answered log
        (.setKey (.passwordReset (prims.hashToken token)) (.userId user.id) 3600) ()) :
      Justified prims call log (.emit (.passwordResetRequested user.id user.email token))
  | mailVerification {call : AccountCall} {log : AccountLog} {user : User} {id : Uuid}
      {token : JsString} (found : Answered log (.findUser (.id id)) (some user))
      (stored : Answered log
        (.setKey (.emailVerification (prims.hashToken token)) (.userId user.id) 86400) ()) :
      Justified prims call log (.emit (.emailVerificationRequested user.id user.email token))

/-- What a call has been told when it returns. A one-time key was there; and where the route of
a guarded request is not open to everybody, the user is verified, by the access token, by the
cache, or by the row. -/
def Passed (prims : Primitives) (log : AccountLog) : AccountCall → Prop
  | .resetPassword _ token _ => ∃ id,
      Answered log (.getdelKey (.passwordReset (prims.hashToken token))) (some (.userId id))
  | .verifyEmail token => ∃ id,
      Answered log (.getdelKey (.emailVerification (prims.hashToken token))) (some (.userId id))
  | .request authorization method skip => ∃ token payload, authorization = some token ∧
      Answered log (.verifyToken token) (.ok payload) ∧
        (skip = true ∨ method.isReadOnly = true ∨ payload.isEmailVerified = true ∨
          Answered log (.getKey (.emailVerified payload.sub)) (some .one) ∨
          ∃ user, Answered log (.findUser (.id payload.sub)) (some user) ∧
            user.isEmailVerified = true)
  | _ => True

/-- What a request has been told when it is refused for an address that is not verified: its
row does not say that it is. -/
def Refused (log : AccountLog) (call : AccountCall) (error : AccountError) : Prop :=
  error = .emailNotVerified → ∃ token method payload found,
    call = .request (some token) method false ∧
      Answered log (.verifyToken token) (.ok payload) ∧
      Answered log (.findUser (.id payload.sub)) found ∧
      (found.any fun user => user.isEmailVerified) = false

section Mono
variable {prims : Primitives} {log log' : AccountLog}

theorem GoogleUser.mono {profile : GoogleProfile} {user : User}
    (h : GoogleUser prims profile log user) (hlog : log <+: log') :
    GoogleUser prims profile log' user := by
  cases h with
  | account hdata byAccount updated =>
      exact .account hdata (byAccount.extend hlog) (updated.extend hlog)
  | address hemail hdata unknown byAddress updated =>
      exact .address hemail hdata (unknown.extend hlog) (byAddress.extend hlog)
        (updated.extend hlog)
  | created hemail haddress haccount created =>
      exact .created hemail haddress haccount (created.extend hlog)

theorem Identified.mono {call : AccountCall} {user : User} (h : Identified prims call log user)
    (hlog : log <+: log') : Identified prims call log' user := by
  cases h with
  | registered haddress created => exact .registered haddress (created.extend hlog)
  | loggedIn found hhash compared =>
      exact .loggedIn (found.extend hlog) hhash (compared.extend hlog)
  | refreshed found hactive => exact .refreshed (found.extend hlog) hactive
  | reset consumed found => exact .reset (consumed.extend hlog) (found.extend hlog)
  | changed verified found hhash compared =>
      exact .changed (verified.extend hlog) (found.extend hlog) hhash
        (compared.extend hlog)
  | google huser => exact .google (huser.mono hlog)

end Mono

section Queries
variable {asks : AccountLog → Statement → Prop} {fails : AccountLog → AccountError → Prop}
  {log : AccountLog} {α : Type}

theorem traces_query {op : Statement} {returns : op.Value → AccountLog → Prop}
    (hfails : ∀ log error, fails log (.store error)) :
    (query op).Traces asks fails log returns ↔
      asks log op ∧ ∀ value, returns value (log ++ [⟨op, .ok value⟩]) := by
  rw [query, attempt, traces_ask_bind]
  refine and_congr Iff.rfl ⟨fun h value => h (.ok value), ?_⟩
  rintro h (error | value)
  · exact hfails _ error
  · exact h value

end Queries

end SyncBoard.Account
