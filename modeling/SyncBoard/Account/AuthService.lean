import SyncBoard.Account.Store

/-!
# AuthService, its guards and its controller

`AuthService` with the two repositories, the token services and the guards, as programs over
the store; a call is a request to a route of `AuthController` or to a guarded route elsewhere.
Any number of them run at once, and other calls come between any two statements of a call.

## Implementation notes

The body of a request has passed the validation of its DTO, which lower-cases and trims
addresses. Throttling comes before the calls and is left out, as are the cookies and the
redirect that a route answers with. A reading of the clock or a drawn value is a statement
like any other, so that the model has other calls come between where the service has none.
-/

namespace SyncBoard.Account

open Interleaved Interleaved.Program KeyStore

inductive AccountError
  | tokenInvalid
  | tokenExpired
  | tokenRevoked
  | refreshTokenExpired
  | tokenReuseDetected
  | invalidCredentials
  | alreadyAuthenticated
  | emailAlreadyExists
  | emailAlreadyVerified
  | emailNotVerified
  | userNotFound
  | invalidOAuthState
  | invalidGoogleProfile
  | store (error : StoreError)
  deriving DecidableEq, Repr

abbrev AccountProgram := Program Statement Statement.Reply AccountError

/-- Ask a statement whose error is caught. -/
def attempt (op : Statement) : AccountProgram (Except StoreError op.Value) :=
  ask op

/-- Ask a statement; the error it fails with is thrown. -/
def query (op : Statement) : AccountProgram op.Value := do
  let reply ← attempt op
  orThrow .store reply

/-- Go on where there is a value. -/
def whenSome {α : Type} (a : Option α) (f : α → AccountProgram Unit) : AccountProgram Unit :=
  match a with
  | some a => f a
  | none => pure ()

namespace UserRepository

def createUser (email passwordHash displayName : JsString) : AccountProgram User := do
  let reply ← attempt (.createUser { email, passwordHash := some passwordHash, displayName })
  orThrow
    (fun error => if error = .uniqueViolation then .emailAlreadyExists else .store error) reply

def findByEmail (email : JsString) : AccountProgram (Option User) :=
  query (.findUser (.email email))

def findById (id : Uuid) : AccountProgram (Option User) :=
  query (.findUser (.id id))

def findByGoogleId (googleId : JsString) : AccountProgram (Option User) :=
  query (.findUser (.googleId googleId))

def updateLastLogin (userId : Uuid) : AccountProgram Unit := do
  let now ← query .now
  let _ ← query (.updateUser userId { lastLoginAt := some now })
  return ()

def setEmailVerified (userId : Uuid) : AccountProgram Unit := do
  let _ ← query (.updateUser userId { isEmailVerified := some true })
  return ()

def updatePassword (userId : Uuid) (passwordHash : JsString) : AccountProgram Unit := do
  let _ ← query (.updateUser userId { passwordHash := some passwordHash })
  return ()

def updateProfile (userId : Uuid) (data : UserData) : AccountProgram User :=
  query (.updateUser userId data)

def updateGoogleLogin (userId : Uuid) (data : UserData) : AccountProgram User :=
  query (.updateUser userId data)

end UserRepository

namespace JwtTokenService

def generateAccessToken (user : User) : AccountProgram AccessToken :=
  query (.signToken user)

def verifyAccessToken (token : AccessToken) : AccountProgram JwtPayload := do
  let verified ← query (.verifyToken token)
  orThrow (fun | .tokenExpired => .tokenExpired | .tokenInvalid => .tokenInvalid) verified

end JwtTokenService

namespace TokenBlacklistService

def blacklist (jti : Uuid) (expiresAt : Timestamp) : AccountProgram Unit := do
  let now ← query .now
  let ttl := ceilSeconds ((expiresAt : Int) - now)
  doIf (decide (0 < ttl)) (query (.setKey (.blacklist jti) .one ttl.toNat))

def isBlacklisted (jti : Uuid) : AccountProgram Bool := do
  let result ← query (.existsKey (.blacklist jti))
  return result == 1

end TokenBlacklistService

structure RegisterDto where
  email : JsString
  password : JsString
  displayName : JsString
  deriving DecidableEq, Repr

structure LoginDto where
  email : JsString
  password : JsString
  deriving DecidableEq, Repr

/-- An address of the picture may be absent, `null` or given. -/
structure UpdateProfileDto where
  displayName : Option JsString := none
  avatarUrl : Option (Option JsString) := none
  deriving DecidableEq, Repr

structure ChangePasswordDto where
  currentPassword : JsString
  newPassword : JsString
  deriving DecidableEq, Repr

/-- The part of a Google profile that the strategy reads: the first address and the first
photo, where there are any. -/
structure GoogleProfile where
  googleId : JsString
  email : Option JsString
  displayName : Option JsString := none
  photo : Option JsString := none
  deriving DecidableEq, Repr

structure TokenPair where
  accessToken : AccessToken
  refreshToken : JsString
  expiresIn : Nat
  deriving DecidableEq, Repr

structure AuthResponse where
  user : User
  tokens : TokenPair
  deriving DecidableEq, Repr

namespace AuthService
variable (prims : Primitives)

def issueTokenPair (user : User) : AccountProgram TokenPair := do
  let accessToken ← JwtTokenService.generateAccessToken user
  let refreshToken ← query .randomToken
  let now ← query .now
  let familyId ← query .randomId
  query (.createToken (Auth.issued user.id (prims.hashToken refreshToken) familyId now))
  return { accessToken, refreshToken, expiresIn := 900 }

def createEmailVerificationToken (userId : Uuid) : AccountProgram JsString := do
  let rawToken ← query .randomToken
  query (.setKey (.emailVerification (prims.hashToken rawToken)) (.userId userId) 86400)
  return rawToken

def register (dto : RegisterDto) : AccountProgram AuthResponse := do
  let passwordHash ← query (.hashPassword dto.password)
  let user ← UserRepository.createUser dto.email passwordHash dto.displayName
  let verificationToken ← createEmailVerificationToken prims user.id
  let tokens ← issueTokenPair prims user
  query (.emit (.registered user.id user.email user.displayName verificationToken))
  return { user, tokens }

def login (dto : LoginDto) : AccountProgram AuthResponse := do
  let found ← UserRepository.findByEmail dto.email
  let user ← demand found .invalidCredentials
  let passwordHash ← demand user.passwordHash .invalidCredentials
  let isPasswordValid ← query (.comparePassword dto.password passwordHash)
  refuseIf (!isPasswordValid) .invalidCredentials
  UserRepository.updateLastLogin user.id
  let tokens ← issueTokenPair prims user
  query (.emit (.loggedIn user.id .email))
  return { user, tokens }

def refreshTokens (refreshToken : JsString) : AccountProgram TokenPair := do
  let found ← query (.findToken (prims.hashToken refreshToken))
  let existing ← demand found .tokenInvalid
  let readAt ← query .now
  refuseIf (decide (existing.token.expiresAt < readAt)) .refreshTokenExpired
  if existing.token.revokedAt.isSome then
    query (.revokeTokens (.family existing.token.familyId))
    fail .tokenReuseDetected
  else
    let newRawToken ← query .randomToken
    let now ← query .now
    query (.rotateToken existing.id
      (Auth.successorOf existing.token (prims.hashToken newRawToken) now))
    let accessToken ← JwtTokenService.generateAccessToken existing.user
    return { accessToken, refreshToken := newRawToken, expiresIn := 900 }

def logout (refreshToken : Option JsString) (access : Option JwtPayload) :
    AccountProgram Unit := do
  whenSome refreshToken fun token => query (.revokeTokens (.token (prims.hashToken token)))
  whenSome access fun payload =>
    TokenBlacklistService.blacklist payload.jti (payload.exp * 1000)

/-- `null` where the token is invalid or expired, or where there is none. -/
def tryVerifyAccessToken (token : Option AccessToken) : AccountProgram (Option JwtPayload) :=
  match token with
  | none => return none
  | some token => do
      let verified ← query (.verifyToken token)
      return verified.toOption

def logoutAllDevices (access : JwtPayload) : AccountProgram Unit := do
  query (.revokeTokens (.user access.sub))
  TokenBlacklistService.blacklist access.jti (access.exp * 1000)

def forgotPassword (email : JsString) : AccountProgram Unit := do
  let found ← UserRepository.findByEmail email
  match found with
  | none => return ()
  | some user =>
      let resetToken ← query .randomToken
      query (.setKey (.passwordReset (prims.hashToken resetToken)) (.userId user.id) 3600)
      query (.emit (.passwordResetRequested user.id user.email resetToken))

/-- The id under a one-time key, which is deleted with the read. -/
def consume (key : RedisKey) : AccountProgram Uuid := do
  let value ← query (.getdelKey key)
  match value with
  | some (.userId id) => return id
  | _ => fail .tokenInvalid

def resetPassword (token newPassword : JsString) : AccountProgram TokenPair := do
  let userId ← consume (.passwordReset (prims.hashToken token))
  let found ← UserRepository.findById userId
  let user ← demand found .userNotFound
  let passwordHash ← query (.hashPassword newPassword)
  UserRepository.updatePassword userId passwordHash
  query (.revokeTokens (.user userId))
  issueTokenPair prims user

def requestEmailVerification (userId : Uuid) : AccountProgram Unit := do
  let found ← UserRepository.findById userId
  let user ← demand found .userNotFound
  refuseIf user.isEmailVerified .emailAlreadyVerified
  let verificationToken ← createEmailVerificationToken prims user.id
  query (.emit (.emailVerificationRequested user.id user.email verificationToken))

def verifyEmail (rawToken : JsString) : AccountProgram Unit := do
  let userId ← consume (.emailVerification (prims.hashToken rawToken))
  let found ← UserRepository.findById userId
  let user ← demand found .tokenInvalid
  UserRepository.setEmailVerified userId
  query (.emit (.emailVerified userId user.email user.displayName))

/-- `a || b` on an optional string. -/
def orElse (a b : Option JsString) : Option JsString :=
  (a.filter fun s => !s.isEmpty).or b

/-- An existing user gets the Google account linked. -/
def linkGoogle (existing : User) (googleId : JsString) (avatarUrl : Option JsString) :
    AccountProgram User := do
  let now ← query .now
  UserRepository.updateGoogleLogin existing.id
    { googleId := some googleId
      avatarUrl := some (orElse avatarUrl existing.avatarUrl)
      isEmailVerified := some true
      lastLoginAt := some now }

def findOrCreateGoogleUser (googleId email displayName : JsString) (avatarUrl : Option JsString) :
    AccountProgram User := do
  refuseIf email.isEmpty .invalidGoogleProfile
  let found ← UserRepository.findByGoogleId googleId
  match found with
  | some user =>
      let now ← query .now
      UserRepository.updateGoogleLogin user.id
        { displayName := some displayName
          avatarUrl := avatarUrl.map some
          lastLoginAt := some now }
  | none =>
      let byEmail ← UserRepository.findByEmail (prims.toLowerCase email)
      match byEmail with
      | some user => linkGoogle user googleId avatarUrl
      | none =>
          let now ← query .now
          let created ← attempt (.createUser
            { email := prims.toLowerCase email
              googleId := some googleId
              displayName
              avatarUrl
              isEmailVerified := true
              lastLoginAt := some now })
          match created with
          | .ok user => return user
          | .error error =>
              if error = .uniqueViolation then
                let existing ← UserRepository.findByEmail (prims.toLowerCase email)
                match existing with
                | some user => linkGoogle user googleId avatarUrl
                | none => fail (.store error)
              else fail (.store error)

def getGoogleAuthUrl : AccountProgram JsString := do
  let state ← query .randomToken
  query (.setKey (.oauthState state) .one 600)
  return state

def validateOAuthState (state : Option JsString) : AccountProgram Unit := do
  let state ← demand (state.filter fun s => !s.isEmpty) .invalidOAuthState
  let found ← query (.existsKey (.oauthState state))
  refuseIf (found != 1) .invalidOAuthState
  let _ ← query (.delKey (.oauthState state))
  return ()

def handleGoogleCallback (user : User) : AccountProgram AuthResponse := do
  let tokens ← issueTokenPair prims user
  query (.emit (.loggedIn user.id .google))
  return { user, tokens }

def updateProfile (userId : Uuid) (dto : UpdateProfileDto) : AccountProgram User :=
  UserRepository.updateProfile userId
    { displayName := dto.displayName.filter fun s => !s.isEmpty
      avatarUrl := dto.avatarUrl }

def changePassword (access : JwtPayload) (dto : ChangePasswordDto) : AccountProgram TokenPair := do
  let found ← UserRepository.findById access.sub
  let user ← demand found .invalidCredentials
  let passwordHash ← demand user.passwordHash .invalidCredentials
  let isCurrentValid ← query (.comparePassword dto.currentPassword passwordHash)
  refuseIf (!isCurrentValid) .invalidCredentials
  let newHash ← query (.hashPassword dto.newPassword)
  UserRepository.updatePassword access.sub newHash
  query (.revokeTokens (.user access.sub))
  TokenBlacklistService.blacklist access.jti (access.exp * 1000)
  issueTokenPair prims user

end AuthService

/-- `GoogleStrategy.validate`. -/
def GoogleStrategy.validate (prims : Primitives) (profile : GoogleProfile) :
    AccountProgram User := do
  let email ← demand (profile.email.filter fun s => !s.isEmpty) .invalidGoogleProfile
  AuthService.findOrCreateGoogleUser prims profile.googleId email
    (profile.displayName.getD (js "User")) profile.photo

/-- `JwtAuthGuard.canActivate`; it attaches the payload to the request. -/
def JwtAuthGuard.canActivate (authorization : Option AccessToken) : AccountProgram JwtPayload := do
  let token ← demand authorization .tokenInvalid
  let payload ← JwtTokenService.verifyAccessToken token
  let isBlacklisted ← TokenBlacklistService.isBlacklisted payload.jti
  refuseIf isBlacklisted .tokenRevoked
  return payload

/-- The `Authorization` header and the refresh-token cookie of a request. -/
structure Visitor where
  authorization : Option AccessToken := none
  cookie : Option JsString := none
  deriving DecidableEq, Repr

namespace AnonymousGuard
variable (prims : Primitives)

/-- The bearer token; what fails while it is looked at is caught. -/
def checkAccessToken (token : AccessToken) : AccountProgram Unit := do
  let verified ← query (.verifyToken token)
  match verified with
  | .error _ => return ()
  | .ok payload =>
      let result ← attempt (.existsKey (.blacklist payload.jti))
      match result with
      | .error _ => return ()
      | .ok count => refuseIf (count != 1) .alreadyAuthenticated

/-- The cookie. -/
def checkRefreshToken (rawRefreshToken : JsString) : AccountProgram Unit := do
  let found ← query (.findToken (prims.hashToken rawRefreshToken))
  let now ← query .now
  refuseIf (found.any fun r => r.token.revokedAt.isNone && decide (now < r.token.expiresAt))
    .alreadyAuthenticated

def canActivate (visitor : Visitor) : AccountProgram Unit := do
  whenSome visitor.authorization checkAccessToken
  whenSome (visitor.cookie.filter fun s => !s.isEmpty) (checkRefreshToken prims)

end AnonymousGuard

inductive Method
  | get
  | head
  | options
  | post
  | put
  | patch
  | delete
  deriving DecidableEq, Repr

/-- `READ_ONLY_METHODS`. -/
def Method.isReadOnly : Method → Bool
  | get | head | options => true
  | _ => false

namespace EmailVerifiedGuard

/-- The user is read and, where it is verified, the cache is written; it need not succeed. -/
def lookUp (userId : Uuid) : AccountProgram Bool := do
  let found ← UserRepository.findById userId
  if found.any fun user => user.isEmailVerified then
    let _ ← attempt (.setKey (.emailVerified userId) .one 300)
    return true
  else return false

def isVerifiedInDb (userId : Uuid) : AccountProgram Bool := do
  let cached ← attempt (.getKey (.emailVerified userId))
  match cached with
  | .ok (some .one) => return true
  | _ => lookUp userId

def canActivate (skip : Bool) (method : Method) (user : JwtPayload) : AccountProgram Unit :=
  if skip || user.isEmailVerified || method.isReadOnly then pure ()
  else do
    let isVerified ← isVerifiedInDb user.sub
    refuseIf (!isVerified) .emailNotVerified

end EmailVerifiedGuard

/-- The routes of `AuthController`, and a request to a route behind `JwtAuthGuard` and
`EmailVerifiedGuard`. -/
inductive AccountCall
  | register (visitor : Visitor) (dto : RegisterDto)
  | login (visitor : Visitor) (dto : LoginDto)
  | refresh (cookie : Option JsString)
  | logout (visitor : Visitor)
  | logoutAll (authorization : Option AccessToken)
  | forgotPassword (visitor : Visitor) (email : JsString)
  | resetPassword (visitor : Visitor) (token newPassword : JsString)
  | verifyEmail (token : JsString)
  | resendVerification (authorization : Option AccessToken)
  | googleAuth (visitor : Visitor)
  | googleCallback (profile : GoogleProfile) (state : Option JsString)
  | updateProfile (authorization : Option AccessToken) (dto : UpdateProfileDto)
  | changePassword (authorization : Option AccessToken) (dto : ChangePasswordDto)
  | request (authorization : Option AccessToken) (method : Method) (skip : Bool)
  deriving DecidableEq, Repr

namespace AuthController
variable (prims : Primitives)

def logout (visitor : Visitor) : AccountProgram Unit := do
  let access ← AuthService.tryVerifyAccessToken visitor.authorization
  whenSome (visitor.cookie.filter fun s => !s.isEmpty) fun rawToken =>
    AuthService.logout prims (some rawToken) access

def googleCallback (profile : GoogleProfile) (state : Option JsString) : AccountProgram Unit := do
  let user ← GoogleStrategy.validate prims profile
  AuthService.validateOAuthState state
  let _ ← AuthService.handleGoogleCallback prims user
  return ()

end AuthController

def AccountCall.program (prims : Primitives) : AccountCall → AccountProgram Unit
  | .register visitor dto => do
      AnonymousGuard.canActivate prims visitor
      let _ ← AuthService.register prims dto
      return ()
  | .login visitor dto => do
      AnonymousGuard.canActivate prims visitor
      let _ ← AuthService.login prims dto
      return ()
  | .refresh cookie => do
      let rawToken ← demand (cookie.filter fun s => !s.isEmpty) .tokenInvalid
      let _ ← AuthService.refreshTokens prims rawToken
      return ()
  | .logout visitor => AuthController.logout prims visitor
  | .logoutAll authorization => do
      let user ← JwtAuthGuard.canActivate authorization
      AuthService.logoutAllDevices user
  | .forgotPassword visitor email => do
      AnonymousGuard.canActivate prims visitor
      AuthService.forgotPassword prims email
  | .resetPassword visitor token newPassword => do
      AnonymousGuard.canActivate prims visitor
      let _ ← AuthService.resetPassword prims token newPassword
      return ()
  | .verifyEmail token => AuthService.verifyEmail prims token
  | .resendVerification authorization => do
      let user ← JwtAuthGuard.canActivate authorization
      AuthService.requestEmailVerification prims user.sub
  | .googleAuth visitor => do
      AnonymousGuard.canActivate prims visitor
      let _ ← AuthService.getGoogleAuthUrl
      return ()
  | .googleCallback profile state => AuthController.googleCallback prims profile state
  | .updateProfile authorization dto => do
      let user ← JwtAuthGuard.canActivate authorization
      let _ ← AuthService.updateProfile user.sub dto
      return ()
  | .changePassword authorization dto => do
      let user ← JwtAuthGuard.canActivate authorization
      let _ ← AuthService.changePassword prims user dto
      return ()
  | .request authorization method skip => do
      let user ← JwtAuthGuard.canActivate authorization
      EmailVerifiedGuard.canActivate skip method user

abbrev AccountPool := Pool Statement Statement.Reply AccountError AccountCall Store

abbrev AccountPool.step (prims : Primitives) : AccountPool → Move AccountCall Outside →
    Option AccountPool :=
  Pool.step (answer prims) (AccountCall.program prims)

/-- A state that a run leads to in which nothing was stored before. -/
def Reachable (prims : Primitives) (p : AccountPool) : Prop :=
  ∃ ms, Labelled.Run (AccountPool.step prims) { store := {} } ms p

end SyncBoard.Account
