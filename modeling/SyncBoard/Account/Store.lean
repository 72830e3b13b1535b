import SyncBoard.Auth.RefreshToken
import SyncBoard.Lib.KeyStore
import SyncBoard.Lib.Traces

/-!
# Users, sessions and one-time tokens: the store

What `AuthService` and the guards in front of the controllers ask for: rows of `users` and
`refresh_tokens`, keys of Redis, and what a service draws, hashes or signs for itself. A
statement to PostgreSQL or Redis may be refused, and it may be performed while its reply is
lost; the caller finds the one error in both cases.

## Implementation notes

A Redis key is its prefix with what follows it; no prefix is the beginning of another one. A
value that has passed its deadline may still be read (`lingers`). An access token is its
payload: the signature of a payload that was never signed here is bad. `updatedAt`, the
address and the agent of a client are stored and never read by these services, and are left
out. PostgreSQL, Redis and the service read one clock.
-/

namespace SyncBoard.Account

open Interleaved Interleaved.Program Relational

/-- The columns of `users`. -/
structure UserRow where
  email : JsString
  passwordHash : Option JsString := none
  displayName : JsString
  avatarUrl : Option JsString := none
  googleId : Option JsString := none
  isEmailVerified : Bool := false
  lastLoginAt : Option Timestamp := none
  createdAt : Timestamp := 0
  deriving DecidableEq, Repr

/-- A row of `users`, with its key. -/
structure User extends UserRow where
  id : Uuid
  deriving DecidableEq, Repr

/-- `Prisma.UserUpdateInput`; `none` leaves a column as it is. -/
structure UserData where
  passwordHash : Option JsString := none
  displayName : Option JsString := none
  avatarUrl : Option (Option JsString) := none
  googleId : Option JsString := none
  isEmailVerified : Option Bool := none
  lastLoginAt : Option Timestamp := none
  deriving DecidableEq, Repr

def UserData.apply (data : UserData) (row : UserRow) : UserRow :=
  { row with
    passwordHash := data.passwordHash.or row.passwordHash
    displayName := data.displayName.getD row.displayName
    avatarUrl := data.avatarUrl.getD row.avatarUrl
    googleId := data.googleId.or row.googleId
    isEmailVerified := data.isEmailVerified.getD row.isEmailVerified
    lastLoginAt := data.lastLoginAt.or row.lastLoginAt }

/-- The keys that `findUnique` looks a user up by. -/
inductive UserKey
  | id (id : Uuid)
  | email (email : JsString)
  | googleId (googleId : JsString)
  deriving DecidableEq, Repr

def UserKey.selects : UserKey → Uuid → UserRow → Bool
  | id i, k, _ => decide (k = i)
  | email e, _, row => decide (row.email = e)
  | googleId g, _, row => decide (row.googleId = some g)

inductive RedisKey
  | passwordReset (tokenHash : Auth.TokenHash)
  | emailVerification (tokenHash : Auth.TokenHash)
  | emailVerified (userId : Uuid)
  | blacklist (jti : Uuid)
  | oauthState (state : JsString)
  deriving DecidableEq, Repr

/-- The values that are set: the id of a user, or `'1'`. -/
inductive RedisValue
  | userId (id : Uuid)
  | one
  deriving DecidableEq, Repr

structure JwtPayload where
  sub : Uuid
  email : JsString
  displayName : JsString
  avatarUrl : Option JsString
  isEmailVerified : Bool
  iat : Nat
  exp : Nat
  jti : Uuid
  deriving DecidableEq, Repr

/-- A signed token, or one that somebody made up. -/
abbrev AccessToken := JwtPayload

inductive JwtError
  | tokenExpired
  | tokenInvalid
  deriving DecidableEq, Repr

inductive LoginMethod
  | email
  | google
  deriving DecidableEq, Repr

inductive AuthEvent
  | registered (userId : Uuid) (email displayName verificationToken : JsString)
  | loggedIn (userId : Uuid) (method : LoginMethod)
  | passwordResetRequested (userId : Uuid) (email token : JsString)
  | emailVerificationRequested (userId : Uuid) (email token : JsString)
  | emailVerified (userId : Uuid) (email displayName : JsString)
  deriving DecidableEq, Repr

/-- The condition of a bulk revocation. -/
inductive Sessions
  | family (familyId : Uuid)
  | token (tokenHash : Auth.TokenHash)
  | user (userId : Uuid)
  deriving DecidableEq, Repr

/-- A row of `refresh_tokens` with the user it belongs to. -/
structure TokenWithUser where
  id : Uuid
  token : Auth.RefreshToken
  user : User
  deriving DecidableEq, Repr

/-- What PostgreSQL or Redis answers with: `P2002`, `P2003`, `P2025`, or any other failure. -/
inductive StoreError
  | uniqueViolation
  | foreignKeyViolation
  | recordNotFound
  | unavailable
  deriving DecidableEq, Repr

inductive Statement
  | createUser (data : UserRow)
  | findUser (key : UserKey)
  | updateUser (id : Uuid) (data : UserData)
  | createToken (data : Auth.RefreshToken)
  | findToken (tokenHash : Auth.TokenHash)
  | rotateToken (previousTokenId : Uuid) (data : Auth.RefreshToken)
  | revokeTokens (sessions : Sessions)
  | setKey (key : RedisKey) (value : RedisValue) (seconds : Nat)
  | getKey (key : RedisKey)
  | getdelKey (key : RedisKey)
  | existsKey (key : RedisKey)
  | delKey (key : RedisKey)
  | now
  | randomToken
  | randomId
  | hashPassword (password : JsString)
  | comparePassword (password hash : JsString)
  | signToken (user : User)
  | verifyToken (token : AccessToken)
  | emit (event : AuthEvent)
  deriving DecidableEq, Repr

namespace Statement

abbrev Value : Statement → Type
  | createUser _ => User
  | findUser _ => Option User
  | updateUser .. => User
  | createToken _ => Unit
  | findToken _ => Option TokenWithUser
  | rotateToken .. => Unit
  | revokeTokens _ => Unit
  | setKey .. => Unit
  | getKey _ => Option RedisValue
  | getdelKey _ => Option RedisValue
  | existsKey _ => Nat
  | delKey _ => Nat
  | now => Timestamp
  | randomToken => JsString
  | randomId => Uuid
  | hashPassword _ => JsString
  | comparePassword .. => Bool
  | signToken _ => AccessToken
  | verifyToken _ => Except JwtError JwtPayload
  | emit _ => Unit

/-- What a service does by itself does not fail. -/
def isLocal : Statement → Bool
  | now | randomToken | randomId | hashPassword _ | comparePassword .. | signToken _
  | verifyToken _ | emit _ => true
  | _ => false

/-- A statement is answered, or it fails for the caller. -/
abbrev Reply (op : Statement) : Type :=
  Except StoreError op.Value

end Statement

/-- The hash functions and the letter case. -/
structure Primitives where
  hashToken : JsString → Auth.TokenHash
  bcryptHash : JsString → JsString → JsString
  bcryptCompare : JsString → JsString → Bool
  toLowerCase : JsString → JsString

/-- What becomes of a statement on its way to the store and back. -/
inductive Fate
  | answered
  | refused
  | replyLost
  deriving DecidableEq, Repr

/-- What a statement takes from outside: the time before it, its fate, and what is drawn. -/
structure Outside where
  elapsed : Nat := 0
  fate : Fate := .answered
  lingers : Bool := false
  newId : Uuid := 0
  random : JsString := []

/-- PostgreSQL, Redis, the payloads signed and the events emitted so far, newest first. -/
structure Store where
  users : Table Uuid UserRow := Table.empty
  tokens : Auth.TokenTable := Table.empty
  keys : KeyStore.Store RedisKey RedisValue := {}
  signed : List JwtPayload := []
  events : List AuthEvent := []

namespace Store
variable (s : Store)

def findUser (key : UserKey) : Option User :=
  (s.users.find? key.selects).map fun found => { found.2 with id := found.1 }

/-- The address or the Google account of a row belongs to another user. -/
def clashes (id : Uuid) (row : UserRow) : Bool :=
  (s.users.find? fun k q => decide (k ≠ id) &&
    (decide (q.email = row.email) || (row.googleId.isSome && decide (q.googleId = row.googleId)))
  ).isSome

def createUser (newId : Uuid) (data : UserRow) : Except StoreError (User × Store) :=
  let row := { data with createdAt := s.keys.now }
  if s.clashes newId row then .error .uniqueViolation
  else
    match s.users.insert? newId row with
    | none => .error .uniqueViolation
    | some users => .ok ({ row with id := newId }, { s with users })

def updateUser (id : Uuid) (data : UserData) : Except StoreError (User × Store) :=
  match s.users.get? id with
  | none => .error .recordNotFound
  | some row =>
      let updated := data.apply row
      if s.clashes id updated then .error .uniqueViolation
      else
        .ok ({ updated with id := id }, { s with users := s.users.modify id fun _ => updated })

def createToken (newId : Uuid) (data : Auth.RefreshToken) : Except StoreError (Unit × Store) :=
  if s.users.contains data.userId then
    match Auth.create s.tokens newId data with
    | none => .error .uniqueViolation
    | some tokens => .ok ((), { s with tokens })
  else .error .foreignKeyViolation

def findToken (tokenHash : Auth.TokenHash) : Option TokenWithUser := do
  let (id, token) ← Auth.findByTokenHashWithUser s.tokens tokenHash
  let user ← s.findUser (.id token.userId)
  return { id, token, user }

def rotateToken (newId previousTokenId : Uuid) (data : Auth.RefreshToken) :
    Except StoreError (Unit × Store) :=
  if s.users.contains data.userId then
    match Auth.rotate s.tokens previousTokenId newId data s.keys.now with
    | none => .error .uniqueViolation
    | some tokens => .ok ((), { s with tokens })
  else .error .foreignKeyViolation

def revokeTokens : Sessions → Store
  | .family familyId => { s with tokens := Auth.revokeFamily s.tokens familyId s.keys.now }
  | .token tokenHash => { s with tokens := Auth.revokeByTokenHash s.tokens tokenHash s.keys.now }
  | .user userId => { s with tokens := Auth.revokeAllByUserId s.tokens userId s.keys.now }

/-- The payload that `generateAccessToken` signs, good for `expiresInSeconds`. -/
def payloadFor (jti : Uuid) (user : User) : JwtPayload where
  sub := user.id
  email := user.email
  displayName := user.displayName
  avatarUrl := user.avatarUrl
  isEmailVerified := user.isEmailVerified
  iat := s.keys.now / 1000
  exp := s.keys.now / 1000 + 900
  jti := jti

def verifyToken (token : AccessToken) : Except JwtError JwtPayload :=
  if token ∈ s.signed then
    if token.exp ≤ s.keys.now / 1000 then .error .tokenExpired else .ok token
  else .error .tokenInvalid

/-- What a write returns and leaves; a write that is turned down changes nothing. -/
def written {α : Type} : Except StoreError (α × Store) → Except StoreError α × Store
  | .ok (a, t) => (.ok a, t)
  | .error e => (.error e, s)

end Store

variable (prims : Primitives)

/-- A statement at the instant of the store. -/
def perform (x : Outside) : (op : Statement) → Store → op.Reply × Store
  | .createUser data, s => s.written (s.createUser x.newId data)
  | .findUser key, s => (.ok (s.findUser key), s)
  | .updateUser id data, s => s.written (s.updateUser id data)
  | .createToken data, s => s.written (s.createToken x.newId data)
  | .findToken tokenHash, s => (.ok (s.findToken tokenHash), s)
  | .rotateToken previousTokenId data, s => s.written (s.rotateToken x.newId previousTokenId data)
  | .revokeTokens sessions, s => (.ok (), s.revokeTokens sessions)
  | .setKey key value seconds, s => (.ok (), { s with keys := s.keys.set key value seconds })
  | .getKey key, s => (.ok (s.keys.get x.lingers key), s)
  | .getdelKey key, s => (.ok (s.keys.get x.lingers key), { s with keys := s.keys.del key })
  | .existsKey key, s => (.ok (s.keys.count x.lingers key), s)
  | .delKey key, s => (.ok (s.keys.count x.lingers key), { s with keys := s.keys.del key })
  | .now, s => (.ok s.keys.now, s)
  | .randomToken, s => (.ok x.random, s)
  | .randomId, s => (.ok x.newId, s)
  | .hashPassword password, s => (.ok (prims.bcryptHash x.random password), s)
  | .comparePassword password hash, s => (.ok (prims.bcryptCompare password hash), s)
  | .signToken user, s =>
      (.ok (s.payloadFor x.newId user), { s with signed := s.payloadFor x.newId user :: s.signed })
  | .verifyToken token, s => (.ok (s.verifyToken token), s)
  | .emit event, s => (.ok (), { s with events := event :: s.events })

/-- Time passes, and the statement meets its fate. -/
def answer (x : Outside) (op : Statement) (s : Store) : op.Reply × Store :=
  let t := { s with keys := s.keys.advance x.elapsed }
  match if op.isLocal then Fate.answered else x.fate with
  | .answered => perform prims x op t
  | .refused => (.error .unavailable, t)
  | .replyLost => (.error .unavailable, (perform prims x op t).2)

end SyncBoard.Account
