import Mathlib.Data.List.Infix
import SyncBoard.Auth.Rotation

/-!
# The client of the API and its refresh of the access token

`apiFetch` and `refreshAccessToken` in one tab of a browser, whose calls interleave at their
awaits, together with the requests to `/auth/refresh` up to the statements of the server. All
calls of `refreshAccessToken` share one promise, until half a second after it is settled.

## Implementation notes

The server reads and writes the table of refresh tokens in two statements, and answers when the
write is done. A request that a gateway or the throttler turns away reaches no statement. A
connection may break before the request or after the reply; the promise is then settled without
a token. What a call of `apiFetch` resolves to is left out, and so is when a reply comes.
-/

namespace SyncBoard.Client

open Auth

/-- A signed access token, by its name. -/
abbrev AccessToken := Nat

/-- `REFRESH_DEBOUNCE_MS`. -/
def refreshDebounceMs : Nat := 500

/-- What the server answers to `/auth/refresh`: the access token and, as a cookie, the refresh
token, or a status. -/
abbrev RefreshReply := Except Nat (AccessToken × TokenHash)

/-- How far one request of `refreshAccessToken` has come. -/
inductive RefreshPhase
  | sent (cookie : Option TokenHash)
  | handling (presented : TokenHash) (call : Pending)
  | replied (reply : RefreshReply)
  | settled (freshToken : Option AccessToken) (settledAt : Timestamp)
  deriving Repr

structure Refresh where
  sentAt : Timestamp
  phase : RefreshPhase
  deriving Repr

/-- A call of `apiFetch`: in its fetch, awaiting a refresh, or at its end. -/
inductive CallPhase
  | fetching (token : Option AccessToken) (retry : Bool)
  | awaiting (refresh : Nat)
  | returned
  deriving DecidableEq, Repr

structure ApiCall where
  path : JsString
  phase : CallPhase
  deriving DecidableEq, Repr

/-- What the calls of a tab share: the promise, the cookie of the browser, and the server.
`logins` are the tokens of the replies to logins, registrations and changes of the password
that are on their way. -/
structure TabSession where
  now : Timestamp := 0
  server : AuthState := {}
  cookie : Option TokenHash := none
  refreshPromise : Option Nat := none
  refreshes : List Refresh := []
  logins : List (AccessToken × TokenHash) := []

/-- A tab, with the access token that it stores and its calls of `apiFetch`. -/
structure Tab extends TabSession where
  token : Option AccessToken := none
  calls : List ApiCall := []

def TabSession.setPhase (s : TabSession) (i : Nat) (phase : RefreshPhase) : TabSession :=
  { s with refreshes := s.refreshes.modify i fun r => { r with phase := phase } }

/-- The refresh that a call of `refreshAccessToken` awaits. -/
def refreshAccessToken (s : TabSession) : Nat × TabSession :=
  match s.refreshPromise with
  | some i => (i, s)
  | none =>
      (s.refreshes.length,
        { s with
          refreshPromise := some s.refreshes.length
          refreshes := s.refreshes ++ [⟨s.now, .sent s.cookie⟩] })

/-- The rest of the promise after its fetch, which rejects where there is no reply. -/
def settle (s : Tab) (i : Nat) : Option RefreshReply → Tab
  | some (.ok (newToken, cookie)) =>
      { s with
        toTabSession := { s.toTabSession with cookie := some cookie }.setPhase i
          (.settled (some newToken) s.now)
        token := some newToken }
  | some (.error status) =>
      { s with
        toTabSession := s.setPhase i (.settled none s.now)
        token := if status = 401 ∨ status = 403 then none else s.token }
  | none => { s with toTabSession := s.setPhase i (.settled none s.now) }

/-- `AuthController.refresh` up to the await of the write. -/
def receive (s : TabSession) (i : Nat) (cookie : Option TokenHash) : TabSession :=
  match cookie with
  | none => s.setPhase i (.replied (.error 401))
  | some rawToken =>
      match refreshTokensRead s.server.tokens rawToken s.now with
      | .error _ => s.setPhase i (.replied (.error 401))
      | .ok call => s.setPhase i (.handling rawToken call)

/-- What the server draws for a renewed session. -/
structure Renewal where
  newId : Uuid
  newTokenHash : TokenHash
  accessToken : AccessToken
  deriving DecidableEq, Repr

def TabSession.setTokens (s : TabSession) (tokens : TokenTable) : TabSession :=
  { s with server := { s.server with tokens := tokens } }

/-- The write of `refreshTokens`, and the reply. A write that fails is an error of the
server. -/
def write (s : TabSession) (i : Nat) (call : Pending) (d : Renewal) : TabSession :=
  match call with
  | .rotate existingId existing =>
      match rotate s.server.tokens existingId d.newId
          (successorOf existing d.newTokenHash s.now) s.now with
      | some tokens =>
          (s.setTokens tokens).setPhase i (.replied (.ok (d.accessToken, d.newTokenHash)))
      | none => s.setPhase i (.replied (.error 500))
  | .revokeFamily familyId =>
      (s.setTokens (revokeFamily s.server.tokens familyId s.now)).setPhase i
        (.replied (.error 401))

def isAuthError (status : Nat) (errCode : Option JsString) : Bool :=
  status == 401 ||
    [js "TOKEN_EXPIRED", js "TOKEN_INVALID", js "TOKEN_REVOKED", js "UNAUTHORIZED"].any
      fun code => errCode == some code

def isAuthEndpoint (path : JsString) : Bool :=
  [js "/auth/refresh", js "/auth/login", js "/auth/register", js "/auth/logout"].any
    fun endpoint => decide (endpoint <:+: path)

def Tab.setCall (s : Tab) (k : Nat) (phase : CallPhase) : Tab :=
  { s with calls := s.calls.modify k fun call => { call with phase := phase } }

/-- A call starts. The token that it gives, even none, takes the place of the stored one. -/
def apiFetch (s : Tab) (path : JsString) (token : Option (Option AccessToken)) : Tab :=
  { s with calls := s.calls ++ [⟨path, .fetching (token.getD s.token) false⟩] }

/-- The response to the fetch of a call. -/
def onResponse (s : Tab) (k : Nat) (path : JsString) (token : Option AccessToken) (retry : Bool)
    (status : Nat) (errCode : Option JsString) : Tab :=
  if isAuthError status errCode && !isAuthEndpoint path && !retry && token.isSome then
    let (refresh, session) := refreshAccessToken s.toTabSession
    { s with toTabSession := session }.setCall k (.awaiting refresh)
  else s.setCall k .returned

/-- The promise that a call awaits is settled. Outside the pages of the login and of an
invitation, a call without a fresh token ends the session. -/
def onRefreshed (s : Tab) (k : Nat) (freshToken : Option AccessToken) (onOpenPage : Bool) : Tab :=
  match freshToken with
  | some freshToken => s.setCall k (.fetching (some freshToken) true)
  | none => { s with token := if onOpenPage then s.token else none }.setCall k .returned

inductive TabStep
  | elapse (milliseconds : Nat)
  | apiFetch (path : JsString) (token : Option (Option AccessToken))
  | response (call status : Nat) (errCode : Option JsString)
  | fetchFails (call : Nat)
  | refreshed (call : Nat) (onOpenPage : Bool)
  | refreshAccessToken
  | receive (refresh : Nat)
  | turnAway (refresh status : Nat)
  | write (refresh : Nat) (draws : Renewal)
  | reply (refresh : Nat)
  | lose (refresh : Nat)
  | timer
  | signIn (userId newId familyId : Uuid) (tokenHash : TokenHash) (accessToken : AccessToken)
  | signedIn (login : Nat)
  | signOut
  | others (action : Action)
  deriving Repr

/-- What a step does to what the calls share, if it is a step by now. -/
def TabSession.step (s : TabSession) : TabStep → Option TabSession
  | .elapse milliseconds => some { s with now := s.now + milliseconds }
  | .refreshAccessToken => some (Client.refreshAccessToken s).2
  | .receive i =>
      match s.refreshes[i]? with
      | some ⟨_, .sent cookie⟩ => some (Client.receive s i cookie)
      | _ => none
  | .turnAway i status =>
      match s.refreshes[i]? with
      | some ⟨_, .sent _⟩ => some (s.setPhase i (.replied (.error status)))
      | _ => none
  | .write i draws =>
      match s.refreshes[i]? with
      | some ⟨_, .handling _ call⟩ => some (Client.write s i call draws)
      | _ => none
  | .timer =>
      match s.refreshPromise.bind fun i => s.refreshes[i]? with
      | some ⟨_, .settled _ settledAt⟩ =>
          if settledAt + refreshDebounceMs ≤ s.now then some { s with refreshPromise := none }
          else none
      | _ => none
  | .signIn userId newId familyId tokenHash accessToken =>
      if familyId ∈ s.server.families then none
      else
        (create s.server.tokens newId (issued userId tokenHash familyId s.now)).map fun tokens =>
          { s with
            server := { s.server with tokens := tokens, families := familyId :: s.server.families }
            logins := s.logins ++ [(accessToken, tokenHash)] }
  | .others action => (Auth.step s.server action).map fun server => { s with server := server }
  | _ => none

def Tab.step (s : Tab) : TabStep → Option Tab
  | .apiFetch path token => some (Client.apiFetch s path token)
  | .response k status errCode =>
      match s.calls[k]? with
      | some ⟨path, .fetching token retry⟩ =>
          some (onResponse s k path token retry status errCode)
      | _ => none
  | .fetchFails k =>
      match s.calls[k]? with
      | some ⟨_, .fetching _ _⟩ => some (s.setCall k .returned)
      | _ => none
  | .refreshed k onOpenPage =>
      match s.calls[k]? with
      | some ⟨_, .awaiting i⟩ =>
          match s.refreshes[i]? with
          | some ⟨_, .settled freshToken _⟩ => some (onRefreshed s k freshToken onOpenPage)
          | _ => none
      | _ => none
  | .reply i =>
      match s.refreshes[i]? with
      | some ⟨_, .replied reply⟩ => some (settle s i (some reply))
      | _ => none
  | .lose i =>
      match s.refreshes[i]? with
      | some ⟨_, .sent _⟩ => some (settle s i none)
      | some ⟨_, .replied _⟩ => some (settle s i none)
      | _ => none
  | .signedIn l =>
      match s.logins[l]? with
      | some (accessToken, tokenHash) =>
          some { s with
            token := some accessToken
            cookie := some tokenHash
            logins := s.logins.eraseIdx l }
      | none => none
  | .signOut => some { s with token := none, cookie := none }
  | a => (s.toTabSession.step a).map fun session => { s with toTabSession := session }

end SyncBoard.Client
