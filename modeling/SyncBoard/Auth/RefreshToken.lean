import SyncBoard.Basic
import SyncBoard.Lib.Run
import SyncBoard.Lib.Table

/-!
# Refresh tokens: the repository and the calls in flight

`RefreshTokenRepository` is a table of token rows. A `refreshTokens` call
reads a row, decides, and only then writes, so between the two awaits it is a
value in the state (`Pending`). Every other operation of `AuthService` that
touches the table is one statement.

## Implementation notes

The columns `ip_address`, `user_agent` and `created_at` are stored and never
read by these operations, and are left out. A token is presented by its hash:
`hashToken` is applied before anything else, to the presented value as to the
new one. The random values of a call (row id, hash, family id) and the clock
readings are part of the label of its step.
-/

namespace SyncBoard.Auth

open Relational

/-- The SHA-256 digest under which a token is stored. -/
abbrev TokenHash := Nat

/-- A row of `refresh_tokens`; the row id is the key of the table. -/
structure RefreshToken where
  userId : Uuid
  tokenHash : TokenHash
  familyId : Uuid
  replacedBy : Option Uuid := none
  expiresAt : Timestamp
  revokedAt : Option Timestamp := none
  deriving DecidableEq, Repr

abbrev TokenTable := Table Uuid RefreshToken

/-- `AUTH_CONFIG.refreshToken.expiresInDays`. -/
def expiresInDays : Nat := 7

/-- The expiry that `refreshTokens` and `issueTokenPair` compute at `now`. -/
def expiryFrom (now : Timestamp) : Timestamp :=
  now + expiresInDays * 24 * 60 * 60 * 1000

/-- Neither the row id nor the unique `token_hash` is in use. -/
def Unused (tokens : TokenTable) (id : Uuid) (tokenHash : TokenHash) : Prop :=
  tokens.get? id = none ∧ tokens.find? (fun _ r => decide (r.tokenHash = tokenHash)) = none

instance (tokens : TokenTable) (id : Uuid) (tokenHash : TokenHash) :
    Decidable (Unused tokens id tokenHash) :=
  inferInstanceAs (Decidable (_ ∧ _))

/-- Insert a token row; `none` is a violation of the primary key or of the
unique index on `token_hash`. -/
def create (tokens : TokenTable) (id : Uuid) (data : RefreshToken) : Option TokenTable :=
  if Unused tokens id data.tokenHash then tokens.insert? id data else none

def findByTokenHashWithUser (tokens : TokenTable) (tokenHash : TokenHash) :
    Option (Uuid × RefreshToken) :=
  tokens.find? fun _ r => decide (r.tokenHash = tokenHash)

/-- The create-and-revoke transaction. The predecessor is updated by its id
alone; `none` is a rolled-back transaction. -/
def rotate (tokens : TokenTable) (previousTokenId newId : Uuid) (data : RefreshToken)
    (now : Timestamp) : Option TokenTable :=
  (create tokens newId data).bind fun withSuccessor =>
    if (withSuccessor.get? previousTokenId).isSome then
      some (withSuccessor.modify previousTokenId fun r =>
        { r with revokedAt := some now, replacedBy := some newId })
    else none

/-- `updateMany` with `revokedAt: null` in its condition. -/
def revokeWhere (tokens : TokenTable) (p : RefreshToken → Bool) (now : Timestamp) :
    TokenTable :=
  tokens.mapRows fun _ r =>
    if p r && r.revokedAt.isNone then { r with revokedAt := some now } else r

def revokeFamily (tokens : TokenTable) (familyId : Uuid) (now : Timestamp) : TokenTable :=
  revokeWhere tokens (fun r => decide (r.familyId = familyId)) now

def revokeByTokenHash (tokens : TokenTable) (tokenHash : TokenHash) (now : Timestamp) :
    TokenTable :=
  revokeWhere tokens (fun r => decide (r.tokenHash = tokenHash)) now

def revokeAllByUserId (tokens : TokenTable) (userId : Uuid) (now : Timestamp) : TokenTable :=
  revokeWhere tokens (fun r => decide (r.userId = userId)) now

inductive RefreshError
  | tokenInvalid
  | refreshTokenExpired
  | tokenReuseDetected
  deriving DecidableEq, Repr

/-- What a `refreshTokens` call does after its read. -/
inductive Pending
  | rotate (existingId : Uuid) (existing : RefreshToken)
  | revokeFamily (familyId : Uuid)
  deriving DecidableEq, Repr

/-- `refreshTokens` up to the await of its write. -/
def refreshTokensRead (tokens : TokenTable) (tokenHash : TokenHash) (now : Timestamp) :
    Except RefreshError Pending :=
  match findByTokenHashWithUser tokens tokenHash with
  | none => .error .tokenInvalid
  | some (id, existingToken) =>
      if existingToken.expiresAt < now then .error .refreshTokenExpired
      else if existingToken.revokedAt.isSome then .ok (.revokeFamily existingToken.familyId)
      else .ok (.rotate id existingToken)

/-- The row that `refreshTokens` inserts for the successor. -/
def successorOf (existing : RefreshToken) (newTokenHash : TokenHash) (now : Timestamp) :
    RefreshToken where
  userId := existing.userId
  familyId := existing.familyId
  tokenHash := newTokenHash
  expiresAt := expiryFrom now

/-- The row that `issueTokenPair` inserts: the first of a new family. -/
def issued (userId : Uuid) (tokenHash : TokenHash) (familyId : Uuid) (now : Timestamp) :
    RefreshToken where
  userId := userId
  familyId := familyId
  tokenHash := tokenHash
  expiresAt := expiryFrom now

/-- The token table, the `refreshTokens` calls past their read, and the family
ids handed out so far. -/
structure AuthState where
  tokens : TokenTable := Table.empty
  inFlight : List Pending := []
  families : List Uuid := []

/-- One await of one call.

`revokeAll` is the write of `logoutAllDevices`, and the first write of
`changePassword` and `resetPassword`, whose second write is an `issue`. -/
inductive Action
  | find (tokenHash : TokenHash) (now : Timestamp)
  | rotate (call : Nat) (newId : Uuid) (newTokenHash : TokenHash) (issuedAt now : Timestamp)
  | reuse (call : Nat) (now : Timestamp)
  | logout (tokenHash : TokenHash) (now : Timestamp)
  | revokeAll (userId : Uuid) (now : Timestamp)
  | issue (userId : Uuid) (newId : Uuid) (tokenHash : TokenHash) (familyId : Uuid)
      (now : Timestamp)
  deriving DecidableEq, Repr

/-- The effect of one await. A refused write leaves the table as it was; a
`randomUUID()` family id is one that was never handed out before. -/
def step (s : AuthState) : Action → Option AuthState
  | .find tokenHash now =>
      match refreshTokensRead s.tokens tokenHash now with
      | .error _ => some s
      | .ok call => some { s with inFlight := s.inFlight ++ [call] }
  | .rotate call newId newTokenHash issuedAt now =>
      match s.inFlight[call]? with
      | some (.rotate existingId existing) =>
          let tokens := Auth.rotate s.tokens existingId newId
            (successorOf existing newTokenHash issuedAt) now
          some { s with tokens := tokens.getD s.tokens, inFlight := s.inFlight.eraseIdx call }
      | _ => none
  | .reuse call now =>
      match s.inFlight[call]? with
      | some (.revokeFamily familyId) =>
          some { s with
            tokens := Auth.revokeFamily s.tokens familyId now
            inFlight := s.inFlight.eraseIdx call }
      | _ => none
  | .logout tokenHash now => some { s with tokens := revokeByTokenHash s.tokens tokenHash now }
  | .revokeAll userId now => some { s with tokens := revokeAllByUserId s.tokens userId now }
  | .issue userId newId tokenHash familyId now =>
      if familyId ∈ s.families then none
      else
        let tokens := create s.tokens newId (issued userId tokenHash familyId now)
        some { s with tokens := tokens.getD s.tokens, families := familyId :: s.families }

/-- The row of a token in a state, named by its id. -/
def NonRevoked (tokens : TokenTable) (familyId id : Uuid) : Prop :=
  ∃ r, tokens.get? id = some r ∧ r.familyId = familyId ∧ r.revokedAt = none

theorem create_eq_some {tokens tokens' : TokenTable} {id : Uuid} {data : RefreshToken}
    (h : create tokens id data = some tokens') :
    Unused tokens id data.tokenHash ∧
      ∀ j, tokens'.get? j = if j = id then some data else tokens.get? j := by
  unfold create at h
  split at h
  · exact ⟨‹_›, fun j => Table.get?_insert? h j⟩
  · cases h

theorem create_of_unused {tokens : TokenTable} {id : Uuid} {data : RefreshToken}
    (h : Unused tokens id data.tokenHash) : ∃ tokens', create tokens id data = some tokens' := by
  obtain ⟨tokens', hi⟩ := Table.insert?_of_fresh h.1 data
  exact ⟨tokens', by rw [create, if_pos h, hi]⟩

/-- A committed rotation inserts the successor and revokes the predecessor. -/
theorem rotate_eq_some {tokens tokens' : TokenTable} {prev newId : Uuid} {data : RefreshToken}
    {now : Timestamp} (h : rotate tokens prev newId data now = some tokens')
    (hprev : (tokens.get? prev).isSome) :
    Unused tokens newId data.tokenHash ∧ newId ≠ prev ∧
      ∀ j, tokens'.get? j =
        if j = newId then some data
        else if j = prev then (tokens.get? j).map fun r =>
          { r with revokedAt := some now, replacedBy := some newId }
        else tokens.get? j := by
  obtain ⟨withSuccessor, hc, hu⟩ := Option.bind_eq_some_iff.mp h
  obtain ⟨hunused, hget⟩ := create_eq_some hc
  have hne : newId ≠ prev := by
    rintro rfl
    simp [hunused.1] at hprev
  refine ⟨hunused, hne, fun j => ?_⟩
  have hsome : (withSuccessor.get? prev).isSome := by
    rw [hget prev, if_neg (Ne.symm hne)]
    exact hprev
  rw [if_pos hsome, Option.some.injEq] at hu
  subst hu
  rw [Table.get?_modify, hget j]
  by_cases hj : j = newId
  · simp [hj, hne]
  · simp [hj]

theorem rotate_of_unused {tokens : TokenTable} {prev newId : Uuid} (data : RefreshToken)
    (now : Timestamp) (hu : Unused tokens newId data.tokenHash)
    (hprev : (tokens.get? prev).isSome) :
    ∃ tokens', rotate tokens prev newId data now = some tokens' := by
  obtain ⟨withSuccessor, hc⟩ := create_of_unused hu
  have hget := (create_eq_some hc).2 prev
  have hne : prev ≠ newId := by
    rintro rfl
    simp [hu.1] at hprev
  rw [if_neg hne] at hget
  exact ⟨_, by rw [rotate, hc, Option.bind_some, if_pos (hget ▸ hprev)]⟩

/-- A bulk revocation leaves non-revoked exactly the rows outside its condition. -/
theorem nonRevoked_revokeWhere (tokens : TokenTable) (p : RefreshToken → Bool)
    (now : Timestamp) (familyId id : Uuid) :
    NonRevoked (revokeWhere tokens p now) familyId id ↔
      ∃ r, tokens.get? id = some r ∧ r.familyId = familyId ∧ r.revokedAt = none ∧
        p r = false := by
  simp only [NonRevoked, revokeWhere, Table.get?_mapRows, Option.map_eq_some_iff]
  constructor
  · rintro ⟨_, ⟨r, hr, rfl⟩, hf, hn⟩
    cases hp : p r <;> cases hrev : r.revokedAt <;> simp_all
  · rintro ⟨r, hr, hf, hn, hp⟩
    exact ⟨_, ⟨r, hr, rfl⟩, by simp [hp, hf], by simp [hp, hn]⟩

end SyncBoard.Auth
