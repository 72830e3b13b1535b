import SyncBoard.Auth.RefreshChain

/-!
# Replays of consumed refresh tokens

A rotation consumes the token that it is called with. Presented again, the token has its
family revoked only where `refreshTokens` gets to its check for reuse: an expired token is
refused before, and one that the cleanup task has deleted is not found. A family lives on
with every rotation, so its first tokens expire while the last one is in use.

## Implementation notes

The cleanup task runs among the calls. The row that a deleted one replaced loses its
`replaced_by`, as the foreign key says.
-/

namespace SyncBoard.Auth

open Relational Labelled

/-- `RefreshTokenRepository.deleteExpiredTokens`. -/
def deleteExpiredTokens (tokens : TokenTable) (olderThanDate : Timestamp) : TokenTable :=
  let kept := tokens.deleteWhere fun _ r =>
    decide (r.expiresAt < olderThanDate) || r.revokedAt.any fun t => decide (t < olderThanDate)
  kept.mapRows fun _ r => { r with replacedBy := r.replacedBy.filter fun id => kept.contains id }

/-- `TokenCleanupTask.handleTokenCleanup`. -/
def handleTokenCleanup (tokens : TokenTable) (now : Timestamp) : TokenTable :=
  deleteExpiredTokens tokens (now - 30 * 24 * 60 * 60 * 1000)

/-- A call of `AuthService`, or the cleanup task. -/
inductive Job
  | call (c : Call)
  | tokenCleanup (now : Timestamp)
  deriving DecidableEq, Repr

def jobStep (s : AuthState) : Job → Option AuthState
  | .call c => callStep s c
  | .tokenCleanup now => some { s with tokens := handleTokenCleanup s.tokens now }

/-- The tokens that a rotation has consumed, each with its family. -/
abbrev Consumed := List (TokenHash × Uuid)

def recordConsumed (consumed : Consumed) (s : AuthState) : Job → Consumed
  | .call (.refreshTokens tokenHash d) =>
      match (refreshTokens s.tokens tokenHash d).1,
          findByTokenHashWithUser s.tokens tokenHash with
      | .ok _, some (_, r) => (tokenHash, r.familyId) :: consumed
      | _, _ => consumed
  | _ => consumed

abbrev sessionStep : AuthState × Consumed → Job → Option (AuthState × Consumed) :=
  track jobStep recordConsumed

/-- The family has no non-revoked token. -/
def FamilyRevoked (tokens : TokenTable) (f : Uuid) : Prop :=
  ∀ id, ¬ NonRevoked tokens f id

/-- A replay of a consumed token leaves its family without a non-revoked token. -/
def ReplayRevokes (p : AuthState × Consumed) : Job → Prop
  | .call (.refreshTokens tokenHash d) => ∀ f, (tokenHash, f) ∈ p.2 →
      FamilyRevoked (refreshTokens p.1.tokens tokenHash d).2 f
  | _ => True

/-- A consumed token that is replayed has its revoked row in the table and has not expired,
or its family has no non-revoked token anyway. -/
def ReplayDetected (p : AuthState × Consumed) : Job → Prop
  | .call (.refreshTokens tokenHash d) => ∀ f, (tokenHash, f) ∈ p.2 →
      (∃ id r, findByTokenHashWithUser p.1.tokens tokenHash = some (id, r) ∧ r.familyId = f ∧
        r.revokedAt ≠ none ∧ ¬ r.expiresAt < d.readAt) ∨ FamilyRevoked p.1.tokens f
  | _ => True

/-- A consumed token that is replayed has not expired, or its family has no non-revoked
token anyway. -/
def ReplayUnexpired (p : AuthState × Consumed) : Job → Prop
  | .call (.refreshTokens tokenHash d) => ∀ f, (tokenHash, f) ∈ p.2 →
      (∀ id r, findByTokenHashWithUser p.1.tokens tokenHash = some (id, r) →
        ¬ r.expiresAt < d.readAt) ∨ FamilyRevoked p.1.tokens f
  | _ => True

section Calls
variable {tokens tokens' : TokenTable} {tokenHash : TokenHash} {d : Draws} {f : Uuid}

theorem familyRevoked_revokeFamily_iff (tokens : TokenTable) (g : Uuid) (now : Timestamp)
    (f : Uuid) : FamilyRevoked (revokeFamily tokens g now) f ↔ g = f ∨ FamilyRevoked tokens f := by
  simp only [FamilyRevoked, revokeFamily, nonRevoked_revokeWhere]
  constructor
  · intro h
    by_cases hfam : g = f
    · exact .inl hfam
    · right
      rintro id ⟨r, hr, hf, hn⟩
      refine h id ⟨r, hr, hf, hn, decide_eq_false ?_⟩
      rw [hf]
      exact Ne.symm hfam
  · rintro (rfl | h) id ⟨r, hr, hf, hn, hp⟩
    · rw [decide_eq_true hf] at hp
      cases hp
    · exact h id ⟨r, hr, hf, hn⟩

/-- A rotation leaves a non-revoked token in its family, and changes no other family. -/
theorem familyRevoked_rotate_iff {id newId : Uuid} {existing : RefreshToken}
    {newTokenHash : TokenHash} {issuedAt now : Timestamp} (hr : tokens.get? id = some existing)
    (hn : existing.revokedAt = none)
    (h : rotate tokens id newId (successorOf existing newTokenHash issuedAt) now = some tokens') :
    FamilyRevoked tokens' f ↔ FamilyRevoked tokens f := by
  have hnon := nonRevoked_rotate h (by simp [hr]) f
  constructor
  · intro hrevoked j hj
    apply hrevoked j
    rw [hnon j]
    right
    refine ⟨?_, hj⟩
    rintro rfl
    -- the predecessor is of the family, and so is its successor
    obtain ⟨r, hget, hf, -⟩ := hj
    obtain rfl := Option.some.inj (hr.symm.trans hget)
    exact hrevoked newId ((hnon newId).mpr (.inl ⟨rfl, hf⟩))
  · intro hrevoked j hj
    rcases (hnon j).mp hj with ⟨-, hf⟩ | ⟨-, hj⟩
    · exact hrevoked id ⟨existing, hr, hf, hn⟩
    · exact hrevoked j hj

/-- A call leaves a family without a non-revoked token exactly where it detects reuse in this
family, or the family has none before. -/
theorem familyRevoked_refreshTokens_iff :
    FamilyRevoked (refreshTokens tokens tokenHash d).2 f ↔
      (∃ id r, findByTokenHashWithUser tokens tokenHash = some (id, r) ∧ r.familyId = f ∧
        r.revokedAt ≠ none ∧ ¬ r.expiresAt < d.readAt) ∨ FamilyRevoked tokens f := by
  unfold refreshTokens refreshTokensRead
  cases hfind : findByTokenHashWithUser tokens tokenHash with
  | none => simp
  | some found =>
      obtain ⟨id, r⟩ := found
      by_cases hexpired : r.expiresAt < d.readAt
      · simp [hexpired]
      · cases hrevoked : r.revokedAt with
        | some revokedAt =>
            simp [hexpired, hrevoked, familyRevoked_revokeFamily_iff, not_lt.mp hexpired]
        | none =>
            have hr := (Table.find?_eq_some hfind).1
            cases hrot : rotate tokens id d.newId (successorOf r d.newTokenHash d.issuedAt)
                d.writtenAt with
            | none => simp [hexpired, hrevoked, hrot]
            | some rotated =>
                simp [hexpired, hrevoked, hrot, familyRevoked_rotate_iff hr hrevoked hrot]

theorem replayRevokes_iff (p : AuthState × Consumed) (job : Job) :
    ReplayRevokes p job ↔ ReplayDetected p job := by
  cases job with
  | tokenCleanup now => exact Iff.rfl
  | call c =>
      cases c with
      | refreshTokens tokenHash d =>
          exact forall₂_congr fun f _ => familyRevoked_refreshTokens_iff
      | issueTokenPair | logout | logoutAllDevices => exact Iff.rfl

end Calls

/-- A row of the token is in the table, revoked and in the family. -/
def Spent (tokens : TokenTable) (tokenHash : TokenHash) (f : Uuid) : Prop :=
  ∃ id r, tokens.get? id = some r ∧ r.tokenHash = tokenHash ∧ r.familyId = f ∧ r.revokedAt ≠ none

section Spent
variable {tokens tokens' : TokenTable} {tokenHash : TokenHash} {f : Uuid}

theorem Spent.revokeWhere (h : Spent tokens tokenHash f) (p : RefreshToken → Bool)
    (now : Timestamp) : Spent (revokeWhere tokens p now) tokenHash f := by
  obtain ⟨id, r, hr, hhash, hfamily, hrevoked⟩ := h
  refine ⟨id, r, ?_, hhash, hfamily, hrevoked⟩
  rw [Auth.revokeWhere, Table.get?_mapRows, hr, Option.map_some, if_neg]
  simp [hrevoked]

theorem Spent.create {id : Uuid} {data : RefreshToken} (h : Spent tokens tokenHash f)
    (hcreate : create tokens id data = some tokens') : Spent tokens' tokenHash f := by
  obtain ⟨hunused, hget⟩ := create_eq_some hcreate
  obtain ⟨j, r, hr, hspent⟩ := h
  refine ⟨j, r, ?_, hspent⟩
  rw [hget j, if_neg (ne_of_mem_of_unused hr hunused.1), hr]

theorem Spent.rotate {id newId : Uuid} {existing data : RefreshToken} {now : Timestamp}
    (h : Spent tokens tokenHash f) (hr : tokens.get? id = some existing)
    (hrot : rotate tokens id newId data now = some tokens') : Spent tokens' tokenHash f := by
  obtain ⟨hunused, -, hget⟩ := rotate_eq_some hrot (by simp [hr])
  obtain ⟨j, r, hj, hhash, hfamily, hrevoked⟩ := h
  have hrow := hget j
  rw [if_neg (ne_of_mem_of_unused hj hunused.1)] at hrow
  split at hrow
  · rw [hj, Option.map_some] at hrow
    exact ⟨j, _, hrow, hhash, hfamily, by simp⟩
  · exact ⟨j, r, hrow.trans hj, hhash, hfamily, hrevoked⟩

/-- The token with which a rotation is called is spent. -/
theorem spent_of_rotate {id newId : Uuid} {existing data : RefreshToken} {now : Timestamp}
    (hr : tokens.get? id = some existing)
    (hrot : rotate tokens id newId data now = some tokens') :
    Spent tokens' existing.tokenHash existing.familyId := by
  obtain ⟨hunused, hne, hget⟩ := rotate_eq_some hrot (by simp [hr])
  have hrow := hget id
  rw [if_neg (ne_of_mem_of_unused hr hunused.1), if_pos rfl, hr, Option.map_some] at hrow
  exact ⟨id, _, hrow, rfl, rfl, by simp⟩

end Spent

/-- A call that hands out a token has rotated the one that it is called with. -/
theorem rotated_of_ok {tokens : TokenTable} {tokenHash t : TokenHash} {d : Draws}
    (h : (refreshTokens tokens tokenHash d).1 = .ok t) :
    ∃ id r, findByTokenHashWithUser tokens tokenHash = some (id, r) ∧
      rotate tokens id d.newId (successorOf r d.newTokenHash d.issuedAt) d.writtenAt =
        some (refreshTokens tokens tokenHash d).2 := by
  obtain ⟨id, r, hfind, hexpired, hn, ⟨tokens', hrot⟩, -⟩ := refreshTokens_eq_ok_iff.mp h
  refine ⟨id, r, hfind, ?_⟩
  simp [refreshTokens, refreshTokensRead, hfind, hexpired, hn, hrot]

/-- What calls keep: hashes are unique, and the consumed tokens are spent. -/
structure ConsumedSpent (p : AuthState × Consumed) : Prop where
  hashes : p.1.tokens.Unique RefreshToken.tokenHash
  spent : ∀ tokenHash f, (tokenHash, f) ∈ p.2 → Spent p.1.tokens tokenHash f

namespace ConsumedSpent
variable {s : AuthState} {consumed : Consumed} {tokens' : TokenTable}

/-- A write that keeps hashes unique and tokens spent. -/
theorem write {s' : AuthState} (h : ConsumedSpent (s, consumed))
    (hhashes : s'.tokens.Unique RefreshToken.tokenHash)
    (hspent : ∀ tokenHash f, Spent s.tokens tokenHash f → Spent s'.tokens tokenHash f) :
    ConsumedSpent (s', consumed) where
  hashes := hhashes
  spent tokenHash f hmem := hspent tokenHash f (h.spent tokenHash f hmem)

theorem revokeWhere {s' : AuthState} (h : ConsumedSpent (s, consumed))
    (p : RefreshToken → Bool) (now : Timestamp)
    (htokens : s'.tokens = Auth.revokeWhere s.tokens p now) : ConsumedSpent (s', consumed) := by
  apply h.write
  · rw [htokens]
    exact unique_revokeWhere h.hashes p now
  · intro tokenHash f hspent
    rw [htokens]
    exact hspent.revokeWhere p now

theorem refreshTokens (h : ConsumedSpent (s, consumed)) (tokenHash : TokenHash) (d : Draws) :
    ConsumedSpent ({ s with tokens := (Auth.refreshTokens s.tokens tokenHash d).2 },
      recordConsumed consumed s (.call (.refreshTokens tokenHash d))) := by
  have hkept : ConsumedSpent
      ({ s with tokens := (Auth.refreshTokens s.tokens tokenHash d).2 }, consumed) := by
    obtain hsame | ⟨g, hrevoked⟩ | ⟨id, existing, tokens', hr, -, hrot, hres⟩ :=
      refreshTokens_cases s.tokens tokenHash d
    · rw [hsame]
      exact h
    · exact h.revokeWhere _ _ hrevoked
    · rw [hres]
      exact h.write (unique_rotate h.hashes hrot) fun _ _ hspent => hspent.rotate hr hrot
  simp only [recordConsumed]
  split
  · next t id r hok hfind =>
      refine ⟨hkept.hashes, fun hash f hmem => ?_⟩
      rcases List.mem_cons.mp hmem with heq | hmem
      · obtain ⟨rfl, rfl⟩ := Prod.mk.inj heq
        obtain ⟨id', r', hfind', hrot⟩ := rotated_of_ok hok
        obtain ⟨rfl, rfl⟩ := Prod.mk.inj (Option.some.inj (hfind.symm.trans hfind'))
        obtain ⟨hr, hhash⟩ := h.hashes.find?_eq_some_iff.mp hfind
        rw [← hhash]
        exact spent_of_rotate hr (hhash ▸ hrot)
      · exact hkept.spent hash f hmem
  · exact hkept

/-- Calls keep it; the cleanup task does not. -/
theorem step {p q : AuthState × Consumed} {job : Job} (h : ConsumedSpent p)
    (hcall : ∀ now, job ≠ .tokenCleanup now) (hstep : sessionStep p job = some q) :
    ConsumedSpent q := by
  obtain ⟨s, consumed⟩ := p
  obtain ⟨s', consumed'⟩ := q
  obtain ⟨hs, hconsumed⟩ := track_eq_some.mp hstep
  dsimp only at hs hconsumed
  subst hconsumed
  cases job with
  | tokenCleanup now => exact absurd rfl (hcall now)
  | call c =>
      cases c with
      | refreshTokens tokenHash d =>
          obtain rfl := Option.some.inj hs
          exact h.refreshTokens tokenHash d
      | issueTokenPair userId newId tokenHash familyId now =>
          simp only [jobStep, callStep] at hs
          cases effect_of_step hs with
          | issueRefused => exact h.write h.hashes fun _ _ hspent => hspent
          | issued _ hcreate =>
              exact h.write (unique_create h.hashes hcreate) fun _ _ hspent =>
                hspent.create hcreate
      | logout refreshToken now =>
          cases refreshToken with
          | none =>
              obtain rfl := Option.some.inj hs
              exact h
          | some tokenHash =>
              obtain rfl := Option.some.inj hs
              exact h.revokeWhere (fun r => decide (r.tokenHash = tokenHash)) now rfl
      | logoutAllDevices userId now =>
          obtain rfl := Option.some.inj hs
          exact h.revokeWhere (fun r => decide (r.userId = userId)) now rfl

/-- A spent token is found, revoked and in its family, so only its expiry is left to check. -/
theorem detected_iff {p : AuthState × Consumed} (h : ConsumedSpent p) (job : Job) :
    ReplayDetected p job ↔ ReplayUnexpired p job := by
  cases job with
  | tokenCleanup now => exact Iff.rfl
  | call c =>
      cases c with
      | issueTokenPair | logout | logoutAllDevices => exact Iff.rfl
      | refreshTokens tokenHash d =>
          refine forall₂_congr fun f hmem => or_congr_left ?_
          obtain ⟨id, r, hr, hhash, hfamily, hrevoked⟩ := h.spent tokenHash f hmem
          have hfind : findByTokenHashWithUser p.1.tokens tokenHash = some (id, r) :=
            h.hashes.find?_eq_some_iff.mpr ⟨hr, hhash⟩
          constructor
          · rintro ⟨id', r', hfind', -, -, hunexpired⟩ j q hq
            obtain ⟨-, rfl⟩ := Prod.mk.inj (Option.some.inj (hfind'.symm.trans hq))
            exact hunexpired
          · intro hunexpired
            exact ⟨id, r, hfind, hfamily, hrevoked, hunexpired id r hfind⟩

end ConsumedSpent

/-- In a run every replay of a consumed token leaves its family without a non-revoked token
exactly where its row is in the table and has not expired, or the family has none anyway.
Where the cleanup task does not run, the row is always in the table. -/
theorem replays_revoke_iff (s : AuthState) (jobs : List Job) :
    (AllSteps sessionStep ReplayRevokes (s, []) jobs ↔
      AllSteps sessionStep ReplayDetected (s, []) jobs) ∧
    (s.tokens.Unique RefreshToken.tokenHash → (∀ now, .tokenCleanup now ∉ jobs) →
      (AllSteps sessionStep ReplayRevokes (s, []) jobs ↔
        AllSteps sessionStep ReplayUnexpired (s, []) jobs)) := by
  constructor
  · apply AllSteps.congr (I := fun _ => True) (H := fun _ _ => True)
    · exact fun _ _ _ _ _ _ => trivial
    · exact fun p job _ _ => replayRevokes_iff p job
    · trivial
    · exact fun _ _ _ _ _ => trivial
  · intro hhashes hcalls
    apply AllSteps.congr (I := ConsumedSpent) (H := fun _ job => ∀ now, job ≠ .tokenCleanup now)
    · exact fun p job q hp hcall hstep => hp.step hcall hstep
    · exact fun p job hp _ => (replayRevokes_iff p job).trans (hp.detected_iff job)
    · exact ⟨hhashes, fun _ _ hmem => by cases hmem⟩
    · rintro before job p hprefix - now rfl
      apply hcalls now
      exact List.IsPrefix.subset hprefix (List.mem_append_right before (List.mem_singleton_self _))

/-- A day in milliseconds. -/
def day : Nat := 24 * 60 * 60 * 1000

/-- A login, a refresh on the sixth day, and the first token again, after its expiry. -/
def replayAfterExpiry : List Job :=
  [.call (.issueTokenPair 5 1 10 7 0),
    .call (.refreshTokens 10 ⟨6 * day, 6 * day, 6 * day, 2, 20⟩),
    .call (.refreshTokens 10 ⟨8 * day, 8 * day, 8 * day, 3, 30⟩)]

/-- The same on the seventh day, before the expiry. -/
def replayBeforeExpiry : List Job :=
  [.call (.issueTokenPair 5 1 10 7 0),
    .call (.refreshTokens 10 ⟨6 * day, 6 * day, 6 * day, 2, 20⟩),
    .call (.refreshTokens 10 ⟨7 * day, 7 * day, 7 * day, 3, 30⟩)]

theorem replays_revoke_iff_beforeExpiry :
    AllSteps sessionStep ReplayRevokes (.ofTable Table.empty, []) replayBeforeExpiry ↔
      AllSteps sessionStep ReplayUnexpired (.ofTable Table.empty, []) replayBeforeExpiry :=
  (replays_revoke_iff (.ofTable Table.empty) replayBeforeExpiry).2 (.empty _) (by
    intro now hmem
    simp [replayBeforeExpiry] at hmem)

/-- The second token of the family is still in use. -/
theorem replayAfterExpiry_keeps_family :
    ¬ ∀ jobs, AllSteps sessionStep ReplayRevokes (.ofTable Table.empty, []) jobs := by
  intro hall
  obtain ⟨p, hp⟩ : ∃ p, exec sessionStep (.ofTable Table.empty, []) (replayAfterExpiry.take 2) =
      some p := ⟨_, rfl⟩
  have hrevoked := hall replayAfterExpiry (replayAfterExpiry.take 2)
    (.call (.refreshTokens 10 ⟨8 * day, 8 * day, 8 * day, 3, 30⟩)) p (List.prefix_refl _)
    (run_of_exec hp)
  obtain rfl := Option.some.inj hp
  exact hrevoked 7 (by decide) 2 ⟨_, rfl, rfl, rfl⟩

end SyncBoard.Auth
