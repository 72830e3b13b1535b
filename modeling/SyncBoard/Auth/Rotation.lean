import SyncBoard.Auth.RefreshToken

/-!
# Interleaved refresh token rotations

The revoked check of `refreshTokens` reads a row before the transaction of
`rotate` writes, and that transaction names its predecessor by id alone. The
two laws of the token families therefore depend on the state in which a
rotation commits: a family keeps at most one non-revoked token exactly while
every rotation commits on the only one, and a revoked family stays revoked
exactly while every rotation commits in a family that still has one.
-/

namespace SyncBoard.Auth

open Relational Labelled

/-- Everything one await can do. -/
inductive Effect (s : AuthState) : Action → AuthState → Prop
  | refused {tokenHash now e} (h : refreshTokensRead s.tokens tokenHash now = .error e) :
      Effect s (.find tokenHash now) s
  | read {tokenHash now call} (h : refreshTokensRead s.tokens tokenHash now = .ok call) :
      Effect s (.find tokenHash now) { s with inFlight := s.inFlight ++ [call] }
  | rotated {call newId newTokenHash issuedAt now existingId existing tokens}
      (hcall : s.inFlight[call]? = some (.rotate existingId existing))
      (h : rotate s.tokens existingId newId (successorOf existing newTokenHash issuedAt) now =
        some tokens) :
      Effect s (.rotate call newId newTokenHash issuedAt now)
        { s with tokens := tokens, inFlight := s.inFlight.eraseIdx call }
  | rolledBack {call newId newTokenHash issuedAt now existingId existing}
      (hcall : s.inFlight[call]? = some (.rotate existingId existing))
      (h : rotate s.tokens existingId newId (successorOf existing newTokenHash issuedAt) now =
        none) :
      Effect s (.rotate call newId newTokenHash issuedAt now)
        { s with inFlight := s.inFlight.eraseIdx call }
  | reused {call now familyId} (hcall : s.inFlight[call]? = some (.revokeFamily familyId)) :
      Effect s (.reuse call now)
        { s with
          tokens := revokeFamily s.tokens familyId now
          inFlight := s.inFlight.eraseIdx call }
  | loggedOut {tokenHash now} :
      Effect s (.logout tokenHash now)
        { s with tokens := revokeByTokenHash s.tokens tokenHash now }
  | loggedOutAll {userId now} :
      Effect s (.revokeAll userId now)
        { s with tokens := revokeAllByUserId s.tokens userId now }
  | issued {userId newId tokenHash familyId now tokens} (hf : familyId ∉ s.families)
      (h : create s.tokens newId (issued userId tokenHash familyId now) = some tokens) :
      Effect s (.issue userId newId tokenHash familyId now)
        { s with tokens := tokens, families := familyId :: s.families }
  | issueRefused {userId newId tokenHash familyId now} (hf : familyId ∉ s.families)
      (h : create s.tokens newId (issued userId tokenHash familyId now) = none) :
      Effect s (.issue userId newId tokenHash familyId now)
        { s with families := familyId :: s.families }

theorem effect_of_step {s s' : AuthState} {a : Action} (h : step s a = some s') :
    Effect s a s' := by
  cases a with
  | find tokenHash now =>
      simp only [step] at h
      split at h
      · cases h; exact .refused ‹_›
      · cases h; exact .read ‹_›
  | rotate call newId newTokenHash issuedAt now =>
      simp only [step] at h
      split at h
      · rename_i existingId existing hcall
        cases ht : rotate s.tokens existingId newId
            (successorOf existing newTokenHash issuedAt) now with
        | none =>
            rw [ht] at h
            cases h
            exact .rolledBack hcall ht
        | some tokens =>
            rw [ht] at h
            cases h
            exact .rotated hcall ht
      · cases h
  | reuse call now =>
      simp only [step] at h
      split at h
      · cases h; exact .reused ‹_›
      · cases h
  | logout tokenHash now => cases h; exact .loggedOut
  | revokeAll userId now => cases h; exact .loggedOutAll
  | issue userId newId tokenHash familyId now =>
      simp only [step] at h
      split at h
      · cases h
      · rename_i hf
        cases ht : create s.tokens newId (Auth.issued userId tokenHash familyId now) with
        | none =>
            rw [ht] at h
            cases h
            exact .issueRefused hf ht
        | some tokens =>
            rw [ht] at h
            cases h
            exact .issued hf ht

/-- Some row of the table belongs to the family and to the user. -/
def Owned (tokens : TokenTable) (familyId userId : Uuid) : Prop :=
  ∃ id r, tokens.get? id = some r ∧ r.familyId = familyId ∧ r.userId = userId

/-- A call in flight carries the family and the user of a row that exists, and
the family of a row is one that was handed out. -/
structure Consistent (s : AuthState) : Prop where
  pending : ∀ id existing, Pending.rotate id existing ∈ s.inFlight →
    ∃ r, s.tokens.get? id = some r ∧ r.familyId = existing.familyId ∧
      r.userId = existing.userId
  known : ∀ familyId userId, Owned s.tokens familyId userId → familyId ∈ s.families

/-- All tokens of a family belong to one user. -/
def OneOwner (s : AuthState) : Prop :=
  ∀ familyId u v, Owned s.tokens familyId u → Owned s.tokens familyId v → u = v

/-- A table with no call in flight. -/
def AuthState.ofTable (tokens : TokenTable) : AuthState where
  tokens := tokens
  families := tokens.rows.map fun p => p.2.familyId

theorem consistent_ofTable (tokens : TokenTable) : Consistent (.ofTable tokens) where
  pending := by simp [AuthState.ofTable]
  known := by
    rintro f u ⟨id, r, hr, rfl, -⟩
    exact List.mem_map.mpr ⟨(id, r), (tokens.mem_rows_iff id r).mpr hr, rfl⟩

theorem oneOwner_empty : OneOwner (.ofTable Table.empty) := by
  rintro f u v ⟨id, r, hr, -⟩
  cases hr

theorem refreshTokensRead_rotate {tokens : TokenTable} {tokenHash : TokenHash}
    {now : Timestamp} {id : Uuid} {existing : RefreshToken}
    (h : refreshTokensRead tokens tokenHash now = .ok (.rotate id existing)) :
    tokens.get? id = some existing ∧ existing.revokedAt = none := by
  unfold refreshTokensRead at h
  split at h
  · cases h
  · rename_i id' existing' hfind
    split at h
    · cases h
    · split at h
      · cases h
      · rename_i hrev
        cases h
        exact ⟨(Table.find?_eq_some hfind).1, by simpa using hrev⟩

/-- The row that a rotation in flight names exists. -/
theorem Consistent.exists_row {s : AuthState} (hc : Consistent s) {call : Nat} {id : Uuid}
    {existing : RefreshToken} (hcall : s.inFlight[call]? = some (.rotate id existing)) :
    ∃ r, s.tokens.get? id = some r ∧ r.familyId = existing.familyId ∧
      r.userId = existing.userId :=
  hc.pending id existing (List.mem_of_getElem? hcall)

theorem Consistent.isSome_row {s : AuthState} (hc : Consistent s) {call : Nat} {id : Uuid}
    {existing : RefreshToken} (hcall : s.inFlight[call]? = some (.rotate id existing)) :
    (s.tokens.get? id).isSome := by
  obtain ⟨r, hr, -⟩ := hc.exists_row hcall
  simp [hr]

theorem ne_of_mem_of_unused {tokens : TokenTable} {id newId : Uuid} {r : RefreshToken}
    (hr : tokens.get? id = some r) (hu : tokens.get? newId = none) : id ≠ newId := by
  rintro rfl
  cases hr.symm.trans hu

/-- A row stays under its id, in its family and with its user. -/
theorem Effect.row_persists {s s' : AuthState} {a : Action} (he : Effect s a s')
    (hc : Consistent s) {id : Uuid} {r : RefreshToken} (hr : s.tokens.get? id = some r) :
    ∃ r', s'.tokens.get? id = some r' ∧ r'.familyId = r.familyId ∧ r'.userId = r.userId := by
  have revoked : ∀ p now, ∃ r', (revokeWhere s.tokens p now).get? id = some r' ∧
      r'.familyId = r.familyId ∧ r'.userId = r.userId := by
    intro p now
    refine ⟨_, by rw [revokeWhere, Table.get?_mapRows, hr, Option.map_some], ?_, ?_⟩ <;>
      split <;> rfl
  cases he with
  | refused | read | rolledBack | issueRefused => exact ⟨r, hr, rfl, rfl⟩
  | rotated hcall h =>
      obtain ⟨hu, -, hget⟩ := rotate_eq_some h (hc.isSome_row hcall)
      rw [hget id, if_neg (ne_of_mem_of_unused hr hu.1)]
      split
      · refine ⟨_, by rw [hr, Option.map_some], ?_, ?_⟩ <;> rfl
      · exact ⟨r, hr, rfl, rfl⟩
  | reused | loggedOut | loggedOutAll => exact revoked _ _
  | issued hf h =>
      obtain ⟨hu, hget⟩ := create_eq_some h
      exact ⟨r, by rw [hget id, if_neg (ne_of_mem_of_unused hr hu.1), hr], rfl, rfl⟩

/-- A family of the new state belongs to the same user as before, or it is the
family of the pair just issued. -/
theorem Effect.owned_origin {s s' : AuthState} {a : Action} (he : Effect s a s')
    (hc : Consistent s) {f u : Uuid} (h : Owned s'.tokens f u) :
    Owned s.tokens f u ∨
      ∃ newId tokenHash now, a = .issue u newId tokenHash f now ∧ f ∉ s.families := by
  obtain ⟨id, r', hr', rfl, rfl⟩ := h
  have revoked : ∀ p now, (revokeWhere s.tokens p now).get? id = some r' →
      Owned s.tokens r'.familyId r'.userId := by
    intro p now h
    rw [revokeWhere, Table.get?_mapRows] at h
    obtain ⟨r, hr, rfl⟩ := Option.map_eq_some_iff.mp h
    exact ⟨id, r, hr, by split <;> rfl, by split <;> rfl⟩
  cases he with
  | refused | read | rolledBack | issueRefused => exact .inl ⟨id, r', hr', rfl, rfl⟩
  | rotated hcall h =>
      obtain ⟨-, -, hget⟩ := rotate_eq_some h (hc.isSome_row hcall)
      rw [hget id] at hr'
      split at hr'
      · obtain rfl := Option.some.inj hr'
        obtain ⟨r, hr, hfam, huser⟩ := hc.exists_row hcall
        exact .inl ⟨_, r, hr, hfam, huser⟩
      · split at hr'
        · obtain ⟨r, hr, rfl⟩ := Option.map_eq_some_iff.mp hr'
          exact .inl ⟨id, r, hr, rfl, rfl⟩
        · exact .inl ⟨id, r', hr', rfl, rfl⟩
  | reused | loggedOut | loggedOutAll => exact .inl (revoked _ _ hr')
  | issued hf h =>
      obtain ⟨-, hget⟩ := create_eq_some h
      rw [hget id] at hr'
      split at hr'
      · obtain rfl := Option.some.inj hr'
        exact .inr ⟨_, _, _, rfl, hf⟩
      · exact .inl ⟨id, r', hr', rfl, rfl⟩

/-- A call in flight was in flight before, or has just read. -/
theorem Effect.pending_origin {s s' : AuthState} {a : Action} (he : Effect s a s')
    {p : Pending} (hp : p ∈ s'.inFlight) :
    p ∈ s.inFlight ∨ ∃ tokenHash now, refreshTokensRead s.tokens tokenHash now = .ok p := by
  cases he with
  | refused | loggedOut | loggedOutAll | issued | issueRefused => exact .inl hp
  | read h =>
      rcases List.mem_append.mp hp with hp | hp
      · exact .inl hp
      · obtain rfl := List.mem_singleton.mp hp
        exact .inr ⟨_, _, h⟩
  | rotated | rolledBack | reused => exact .inl (List.mem_of_mem_eraseIdx hp)

/-- Family ids are only added, and those of the new rows are among them. -/
theorem Effect.families {s s' : AuthState} {a : Action} (he : Effect s a s') :
    (∀ f ∈ s.families, f ∈ s'.families) ∧
      ∀ u newId tokenHash f now, a = .issue u newId tokenHash f now → f ∈ s'.families := by
  cases he <;> simp_all

theorem Consistent.step {s s' : AuthState} {a : Action} (hc : Consistent s)
    (h : step s a = some s') : Consistent s' := by
  have he := effect_of_step h
  constructor
  · intro id existing hp
    obtain ⟨r, hr, hfam, huser⟩ : ∃ r, s.tokens.get? id = some r ∧
        r.familyId = existing.familyId ∧ r.userId = existing.userId := by
      rcases he.pending_origin hp with hp | ⟨tokenHash, now, hread⟩
      · exact hc.pending id existing hp
      · exact ⟨existing, (refreshTokensRead_rotate hread).1, rfl, rfl⟩
    obtain ⟨r', hr', hfam', huser'⟩ := he.row_persists hc hr
    exact ⟨r', hr', hfam'.trans hfam, huser'.trans huser⟩
  · intro f u hown
    rcases he.owned_origin hc hown with hown | ⟨newId, tokenHash, now, ha, -⟩
    · exact he.families.1 f (hc.known f u hown)
    · exact he.families.2 _ _ _ _ _ ha

theorem OneOwner.step {s s' : AuthState} {a : Action} (ho : OneOwner s) (hc : Consistent s)
    (h : step s a = some s') : OneOwner s' := by
  have he := effect_of_step h
  intro f u v hu hv
  rcases he.owned_origin hc hu with hu | ⟨newId, tokenHash, now, ha, hf⟩ <;>
    rcases he.owned_origin hc hv with hv | ⟨newId', tokenHash', now', ha', hf'⟩
  · exact ho f u v hu hv
  · exact absurd (hc.known f u hu) hf'
  · exact absurd (hc.known f v hv) hf
  · obtain ⟨rfl, -⟩ := Action.issue.inj (ha.symm.trans ha')
    rfl

theorem nonRevoked_rotate {tokens tokens' : TokenTable} {prev newId : Uuid}
    {existing : RefreshToken} {newTokenHash : TokenHash} {issuedAt now : Timestamp}
    (h : rotate tokens prev newId (successorOf existing newTokenHash issuedAt) now =
      some tokens')
    (hprev : (tokens.get? prev).isSome) (f j : Uuid) :
    NonRevoked tokens' f j ↔
      (j = newId ∧ existing.familyId = f) ∨ (j ≠ prev ∧ NonRevoked tokens f j) := by
  obtain ⟨hu, hne, hget⟩ := rotate_eq_some h hprev
  simp only [NonRevoked, hget j]
  by_cases hj : j = newId
  · subst hj
    simp [hu.1, successorOf]
  · by_cases hjp : j = prev
    · subst hjp
      simp [hj]
    · simp [hj, hjp]

theorem nonRevoked_create {tokens tokens' : TokenTable} {u newId familyId : Uuid}
    {tokenHash : TokenHash} {now : Timestamp}
    (h : create tokens newId (issued u tokenHash familyId now) = some tokens') (f j : Uuid) :
    NonRevoked tokens' f j ↔ (j = newId ∧ familyId = f) ∨ NonRevoked tokens f j := by
  obtain ⟨hu, hget⟩ := create_eq_some h
  simp only [NonRevoked, hget j]
  by_cases hj : j = newId
  · subst hj
    simp [hu.1, issued]
  · simp [hj]

theorem NonRevoked.owned {tokens : TokenTable} {f j : Uuid} (h : NonRevoked tokens f j) :
    ∃ u, Owned tokens f u := by
  obtain ⟨r, hr, hf, -⟩ := h
  exact ⟨r.userId, j, r, hr, hf, rfl⟩

/-- Apart from a successor and the first token of a pair, no token becomes
non-revoked. -/
theorem nonRevoked_of_revokeWhere {tokens : TokenTable} {p : RefreshToken → Bool}
    {now : Timestamp} {f j : Uuid} (h : NonRevoked (revokeWhere tokens p now) f j) :
    NonRevoked tokens f j := by
  obtain ⟨r, hr, hf, hn, -⟩ := (nonRevoked_revokeWhere tokens p now f j).mp h
  exact ⟨r, hr, hf, hn⟩

/-- The family has at most one non-revoked token. -/
def AtMostOneNonRevoked (f : Uuid) (s : AuthState) : Prop :=
  ∀ i j, NonRevoked s.tokens f i → NonRevoked s.tokens f j → i = j

/-- A rotation in the family commits only while no token but the one that was
presented is non-revoked. -/
def RotatesTheOnlyOne (f : Uuid) (s : AuthState) : Action → Prop
  | .rotate call newId newTokenHash _ _ =>
      ∀ id existing, s.inFlight[call]? = some (.rotate id existing) →
        existing.familyId = f → Unused s.tokens newId newTokenHash →
        ∀ j, NonRevoked s.tokens f j → j = id
  | _ => True

theorem atMostOne_step {f : Uuid} {s s' : AuthState} {a : Action} (hc : Consistent s)
    (hone : AtMostOneNonRevoked f s) (h : step s a = some s') :
    AtMostOneNonRevoked f s' ↔ RotatesTheOnlyOne f s a := by
  have weaker : (∀ j, NonRevoked s'.tokens f j → NonRevoked s.tokens f j) →
      AtMostOneNonRevoked f s' := fun hsub i j hi hj => hone i j (hsub i hi) (hsub j hj)
  cases effect_of_step h with
  | refused | read | issueRefused => exact iff_of_true (weaker fun _ hj => hj) trivial
  | reused | loggedOut | loggedOutAll =>
      exact iff_of_true (weaker fun _ hj => nonRevoked_of_revokeWhere hj) trivial
  | @rolledBack call newId newTokenHash issuedAt now id existing hcall hnone =>
      refine iff_of_true (weaker fun _ hj => hj) ?_
      intro id' existing' hcall' _ hu
      -- unused random values are what a rotation needs to commit
      obtain ⟨tokens, ht⟩ := rotate_of_unused (successorOf existing newTokenHash issuedAt) now
        hu (hc.isSome_row hcall)
      cases hnone.symm.trans ht
  | @rotated call newId newTokenHash issuedAt now id existing tokens hcall hrot =>
      have hnon := nonRevoked_rotate hrot (hc.isSome_row hcall) f
      have hu := (rotate_eq_some hrot (hc.isSome_row hcall)).1
      by_cases hf : existing.familyId = f
      · constructor
        · intro hone' id' existing' hcall' _ _ j hj
          obtain ⟨rfl, rfl⟩ := Pending.rotate.inj (Option.some.inj (hcall.symm.trans hcall'))
          by_contra hne
          have hnew : j = newId :=
            hone' j newId ((hnon j).mpr (.inr ⟨hne, hj⟩)) ((hnon newId).mpr (.inl ⟨rfl, hf⟩))
          obtain ⟨r, hr, -⟩ := hj
          simp [hnew, hu.1] at hr
        · intro hg i j hi hj
          have only : ∀ k, NonRevoked tokens f k → k = newId := by
            intro k hk
            rcases (hnon k).mp hk with ⟨rfl, -⟩ | ⟨hne, hk⟩
            · rfl
            · exact absurd (hg id existing hcall hf hu k hk) hne
          rw [only i hi, only j hj]
      · refine iff_of_true (weaker fun j hj => ?_) ?_
        · rcases (hnon j).mp hj with ⟨-, hf'⟩ | ⟨-, hj⟩
          · exact absurd hf' hf
          · exact hj
        · intro id' existing' hcall' hf'
          obtain ⟨rfl, rfl⟩ := Pending.rotate.inj (Option.some.inj (hcall.symm.trans hcall'))
          exact absurd hf' hf
  | @issued userId newId tokenHash familyId now tokens hfresh hcreate =>
      refine iff_of_true ?_ trivial
      have hnon := nonRevoked_create hcreate f
      by_cases hf : familyId = f
      · -- a new family has no token yet
        have only : ∀ k, NonRevoked tokens f k → k = newId := by
          intro k hk
          rcases (hnon k).mp hk with ⟨rfl, -⟩ | hk
          · rfl
          · obtain ⟨u, hown⟩ := hk.owned
            exact absurd (hf ▸ hc.known f u hown) hfresh
        intro i j hi hj
        rw [only i hi, only j hj]
      · apply weaker
        intro j hj
        rcases (hnon j).mp hj with ⟨-, hf'⟩ | hj
        · exact absurd hf' hf
        · exact hj

/-- Starting from a table in which a family has exactly one non-revoked token,
a run has at most one in every state it passes through exactly when each of
its rotations in the family commits on the only one. -/
theorem atMostOneNonRevoked_iff (f : Uuid) (tokens : TokenTable)
    (hone : ∃! id, NonRevoked tokens f id) {as : List Action} {s : AuthState}
    (run : Run step (.ofTable tokens) as s) :
    AllStates step (AtMostOneNonRevoked f) (.ofTable tokens) as ↔
      AllSteps step (RotatesTheOnlyOne f) (.ofTable tokens) as := by
  apply allStates_iff_allSteps (I := Consistent) _ _ run (consistent_ofTable tokens)
  · exact fun _ _ hi hj => hone.unique hi hj
  · exact fun _ _ _ hc h => hc.step h
  · exact fun _ _ _ hc hone h => atMostOne_step hc hone h

def oneToken : TokenTable where
  rows := [(1, { userId := 5, tokenHash := 10, familyId := 7, expiresAt := 100 })]
  nodup := by decide

theorem nonRevoked_oneToken : ∃! id, NonRevoked oneToken 7 id := by
  refine ⟨1, ⟨_, rfl, rfl, rfl⟩, ?_⟩
  rintro j ⟨r, hr, -, -⟩
  have hmem := (oneToken.mem_rows_iff j r).mpr hr
  simp [oneToken] at hmem
  exact hmem.1

/-- Two calls that present the same token both read it before either commits,
and each inserts a successor. -/
def doubleRefresh : List Action :=
  [.find 10 0, .find 10 0, .rotate 0 2 20 0 0, .rotate 0 3 30 0 0]

theorem atMostOneNonRevoked_iff_doubleRefresh :
    AllStates step (AtMostOneNonRevoked 7) (.ofTable oneToken) doubleRefresh ↔
      AllSteps step (RotatesTheOnlyOne 7) (.ofTable oneToken) doubleRefresh :=
  atMostOneNonRevoked_iff 7 oneToken nonRevoked_oneToken (run_of_exec rfl)

/-- The await belongs to a `refreshTokens` call. -/
def Action.OfRefresh : Action → Prop
  | .find _ _ | .rotate _ _ _ _ _ | .reuse _ _ => True
  | _ => False

/-- The law of one non-revoked token fails for two refresh calls alone. -/
theorem doubleRefresh_breaks_one :
    ¬ ∀ (f : Uuid) (tokens : TokenTable), (∃! id, NonRevoked tokens f id) →
      ∀ (as : List Action) (s : AuthState), (∀ a ∈ as, a.OfRefresh) →
        Run step (.ofTable tokens) as s → AtMostOneNonRevoked f s := by
  intro hall
  have hrefresh : ∀ a ∈ doubleRefresh, a.OfRefresh := by simp [doubleRefresh, Action.OfRefresh]
  obtain ⟨s, hs⟩ : ∃ s, exec step (.ofTable oneToken) doubleRefresh = some s := ⟨_, rfl⟩
  have hone := hall 7 oneToken nonRevoked_oneToken doubleRefresh s hrefresh (run_of_exec hs)
  have htwo : NonRevoked s.tokens 7 2 ∧ NonRevoked s.tokens 7 3 := by
    cases hs
    exact ⟨⟨_, rfl, rfl, rfl⟩, ⟨_, rfl, rfl, rfl⟩⟩
  exact absurd (hone 2 3 htwo.1 htwo.2) (by decide)

end SyncBoard.Auth
