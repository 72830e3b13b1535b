import SyncBoard.Auth.Rotation

/-!
# Tokens that were replaced

A rotation replaces the token of the row that it names, and a token that was replaced is never
one that may be presented again. Every other write leaves it open whether a token was replaced,
and the token of a new row is new.
-/

namespace SyncBoard.Auth

open Relational

def Stored (tokens : TokenTable) (tokenHash : TokenHash) : Prop :=
  ∃ id r, tokens.get? id = some r ∧ r.tokenHash = tokenHash

/-- The token has not been replaced by a rotation. -/
def Unspent (tokens : TokenTable) (tokenHash : TokenHash) : Prop :=
  ∀ id r, tokens.get? id = some r → r.tokenHash = tokenHash → r.replacedBy = none

/-- Rows stay, with their token; of these only the tokens `spent` are replaced, and the tokens
of new rows are `added`. -/
structure Evolves (tokens tokens' : TokenTable) (spent added : TokenHash → Prop) : Prop where
  kept : ∀ id r, tokens.get? id = some r →
    ∃ r', tokens'.get? id = some r' ∧ r'.tokenHash = r.tokenHash
  origin : ∀ id r', tokens'.get? id = some r' →
    (∃ r, tokens.get? id = some r ∧ r'.tokenHash = r.tokenHash ∧
      (r'.replacedBy = r.replacedBy ∨ spent r.tokenHash)) ∨
    added r'.tokenHash ∧ r'.replacedBy = none
  fresh : ∀ tokenHash, added tokenHash → ¬ Stored tokens tokenHash

section Evolves
variable {tokens tokens' : TokenTable} {spent added : TokenHash → Prop} {tokenHash : TokenHash}

theorem Stored.evolve (h : Stored tokens tokenHash) (he : Evolves tokens tokens' spent added) :
    Stored tokens' tokenHash := by
  obtain ⟨id, r, hr, rfl⟩ := h
  obtain ⟨r', hr', hhash⟩ := he.kept id r hr
  exact ⟨id, r', hr', hhash⟩

theorem Unspent.evolve (h : Unspent tokens tokenHash)
    (he : Evolves tokens tokens' spent added) (hspent : ¬ spent tokenHash) :
    Unspent tokens' tokenHash := by
  rintro id r' hr' rfl
  rcases he.origin id r' hr' with ⟨r, hr, hhash, hsame | hspends⟩ | ⟨-, hnone⟩
  · exact hsame.trans (h id r hr hhash.symm)
  · exact absurd (hhash ▸ hspends) hspent
  · exact hnone

/-- A new token is nowhere else. -/
theorem Evolves.unspent_added (he : Evolves tokens tokens' spent added)
    (hadded : added tokenHash) : Unspent tokens' tokenHash := by
  rintro id r' hr' rfl
  rcases he.origin id r' hr' with ⟨r, hr, hhash, -⟩ | ⟨-, hnone⟩
  · exact absurd ⟨id, r, hr, hhash.symm⟩ (he.fresh _ hadded)
  · exact hnone

theorem evolves_refl (tokens : TokenTable) :
    Evolves tokens tokens (fun _ => False) (fun _ => False) where
  kept _ r hr := ⟨r, hr, rfl⟩
  origin _ r hr := .inl ⟨r, hr, rfl, .inl rfl⟩
  fresh _ hadded := hadded.elim

theorem Evolves.weaken {spent' : TokenHash → Prop} (he : Evolves tokens tokens' spent added)
    (hspent : ∀ tokenHash, spent tokenHash → spent' tokenHash) :
    Evolves tokens tokens' spent' added where
  kept := he.kept
  origin id r' hr' := by
    rcases he.origin id r' hr' with ⟨r, hr, hhash, hsame | hspends⟩ | hnew
    · exact .inl ⟨r, hr, hhash, .inl hsame⟩
    · exact .inl ⟨r, hr, hhash, .inr (hspent _ hspends)⟩
    · exact .inr hnew
  fresh := he.fresh

theorem evolves_revokeWhere (tokens : TokenTable) (p : RefreshToken → Bool) (now : Timestamp) :
    Evolves tokens (revokeWhere tokens p now) (fun _ => False) (fun _ => False) where
  kept id r hr := by
    refine ⟨_, by rw [revokeWhere, Table.get?_mapRows, hr, Option.map_some], ?_⟩
    split <;> rfl
  origin id r' hr' := by
    rw [revokeWhere, Table.get?_mapRows] at hr'
    obtain ⟨r, hr, rfl⟩ := Option.map_eq_some_iff.mp hr'
    refine .inl ⟨r, hr, ?_, .inl ?_⟩ <;> split <;> rfl
  fresh _ hadded := hadded.elim

theorem not_stored_of_unused {id : Uuid} (h : Unused tokens id tokenHash) :
    ¬ Stored tokens tokenHash := by
  rintro ⟨j, r, hr, hhash⟩
  have hnone := Table.find?_eq_none h.2 hr
  exact (of_decide_eq_false hnone) hhash

theorem evolves_create {id : Uuid} {data : RefreshToken}
    (h : create tokens id data = some tokens') (hdata : data.replacedBy = none) :
    Evolves tokens tokens' (fun _ => False) (· = data.tokenHash) := by
  obtain ⟨hunused, hget⟩ := create_eq_some h
  refine ⟨fun j r hr => ⟨r, ?_, rfl⟩, fun j r' hr' => ?_, ?_⟩
  · rw [hget j, if_neg (ne_of_mem_of_unused hr hunused.1), hr]
  · rw [hget j] at hr'
    split at hr'
    · obtain rfl := Option.some.inj hr'
      exact .inr ⟨rfl, hdata⟩
    · exact .inl ⟨r', hr', rfl, .inl rfl⟩
  · rintro _ rfl
    exact not_stored_of_unused hunused

/-- A rotation spends the token of the row that it names. -/
theorem evolves_rotate {prev newId : Uuid} {data old : RefreshToken} {now : Timestamp}
    (h : rotate tokens prev newId data now = some tokens') (hold : tokens.get? prev = some old)
    (hdata : data.replacedBy = none) :
    Evolves tokens tokens' (· = old.tokenHash) (· = data.tokenHash) := by
  obtain ⟨hunused, hne, hget⟩ := rotate_eq_some h (by rw [hold, Option.isSome_some])
  refine ⟨fun j r hr => ?_, fun j r' hr' => ?_, ?_⟩
  · rw [hget j, if_neg (ne_of_mem_of_unused hr hunused.1)]
    split
    · refine ⟨{ r with revokedAt := some now, replacedBy := some newId }, ?_, rfl⟩
      rw [hr, Option.map_some]
    · exact ⟨r, hr, rfl⟩
  · rw [hget j] at hr'
    split at hr'
    · obtain rfl := Option.some.inj hr'
      exact .inr ⟨rfl, hdata⟩
    · split at hr'
      · next hprev =>
          obtain ⟨r, hr, rfl⟩ := Option.map_eq_some_iff.mp hr'
          subst hprev
          obtain rfl := Option.some.inj (hr.symm.trans hold)
          exact .inl ⟨r, hr, rfl, .inr rfl⟩
      · exact .inl ⟨r', hr', rfl, .inl rfl⟩
  · rintro _ rfl
    exact not_stored_of_unused hunused

theorem stored_create {id : Uuid} {data : RefreshToken}
    (h : create tokens id data = some tokens') : Stored tokens' data.tokenHash :=
  ⟨id, data, by rw [(create_eq_some h).2 id, if_pos rfl], rfl⟩

theorem stored_rotate {prev newId : Uuid} {data : RefreshToken} {now : Timestamp}
    (h : rotate tokens prev newId data now = some tokens') (hprev : (tokens.get? prev).isSome) :
    Stored tokens' data.tokenHash :=
  ⟨newId, data, by rw [(rotate_eq_some h hprev).2.2 newId, if_pos rfl], rfl⟩

theorem read_token {now : Timestamp} {id : Uuid} {existing : RefreshToken}
    (h : refreshTokensRead tokens tokenHash now = .ok (.rotate id existing)) :
    tokens.get? id = some existing ∧ existing.tokenHash = tokenHash := by
  refine ⟨(refreshTokensRead_rotate h).1, ?_⟩
  rw [refreshTokensRead] at h
  split at h
  · cases h
  · next id' existing' hfind =>
      have hhash := of_decide_eq_true (Table.find?_eq_some hfind).2
      split at h
      · cases h
      · split at h
        · cases h
        · obtain ⟨rfl, rfl⟩ := Pending.rotate.inj (Except.ok.inj h)
          exact hhash

/-- A call that is past its read was, or has just read the token that it was given. -/
theorem pending_step {server server' : AuthState} {action : Action}
    (h : step server action = some server') {p : Pending} (hp : p ∈ server'.inFlight) :
    p ∈ server.inFlight ∨ ∃ tokenHash now, action = .find tokenHash now ∧
      refreshTokensRead server.tokens tokenHash now = .ok p := by
  cases effect_of_step h with
  | refused | loggedOut | loggedOutAll | issued | issueRefused => exact .inl hp
  | read hread =>
      rcases List.mem_append.mp hp with hold | hnew
      · exact .inl hold
      · obtain rfl := List.mem_singleton.mp hnew
        exact .inr ⟨_, _, rfl, hread⟩
  | rotated | rolledBack | reused => exact .inl (List.mem_of_mem_eraseIdx hp)

/-- The calls of others spend only the tokens of the rotations that they have in flight. -/
theorem evolves_step {server server' : AuthState} {action : Action}
    (h : step server action = some server')
    (hrows : ∀ id existing, Pending.rotate id existing ∈ server.inFlight →
      ∃ r, server.tokens.get? id = some r) :
    ∃ added, Evolves server.tokens server'.tokens
      (fun tokenHash => ∃ id existing r, Pending.rotate id existing ∈ server.inFlight ∧
        server.tokens.get? id = some r ∧ r.tokenHash = tokenHash) added := by
  have hnothing : Evolves server.tokens server.tokens (fun _ => False) (fun _ => False) :=
    evolves_refl _
  cases effect_of_step h with
  | refused | read | rolledBack | issueRefused => exact ⟨_, hnothing.weaken fun _ => False.elim⟩
  | @reused call now familyId hcall =>
      exact ⟨_, (evolves_revokeWhere server.tokens (fun r => decide (r.familyId = familyId))
        now).weaken fun _ => False.elim⟩
  | @loggedOut tokenHash now =>
      exact ⟨_, (evolves_revokeWhere server.tokens (fun r => decide (r.tokenHash = tokenHash))
        now).weaken fun _ => False.elim⟩
  | @loggedOutAll userId now =>
      exact ⟨_, (evolves_revokeWhere server.tokens (fun r => decide (r.userId = userId))
        now).weaken fun _ => False.elim⟩
  | issued hf hcreate => exact ⟨_, (evolves_create hcreate rfl).weaken fun _ => False.elim⟩
  | rotated hcall hrotate =>
      have hmem := List.mem_of_getElem? hcall
      obtain ⟨r, hr⟩ := hrows _ _ hmem
      refine ⟨_, (evolves_rotate hrotate hr rfl).weaken ?_⟩
      rintro _ rfl
      exact ⟨_, _, r, hmem, hr, rfl⟩

end Evolves

end SyncBoard.Auth
