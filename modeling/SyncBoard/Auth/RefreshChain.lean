import Mathlib.Data.List.Chain
import SyncBoard.Auth.Revocation

/-!
# The chain of a token family under sequential calls

Run one call after the other, `refreshTokens` writes in the state it has read.
The tokens of a family then form a chain in creation order: each one was
revoked in favour of the next, and only the last can be non-revoked. A refresh
succeeds on the last token of a family and on no other.

A call that completes before the next one starts is a run of its awaits, so
the facts about interleaved awaits hold for sequential calls.
-/

namespace SyncBoard.Auth

open Relational Labelled

/-- Why a `refreshTokens` call throws: one of its own refusals, or a write that
the database refuses. -/
inductive RefreshFailure
  | refused (e : RefreshError)
  | db (e : DbError)
  deriving DecidableEq, Repr

/-- The clock readings and the random values of one `refreshTokens` call. -/
structure Draws where
  readAt : Timestamp
  issuedAt : Timestamp
  writtenAt : Timestamp
  newId : Uuid
  newTokenHash : TokenHash
  deriving DecidableEq, Repr

/-- `refreshTokens` from its read to its write. The answer is the token handed
out, by its hash. -/
def refreshTokens (tokens : TokenTable) (tokenHash : TokenHash) (d : Draws) :
    Except RefreshFailure TokenHash × TokenTable :=
  match refreshTokensRead tokens tokenHash d.readAt with
  | .error e => (.error (.refused e), tokens)
  | .ok (.revokeFamily familyId) =>
      (.error (.refused .tokenReuseDetected), revokeFamily tokens familyId d.writtenAt)
  | .ok (.rotate id existing) =>
      match rotate tokens id d.newId (successorOf existing d.newTokenHash d.issuedAt)
          d.writtenAt with
      | none => (.error (.db .uniqueViolation), tokens)
      | some rotated => (.ok d.newTokenHash, rotated)

/-- A call of `AuthService`. The token of `logout` is optional; an empty one is
no token. -/
inductive Call
  | issueTokenPair (userId newId : Uuid) (tokenHash : TokenHash) (familyId : Uuid)
      (now : Timestamp)
  | refreshTokens (tokenHash : TokenHash) (draws : Draws)
  | logout (refreshToken : Option TokenHash) (now : Timestamp)
  | logoutAllDevices (userId : Uuid) (now : Timestamp)
  deriving DecidableEq, Repr

def callStep (s : AuthState) : Call → Option AuthState
  | .issueTokenPair userId newId tokenHash familyId now =>
      step s (.issue userId newId tokenHash familyId now)
  | .refreshTokens tokenHash draws =>
      some { s with tokens := (refreshTokens s.tokens tokenHash draws).2 }
  | .logout none _ => some s
  | .logout (some tokenHash) now => step s (.logout tokenHash now)
  | .logoutAllDevices userId now => step s (.revokeAll userId now)

/-- A call with no other in flight is a run of its awaits, and it rotates only in
a family that still has a non-revoked token. -/
theorem reaches_of_callStep {s s' : AuthState} {c : Call} (hidle : s.inFlight = [])
    (h : callStep s c = some s') :
    s'.inFlight = [] ∧ Reaches step RotatesLiveFamily s s' := by
  have single : ∀ a, step s a = some s' → RotatesLiveFamily s a →
      Reaches step RotatesLiveFamily s s' := fun a ha hg => (Reaches.refl s).snoc ha hg
  cases c with
  | issueTokenPair userId newId tokenHash familyId now =>
      simp only [callStep] at h
      refine ⟨?_, single _ h trivial⟩
      cases effect_of_step h <;> exact hidle
  | logout refreshToken now =>
      cases refreshToken with
      | none =>
          obtain rfl := Option.some.inj h
          exact ⟨hidle, .refl s⟩
      | some tokenHash =>
          simp only [callStep] at h
          refine ⟨?_, single _ h trivial⟩
          cases effect_of_step h
          exact hidle
  | logoutAllDevices userId now =>
      simp only [callStep] at h
      refine ⟨?_, single _ h trivial⟩
      cases effect_of_step h
      exact hidle
  | refreshTokens tokenHash d =>
      obtain rfl := Option.some.inj h
      refine ⟨hidle, ?_⟩
      unfold refreshTokens
      cases hread : refreshTokensRead s.tokens tokenHash d.readAt with
      | error e => exact .refl s
      | ok call =>
          have hfind : step s (.find tokenHash d.readAt) =
              some { s with inFlight := [call] } := by
            simp only [step, hread, hidle, List.nil_append]
          have hread' := (Reaches.refl s).snoc hfind (G := RotatesLiveFamily) trivial
          cases call with
          | revokeFamily familyId =>
              refine hread'.snoc (a := .reuse 0 d.writtenAt) ?_ trivial
              simp [step, hidle]
          | rotate id existing =>
              obtain ⟨hrow, hlive⟩ := refreshTokensRead_rotate hread
              refine hread'.snoc
                (a := .rotate 0 d.newId d.newTokenHash d.issuedAt d.writtenAt) ?_ ?_
              · cases hrot : rotate s.tokens id d.newId
                  (successorOf existing d.newTokenHash d.issuedAt) d.writtenAt <;>
                  simp [step, hidle, hrot]
              · rintro id' existing' hcall -
                obtain ⟨rfl, rfl⟩ : id = id' ∧ existing = existing' := by simpa using hcall
                exact ⟨id, existing, hrow, rfl, hlive⟩

/-- Tokens in creation order, each but the last revoked in favour of the next. -/
structure IsTokenChain (chain : List (Uuid × RefreshToken)) : Prop where
  linked : chain.IsChain fun q r => q.2.replacedBy = some r.1 ∧ q.2.revokedAt ≠ none
  last : ∀ q ∈ chain.getLast?, q.2.replacedBy = none

theorem isTokenChain_nil : IsTokenChain [] where
  linked := List.isChain_nil
  last := by simp

namespace IsTokenChain
variable {chain : List (Uuid × RefreshToken)}

/-- A token of a chain that is not revoked is its last one. -/
theorem getLast?_of_nonRevoked (h : IsTokenChain chain) {q : Uuid × RefreshToken}
    (hq : q ∈ chain) (hn : q.2.revokedAt = none) : chain.getLast? = some q := by
  obtain ⟨before, after, rfl⟩ := List.append_of_mem hq
  cases after with
  | nil => simp
  | cons r after =>
      have hlink := (List.isChain_append_cons_cons.mp h.linked).2.1
      exact absurd hn hlink.2

/-- A rewrite that keeps the keys and the links keeps the chain. -/
theorem map (h : IsTokenChain chain) {g : Uuid × RefreshToken → RefreshToken}
    (hg : ∀ q ∈ chain, (g q).replacedBy = q.2.replacedBy ∧
      (q.2.revokedAt ≠ none → (g q).revokedAt ≠ none)) :
    IsTokenChain (chain.map fun q => (q.1, g q)) where
  linked := by
    rw [List.isChain_map]
    apply h.linked.imp_of_mem_imp
    intro q r hq _ hlink
    exact ⟨(hg q hq).1.trans hlink.1, (hg q hq).2 hlink.2⟩
  last := by
    intro q hq
    rw [List.getLast?_map] at hq
    obtain ⟨r, hr, rfl⟩ := Option.map_eq_some_iff.mp hq
    exact (hg r (List.mem_of_getLast? hr)).1.trans (h.last r hr)

/-- The last token of a chain, revoked in favour of a new one, is followed by it. -/
theorem rotate {before : List (Uuid × RefreshToken)} {id newId : Uuid}
    {r existing data : RefreshToken} (h : IsTokenChain (before ++ [(id, existing)]))
    (hlink : r.replacedBy = some newId ∧ r.revokedAt ≠ none) (hdata : data.replacedBy = none) :
    IsTokenChain (before ++ [(id, r), (newId, data)]) where
  linked := by
    have hbefore := List.isChain_append.mp h.linked
    apply List.isChain_append.mpr
    refine ⟨hbefore.1, List.isChain_pair.mpr hlink, ?_⟩
    intro q hq p hp
    obtain rfl : (id, r) = p := by simpa using hp
    exact hbefore.2.2 q hq (id, existing) (by simp)
  last := by simpa using hdata

end IsTokenChain

/-- The tokens of a family in creation order. -/
def familyTokens (tokens : TokenTable) (familyId : Uuid) : List (Uuid × RefreshToken) :=
  (tokens.rows.filter fun q => decide (q.2.familyId = familyId)).reverse

section FamilyTokens
variable {tokens : TokenTable} {f id : Uuid} {r : RefreshToken}

theorem mem_familyTokens :
    (id, r) ∈ familyTokens tokens f ↔ tokens.get? id = some r ∧ r.familyId = f := by
  rw [familyTokens, List.mem_reverse, List.mem_filter, Table.mem_rows_iff, decide_eq_true_iff]

theorem nodup_familyTokens : ((familyTokens tokens f).map Prod.fst).Nodup := by
  rw [familyTokens, List.map_reverse, List.nodup_reverse]
  exact tokens.nodup.sublist (List.filter_sublist.map Prod.fst)

theorem familyTokens_insert (hid : tokens.get? id = none) :
    familyTokens (tokens.insert id r hid) f =
      familyTokens tokens f ++ if r.familyId = f then [(id, r)] else [] := by
  by_cases hf : r.familyId = f <;> simp [familyTokens, Table.insert, hf]

theorem familyTokens_mapRows {g : Uuid → RefreshToken → RefreshToken}
    (hg : ∀ id r, (g id r).familyId = r.familyId) :
    familyTokens (tokens.mapRows g) f =
      (familyTokens tokens f).map fun q => (q.1, g q.1 q.2) := by
  simp only [familyTokens, Table.mapRows, List.filter_map, List.map_reverse]
  congr 2
  apply List.filter_congr
  intro q _
  simp only [Function.comp_apply, hg]

theorem familyTokens_modify {g : RefreshToken → RefreshToken}
    (hg : ∀ r, (g r).familyId = r.familyId) :
    familyTokens (tokens.modify id g) f =
      (familyTokens tokens f).map fun q => (q.1, if q.1 = id then g q.2 else q.2) := by
  apply familyTokens_mapRows
  intro j r
  split
  · exact hg r
  · rfl

end FamilyTokens

theorem create_eq_insert {tokens tokens' : TokenTable} {id : Uuid} {data : RefreshToken}
    (h : create tokens id data = some tokens') : ∃ hid, tokens' = tokens.insert id data hid := by
  unfold create at h
  split at h
  · exact Table.insert?_eq_some h
  · cases h

/-- A rewrite of the row under one key rewrites no list without that key. -/
theorem map_of_fst_notMem {l : List (Uuid × RefreshToken)} {k : Uuid}
    (h : k ∉ l.map Prod.fst) (g : RefreshToken → RefreshToken) :
    (l.map fun q => (q.1, if q.1 = k then g q.2 else q.2)) = l := by
  have hkeep : ∀ q ∈ l, (q.1, if q.1 = k then g q.2 else q.2) = id q := by
    intro q hq
    have hne : q.1 ≠ k := fun heq => h (heq ▸ List.mem_map_of_mem hq)
    simp [hne]
  rw [List.map_congr_left hkeep, List.map_id]

/-- The predecessor as a rotation leaves it. -/
def RefreshToken.rotatedTo (newId : Uuid) (now : Timestamp) (r : RefreshToken) : RefreshToken :=
  { r with revokedAt := some now, replacedBy := some newId }

theorem rotate_eq_modify {tokens tokens' : TokenTable} {prev newId : Uuid}
    {data : RefreshToken} {now : Timestamp}
    (h : rotate tokens prev newId data now = some tokens') :
    ∃ hid, tokens' = (tokens.insert newId data hid).modify prev (.rotatedTo newId now) := by
  obtain ⟨withSuccessor, hc, hu⟩ := Option.bind_eq_some_iff.mp h
  obtain ⟨hid, rfl⟩ := create_eq_insert hc
  split at hu
  · exact ⟨hid, (Option.some.inj hu).symm⟩
  · cases hu

/-- A rotation of the last token of a family makes the successor the last one. -/
theorem familyTokens_rotate {tokens tokens' : TokenTable} {prev newId : Uuid}
    {existing data : RefreshToken} {now : Timestamp}
    (h : rotate tokens prev newId data now = some tokens')
    (hprev : tokens.get? prev = some existing) (hfam : data.familyId = existing.familyId) :
    (∀ f, f ≠ existing.familyId → familyTokens tokens' f = familyTokens tokens f) ∧
      ∀ before, familyTokens tokens existing.familyId = before ++ [(prev, existing)] →
        familyTokens tokens' existing.familyId = before ++
          [(prev, existing.rotatedTo newId now), (newId, data)] := by
  obtain ⟨-, hne, -⟩ := rotate_eq_some h (by simp [hprev])
  obtain ⟨hid, rfl⟩ := rotate_eq_modify h
  have hkeep : ∀ r : RefreshToken, (r.rotatedTo newId now).familyId = r.familyId := fun _ => rfl
  constructor
  · intro f hf
    have hdata : data.familyId ≠ f := fun heq => hf (heq.symm.trans hfam)
    have hnot : prev ∉ (familyTokens tokens f).map Prod.fst := by
      intro hmem
      obtain ⟨q, hq, rfl⟩ := List.mem_map.mp hmem
      obtain ⟨hget, rfl⟩ := mem_familyTokens.mp hq
      obtain rfl := Option.some.inj (hprev.symm.trans hget)
      exact hf rfl
    rw [familyTokens_modify hkeep, familyTokens_insert, if_neg hdata, List.append_nil]
    exact map_of_fst_notMem hnot _
  · intro before hbefore
    have hnodup := @nodup_familyTokens tokens existing.familyId
    rw [hbefore, List.map_append, List.nodup_append] at hnodup
    have hnot : prev ∉ before.map Prod.fst := fun hp => hnodup.2.2 prev hp prev (by simp) rfl
    rw [familyTokens_modify hkeep, familyTokens_insert, if_pos hfam, hbefore, List.append_assoc,
      List.map_append, map_of_fst_notMem hnot]
    simp [hne]

/-- What sequential calls keep, beside the facts about interleaved awaits. -/
structure Chained (s : AuthState) : Prop where
  reached : Reached s
  idle : s.inFlight = []
  chains : ∀ f, IsTokenChain (familyTokens s.tokens f)
  hashes : s.tokens.Unique RefreshToken.tokenHash

theorem chained_empty : Chained (.ofTable Table.empty) where
  reached := reached_empty
  idle := rfl
  chains := fun _ => isTokenChain_nil
  hashes := .empty _

/-- A bulk revocation. -/
theorem isTokenChain_revokeWhere {tokens : TokenTable} {f : Uuid}
    (h : IsTokenChain (familyTokens tokens f)) (p : RefreshToken → Bool) (now : Timestamp) :
    IsTokenChain (familyTokens (revokeWhere tokens p now) f) := by
  rw [revokeWhere, familyTokens_mapRows]
  · apply h.map
    intro q _
    split
    · exact ⟨rfl, by simp⟩
    · exact ⟨rfl, id⟩
  · intro id r
    split <;> rfl

theorem unique_revokeWhere {tokens : TokenTable} (h : tokens.Unique RefreshToken.tokenHash)
    (p : RefreshToken → Bool) (now : Timestamp) :
    (revokeWhere tokens p now).Unique RefreshToken.tokenHash := by
  apply h.mapRows
  intro id r
  split <;> rfl

theorem unique_create {tokens tokens' : TokenTable} {id : Uuid} {data : RefreshToken}
    (hu : tokens.Unique RefreshToken.tokenHash) (h : create tokens id data = some tokens') :
    tokens'.Unique RefreshToken.tokenHash := by
  have hunused := (create_eq_some h).1
  obtain ⟨hid, rfl⟩ := create_eq_insert h
  apply hu.insert hid
  intro k q hq
  simpa using Table.find?_eq_none hunused.2 hq

theorem unique_rotate {tokens tokens' : TokenTable} {prev newId : Uuid} {data : RefreshToken}
    {now : Timestamp} (hu : tokens.Unique RefreshToken.tokenHash)
    (h : rotate tokens prev newId data now = some tokens') :
    tokens'.Unique RefreshToken.tokenHash := by
  obtain ⟨withSuccessor, hc, hmod⟩ := Option.bind_eq_some_iff.mp h
  split at hmod
  · obtain rfl := Option.some.inj hmod
    apply (unique_create hu hc).modify
    intro r
    rfl
  · cases hmod

theorem isTokenChain_create {tokens tokens' : TokenTable} {id : Uuid} {data : RefreshToken}
    {f : Uuid} (h : create tokens id data = some tokens') (hdata : data.replacedBy = none)
    (hfresh : ∀ j r, tokens.get? j = some r → r.familyId ≠ data.familyId)
    (hchain : IsTokenChain (familyTokens tokens f)) : IsTokenChain (familyTokens tokens' f) := by
  obtain ⟨hid, rfl⟩ := create_eq_insert h
  rw [familyTokens_insert]
  by_cases hf : data.familyId = f
  · -- the first token of its family
    have hnone : familyTokens tokens f = [] := by
      rw [List.eq_nil_iff_forall_not_mem]
      rintro ⟨j, r⟩ hr
      obtain ⟨hget, hfam⟩ := mem_familyTokens.mp hr
      exact hfresh j r hget (hfam.trans hf.symm)
    rw [hnone, List.nil_append, if_pos hf]
    exact ⟨List.isChain_singleton _, by simpa using hdata⟩
  · rw [if_neg hf, List.append_nil]
    exact hchain

/-- A read by hash that finds a non-revoked row finds the last token of its family. -/
theorem Chained.getLast?_of_nonRevoked {s : AuthState} (hc : Chained s) {id : Uuid}
    {r : RefreshToken} (hr : s.tokens.get? id = some r) (hn : r.revokedAt = none) :
    (familyTokens s.tokens r.familyId).getLast? = some (id, r) :=
  (hc.chains r.familyId).getLast?_of_nonRevoked (mem_familyTokens.mpr ⟨hr, rfl⟩) hn

theorem Chained.rotate {s : AuthState} (hc : Chained s) {tokens' : TokenTable}
    {id newId : Uuid} {existing : RefreshToken} {newTokenHash : TokenHash}
    {issuedAt now : Timestamp} (hr : s.tokens.get? id = some existing)
    (hn : existing.revokedAt = none)
    (h : Auth.rotate s.tokens id newId (successorOf existing newTokenHash issuedAt) now =
      some tokens') (f : Uuid) : IsTokenChain (familyTokens tokens' f) := by
  obtain ⟨hother, hsame⟩ := familyTokens_rotate h hr rfl
  by_cases hf : f = existing.familyId
  · subst hf
    obtain ⟨before, hbefore⟩ := List.getLast?_eq_some_iff.mp (hc.getLast?_of_nonRevoked hr hn)
    have hchain := hc.chains existing.familyId
    rw [hbefore] at hchain
    rw [hsame before hbefore]
    apply hchain.rotate
    · exact ⟨rfl, by simp [RefreshToken.rotatedTo]⟩
    · rfl
  · rw [hother f hf]
    exact hc.chains f

/-- What one `refreshTokens` call does to the table. -/
theorem refreshTokens_cases (tokens : TokenTable) (tokenHash : TokenHash) (d : Draws) :
    (refreshTokens tokens tokenHash d).2 = tokens ∨
    (∃ f, (refreshTokens tokens tokenHash d).2 = revokeFamily tokens f d.writtenAt) ∨
    ∃ id existing tokens', tokens.get? id = some existing ∧ existing.revokedAt = none ∧
      rotate tokens id d.newId (successorOf existing d.newTokenHash d.issuedAt) d.writtenAt =
        some tokens' ∧ (refreshTokens tokens tokenHash d).2 = tokens' := by
  unfold refreshTokens
  cases hread : refreshTokensRead tokens tokenHash d.readAt with
  | error e => exact .inl rfl
  | ok call =>
      cases call with
      | revokeFamily f => exact .inr (.inl ⟨f, rfl⟩)
      | rotate id existing =>
          obtain ⟨hr, hn⟩ := refreshTokensRead_rotate hread
          cases hrot : rotate tokens id d.newId
              (successorOf existing d.newTokenHash d.issuedAt) d.writtenAt with
          | none => exact .inl (by simp only [hrot])
          | some tokens' =>
              exact .inr (.inr ⟨id, existing, tokens', hr, hn, hrot, by simp only [hrot]⟩)

theorem Chained.step {s s' : AuthState} {c : Call} (hc : Chained s)
    (h : callStep s c = some s') : Chained s' := by
  obtain ⟨hidle, as, run, -⟩ := reaches_of_callStep hc.idle h
  have hreached := reached_of_run hc.reached run
  have revoked : ∀ p now, (∀ f, IsTokenChain (familyTokens (revokeWhere s.tokens p now) f)) ∧
      (revokeWhere s.tokens p now).Unique RefreshToken.tokenHash := fun p now =>
    ⟨fun f => isTokenChain_revokeWhere (hc.chains f) p now, unique_revokeWhere hc.hashes p now⟩
  cases c with
  | issueTokenPair userId newId tokenHash familyId now =>
      simp only [callStep] at h
      cases effect_of_step h with
      | issueRefused => exact ⟨hreached, hidle, hc.chains, hc.hashes⟩
      | issued hf hcreate =>
          refine ⟨hreached, hidle, fun f => ?_, unique_create hc.hashes hcreate⟩
          apply isTokenChain_create hcreate rfl _ (hc.chains f)
          intro id r hr hfam
          exact hf (hc.reached.consistent.known _ _ ⟨id, r, hr, hfam, rfl⟩)
  | logout refreshToken now =>
      cases refreshToken with
      | none =>
          obtain rfl := Option.some.inj h
          exact hc
      | some tokenHash =>
          obtain rfl := Option.some.inj h
          exact ⟨hreached, hidle, (revoked _ _).1, (revoked _ _).2⟩
  | logoutAllDevices userId now =>
      obtain rfl := Option.some.inj h
      exact ⟨hreached, hidle, (revoked _ _).1, (revoked _ _).2⟩
  | refreshTokens tokenHash d =>
      obtain rfl := Option.some.inj h
      obtain hsame | ⟨f, hrev⟩ | ⟨id, existing, tokens', hr, hn, hrot, hres⟩ :=
        refreshTokens_cases s.tokens tokenHash d
      · exact ⟨hreached, hidle, by simpa only [hsame] using hc.chains,
          by simpa only [hsame] using hc.hashes⟩
      · refine ⟨hreached, hidle, ?_, ?_⟩
        · simpa only [hrev, revokeFamily] using (revoked _ _).1
        · simpa only [hrev, revokeFamily] using (revoked _ _).2
      · refine ⟨hreached, hidle, ?_, ?_⟩
        · simpa only [hres] using hc.rotate hr hn hrot
        · simpa only [hres] using unique_rotate hc.hashes hrot

theorem refreshTokens_eq_ok_iff {tokens : TokenTable} {tokenHash t : TokenHash} {d : Draws} :
    (refreshTokens tokens tokenHash d).1 = .ok t ↔
      ∃ id r, findByTokenHashWithUser tokens tokenHash = some (id, r) ∧
        ¬ r.expiresAt < d.readAt ∧ r.revokedAt = none ∧
        (∃ tokens', rotate tokens id d.newId (successorOf r d.newTokenHash d.issuedAt)
          d.writtenAt = some tokens') ∧ t = d.newTokenHash := by
  unfold refreshTokens refreshTokensRead
  cases hfind : findByTokenHashWithUser tokens tokenHash with
  | none => simp
  | some found =>
      obtain ⟨id, r⟩ := found
      by_cases hexp : r.expiresAt < d.readAt
      · simp [hexp]
      · cases hrev : r.revokedAt with
        | some revokedAt => simp [hexp, hrev]
        | none =>
            cases hrot : rotate tokens id d.newId (successorOf r d.newTokenHash d.issuedAt)
                d.writtenAt with
            | none => simp [hexp, hrev, hrot]
            | some tokens' =>
                have hle : d.readAt ≤ r.expiresAt := not_lt.mp hexp
                simp [hexp, hrev, hrot, hle, eq_comm]

/-- A call is refused for reuse exactly when the token it presents is known, not
expired and revoked; it then revokes the family. -/
theorem refreshTokens_reuse {tokens : TokenTable} {tokenHash : TokenHash} {d : Draws}
    (h : (refreshTokens tokens tokenHash d).1 = .error (.refused .tokenReuseDetected)) :
    ∃ id r, tokens.get? id = some r ∧ r.tokenHash = tokenHash ∧
      (refreshTokens tokens tokenHash d).2 = revokeFamily tokens r.familyId d.writtenAt := by
  revert h
  unfold refreshTokens refreshTokensRead
  cases hfind : findByTokenHashWithUser tokens tokenHash with
  | none => simp
  | some found =>
      obtain ⟨id, r⟩ := found
      obtain ⟨hr, hhash⟩ := Table.find?_eq_some hfind
      by_cases hexp : r.expiresAt < d.readAt
      · simp [hexp]
      · cases hrev : r.revokedAt with
        | some revokedAt =>
            intro _
            exact ⟨id, r, hr, by simpa using hhash, by simp [hexp, hrev]⟩
        | none =>
            cases hrot : rotate tokens id d.newId (successorOf r d.newTokenHash d.issuedAt)
              d.writtenAt <;> simp [hexp, hrev, hrot]

/-- In a table of chains, a refresh succeeds exactly on the last token of a family,
while it is neither revoked nor expired; the random values of the successor have to
be new. -/
theorem Chained.succeeds_iff {s : AuthState} (hc : Chained s) (tokenHash : TokenHash)
    (d : Draws) :
    (∃ t, (refreshTokens s.tokens tokenHash d).1 = .ok t) ↔
      ∃ f q, (familyTokens s.tokens f).getLast? = some q ∧ q.2.tokenHash = tokenHash ∧
        q.2.revokedAt = none ∧ ¬ q.2.expiresAt < d.readAt ∧
        Unused s.tokens d.newId d.newTokenHash := by
  simp only [refreshTokens_eq_ok_iff]
  constructor
  · rintro ⟨t, id, r, hfind, hexp, hn, ⟨tokens', hrot⟩, -⟩
    obtain ⟨hr, hhash⟩ := hc.hashes.find?_eq_some_iff.mp hfind
    have hunused := (rotate_eq_some hrot (by simp [hr])).1
    exact ⟨r.familyId, (id, r), hc.getLast?_of_nonRevoked hr hn, hhash, hn, hexp, hunused⟩
  · rintro ⟨f, ⟨id, r⟩, hlast, hhash, hn, hexp, hunused⟩
    obtain ⟨hr, -⟩ := mem_familyTokens.mp (List.mem_of_getLast? hlast)
    have hrot := rotate_of_unused (successorOf r d.newTokenHash d.issuedAt) d.writtenAt
      hunused (by simp [hr] : (s.tokens.get? id).isSome)
    exact ⟨_, id, r, hc.hashes.find?_eq_some_iff.mpr ⟨hr, hhash⟩, hexp, hn, hrot, rfl⟩

theorem dead_of_reuse {s s' : AuthState} {tokenHash : TokenHash} {d : Draws}
    (h : callStep s (.refreshTokens tokenHash d) = some s')
    (hreuse : (refreshTokens s.tokens tokenHash d).1 =
      .error (.refused .tokenReuseDetected)) :
    ∃ id r, s.tokens.get? id = some r ∧ r.tokenHash = tokenHash ∧ Dead r.familyId s' := by
  obtain ⟨id, r, hr, hhash, htokens⟩ := refreshTokens_reuse hreuse
  obtain rfl := Option.some.inj h
  refine ⟨id, r, hr, hhash, ?_, ?_⟩
  · refine ⟨r.userId, id, _, by rw [htokens, revokeFamily, revokeWhere, Table.get?_mapRows, hr,
      Option.map_some], ?_, ?_⟩ <;> split <;> rfl
  · intro j hj
    rw [htokens] at hj
    obtain ⟨q, -, hf, -, hp⟩ := (nonRevoked_revokeWhere _ _ _ _ _).mp hj
    simp [hf] at hp

/-- No call brings a dead family back. -/
theorem Chained.dead_step {s s' : AuthState} {c : Call} {f : Uuid} (hc : Chained s)
    (hd : Dead f s) (h : callStep s c = some s') : Dead f s' := by
  obtain ⟨-, as, run, hguard⟩ := reaches_of_callStep hc.idle h
  have hstep : ∀ t a u, Reached t ∧ Dead f t → RotatesLiveFamily t a → Auth.step t a = some u →
      Reached u ∧ Dead f u := by
    rintro t a u ⟨ht, hdead⟩ hg hu
    exact ⟨ht.step hu, Auth.dead_step ht hdead hg hu⟩
  exact (run.guarded hstep ⟨hc.reached, hd⟩ hguard).2

theorem Chained.not_succeeds_of_dead {s : AuthState} (hc : Chained s) {f id : Uuid}
    (hd : Dead f s) {r : RefreshToken} (hr : s.tokens.get? id = some r) (hf : r.familyId = f)
    (d : Draws) (t : TokenHash) : (refreshTokens s.tokens r.tokenHash d).1 ≠ .ok t := by
  intro hok
  obtain ⟨j, q, hfind, -, hn, -, -⟩ := refreshTokens_eq_ok_iff.mp hok
  obtain ⟨hq, hhash⟩ := hc.hashes.find?_eq_some_iff.mp hfind
  obtain rfl := hc.hashes j id q r hq hr hhash
  obtain rfl := Option.some.inj (hq.symm.trans hr)
  exact hd.2 j ⟨q, hq, hf, hn⟩

/-- In every sequential run the tokens of each family form a chain, a refresh
succeeds exactly on the last token of a family while it is neither revoked nor
expired, and a family in which reuse was detected never refreshes again. -/
theorem refresh_chain {calls : List Call} {s : AuthState}
    (run : Run callStep (.ofTable Table.empty) calls s) :
    (∀ f, IsTokenChain (familyTokens s.tokens f)) ∧
    (∀ tokenHash d, (∃ t, (refreshTokens s.tokens tokenHash d).1 = .ok t) ↔
      ∃ f q, (familyTokens s.tokens f).getLast? = some q ∧ q.2.tokenHash = tokenHash ∧
        q.2.revokedAt = none ∧ ¬ q.2.expiresAt < d.readAt ∧
        Unused s.tokens d.newId d.newTokenHash) ∧
    ∀ tokenHash d s', callStep s (.refreshTokens tokenHash d) = some s' →
      (refreshTokens s.tokens tokenHash d).1 = .error (.refused .tokenReuseDetected) →
      ∃ id r, s.tokens.get? id = some r ∧ r.tokenHash = tokenHash ∧
        ∀ later s'', Run callStep s' later s'' →
          ∀ j q, s''.tokens.get? j = some q → q.familyId = r.familyId →
            ∀ d' t, (refreshTokens s''.tokens q.tokenHash d').1 ≠ .ok t := by
  have hc : Chained s := run.invariant (fun _ _ _ ht h => ht.step h) chained_empty
  refine ⟨hc.chains, hc.succeeds_iff, ?_⟩
  intro tokenHash d s' h hreuse
  obtain ⟨id, r, hr, hhash, hdead⟩ := dead_of_reuse h hreuse
  refine ⟨id, r, hr, hhash, ?_⟩
  intro later s'' run' j q hq hf d' t
  have hstep : ∀ t c u, Chained t ∧ Dead r.familyId t → callStep t c = some u →
      Chained u ∧ Dead r.familyId u := by
    rintro t c u ⟨ht, hdead⟩ hu
    exact ⟨ht.step hu, ht.dead_step hdead hu⟩
  obtain ⟨hlater, hdead'⟩ := run'.invariant hstep ⟨hc.step h, hdead⟩
  exact hlater.not_succeeds_of_dead hdead' hq hf d' t

/-- A login, a refresh, and the old token presented again. -/
def rotatedOnce : List Call :=
  [.issueTokenPair 5 1 10 7 0, .refreshTokens 10 ⟨1, 1, 1, 2, 20⟩]

theorem refresh_chain_rotatedOnce :
    ∃ s, exec callStep (.ofTable Table.empty) rotatedOnce = some s ∧
    (familyTokens s.tokens 7).map Prod.fst = [1, 2] ∧ IsTokenChain (familyTokens s.tokens 7) ∧
    (∃ t, (refreshTokens s.tokens 20 ⟨2, 2, 2, 3, 30⟩).1 = .ok t) ∧
    ∀ s', callStep s (.refreshTokens 10 ⟨2, 2, 2, 3, 30⟩) = some s' →
      ∀ d t, (refreshTokens s'.tokens 20 d).1 ≠ .ok t := by
  obtain ⟨s, hs⟩ : ∃ s, exec callStep (.ofTable Table.empty) rotatedOnce = some s := ⟨_, rfl⟩
  obtain ⟨hchain, hsucceeds, hreuse⟩ := refresh_chain (run_of_exec hs)
  refine ⟨s, hs, ?_, hchain 7, (hsucceeds 20 _).mpr ?_, ?_⟩
  · cases hs
    decide
  · cases hs
    exact ⟨7, _, rfl, rfl, rfl, by decide, by decide⟩
  · intro s' h d t
    obtain ⟨id, r, hr, hhash, hnever⟩ := hreuse 10 _ s' h (by cases hs; rfl)
    have hfamilies : ∀ q ∈ s.tokens.rows, q.2.familyId = 7 := by
      cases hs
      decide
    have hfamily : r.familyId = 7 := hfamilies _ ((Table.mem_rows_iff _ id r).mpr hr)
    obtain ⟨q, hq, hqf, hqh⟩ : ∃ q, s'.tokens.get? 2 = some q ∧ q.familyId = 7 ∧
        q.tokenHash = 20 := by
      cases hs
      cases h
      exact ⟨_, rfl, rfl, rfl⟩
    exact hqh ▸ hnever [] s' (.nil s') 2 q hq (hqf.trans hfamily.symm) d t

end SyncBoard.Auth
