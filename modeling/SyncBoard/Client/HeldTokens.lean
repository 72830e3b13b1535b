import Mathlib.Data.List.Perm.Basic
import SyncBoard.Client.TokenRefresh

/-!
# A tab presents no token that was replaced

The tokens of a tab are those in its cookie, in the requests and replies of its refreshes and
in the replies to its logins. Only the cookie is ever one that was replaced, and only while the
reply to a refresh is on its way: then no other refresh is sent.
-/

namespace SyncBoard.Client

open Auth Relational Labelled

/-- The refresh token that a phase carries. -/
def RefreshPhase.carried : RefreshPhase → Option TokenHash
  | .sent cookie => cookie
  | .handling presented _ => some presented
  | .replied (.ok (_, cookie)) => some cookie
  | .replied (.error _) => none
  | .settled _ _ => none

/-- The tab holds the token. -/
inductive Holds (s : TabSession) (tokenHash : TokenHash) : Prop
  | cookie (h : s.cookie = some tokenHash)
  | login {accessToken} (h : (accessToken, tokenHash) ∈ s.logins)
  | refresh {i : Nat} {r : Refresh} (hr : s.refreshes[i]? = some r)
      (h : r.phase.carried = some tokenHash)

/-- No reply with a new cookie is lost, and nobody else presents a token that the tab holds. -/
def Undisturbed (s : TabSession) : TabStep → Prop
  | .lose i => ∀ sentAt renewed, s.refreshes[i]? ≠ some ⟨sentAt, .replied (.ok renewed)⟩
  | .others (.find tokenHash _) => ¬ Holds s tokenHash
  | _ => True

/-- What the tab holds is stored, and was not replaced; the cookie may have been where a refresh
has been answered. A token of a login is nowhere else, and a rotation in flight is of the token
that was presented. -/
structure Current (s : TabSession) : Prop where
  apart : Apart s
  stored : ∀ tokenHash, Holds s tokenHash → Stored s.server.tokens tokenHash
  logins : ∀ e ∈ s.logins, Unspent s.server.tokens e.2
  nodup : (s.logins.map Prod.snd).Nodup
  notCookie : ∀ e ∈ s.logins, s.cookie ≠ some e.2
  notCarried : ∀ e ∈ s.logins, ∀ (i : Nat) (r : Refresh), s.refreshes[i]? = some r →
    r.phase.carried ≠ some e.2
  carried : ∀ (i : Nat) (r : Refresh) tokenHash, s.refreshes[i]? = some r →
    r.phase.carried = some tokenHash → Unspent s.server.tokens tokenHash
  rotating : ∀ (i : Nat) (sentAt : Timestamp) presented id existing,
    s.refreshes[i]? = some ⟨sentAt, .handling presented (.rotate id existing)⟩ →
      ∃ r, s.server.tokens.get? id = some r ∧ r.tokenHash = presented
  cookie : ∀ tokenHash, s.cookie = some tokenHash → Unspent s.server.tokens tokenHash ∨
    ∃ (i : Nat) (sentAt : Timestamp) (renewed : AccessToken × TokenHash),
      s.refreshes[i]? = some ⟨sentAt, .replied (.ok renewed)⟩
  others : ∀ id existing, Pending.rotate id existing ∈ s.server.inFlight →
    ∃ r, s.server.tokens.get? id = some r ∧ ¬ Holds s r.tokenHash

section Steps
variable {s t : TabSession} {a : TabStep} {i : Nat} {phase phase' : RefreshPhase}

/-- A phase that carries a token is not the last one. -/
theorem pending_of_carried {tokenHash : TokenHash} (h : phase.carried = some tokenHash)
    (freshToken : Option AccessToken) (settledAt : Timestamp) :
    phase ≠ .settled freshToken settledAt := by
  rintro rfl
  cases h

/-- Two refreshes that are not settled are one. -/
theorem Apart.same {j : Nat} {r r' : Refresh} (h : Apart s) (hr : s.refreshes[i]? = some r)
    (hr' : s.refreshes[j]? = some r')
    (hpending : ∀ freshToken settledAt, r.phase ≠ .settled freshToken settledAt)
    (hpending' : ∀ freshToken settledAt, r'.phase ≠ .settled freshToken settledAt) : i = j :=
  Option.some.inj ((h.current hr hpending).symm.trans (h.current hr' hpending'))

theorem Advances.carried (h : Advances s a i phase phase') {tokenHash : TokenHash}
    (hcarried : phase'.carried = some tokenHash) : phase.carried = some tokenHash := by
  cases h with
  | read hread => exact hcarried
  | refused | failed | rejected | answered | lost => cases hcarried

/-- The tab holds no more than before where the phase of a refresh changes to one that carries
no other token. -/
theorem Holds.of_setPhase {sentAt : Timestamp} {tokenHash : TokenHash}
    (h : Holds (s.setPhase i phase') tokenHash)
    (hr : s.refreshes[i]? = some ⟨sentAt, phase⟩)
    (hcarried : phase'.carried = some tokenHash → phase.carried = some tokenHash) :
    Holds s tokenHash := by
  cases h with
  | cookie h => exact .cookie h
  | login h => exact .login h
  | refresh hr' h =>
      rcases getElem?_setPhase hr' with ⟨rfl, r, hold, rfl⟩ | ⟨-, hold⟩
      · exact .refresh hr (hcarried h)
      · exact .refresh hold h

/-- The tokens evolve, and nothing is spent that the tab holds. -/
theorem Current.evolve (h : Current s) {tokens : TokenTable} {spent added : TokenHash → Prop}
    (he : Evolves s.server.tokens tokens spent added)
    (hspent : ∀ tokenHash, Holds s tokenHash → ¬ spent tokenHash) :
    Current (s.setTokens tokens) := by
  have hholds : ∀ tokenHash, Holds (s.setTokens tokens) tokenHash → Holds s tokenHash := by
    rintro tokenHash (h | h | ⟨hr, h⟩)
    · exact .cookie h
    · exact .login h
    · exact .refresh hr h
  refine ⟨h.apart.setTokens tokens, fun tokenHash hheld => ?_, fun e he' => ?_, h.nodup,
    h.notCookie, h.notCarried, fun i r tokenHash hr hcarried => ?_,
    fun i sentAt presented id existing hr => ?_, fun tokenHash hcookie => ?_,
    fun id existing hpending => ?_⟩
  · exact (h.stored _ (hholds _ hheld)).evolve he
  · exact (h.logins e he').evolve he (hspent _ (.login he'))
  · exact (h.carried i r tokenHash hr hcarried).evolve he (hspent _ (.refresh hr hcarried))
  · obtain ⟨r, hrow, hpresented⟩ := h.rotating i sentAt presented id existing hr
    obtain ⟨r', hrow', hhash⟩ := he.kept id r hrow
    exact ⟨r', hrow', hhash.trans hpresented⟩
  · rcases h.cookie tokenHash hcookie with hunspent | hreplied
    · exact .inl (hunspent.evolve he (hspent _ (.cookie hcookie)))
    · exact .inr hreplied
  · obtain ⟨r, hrow, hnot⟩ := h.others id existing hpending
    obtain ⟨r', hrow', hhash⟩ := he.kept id r hrow
    exact ⟨r', hrow', fun hheld => hnot (hhash ▸ hholds _ hheld)⟩

/-- A refresh goes on, with no new token. -/
theorem Current.advance (h : Current s) {sentAt : Timestamp}
    (hr : s.refreshes[i]? = some ⟨sentAt, phase⟩)
    (hpending : ∀ freshToken settledAt, phase ≠ .settled freshToken settledAt)
    (hcarried : ∀ tokenHash, phase'.carried = some tokenHash → phase.carried = some tokenHash)
    (hrotating : ∀ presented id existing, phase' = .handling presented (.rotate id existing) →
      ∃ r, s.server.tokens.get? id = some r ∧ r.tokenHash = presented)
    (hreplied : ∀ renewed, phase ≠ .replied (.ok renewed)) : Current (s.setPhase i phase') := by
  have hholds : ∀ tokenHash, Holds (s.setPhase i phase') tokenHash → Holds s tokenHash :=
    fun tokenHash hheld => hheld.of_setPhase hr (hcarried tokenHash)
  have hphase : ∀ (j : Nat) r tokenHash, (s.setPhase i phase').refreshes[j]? = some r →
      r.phase.carried = some tokenHash → ∃ (k : Nat) (r' : Refresh), s.refreshes[k]? = some r' ∧
        r'.phase.carried = some tokenHash := by
    intro j r tokenHash hj htoken
    rcases getElem?_setPhase hj with ⟨rfl, r', hold, rfl⟩ | ⟨-, hold⟩
    · exact ⟨j, _, hr, hcarried _ htoken⟩
    · exact ⟨j, r, hold, htoken⟩
  refine ⟨h.apart.setPhase hr hpending, fun tokenHash hheld => h.stored _ (hholds _ hheld),
    h.logins, h.nodup, h.notCookie, fun e he j r hj htoken => ?_,
    fun j r tokenHash hj htoken => ?_, fun j sentAt' presented id existing hj => ?_,
    fun tokenHash hcookie => ?_, fun id existing hflight => ?_⟩
  · obtain ⟨k, r', hk, htoken'⟩ := hphase j r e.2 hj htoken
    exact h.notCarried e he k r' hk htoken'
  · obtain ⟨k, r', hk, htoken'⟩ := hphase j r tokenHash hj htoken
    exact h.carried k r' tokenHash hk htoken'
  · rcases getElem?_setPhase hj with ⟨rfl, r', hold, heq⟩ | ⟨-, hold⟩
    · exact hrotating presented id existing (Refresh.mk.inj heq).2.symm
    · exact h.rotating j sentAt' presented id existing hold
  · rcases h.cookie tokenHash hcookie with hunspent | ⟨j, sentAt', renewed, hj⟩
    · exact .inl hunspent
    · have hne : j ≠ i := by
        rintro rfl
        obtain ⟨-, heq⟩ := Refresh.mk.inj (Option.some.inj (hr.symm.trans hj))
        exact hreplied renewed heq
      refine .inr ⟨j, sentAt', renewed, ?_⟩
      rw [getElem?_setPhase_of_ne hne]
      exact hj
  · obtain ⟨r, hrow, hnot⟩ := h.others id existing hflight
    exact ⟨r, hrow, fun hheld => hnot (hholds _ hheld)⟩

theorem Current.requested (h : Current s) (hfree : s.refreshPromise = none) :
    Current { s with
      refreshPromise := some s.refreshes.length
      refreshes := s.refreshes ++ [⟨s.now, .sent s.cookie⟩] } := by
  let new : Refresh := ⟨s.now, .sent s.cookie⟩
  have hcases : ∀ (i : Nat) r, (s.refreshes ++ [new])[i]? = some r →
      s.refreshes[i]? = some r ∨ r = new := by
    intro i r hr
    rcases List.mem_append.mp (List.mem_of_getElem? hr) with hold | hnew
    · by_cases hi : i < s.refreshes.length
      · rw [List.getElem?_append_left hi] at hr
        exact .inl hr
      · right
        rw [List.getElem?_append_right (by omega)] at hr
        exact List.mem_singleton.mp (List.mem_of_getElem? hr)
    · exact .inr (List.mem_singleton.mp hnew)
  have hholds : ∀ tokenHash, Holds { s with
      refreshPromise := some s.refreshes.length
      refreshes := s.refreshes ++ [new] } tokenHash → Holds s tokenHash := by
    rintro tokenHash (h | h | ⟨hr, h⟩)
    · exact .cookie h
    · exact .login h
    · rcases hcases _ _ hr with hold | rfl
      · exact .refresh hold h
      · exact .cookie h
  -- every refresh is settled, so that the cookie is the last one that was given
  have hcookie : ∀ tokenHash, s.cookie = some tokenHash → Unspent s.server.tokens tokenHash := by
    intro tokenHash htoken
    rcases h.cookie tokenHash htoken with hunspent | ⟨i, sentAt, renewed, hi⟩
    · exact hunspent
    · obtain ⟨_, _, hphase, -⟩ := h.apart.free hfree i _ hi
      cases hphase
  refine ⟨h.apart.requested hfree s.cookie, fun tokenHash hheld => h.stored _ (hholds _ hheld),
    h.logins, h.nodup, h.notCookie, fun e he i r hr => ?_, fun i r tokenHash hr htoken => ?_,
    fun i sentAt presented id existing hr => ?_, fun tokenHash htoken => .inl (hcookie _ htoken),
    fun id existing hflight => ?_⟩
  · rcases hcases i r hr with hold | rfl
    · exact h.notCarried e he i r hold
    · exact h.notCookie e he
  · rcases hcases i r hr with hold | rfl
    · exact h.carried i r tokenHash hold htoken
    · exact hcookie tokenHash htoken
  · rcases hcases i _ hr with hold | heq
    · exact h.rotating i sentAt presented id existing hold
    · obtain ⟨-, hphase⟩ := Refresh.mk.inj heq
      cases hphase
  · obtain ⟨r, hrow, hnot⟩ := h.others id existing hflight
    exact ⟨r, hrow, fun hheld => hnot (hholds _ hheld)⟩

/-- The server has rotated the token that a refresh presents. -/
theorem Current.rotated (h : Current s) {sentAt : Timestamp} {presented : TokenHash} {id : Uuid}
    {existing : RefreshToken} {tokens : TokenTable} (d : Renewal)
    (hr : s.refreshes[i]? = some ⟨sentAt, .handling presented (.rotate id existing)⟩)
    (hrotate : rotate s.server.tokens id d.newId (successorOf existing d.newTokenHash s.now) s.now =
      some tokens) :
    Current ((s.setTokens tokens).setPhase i (.replied (.ok (d.accessToken, d.newTokenHash)))) := by
  obtain ⟨old, hold, rfl⟩ := h.rotating i sentAt presented id existing hr
  have he : Evolves s.server.tokens tokens (· = old.tokenHash) (· = d.newTokenHash) :=
    evolves_rotate hrotate hold rfl
  have hnew : Stored tokens d.newTokenHash :=
    stored_rotate hrotate (by rw [hold, Option.isSome_some])
  have hfresh : ∀ tokenHash, Holds s tokenHash → tokenHash ≠ d.newTokenHash := by
    rintro tokenHash hheld rfl
    exact he.fresh _ rfl (h.stored _ hheld)
  have hholds : ∀ tokenHash, Holds ((s.setTokens tokens).setPhase i
      (.replied (.ok (d.accessToken, d.newTokenHash)))) tokenHash →
        Holds s tokenHash ∨ tokenHash = d.newTokenHash := by
    rintro tokenHash (hcookie | hlogin | ⟨hj, hcarried⟩)
    · exact .inl (.cookie hcookie)
    · exact .inl (.login hlogin)
    · rcases getElem?_setPhase hj with ⟨-, r, -, rfl⟩ | ⟨-, hj⟩
      · exact .inr (Option.some.inj hcarried).symm
      · exact .inl (.refresh hj hcarried)
  refine ⟨(h.apart.setTokens tokens).setPhase hr nofun, fun tokenHash hheld => ?_,
    fun e he' => ?_, h.nodup, h.notCookie, fun e he' j r hj hcarried => ?_,
    fun j r tokenHash hj hcarried => ?_, fun j sentAt' presented' id' existing' hj => ?_,
    fun _ _ => .inr ⟨i, sentAt, _, getElem?_setPhase_self hr⟩, fun id' existing' hflight => ?_⟩
  · rcases hholds tokenHash hheld with hheld | rfl
    · exact (h.stored _ hheld).evolve he
    · exact hnew
  · refine (h.logins e he').evolve he fun heq => ?_
    exact h.notCarried e he' i _ hr (congrArg some heq.symm)
  · rcases getElem?_setPhase hj with ⟨-, r', -, rfl⟩ | ⟨-, hj⟩
    · exact hfresh e.2 (.login he') (Option.some.inj hcarried).symm
    · exact h.notCarried e he' j r hj hcarried
  · rcases getElem?_setPhase hj with ⟨-, r', -, rfl⟩ | ⟨hne, hj⟩
    · exact he.unspent_added (Option.some.inj hcarried).symm
    · exact absurd (h.apart.same hj hr (pending_of_carried hcarried) nofun) hne
  · rcases getElem?_setPhase hj with ⟨-, r', -, heq⟩ | ⟨-, hj⟩
    · cases (Refresh.mk.inj heq).2
    · obtain ⟨r, hrow, hpresented⟩ := h.rotating j sentAt' presented' id' existing' hj
      obtain ⟨r', hrow', hhash⟩ := he.kept id' r hrow
      exact ⟨r', hrow', hhash.trans hpresented⟩
  · obtain ⟨r, hrow, hnot⟩ := h.others id' existing' hflight
    obtain ⟨r', hrow', hhash⟩ := he.kept id' r hrow
    refine ⟨r', hrow', fun hheld => ?_⟩
    rcases hholds _ hheld with hheld | heq
    · exact hnot (hhash ▸ hheld)
    · exact he.fresh _ rfl ⟨id', r, hrow, hhash.symm.trans heq⟩

/-- The reply of a refresh gives the tab its new cookie. -/
theorem Current.renewed (h : Current s) {sentAt : Timestamp} {newToken : AccessToken}
    {cookie : TokenHash}
    (hr : s.refreshes[i]? = some ⟨sentAt, .replied (.ok (newToken, cookie))⟩) :
    Current ({ s with cookie := some cookie }.setPhase i (.settled (some newToken) s.now)) := by
  have hsession : Apart { s with cookie := some cookie } :=
    ⟨h.apart.past, h.apart.apart, h.apart.free, h.apart.shared⟩
  have hholds : ∀ tokenHash, Holds ({ s with cookie := some cookie }.setPhase i
      (.settled (some newToken) s.now)) tokenHash → Holds s tokenHash := by
    rintro tokenHash (hcookie | hlogin | ⟨hj, hcarried⟩)
    · exact .refresh hr hcookie
    · exact .login hlogin
    · rcases getElem?_setPhase hj with ⟨-, r, -, rfl⟩ | ⟨-, hj⟩
      · cases hcarried
      · exact .refresh hj hcarried
  refine ⟨hsession.setPhase hr nofun, fun tokenHash hheld => h.stored _ (hholds _ hheld), h.logins,
    h.nodup, fun e he => h.notCarried e he i _ hr, fun e he j r hj hcarried => ?_,
    fun j r tokenHash hj hcarried => ?_, fun j sentAt' presented id existing hj => ?_,
    fun tokenHash hcookie => .inl (h.carried i _ tokenHash hr hcookie),
    fun id existing hflight => ?_⟩
  · rcases getElem?_setPhase hj with ⟨-, r', -, rfl⟩ | ⟨-, hj⟩
    · cases hcarried
    · exact h.notCarried e he j r hj hcarried
  · rcases getElem?_setPhase hj with ⟨-, r', -, rfl⟩ | ⟨-, hj⟩
    · cases hcarried
    · exact h.carried j r tokenHash hj hcarried
  · rcases getElem?_setPhase hj with ⟨-, r', -, heq⟩ | ⟨-, hj⟩
    · cases (Refresh.mk.inj heq).2
    · exact h.rotating j sentAt' presented id existing hj
  · obtain ⟨r, hrow, hnot⟩ := h.others id existing hflight
    exact ⟨r, hrow, fun hheld => hnot (hholds _ hheld)⟩

/-- A login issues a token that nobody has seen. -/
theorem Current.issued (h : Current s) {userId newId familyId : Uuid} {tokenHash : TokenHash}
    {tokens : TokenTable} (accessToken : AccessToken)
    (hcreate : create s.server.tokens newId (issued userId tokenHash familyId s.now) =
      some tokens) :
    Current { s with
      server := { s.server with tokens := tokens, families := familyId :: s.server.families }
      logins := s.logins ++ [(accessToken, tokenHash)] } := by
  have he : Evolves s.server.tokens tokens (fun _ => False) (· = tokenHash) :=
    evolves_create hcreate rfl
  have hkept : Current (s.setTokens tokens) := h.evolve he fun _ _ hspent => hspent
  have hfresh : ¬ Holds s tokenHash := fun hheld => he.fresh _ rfl (h.stored _ hheld)
  have hholds : ∀ x, Holds { s with
      server := { s.server with tokens := tokens, families := familyId :: s.server.families }
      logins := s.logins ++ [(accessToken, tokenHash)] } x → Holds s x ∨ x = tokenHash := by
    rintro x (hcookie | hlogin | ⟨hj, hcarried⟩)
    · exact .inl (.cookie hcookie)
    · rcases List.mem_append.mp hlogin with hold | hnew
      · exact .inl (.login hold)
      · exact .inr (Prod.mk.inj (List.mem_singleton.mp hnew)).2
    · exact .inl (.refresh hj hcarried)
  refine ⟨⟨h.apart.past, h.apart.apart, h.apart.free, h.apart.shared⟩, fun x hheld => ?_,
    fun e he' => ?_, ?_, fun e he' => ?_, fun e he' j r hj hcarried => ?_, hkept.carried,
    hkept.rotating, hkept.cookie, fun id existing hflight => ?_⟩
  · rcases hholds x hheld with hheld | rfl
    · exact (h.stored _ hheld).evolve he
    · exact stored_create hcreate
  · rcases List.mem_append.mp he' with hold | hnew
    · exact hkept.logins e hold
    · obtain rfl := List.mem_singleton.mp hnew
      exact he.unspent_added rfl
  · rw [List.map_append, List.map_singleton]
    refine List.Nodup.append h.nodup (List.nodup_singleton _) fun x hx hnew => hfresh ?_
    obtain rfl := List.mem_singleton.mp hnew
    obtain ⟨e, he', rfl⟩ := List.mem_map.mp hx
    exact .login he'
  · rcases List.mem_append.mp he' with hold | hnew
    · exact h.notCookie e hold
    · obtain rfl := List.mem_singleton.mp hnew
      exact fun hcookie => hfresh (.cookie hcookie)
  · rcases List.mem_append.mp he' with hold | hnew
    · exact h.notCarried e hold j r hj hcarried
    · obtain rfl := List.mem_singleton.mp hnew
      exact hfresh (.refresh hj hcarried)
  · obtain ⟨r, hrow, hnot⟩ := h.others id existing hflight
    obtain ⟨r', hrow', hhash⟩ := he.kept id r hrow
    refine ⟨r', hrow', fun hheld => ?_⟩
    rcases hholds _ hheld with hheld | heq
    · exact hnot (hhash ▸ hheld)
    · exact he.fresh _ rfl ⟨id, r, hrow, hhash.symm.trans heq⟩

/-- The reply of a login gives the tab its cookie. -/
theorem Current.signedIn (h : Current s) {l : Nat} {accessToken : AccessToken}
    {tokenHash : TokenHash} (hl : s.logins[l]? = some (accessToken, tokenHash)) :
    Current { s with cookie := some tokenHash, logins := s.logins.eraseIdx l } := by
  have hmem : (accessToken, tokenHash) ∈ s.logins := List.mem_of_getElem? hl
  have hleft : ∀ e ∈ s.logins.eraseIdx l, e ∈ s.logins := fun e => List.mem_of_mem_eraseIdx
  have hother : ∀ e ∈ s.logins.eraseIdx l, tokenHash ≠ e.2 := by
    obtain ⟨hlt, hget⟩ := List.getElem?_eq_some_iff.mp hl
    have hperm := (List.getElem_cons_eraseIdx_perm hlt).map Prod.snd
    have hnodup := hperm.nodup_iff.mpr h.nodup
    rw [hget, List.map_cons, List.nodup_cons] at hnodup
    rintro e he heq
    have hin : e.2 ∈ (s.logins.eraseIdx l).map Prod.snd := List.mem_map_of_mem he
    rw [← heq] at hin
    exact hnodup.1 hin
  have hholds : ∀ x, Holds { s with cookie := some tokenHash, logins := s.logins.eraseIdx l } x →
      Holds s x := by
    rintro x (hcookie | hlogin | ⟨hj, hcarried⟩)
    · obtain rfl := Option.some.inj hcookie
      exact .login hmem
    · exact .login (hleft _ hlogin)
    · exact .refresh hj hcarried
  refine ⟨⟨h.apart.past, h.apart.apart, h.apart.free, h.apart.shared⟩,
    fun x hheld => h.stored _ (hholds _ hheld), fun e he => h.logins e (hleft e he),
    h.nodup.sublist ((List.eraseIdx_sublist _ _).map _),
    fun e he hcookie => hother e he (Option.some.inj hcookie),
    fun e he => h.notCarried e (hleft e he), h.carried, h.rotating, fun x hcookie => ?_,
    fun id existing hflight => ?_⟩
  · obtain rfl := Option.some.inj hcookie
    exact .inl (h.logins _ hmem)
  · obtain ⟨r, hrow, hnot⟩ := h.others id existing hflight
    exact ⟨r, hrow, fun hheld => hnot (hholds _ hheld)⟩

/-- Neither the clock nor the promise says which tokens the tab holds. -/
theorem Current.same (h : Current s) (hapart : Apart t) (hserver : t.server = s.server)
    (hcookie : t.cookie = s.cookie) (hrefreshes : t.refreshes = s.refreshes)
    (hlogins : t.logins = s.logins) : Current t := by
  obtain ⟨now, server, cookie, refreshPromise, refreshes, logins⟩ := t
  obtain rfl : server = s.server := hserver
  obtain rfl : cookie = s.cookie := hcookie
  obtain rfl : refreshes = s.refreshes := hrefreshes
  obtain rfl : logins = s.logins := hlogins
  have hholds : ∀ x, Holds ⟨now, s.server, s.cookie, refreshPromise, s.refreshes, s.logins⟩ x →
      Holds s x := by
    rintro x (hcookie | hlogin | ⟨hj, hcarried⟩)
    · exact .cookie hcookie
    · exact .login hlogin
    · exact .refresh hj hcarried
  refine ⟨hapart, fun x hheld => h.stored x (hholds x hheld), h.logins, h.nodup, h.notCookie,
    h.notCarried, h.carried, h.rotating, h.cookie, fun id existing hflight => ?_⟩
  obtain ⟨r, hrow, hnot⟩ := h.others id existing hflight
  exact ⟨r, hrow, fun hheld => hnot (hholds _ hheld)⟩

theorem Current.signedOut (h : Current s) : Current { s with cookie := none } := by
  have hholds : ∀ x, Holds { s with cookie := none } x → Holds s x := by
    rintro x (hcookie | hlogin | ⟨hj, hcarried⟩)
    · cases hcookie
    · exact .login hlogin
    · exact .refresh hj hcarried
  refine ⟨⟨h.apart.past, h.apart.apart, h.apart.free, h.apart.shared⟩,
    fun x hheld => h.stored _ (hholds _ hheld), h.logins, h.nodup, fun _ _ => nofun, h.notCarried,
    h.carried, h.rotating, nofun, fun id existing hflight => ?_⟩
  obtain ⟨r, hrow, hnot⟩ := h.others id existing hflight
  exact ⟨r, hrow, fun hheld => hnot (hholds _ hheld)⟩

/-- The others do not present what the tab holds. -/
theorem Current.othersStep (h : Current s) {action : Action} {server : AuthState}
    (hstep : Auth.step s.server action = some server)
    (hundisturbed : Undisturbed s (.others action)) : Current { s with server := server } := by
  obtain ⟨added, he⟩ := evolves_step hstep fun id existing hflight => by
    obtain ⟨r, hrow, -⟩ := h.others id existing hflight
    exact ⟨r, hrow⟩
  have hkept : Current (s.setTokens server.tokens) := by
    refine h.evolve he ?_
    rintro tokenHash hheld ⟨id, existing, r, hflight, hrow, rfl⟩
    obtain ⟨r', hrow', hnot⟩ := h.others id existing hflight
    obtain rfl := Option.some.inj (hrow.symm.trans hrow')
    exact hnot hheld
  have hholds : ∀ x, Holds { s with server := server } x → Holds s x := by
    rintro x (hcookie | hlogin | ⟨hj, hcarried⟩)
    · exact .cookie hcookie
    · exact .login hlogin
    · exact .refresh hj hcarried
  refine ⟨⟨h.apart.past, h.apart.apart, h.apart.free, h.apart.shared⟩,
    fun x hheld => (h.stored _ (hholds _ hheld)).evolve he, hkept.logins, h.nodup, h.notCookie,
    h.notCarried, hkept.carried, hkept.rotating, hkept.cookie, fun id existing hflight => ?_⟩
  have hrow : ∃ r, s.server.tokens.get? id = some r ∧ ¬ Holds s r.tokenHash := by
    rcases pending_step hstep hflight with hold | ⟨tokenHash, now, rfl, hread⟩
    · exact h.others id existing hold
    · obtain ⟨hrow, rfl⟩ := read_token hread
      exact ⟨existing, hrow, hundisturbed⟩
  obtain ⟨r, hrow, hnot⟩ := hrow
  obtain ⟨r', hrow', hhash⟩ := he.kept id r hrow
  exact ⟨r', hrow', fun hheld => hnot (hhash ▸ hholds _ hheld)⟩

theorem current_initial : Current {} := by
  have hnothing : ∀ tokenHash, ¬ Holds {} tokenHash := by
    rintro tokenHash (hcookie | hlogin | ⟨hj, -⟩)
    · cases hcookie
    · cases hlogin
    · cases hj
  exact ⟨apart_initial, fun _ hheld => absurd hheld (hnothing _), nofun, List.nodup_nil, nofun,
    nofun, nofun, nofun, nofun, nofun⟩

theorem Current.step (h : Current s) (hundisturbed : Undisturbed s a) (he : Effect s a t) :
    Current t := by
  have hapart : Apart t := h.apart.step he
  cases he with
  | same => exact h
  | elapsed | freed => exact h.same hapart rfl rfl rfl rfl
  | requested hfree => exact h.requested hfree
  | advanced hr hadvances =>
      refine h.advance hr hadvances.pending (fun _ => hadvances.carried) ?_ ?_
      · rintro presented id existing rfl
        cases hadvances with
        | read hread => exact ⟨existing, read_token hread⟩
      · rintro renewed rfl
        cases hadvances with
        | lost ha =>
            subst ha
            exact hundisturbed _ _ hr
  | rotated d hr hrotate => exact h.rotated d hr hrotate
  | @revoked i sentAt presented familyId hr =>
      have hkept : Current (s.setTokens (revokeFamily s.server.tokens familyId s.now)) :=
        h.evolve (evolves_revokeWhere _ _ _) fun _ _ hspent => hspent
      exact hkept.advance hr nofun nofun nofun nofun
  | renewed hr => exact h.renewed hr
  | issued hcreate => exact h.issued _ hcreate
  | signedIn hl => exact h.signedIn hl
  | signedOut => exact h.signedOut
  | others ha hstep =>
      subst ha
      exact h.othersStep hstep hundisturbed

end Steps

/-- A run of a tab from its first page, in which no reply with a new cookie is lost and nobody
else presents a token of the tab. -/
def ReachesUndisturbed (s : Tab) : Prop :=
  Reaches Tab.step (fun s a => Undisturbed s.toTabSession a) {} s

theorem current_of_reaches {s : Tab} (h : ReachesUndisturbed s) : Current s.toTabSession := by
  obtain ⟨as, run, hundisturbed⟩ := h
  refine run.guarded (P := fun s => Current s.toTabSession) ?_ current_initial hundisturbed
  intro t a u ht ha hstep
  exact ht.step ha (effect_of_tabStep hstep)

/-- However the calls of a tab interleave, a refresh presents a token that the server knows and
that was not replaced by a rotation. -/
theorem presented_unspent {s : Tab} (h : ReachesUndisturbed s) {i : Nat} {sentAt : Timestamp}
    {rawToken : TokenHash} (hr : s.refreshes[i]? = some ⟨sentAt, .sent (some rawToken)⟩) :
    ∃ id r, findByTokenHashWithUser s.server.tokens rawToken = some (id, r) ∧
      r.replacedBy = none := by
  have hcurrent := current_of_reaches h
  obtain ⟨id, r, hrow, hhash⟩ := hcurrent.stored rawToken (.refresh hr rfl)
  rcases hfind : findByTokenHashWithUser s.server.tokens rawToken with _ | ⟨id', r'⟩
  · have hnone := Table.find?_eq_none hfind hrow
    exact absurd hhash (of_decide_eq_false hnone)
  · obtain ⟨hrow', hhash'⟩ := Table.find?_eq_some hfind
    exact ⟨id', r', rfl, hcurrent.carried i _ rawToken hr rfl id' r' hrow'
      (of_decide_eq_true hhash')⟩

/-- A login, and two calls with the expired token of it: the second refresh of the tab
presents the token that the first one has brought. -/
def refreshedTwice : List TabStep :=
  [.signIn 7 1 100 50 9001, .signedIn 0, .apiFetch (js "/boards") none,
    .apiFetch (js "/cards") none, .response 0 401 none, .response 1 401 none, .receive 0,
    .write 0 ⟨2, 51, 9002⟩, .reply 0, .refreshed 0 false, .refreshed 1 false, .elapse 500, .timer,
    .refreshAccessToken]

theorem undisturbed_refreshedTwice :
    AllSteps Tab.step (fun s a => Undisturbed s.toTabSession a) {} refreshedTwice := by
  have hall : ∀ a ∈ refreshedTwice, ∀ s : TabSession, Undisturbed s a := by
    intro a ha s
    simp only [refreshedTwice, List.mem_cons, List.not_mem_nil, or_false] at ha
    rcases ha with rfl | rfl | rfl | rfl | rfl | rfl | rfl | rfl | rfl | rfl | rfl | rfl | rfl |
      rfl <;> trivial
  intro bs a t hbefore _
  exact hall a (hbefore.mem (List.mem_append_right bs (List.mem_singleton_self a))) _

theorem presented_unspent_refreshedTwice : ∃ s : Tab, ReachesUndisturbed s ∧
    (s.refreshes[1]?).map Refresh.phase = some (.sent (some 51)) ∧
      ∃ id r, findByTokenHashWithUser s.server.tokens 51 = some (id, r) ∧ r.replacedBy = none := by
  obtain ⟨s, hexec, hr⟩ : ∃ s : Tab, exec Tab.step {} refreshedTwice = some s ∧
      s.refreshes[1]? = some ⟨500, .sent (some 51)⟩ :=
    ⟨_, rfl, rfl⟩
  have hreaches : ReachesUndisturbed s :=
    ⟨_, run_of_exec hexec, undisturbed_refreshedTwice⟩
  exact ⟨s, hreaches, by rw [hr, Option.map_some], presented_unspent hreaches hr⟩

end SyncBoard.Client
