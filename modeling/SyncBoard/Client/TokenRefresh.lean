import SyncBoard.Auth.SpentTokens
import SyncBoard.Client.ApiClient

/-!
# A tab refreshes its session once at a time

A refresh token is rotated when it is presented, and presenting it again ends the session. A
tab presents the token of its cookie, which is an old one from the rotation until the reply.
What keeps the tab from presenting it is the shared promise: a refresh is sent only where the
one before is settled, with its cookie stored.
-/

namespace SyncBoard.Client

open Auth Relational Labelled

/-- How a refresh goes on without a change of the cookie or of the tokens. -/
inductive Advances (s : TabSession) (a : TabStep) (i : Nat) : RefreshPhase → RefreshPhase → Prop
  | refused {cookie status} : Advances s a i (.sent cookie) (.replied (.error status))
  | read {rawToken call} (h : refreshTokensRead s.server.tokens rawToken s.now = .ok call) :
      Advances s a i (.sent (some rawToken)) (.handling rawToken call)
  | failed {presented call status} :
      Advances s a i (.handling presented call) (.replied (.error status))
  | rejected {cookie} : Advances s a i (.sent cookie) (.settled none s.now)
  | answered {status} : Advances s a i (.replied (.error status)) (.settled none s.now)
  | lost {renewed} (ha : a = .lose i) :
      Advances s a i (.replied (.ok renewed)) (.settled none s.now)

/-- Everything that a step can do to what the calls of a tab share. -/
inductive Effect (s : TabSession) (a : TabStep) : TabSession → Prop
  | same : Effect s a s
  | elapsed (milliseconds : Nat) : Effect s a { s with now := s.now + milliseconds }
  | requested (free : s.refreshPromise = none) :
      Effect s a { s with
        refreshPromise := some s.refreshes.length
        refreshes := s.refreshes ++ [⟨s.now, .sent s.cookie⟩] }
  | advanced {i sentAt phase phase'} (hr : s.refreshes[i]? = some ⟨sentAt, phase⟩)
      (h : Advances s a i phase phase') : Effect s a (s.setPhase i phase')
  | rotated {i sentAt presented id existing tokens} (d : Renewal)
      (hr : s.refreshes[i]? = some ⟨sentAt, .handling presented (.rotate id existing)⟩)
      (h : rotate s.server.tokens id d.newId (successorOf existing d.newTokenHash s.now) s.now =
        some tokens) :
      Effect s a ((s.setTokens tokens).setPhase i
        (.replied (.ok (d.accessToken, d.newTokenHash))))
  | revoked {i sentAt presented familyId}
      (hr : s.refreshes[i]? = some ⟨sentAt, .handling presented (.revokeFamily familyId)⟩) :
      Effect s a ((s.setTokens (revokeFamily s.server.tokens familyId s.now)).setPhase i
        (.replied (.error 401)))
  | renewed {i sentAt newToken cookie}
      (hr : s.refreshes[i]? = some ⟨sentAt, .replied (.ok (newToken, cookie))⟩) :
      Effect s a ({ s with cookie := some cookie }.setPhase i (.settled (some newToken) s.now))
  | freed {i sentAt freshToken settledAt} (hpromise : s.refreshPromise = some i)
      (hr : s.refreshes[i]? = some ⟨sentAt, .settled freshToken settledAt⟩)
      (h : settledAt + refreshDebounceMs ≤ s.now) : Effect s a { s with refreshPromise := none }
  | issued {userId newId familyId tokenHash accessToken tokens}
      (h : create s.server.tokens newId (issued userId tokenHash familyId s.now) = some tokens) :
      Effect s a { s with
        server := { s.server with tokens := tokens, families := familyId :: s.server.families }
        logins := s.logins ++ [(accessToken, tokenHash)] }
  | signedIn {l accessToken tokenHash} (h : s.logins[l]? = some (accessToken, tokenHash)) :
      Effect s a { s with cookie := some tokenHash, logins := s.logins.eraseIdx l }
  | signedOut : Effect s a { s with cookie := none }
  | others {action server} (ha : a = .others action)
      (h : Auth.step s.server action = some server) : Effect s a { s with server := server }

theorem effect_refreshAccessToken (s : TabSession) (a : TabStep) :
    Effect s a (refreshAccessToken s).2 := by
  rw [refreshAccessToken]
  split
  · exact .same
  · next free => exact .requested free

theorem effect_receive {s : TabSession} {a : TabStep} {i sentAt : Nat} {cookie : Option TokenHash}
    (hr : s.refreshes[i]? = some ⟨sentAt, .sent cookie⟩) : Effect s a (receive s i cookie) := by
  cases cookie with
  | none => exact .advanced hr .refused
  | some rawToken =>
      rw [receive]
      split
      · exact .advanced hr .refused
      · next call hread => exact .advanced hr (.read hread)

theorem effect_write {s : TabSession} {a : TabStep} {i sentAt : Nat} {presented : TokenHash}
    {call : Pending} (hr : s.refreshes[i]? = some ⟨sentAt, .handling presented call⟩)
    (d : Renewal) : Effect s a (write s i call d) := by
  cases call with
  | rotate id existing =>
      rw [write]
      split
      · next tokens hrotate => exact .rotated d hr hrotate
      · exact .advanced hr .failed
  | revokeFamily familyId => exact .revoked hr

theorem effect_of_sessionStep {s t : TabSession} {a : TabStep} (h : s.step a = some t) :
    Effect s a t := by
  cases a with
  | elapse milliseconds =>
      obtain rfl := Option.some.inj h
      exact .elapsed milliseconds
  | refreshAccessToken =>
      obtain rfl := Option.some.inj h
      exact effect_refreshAccessToken s _
  | receive i =>
      rw [TabSession.step] at h
      split at h
      · next sentAt cookie hr =>
          obtain rfl := Option.some.inj h
          exact effect_receive hr
      · cases h
  | turnAway i status =>
      rw [TabSession.step] at h
      split at h
      · next sentAt cookie hr =>
          obtain rfl := Option.some.inj h
          exact .advanced hr .refused
      · cases h
  | write i draws =>
      rw [TabSession.step] at h
      split at h
      · next sentAt presented call hr =>
          obtain rfl := Option.some.inj h
          exact effect_write hr draws
      · cases h
  | timer =>
      rw [TabSession.step] at h
      split at h
      · next sentAt freshToken settledAt hr =>
          obtain ⟨i, hpromise, hrefresh⟩ := Option.bind_eq_some_iff.mp hr
          split at h
          · next hdue =>
              obtain rfl := Option.some.inj h
              exact .freed hpromise hrefresh hdue
          · cases h
      · cases h
  | signIn userId newId familyId tokenHash accessToken =>
      rw [TabSession.step] at h
      split at h
      · cases h
      · obtain ⟨tokens, hcreate, rfl⟩ := Option.map_eq_some_iff.mp h
        exact .issued hcreate
  | others action =>
      obtain ⟨server, hserver, rfl⟩ := Option.map_eq_some_iff.mp h
      exact .others rfl hserver
  | apiFetch | response | fetchFails | refreshed | reply | lose | signedIn | signOut => cases h

theorem effect_onResponse (s : Tab) (a : TabStep) (k : Nat) (path : JsString)
    (token : Option AccessToken) (retry : Bool) (status : Nat) (errCode : Option JsString) :
    Effect s.toTabSession a (onResponse s k path token retry status errCode).toTabSession := by
  rw [onResponse]
  split
  · exact effect_refreshAccessToken _ _
  · exact .same

theorem effect_onRefreshed (s : Tab) (a : TabStep) (k : Nat) (freshToken : Option AccessToken)
    (onOpenPage : Bool) :
    Effect s.toTabSession a (onRefreshed s k freshToken onOpenPage).toTabSession := by
  cases freshToken <;> exact .same

theorem effect_reply {s : Tab} {a : TabStep} {i sentAt : Nat} {reply : RefreshReply}
    (hr : s.refreshes[i]? = some ⟨sentAt, .replied reply⟩) :
    Effect s.toTabSession a (settle s i (some reply)).toTabSession := by
  cases reply with
  | ok renewed => exact .renewed hr
  | error status => exact .advanced hr .answered

theorem effect_of_tabStep {s t : Tab} {a : TabStep} (h : s.step a = some t) :
    Effect s.toTabSession a t.toTabSession := by
  have hsession : (s.toTabSession.step a).map (fun session => { s with toTabSession := session }) =
      some t → Effect s.toTabSession a t.toTabSession := by
    intro h
    obtain ⟨session, hstep, rfl⟩ := Option.map_eq_some_iff.mp h
    exact effect_of_sessionStep hstep
  cases a with
  | apiFetch path token =>
      obtain rfl := Option.some.inj h
      exact .same
  | response k status errCode =>
      rw [Tab.step] at h
      split at h
      · obtain rfl := Option.some.inj h
        exact effect_onResponse ..
      · cases h
  | fetchFails k =>
      rw [Tab.step] at h
      split at h
      · obtain rfl := Option.some.inj h
        exact .same
      · cases h
  | refreshed k onOpenPage =>
      rw [Tab.step] at h
      split at h
      · split at h
        · obtain rfl := Option.some.inj h
          exact effect_onRefreshed ..
        · cases h
      · cases h
  | reply i =>
      rw [Tab.step] at h
      split at h
      · next sentAt reply hr =>
          obtain rfl := Option.some.inj h
          exact effect_reply hr
      · cases h
  | lose i =>
      rw [Tab.step] at h
      split at h
      · next sentAt cookie hr =>
          obtain rfl := Option.some.inj h
          exact .advanced hr .rejected
      · next sentAt reply hr =>
          obtain rfl := Option.some.inj h
          cases reply with
          | ok renewed => exact .advanced hr (.lost rfl)
          | error status => exact .advanced hr .answered
      · cases h
  | signedIn l =>
      rw [Tab.step] at h
      split at h
      · next accessToken tokenHash hl =>
          obtain rfl := Option.some.inj h
          exact .signedIn hl
      · cases h
  | signOut =>
      obtain rfl := Option.some.inj h
      exact .signedOut
  | elapse | refreshAccessToken | receive | turnAway | write | timer | signIn | others =>
      exact hsession h

/-- The refresh was settled, and the half second after it is over. -/
def Elapsed (instant : Timestamp) (r : Refresh) : Prop :=
  ∃ freshToken settledAt, r.phase = .settled freshToken settledAt ∧
    settledAt + refreshDebounceMs ≤ instant

/-- A refresh is sent after the half second of every one before, and the promise is that of the
last. -/
structure Apart (s : TabSession) : Prop where
  past : ∀ (i : Nat) (r : Refresh), s.refreshes[i]? = some r → r.sentAt ≤ s.now
  apart : ∀ (i j : Nat) (r r' : Refresh), i < j → s.refreshes[i]? = some r →
    s.refreshes[j]? = some r' → Elapsed r'.sentAt r
  free : s.refreshPromise = none → ∀ (i : Nat) r, s.refreshes[i]? = some r → Elapsed s.now r
  shared : ∀ i, s.refreshPromise = some i → i + 1 = s.refreshes.length

section Apart
variable {s t : TabSession} {a : TabStep} {i j : Nat} {r r' : Refresh} {phase : RefreshPhase}

theorem Elapsed.later {instant instant' : Timestamp} (h : Elapsed instant r)
    (hle : instant ≤ instant') : Elapsed instant' r := by
  obtain ⟨freshToken, settledAt, hphase, hdue⟩ := h
  exact ⟨freshToken, settledAt, hphase, hdue.trans hle⟩

/-- A refresh after a change of phase is the changed one, or as it was. -/
theorem getElem?_setPhase (h : (s.setPhase i phase).refreshes[j]? = some r') :
    (j = i ∧ ∃ r, s.refreshes[i]? = some r ∧ r' = { r with phase := phase }) ∨
      j ≠ i ∧ s.refreshes[j]? = some r' := by
  rw [TabSession.setPhase, List.getElem?_modify] at h
  obtain ⟨r, hr, hmodified⟩ := Option.map_eq_some_iff.mp h
  by_cases hij : i = j
  · rw [if_pos hij] at hmodified
    exact .inl ⟨hij.symm, r, hij ▸ hr, hmodified.symm⟩
  · rw [if_neg hij] at hmodified
    exact .inr ⟨fun hji => hij hji.symm, hmodified ▸ hr⟩

theorem getElem?_setPhase_of_ne (hj : j ≠ i) :
    (s.setPhase i phase).refreshes[j]? = s.refreshes[j]? := by
  rw [TabSession.setPhase, List.getElem?_modify]
  simp [hj.symm]

theorem getElem?_setPhase_self (hr : s.refreshes[i]? = some r) :
    (s.setPhase i phase).refreshes[i]? = some { r with phase := phase } := by
  rw [TabSession.setPhase, List.getElem?_modify, hr]
  simp

/-- The refresh that goes on is the one of the promise. -/
theorem Apart.current (h : Apart s) (hr : s.refreshes[i]? = some r)
    (hpending : ∀ freshToken settledAt, r.phase ≠ .settled freshToken settledAt) :
    s.refreshPromise = some i := by
  have hnot : ∀ instant, ¬ Elapsed instant r := by
    rintro instant ⟨freshToken, settledAt, hphase, -⟩
    exact hpending freshToken settledAt hphase
  rcases hpromise : s.refreshPromise with _ | j
  · exact absurd (h.free hpromise i r hr) (hnot _)
  · have hlast := h.shared j hpromise
    have hi : i < s.refreshes.length := (List.getElem?_eq_some_iff.mp hr).1
    by_cases hij : i < j
    · have hj : j < s.refreshes.length := by omega
      exact absurd (h.apart i j r _ hij hr (List.getElem?_eq_getElem hj)) (hnot _)
    · have heq : i = j := by omega
      rw [heq]

/-- The one refresh that is not settled may change its phase. -/
theorem Apart.setPhase (h : Apart s) (hr : s.refreshes[i]? = some r)
    (hpending : ∀ freshToken settledAt, r.phase ≠ .settled freshToken settledAt) :
    Apart (s.setPhase i phase) := by
  have hpromise := h.current hr hpending
  have hlast := h.shared i hpromise
  have hlength : (s.setPhase i phase).refreshes.length = s.refreshes.length :=
    List.length_modify ..
  refine ⟨fun j r' hj => ?_, fun j k r₁ r₂ hjk hj hk => ?_, fun hnone => ?_, fun j hj => ?_⟩
  · rcases getElem?_setPhase hj with ⟨-, r, hr, rfl⟩ | ⟨-, hold⟩
    · exact h.past i r hr
    · exact h.past j r' hold
  · have hk' : k < s.refreshes.length := by
      rw [← hlength]
      exact (List.getElem?_eq_some_iff.mp hk).1
    have hji : j ≠ i := by omega
    rw [getElem?_setPhase_of_ne hji] at hj
    rcases getElem?_setPhase hk with ⟨rfl, r, hr, rfl⟩ | ⟨-, hold⟩
    · exact h.apart j k r₁ r hjk hj hr
    · exact h.apart j k r₁ r₂ hjk hj hold
  · cases hpromise.symm.trans hnone
  · rw [hlength]
    exact h.shared j hj

theorem Advances.pending {phase' : RefreshPhase} (h : Advances s a i phase phase')
    (freshToken : Option AccessToken) (settledAt : Timestamp) :
    phase ≠ .settled freshToken settledAt := by
  cases h <;> nofun

theorem Apart.requested (h : Apart s) (hfree : s.refreshPromise = none)
    (cookie : Option TokenHash) :
    Apart { s with
      refreshPromise := some s.refreshes.length
      refreshes := s.refreshes ++ [⟨s.now, .sent cookie⟩] } := by
  let new : Refresh := ⟨s.now, .sent cookie⟩
  have hcases : ∀ (i : Nat) r, (s.refreshes ++ [new])[i]? = some r →
      s.refreshes[i]? = some r ∨ i = s.refreshes.length ∧ r = new := by
    intro i r hr
    rcases Nat.lt_trichotomy i s.refreshes.length with hlt | heq | hgt
    · rw [List.getElem?_append_left hlt] at hr
      exact .inl hr
    · rw [heq, List.getElem?_concat_length] at hr
      exact .inr ⟨heq, (Option.some.inj hr).symm⟩
    · rw [List.getElem?_eq_none (by rw [List.length_append, List.length_singleton]; omega)] at hr
      cases hr
  refine ⟨fun i r hr => ?_, fun i j r r' hij hr hr' => ?_, nofun, fun i hi => ?_⟩
  · rcases hcases i r hr with hold | ⟨-, rfl⟩
    · exact h.past i r hold
    · exact Nat.le_refl _
  · have hj : j < (s.refreshes ++ [new]).length :=
      (List.getElem?_eq_some_iff.mp hr').1
    rw [List.length_append, List.length_singleton] at hj
    have hold : s.refreshes[i]? = some r := by
      rcases hcases i r hr with hold | ⟨heq, -⟩
      · exact hold
      · omega
    rcases hcases j r' hr' with hold' | ⟨-, rfl⟩
    · exact h.apart i j r r' hij hold hold'
    · exact h.free hfree i r hold
  · obtain rfl := Option.some.inj hi
    rw [List.length_append, List.length_singleton]

theorem Apart.setTokens (h : Apart s) (tokens : TokenTable) : Apart (s.setTokens tokens) :=
  ⟨h.past, h.apart, h.free, h.shared⟩

theorem Apart.step (h : Apart s) (he : Effect s a t) : Apart t := by
  cases he with
  | same | signedOut => exact ⟨h.past, h.apart, h.free, h.shared⟩
  | elapsed milliseconds =>
      have hlater : s.now ≤ s.now + milliseconds := Nat.le_add_right _ _
      exact ⟨fun i r hr => (h.past i r hr).trans hlater, h.apart,
        fun hfree i r hr => (h.free hfree i r hr).later hlater, h.shared⟩
  | requested hfree => exact h.requested hfree s.cookie
  | advanced hr hadvances => exact h.setPhase hr hadvances.pending
  | rotated d hr hrotate =>
      exact (h.setTokens _).setPhase hr nofun
  | revoked hr =>
      exact (h.setTokens _).setPhase hr nofun
  | @renewed i sentAt newToken cookie hr =>
      have hsame : Apart { s with cookie := some cookie } :=
        ⟨h.past, h.apart, h.free, h.shared⟩
      exact hsame.setPhase hr nofun
  | @freed i sentAt freshToken settledAt hpromise hr hdue =>
      refine ⟨h.past, h.apart, fun _ j r hj => ?_, nofun⟩
      have hlast := h.shared i hpromise
      have hj' : j < s.refreshes.length := (List.getElem?_eq_some_iff.mp hj).1
      by_cases hji : j < i
      · exact (h.apart j i r _ hji hj hr).later (h.past i _ hr)
      · have heq : j = i := by omega
        obtain rfl := Option.some.inj ((heq ▸ hj).symm.trans hr)
        exact ⟨freshToken, settledAt, rfl, hdue⟩
  | issued | signedIn | others => exact ⟨h.past, h.apart, h.free, h.shared⟩

theorem apart_initial : Apart {} :=
  ⟨nofun, nofun, nofun, nofun⟩

end Apart

/-- However the calls of a tab interleave, each refresh is sent half a second after the one
before was settled, at the earliest. -/
theorem refreshes_apart {s : Tab} {as : List TabStep} (run : Run Tab.step {} as s) {i j : Nat}
    {r r' : Refresh} (hij : i < j) (hr : s.refreshes[i]? = some r)
    (hr' : s.refreshes[j]? = some r') : ∃ freshToken settledAt,
      r.phase = .settled freshToken settledAt ∧ settledAt + refreshDebounceMs ≤ r'.sentAt := by
  have hapart : Apart s.toTabSession := by
    refine run.invariant (I := fun s => Apart s.toTabSession) ?_ apart_initial
    intro t a u ht hstep
    exact ht.step (effect_of_tabStep hstep)
  exact hapart.apart i j r r' hij hr hr'

/-- A tab without a session, whose two refreshes are refused. -/
def refusedTwice : List TabStep :=
  [.refreshAccessToken, .elapse 40, .receive 0, .reply 0, .elapse 500, .timer,
    .refreshAccessToken]

theorem refreshes_apart_refusedTwice : ∃ s, exec Tab.step {} refusedTwice = some s ∧
    ∃ r r', s.refreshes = [r, r'] ∧ ∃ freshToken settledAt,
      r.phase = .settled freshToken settledAt ∧ settledAt + refreshDebounceMs ≤ r'.sentAt := by
  obtain ⟨s, r, r', hexec, hrefreshes⟩ : ∃ s r r',
      exec Tab.step {} refusedTwice = some s ∧ s.refreshes = [r, r'] :=
    ⟨_, _, _, rfl, rfl⟩
  have hr : s.refreshes[0]? = some r := by rw [hrefreshes, List.getElem?_cons_zero]
  have hr' : s.refreshes[1]? = some r' := by
    rw [hrefreshes, List.getElem?_cons_succ, List.getElem?_cons_zero]
  exact ⟨s, hexec, r, r', hrefreshes,
    refreshes_apart (run_of_exec hexec) Nat.zero_lt_one hr hr'⟩

end SyncBoard.Client
