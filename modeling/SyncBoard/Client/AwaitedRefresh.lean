import SyncBoard.Client.TokenRefresh

/-!
# A call that awaits a refresh goes on

The promise that a call awaits is one that was made, and whatever became of its request, the
call is retried or returns when the request is answered.
-/

namespace SyncBoard.Client

open Auth Labelled

/-- The promises that calls await have been made. -/
def Awaited (s : Tab) : Prop :=
  ∀ (k : Nat) call i, s.calls[k]? = some call → call.phase = .awaiting i → i < s.refreshes.length

/-- Some steps lead to where the call is retried with a fresh token, or has returned. -/
def Resumes (s : Tab) (k : Nat) : Prop :=
  ∃ as t call, Run Tab.step s as t ∧ t.calls[k]? = some call ∧
    (call.phase = .returned ∨ ∃ token, call.phase = .fetching (some token) true)

section Steps
variable {s t : Tab} {a : TabStep} {i k : Nat}

theorem Effect.length_le {s t : TabSession} (he : Effect s a t) :
    s.refreshes.length ≤ t.refreshes.length := by
  cases he with
  | requested =>
      rw [List.length_append]
      exact Nat.le_add_right _ _
  | advanced | rotated | revoked | renewed =>
      refine Nat.le_of_eq ?_
      exact (List.length_modify ..).symm
  | same | elapsed | freed | issued | signedIn | signedOut | others => exact Nat.le_refl _

/-- A call after `setCall` is the changed one, or as it was. -/
theorem getElem?_setCall {phase : CallPhase} {j : Nat} {call : ApiCall}
    (h : (s.setCall k phase).calls[j]? = some call) :
    call.phase = phase ∨ s.calls[j]? = some call := by
  rw [Tab.setCall, List.getElem?_modify] at h
  obtain ⟨old, hold, hmodified⟩ := Option.map_eq_some_iff.mp h
  by_cases hkj : k = j
  · rw [if_pos hkj] at hmodified
    exact .inl (hmodified ▸ rfl)
  · rw [if_neg hkj] at hmodified
    exact .inr (hmodified ▸ hold)

theorem refreshAccessToken_lt {s : TabSession} (h : Apart s) :
    (refreshAccessToken s).1 < (refreshAccessToken s).2.refreshes.length := by
  rw [refreshAccessToken]
  split
  · next i hpromise =>
      have hlast := h.shared i hpromise
      change i < s.refreshes.length
      omega
  · change s.refreshes.length < (s.refreshes ++ [_]).length
    rw [List.length_append, List.length_singleton]
    omega

/-- A call that awaits did so before, or awaits a promise that has been made. -/
theorem awaiting_of_step (hapart : Apart s.toTabSession) (h : s.step a = some t) {call : ApiCall}
    (hk : t.calls[k]? = some call) (hphase : call.phase = .awaiting i) :
    s.calls[k]? = some call ∨ i < t.refreshes.length := by
  have hsession : (s.toTabSession.step a).map (fun session => { s with toTabSession := session }) =
      some t → s.calls[k]? = some call := by
    intro h
    obtain ⟨session, -, rfl⟩ := Option.map_eq_some_iff.mp h
    exact hk
  cases a with
  | apiFetch path token =>
      obtain rfl := Option.some.inj h
      rcases List.mem_append.mp (List.mem_of_getElem? hk) with hold | hnew
      · left
        obtain ⟨hlt, hget⟩ := List.getElem?_eq_some_iff.mp hk
        by_cases hlen : k < s.calls.length
        · exact (List.getElem?_append_left hlen).symm.trans hk
        · have hright := (List.getElem?_append_right (Nat.le_of_not_lt hlen)).symm.trans hk
          obtain rfl := List.mem_singleton.mp (List.mem_of_getElem? hright)
          cases hphase
      · obtain rfl := List.mem_singleton.mp hnew
        cases hphase
  | response j status errCode =>
      rw [Tab.step] at h
      split at h
      · obtain rfl := Option.some.inj h
        rw [onResponse] at hk ⊢
        split at hk
        · next hrefused =>
            rw [if_pos hrefused]
            rcases getElem?_setCall hk with hnew | hold
            · obtain rfl := CallPhase.awaiting.inj (hphase.symm.trans hnew)
              exact .inr (refreshAccessToken_lt hapart)
            · exact .inl hold
        · rcases getElem?_setCall hk with hnew | hold
          · cases hphase.symm.trans hnew
          · exact .inl hold
      · cases h
  | fetchFails j =>
      rw [Tab.step] at h
      split at h
      · obtain rfl := Option.some.inj h
        rcases getElem?_setCall hk with hnew | hold
        · cases hphase.symm.trans hnew
        · exact .inl hold
      · cases h
  | refreshed j onOpenPage =>
      rw [Tab.step] at h
      split at h
      · split at h
        · next freshToken _ _ =>
            obtain rfl := Option.some.inj h
            cases freshToken <;> rcases getElem?_setCall hk with hnew | hold
            · cases hphase.symm.trans hnew
            · exact .inl hold
            · cases hphase.symm.trans hnew
            · exact .inl hold
        · cases h
      · cases h
  | reply j =>
      rw [Tab.step] at h
      split at h
      · next reply _ =>
          obtain rfl := Option.some.inj h
          cases reply <;> exact .inl hk
      · cases h
  | lose j =>
      rw [Tab.step] at h
      split at h
      · obtain rfl := Option.some.inj h
        exact .inl hk
      · obtain rfl := Option.some.inj h
        exact .inl hk
      · cases h
  | signedIn l =>
      rw [Tab.step] at h
      split at h
      · obtain rfl := Option.some.inj h
        exact .inl hk
      · cases h
  | signOut =>
      obtain rfl := Option.some.inj h
      exact .inl hk
  | elapse | refreshAccessToken | receive | turnAway | write | timer | signIn | others =>
      exact .inl (hsession h)

theorem awaited_step (hapart : Apart s.toTabSession) (hs : Awaited s) (h : s.step a = some t) :
    Awaited t := by
  intro k call i hk hphase
  rcases awaiting_of_step hapart h hk hphase with hold | hlt
  · exact (hs k call i hold hphase).trans_le (effect_of_tabStep h).length_le
  · exact hlt

theorem Resumes.of_step (h : s.step a = some t) (hresumes : Resumes t k) : Resumes s k := by
  obtain ⟨as, u, call, run, hcall⟩ := hresumes
  exact ⟨_, u, call, ((Run.nil s).snoc h).append run, hcall⟩

variable {path : JsString} (hk : s.calls[k]? = some ⟨path, .awaiting i⟩)
include hk

theorem resumes_of_settled {sentAt settledAt : Timestamp} {freshToken : Option AccessToken}
    (hr : s.refreshes[i]? = some ⟨sentAt, .settled freshToken settledAt⟩) : Resumes s k := by
  have hstep : s.step (.refreshed k true) = some (onRefreshed s k freshToken true) := by
    simp only [Tab.step, hk, hr]
  have hcall : ∀ phase, (s.setCall k phase).calls[k]? = some ⟨path, phase⟩ := by
    intro phase
    rw [Tab.setCall, List.getElem?_modify, hk]
    simp
  cases freshToken with
  | some token =>
      exact ⟨_, _, _, (Run.nil s).snoc hstep, hcall _, .inr ⟨token, rfl⟩⟩
  | none => exact ⟨_, _, _, (Run.nil s).snoc hstep, hcall _, .inl rfl⟩

theorem resumes_of_replied {sentAt : Timestamp} {reply : RefreshReply}
    (hr : s.refreshes[i]? = some ⟨sentAt, .replied reply⟩) : Resumes s k := by
  have hstep : s.step (.reply i) = some (settle s i (some reply)) := by
    simp only [Tab.step, hr]
  apply Resumes.of_step hstep
  cases reply with
  | ok renewed => exact resumes_of_settled hk (getElem?_setPhase_self hr)
  | error status => exact resumes_of_settled hk (getElem?_setPhase_self hr)

theorem resumes_of_handling {sentAt : Timestamp} {presented : TokenHash} {call : Pending}
    (hr : s.refreshes[i]? = some ⟨sentAt, .handling presented call⟩) : Resumes s k := by
  have hstep : s.step (.write i ⟨0, 0, 0⟩) =
      some { s with toTabSession := write s.toTabSession i call ⟨0, 0, 0⟩ } := by
    simp only [Tab.step, TabSession.step, hr, Option.map_some]
  apply Resumes.of_step hstep
  have hreplied : ∃ reply, (write s.toTabSession i call ⟨0, 0, 0⟩).refreshes[i]? =
      some ⟨sentAt, .replied reply⟩ := by
    cases call with
    | rotate id existing =>
        rw [write]
        split
        · exact ⟨_, getElem?_setPhase_self hr⟩
        · exact ⟨_, getElem?_setPhase_self hr⟩
    | revokeFamily familyId => exact ⟨_, getElem?_setPhase_self hr⟩
  obtain ⟨reply, hreply⟩ := hreplied
  exact resumes_of_replied hk hreply

theorem resumes_of_sent {sentAt : Timestamp} {cookie : Option TokenHash}
    (hr : s.refreshes[i]? = some ⟨sentAt, .sent cookie⟩) : Resumes s k := by
  have hstep : s.step (.receive i) =
      some { s with toTabSession := receive s.toTabSession i cookie } := by
    simp only [Tab.step, TabSession.step, hr, Option.map_some]
  apply Resumes.of_step hstep
  cases cookie with
  | none => exact resumes_of_replied hk (getElem?_setPhase_self hr)
  | some rawToken =>
      have hreceived : (∃ reply, (receive s.toTabSession i (some rawToken)).refreshes[i]? =
            some ⟨sentAt, .replied reply⟩) ∨
          ∃ call, (receive s.toTabSession i (some rawToken)).refreshes[i]? =
            some ⟨sentAt, .handling rawToken call⟩ := by
        rw [receive]
        split
        · exact .inl ⟨_, getElem?_setPhase_self hr⟩
        · exact .inr ⟨_, getElem?_setPhase_self hr⟩
      rcases hreceived with ⟨reply, hreply⟩ | ⟨call, hcall⟩
      · exact resumes_of_replied hk hreply
      · exact resumes_of_handling hk hcall

end Steps

/-- In every state of a tab, a call that awaits a refresh can still be retried with a fresh
token, or return. -/
theorem awaiting_resumes {s : Tab} {as : List TabStep} (run : Run Tab.step {} as s) {i k : Nat}
    {path : JsString} (hk : s.calls[k]? = some ⟨path, .awaiting i⟩) : Resumes s k := by
  obtain ⟨-, hawaited⟩ : Apart s.toTabSession ∧ Awaited s := by
    refine run.invariant (I := fun s => Apart s.toTabSession ∧ Awaited s) ?_
      ⟨apart_initial, nofun⟩
    rintro t a u ⟨hapart, hawaited⟩ hstep
    exact ⟨hapart.step (effect_of_tabStep hstep), awaited_step hapart hawaited hstep⟩
  obtain ⟨⟨sentAt, phase⟩, hr⟩ : ∃ r, s.refreshes[i]? = some r :=
    ⟨_, List.getElem?_eq_getElem (hawaited k _ i hk rfl)⟩
  cases phase with
  | sent cookie => exact resumes_of_sent hk hr
  | handling presented call => exact resumes_of_handling hk hr
  | replied reply => exact resumes_of_replied hk hr
  | settled freshToken settledAt => exact resumes_of_settled hk hr

/-- A call with an expired token, whose refresh the throttler turns away. -/
def turnedAway : List TabStep :=
  [.apiFetch (js "/boards") (some (some 9000)), .response 0 401 (some (js "TOKEN_EXPIRED")),
    .turnAway 0 429]

theorem awaiting_resumes_turnedAway : ∃ s, exec Tab.step {} turnedAway = some s ∧
    s.calls = [⟨js "/boards", .awaiting 0⟩] ∧ Resumes s 0 := by
  obtain ⟨s, hexec, hcalls⟩ : ∃ s, exec Tab.step {} turnedAway = some s ∧
      s.calls = [⟨js "/boards", .awaiting 0⟩] :=
    ⟨_, rfl, rfl⟩
  have hk : s.calls[0]? = some ⟨js "/boards", .awaiting 0⟩ := by
    rw [hcalls, List.getElem?_cons_zero]
  exact ⟨s, hexec, hcalls, awaiting_resumes (run_of_exec hexec) hk⟩

end SyncBoard.Client
