import SyncBoard.Auth.Rotation

/-!
# Revoked families

A family is revoked by reuse detection, by the logout of its last non-revoked
token, or with all families of its user. From then on it has no non-revoked
token: what can bring it back is a rotation that passed its revoked check
before the revocation and commits after it.
-/

namespace SyncBoard.Auth

open Relational Labelled

/-- The family has a token, and none that is not revoked. -/
def Dead (f : Uuid) (s : AuthState) : Prop :=
  (∃ u, Owned s.tokens f u) ∧ ∀ id, ¬ NonRevoked s.tokens f id

/-- The await revokes the family: `revokeFamily`, `revokeAllByUserId` for a user
with a token in it, or `revokeByTokenHash` on its last non-revoked token. -/
def Revokes (s : AuthState) (f : Uuid) : Action → Prop
  | .reuse call _ => s.inFlight[call]? = some (.revokeFamily f)
  | .revokeAll userId _ => Owned s.tokens f userId
  | .logout tokenHash _ =>
      (∃ id, NonRevoked s.tokens f id) ∧
        ∀ id r, s.tokens.get? id = some r → r.familyId = f → r.revokedAt = none →
          r.tokenHash = tokenHash
  | _ => False

/-- Along the labels `as`, no state after the revocation of a family contains a
non-revoked token of it. -/
def RevocationFinal (s : AuthState) (as : List Action) : Prop :=
  ∀ bs a cs t u v f, bs ++ a :: cs <+: as → Run step s bs t → Revokes t f a →
    step t a = some u → Run step u cs v → ∀ id, ¬ NonRevoked v.tokens f id

/-- A rotation commits only while the family of its token has a non-revoked one. -/
def RotatesLiveFamily (s : AuthState) : Action → Prop
  | .rotate call newId newTokenHash _ _ =>
      ∀ id existing, s.inFlight[call]? = some (.rotate id existing) →
        Unused s.tokens newId newTokenHash →
        ∃ j, NonRevoked s.tokens existing.familyId j
  | _ => True

/-- The reading of a revoked token found a row of its family. -/
def ReuseKnown (s : AuthState) : Prop :=
  ∀ f, Pending.revokeFamily f ∈ s.inFlight → ∃ u, Owned s.tokens f u

theorem refreshTokensRead_revokeFamily {tokens : TokenTable} {tokenHash : TokenHash}
    {now : Timestamp} {f : Uuid}
    (h : refreshTokensRead tokens tokenHash now = .ok (.revokeFamily f)) :
    ∃ u, Owned tokens f u := by
  unfold refreshTokensRead at h
  split at h
  · cases h
  · rename_i id existing hfind
    split at h
    · cases h
    · split at h
      · cases h
        exact ⟨existing.userId, id, existing, (Table.find?_eq_some hfind).1, rfl, rfl⟩
      · cases h

theorem Effect.owned_persists {s s' : AuthState} {a : Action} (he : Effect s a s')
    (hc : Consistent s) {f u : Uuid} (h : Owned s.tokens f u) : Owned s'.tokens f u := by
  obtain ⟨id, r, hr, rfl, rfl⟩ := h
  obtain ⟨r', hr', hf, hu⟩ := he.row_persists hc hr
  exact ⟨id, r', hr', hf, hu⟩

/-- The facts about families and calls that every reachable state has. -/
structure Reached (s : AuthState) : Prop where
  consistent : Consistent s
  oneOwner : OneOwner s
  reuse : ReuseKnown s

theorem reached_empty : Reached (.ofTable Table.empty) where
  consistent := consistent_ofTable _
  oneOwner := oneOwner_empty
  reuse := by simp [ReuseKnown, AuthState.ofTable]

theorem Reached.step {s s' : AuthState} {a : Action} (hr : Reached s)
    (h : step s a = some s') : Reached s' where
  consistent := hr.consistent.step h
  oneOwner := hr.oneOwner.step hr.consistent h
  reuse := by
    have he := effect_of_step h
    intro f hf
    obtain ⟨u, hu⟩ : ∃ u, Owned s.tokens f u := by
      rcases he.pending_origin hf with hf | ⟨tokenHash, now, hread⟩
      · exact hr.reuse f hf
      · exact refreshTokensRead_revokeFamily hread
    exact ⟨u, he.owned_persists hr.consistent hu⟩

theorem reached_of_run {as : List Action} {s s' : AuthState} (hr : Reached s)
    (run : Run step s as s') : Reached s' :=
  run.invariant (fun _ _ _ hr h => hr.step h) hr

theorem dead_of_revokes {s s' : AuthState} {a : Action} {f : Uuid} (hr : Reached s)
    (hrev : Revokes s f a) (h : step s a = some s') : Dead f s' := by
  have he := effect_of_step h
  have persists : (∃ u, Owned s.tokens f u) → ∃ u, Owned s'.tokens f u :=
    fun ⟨u, hu⟩ => ⟨u, he.owned_persists hr.consistent hu⟩
  cases he with
  | refused | read | rotated | rolledBack | issued | issueRefused => exact hrev.elim
  | @reused call now familyId hcall =>
      obtain rfl := Pending.revokeFamily.inj (Option.some.inj (hcall.symm.trans hrev))
      refine ⟨persists (hr.reuse familyId (List.mem_of_getElem? hcall)), ?_⟩
      intro id hid
      obtain ⟨r, -, hf, -, hp⟩ := (nonRevoked_revokeWhere _ _ _ _ _).mp hid
      simp [hf] at hp
  | @loggedOut tokenHash now =>
      refine ⟨persists ?_, ?_⟩
      · obtain ⟨id, hid⟩ := hrev.1
        exact hid.owned
      · intro id hid
        obtain ⟨r, hget, hf, hn, hp⟩ := (nonRevoked_revokeWhere _ _ _ _ _).mp hid
        simp [hrev.2 id r hget hf hn] at hp
  | @loggedOutAll userId now =>
      refine ⟨persists ⟨userId, hrev⟩, ?_⟩
      intro id hid
      obtain ⟨r, hget, hf, -, hp⟩ := (nonRevoked_revokeWhere _ _ _ _ _).mp hid
      -- all tokens of the family belong to the user whose tokens are revoked
      have huser : r.userId = userId :=
        hr.oneOwner f _ _ ⟨id, r, hget, hf, rfl⟩ hrev
      simp [huser] at hp

/-- A guarded await keeps a dead family dead. -/
theorem dead_step {s s' : AuthState} {a : Action} {f : Uuid} (hr : Reached s)
    (hd : Dead f s) (hg : RotatesLiveFamily s a) (h : step s a = some s') : Dead f s' := by
  have he := effect_of_step h
  obtain ⟨⟨u, hu⟩, hnone⟩ := hd
  refine ⟨⟨u, he.owned_persists hr.consistent hu⟩, ?_⟩
  intro id hid
  cases he with
  | refused | read | rolledBack | issueRefused => exact hnone id hid
  | reused | loggedOut | loggedOutAll => exact hnone id (nonRevoked_of_revokeWhere hid)
  | @rotated call newId newTokenHash issuedAt now existingId existing tokens hcall hrot =>
      have hprev := hr.consistent.isSome_row hcall
      rcases (nonRevoked_rotate hrot hprev f id).mp hid with ⟨-, hf⟩ | ⟨-, hid⟩
      · obtain ⟨j, hj⟩ := hg existingId existing hcall (rotate_eq_some hrot hprev).1
        exact hnone j (hf ▸ hj)
      · exact hnone id hid
  | issued hf hcreate =>
      rcases (nonRevoked_create hcreate f id).mp hid with ⟨-, rfl⟩ | hid
      · exact hf (hr.consistent.known _ u hu)
      · exact hnone id hid

/-- A family dies only in an await that revokes it. -/
theorem revokes_of_dead_step {s s' : AuthState} {a : Action} {f : Uuid} (hr : Reached s)
    (hlive : ¬ Dead f s) (h : step s a = some s') (hd : Dead f s') : Revokes s f a := by
  have he := effect_of_step h
  obtain ⟨⟨u, hu⟩, hnone⟩ := hd
  rcases he.owned_origin hr.consistent hu with hown | ⟨newId, tokenHash, now, rfl, hfresh⟩
  · obtain ⟨id, hid⟩ : ∃ id, NonRevoked s.tokens f id := by
      by_contra hno
      exact hlive ⟨⟨u, hown⟩, fun id hid => hno ⟨id, hid⟩⟩
    have caught : ∀ p now, (∀ j, ¬ NonRevoked (revokeWhere s.tokens p now) f j) →
        ∀ j r, s.tokens.get? j = some r → r.familyId = f → r.revokedAt = none →
          p r = true := by
      intro p now hnone j r hget hf hn
      by_contra hp
      exact hnone j ((nonRevoked_revokeWhere _ _ _ _ _).mpr
        ⟨r, hget, hf, hn, Bool.eq_false_iff.mpr hp⟩)
    obtain ⟨r, hget, hf, hn⟩ := hid
    cases he with
    | refused | read | rolledBack | issueRefused =>
        exact absurd ⟨r, hget, hf, hn⟩ (hnone id)
    | @rotated call newId newTokenHash issuedAt now existingId existing tokens hcall hrot =>
        exfalso
        have hnon := nonRevoked_rotate hrot (hr.consistent.isSome_row hcall) f
        by_cases hfam : existing.familyId = f
        · exact hnone newId ((hnon newId).mpr (.inl ⟨rfl, hfam⟩))
        · -- the predecessor is a token of another family
          refine hnone id ((hnon id).mpr (.inr ⟨?_, r, hget, hf, hn⟩))
          rintro rfl
          obtain ⟨r', hget', hfam', -⟩ := hr.consistent.exists_row hcall
          obtain rfl := Option.some.inj (hget.symm.trans hget')
          exact hfam (hfam'.symm.trans hf)
    | @reused call now familyId hcall =>
        have hfam := caught _ _ hnone id r hget hf hn
        rw [decide_eq_true_iff] at hfam
        rw [Revokes, hcall, ← hfam, hf]
    | loggedOut =>
        refine ⟨⟨id, r, hget, hf, hn⟩, fun j q hq hfq hnq => ?_⟩
        exact of_decide_eq_true (caught _ _ hnone j q hq hfq hnq)
    | loggedOutAll =>
        exact ⟨id, r, hget, hf, of_decide_eq_true (caught _ _ hnone id r hget hf hn)⟩
    | issued hfresh hcreate =>
        exact absurd ((nonRevoked_create hcreate f id).mpr (.inr ⟨r, hget, hf, hn⟩)) (hnone id)
  · exfalso
    cases he with
    | issued _ hcreate =>
        exact hnone newId ((nonRevoked_create hcreate f newId).mpr (.inl ⟨rfl, rfl⟩))
    | issueRefused => exact hfresh (hr.consistent.known f u hu)

/-- A dead family was revoked by one of the awaits of the run. -/
theorem exists_revocation {as : List Action} {s s' : AuthState} {f : Uuid}
    (hr : Reached s) (hlive : ¬ Dead f s) (run : Run step s as s') (hd : Dead f s') :
    ∃ bs a cs t u, bs ++ a :: cs = as ∧ Run step s bs t ∧ Revokes t f a ∧
      step t a = some u ∧ Run step u cs s' := by
  induction run with
  | nil => exact absurd hd hlive
  | @snoc t u as a run h ih =>
      by_cases hdt : Dead f t
      · obtain ⟨bs, b, cs, t', u', rfl, hbs, hrev, hstep, hcs⟩ := ih hdt
        exact ⟨bs, b, cs ++ [a], t', u', by simp, hbs, hrev, hstep, hcs.snoc h⟩
      · have hrev := revokes_of_dead_step (reached_of_run hr run) hdt h hd
        exact ⟨as, a, [], t, u, rfl, run, hrev, h, .nil u⟩

/-- Along every run from the empty table, revocations are final exactly when each
rotation commits while the family of its token has a non-revoked one. -/
theorem revocationFinal_iff (as : List Action) :
    RevocationFinal (.ofTable Table.empty) as ↔
      AllSteps step RotatesLiveFamily (.ofTable Table.empty) as := by
  constructor
  · intro hfinal bs a t hb hbs
    cases a with
    | rotate call newId newTokenHash issuedAt now =>
        intro id existing hcall hu
        have hrt := reached_of_run reached_empty hbs
        by_contra hno
        -- the family is dead, so an earlier await of the run has revoked it
        obtain ⟨r, hget, hfam, huser⟩ := hrt.consistent.exists_row hcall
        have hdead : Dead existing.familyId t :=
          ⟨⟨r.userId, id, r, hget, hfam, rfl⟩, fun j hj => hno ⟨j, hj⟩⟩
        have hlive : ¬ Dead existing.familyId (.ofTable Table.empty) := by
          rintro ⟨⟨u, j, q, hq, -⟩, -⟩
          cases hq
        obtain ⟨ds, b, cs, v, w, rfl, hds, hrev, hstep, hcs⟩ :=
          exists_revocation reached_empty hlive hbs hdead
        obtain ⟨tokens, hrot⟩ := rotate_of_unused
          (successorOf existing newTokenHash issuedAt) now hu (hrt.consistent.isSome_row hcall)
        have hlast : step t (.rotate call newId newTokenHash issuedAt now) =
            some { t with tokens := tokens, inFlight := t.inFlight.eraseIdx call } := by
          simp only [step, hcall, hrot, Option.getD_some]
        refine hfinal ds b (cs ++ [_]) v w _ _ ?_ hds hrev hstep (hcs.snoc hlast) newId ?_
        · simpa using hb
        · exact (nonRevoked_rotate hrot (hrt.consistent.isSome_row hcall) _ _).mpr
            (.inl ⟨rfl, rfl⟩)
    | find | reuse | logout | revokeAll | issue => trivial
  · intro hg bs a cs t u v f hb hbs hrev hstep hcs
    have hrt := reached_of_run reached_empty hbs
    have hbsa : Run step (.ofTable Table.empty) (bs ++ [a]) u := hbs.snoc hstep
    have hwhole : AllSteps step RotatesLiveFamily (.ofTable Table.empty) ((bs ++ [a]) ++ cs) := by
      rw [List.append_assoc]
      exact hg.shorten hb
    have htail : AllSteps step RotatesLiveFamily u cs := hwhole.tail hbsa
    have hdead : Reached v ∧ Dead f v :=
      hcs.guarded (P := fun s => Reached s ∧ Dead f s)
        (fun _ _ _ hp hga h => ⟨hp.1.step h, dead_step hp.1 hp.2 hga h⟩)
        ⟨hrt.step hstep, dead_of_revokes hrt hrev hstep⟩ htail
    exact hdead.2.2

/-- A rotation that read its token before the user logged out everywhere. -/
def refreshAcrossLogoutAll : List Action :=
  [.issue 5 1 10 7 0, .find 10 0, .revokeAll 5 1, .rotate 0 2 20 0 2]

/-- The successor of a token survives the revocation of all tokens of its user. -/
theorem refreshAcrossLogoutAll_breaks_final :
    ¬ ∀ as : List Action, RevocationFinal (.ofTable Table.empty) as := by
  intro hall
  obtain ⟨s, hs⟩ : ∃ s, exec step (.ofTable Table.empty) refreshAcrossLogoutAll = some s :=
    ⟨_, rfl⟩
  obtain ⟨t, ht⟩ : ∃ t, exec step (.ofTable Table.empty)
      [.issue 5 1 10 7 0, .find 10 0] = some t := ⟨_, rfl⟩
  have hown : Owned t.tokens 7 5 := by
    cases ht
    exact ⟨1, _, rfl, rfl, rfl⟩
  have hnew : NonRevoked s.tokens 7 2 := by
    cases hs
    exact ⟨_, rfl, rfl, rfl⟩
  have hrest : Run step { t with tokens := revokeAllByUserId t.tokens 5 1 }
      [.rotate 0 2 20 0 2] s := by
    cases ht
    exact run_of_exec hs
  exact hall refreshAcrossLogoutAll
    [.issue 5 1 10 7 0, .find 10 0] (.revokeAll 5 1) [.rotate 0 2 20 0 2] t _ s 7
    (List.prefix_refl _) (run_of_exec ht) hown rfl hrest 2 hnew

end SyncBoard.Auth
