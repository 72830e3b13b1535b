import SyncBoard.Document.EditorSync

/-!
# Which edits reach the server

An editor emits an update once, when it makes it, and only while its socket is
connected; the handshake of a reconnect carries updates from the server to the
editor and not back. So every update has one place at a time (`Place`), and one
that was made offline, or whose only message was dropped or refused by the guard,
has none.
-/

namespace SyncBoard.Document

open Labelled Realtime

/-- Every editor is connected and has processed `doc:joined`, and no message is
in flight. -/
structure Quiescent {ι U : Type} (s : SyncState ι U) : Prop where
  connected : ∀ c, (s.editors c).connected = true
  joined : ∀ c, (s.editors c).joined = true
  up : ∀ c, (s.editors c).up = []
  down : ∀ c, (s.editors c).down = []
  late : s.late = ∅

/-- The server has every update, and all replicas are equal. -/
structure Converged {ι U : Type} (s : SyncState ι U) : Prop where
  server : s.made ⊆ s.server
  equal : ∀ c, (s.editors c).ydoc = s.server

/-- Edits are made while connected, the guard lets every update through, and no late update is
dropped. -/
def Sent {ι U : Type} (s : SyncState ι U) : SyncAction ι U → Prop
  | .edit c _ => (s.editors c).connected = true
  | .handle c call =>
      ∀ u, (s.editors c).up.head? = some (.update u) → s.admits c (.update u) call = true
  | .dropLate _ => False
  | _ => True

/-- Where an update is on its way to the server. -/
inductive Place (ι : Type)
  | unmade
  | uplink (c : ι)
  | late
  | server
  | lost

variable {ι U : Type}

/-- The queues, the late updates and the server hold each update in its place. -/
structure Located (s : SyncState ι U) (place : U → Place ι) : Prop where
  made : ∀ u, u ∈ s.made ↔ place u ≠ .unmade
  uplink : ∀ c u, u ∈ pending (s.editors c).up ↔ place u = .uplink c
  nodup : ∀ c, (pending (s.editors c).up).Nodup
  late : ∀ u, u ∈ s.late ↔ place u = .late
  server : ∀ u, u ∈ s.server ↔ place u = .server

theorem Located.of_eq {s s' : SyncState ι U} {place : U → Place ι} (hl : Located s place)
    (hmade : s'.made = s.made) (hlate : s'.late = s.late) (hserver : s'.server = s.server)
    (hup : ∀ c, pending (s'.editors c).up = pending (s.editors c).up) : Located s' place where
  made := hmade ▸ hl.made
  uplink c := hup c ▸ hl.uplink c
  nodup c := hup c ▸ hl.nodup c
  late := hlate ▸ hl.late
  server := hserver ▸ hl.server

variable [DecidableEq U]

/-- The server handles an update, which leaves the place where it was. -/
theorem Located.handleUpdate {s t : SyncState ι U} {place : U → Place ι} (hl : Located s place)
    {u : U} (hu : place u ≠ .unmade) (hmade : t.made = s.made) (hserver : t.server = s.server)
    (hlate : ∀ v, v ∈ t.late ↔ v ∈ s.late ∧ v ≠ u)
    (hup : ∀ c, pending (t.editors c).up = (pending (s.editors c).up).erase u) (p : ι → Bool) :
    Located (t.handleUpdate p u) (Function.update place u .server) where
  made v := by
    rw [SyncState.handleUpdate_made, hmade, hl.made]
    by_cases hv : v = u
    · subst hv
      simp [hu]
    · simp [hv]
  uplink c v := by
    rw [SyncState.handleUpdate_up, hup, (hl.nodup c).mem_erase_iff, hl.uplink]
    by_cases hv : v = u <;> simp [hv]
  nodup c := by
    rw [SyncState.handleUpdate_up, hup]
    exact (hl.nodup c).erase u
  late v := by
    rw [SyncState.handleUpdate_late, hlate, hl.late]
    by_cases hv : v = u <;> simp [hv]
  server v := by
    rw [SyncState.handleUpdate_server, hserver, Finset.mem_insert, hl.server]
    by_cases hv : v = u <;> simp [hv]

/-- An update on its way is dropped. -/
theorem Located.lose {s t : SyncState ι U} {place : U → Place ι} (hl : Located s place)
    {u : U} (hu : place u ≠ .unmade) (hother : place u ≠ .server) (hmade : t.made = s.made)
    (hserver : t.server = s.server) (hlate : ∀ v, v ∈ t.late ↔ v ∈ s.late ∧ v ≠ u)
    (hup : ∀ c, pending (t.editors c).up = (pending (s.editors c).up).erase u) :
    Located t (Function.update place u .lost) where
  made v := by
    rw [hmade, hl.made]
    by_cases hv : v = u
    · subst hv
      simp [hu]
    · simp [hv]
  uplink c v := by
    rw [hup, (hl.nodup c).mem_erase_iff, hl.uplink]
    by_cases hv : v = u <;> simp [hv]
  nodup c := by
    rw [hup]
    exact (hl.nodup c).erase u
  late v := by
    rw [hlate, hl.late]
    by_cases hv : v = u <;> simp [hv]
  server v := by
    rw [hserver, hl.server]
    by_cases hv : v = u
    · subst hv
      simp [hother]
    · simp [hv]

theorem lost_of_update {place : U → Place ι} {u : U} {q : Place ι}
    (hq : q ≠ .lost) (hu : place u ≠ .lost) :
    (∃ v, Function.update place u q v = .lost) ↔ ∃ v, place v = .lost := by
  constructor
  · rintro ⟨v, hv⟩
    by_cases h : v = u
    · subst h
      exact absurd (by simpa using hv) hq
    · exact ⟨v, by simpa [h] using hv⟩
  · rintro ⟨v, hv⟩
    have h : v ≠ u := by
      rintro rfl
      exact hu hv
    exact ⟨v, by simpa [h] using hv⟩

variable [DecidableEq ι]

theorem Located.edit {s : SyncState ι U} {place : U → Place ι} (hl : Located s place) {c : ι}
    {u : U} (hu : u ∉ s.made) :
    Located (s.edit c u) (Function.update place u
      (if (s.editors c).connected then .uplink c else .lost)) := by
  have hfresh : place u = .unmade := by
    by_contra h
    exact hu ((hl.made u).mpr h)
  have hup : ∀ c', pending ((s.edit c u).editors c').up = pending (s.editors c').up ++
      if c' = c ∧ (s.editors c).connected = true then [u] else [] := by
    intro c'
    simp only [SyncState.edit, SyncState.setEditor_editors]
    by_cases hc : c' = c
    · subst hc
      cases (s.editors c').connected <;> simp
    · simp [hc]
  constructor
  · intro v
    simp only [SyncState.edit, Finset.mem_insert, hl.made]
    by_cases hv : v = u
    · subst hv
      cases (s.editors c).connected <;> simp
    · simp [hv]
  · intro c' v
    rw [hup, List.mem_append, hl.uplink]
    by_cases hv : v = u
    · subst hv
      cases (s.editors c).connected <;> simp [hfresh, eq_comm]
    · by_cases h : c' = c ∧ (s.editors c).connected = true <;> simp [hv, h]
  · intro c'
    have hnot : u ∉ pending (s.editors c').up := by
      rw [hl.uplink, hfresh]
      nofun
    rw [hup]
    split
    · exact List.Nodup.append (hl.nodup c') (List.nodup_singleton u) (by simpa using hnot)
    · simpa using hl.nodup c'
  · intro v
    by_cases hv : v = u
    · subst hv
      have hnot : v ∉ s.late := by simp [hl.late, hfresh]
      cases (s.editors c).connected <;> simpa [SyncState.edit, SyncState.setEditor] using hnot
    · simpa [SyncState.edit, SyncState.setEditor, hv] using hl.late v
  · intro v
    by_cases hv : v = u
    · subst hv
      have hnot : v ∉ s.server := by simp [hl.server, hfresh]
      cases (s.editors c).connected <;> simpa [SyncState.edit, SyncState.setEditor] using hnot
    · simpa [SyncState.edit, SyncState.setEditor, hv] using hl.server v

theorem Located.disconnect {s : SyncState ι U} {place : U → Place ι} (hl : Located s place)
    (c : ι) : ∃ place' : U → Place ι, Located (s.disconnect c) place' ∧
      ∀ u, place' u = .lost ↔ place u = .lost := by
  classical
  refine ⟨fun u => if u ∈ pending (s.editors c).up then .late else place u, ?_, ?_⟩
  · have hup : ∀ c', pending ((s.disconnect c).editors c').up =
        if c' = c then [] else pending (s.editors c').up := by
      intro c'
      simp only [SyncState.disconnect, SyncState.setEditor_editors]
      split <;> rfl
    have hother : ∀ c' u, u ∈ pending (s.editors c).up → c' ≠ c →
        u ∉ pending (s.editors c').up := by
      intro c' u hu hc hu'
      have heq := ((hl.uplink c u).mp hu).symm.trans ((hl.uplink c' u).mp hu')
      exact hc (Place.uplink.inj heq).symm
    constructor
    · intro u
      split
      · rename_i hu
        simp [SyncState.disconnect, SyncState.setEditor, hl.made, (hl.uplink c u).mp hu]
      · exact hl.made u
    · intro c' u
      rw [hup]
      by_cases hc : c' = c
      · subst hc
        by_cases hu : u ∈ pending (s.editors c').up
        · simp [hu]
        · simpa [hu] using fun h => hu ((hl.uplink c' u).mpr h)
      · by_cases hu : u ∈ pending (s.editors c).up
        · simp [hu, hc, hother c' u hu hc]
        · simp [hu, hc, hl.uplink]
    · intro c'
      rw [hup]
      split
      · exact List.nodup_nil
      · exact hl.nodup c'
    · intro u
      have hlate : u ∈ (s.disconnect c).late ↔ u ∈ s.late ∨ u ∈ pending (s.editors c).up := by
        simp [SyncState.disconnect]
      rw [hlate, hl.late]
      by_cases hu : u ∈ pending (s.editors c).up <;> simp [hu]
    · intro u
      by_cases hu : u ∈ pending (s.editors c).up
      · have hne : u ∉ s.server := by simp [hl.server, (hl.uplink c u).mp hu]
        simpa [hu] using (show u ∉ (s.disconnect c).server from hne)
      · simpa [hu] using (show u ∈ (s.disconnect c).server ↔ _ from hl.server u)
  · intro u
    by_cases hu : u ∈ pending (s.editors c).up
    · simp [hu, (hl.uplink c u).mp hu]
    · simp [hu]

/-- The head of an editor's uplink, an update, is there alone, and is taken off. -/
theorem Located.takeHead {s : SyncState ι U} {place : U → Place ι} (hl : Located s place)
    {c : ι} {u : U} {up : List (Uplink U)} (hup : (s.editors c).up = .update u :: up) :
    place u = .uplink c ∧ (∀ v, v ∈ s.late ↔ v ∈ s.late ∧ v ≠ u) ∧
      ∀ j, pending ((s.setEditor c { s.editors c with up }).editors j).up =
        (pending (s.editors j).up).erase u := by
  have hplace : place u = .uplink c := (hl.uplink c u).mp (by simp [hup])
  refine ⟨hplace, fun v => ?_, fun j => ?_⟩
  · have hne : v ∈ s.late → v ≠ u := by
      rintro hv rfl
      simp [hl.late, hplace] at hv
    exact ⟨fun hv => ⟨hv, hne hv⟩, fun hv => hv.1⟩
  · rw [SyncState.setEditor_editors]
    split
    · rename_i hj
      simp [hj, hup]
    · rename_i hj
      refine (List.erase_of_not_mem ?_).symm
      rw [hl.uplink, hplace]
      exact fun heq => hj (Place.uplink.inj heq).symm

omit [DecidableEq ι] in
/-- A late update is there alone, and is taken off. -/
theorem Located.takeLate {s : SyncState ι U} {place : U → Place ι} (hl : Located s place)
    {u : U} (hu : u ∈ s.late) :
    place u = .late ∧ (∀ v, v ∈ s.late.erase u ↔ v ∈ s.late ∧ v ≠ u) ∧
      ∀ c, pending (s.editors c).up = (pending (s.editors c).up).erase u := by
  have hplace : place u = .late := (hl.late u).mp hu
  refine ⟨hplace, fun v => ?_, fun c => ?_⟩
  · rw [Finset.mem_erase, and_comm]
  · refine (List.erase_of_not_mem ?_).symm
    rw [hl.uplink, hplace]
    nofun

omit [DecidableEq ι] in
/-- An edit is lost exactly when its editor is offline. -/
theorem Located.edit_lost {s : SyncState ι U} {place : U → Place ι} (hl : Located s place)
    {c : ι} {u : U} (hu : u ∉ s.made) :
    (∃ v, Function.update place u
        (if (s.editors c).connected then Place.uplink c else .lost) v = .lost) ↔
      (∃ v, place v = .lost) ∨ (s.editors c).connected = false := by
  have hfresh : place u = .unmade := by
    by_contra hne
    exact hu ((hl.made u).mpr hne)
  cases hconn : (s.editors c).connected with
  | true =>
      have hlost := lost_of_update (q := Place.uplink c) nofun
        (show place u ≠ .lost by simp [hfresh])
      simp [hlost]
  | false =>
      simp only [Bool.false_eq_true, if_false, or_true, iff_true]
      exact ⟨u, by simp⟩

omit [DecidableEq U] in
theorem pending_setEditor {s : SyncState ι U} {c : ι} {e : Editor U}
    (he : pending e.up = pending (s.editors c).up) (j : ι) :
    pending ((s.setEditor c e).editors j).up = pending (s.editors j).up := by
  rw [SyncState.setEditor_editors]
  split
  · rename_i hj
    exact hj ▸ he
  · rfl

/-- One action moves each update to its next place; the actions that are not
`Sent` are those that lose one. -/
theorem Located.step {s s' : SyncState ι U} {place : U → Place ι} (hl : Located s place)
    {a : SyncAction ι U} (h : s.step a = some s') :
    ∃ place' : U → Place ι, Located s' place' ∧
      ((∃ u, place' u = .lost) ↔ (∃ u, place u = .lost) ∨ ¬ Sent s a) := by
  have unmoved : Sent s a → s'.made = s.made → s'.late = s.late → s'.server = s.server →
      (∀ c, pending (s'.editors c).up = pending (s.editors c).up) →
      ∃ place' : U → Place ι, Located s' place' ∧
        ((∃ u, place' u = .lost) ↔ (∃ u, place u = .lost) ∨ ¬ Sent s a) :=
    fun hsent hmade hlate hserver hup =>
      ⟨place, hl.of_eq hmade hlate hserver hup, by simp [hsent]⟩
  have toServer : ∀ {u : U}, place u ≠ .lost →
      ((∃ v, Function.update place u Place.server v = .lost) ↔ ∃ v, place v = .lost) :=
    fun hu => lost_of_update nofun hu
  cases a with
  | edit c u =>
      simp only [SyncState.step] at h
      split at h
      · cases h
      · rename_i hu
        cases h
        refine ⟨_, hl.edit hu, ?_⟩
        rw [hl.edit_lost hu, Sent, Bool.not_eq_true]
  | connect c =>
      simp only [SyncState.step] at h
      split at h
      · cases h
      · cases h
        exact unmoved trivial rfl rfl rfl (pending_setEditor (by simp))
  | disconnect c =>
      simp only [SyncState.step] at h
      split at h
      · cases h
        obtain ⟨place', hl', hlost⟩ := hl.disconnect c
        exact ⟨place', hl', by simp [Sent, hlost]⟩
      · cases h
  | handle c call =>
      simp only [SyncState.step, SyncState.handle] at h
      split at h
      · cases h
      · rename_i m up hup
        obtain rfl := Option.some.inj h
        cases m with
        | join stateVector =>
            have hsent : Sent s (.handle c call) := by
              intro u hhead
              rw [hup] at hhead
              cases hhead
            have hpending : ∀ session, pending
                ({ s.editors c with up := up, session := session } : Editor U).up =
                  pending (s.editors c).up := fun _ => by simp [hup]
            apply unmoved hsent
            · split <;> rfl
            · split <;> rfl
            · split <;> rfl
            · intro j
              split
              · rw [SyncState.handler, pending_setEditor]
                · exact pending_setEditor (hpending _) j
                · rfl
              · exact pending_setEditor (hpending _) j
        | update u =>
            obtain ⟨hplace, hlate, htaken⟩ := hl.takeHead hup
            have hlost : place u ≠ .lost := by simp [hplace]
            have hhead : Sent s (.handle c call) ↔ s.admits c (.update u) call = true := by
              simp [Sent, hup]
            cases hadmits : s.admits c (.update u) call with
            | true =>
                refine ⟨_, hl.handleUpdate (t := { s.setEditor c { s.editors c with up } with
                  limits := (s.guard c (.update u) call).2 })
                  (by simp [hplace]) rfl rfl hlate htaken _, ?_⟩
                simp [hhead, hadmits, toServer hlost]
            | false =>
                refine ⟨_, hl.lose (by simp [hplace]) (by simp [hplace]) rfl rfl hlate htaken, ?_⟩
                simp only [hhead, hadmits, Bool.false_eq_true, not_false_eq_true, or_true, iff_true]
                exact ⟨u, by simp⟩
  | denyJoin c =>
      simp only [SyncState.step, SyncState.denyJoin] at h
      split at h
      · cases h
        exact unmoved trivial rfl rfl rfl (pending_setEditor rfl)
      · cases h
  | enterRoom c =>
      simp only [SyncState.step, SyncState.enterRoom] at h
      split at h
      · cases h
        exact unmoved trivial rfl rfl rfl (pending_setEditor rfl)
      · cases h
  | ack c =>
      simp only [SyncState.step, SyncState.ack] at h
      split at h
      · cases h
        exact unmoved trivial rfl rfl rfl (pending_setEditor rfl)
      · cases h
  | receive c =>
      simp only [SyncState.step, SyncState.receive] at h
      split at h
      · cases h
      · cases h
        exact unmoved trivial rfl rfl rfl (pending_setEditor rfl)
      · cases h
        exact unmoved trivial rfl rfl rfl (pending_setEditor rfl)
  | saved =>
      cases h
      refine unmoved trivial rfl rfl rfl fun c => ?_
      rw [SyncState.relay_editors]
  | elsewhere limits =>
      cases h
      exact unmoved trivial rfl rfl rfl fun _ => rfl
  | deliverLate u =>
      simp only [SyncState.step] at h
      split at h
      · rename_i hu
        cases h
        obtain ⟨hplace, hlate, htaken⟩ := hl.takeLate hu
        refine ⟨_, hl.handleUpdate (t := { s with late := s.late.erase u })
          (by simp [hplace]) rfl rfl hlate htaken _, ?_⟩
        simp [Sent, toServer (show place u ≠ .lost by simp [hplace])]
      · cases h
  | dropLate u =>
      simp only [SyncState.step] at h
      split at h
      · rename_i hu
        cases h
        obtain ⟨hplace, hlate, htaken⟩ := hl.takeLate hu
        refine ⟨_, hl.lose (by simp [hplace]) (by simp [hplace]) rfl rfl hlate htaken, ?_⟩
        simp only [Sent, not_false_eq_true, or_true, iff_true]
        exact ⟨u, by simp⟩
      · cases h

/-- An editor against the server's document and the updates made so far. -/
structure EditorOk (server made : Finset U) (e : Editor U) : Prop where
  ydoc : e.ydoc ⊆ made
  down : ∀ m ∈ e.down, m.updates ⊆ made
  own : ∀ u ∈ pending e.up, u ∈ e.ydoc
  offline : e.connected = false → e.up = []
  asked : ∀ sv, Uplink.join sv ∈ e.up → sv ⊆ e.ydoc ∧ e.session = .none
  first : ∀ sv, Uplink.join sv ∉ e.up.tail
  checked : ∀ sv, e.session = .checking sv ∨ e.session = .inRoom sv → sv ⊆ e.ydoc
  joined : e.joined = true → e.session = .acked
  answered : ∀ state, Downlink.joined state ∈ e.down → e.session = .acked
  complete : e.session = .acked → ∀ u ∈ server, u ∈ e.ydoc ∨ ∃ m ∈ e.down, u ∈ m.updates

section Editor
variable {server made : Finset U} {e : Editor U}

omit [DecidableEq U] [DecidableEq ι] in
theorem EditorOk.initial (server : Finset U) : EditorOk server server ({} : Editor U) := by
  constructor <;> simp

omit [DecidableEq U] in
theorem EditorOk.mono (ho : EditorOk server made e) {made' : Finset U} (h : made ⊆ made') :
    EditorOk server made' e :=
  { ho with
    ydoc := ho.ydoc.trans h
    down := fun m hm => (ho.down m hm).trans h }

theorem EditorOk.edit (ho : EditorOk server made e) (u : U) :
    EditorOk server (insert u made) { e with
      ydoc := insert u e.ydoc
      up := if e.connected then e.up ++ [.update u] else e.up } where
  ydoc := Finset.insert_subset_insert u ho.ydoc
  down m hm := (ho.down m hm).trans (Finset.subset_insert u made)
  own v hv := by
    have hold : v ∈ pending e.up ∨ v = u := by
      cases hconn : e.connected <;> simp_all
    rcases hold with hold | rfl
    · exact Finset.mem_insert_of_mem (ho.own v hold)
    · exact Finset.mem_insert_self v _
  offline h := by
    have hoff : e.connected = false := h
    simpa [hoff] using ho.offline hoff
  asked sv hsv := by
    have hold : Uplink.join sv ∈ e.up := by
      cases hconn : e.connected <;> simp_all
    exact ⟨(ho.asked sv hold).1.trans (Finset.subset_insert u _), (ho.asked sv hold).2⟩
  first sv := by
    have hfirst := ho.first sv
    cases hconn : e.connected with
    | false => simpa using hfirst
    | true => cases hup : e.up <;> simp_all
  checked sv hsv := (ho.checked sv hsv).trans (Finset.subset_insert u _)
  joined := ho.joined
  answered := ho.answered
  complete hacked v hv := (ho.complete hacked v hv).imp_left Finset.mem_insert_of_mem

omit [DecidableEq U] in
theorem EditorOk.connect (ho : EditorOk server made e) (hoff : e.connected = false) :
    EditorOk server made { e with
      connected := true, joined := false, session := .none
      up := e.up ++ [.join e.ydoc], down := [] } where
  ydoc := ho.ydoc
  down := by simp
  own u hu := ho.own u (by simpa using hu)
  offline := nofun
  asked sv hsv := by
    obtain rfl : sv = e.ydoc := by simpa [ho.offline hoff] using hsv
    exact ⟨Finset.Subset.refl _, rfl⟩
  first sv := by simp [ho.offline hoff]
  checked := by simp
  joined := by simp
  answered := by simp
  complete := by simp

omit [DecidableEq U] in
theorem EditorOk.disconnect (ho : EditorOk server made e) :
    EditorOk server made { e with
      connected := false, joined := false, session := .none, up := [], down := [] } := by
  refine ⟨ho.ydoc, ?_, ?_, ?_, ?_, ?_, ?_, ?_, ?_, ?_⟩ <;> simp

omit [DecidableEq U] in
/-- The server takes a message off the queue. -/
theorem EditorOk.dequeue (ho : EditorOk server made e) {m : Uplink U} {up : List (Uplink U)}
    (hup : e.up = m :: up) : EditorOk server made { e with up } :=
  { ho with
    own := fun u hu => ho.own u (by
      rw [hup]
      cases m <;> simp [hu])
    offline := fun h => by simp [ho.offline h] at hup
    asked := fun sv hsv => ho.asked sv (by simp [hup, hsv])
    first := fun sv hsv => ho.first sv (by
      rw [hup]
      exact List.mem_of_mem_tail hsv) }

omit [DecidableEq U] in
/-- The server takes `handleJoin` a step further, short of the answer. -/
theorem EditorOk.setSession (ho : EditorOk server made e) {session : Session U}
    (hnew : session ≠ .acked) (hold : e.session ≠ .acked)
    (hasked : ∀ sv, Uplink.join sv ∉ e.up)
    (hsv : ∀ sv, session = .checking sv ∨ session = .inRoom sv → sv ⊆ e.ydoc) :
    EditorOk server made { e with session } :=
  { ho with
    asked := fun sv h => absurd h (hasked sv)
    checked := hsv
    joined := fun h => absurd (ho.joined h) hold
    answered := fun state h => absurd (ho.answered state h) hold
    complete := fun h => absurd h hnew }

theorem EditorOk.ack (ho : EditorOk server made e) {sv : Finset U} (hserver : server ⊆ made)
    (hsession : e.session = .inRoom sv) :
    EditorOk server made { e with
      session := .acked, down := e.down ++ [.joined (server \ sv)] } where
  ydoc := ho.ydoc
  down m hm := by
    rcases List.mem_append.mp hm with hm | hm
    · exact ho.down m hm
    · obtain rfl := List.mem_singleton.mp hm
      exact Finset.sdiff_subset.trans hserver
  own := ho.own
  offline := ho.offline
  asked sv' h := by
    have hnone := (ho.asked sv' h).2
    simp [hsession] at hnone
  first := ho.first
  checked := by simp
  joined _ := rfl
  answered _ _ := rfl
  complete _ u hu := by
    by_cases hsv : u ∈ sv
    · exact .inl (ho.checked sv (.inr hsession) hsv)
    · exact .inr ⟨.joined (server \ sv), by simp, by simp [Downlink.updates, hu, hsv]⟩

/-- The editor merges a message. -/
theorem EditorOk.receive (ho : EditorOk server made e) {m : Downlink U}
    {down : List (Downlink U)} (hdown : e.down = m :: down) {joined : Bool}
    (hjoined : joined = true → e.session = .acked) :
    EditorOk server made { e with ydoc := e.ydoc ∪ m.updates, joined, down } where
  ydoc := Finset.union_subset ho.ydoc (ho.down m (by simp [hdown]))
  down m' hm' := ho.down m' (by simp [hdown, hm'])
  own u hu := Finset.mem_union_left _ (ho.own u hu)
  offline := ho.offline
  asked sv hsv := ⟨(ho.asked sv hsv).1.trans Finset.subset_union_left, (ho.asked sv hsv).2⟩
  first := ho.first
  checked sv hsv := (ho.checked sv hsv).trans Finset.subset_union_left
  joined := hjoined
  answered state h := ho.answered state (by simp [hdown, h])
  complete hacked u hu := by
    rcases ho.complete hacked u hu with hold | ⟨m', hm', hu'⟩
    · exact .inl (Finset.mem_union_left _ hold)
    · rw [hdown] at hm'
      rcases List.mem_cons.mp hm' with rfl | hm'
      · exact .inl (Finset.mem_union_right _ hu')
      · exact .inr ⟨m', hm', hu'⟩

omit [DecidableEq U] in
/-- The server's document grows by updates that the editor has or is sent. -/
theorem EditorOk.relay (ho : EditorOk server made e) {us server' : Finset U} (hus : us ⊆ made)
    (hserver : ∀ u ∈ server', u ∈ server ∨ u ∈ us) {sent : Bool}
    (hsent : sent = false → us ⊆ e.ydoc) :
    EditorOk server' made { e with
      down := e.down ++ if e.session.InRoom && sent then [.update us] else [] } where
  ydoc := ho.ydoc
  down m hm := by
    rcases List.mem_append.mp hm with hm | hm
    · exact ho.down m hm
    · split at hm
      · obtain rfl := List.mem_singleton.mp hm
        exact hus
      · cases hm
  own := ho.own
  offline := ho.offline
  asked := ho.asked
  first := ho.first
  checked := ho.checked
  joined := ho.joined
  answered state h := by
    rcases List.mem_append.mp h with h | h
    · exact ho.answered state h
    · split at h <;> simp at h
  complete hsession u hu := by
    have hacked : e.session = .acked := hsession
    rcases hserver u hu with hold | hnew
    · rcases ho.complete hacked u hold with h | ⟨m, hm, h⟩
      · exact .inl h
      · exact .inr ⟨m, List.mem_append_left _ hm, h⟩
    · cases sent with
      | false => exact .inl (hsent rfl hnew)
      | true => exact .inr ⟨.update us, by simp [hacked, Session.InRoom], hnew⟩

end Editor

structure Synced (s : SyncState ι U) : Prop where
  server : s.server ⊆ s.made
  late : s.late ⊆ s.made
  editors : ∀ c, EditorOk s.server s.made (s.editors c)

omit [DecidableEq U] in
theorem Synced.setEditor {s : SyncState ι U} (hs : Synced s) {c : ι} {e : Editor U}
    (he : EditorOk s.server s.made e) : Synced (s.setEditor c e) where
  server := hs.server
  late := hs.late
  editors j := by
    rw [SyncState.setEditor_editors]
    split
    · exact he
    · exact hs.editors j

omit [DecidableEq ι] in
theorem Synced.handleUpdate {s : SyncState ι U} (hs : Synced s) {u : U} (hu : u ∈ s.made)
    {p : ι → Bool} (hp : ∀ c, p c = false → u ∈ (s.editors c).ydoc) :
    Synced (s.handleUpdate p u) where
  server := Finset.insert_subset hu hs.server
  late := hs.late
  editors c := by
    rw [SyncState.handleUpdate, SyncState.relay_editors]
    apply (hs.editors c).relay (Finset.singleton_subset_iff.mpr hu)
    · intro v hv
      rw [Finset.mem_singleton]
      exact (Finset.mem_insert.mp hv).symm
    · intro hpc
      exact Finset.singleton_subset_iff.mpr (hp c hpc)

theorem Synced.edit {s : SyncState ι U} (hs : Synced s) (c : ι) (u : U) :
    Synced (s.edit c u) where
  server := hs.server.trans (Finset.subset_insert u _)
  late := hs.late.trans (Finset.subset_insert u _)
  editors j := by
    rw [show (s.edit c u).editors j = _ from SyncState.setEditor_editors s c _ j]
    by_cases hj : j = c
    · rw [if_pos hj]
      exact (hs.editors c).edit u
    · rw [if_neg hj]
      exact (hs.editors j).mono (Finset.subset_insert u _)

theorem Synced.disconnect {s : SyncState ι U} (hs : Synced s) (c : ι) :
    Synced (s.disconnect c) where
  server := hs.server
  late := by
    refine Finset.union_subset hs.late fun u hu => ?_
    have hown := (hs.editors c).own u (List.mem_toFinset.mp hu)
    exact (hs.editors c).ydoc hown
  editors j := by
    simp only [SyncState.disconnect, SyncState.setEditor_editors]
    split
    · exact (hs.editors c).disconnect
    · exact hs.editors j

omit [DecidableEq U] [DecidableEq ι] in
theorem Synced.setLimits {s : SyncState ι U} (hs : Synced s) (limits : RedisSets) :
    Synced { s with limits } :=
  ⟨hs.server, hs.late, hs.editors⟩

theorem Synced.handle {s s' : SyncState ι U} (hs : Synced s) {c : ι}
    {call : Option RateLimitCall} (h : s.handle c call = some s') : Synced s' := by
  have ho := hs.editors c
  simp only [SyncState.handle] at h
  split at h
  · cases h
  · rename_i m up hup
    obtain rfl := Option.some.inj h
    have htaken : Synced { s.setEditor c { s.editors c with up } with
        limits := (s.guard c m call).2 } :=
      (hs.setEditor (ho.dequeue hup)).setLimits _
    have hself : (s.setEditor c { s.editors c with up }).editors c = { s.editors c with up } := by
      rw [SyncState.setEditor_editors, if_pos rfl]
    split
    · cases m with
      | join sv =>
          apply htaken.setEditor
          obtain ⟨hsv, hnone⟩ := ho.asked sv (by simp [hup])
          rw [hself]
          refine (ho.dequeue hup).setSession nofun (by simp [hnone]) ?_ ?_
          · intro sv' hmem
            exact ho.first sv' (by simpa [hup] using hmem)
          · intro sv' hsv'
            obtain rfl : sv = sv' := by simpa using hsv'
            exact hsv
      | update u =>
          have hu : u ∈ (s.editors c).ydoc := ho.own u (by simp [hup])
          apply htaken.handleUpdate (ho.ydoc hu)
          intro j hj
          obtain rfl : j = c := by simpa using hj
          rw [hself]
          exact hu
    · exact htaken

theorem Synced.step {s s' : SyncState ι U} (hs : Synced s) {a : SyncAction ι U}
    (h : s.step a = some s') : Synced s' := by
  cases a with
  | edit c u =>
      simp only [SyncState.step] at h
      split at h
      · cases h
      · cases h
        exact hs.edit c u
  | connect c =>
      simp only [SyncState.step] at h
      split at h
      · cases h
      · rename_i hoff
        cases h
        exact hs.setEditor ((hs.editors c).connect (Bool.eq_false_iff.mpr hoff))
  | disconnect c =>
      simp only [SyncState.step] at h
      split at h
      · cases h
        exact hs.disconnect c
      · cases h
  | handle c call => exact hs.handle h
  | denyJoin c =>
      simp only [SyncState.step, SyncState.denyJoin] at h
      split at h
      · rename_i sv hsession
        cases h
        apply hs.setEditor
        have ho := hs.editors c
        refine ho.setSession nofun (by simp [hsession]) ?_ (by simp)
        intro sv' hmem
        have hnone := (ho.asked sv' hmem).2
        simp [hsession] at hnone
      · cases h
  | enterRoom c =>
      simp only [SyncState.step, SyncState.enterRoom] at h
      split at h
      · rename_i sv hsession
        cases h
        apply hs.setEditor
        have ho := hs.editors c
        refine ho.setSession nofun (by simp [hsession]) ?_ ?_
        · intro sv' hmem
          have hnone := (ho.asked sv' hmem).2
          simp [hsession] at hnone
        · intro sv' hsv'
          obtain rfl : sv = sv' := by simpa using hsv'
          exact ho.checked sv (.inl hsession)
      · cases h
  | ack c =>
      simp only [SyncState.step, SyncState.ack] at h
      split at h
      · rename_i sv hsession
        cases h
        exact hs.setEditor ((hs.editors c).ack hs.server hsession)
      · cases h
  | receive c =>
      have ho := hs.editors c
      simp only [SyncState.step, SyncState.receive] at h
      split at h
      · cases h
      · rename_i state down hdown
        cases h
        exact hs.setEditor (ho.receive hdown fun _ => ho.answered state (by simp [hdown]))
      · rename_i us down hdown
        cases h
        exact hs.setEditor (ho.receive hdown ho.joined)
  | saved =>
      cases h
      refine ⟨hs.server, hs.late, fun c => ?_⟩
      rw [SyncState.relay_editors]
      exact (hs.editors c).relay hs.server (fun u hu => .inl hu) nofun
  | elsewhere limits =>
      cases h
      exact hs.setLimits limits
  | deliverLate u =>
      simp only [SyncState.step] at h
      split at h
      · rename_i hu
        cases h
        have hrest : Synced { s with late := s.late.erase u } :=
          ⟨hs.server, (Finset.erase_subset u _).trans hs.late, hs.editors⟩
        exact hrest.handleUpdate (hs.late hu) nofun
      · cases h
  | dropLate u =>
      simp only [SyncState.step] at h
      split at h
      · cases h
        exact ⟨hs.server, (Finset.erase_subset u _).trans hs.late, hs.editors⟩
      · cases h

/-- The server has loaded the document, and nobody is connected. -/
def SyncState.startup (user : ι → JsString) (doc : Finset U) : SyncState ι U where
  user := user
  server := doc
  made := doc

omit [DecidableEq ι] in
theorem located_startup (user : ι → JsString) (doc : Finset U) :
    Located (.startup user doc : SyncState ι U) fun u => if u ∈ doc then .server else .unmade := by
  constructor
  · intro u
    by_cases hu : u ∈ doc <;> simp [SyncState.startup, hu]
  · intro c u
    by_cases hu : u ∈ doc <;> simp [SyncState.startup, hu]
  · simp [SyncState.startup]
  · intro u
    by_cases hu : u ∈ doc <;> simp [SyncState.startup, hu]
  · intro u
    by_cases hu : u ∈ doc <;> simp [SyncState.startup, hu]

omit [DecidableEq U] [DecidableEq ι] in
theorem synced_startup (user : ι → JsString) (doc : Finset U) :
    Synced (.startup user doc : SyncState ι U) :=
  ⟨Finset.Subset.refl _, Finset.empty_subset _, fun _ => EditorOk.initial doc⟩

/-- Along a run every update has a place, and none is lost exactly when all
actions were `Sent`. -/
theorem exists_place {user : ι → JsString} {doc : Finset U} {as : List (SyncAction ι U)}
    {s : SyncState ι U} (run : Run SyncState.step (.startup user doc) as s) :
    ∃ place : U → Place ι, Located s place ∧
      ((∃ u, place u = .lost) ↔ ¬ AllSteps SyncState.step Sent (.startup user doc) as) := by
  induction run with
  | nil =>
      refine ⟨_, located_startup user doc, ?_⟩
      refine iff_of_false ?_ (not_not.mpr allSteps_nil)
      rintro ⟨u, hu⟩
      by_cases hd : u ∈ doc <;> simp [hd] at hu
  | snoc run h ih =>
      obtain ⟨place, hl, hlost⟩ := ih
      obtain ⟨place', hl', hlost'⟩ := hl.step h
      refine ⟨place', hl', ?_⟩
      rw [hlost', hlost, allSteps_snoc run, not_and_or]

/-- An event at a time of its own. -/
def eventAt (now : Nat) : Option RateLimitCall :=
  some { now, suffix := js "a" }

/-- The handshake of one editor, from `'connect'` to `doc:joined`. -/
def handshake {ι : Type} (c : ι) (now : Nat) : List (SyncAction ι Nat) :=
  [.connect c, .handle c (eventAt now), .enterRoom c, .ack c, .receive c]

/-- Two editors, one of which makes an edit while connected. -/
def onlineEdit : List (SyncAction Bool Nat) :=
  handshake true 1 ++ handshake false 2 ++
    [.edit true 1, .handle true (eventAt 3), .receive false]

/-- An editor that makes an edit between two connections. -/
def offlineEdit : List (SyncAction Unit Nat) :=
  handshake () 1 ++ [.disconnect (), .edit () 1] ++ handshake () 2

end SyncBoard.Document
