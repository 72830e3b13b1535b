import SyncBoard.Document.Gateway

/-!
# Who writes a document

`handleJoin` checks that the user of a socket is a member of the workspace.
`handleUpdate` checks neither that check nor the role of the user: it applies
and relays what it receives. So a document contains the updates of its editors
only as long as nobody else sends one.
-/

namespace SyncBoard.Document

open Labelled

/-- The joins that were acknowledged, the updates that joined editors sent to
each document, and the updates that were emitted to its room. -/
structure WriteLog (U : Type) where
  joined : SocketId → Finset Uuid := fun _ => ∅
  authorised : Uuid → Finset U
  relayed : Uuid → Finset U := fun _ => ∅

variable {U : Type}

/-- The hub and the handlers hold updates from `applied` only. -/
structure Confined (applied : Applied U) (s : GatewayState U) : Prop where
  wellFormed : WellFormed s.hub
  recorded : Recorded s.hub applied
  calls : ∀ socket d update load, Call.updateLoad socket d update load ∈ s.calls →
    update ⊆ applied d

section Confined
variable {applied : Applied U} {s : GatewayState U}

theorem Confined.of_eq {s' : GatewayState U} (hc : Confined applied s) (hhub : s'.hub = s.hub)
    (hcalls : s'.calls = s.calls) : Confined applied s' where
  wellFormed := hhub ▸ hc.wellFormed
  recorded := hhub ▸ hc.recorded
  calls := hcalls ▸ hc.calls

theorem Confined.mono (hc : Confined applied s) {applied' : Applied U}
    (h : ∀ d, applied d ⊆ applied' d) : Confined applied' s where
  wellFormed := hc.wellFormed
  recorded := hc.recorded.mono h
  calls socket d update load hmem := (hc.calls socket d update load hmem).trans (h d)

theorem Confined.pushCall (hc : Confined applied s) {c : Call U}
    (h : ∀ socket d update load, c = .updateLoad socket d update load → update ⊆ applied d) :
    Confined applied { s with calls := s.calls ++ [c] } where
  wellFormed := hc.wellFormed
  recorded := hc.recorded
  calls socket d update load hmem := by
    rcases List.mem_append.mp hmem with hmem | hmem
    · exact hc.calls socket d update load hmem
    · exact h socket d update load (List.mem_singleton.mp hmem).symm

theorem Confined.eraseCall (hc : Confined applied s) (call : Nat) :
    Confined applied { s with calls := s.calls.eraseIdx call } where
  wellFormed := hc.wellFormed
  recorded := hc.recorded
  calls socket d update load hmem :=
    hc.calls socket d update load (List.mem_of_mem_eraseIdx hmem)

theorem Confined.settleLoad (hc : Confined applied s) (documentId : Uuid) (load : LoadPromise) :
    Confined applied { s with calls := s.calls.map (Call.settleLoad documentId load) } where
  wellFormed := hc.wellFormed
  recorded := hc.recorded
  calls socket d update load' hmem := by
    obtain ⟨c, hc', heq⟩ := List.mem_map.mp hmem
    unfold Call.settleLoad at heq
    split at heq
    · cases heq
    · cases heq
      exact hc.calls _ _ _ _ hc'
    · subst heq
      exact hc.calls _ _ _ _ hc'

theorem Confined.joinRoom (hc : Confined applied s) (socket : SocketId) (d : Uuid) :
    Confined applied (s.joinRoom socket d) := by
  unfold GatewayState.joinRoom
  split
  · exact hc.of_eq rfl rfl
  · exact hc

variable [DecidableEq U]

/-- A step of the hub that applies no update. -/
theorem Confined.hubStep (hc : Confined applied s) {a : HubAction U} {hub : HubState U}
    (h : s.hub.step a = some hub) (ha : recordApplied applied s.hub a = applied) :
    Confined applied { s with hub := hub } where
  wellFormed := hc.wellFormed.step h
  recorded := by
    have hr := hc.recorded.step hc.wellFormed h
    rwa [ha] at hr
  calls := hc.calls

theorem Confined.applyUpdate (hc : Confined applied s) {d : Uuid} {update : Finset U}
    (h : update ⊆ applied d) :
    Confined applied { s with hub := s.hub.applyUpdate d update } where
  wellFormed := hc.wellFormed.step (a := .applyUpdate d update) rfl
  recorded := by
    have hr := hc.recorded.step (a := .applyUpdate d update) hc.wellFormed rfl
    apply hr.mono
    intro d'
    simp only [recordApplied]
    split
    · by_cases hd : d' = d
      · subst hd
        simpa using Finset.union_subset (Finset.Subset.refl _) h
      · simp [hd]
    · exact Finset.Subset.refl _
  calls := hc.calls

theorem Confined.getOrLoad (hc : Confined applied s) (d : Uuid) :
    Confined applied (s.getOrLoad d).1 :=
  hc.hubStep (a := .getOrLoad d) rfl rfl

theorem Confined.leaveDocument (hc : Confined applied s) (socket : SocketId) (d : Uuid) :
    Confined applied (s.leaveDocument socket d) := by
  have hleft := hc.hubStep (a := .removeConnection d socket) rfl rfl
  exact hleft.of_eq rfl rfl

theorem Confined.loadForJoin (hc : Confined applied s) (socket : SocketId) (d : Uuid) :
    Confined applied (s.loadForJoin socket d) :=
  (hc.getOrLoad d).pushCall nofun

theorem Confined.checkMember (hc : Confined applied s) (socket : SocketId) (d w : Uuid) :
    Confined applied (s.checkMember socket d w) := by
  unfold GatewayState.checkMember
  split
  · exact hc
  · split
    · split
      · split
        · exact hc.loadForJoin socket d
        · exact (hc.leaveDocument socket _).pushCall nofun
      · exact hc.loadForJoin socket d
    · exact hc

theorem Confined.finishJoin (hc : Confined applied s) (socket : SocketId) (d : Uuid) :
    Confined applied (s.finishJoin socket d) := by
  have hadded := hc.hubStep (a := .addConnection d socket) rfl rfl
  exact hadded.of_eq rfl rfl

theorem Confined.handleDisconnect (hc : Confined applied s) (socket : SocketId) :
    Confined applied (s.handleDisconnect socket) := by
  unfold GatewayState.handleDisconnect
  dsimp only
  split
  · exact hc.of_eq rfl rfl
  · apply Confined.leaveDocument
    exact hc.of_eq rfl rfl

theorem Confined.handleUpdate (hc : Confined applied s) (socket : SocketId) {d : Uuid}
    {payload : Option (Finset U)} (h : ∀ update, payload = some update → update ⊆ applied d) :
    Confined applied (s.handleUpdate socket d payload) := by
  cases payload with
  | none => exact hc
  | some update =>
      apply (hc.getOrLoad d).pushCall
      rintro socket' d' update' load heq
      cases heq
      exact h update rfl

theorem Confined.resume (hc : Confined applied s) {c : Call U} {s' : GatewayState U}
    (h : s.resume c = some s')
    (hupdate : ∀ socket d update load, c = .updateLoad socket d update load →
      update ⊆ applied d) : Confined applied s' := by
  cases c with
  | findById socket d w =>
      obtain rfl := Option.some.inj h
      unfold GatewayState.checkDocument
      split
      · exact hc.pushCall nofun
      · exact hc
  | isUserMember socket d w =>
      obtain rfl := Option.some.inj h
      exact hc.checkMember socket d w
  | leavePrevious socket d =>
      obtain rfl := Option.some.inj h
      exact hc.loadForJoin socket d
  | joinLoad socket d load =>
      cases load with
      | pending => cases h
      | rejected => exact Option.some.inj h ▸ hc
      | resolved =>
          obtain rfl := Option.some.inj h
          exact (hc.joinRoom socket d).pushCall nofun
  | joinRoom socket d =>
      obtain rfl := Option.some.inj h
      exact hc.finishJoin socket d
  | updateLoad socket d update load =>
      cases load with
      | pending => cases h
      | resolved | rejected =>
          obtain rfl := Option.some.inj h
          exact hc.applyUpdate (hupdate _ _ _ _ rfl)

theorem Confined.background (hc : Confined applied s) {a : HubAction U} {s' : GatewayState U}
    (h : s.background a = some s') : Confined applied s' := by
  unfold GatewayState.background at h
  split at h
  · rename_i ha
    obtain ⟨hub, hhub, rfl⟩ := Option.map_eq_some_iff.mp h
    have hnone : recordApplied applied s.hub a = applied := by
      cases a with
      | applyUpdate => cases ha
      | _ => rfl
    have hnext := hc.hubStep hhub hnone
    cases a with
    | loadDone d => exact hnext.settleLoad d .resolved
    | loadFail d => exact hnext.settleLoad d .rejected
    | _ => exact hnext
  · cases h

end Confined

variable [DecidableEq U]

/-- The user may edit documents of the workspace of this document. -/
def mayEdit (s : GatewayState U) (documentId userId : Uuid) : Bool :=
  match s.hub.rows documentId with
  | none => false
  | some row =>
      match s.members row.workspaceId userId with
      | some .owner | some .admin | some .member => true
      | some .viewer | none => false

/-- The socket has joined the document, and its user may edit it now. -/
def editorSends (s : GatewayState U) (log : WriteLog U) (socket : SocketId)
    (documentId : Uuid) : Bool :=
  decide (documentId ∈ log.joined socket) &&
    match s.sockets socket with
    | none => false
    | some data => mayEdit s documentId data.user

namespace WriteLog

def authorise (log : WriteLog U) (documentId : Uuid) (update : Finset U) : WriteLog U :=
  { log with
    authorised := Function.update log.authorised documentId (log.authorised documentId ∪ update) }

def relay (log : WriteLog U) (documentId : Uuid) (update : Finset U) : WriteLog U :=
  { log with
    relayed := Function.update log.relayed documentId (log.relayed documentId ∪ update) }

/-- What a resumed handler emits or acknowledges. -/
def recordCall (log : WriteLog U) (s : GatewayState U) : Call U → WriteLog U
  | .updateLoad _ d update _ => log.relay d update
  | .joinRoom socket d =>
      -- the diff of the acknowledgement needs a loaded document
      if (s.hub.encodeDiff d ∅).isSome then
        { log with joined := Function.update log.joined socket (insert d (log.joined socket)) }
      else log
  | _ => log

def record (log : WriteLog U) (s : GatewayState U) : GatewayAction U → WriteLog U
  | .update socket d (some update) =>
      if editorSends s log socket d then log.authorise d update else log
  | .resume call =>
      match s.calls[call]? with
      | none => log
      | some c => log.recordCall s c
  -- `handleDocumentSaved` emits the whole document after each save
  | .hub (.resolve call) =>
      match s.hub.saves[call]? with
      | none => log
      | some c => log.relay c.documentId ((s.hub.encodeDiff c.documentId ∅).getD ∅)
  | _ => log

end WriteLog

/-- Live documents, the table and the rooms contain updates of editors only. -/
structure WritesAuthorised (p : GatewayState U × WriteLog U) : Prop where
  live : ∀ d e, p.1.hub.docs d = some e → (p.1.hub.entries e).ydoc ⊆ p.2.authorised d
  persisted : ∀ d, p.1.hub.stored d ⊆ p.2.authorised d
  relayed : ∀ d, p.2.relayed d ⊆ p.2.authorised d

/-- A binary update comes from a socket that has joined the document, and from a
user who may edit it when it arrives. -/
def EditorsOnly (p : GatewayState U × WriteLog U) : GatewayAction U → Prop
  | .update socket d (some _) => editorSends p.1 p.2 socket d = true
  | _ => True

section Log
variable {s s' : GatewayState U} {log : WriteLog U}

/-- Relaying updates of editors keeps the rooms to updates of editors. -/
theorem WriteLog.relayed_relay (h : ∀ d, log.relayed d ⊆ log.authorised d) {d : Uuid}
    {update : Finset U} (hu : update ⊆ log.authorised d) (d' : Uuid) :
    (log.relay d update).relayed d' ⊆ (log.relay d update).authorised d' := by
  by_cases hd : d' = d
  · subst hd
    simpa [relay] using Finset.union_subset (h d') hu
  · simpa [relay, hd] using h d'

theorem WriteLog.subset_authorise (d : Uuid) (update : Finset U) (d' : Uuid) :
    log.authorised d' ⊆ (log.authorise d update).authorised d' := by
  by_cases hd : d' = d
  · subst hd
    simp [authorise]
  · simp [authorise, hd]

theorem WriteLog.authorised_recordCall (c : Call U) :
    (log.recordCall s c).authorised = log.authorised := by
  cases c with
  | joinRoom socket d =>
      simp only [recordCall]
      split <;> rfl
  | _ => rfl

/-- The acknowledged or saved state of a document consists of updates of editors. -/
theorem Confined.encodeDiff_subset {applied : Applied U} (hc : Confined applied s) (d : Uuid)
    (stateVector : Finset U) : (s.hub.encodeDiff d stateVector).getD ∅ ⊆ applied d := by
  unfold HubState.encodeDiff
  cases hdocs : s.hub.docs d with
  | none => simp
  | some e =>
      have hsub := hc.recorded.ydoc d e hdocs
      simpa using Finset.sdiff_subset.trans hsub

theorem relayed_recordCall (hc : Confined log.authorised s)
    (hr : ∀ d, log.relayed d ⊆ log.authorised d) {c : Call U} (hmem : c ∈ s.calls) (d : Uuid) :
    (log.recordCall s c).relayed d ⊆ (log.recordCall s c).authorised d := by
  cases c with
  | updateLoad socket d' update load =>
      exact WriteLog.relayed_relay hr (hc.calls _ _ _ _ hmem) d
  | joinRoom socket d' =>
      simp only [WriteLog.recordCall]
      split <;> exact hr d
  | _ => exact hr d

/-- An action whose updates come from editors leaves only updates of editors behind. -/
theorem confined_step (hc : Confined log.authorised s)
    (hr : ∀ d, log.relayed d ⊆ log.authorised d) {a : GatewayAction U}
    (hg : EditorsOnly (s, log) a) (h : s.step a = some s') :
    Confined (log.record s a).authorised s' ∧
      ∀ d, (log.record s a).relayed d ⊆ (log.record s a).authorised d := by
  cases a with
  | hub a =>
      have hnext := hc.background h
      cases a with
      | resolve call =>
          simp only [WriteLog.record]
          split
          · exact ⟨hnext, hr⟩
          · rename_i c _
            exact ⟨hnext, WriteLog.relayed_relay hr (hc.encodeDiff_subset c.documentId ∅)⟩
      | _ => exact ⟨hnext, hr⟩
  | connect socket user =>
      simp only [GatewayState.step] at h
      split at h
      · cases h
      · cases h
        exact ⟨hc.of_eq rfl rfl, hr⟩
  | setRole w u role =>
      cases h
      exact ⟨hc.of_eq rfl rfl, hr⟩
  | join socket d w =>
      simp only [GatewayState.step] at h
      split at h
      · cases h
        exact ⟨hc.pushCall nofun, hr⟩
      · cases h
  | update socket d payload =>
      simp only [GatewayState.step] at h
      split at h
      · cases h
        cases payload with
        | none => exact ⟨hc, hr⟩
        | some update =>
            have hsend : editorSends s log socket d = true := hg
            simp only [WriteLog.record, hsend, if_true]
            have hgrow : ∀ d', log.authorised d' ⊆ (log.authorise d update).authorised d' :=
              WriteLog.subset_authorise d update
            constructor
            · apply (hc.mono hgrow).handleUpdate
              rintro update' heq
              cases heq
              simp [WriteLog.authorise]
            · exact fun d' => (hr d').trans (hgrow d')
      · cases h
  | leave socket d =>
      simp only [GatewayState.step] at h
      split at h
      · cases h
        exact ⟨hc.leaveDocument socket d, hr⟩
      · cases h
  | disconnect socket =>
      simp only [GatewayState.step] at h
      split at h
      · cases h
        exact ⟨hc.handleDisconnect socket, hr⟩
      · cases h
  | resume call =>
      simp only [GatewayState.step] at h
      split at h
      · cases h
      · rename_i c hcall
        have hmem : c ∈ s.calls := List.mem_of_getElem? hcall
        simp only [WriteLog.record, hcall]
        constructor
        · rw [WriteLog.authorised_recordCall]
          apply (hc.eraseCall call).resume h
          rintro socket d update load rfl
          exact hc.calls _ _ _ _ hmem
        · exact relayed_recordCall hc hr hmem

end Log

/-- The gateway with its log. -/
abbrev gatewayStep :
    GatewayState U × WriteLog U → GatewayAction U → Option (GatewayState U × WriteLog U) :=
  track GatewayState.step WriteLog.record

/-- A gateway without sockets; what is stored counts as written by editors. -/
def gatewayStartup (rows : Uuid → Option (DocumentRow U))
    (members : Uuid → Uuid → Option WorkspaceRole) : GatewayState U × WriteLog U :=
  ({ hub := .startup rows, members := members },
    { authorised := (HubState.startup rows).stored })

/-- In a run in which every binary update comes from a joined editor, documents,
table and rooms contain updates of editors only. -/
theorem writesAuthorised_of_editorsOnly (rows : Uuid → Option (DocumentRow U))
    (members : Uuid → Uuid → Option WorkspaceRole) {as : List (GatewayAction U)}
    {p : GatewayState U × WriteLog U} (run : Run gatewayStep (gatewayStartup rows members) as p)
    (hg : AllSteps gatewayStep EditorsOnly (gatewayStartup rows members) as) :
    WritesAuthorised p := by
  have hstart : Confined (HubState.startup rows).stored (gatewayStartup rows members).1 :=
    ⟨wellFormed_startup rows, recorded_startup rows, by simp [gatewayStartup]⟩
  have hend : Confined p.2.authorised p.1 ∧ ∀ d, p.2.relayed d ⊆ p.2.authorised d := by
    refine run.guarded (P := fun q =>
      Confined q.2.authorised q.1 ∧ ∀ d, q.2.relayed d ⊆ q.2.authorised d) ?_
      ⟨hstart, by simp [gatewayStartup]⟩ hg
    rintro ⟨s, log⟩ a ⟨s', log'⟩ ⟨hc, hr⟩ hga hstep
    obtain ⟨h, rfl : log' = _⟩ := track_eq_some.mp hstep
    exact confined_step hc hr hga h
  exact ⟨hend.1.recorded.ydoc, hend.1.recorded.stored, hend.2⟩

/-- User 5 is a member of workspace 3, and nobody else is. -/
def oneMember : Uuid → Uuid → Option WorkspaceRole :=
  fun w u => if w = 3 ∧ u = 5 then some .member else none

/-- A member joins document 1 and edits it. -/
def memberEdits : List (GatewayAction Nat) :=
  [.connect 8 5, .join 8 1 3, .resume 0, .resume 0, .hub (.loadRead 1), .hub (.loadDone 1),
    .resume 0, .resume 0, .update 8 1 (some {1}), .resume 0]

theorem writesAuthorised_memberEdits :
    ∃ p, Run gatewayStep (gatewayStartup oneDocument oneMember) memberEdits p ∧
      WritesAuthorised p := by
  obtain ⟨p, hp⟩ : ∃ p, exec gatewayStep (gatewayStartup oneDocument oneMember) memberEdits =
      some p := ⟨_, rfl⟩
  refine ⟨p, run_of_exec hp, writesAuthorised_of_editorsOnly _ _ (run_of_exec hp) ?_⟩
  iterate 8
    refine allSteps_cons.mpr ⟨trivial, fun t ht => ?_⟩
    cases ht
  refine allSteps_cons.mpr ⟨Eq.refl true, fun t ht => ?_⟩
  cases ht
  refine allSteps_cons.mpr ⟨trivial, fun t ht => ?_⟩
  exact allSteps_nil

/-- A user of another workspace sends an update without ever joining. -/
def strangerSends : List (GatewayAction Nat) :=
  [.connect 9 6, .update 9 1 (some {7}), .hub (.loadRead 1), .hub (.loadDone 1), .resume 0]

/-- The update of a socket that never joined is in the live document. -/
theorem strangerSends_applied :
    ¬ ∀ (rows : Uuid → Option (DocumentRow Nat)) (members : Uuid → Uuid → Option WorkspaceRole)
      (as : List (GatewayAction Nat)) (p : GatewayState Nat × WriteLog Nat),
      Run gatewayStep (gatewayStartup rows members) as p → WritesAuthorised p := by
  intro hall
  obtain ⟨p, hp⟩ : ∃ p, exec gatewayStep (gatewayStartup oneDocument oneMember) strangerSends =
      some p := ⟨_, rfl⟩
  have hw := hall oneDocument oneMember strangerSends p (run_of_exec hp)
  have hlive : p.1.hub.docs 1 = some 0 ∧ 7 ∈ (p.1.hub.entries 0).ydoc := by
    cases hp
    exact ⟨rfl, by decide⟩
  have hnone : 7 ∉ p.2.authorised 1 := by
    cases hp
    decide
  exact hnone (hw.live 1 0 hlive.1 hlive.2)

end SyncBoard.Document
