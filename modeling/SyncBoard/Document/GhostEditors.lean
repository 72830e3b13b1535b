import SyncBoard.Document.Registrations

/-!
# Editors of sockets that are gone

`handleDisconnect` cleans up the one document in `currentDocumentId`. What it
can miss is a `handleJoin` that ends after it, and a document that another
`handleJoin` of the same socket has overwritten. No socket that is gone stays
registered in a run whose joins end in order.
-/

namespace SyncBoard.Document

open Labelled

variable {U : Type}

/-- The socket whose handler waits. -/
def Call.socket : Call U → SocketId
  | .findById socket _ _ | .isUserMember socket _ _ | .leavePrevious socket _
  | .joinLoad socket _ _ | .joinRoom socket _ | .updateLoad socket _ _ _ => socket

namespace GatewayState

/-- The socket is an editor of the document or in its connections. -/
def Registered (s : GatewayState U) (socket : SocketId) (d : Uuid) : Prop :=
  socket ∈ s.editors d ∨ ∃ e, s.hub.docs d = some e ∧ socket ∈ (s.hub.entries e).connections

/-- A socket whose disconnect has been handled, and whose handlers have all ended, is
registered nowhere. -/
def NoGhosts (s : GatewayState U) : Prop :=
  ∀ socket data, s.sockets socket = some data → data.connected = false →
    (∀ c ∈ s.calls, c.socket ≠ socket) → ∀ d, ¬ s.Registered socket d

/-- The socket is connected, and in no other document than this one. -/
def FreeFor (s : GatewayState U) (socket : SocketId) (d : Uuid) : Prop :=
  ∃ data, s.sockets socket = some data ∧ data.connected = true ∧
    ∀ d', data.currentDocumentId = some d' → d' = d

/-- A `handleJoin` ends while its socket is connected and in no other document. -/
def JoinsInOrder (s : GatewayState U) : GatewayAction U → Prop
  | .resume call => ∀ socket d, s.calls[call]? = some (.joinRoom socket d) → s.FreeFor socket d
  | _ => True

/-- `currentDocumentId` is where a socket is registered. -/
def Tracked (s : GatewayState U) : Prop :=
  ∀ socket d, s.Registered socket d → ∃ data, s.sockets socket = some data ∧
    data.connected = true ∧ data.currentDocumentId = some d

theorem Tracked.noGhosts {s : GatewayState U} (hs : s.Tracked) : s.NoGhosts := by
  intro socket data hdata hclosed _ d hregistered
  obtain ⟨data', hdata', hopen, -⟩ := hs socket d hregistered
  obtain rfl : data = data' := Option.some.inj (hdata.symm.trans hdata')
  exact Bool.false_ne_true (hclosed.symm.trans hopen)

section
variable {s s' : GatewayState U}

theorem registered_of_same (h : SameRegistrations s s') {socket : SocketId} {d : Uuid} :
    s'.Registered socket d ↔ s.Registered socket d := by
  simp only [Registered, h.editors, h.use.docs, h.use.connections]

theorem Tracked.of_same (hs : s.Tracked) (h : SameRegistrations s s') : s'.Tracked := by
  intro socket d hregistered
  rw [h.sockets]
  exact hs socket d ((registered_of_same h).mp hregistered)

/-- A socket that leaves a document is not registered there any more. -/
theorem registered_leaveDocument {socket : SocketId} {d : Uuid}
    {k : SocketId} {d' : Uuid} (h : (s.leaveDocument socket d).Registered k d') :
    s.Registered k d' ∧ ¬ (d' = d ∧ k = socket) := by
  rcases h with heditor | ⟨e, he, hmem⟩
  · obtain ⟨hbefore, hother⟩ := (s.mem_editors_leaveDocument socket d k d').mp heditor
    exact ⟨.inl hbefore, hother⟩
  · have hlive : s.hub.docs d' = some e :=
      (congrFun (s.hub.docs_removeConnection d socket) d').symm.trans he
    obtain ⟨hbefore, hother⟩ := (s.hub.mem_connections_removeConnection d socket e k).mp hmem
    refine ⟨.inr ⟨e, hlive, hbefore⟩, ?_⟩
    rintro ⟨rfl, hk⟩
    exact hother ⟨hlive, hk⟩

/-- Leaving one document does not reset the other as the current one. -/
theorem Tracked.leaveDocument (hs : s.Tracked) (socket : SocketId) (d : Uuid) :
    (s.leaveDocument socket d).Tracked := by
  intro k d' hregistered
  obtain ⟨hbefore, hother⟩ := registered_leaveDocument hregistered
  obtain ⟨data, hdata, hopen, hcurrent⟩ := hs k d' hbefore
  by_cases hk : k = socket
  · subst hk
    have hd : d' ≠ d := fun hd => hother ⟨hd, rfl⟩
    refine ⟨data, ?_, hopen, hcurrent⟩
    simp [GatewayState.leaveDocument, modifySocket, hdata, hcurrent, hd]
  · refine ⟨data, ?_, hopen, hcurrent⟩
    simpa [GatewayState.leaveDocument, modifySocket, hk] using hdata

theorem registered_finishJoin (hw : WellFormed s.hub) {socket : SocketId} {d : Uuid}
    {k : SocketId} {d' : Uuid} (h : (s.finishJoin socket d).Registered k d') :
    s.Registered k d' ∨ (d' = d ∧ k = socket) := by
  rcases h with heditor | ⟨e, he, hmem⟩
  · exact ((s.mem_editors_finishJoin socket d k d').mp heditor).imp_left .inl
  · have hlive : s.hub.docs d' = some e :=
      (congrFun (s.hub.docs_addConnection d socket) d').symm.trans he
    rcases (s.hub.mem_connections_addConnection d socket e k).mp hmem with hmem | ⟨hd, hk⟩
    · exact .inl (.inr ⟨e, hlive, hmem⟩)
    · exact .inr ⟨hw.live_unique hlive hd, hk⟩

/-- The document that a free socket joins becomes its current one. -/
theorem Tracked.finishJoin (hs : s.Tracked) (hw : WellFormed s.hub) {socket : SocketId}
    {d : Uuid} (hfree : s.FreeFor socket d) : (s.finishJoin socket d).Tracked := by
  obtain ⟨data, hdata, hopen, hcurrent⟩ := hfree
  intro k d' hregistered
  by_cases hk : k = socket
  · subst hk
    have hd : d' = d := by
      rcases registered_finishJoin hw hregistered with hbefore | ⟨hd, -⟩
      · obtain ⟨data', hdata', -, hcurrent'⟩ := hs k d' hbefore
        obtain rfl : data = data' := Option.some.inj (hdata.symm.trans hdata')
        exact hcurrent d' hcurrent'
      · exact hd
    refine ⟨{ data with currentDocumentId := some d }, ?_, hopen, by rw [hd]⟩
    simp [GatewayState.finishJoin, modifySocket, hdata]
  · have hbefore : s.Registered k d' :=
      (registered_finishJoin hw hregistered).resolve_right fun h => hk h.2
    obtain ⟨data', hdata', hopen', hcurrent'⟩ := hs k d' hbefore
    refine ⟨data', ?_, hopen', hcurrent'⟩
    simpa [GatewayState.finishJoin, modifySocket, hk] using hdata'

/-- `handleDisconnect` finds the one document in which the socket is registered. -/
theorem Tracked.handleDisconnect (hs : s.Tracked) (socket : SocketId) :
    (s.handleDisconnect socket).Tracked := by
  unfold GatewayState.handleDisconnect
  dsimp only
  split
  · rename_i hnone
    intro k d hregistered
    obtain ⟨data, hdata, hopen, hcurrent⟩ := hs k d hregistered
    have hk : k ≠ socket := by
      rintro rfl
      simp [modifySocket, hdata, hcurrent] at hnone
    exact ⟨data, by simpa [modifySocket, hk] using hdata, hopen, hcurrent⟩
  · rename_i current hcurrent
    intro k d hregistered
    obtain ⟨hbefore, hother⟩ := registered_leaveDocument hregistered
    obtain ⟨data, hdata, hopen, hd⟩ := hs k d hbefore
    have hk : k ≠ socket := by
      rintro rfl
      have heq : d = current := by simpa [modifySocket, hdata, hd] using hcurrent
      exact hother ⟨heq, rfl⟩
    refine ⟨data, ?_, hopen, hd⟩
    simpa [GatewayState.leaveDocument, modifySocket, hk] using hdata

theorem Tracked.loadDone (hs : s.Tracked) (hw : WellFormed s.hub) {d : Uuid} {hub : HubState U}
    (h : s.hub.loadDone d = some hub) : Tracked { s with hub } := by
  intro k d' hregistered
  apply hs
  rcases hregistered with heditor | ⟨e, he, hmem⟩
  · exact .inl heditor
  · obtain ⟨yjsState, -, rfl⟩ := HubState.loadDone_eq_some h
    by_cases hd : d' = d
    · -- a new entry has no connections
      obtain rfl : s.hub.nextEntry = e := by simpa [hd] using he
      simp at hmem
    · have hlive : s.hub.docs d' = some e := by simpa [hd] using he
      have hne : e ≠ s.hub.nextEntry := Nat.ne_of_lt (hw.live d' e hlive).1
      exact .inr ⟨e, hlive, by simpa [hne] using hmem⟩

theorem Tracked.evict (hs : s.Tracked) {unload : Nat} {hub : HubState U}
    (h : s.hub.evict unload = some hub) : Tracked { s with hub } := by
  obtain ⟨v, -, rfl⟩ := HubState.evict_eq_some h
  intro k d' hregistered
  apply hs
  rcases hregistered with heditor | ⟨e, he, hmem⟩
  · exact .inl heditor
  · have hd : d' ≠ v.documentId := by
      rintro rfl
      simp at he
    have hconnections := s.hub.modifyEntry_field v.entry
      (f := fun entry => { entry with saveTimeout := none, destroyed := true })
      (·.connections) (fun _ => rfl) e
    exact .inr ⟨e, by simpa [hd] using he, hconnections ▸ hmem⟩

theorem Tracked.connect (hs : s.Tracked) {socket : SocketId} {user : Uuid}
    (hnew : s.sockets socket = none) : Tracked
      { s with sockets := Function.update s.sockets socket (some { user }) } := by
  intro k d hregistered
  obtain ⟨data, hdata, hopen, hcurrent⟩ := hs k d hregistered
  have hk : k ≠ socket := by
    rintro rfl
    exact Option.some_ne_none data (hdata.symm.trans hnew)
  exact ⟨data, by simpa [hk] using hdata, hopen, hcurrent⟩

/-- A join in order is all that keeps the registrations tracked. -/
theorem Tracked.step [DecidableEq U] (hs : s.Tracked) (hw : WellFormed s.hub)
    {a : GatewayAction U} (hg : s.JoinsInOrder a) (h : s.step a = some s') : s'.Tracked := by
  cases registration_of_step h with
  | same _ hsame => exact hs.of_same hsame
  | connected hnew hsame => exact (hs.connect hnew).of_same hsame
  | loaded hload hsame => exact (hs.loadDone hw hload).of_same hsame
  | left _ hsame => exact (hs.leaveDocument _ _).of_same hsame
  | joined hcall hsame => exact (hs.finishJoin hw (hg _ _ hcall)).of_same hsame
  | disconnected hopen => exact hs.handleDisconnect _
  | evicted hevict hsame => exact (hs.evict hevict).of_same hsame

end

end GatewayState

variable [DecidableEq U]

/-- In a run whose joins end in order, a socket that is gone is registered nowhere, in
whatever order its handlers wait and go on. -/
theorem noGhosts_of_joinsInOrder (rows : Uuid → Option (DocumentRow U))
    (members : Uuid → Uuid → Option WorkspaceRole) {as : List (GatewayAction U)}
    (hg : AllSteps GatewayState.step GatewayState.JoinsInOrder (gatewayStartup rows members).1 as) :
    AllStates GatewayState.step GatewayState.NoGhosts (gatewayStartup rows members).1 as := by
  intro bs s hprefix run
  have hstart : WellFormed (gatewayStartup rows members).1.hub ∧
      (gatewayStartup rows members).1.Tracked := by
    refine ⟨wellFormed_startup rows, ?_⟩
    rintro socket d (heditor | ⟨e, he, -⟩)
    · exact (Finset.notMem_empty socket heditor).elim
    · cases he
  have hend : WellFormed s.hub ∧ s.Tracked := by
    refine run.guarded (P := fun t => WellFormed t.hub ∧ t.Tracked) ?_ hstart
      (hg.shorten hprefix)
    rintro t a u ⟨hw, ht⟩ ha hstep
    exact ⟨hub_invariant (fun _ _ _ hw => hw.step) hw hstep, ht.step hw ha hstep⟩
  exact hend.2.noGhosts

/-- A member joins document 1 and disconnects. -/
def joinThenDisconnect : List (GatewayAction Nat) :=
  [.connect 8 5, .join 8 1 3, .resume 0, .resume 0, .hub (.loadRead 1), .hub (.loadDone 1),
    .resume 0, .resume 0, .disconnect 8]

theorem noGhosts_joinThenDisconnect :
    AllStates GatewayState.step GatewayState.NoGhosts (gatewayStartup oneDocument oneMember).1
      joinThenDisconnect := by
  apply noGhosts_of_joinsInOrder
  iterate 2
    refine allSteps_cons.mpr ⟨trivial, fun t ht => ?_⟩
    cases ht
  iterate 2
    refine allSteps_cons.mpr ⟨nofun, fun t ht => ?_⟩
    cases ht
  iterate 2
    refine allSteps_cons.mpr ⟨trivial, fun t ht => ?_⟩
    cases ht
  refine allSteps_cons.mpr ⟨nofun, fun t ht => ?_⟩
  cases ht
  refine allSteps_cons.mpr ⟨?_, fun t ht => ?_⟩
  · intro socket d hcall
    cases hcall
    exact ⟨_, rfl, rfl, nofun⟩
  · cases ht
    refine allSteps_cons.mpr ⟨trivial, fun t ht => ?_⟩
    exact allSteps_nil

/-- The member disconnects while `handleJoin` checks the membership. -/
def disconnectDuringJoin : List (GatewayAction Nat) :=
  [.connect 8 5, .join 8 1 3, .resume 0, .disconnect 8, .resume 0, .hub (.loadRead 1),
    .hub (.loadDone 1), .resume 0, .resume 0]

/-- The socket is an editor of the document after its last handler has ended. -/
theorem disconnectDuringJoin_ghost :
    ¬ ∀ (rows : Uuid → Option (DocumentRow Nat)) (members : Uuid → Uuid → Option WorkspaceRole)
      (as : List (GatewayAction Nat)) (s : GatewayState Nat),
      Run GatewayState.step (gatewayStartup rows members).1 as s → s.NoGhosts := by
  intro hall
  obtain ⟨s, hs⟩ : ∃ s, exec GatewayState.step (gatewayStartup oneDocument oneMember).1
      disconnectDuringJoin = some s := ⟨_, rfl⟩
  have hnone := hall oneDocument oneMember disconnectDuringJoin s (run_of_exec hs)
  have hgone : s.sockets 8 = some ⟨5, false, some 1⟩ ∧ s.calls.map Call.socket = [] ∧
      8 ∈ s.editors 1 := by
    cases hs
    exact ⟨rfl, rfl, by decide⟩
  have hidle : ∀ c ∈ s.calls, c.socket ≠ 8 := by
    rw [List.map_eq_nil_iff.mp hgone.2.1]
    simp
  exact hnone 8 _ hgone.1 rfl hidle 1 (.inl hgone.2.2)

end SyncBoard.Document
