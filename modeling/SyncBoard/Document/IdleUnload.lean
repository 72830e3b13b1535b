import SyncBoard.Document.Registrations

/-!
# Unloading documents that are in use

`unloadIdle` picks a document without connections, saves it and, one await
later, destroys its entry and drops the document from the map. A socket may
join in between. A run keeps the documents in use exactly when no document has
a connection at the time its entry is dropped.
-/

namespace SyncBoard.Document

open Labelled

variable {U : Type}

/-- By document, the sockets whose last `handleJoin` of it ended with the acknowledgement. -/
abbrev Acknowledged := Uuid → Finset SocketId

/-- The end of a `handleJoin`: encoding the acknowledgement fails for a document that
is not loaded. -/
def acknowledge (acked : Acknowledged) (s : GatewayState U) : GatewayAction U → Acknowledged
  | .resume call =>
      match s.calls[call]? with
      | some (.joinRoom socket d) =>
          if (s.hub.docs d).isSome then Function.update acked d (insert socket (acked d))
          else Function.update acked d ((acked d).erase socket)
      | _ => acked
  | _ => acked

/-- The gateway with the joins it has acknowledged. -/
abbrev joinStep [DecidableEq U] :
    GatewayState U × Acknowledged → GatewayAction U → Option (GatewayState U × Acknowledged) :=
  track GatewayState.step acknowledge

/-- An entry with a connection is live and intact, and a socket that has joined a
document and not left it is registered on the live entry. -/
structure InUseKept (p : GatewayState U × Acknowledged) : Prop where
  entries : ∀ e, (p.1.hub.entries e).connections ≠ ∅ →
    (p.1.hub.entries e).destroyed = false ∧ ∃ d, p.1.hub.docs d = some e
  joined : ∀ d socket, socket ∈ p.2 d → socket ∈ p.1.editors d →
    ∃ e, p.1.hub.docs d = some e ∧ socket ∈ (p.1.hub.entries e).connections

/-- The document whose entry is dropped has no connection. -/
def DroppedUnused (p : GatewayState U × Acknowledged) : GatewayAction U → Prop
  | .hub (.evict unload) => ∀ v e, p.1.hub.unloads[unload]? = some v →
      p.1.hub.docs v.documentId = some e → (p.1.hub.entries e).connections = ∅
  | _ => True

section
variable {s s' : GatewayState U} {acked : Acknowledged}

theorem acknowledge_of_ordinary {a : GatewayAction U} (ha : Ordinary s a) :
    acknowledge acked s a = acked := by
  cases a with
  | resume call =>
      simp only [acknowledge]
      split
      · rename_i socket d hcall
        exact (ha socket d hcall).elim
      · rfl
  | _ => rfl

theorem InUseKept.of_same (hp : InUseKept (s, acked)) (h : SameRegistrations s s') :
    InUseKept (s', acked) where
  entries e he := by
    have hold : (s.hub.entries e).connections ≠ ∅ := h.use.connections e ▸ he
    rw [h.use.destroyed, h.use.docs]
    exact hp.entries e hold
  joined d socket hacked heditor := by
    obtain ⟨e, he, hmem⟩ := hp.joined d socket hacked (h.editors ▸ heditor)
    exact ⟨e, h.use.docs ▸ he, (h.use.connections e).symm ▸ hmem⟩

/-- A new entry has no connections, and it takes the place of no other. -/
theorem InUseKept.loadDone (hp : InUseKept (s, acked)) (hs : UnloadsOwn s.hub) {d : Uuid}
    {hub : HubState U} (h : s.hub.loadDone d = some hub) : InUseKept ({ s with hub }, acked) := by
  obtain ⟨yjsState, hload, rfl⟩ := HubState.loadDone_eq_some h
  have hnone : s.hub.docs d = none := hs.wellFormed.loading d (by simp [hload])
  constructor
  · intro e he
    have hne : e ≠ s.hub.nextEntry := by
      rintro rfl
      simp at he
    obtain ⟨hintact, d', hd'⟩ := hp.entries e (by simpa [hne] using he)
    have hdne : d' ≠ d := by
      rintro rfl
      exact Option.some_ne_none e (hd'.symm.trans hnone)
    exact ⟨by simpa [hne] using hintact, d', by simpa [hdne] using hd'⟩
  · intro d' socket hacked heditor
    obtain ⟨e, he, hmem⟩ := hp.joined d' socket hacked heditor
    have hdne : d' ≠ d := by
      rintro rfl
      exact Option.some_ne_none e (he.symm.trans hnone)
    have hne : e ≠ s.hub.nextEntry := Nat.ne_of_lt (hs.wellFormed.live d' e he).1
    exact ⟨e, by simpa [hdne] using he, by simpa [hne] using hmem⟩

/-- A socket that leaves a document leaves the entry and the editors together. -/
theorem InUseKept.leaveDocument (hp : InUseKept (s, acked)) (hs : UnloadsOwn s.hub)
    (socket : SocketId) (d : Uuid) : InUseKept (s.leaveDocument socket d, acked) where
  entries e he := by
    have hold : (s.hub.entries e).connections ≠ ∅ := by
      obtain ⟨k, hk⟩ := Finset.nonempty_iff_ne_empty.mpr he
      have hbefore := ((s.hub.mem_connections_removeConnection d socket e k).mp hk).1
      exact Finset.ne_empty_of_mem hbefore
    obtain ⟨hintact, d', hd'⟩ := hp.entries e hold
    refine ⟨(s.hub.destroyed_removeConnection d socket e).trans hintact, d', ?_⟩
    exact (congrFun (s.hub.docs_removeConnection d socket) d').trans hd'
  joined d' k hacked heditor := by
    have hedit := (s.mem_editors_leaveDocument socket d k d').mp heditor
    obtain ⟨e, he, hmem⟩ := hp.joined d' k hacked hedit.1
    refine ⟨e, (congrFun (s.hub.docs_removeConnection d socket) d').trans he, ?_⟩
    refine (s.hub.mem_connections_removeConnection d socket e k).mpr ⟨hmem, ?_⟩
    rintro ⟨hlive, hk⟩
    exact hedit.2 ⟨hs.wellFormed.live_unique he hlive, hk⟩

theorem InUseKept.handleDisconnect (hp : InUseKept (s, acked)) (hs : UnloadsOwn s.hub)
    (socket : SocketId) : InUseKept (s.handleDisconnect socket, acked) := by
  unfold GatewayState.handleDisconnect
  dsimp only
  have hclosed : InUseKept (GatewayState.modifySocket
      { s with rooms := fun d => (s.rooms d).erase socket } socket
      (fun data => { data with connected := false }), acked) :=
    ⟨hp.entries, hp.joined⟩
  split
  · exact hclosed
  · exact hclosed.leaveDocument hs socket _

/-- The end of a `handleJoin` registers the socket where it is acknowledged. -/
theorem InUseKept.finishJoin (hp : InUseKept (s, acked)) (hs : UnloadsOwn s.hub) {call : Nat}
    {socket : SocketId} {d : Uuid} (hcall : s.calls[call]? = some (.joinRoom socket d)) :
    InUseKept (s.finishJoin socket d, acknowledge acked s (.resume call)) where
  entries e he := by
    obtain ⟨k, hk⟩ := Finset.nonempty_iff_ne_empty.mpr he
    have hdestroyed : ((s.finishJoin socket d).hub.entries e).destroyed =
        (s.hub.entries e).destroyed := s.hub.destroyed_addConnection d socket e
    have hdocs : (s.finishJoin socket d).hub.docs = s.hub.docs :=
      s.hub.docs_addConnection d socket
    rw [hdestroyed, hdocs]
    rcases (s.hub.mem_connections_addConnection d socket e k).mp hk with hk | ⟨hlive, -⟩
    · exact hp.entries e (Finset.ne_empty_of_mem hk)
    · exact ⟨hs.live d e hlive, d, hlive⟩
  joined d' k hacked heditor := by
    have hdocs : (s.finishJoin socket d).hub.docs = s.hub.docs :=
      s.hub.docs_addConnection d socket
    simp only [acknowledge, hcall] at hacked
    rw [hdocs]
    by_cases hnew : d' = d ∧ k = socket
    · obtain ⟨rfl, rfl⟩ := hnew
      cases hlive : s.hub.docs d' with
      | none => simp [hlive] at hacked
      | some e =>
          refine ⟨e, rfl, ?_⟩
          exact (s.hub.mem_connections_addConnection d' k e k).mpr (.inr ⟨hlive, rfl⟩)
    · have hackedBefore : k ∈ acked d' := by
        by_cases hd : d' = d
        · subst hd
          have hk : k ≠ socket := fun hk => hnew ⟨rfl, hk⟩
          split at hacked <;> simpa [hk] using hacked
        · split at hacked <;> simpa [hd] using hacked
      have heditorBefore : k ∈ s.editors d' :=
        ((s.mem_editors_finishJoin socket d k d').mp heditor).resolve_right hnew
      obtain ⟨e, he, hmem⟩ := hp.joined d' k hackedBefore heditorBefore
      exact ⟨e, he, (s.hub.mem_connections_addConnection d socket e k).mpr (.inl hmem)⟩

/-- Dropping a document keeps what is in use exactly when nobody uses it. -/
theorem inUseKept_evict (hp : InUseKept (s, acked)) (hs : UnloadsOwn s.hub) {unload : Nat}
    {hub : HubState U} (h : s.hub.evict unload = some hub) :
    InUseKept ({ s with hub }, acked) ↔ DroppedUnused (s, acked) (.hub (.evict unload)) := by
  obtain ⟨v, hv, rfl⟩ := HubState.evict_eq_some h
  have hconnections : ∀ e, ((s.hub.modifyEntry v.entry fun entry =>
      { entry with saveTimeout := none, destroyed := true }).entries e).connections =
        (s.hub.entries e).connections :=
    s.hub.modifyEntry_field v.entry (·.connections) fun _ => rfl
  constructor
  · intro hp' v' e hv' hlive
    obtain rfl : v = v' := Option.some.inj (hv.symm.trans hv')
    by_contra hused
    obtain ⟨-, d, hd⟩ := hp'.entries e (by simpa only [hconnections] using hused)
    -- the entry would be live for another document
    have hne : d ≠ v.documentId := by
      rintro rfl
      simp at hd
    exact hne (hs.wellFormed.live_unique (by simpa [hne] using hd) hlive)
  · intro hunused
    have hkept : ∀ d e, s.hub.docs d = some e → (s.hub.entries e).connections ≠ ∅ →
        d ≠ v.documentId := by
      rintro d e hd hused rfl
      exact hused (hunused v e hv hd)
    constructor
    · intro e he
      have hused : (s.hub.entries e).connections ≠ ∅ := by simpa only [hconnections] using he
      obtain ⟨hintact, d, hd⟩ := hp.entries e hused
      have hne : d ≠ v.documentId := hkept d e hd hused
      have hother : e ≠ v.entry := hs.ne_entry hv hd hne
      refine ⟨?_, d, by simpa [hne] using hd⟩
      simpa only [HubState.modifyEntry_entries, if_neg hother] using hintact
    · intro d socket hacked heditor
      obtain ⟨e, he, hmem⟩ := hp.joined d socket hacked heditor
      have hne : d ≠ v.documentId := hkept d e he (Finset.ne_empty_of_mem hmem)
      exact ⟨e, by simpa [hne] using he, by simpa only [hconnections] using hmem⟩

variable [DecidableEq U]

/-- Only dropping a document can end a use. -/
theorem inUseKept_step {a : GatewayAction U} (hs : UnloadsOwn s.hub) (hp : InUseKept (s, acked))
    (h : s.step a = some s') :
    InUseKept (s', acknowledge acked s a) ↔ DroppedUnused (s, acked) a := by
  cases registration_of_step h with
  | same ha hsame =>
      rw [acknowledge_of_ordinary ha]
      refine iff_of_true (hp.of_same hsame) ?_
      unfold DroppedUnused
      split
      · exact ha.elim
      · trivial
  | @connected socket user _ hnew hsame =>
      have hconnected : InUseKept ({ s with
          sockets := Function.update s.sockets socket (some { user }) }, acked) :=
        ⟨hp.entries, hp.joined⟩
      exact iff_of_true (hconnected.of_same hsame) trivial
  | loaded hload hsame => exact iff_of_true ((hp.loadDone hs hload).of_same hsame) trivial
  | left ha hsame =>
      rw [acknowledge_of_ordinary ha]
      refine iff_of_true ((hp.leaveDocument hs _ _).of_same hsame) ?_
      unfold DroppedUnused
      split
      · exact ha.elim
      · trivial
  | joined hcall hsame => exact iff_of_true ((hp.finishJoin hs hcall).of_same hsame) trivial
  | disconnected hopen => exact iff_of_true (hp.handleDisconnect hs _) trivial
  | evicted hevict hsame =>
      rw [← inUseKept_evict hp hs hevict]
      exact ⟨fun hp' => hp'.of_same hsame.symm, fun hp' => hp'.of_same hsame⟩

end

variable [DecidableEq U]

/-- A gateway without sockets, and so without joins. -/
def joinStartup (rows : Uuid → Option (DocumentRow U))
    (members : Uuid → Uuid → Option WorkspaceRole) : GatewayState U × Acknowledged :=
  ((gatewayStartup rows members).1, fun _ => ∅)

/-- Along every run, the documents in use are kept exactly when every document that is
dropped has no connection at that time. -/
theorem inUseKept_iff (rows : Uuid → Option (DocumentRow U))
    (members : Uuid → Uuid → Option WorkspaceRole) {as : List (GatewayAction U)}
    {p : GatewayState U × Acknowledged} (run : Run joinStep (joinStartup rows members) as p) :
    AllStates joinStep InUseKept (joinStartup rows members) as ↔
      AllSteps joinStep DroppedUnused (joinStartup rows members) as := by
  apply allStates_iff_allSteps (I := fun q => UnloadsOwn q.1.hub) _ _ run
    (unloadsOwn_startup rows)
  · constructor <;> simp [joinStartup, gatewayStartup, HubState.startup]
  · rintro ⟨s, acked⟩ a ⟨s', acked'⟩ hs hstep
    obtain ⟨h, -⟩ := track_eq_some.mp hstep
    exact hub_invariant (fun _ _ _ hown => hown.step) hs h
  · rintro ⟨s, acked⟩ a ⟨s', acked'⟩ hs hp hstep
    obtain ⟨h, rfl : acked' = _⟩ := track_eq_some.mp hstep
    exact inUseKept_step hs hp h

/-- A member joins document 1, edits it and leaves; the save of the edit fails. -/
def editedAndLeft : List (GatewayAction Nat) :=
  [.connect 8 5, .join 8 1 3, .resume 0, .resume 0, .hub (.loadRead 1), .hub (.loadDone 1),
    .resume 0, .resume 0, .update 8 1 (some {1}), .resume 0, .leave 8 1,
    .hub (.tick saveDebounceMs), .hub (.timer 0), .hub (.reject 0)]

/-- Five idle minutes later `unloadIdle` saves the document once more and drops it. -/
def unloadedWhenIdle : List (GatewayAction Nat) :=
  editedAndLeft ++ [.hub (.tick 300001), .hub (.unloadIdle 1 305001), .hub (.commit 0),
    .hub (.resolve 0), .hub (.evict 0)]

theorem inUseKept_iff_unloadedWhenIdle :
    AllStates joinStep InUseKept (joinStartup oneDocument oneMember) unloadedWhenIdle ↔
      AllSteps joinStep DroppedUnused (joinStartup oneDocument oneMember) unloadedWhenIdle := by
  obtain ⟨p, hp⟩ : ∃ p, exec joinStep (joinStartup oneDocument oneMember) unloadedWhenIdle =
      some p := ⟨_, rfl⟩
  exact inUseKept_iff oneDocument oneMember (run_of_exec hp)

/-- The member joins again while `unloadIdle` awaits its save. -/
def joinedDuringUnload : List (GatewayAction Nat) :=
  editedAndLeft ++ [.hub (.tick 300001), .hub (.unloadIdle 1 305001), .join 8 1 3, .resume 0,
    .resume 0, .resume 0, .resume 0, .hub (.commit 0), .hub (.resolve 0), .hub (.evict 0)]

/-- The socket is registered on an entry that is destroyed. -/
theorem joinedDuringUnload_destroyed :
    ¬ ∀ (rows : Uuid → Option (DocumentRow Nat)) (members : Uuid → Uuid → Option WorkspaceRole)
      (as : List (GatewayAction Nat)) (p : GatewayState Nat × Acknowledged),
      Run joinStep (joinStartup rows members) as p → InUseKept p := by
  intro hall
  obtain ⟨p, hp⟩ : ∃ p, exec joinStep (joinStartup oneDocument oneMember) joinedDuringUnload =
      some p := ⟨_, rfl⟩
  have hkept := hall oneDocument oneMember joinedDuringUnload p (run_of_exec hp)
  have hused : 8 ∈ (p.1.hub.entries 0).connections ∧ (p.1.hub.entries 0).destroyed = true := by
    cases hp
    exact ⟨by decide, rfl⟩
  have hintact := (hkept.entries 0 (Finset.ne_empty_of_mem hused.1)).1
  exact Bool.false_ne_true (hintact.symm.trans hused.2)

end SyncBoard.Document
