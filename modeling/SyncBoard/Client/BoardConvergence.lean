import SyncBoard.Board.CardWrites
import SyncBoard.Client.BoardPage

/-!
# Whether the page of a board converges

Nothing in a response says when the server read the board, so the last response to arrive
decides what the page shows. The page converges exactly where that response is up to date,
where the last event to arrive is not dropped while the page is behind, and where a
mutation that changes the board sends the page anything at all. The label calls send
nothing.
-/

namespace SyncBoard.Client

open Board (BoardContent Ranking)
open Realtime (BroadcastRelay.relayed)
open Labelled

section Convergence
variable (ranking : Ranking) (wid bid : Uuid)

namespace Session

/-- No event and no request is in flight. -/
def Idle (s : Session) : Prop :=
  s.events = [] ∧ s.requests = []

/-- The page holds what the server holds. -/
def UpToDate (s : Session) : Prop :=
  s.page.board = serverContent ranking wid bid s.world

instance (s : Session) : Decidable (s.UpToDate ranking wid bid) :=
  inferInstanceAs (Decidable (s.page.board = serverContent ranking wid bid s.world))

def Converged (s : Session) : Prop :=
  s.Idle → s.UpToDate ranking wid bid

/-- A mutation that changes the board while nothing is in flight sends the page an event;
the last event in flight is not dropped while the page is behind; and the last response
in flight carries what the server still holds. -/
def KeepsConverged (s : Session) : SessionAction → Prop
  | .mutate mutation => s.Idle →
      mutation.sends ranking wid bid s.world ≠ [] ∨
        serverContent ranking wid bid (mutation.perform ranking s.world).1 =
          serverContent ranking wid bid s.world
  | .arrive _ => ∀ payload, s.events = [payload] → s.requests = [] →
      s.page.isOutdated payload = true → s.UpToDate ranking wid bid
  | .answer _ => True
  | .respond _ => ∀ data, s.events = [] → s.requests = [.answered data] →
      (data <|> s.page.board) = serverContent ranking wid bid s.world

/-- The page is in the view of the board. -/
def InBoardView (s : Session) : Prop :=
  s.page.activeView = .board

/-- No event is dropped, the responses arrive in the order of their requests, and a
mutation leaves the board where it is and sends the page an event if it changes it. -/
def InOrder (s : Session) : SessionAction → Prop
  | .mutate mutation =>
      (serverContent ranking wid bid (mutation.perform ranking s.world).1).isSome = true ∧
        (mutation.sends ranking wid bid s.world = [] →
          serverContent ranking wid bid (mutation.perform ranking s.world).1 =
            serverContent ranking wid bid s.world)
  | .arrive _ => ∀ payload ∈ s.events, s.page.isOutdated payload = false
  | .answer _ => True
  | .respond j => j = 0

/-- The request that was sent last will bring what the server holds, or has brought it. -/
def LastLoadUpToDate (s : Session) : Prop :=
  s.requests.getLast? = some .sent ∨
    s.requests.getLast? = some (.answered (serverContent ranking wid bid s.world)) ∨
      s.requests = [] ∧ s.UpToDate ranking wid bid

/-- The page is up to date, or an event or a request in flight will bring it there. -/
structure CatchesUp (s : Session) : Prop where
  view : s.InBoardView
  content : (serverContent ranking wid bid s.world).isSome = true
  coming : s.events = [] → s.LastLoadUpToDate ranking wid bid

end Session

variable {ranking wid bid}
variable {s s' : Session}

theorem Session.converged_of_not_idle (h : ¬ s.Idle) : s.Converged ranking wid bid :=
  fun hidle => absurd hidle h

theorem step_arrive {i : Nat} (h : step ranking wid bid s (.arrive i) = some s')
    (hview : s.InBoardView) :
    ∃ payload, s.events[i]? = some payload ∧
      s' = { s with
        page := if s.page.isOutdated payload then s.page else s.page.record payload
        events := s.events.eraseIdx i
        requests := if s.page.isOutdated payload then s.requests else s.requests ++ [.sent] } := by
  obtain ⟨payload, hpayload, rfl⟩ := Option.map_eq_some_iff.mp h
  refine ⟨payload, hpayload, ?_⟩
  rw [BoardPage.onEntityEvent_of_board hview]
  cases s.page.isOutdated payload <;> rfl

theorem step_answer {j : Nat} (h : step ranking wid bid s (.answer j) = some s') :
    s.requests[j]? = some .sent ∧
      s' = { s with
        requests := s.requests.set j (.answered (serverContent ranking wid bid s.world)) } := by
  simp only [step] at h
  split at h
  · next hsent => exact ⟨hsent, (Option.some.inj h).symm⟩
  · cases h

theorem step_respond {j : Nat} (h : step ranking wid bid s (.respond j) = some s') :
    ∃ data, s.requests[j]? = some (.answered data) ∧
      s' = { s with page := s.page.setBoard data, requests := s.requests.eraseIdx j } := by
  simp only [step] at h
  split at h
  · next data hdata => exact ⟨data, hdata, (Option.some.inj h).symm⟩
  · cases h

/-- Nobody leaves the view of the board. -/
theorem inBoardView_step {a : SessionAction} (hview : s.InBoardView)
    (h : step ranking wid bid s a = some s') : s'.InBoardView := by
  cases a with
  | mutate mutation =>
      obtain rfl := Option.some.inj h
      exact hview
  | arrive i =>
      obtain ⟨payload, -, rfl⟩ := step_arrive h hview
      simp only [Session.InBoardView] at hview ⊢
      split
      · exact hview
      · rw [BoardPage.activeView_record, hview]
  | answer j =>
      obtain ⟨-, rfl⟩ := step_answer h
      exact hview
  | respond j =>
      obtain ⟨data, -, rfl⟩ := step_respond h
      exact hview

/-- Taking out an entry leaves nothing where it was the only one. -/
theorem eraseIdx_eq_nil_of_getElem? {α : Type*} {l : List α} {i : Nat} {a : α}
    (h : l[i]? = some a) : l.eraseIdx i = [] ↔ l = [a] := by
  rw [List.eraseIdx_eq_nil_iff]
  constructor
  · rintro (rfl | ⟨hlength, rfl⟩)
    · simp at h
    · obtain ⟨b, rfl⟩ := List.length_eq_one_iff.mp hlength
      obtain rfl : b = a := Option.some.inj h
      rfl
  · rintro rfl
    obtain ⟨hi, -⟩ := List.getElem?_eq_some_iff.mp h
    exact .inr ⟨rfl, by simpa using hi⟩

theorem eq_of_getElem?_singleton {α : Type*} {l : List α} {i : Nat} {a b : α}
    (h : l[i]? = some a) (hl : l = [b]) : a = b := by
  have hmem : a ∈ l := List.mem_of_getElem? h
  rw [hl] at hmem
  exact List.mem_singleton.mp hmem

theorem converged_mutate {mutation : Mutation} (hs : s.Converged ranking wid bid)
    (h : step ranking wid bid s (.mutate mutation) = some s') :
    s'.Converged ranking wid bid ↔ s.KeepsConverged ranking wid bid (.mutate mutation) := by
  obtain rfl := Option.some.inj h
  constructor
  · intro hconverged hidle
    by_cases hsends : mutation.sends ranking wid bid s.world = []
    · have hup : s.page.board = _ := hconverged ⟨by rw [hidle.1, hsends]; rfl, hidle.2⟩
      exact .inr (hup.symm.trans (hs hidle))
    · exact .inl hsends
  · intro hkeeps hidle
    obtain ⟨hevents, hsends⟩ := List.append_eq_nil_iff.mp hidle.1
    have hbefore : s.Idle := ⟨hevents, hidle.2⟩
    have hsame := (hkeeps hbefore).resolve_left (not_not_intro hsends)
    exact (hs hbefore).trans hsame.symm

theorem converged_arrive {i : Nat} (hview : s.InBoardView)
    (h : step ranking wid bid s (.arrive i) = some s') :
    s'.Converged ranking wid bid ↔ s.KeepsConverged ranking wid bid (.arrive i) := by
  obtain ⟨payload, hpayload, rfl⟩ := step_arrive h hview
  have hlast : s.events.eraseIdx i = [] ↔ s.events = [payload] :=
    eraseIdx_eq_nil_of_getElem? hpayload
  cases hout : s.page.isOutdated payload with
  | true =>
      constructor
      · intro hconverged other hother hrequests _
        obtain rfl := eq_of_getElem?_singleton hpayload hother
        exact hconverged ⟨hlast.mpr hother, hrequests⟩
      · intro hkeeps hidle
        exact hkeeps payload (hlast.mp hidle.1) hidle.2 hout
  | false =>
      -- The event has started a load.
      constructor
      · intro _ other hother _ hdropped
        obtain rfl := eq_of_getElem?_singleton hpayload hother
        rw [hout] at hdropped
        cases hdropped
      · intro _
        apply Session.converged_of_not_idle
        intro hidle
        exact List.append_ne_nil_of_right_ne_nil _ (List.cons_ne_nil _ _) hidle.2

theorem converged_answer {j : Nat} (h : step ranking wid bid s (.answer j) = some s') :
    s'.Converged ranking wid bid := by
  obtain ⟨hsent, rfl⟩ := step_answer h
  apply Session.converged_of_not_idle
  intro hidle
  have hempty : s.requests = [] := by simpa using hidle.2
  rw [hempty] at hsent
  cases hsent

theorem converged_respond {j : Nat} (h : step ranking wid bid s (.respond j) = some s') :
    s'.Converged ranking wid bid ↔ s.KeepsConverged ranking wid bid (.respond j) := by
  obtain ⟨data, hdata, rfl⟩ := step_respond h
  have hlast : s.requests.eraseIdx j = [] ↔ s.requests = [.answered data] :=
    eraseIdx_eq_nil_of_getElem? hdata
  constructor
  · intro hconverged other hevents hother
    obtain ⟨⟩ := eq_of_getElem?_singleton hdata hother
    exact hconverged ⟨hevents, hlast.mpr hother⟩
  · intro hkeeps hidle
    exact hkeeps data hidle.1 (hlast.mp hidle.2)

/-- One step keeps convergence exactly where its condition holds. -/
theorem converged_step {a : SessionAction} (hview : s.InBoardView)
    (hs : s.Converged ranking wid bid) (h : step ranking wid bid s a = some s') :
    s'.Converged ranking wid bid ↔ s.KeepsConverged ranking wid bid a := by
  cases a with
  | mutate mutation =>
      exact converged_mutate hs h
  | arrive i =>
      exact converged_arrive hview h
  | answer j =>
      exact iff_of_true (converged_answer h) trivial
  | respond j =>
      exact converged_respond h

theorem lastLoad_answer {j : Nat} (hsent : s.requests[j]? = some .sent)
    (hs : s.LastLoadUpToDate ranking wid bid) :
    Session.LastLoadUpToDate ranking wid bid { s with
      requests := s.requests.set j (.answered (serverContent ranking wid bid s.world)) } := by
  obtain ⟨hj, -⟩ := List.getElem?_eq_some_iff.mp hsent
  by_cases hlast : j + 1 = s.requests.length
  · have hindex : s.requests.length - 1 = j := by omega
    right
    left
    rw [List.getLast?_eq_getElem?, List.length_set, hindex, List.getElem?_set_self hj]
  · have hkept : (s.requests.set j (.answered (serverContent ranking wid bid s.world))).getLast? =
        s.requests.getLast? := by
      rw [List.getLast?_eq_getElem?, List.getLast?_eq_getElem?, List.length_set,
        List.getElem?_set_ne (by omega)]
    rcases hs with hsent | hanswered | ⟨hempty, -⟩
    · exact .inl (hkept.trans hsent)
    · exact .inr (.inl (hkept.trans hanswered))
    · rw [hempty] at hj
      cases hj

/-- The oldest request is the last one that was sent where it is the only one. -/
theorem lastLoad_respond {data : Option BoardContent}
    (hdata : s.requests[0]? = some (.answered data))
    (hcontent : (serverContent ranking wid bid s.world).isSome = true)
    (hs : s.LastLoadUpToDate ranking wid bid) :
    Session.LastLoadUpToDate ranking wid bid { s with
      page := s.page.setBoard data
      requests := s.requests.eraseIdx 0 } := by
  cases hrequests : s.requests with
  | nil =>
      rw [hrequests] at hdata
      cases hdata
  | cons first rest =>
      simp only [Session.LastLoadUpToDate, hrequests] at hs hdata ⊢
      obtain rfl : first = .answered data := Option.some.inj hdata
      cases rest with
      | nil =>
          obtain rfl : data = serverContent ranking wid bid s.world := by simpa using hs
          obtain ⟨content, hsome⟩ := Option.isSome_iff_exists.mp hcontent
          refine .inr (.inr ⟨rfl, ?_⟩)
          simp [Session.UpToDate, BoardPage.setBoard, hsome]
      | cons second rest =>
          simpa using hs

theorem catchesUp_step {a : SessionAction} (hs : s.CatchesUp ranking wid bid)
    (hguard : s.InOrder ranking wid bid a) (h : step ranking wid bid s a = some s') :
    s'.CatchesUp ranking wid bid := by
  have hview : s'.InBoardView := inBoardView_step hs.view h
  cases a with
  | mutate mutation =>
      obtain rfl := Option.some.inj h
      refine ⟨hview, hguard.1, fun hevents => ?_⟩
      obtain ⟨hbefore, hsends⟩ := List.append_eq_nil_iff.mp hevents
      have hsame := hguard.2 hsends
      simpa only [Session.LastLoadUpToDate, Session.UpToDate, hsame] using hs.coming hbefore
  | arrive i =>
      obtain ⟨payload, hpayload, rfl⟩ := step_arrive h hs.view
      have hkept := hguard payload (List.mem_of_getElem? hpayload)
      refine ⟨hview, hs.content, fun _ => .inl ?_⟩
      simp [hkept]
  | answer j =>
      obtain ⟨hsent, rfl⟩ := step_answer h
      exact ⟨hview, hs.content, fun hevents => lastLoad_answer hsent (hs.coming hevents)⟩
  | respond j =>
      obtain ⟨data, hdata, rfl⟩ := step_respond h
      obtain rfl : j = 0 := hguard
      exact ⟨hview, hs.content,
        fun hevents => lastLoad_respond hdata hs.content (hs.coming hevents)⟩

theorem Session.CatchesUp.converged (hs : s.CatchesUp ranking wid bid) :
    s.Converged ranking wid bid := by
  rintro ⟨hevents, hrequests⟩
  have hcoming := hs.coming hevents
  simpa [Session.LastLoadUpToDate, hrequests] using hcoming

/-- What the page relies on: a run that keeps to it ends up to date. -/
theorem converged_of_inOrder {w : Board.World} {as : List SessionAction}
    (run : Run (step ranking wid bid) { world := w } as s)
    (hcontent : (serverContent ranking wid bid w).isSome = true)
    (hall : AllSteps (step ranking wid bid) (Session.InOrder ranking wid bid)
      { world := w } as) :
    s.Converged ranking wid bid := by
  apply Session.CatchesUp.converged
  apply run.guarded _ _ hall
  · intro t a u ht hguard h
    exact catchesUp_step ht hguard h
  · exact ⟨rfl, hcontent, fun _ => .inl rfl⟩

end Convergence

section Labels
open Board Fallible

/-- The calls that write a label, or which labels a card has. -/
def OnLabels : Call → Prop
  | .addLabel .. | .removeLabel .. | .createLabel .. | .createWorkspaceLabel .. => True
  | _ => False

/-- A label call writes the database and emits no event. -/
theorem writesOnly_of_onLabels {env : Env} {call : Call} {w w' : World}
    (hlabels : OnLabels call) (h : Returns (call.run env) w () w') :
    ∃ db, w' = { w with db := db } := by
  cases call with
  | addLabel =>
      obtain ⟨card, -, h⟩ := returns_findCard_bind.mp h
      obtain ⟨-, h⟩ := returns_check_bind.mp h
      obtain ⟨db, -, rfl⟩ := returns_write.mp h
      exact ⟨db, rfl⟩
  | removeLabel =>
      obtain ⟨-, card, -, h⟩ := returns_onActiveCard h
      obtain ⟨db, -, rfl⟩ := returns_write.mp h
      exact ⟨db, rfl⟩
  | createLabel =>
      obtain ⟨label, h⟩ := returns_discard.mp h
      obtain ⟨board, -, h⟩ := returns_find_bind.mp h
      obtain ⟨db, -, rfl⟩ := returns_write.mp h
      exact ⟨db, rfl⟩
  | createWorkspaceLabel =>
      obtain ⟨label, h⟩ := returns_discard.mp h
      obtain ⟨db, -, rfl⟩ := returns_write.mp h
      exact ⟨db, rfl⟩
  | _ => exact hlabels.elim

/-- No page hears of a label call, whether it changes the board or not. -/
theorem sends_of_onLabels {ranking : Ranking} {wid bid : Uuid} {w : World} {r : Request}
    {call : Call} (hcall : r.operation = .card call) (hlabels : OnLabels call) :
    (Mutation.operation r).sends ranking wid bid w = [] := by
  have hwrites : ∃ db, (exec (r.operation.run (r.env ranking)) w).2 = { w with db := db } := by
    have hstep : Board.step ranking w r =
      some (exec (r.operation.run (r.env ranking)) w).2 := rfl
    rcases step_cases hstep with hreturns | hsame
    · rw [hcall] at hreturns ⊢
      exact writesOnly_of_onLabels hlabels hreturns
    · exact ⟨w.db, hsame⟩
  obtain ⟨db, hdb⟩ := hwrites
  have hnothing : BroadcastRelay.relayed w { w with db := db } = [] := by
    simp [BroadcastRelay.relayed]
  rw [Mutation.sends, Mutation.perform, hdb, hnothing]
  rfl

end Labels

section Runs
open Board Relational
variable {ranking : Ranking} {wid bid : Uuid} {s : Session}

/-- From the opening of the page, whatever mutations there are and in whatever order
events and responses arrive: the page converges in every state of a run exactly where
every step of the run meets its condition. -/
theorem converges_iff_keepsConverged {w : World} {as : List SessionAction}
    (run : Run (step ranking wid bid) { world := w } as s) :
    AllStates (step ranking wid bid) (Session.Converged ranking wid bid) { world := w } as ↔
      AllSteps (step ranking wid bid) (Session.KeepsConverged ranking wid bid)
        { world := w } as := by
  apply allStates_iff_allSteps (I := Session.InBoardView) _ _ run rfl
  · exact Session.converged_of_not_idle fun hidle => List.cons_ne_nil _ _ hidle.2
  · intro t a u hview h
    exact inBoardView_step hview h
  · intro t a u hview hconverged h
    exact converged_step hview hconverged h

/-- A board with one card, in a workspace with one label. -/
def oneCard : Database where
  workspaces := .single 1 ()
  users := .single 7 ()
  members := .single (1, 7) ()
  boards := .single 20 { workspaceId := 1, title := js "Plans", createdBy := 7, updatedAt := 0 }
  lists := .single 30 { boardId := 20, title := js "Open", rank := js "0|hzzzzz:", updatedAt := 0 }
  cards := .single 40
    { listId := 30, title := js "Ship", rank := js "0|hzzzzz:", createdBy := 7, updatedAt := 0 }
  labels := .single 60 { workspaceId := 1, name := some (js "Urgent"), color := js "#E11D48" }
  wellFormed :=
    { members := Table.All.of_rows (by decide)
      boards := Table.All.of_rows (by decide)
      starredBoards := Table.All.of_rows (by decide)
      lists := Table.All.of_rows (by decide)
      cards := Table.All.of_rows (by decide)
      cardAssignees := Table.All.of_rows (by decide)
      cardLabels := Table.All.of_rows (by decide)
      labels := Table.All.of_rows (by decide)
      checklists := Table.All.of_rows (by decide)
      checklistItems := Table.All.of_rows (by decide) }

def middleOnly : Ranking where
  lexorank :=
    { middle := js "0|hzzzzz:"
      genPrev := fun _ => none
      genNext := fun _ => none
      between := fun _ _ => none }
  rankLe := fun _ _ => true

/-- The page loads, the card is finished, and the page loads again. -/
def finishedCard : List SessionAction :=
  [.answer 0, .respond 0,
    .mutate (.operation ⟨.card (.updateStatus 20 1 40 .done 7), 41, 1000⟩),
    .arrive 0, .answer 0, .respond 0]

theorem converges_finishedCard :
    AllStates (step middleOnly 1 20) (Session.Converged middleOnly 1 20)
      { world := { db := oneCard } } finishedCard := by
  obtain ⟨s, hs⟩ : ∃ s, exec (step middleOnly 1 20) { world := { db := oneCard } } finishedCard =
    some s := ⟨_, rfl⟩
  refine (converges_iff_keepsConverged (run_of_exec hs)).mpr ?_
  refine allSteps_cons.mpr ⟨trivial, fun t ht => ?_⟩
  cases ht
  refine allSteps_cons.mpr ⟨?_, fun t ht => ?_⟩
  · rintro data - hdata
    cases hdata
    rfl
  cases ht
  refine allSteps_cons.mpr ⟨fun _ => .inl (by decide), fun t ht => ?_⟩
  cases ht
  refine allSteps_cons.mpr ⟨?_, fun t ht => ?_⟩
  · rintro payload hpayload - hout
    cases hpayload
    cases hout
  cases ht
  refine allSteps_cons.mpr ⟨trivial, fun t ht => ?_⟩
  cases ht
  refine allSteps_cons.mpr ⟨?_, fun t ht => ?_⟩
  · rintro data - hdata
    cases hdata
    rfl
  cases ht
  exact allSteps_nil

/-- The page loads, and then the card gets a label. -/
def labelledCard : List SessionAction :=
  [.answer 0, .respond 0, .mutate (.operation ⟨.card (.addLabel 20 1 40 60), 41, 1000⟩)]

theorem labelledCard_unseen :
    ¬ ∀ (ranking : Ranking) (wid bid : Uuid) (w : World) (as : List SessionAction) (s : Session),
      Run (step ranking wid bid) { world := w } as s → s.Converged ranking wid bid := by
  intro hall
  obtain ⟨s, hs⟩ : ∃ s, exec (step middleOnly 1 20) { world := { db := oneCard } } labelledCard =
    some s := ⟨_, rfl⟩
  have hconverged := hall _ _ _ _ labelledCard s (run_of_exec hs)
  cases hs
  have hup := hconverged ⟨rfl, rfl⟩
  exact absurd hup (by decide)

end Runs

end SyncBoard.Client
