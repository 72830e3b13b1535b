import SyncBoard.Board.CardTime

/-!
# Logged time adds up

`loggedMinutes` of a card repeats what its time entries say. No statement but
`addEntry` changes the column or the entries of a card that exists, and `addEntry`
changes both or neither, so the two agree whatever the interleaving.
-/

namespace SyncBoard.Board

open Relational Interleaved Interleaved.Program Labelled Fallible

/-- Every card has the minutes of its entries. -/
def LoggedTimeAddsUp (s : CardStore) : Prop :=
  s.world.db.cards.All fun cardId card =>
    card.loggedMinutes = CardTimeRepository.sumForCard s cardId

section Statements
variable {ranking : Ranking} {s s' : CardStore} {cardId : Uuid}

/-- The calls of `CardService` leave the minutes of a card alone; a new card has none. -/
theorem CardStatementWrite.loggedMinutes {x : Outside} {op : CardStatement} {old : Option CardRow}
    {new : CardRow} (h : CardStatementWrite ranking x op cardId old new) :
    new.loggedMinutes = (old.map (·.loggedMinutes)).getD 0 := by
  cases h with
  | subcard write =>
      cases write with
      | createCard => rfl
      | @updateCard update old => cases update <;> rfl
  | @changeCard change old => cases change <;> rfl

/-- A card that does not exist has no entries. -/
theorem sumForCard_fresh (hfresh : s.world.db.cards.get? cardId = none) :
    CardTimeRepository.sumForCard s cardId = 0 := by
  apply Table.total_eq_zero
  refine s.keys.imp fun id entry hkey => ?_
  rw [beq_eq_false_iff_ne]
  rintro rfl
  simp [Table.contains, hfresh] at hkey

theorem insertEntry_ok {id : Uuid} {entry : CardTimeEntryRow}
    (h : s.insertEntry id entry = .ok s') :
    s'.world = s.world ∧ ∀ cardId, CardTimeRepository.sumForCard s' cardId =
      CardTimeRepository.sumForCard s cardId +
        if entry.cardId == cardId then entry.minutes else 0 := by
  rw [CardStore.insertEntry] at h
  split at h
  · next hfresh =>
      split at h
      · cases h
        exact ⟨rfl, fun cardId => Table.total_insert hfresh entry⟩
      · cases h
  · cases h

theorem incrementLoggedMinutes_ok {minutes : Nat} {now : Timestamp}
    (h : s.incrementLoggedMinutes cardId minutes now = .ok s') :
    ∃ old, s.world.db.cards.get? cardId = some old ∧
      s.world.db.cards.Wrote s'.world.db.cards cardId
        { CardStore.increment minutes old with updatedAt := now } ∧ s'.entries = s.entries := by
  rw [CardStore.incrementLoggedMinutes] at h
  split at h
  · next r hupdate =>
      cases h
      obtain ⟨old, hold, -, hwrote, -, -⟩ := CardRepository.update_wrote hupdate
      exact ⟨old, hold, hwrote, rfl⟩
  · cases h

/-- The transaction adds its minutes to the card and to its entries. -/
theorem addEntry_ok {x : TimeOutside} {userId : Uuid} {dto : LogTimeDto}
    {entry : Loaded CardTimeEntryRow}
    (h : CardTimeRepository.addEntry s x cardId userId dto = .ok (entry, s')) :
    ∃ old new, s.world.db.cards.get? cardId = some old ∧
      s.world.db.cards.Wrote s'.world.db.cards cardId new ∧
      new.loggedMinutes = old.loggedMinutes + dto.minutes ∧
      ∀ id, CardTimeRepository.sumForCard s' id =
        CardTimeRepository.sumForCard s id + if cardId == id then dto.minutes else 0 := by
  simp only [CardTimeRepository.addEntry, bind_eq_ok, mapError_eq_ok] at h
  obtain ⟨-, -, -, -, s₁, hinsert, -, -, s₂, hupdate, -, -, hreturn⟩ := h
  obtain ⟨-, rfl⟩ := Prod.mk.inj (Except.ok.inj hreturn)
  obtain ⟨hworld, hsum⟩ := insertEntry_ok hinsert
  obtain ⟨old, hold, hwrote, hentries⟩ := incrementLoggedMinutes_ok hupdate
  rw [hworld] at hold hwrote
  refine ⟨old, _, hold, hwrote, rfl, fun id => ?_⟩
  rw [← hsum id, CardTimeRepository.sumForCard, hentries]
  rfl

theorem LoggedTimeAddsUp.addEntry (hs : LoggedTimeAddsUp s) {x : TimeOutside} {userId : Uuid}
    {dto : LogTimeDto} {entry : Loaded CardTimeEntryRow}
    (h : CardTimeRepository.addEntry s x cardId userId dto = .ok (entry, s')) :
    LoggedTimeAddsUp s' := by
  obtain ⟨old, new, hold, hwrote, hnew, hsum⟩ := addEntry_ok h
  intro id card hcard
  rw [hsum id]
  rcases hwrote.eq_or_old hcard with ⟨rfl, rfl⟩ | ⟨hid, hcard⟩
  · rw [hnew, hs id old hold, beq_self_eq_true, if_pos rfl]
  · rw [hs id card hcard, if_neg (by simpa using Ne.symm hid), Nat.add_zero]

theorem LoggedTimeAddsUp.card (hs : LoggedTimeAddsUp s) (x : TimeOutside) (op : CardStatement) :
    LoggedTimeAddsUp (timeAnswer ranking x (.card op) s).2 := by
  have hsum : ∀ id, CardTimeRepository.sumForCard (timeAnswer ranking x (.card op) s).2 id =
      CardTimeRepository.sumForCard s id := fun _ => rfl
  intro id card hcard
  rw [hsum id]
  rcases cardAnswer_cases ranking x.toOutside op s.world with hsame | ⟨cardId, old, new, h⟩
  · have hold : s.world.db.cards.get? id = some card := by
      rw [← hsame]
      exact hcard
    exact hs id card hold
  · rcases h.cards.eq_or_old hcard with ⟨rfl, rfl⟩ | ⟨-, hcard⟩
    · rw [h.write.loggedMinutes]
      have hbefore := h.before
      cases old with
      | none => exact (sumForCard_fresh hbefore).symm
      | some old => exact hs id old hbefore
    · exact hs id card hcard

/-- Every statement keeps the two in step, wherever its transaction breaks off. -/
theorem LoggedTimeAddsUp.answer (hs : LoggedTimeAddsUp s) (x : TimeOutside) (op : TimeStatement) :
    LoggedTimeAddsUp (timeAnswer ranking x op s).2 := by
  cases op with
  | card op =>
      exact hs.card x op
  | addEntry cardId userId dto =>
      rw [timeAnswer]
      split
      · next entry s' h =>
          exact hs.addEntry h
      · exact hs
  | emitTimeLogged event =>
      exact hs

end Statements

/-- The state of the cards and their time entries in calls that interleave. -/
abbrev TimePool := Pool TimeStatement TimeAnswer AppError TimeCall CardStore

/-- Whatever the interleaving, and wherever transactions break off, the minutes
logged on a card are the sum of those of its time entries. -/
theorem loggedMinutes_eq_sum (ranking : Ranking) {s : CardStore} (h : LoggedTimeAddsUp s)
    {ms : List (Move TimeCall TimeOutside)} {p : TimePool}
    (run : Run (Pool.step (timeAnswer ranking) (TimeCall.program ranking)) { store := s } ms p)
    {cardId : Uuid} {card : CardRow} (hcard : p.store.world.db.cards.get? cardId = some card) :
    card.loggedMinutes = CardTimeRepository.sumForCard p.store cardId := by
  have hprogram : ∀ call : TimeCall, (call.program ranking).Only fun _ => True :=
    fun call => Only.any _
  have hinv : LoggedTimeAddsUp p.store :=
    Pool.invariant_of_only hprogram (fun _ x op _ _ hs => hs.answer x op) h run
  exact hinv cardId card hcard

/-- Board 20 without cards. -/
def emptyBoard : CardStore where
  world := { db := oneBoard }
  keys := Table.All.of_rows (by decide)

/-- The id of a new row at time 0, in a transaction that breaks off as given. -/
def withFault (newId : Uuid) (fault : Option Fault) : TimeOutside :=
  { newId := newId, now := 0, fault := fault }

/-- Card 40 is created. Three calls log time on it, and each finds the card before any
of them writes; the transaction of the second breaks off after it has inserted its entry. -/
def threeLogs : List (Move TimeCall TimeOutside) :=
  List.flatten [
    [.start (.card (.subcard (.create 20 1 30 { title := js "Ship" } 7)))],
    List.replicate 4 (.resume 0 (withFault 40 none)),
    [.start (.logTime 20 1 40 { minutes := 30 } 7), .start (.logTime 20 1 40 { minutes := 20 } 7),
      .start (.logTime 20 1 40 { minutes := 15 } 7)],
    List.flatten (List.replicate 2 [.resume 1 (withFault 0 none), .resume 2 (withFault 0 none),
      .resume 3 (withFault 0 none)]),
    [.resume 1 (withFault 50 none),
      .resume 2 (withFault 51 (some ⟨.updateCard, .appException "TIMEOUT" "Expired" 500⟩)),
      .resume 3 (withFault 52 none)]]

theorem loggedMinutes_eq_sum_threeLogs : ∃ (p : TimePool) (card : CardRow),
    Run (Pool.step (timeAnswer firstRanks) (TimeCall.program firstRanks))
      { store := emptyBoard } threeLogs p ∧
    p.store.world.db.cards.get? 40 = some card ∧ card.loggedMinutes = 45 ∧
      card.loggedMinutes = CardTimeRepository.sumForCard p.store 40 := by
  have hstart : LoggedTimeAddsUp emptyBoard := by
    intro cardId card hcard
    cases hcard
  obtain ⟨p, hp⟩ : ∃ p : TimePool,
      exec (Pool.step (timeAnswer firstRanks) (TimeCall.program firstRanks))
        { store := emptyBoard } threeLogs = some p :=
    Option.isSome_iff_exists.mp (by decide +kernel)
  have run := run_of_exec hp
  cases hp
  exact ⟨_, _, run, rfl, rfl, loggedMinutes_eq_sum firstRanks hstart run rfl⟩

end SyncBoard.Board
