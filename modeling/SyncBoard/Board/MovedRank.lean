import SyncBoard.Board.RankOrder

/-!
# Where a move places a card or a list

Both `move` calls ask `LexorankService` for a rank between the two that the client gives.
Where the package throws, because the two are equal or one of them is malformed,
`ListService` throws on and nothing is written; `CardService` catches the error and gives
the card the initial rank, wherever that is. A move that throws has written nothing.

## Implementation notes

As in the service, the empty string counts as no rank, and gives no bound.
-/

namespace SyncBoard.Board

open Relational Fallible

/-- Strictly between the given ranks, whichever of them is the lower one. -/
def LiesBetween (rankLe : JsString → JsString → Bool) : JsString → JsString → JsString → Prop
  | [], [], _ => True
  | [], next, rank => Before rankLe rank next
  | prev, [], rank => Before rankLe prev rank
  | prev, next, rank =>
      Before rankLe prev rank ∧ Before rankLe rank next ∨
        Before rankLe next rank ∧ Before rankLe rank prev

/-- What is assumed of the package: `between` returns a rank strictly between two distinct
ranks and throws on equal or malformed ones, and the others return a rank on their side. -/
structure PlacingRanking (lexorank : LexoRank) (rankLe : JsString → JsString → Bool)
    (parses : JsString → Prop) : Prop where
  between : ∀ a b, parses a → parses b → a ≠ b → ∃ c, lexorank.between a b = some c ∧
    (Before rankLe a c ∧ Before rankLe c b ∨ Before rankLe b c ∧ Before rankLe c a)
  between_throws : ∀ a b, a = b ∨ ¬ parses a ∨ ¬ parses b → lexorank.between a b = none
  genNext : ∀ a b, lexorank.genNext a = some b → parses a ∧ Before rankLe a b
  genPrev : ∀ a b, lexorank.genPrev a = some b → parses a ∧ Before rankLe b a

/-- A call that returns has placed its row, and one that throws has changed nothing and
emitted nothing. -/
def PlacesOrFails (call : Service Unit) (w : World) (placed : World → Prop) : Prop :=
  (∀ w', Returns call w () w' → placed w') ∧ ∀ e w', Throws call w e w' → w' = w

section Rank
variable {lexorank : LexoRank} {rankLe : JsString → JsString → Bool} {parses : JsString → Prop}
variable {prev next : JsString}

theorem liesBetween_both (hprev : prev ≠ []) (hnext : next ≠ []) {rank : JsString} :
    LiesBetween rankLe prev next rank ↔
      Before rankLe prev rank ∧ Before rankLe rank next ∨
        Before rankLe next rank ∧ Before rankLe rank prev := by
  cases prev with
  | nil => exact absurd rfl hprev
  | cons =>
      cases next with
      | nil => exact absurd rfl hnext
      | cons => exact Iff.rfl

/-- The package throws for two ranks that are equal, or of which one is malformed. -/
theorem PlacingRanking.throws_iff (h : PlacingRanking lexorank rankLe parses) (hprev : prev ≠ [])
    (hnext : next ≠ []) : LexorankService.rankBetween lexorank prev next = none ↔
      prev = next ∨ ¬ parses prev ∨ ¬ parses next := by
  rw [rankBetween_both hprev hnext]
  constructor
  · intro hnone
    by_contra hgood
    simp only [not_or, not_not] at hgood
    obtain ⟨hne, hp, hn⟩ := hgood
    obtain ⟨c, hc, -⟩ := h.between prev next hp hn hne
    cases hnone.symm.trans hc
  · exact h.between_throws prev next

/-- What the package returns lies between the given ranks. -/
theorem PlacingRanking.liesBetween (h : PlacingRanking lexorank rankLe parses) {rank : JsString}
    (hrank : LexorankService.rankBetween lexorank prev next = some rank) :
    LiesBetween rankLe prev next rank := by
  by_cases hprev : prev = []
  · subst hprev
    by_cases hnext : next = []
    · subst hnext
      trivial
    · rw [rankBetween_next hnext] at hrank
      cases next with
      | nil => exact absurd rfl hnext
      | cons => exact (h.genPrev _ rank hrank).2
  · by_cases hnext : next = []
    · subst hnext
      rw [rankBetween_prev hprev] at hrank
      cases prev with
      | nil => exact absurd rfl hprev
      | cons => exact (h.genNext _ rank hrank).2
    · rw [liesBetween_both hprev hnext]
      rw [rankBetween_both hprev hnext] at hrank
      have hgood : ¬ (prev = next ∨ ¬ parses prev ∨ ¬ parses next) := by
        intro hbad
        cases (h.between_throws prev next hbad).symm.trans hrank
      simp only [not_or, not_not] at hgood
      obtain ⟨hne, hp, hn⟩ := hgood
      obtain ⟨c, hc, hbetween⟩ := h.between prev next hp hn hne
      obtain rfl := Option.some.inj (hc.symm.trans hrank)
      exact hbetween

end Rank

section Calls
variable {env : Env} {parses : JsString → Prop} {w w' : World} {boardId workspaceId : Uuid}
variable {cardId listId userId : Uuid}

/-- A moved card stays active; it is in the target list and has the rank that the package
returns, or else the initial rank. -/
theorem cardMove_wrote {dto : MoveCardDto}
    (h : Returns ((Call.move boardId workspaceId cardId dto userId).run env) w () w') :
    CallFrame w w' ∧ ∃ new, w.db.cards.Wrote w'.db.cards cardId new ∧
      new.place = some (dto.targetListId, new.rank) ∧
        new.rank = LexorankService.rankOrInitial env.lexorank dto.prevRank dto.nextRank := by
  obtain ⟨hframe, heffect⟩ := callEffect h
  refine ⟨hframe, ?_⟩
  cases heffect with
  | kept hkept => cases hkept
  | wrote hwrite hold hwrote =>
      cases hwrite with
      | move hrank hnew hactive =>
          have hopen := hactive.active hold
          refine ⟨_, hwrote, ?_⟩
          rw [hnew]
          exact ⟨CardRow.place_eq_some.mpr ⟨hopen, rfl⟩, hrank⟩

/-- A moved list stays active on its board, with a rank that the package has returned. -/
theorem listMove_wrote {dto : MoveListDto}
    (h : Returns ((ListCall.move boardId workspaceId listId dto userId).run env) w () w') :
    w'.db.boards = w.db.boards ∧ ∃ new, w.db.lists.Wrote w'.db.lists listId new ∧
      new.place = some (boardId, new.rank) ∧
        LexorankService.rankBetween env.lexorank (dto.prevRank.getD []) (dto.nextRank.getD []) =
          some new.rank := by
  obtain ⟨hboards, -, -, -, _, _, _, _, hwrite, hold, hwrote, -⟩ := listEffect h
  refine ⟨hboards, ?_⟩
  cases hwrite with
  | move hrank hnew hactive =>
      obtain ⟨hboard, hopen⟩ := hactive.active hold
      refine ⟨_, hwrote, ?_⟩
      rw [hnew]
      refine ⟨ListRow.place_eq_some.mpr ⟨hopen, ?_⟩, getRankBetween_eq_ok.mp hrank⟩
      rw [← hboard]

/-- `ListService.move` returns where its checks pass, the package returns a rank and the rank
fits the column. -/
theorem exists_moveList {dto : MoveListDto} {rank : JsString}
    (h : OnActiveList w.db boardId workspaceId listId)
    (hrank : LexorankService.rankBetween env.lexorank (dto.prevRank.getD [])
      (dto.nextRank.getD []) = some rank) (hfits : charCount rank ≤ rankWidth) :
    ∃ list w', Returns (ListService.move env boardId workspaceId listId dto userId)
      w list w' := by
  obtain ⟨found, hfound⟩ := Option.isSome_iff_exists.mp h.list
  obtain ⟨hrow, -⟩ := ListRepository.findActiveById_eq_some hfound
  obtain ⟨hboard, -⟩ := w.db.wellFormed.lists listId found hrow
  obtain ⟨list, db, hupdate⟩ := ListRepository.exists_update_of_accepted
    (fun list => { list with rank := rank }) env.now hrow ⟨hboard, hfits⟩
  refine ⟨list, { w with
    db := db, listEvents := w.listEvents ++ [.moved listId boardId rank userId] }, ?_⟩
  refine returns_verifyBoardInWorkspace_bind.mpr ⟨h.board, ?_⟩
  refine returns_find_bind.mpr ⟨found, hfound, ?_⟩
  refine returns_orThrow_bind.mpr ⟨rank, getRankBetween_eq_ok.mpr hrank, ?_⟩
  apply returns_bind.mpr
  refine ⟨list, { w with db := db }, returns_write.mpr ⟨db, hupdate, rfl⟩, ?_⟩
  exact returns_bind.mpr ⟨(), _, returns_emitList.mpr rfl, returns_pure.mpr ⟨rfl, rfl⟩⟩

end Calls

/-- The package throws for the ranks that the client gives. -/
def LexorankService.Throws (lexorank : LexoRank) (prevRank nextRank : Option JsString) : Prop :=
  rankBetween lexorank (prevRank.getD []) (nextRank.getD []) = none

/-- A moved card lies between the given ranks, or has the initial rank where the package
throws, as it does for equal and malformed ranks. A moved list lies between the given ranks:
where the package throws, so does the call. -/
theorem moves_place_or_fail {env : Env} {parses : JsString → Prop}
    (hlawful : PlacingRanking env.lexorank env.rankLe parses) (w : World)
    (boardId workspaceId userId : Uuid) :
    (∀ cardId (dto : MoveCardDto),
      PlacesOrFails ((Call.move boardId workspaceId cardId dto userId).run env) w fun w' =>
        ∃ card, w'.db.cards.get? cardId = some card ∧ card.listId = dto.targetListId ∧
          (¬ LexorankService.Throws env.lexorank dto.prevRank dto.nextRank →
            LiesBetween env.rankLe (dto.prevRank.getD []) (dto.nextRank.getD []) card.rank) ∧
          (LexorankService.Throws env.lexorank dto.prevRank dto.nextRank →
            card.rank = env.lexorank.middle)) ∧
      (∀ listId (dto : MoveListDto),
        PlacesOrFails ((ListCall.move boardId workspaceId listId dto userId).run env) w fun w' =>
          ¬ LexorankService.Throws env.lexorank dto.prevRank dto.nextRank ∧
            ∃ list, w'.db.lists.get? listId = some list ∧
              LiesBetween env.rankLe (dto.prevRank.getD []) (dto.nextRank.getD []) list.rank) ∧
      ∀ prev next, prev ≠ [] → next ≠ [] →
        (LexorankService.Throws env.lexorank (some prev) (some next) ↔
          prev = next ∨ ¬ parses prev ∨ ¬ parses next) := by
  refine ⟨fun cardId dto => ⟨fun w' h => ?_, clean_run env _ w⟩,
    fun listId dto => ⟨fun w' h => ?_, clean_listCall env _ w⟩,
    fun prev next hprev hnext => hlawful.throws_iff hprev hnext⟩
  · obtain ⟨-, card, hwrote, hplace, hrank⟩ := cardMove_wrote h
    have hlist : card.listId = dto.targetListId :=
      (Prod.mk.inj (CardRow.place_eq_some.mp hplace).2).1
    refine ⟨card, hwrote.self, hlist, fun hreturns => ?_, fun hthrows => ?_⟩
    · rw [hrank]
      rcases rankOrInitial_cases env.lexorank dto.prevRank dto.nextRank with hsome | ⟨hnone, -⟩
      · exact hlawful.liesBetween hsome
      · exact absurd hnone hreturns
    · rw [hrank]
      exact rankOrInitial_of_none hthrows
  · obtain ⟨-, list, hwrote, -, hrank⟩ := listMove_wrote h
    refine ⟨fun hthrows => ?_, list, hwrote.self, hlawful.liesBetween hrank⟩
    cases hthrows.symm.trans hrank

/-- A list with two cards that have the same rank, and one after them. -/
def equalRanks : Database where
  workspaces := .single 1 ()
  users := .single 7 ()
  members := .single (1, 7) ()
  boards := .single 20 { workspaceId := 1, title := js "Plans", createdBy := 7, updatedAt := 1 }
  lists := .single 30 { boardId := 20, title := js "Open", rank := js "0|hzzzzz:", updatedAt := 1 }
  cards := ⟨[(40, { listId := 30, title := js "Ship", rank := js "0|hzzzzz:", createdBy := 7,
                    updatedAt := 1 }),
    (41, { listId := 30, title := js "Test", rank := js "0|hzzzzz:", createdBy := 7,
           updatedAt := 1 }),
    (42, { listId := 30, title := js "Plan", rank := js "0|i0000f:", createdBy := 7,
           updatedAt := 1 })], by decide⟩
  wellFormed :=
    { members := Table.All.of_rows (by decide)
      boards := Table.All.of_rows (by decide)
      starredBoards := Table.All.of_rows (by decide)
      lists := Table.All.of_rows (by decide)
      cards := Table.All.of_rows (by decide)
      cardAssignees := Table.All.of_rows (by decide)
      cardLabels := Table.All.of_rows (by decide)
      labels := Table.All.of_rows (by decide)
      checklists := Table.All.of_rows (by decide)
      checklistItems := Table.All.of_rows (by decide) }

/-- The ranks of `equalRanks`. -/
def TwoRanks (rank : JsString) : Prop :=
  rank = js "0|hzzzzz:" ∨ rank = js "0|i0000f:"

instance (rank : JsString) : Decidable (TwoRanks rank) :=
  inferInstanceAs (Decidable (_ ∨ _))

def midpointEnv : Env where
  lexorank :=
    { middle := js "0|hzzzzz:"
      genPrev := fun _ => none
      genNext := fun _ => none
      between := fun a b =>
        if TwoRanks a ∧ TwoRanks b ∧ a ≠ b then some (js "0|i00007:") else none }
  rankLe := firstRanks.rankLe
  newId := 0
  now := 2

theorem placing_midpointEnv : PlacingRanking midpointEnv.lexorank midpointEnv.rankLe TwoRanks where
  between a b ha hb hne := by
    refine ⟨js "0|i00007:", if_pos ⟨ha, hb, hne⟩, ?_⟩
    rcases ha with rfl | rfl <;> rcases hb with rfl | rfl
    · exact absurd rfl hne
    · exact .inl (by decide)
    · exact .inr (by decide)
    · exact absurd rfl hne
  between_throws a b hbad := by
    refine if_neg ?_
    rintro ⟨ha, hb, hne⟩
    rcases hbad with heq | hna | hnb
    · exact hne heq
    · exact hna ha
    · exact hnb hb
  genNext _ _ h := by cases h
  genPrev _ _ h := by cases h

/-- Card 41 is moved between the other two. -/
theorem move_between_places : ∃ w', Returns ((Call.move 20 1 41
      { targetListId := 30
        prevRank := some (js "0|hzzzzz:")
        nextRank := some (js "0|i0000f:") } 7).run midpointEnv) { db := equalRanks } () w' ∧
    ∃ card, w'.db.cards.get? 41 = some card ∧
      LiesBetween midpointEnv.rankLe (js "0|hzzzzz:") (js "0|i0000f:") card.rank := by
  refine ⟨_, rfl, ?_⟩
  obtain ⟨card, hcard, -, hplaced, -⟩ :=
    ((moves_place_or_fail placing_midpointEnv { db := equalRanks } 20 1 7).1 41
      { targetListId := 30
        prevRank := some (js "0|hzzzzz:")
        nextRank := some (js "0|i0000f:") }).1 _ rfl
  have hreturns : ¬ LexorankService.Throws midpointEnv.lexorank (some (js "0|hzzzzz:"))
      (some (js "0|i0000f:")) := by
    rw [LexorankService.Throws]
    decide
  exact ⟨card, hcard, hplaced hreturns⟩

/-- Card 42 is moved between the cards of equal rank, and gets that rank as well. -/
theorem move_between_equal_ranks : ¬ ∀ (env : Env) (parses : JsString → Prop),
    PlacingRanking env.lexorank env.rankLe parses →
      ∀ (w : World) (boardId workspaceId cardId userId : Uuid) (dto : MoveCardDto),
        PlacesOrFails ((Call.move boardId workspaceId cardId dto userId).run env) w fun w' =>
          ∃ card, w'.db.cards.get? cardId = some card ∧
            LiesBetween env.rankLe (dto.prevRank.getD []) (dto.nextRank.getD []) card.rank := by
  intro hall
  obtain ⟨card, hcard, hplaced⟩ := (hall midpointEnv TwoRanks placing_midpointEnv
    { db := equalRanks } 20 1 42 7
    { targetListId := 30
      prevRank := some (js "0|hzzzzz:")
      nextRank := some (js "0|hzzzzz:") }).1 _ rfl
  obtain rfl := Option.some.inj hcard
  rcases hplaced with ⟨h, -⟩ | ⟨h, -⟩
  · exact absurd h (by decide)
  · exact absurd h (by decide)

end SyncBoard.Board
