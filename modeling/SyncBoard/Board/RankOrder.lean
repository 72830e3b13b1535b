import SyncBoard.Board.SubcardDepth

/-!
# Ranks order the active cards and lists

A new card or list gets a rank after the last active one, and a moved one a rank
between its new neighbours. What is archived is not among these, and keeps its rank:
brought back, it can meet a sibling with the same one. Where the `lexorank` package
throws, a card gets the initial rank. The ranks stay apart exactly where neither
happens to a card or list that then has an active sibling with its rank.

## Implementation notes

The `lexorank` package is a parameter. `LawfulRanking` is what is assumed of it: a
result is where it should be, and not the empty string, which counts as no rank.
Whether the package returns at all is not assumed.
-/

namespace SyncBoard.Board

open Relational Fallible Labelled

/-- One rank is before another in the order of the column. -/
def Before (rankLe : JsString → JsString → Bool) (a b : JsString) : Prop :=
  rankLe b a = false

instance (rankLe : JsString → JsString → Bool) (a b : JsString) :
    Decidable (Before rankLe a b) :=
  inferInstanceAs (Decidable (_ = _))

/-- The column is ordered, and the results of the package are where they should be. -/
structure LawfulRanking (lexorank : LexoRank) (rankLe : JsString → JsString → Bool) : Prop where
  total : ∀ a b, rankLe a b = true ∨ rankLe b a = true
  trans : ∀ a b c, rankLe a b = true → rankLe b c = true → rankLe a c = true
  genNext : ∀ a b, lexorank.genNext a = some b → Before rankLe a b
  genPrev : ∀ a b, lexorank.genPrev a = some b → Before rankLe b a
  between : ∀ a b c, Before rankLe a b → lexorank.between a b = some c →
    Before rankLe a c ∧ Before rankLe c b
  nonempty : ∀ a b c, LexorankService.rankBetween lexorank a b = some c → c ≠ []

/-- The list and the rank of an active card. -/
def CardRow.place (card : CardRow) : Option (Uuid × JsString) :=
  if card.archivedAt.isNone && card.deletedAt.isNone then some (card.listId, card.rank) else none

/-- The board and the rank of an active list. -/
def ListRow.place (list : ListRow) : Option (Uuid × JsString) :=
  if list.archivedAt.isNone && list.deletedAt.isNone then some (list.boardId, list.rank) else none

/-- The active cards of each list have distinct ranks, and so have the active lists
of each board. -/
structure DistinctRanks (db : Database) : Prop where
  cards : db.cards.UniqueWhere CardRow.place
  lists : db.lists.UniqueWhere ListRow.place

/-- No card and no list has the empty string as its rank. -/
structure RanksWritten (db : Database) : Prop where
  cards : db.cards.All fun _ card => card.rank ≠ []
  lists : db.lists.All fun _ list => list.rank ≠ []

/-- Some active row has the rank in the container. -/
def Occurs {ρ : Type} (t : Table Uuid ρ) (place : ρ → Option (Uuid × JsString))
    (container : Uuid) (rank : JsString) : Prop :=
  ∃ id row, t.get? id = some row ∧ place row = some (container, rank)

/-- The ranks that a client gives for a row it moves: those of two active rows of the
container with no other one between them, that of the first or of the last, or none
where there is no other row. -/
def Slot {ρ : Type} (rankLe : JsString → JsString → Bool) (t : Table Uuid ρ)
    (place : ρ → Option (Uuid × JsString)) (container id : Uuid) :
    Option JsString → Option JsString → Prop
  | none, none => ∀ rank, ¬ t.Taken place id (container, rank)
  | none, some next => Occurs t place container next ∧
      ∀ rank, t.Taken place id (container, rank) → ¬ Before rankLe rank next
  | some prev, none => Occurs t place container prev ∧
      ∀ rank, t.Taken place id (container, rank) → ¬ Before rankLe prev rank
  | some prev, some next => Occurs t place container prev ∧ Occurs t place container next ∧
      Before rankLe prev next ∧
        ∀ rank, t.Taken place id (container, rank) →
          ¬ (Before rankLe prev rank ∧ Before rankLe rank next)

namespace Operation

/-- A move goes between two adjacent active cards of the target list, before its first
or after its last; likewise for the lists of a board. -/
def MovesIntoSlot (rankLe : JsString → JsString → Bool) (db : Database) : Operation → Prop
  | .card (.move _ _ cardId dto _) =>
      Slot rankLe db.cards CardRow.place dto.targetListId cardId dto.prevRank dto.nextRank
  | .list (.move boardId _ listId dto _) =>
      Slot rankLe db.lists ListRow.place boardId listId dto.prevRank dto.nextRank
  | _ => True

end Operation

/-- The package throws for the last card of the list. -/
def FallsBack (env : Env) (db : Database) (listId : Uuid) : Prop :=
  ∃ last, CardRepository.findLastInList env.rankLe db listId = some last ∧
    env.lexorank.genNext last.rank = none

/-- Where a call that passes its checks brings back a card or list that is not deleted,
no active sibling has its rank; where it gives a card the initial rank because the
package throws, no active card of the list has that one. -/
def Operation.FindsRankFree (env : Env) (db : Database) : Operation → Prop
  | .card (.create boardId workspaceId listId dto userId) =>
      CreateAccepted env db boardId workspaceId listId dto userId → FallsBack env db listId →
        ¬ db.cards.Taken CardRow.place env.newId (listId, env.lexorank.middle)
  | .card (.createSubcard boardId workspaceId parentId dto userId) => ∀ listId,
      SubcardAccepted env db boardId workspaceId parentId listId dto userId →
        FallsBack env db listId →
          ¬ db.cards.Taken CardRow.place env.newId (listId, env.lexorank.middle)
  | .card (.move boardId workspaceId cardId dto _) =>
      MoveAccepted env db boardId workspaceId cardId dto →
        LexorankService.rankBetween env.lexorank (dto.prevRank.getD []) (dto.nextRank.getD []) =
          none →
            ¬ db.cards.Taken CardRow.place cardId (dto.targetListId, env.lexorank.middle)
  | .card (.unarchive boardId workspaceId cardId _) =>
      OnAnyCard db boardId workspaceId cardId → ∀ card, db.cards.get? cardId = some card →
        card.deletedAt = none → ¬ db.cards.Taken CardRow.place cardId (card.listId, card.rank)
  | .list (.unarchive boardId workspaceId listId _) =>
      OnAnyList db boardId workspaceId listId → ∀ list, db.lists.get? listId = some list →
        list.deletedAt = none → ¬ db.lists.Taken ListRow.place listId (list.boardId, list.rank)
  | _ => True

section Ranks
variable {lexorank : LexoRank} {rankLe : JsString → JsString → Bool}

theorem rankBetween_prev {prev : JsString} (h : prev ≠ []) :
    LexorankService.rankBetween lexorank prev [] = lexorank.genNext prev := by
  cases prev with
  | nil => exact absurd rfl h
  | cons => rfl

theorem rankBetween_next {next : JsString} (h : next ≠ []) :
    LexorankService.rankBetween lexorank [] next = lexorank.genPrev next := by
  cases next with
  | nil => exact absurd rfl h
  | cons => rfl

theorem rankBetween_both {prev next : JsString} (hprev : prev ≠ []) (hnext : next ≠ []) :
    LexorankService.rankBetween lexorank prev next = lexorank.between prev next := by
  cases prev with
  | nil => exact absurd rfl hprev
  | cons =>
      cases next with
      | nil => exact absurd rfl hnext
      | cons => rfl

/-- The rank that the package returns for a slot is not taken. -/
theorem Slot.free {ρ : Type} {t : Table Uuid ρ} {place : ρ → Option (Uuid × JsString)}
    {container id : Uuid} {prev next : Option JsString} {rank : JsString}
    (hlawful : LawfulRanking lexorank rankLe)
    (hwritten : ∀ rank, Occurs t place container rank → rank ≠ [])
    (h : Slot rankLe t place container id prev next)
    (hrank : LexorankService.rankBetween lexorank (prev.getD []) (next.getD []) = some rank) :
    ¬ t.Taken place id (container, rank) := by
  intro htaken
  cases prev with
  | none =>
      cases next with
      | none => exact h rank htaken
      | some next =>
          obtain ⟨hnext, hnone⟩ := h
          rw [Option.getD_none, Option.getD_some, rankBetween_next (hwritten next hnext)] at hrank
          exact hnone rank htaken (hlawful.genPrev next rank hrank)
  | some prev =>
      cases next with
      | none =>
          obtain ⟨hprev, hnone⟩ := h
          rw [Option.getD_none, Option.getD_some, rankBetween_prev (hwritten prev hprev)] at hrank
          exact hnone rank htaken (hlawful.genNext prev rank hrank)
      | some next =>
          obtain ⟨hprev, hnext, hbefore, hnone⟩ := h
          rw [Option.getD_some, Option.getD_some,
            rankBetween_both (hwritten prev hprev) (hwritten next hnext)] at hrank
          exact hnone rank htaken (hlawful.between prev next rank hbefore hrank)

theorem getRankBetween_eq_ok {prev next : Option JsString} {rank : JsString} :
    LexorankService.getRankBetween lexorank prev next = .ok rank ↔
      LexorankService.rankBetween lexorank (prev.getD []) (next.getD []) = some rank := by
  rw [LexorankService.getRankBetween]
  split <;> simp_all

theorem rankOrInitial_of_some {lexorank : LexoRank} {prev next : Option JsString}
    {rank : JsString}
    (h : LexorankService.rankBetween lexorank (prev.getD []) (next.getD []) = some rank) :
    LexorankService.rankOrInitial lexorank prev next = rank := by
  simp [LexorankService.rankOrInitial, LexorankService.getRankBetween, h]

theorem rankOrInitial_of_none {lexorank : LexoRank} {prev next : Option JsString}
    (h : LexorankService.rankBetween lexorank (prev.getD []) (next.getD []) = none) :
    LexorankService.rankOrInitial lexorank prev next = lexorank.middle := by
  simp [LexorankService.rankOrInitial, LexorankService.getRankBetween, h,
    LexorankService.getInitialRank]

/-- A card gets what the package returns, or the initial rank. -/
theorem rankOrInitial_cases (lexorank : LexoRank) (prev next : Option JsString) :
    LexorankService.rankBetween lexorank (prev.getD []) (next.getD []) =
        some (LexorankService.rankOrInitial lexorank prev next) ∨
      LexorankService.rankBetween lexorank (prev.getD []) (next.getD []) = none ∧
        LexorankService.rankOrInitial lexorank prev next = lexorank.middle := by
  cases hrank : LexorankService.rankBetween lexorank (prev.getD []) (next.getD []) with
  | none => exact .inr ⟨rfl, rankOrInitial_of_none hrank⟩
  | some rank => exact .inl (congrArg some (rankOrInitial_of_some hrank).symm)

theorem LawfulRanking.rankOrInitial_ne (h : LawfulRanking lexorank rankLe)
    (prev next : Option JsString) : LexorankService.rankOrInitial lexorank prev next ≠ [] := by
  rcases rankOrInitial_cases lexorank prev next with hrank | ⟨-, hmiddle⟩
  · exact h.nonempty _ _ _ hrank
  · rw [hmiddle]
    exact h.nonempty [] [] _ rfl

end Ranks

section Last
variable {env : Env} {db : Database} {listId boardId : Uuid}

theorem CardRow.place_eq_some {card : CardRow} {x : Uuid × JsString} :
    card.place = some x ↔
      (card.archivedAt = none ∧ card.deletedAt = none) ∧ (card.listId, card.rank) = x := by
  simp [place]

theorem ListRow.place_eq_some {list : ListRow} {x : Uuid × JsString} :
    list.place = some x ↔
      (list.archivedAt = none ∧ list.deletedAt = none) ∧ (list.boardId, list.rank) = x := by
  simp [place]

theorem rankAfterLast_of_last {last : CardRow}
    (h : CardRepository.findLastInList env.rankLe db listId = some last) :
    CardService.rankAfterLast env db listId =
      LexorankService.rankOrInitial env.lexorank (some last.rank) none := by
  rw [CardService.rankAfterLast, h]

/-- The rank after the last card is not taken, unless the package throws for it. -/
theorem rankAfterLast_free (hlawful : LawfulRanking env.lexorank env.rankLe)
    (hwritten : RanksWritten db) (hfalls : ¬ FallsBack env db listId) (id : Uuid) :
    ¬ db.cards.Taken CardRow.place id (listId, CardService.rankAfterLast env db listId) := by
  rintro ⟨j, card, -, hcard, hplace⟩
  obtain ⟨⟨harchived, hdeleted⟩, hx⟩ := CardRow.place_eq_some.mp hplace
  obtain ⟨hlist, hrank⟩ := Prod.mk.inj hx
  have hlisted : (card.listId == listId && card.archivedAt.isNone && card.deletedAt.isNone) = true := by
    simp [hlist, harchived, hdeleted]
  cases hlast : CardRepository.findLastInList env.rankLe db listId with
  | none =>
      have hnot := Table.greatest?_rows_eq_none hlast hcard
      rw [hlisted] at hnot
      cases hnot
  | some last =>
      obtain ⟨⟨⟨k, hk⟩, -⟩, hle⟩ :=
        Table.greatest?_rows_eq_some hlawful.total hlawful.trans hlast
      have hbelow : env.rankLe card.rank last.rank = true := hle j card hcard hlisted
      have hwrittenLast : last.rank ≠ [] := hwritten.cards k last hk
      rw [rankAfterLast_of_last hlast] at hrank
      rcases rankOrInitial_cases env.lexorank (some last.rank) none with
        hnext | ⟨hnone, -⟩
      · rw [Option.getD_some, Option.getD_none, rankBetween_prev hwrittenLast] at hnext
        have habove := hlawful.genNext last.rank _ hnext
        rw [Before, ← hrank, hbelow] at habove
        cases habove
      · rw [Option.getD_some, Option.getD_none, rankBetween_prev hwrittenLast] at hnone
        exact hfalls ⟨last, hlast, hnone⟩

theorem FallsBack.rankAfterLast (h : FallsBack env db listId) (hwritten : RanksWritten db)
    (hlawful : LawfulRanking env.lexorank env.rankLe) :
    CardService.rankAfterLast env db listId = env.lexorank.middle := by
  obtain ⟨last, hlast, hthrows⟩ := h
  obtain ⟨⟨⟨k, hk⟩, -⟩, -⟩ := Table.greatest?_rows_eq_some hlawful.total hlawful.trans hlast
  rw [rankAfterLast_of_last hlast]
  apply rankOrInitial_of_none
  rw [Option.getD_some, Option.getD_none, rankBetween_prev (hwritten.cards k last hk), hthrows]

theorem rankAfterLast_ne (hlawful : LawfulRanking env.lexorank env.rankLe) :
    CardService.rankAfterLast env db listId ≠ [] := by
  rw [CardService.rankAfterLast]
  split
  · exact hlawful.rankOrInitial_ne _ _
  · exact hlawful.nonempty [] [] _ rfl

/-- The rank after the last list of a board is not taken. -/
theorem listRankAfterLast_free (hlawful : LawfulRanking env.lexorank env.rankLe)
    (hwritten : RanksWritten db) {rank : JsString}
    (h : ListService.rankAfterLast env db boardId = .ok rank) (id : Uuid) :
    ¬ db.lists.Taken ListRow.place id (boardId, rank) := by
  rintro ⟨j, list, -, hlist, hplace⟩
  obtain ⟨⟨harchived, hdeleted⟩, hx⟩ := ListRow.place_eq_some.mp hplace
  obtain ⟨hboard, rfl⟩ := Prod.mk.inj hx
  have hlisted : (list.boardId == boardId && list.archivedAt.isNone && list.deletedAt.isNone) =
      true := by
    simp [hboard, harchived, hdeleted]
  cases hlast : ListRepository.findLastInBoard env.rankLe db boardId with
  | none =>
      have hnot := Table.greatest?_rows_eq_none hlast hlist
      rw [hlisted] at hnot
      cases hnot
  | some last =>
      obtain ⟨⟨⟨k, hk⟩, -⟩, hle⟩ :=
        Table.greatest?_rows_eq_some hlawful.total hlawful.trans hlast
      have hbelow : env.rankLe list.rank last.rank = true := hle j list hlist hlisted
      rw [ListService.rankAfterLast, hlast, getRankBetween_eq_ok, Option.getD_some,
        Option.getD_none, rankBetween_prev (hwritten.lists k last hk)] at h
      have habove := hlawful.genNext last.rank _ h
      rw [Before, hbelow] at habove
      cases habove

theorem listRankAfterLast_ne (hlawful : LawfulRanking env.lexorank env.rankLe) {rank : JsString}
    (h : ListService.rankAfterLast env db boardId = .ok rank) : rank ≠ [] := by
  rw [ListService.rankAfterLast] at h
  split at h
  · exact hlawful.nonempty _ _ _ (getRankBetween_eq_ok.mp h)
  · obtain rfl := Except.ok.inj h
    exact hlawful.nonempty [] [] _ rfl

end Last

section Calls
variable {env : Env} {w w' : World}

section Places
variable {ρ : Type} {t : Table Uuid ρ} {place : ρ → Option (Uuid × JsString)} {id : Uuid}
variable {old new : ρ}

/-- A row that has a place has the one that is to be free. -/
theorem free_iff {x : Uuid × JsString} (hplace : place new = some x) :
    (∀ y, place new = some y → ¬ t.Taken place id y) ↔ ¬ t.Taken place id x := by
  simp [hplace]

/-- A row that was in its place before finds it free. -/
theorem free_of_place (h : t.UniqueWhere place) (hold : t.get? id = some old)
    (hplace : ∀ x, place new = some x → place old = some x) :
    ∀ x, place new = some x → ¬ t.Taken place id x :=
  fun x hx => h.free hold (hplace x hx)

end Places

theorem RanksWritten.occurs_card {db : Database} (h : RanksWritten db) {listId : Uuid}
    (rank : JsString) (hoccurs : Occurs db.cards CardRow.place listId rank) : rank ≠ [] := by
  obtain ⟨id, card, hcard, hplace⟩ := hoccurs
  obtain ⟨-, hx⟩ := CardRow.place_eq_some.mp hplace
  obtain ⟨-, rfl⟩ := Prod.mk.inj hx
  exact h.cards id card hcard

theorem RanksWritten.occurs_list {db : Database} (h : RanksWritten db) {boardId : Uuid}
    (rank : JsString) (hoccurs : Occurs db.lists ListRow.place boardId rank) : rank ≠ [] := by
  obtain ⟨id, list, hlist, hplace⟩ := hoccurs
  obtain ⟨-, hx⟩ := ListRow.place_eq_some.mp hplace
  obtain ⟨-, rfl⟩ := Prod.mk.inj hx
  exact h.lists id list hlist

/-- A new card finds its rank free, unless it falls back to a rank that is taken. -/
theorem rankAfterLast_free_iff (hlawful : LawfulRanking env.lexorank env.rankLe)
    (hwritten : RanksWritten w.db) {listId id : Uuid} :
    ¬ w.db.cards.Taken CardRow.place id (listId, CardService.rankAfterLast env w.db listId) ↔
      (FallsBack env w.db listId →
        ¬ w.db.cards.Taken CardRow.place id (listId, env.lexorank.middle)) := by
  by_cases hfalls : FallsBack env w.db listId
  · rw [hfalls.rankAfterLast hwritten hlawful]
    exact ⟨fun hfree _ => hfree, fun hfree => hfree hfalls⟩
  · exact iff_of_true (rankAfterLast_free hlawful hwritten hfalls id)
      fun hthrows => absurd hthrows hfalls

/-- A call of `CardService` that returns keeps the ranks apart exactly where it finds
the rank it writes free. -/
theorem distinctCards_iff (hlawful : LawfulRanking env.lexorank env.rankLe)
    (hwritten : RanksWritten w.db) (h : w.db.cards.UniqueWhere CardRow.place) {call : Call}
    (hslot : (Operation.card call).MovesIntoSlot env.rankLe w.db)
    (hreturns : Returns (call.run env) w () w') :
    w'.db.cards.UniqueWhere CardRow.place ↔ (Operation.card call).FindsRankFree env w.db := by
  obtain ⟨-, heffect⟩ := callEffect hreturns
  cases heffect with
  | kept hkept hcards =>
      rw [hcards]
      refine iff_of_true h ?_
      cases hkept <;> trivial
  | @wrote cardId old new event hwrite hold hcards =>
      rw [h.wrote_iff hcards]
      cases hwrite with
      | create hrow haccepted =>
          subst hrow
          rw [free_iff (CardRow.place_eq_some.mpr ⟨⟨rfl, rfl⟩, rfl⟩)]
          refine (rankAfterLast_free_iff hlawful hwritten).trans ?_
          exact ⟨fun hfree _ => hfree, fun hfree => hfree haccepted⟩
      | @createSubcard b ws p l u dto row hrow haccepted =>
          subst hrow
          rw [free_iff (CardRow.place_eq_some.mpr ⟨⟨rfl, rfl⟩, rfl⟩)]
          refine (rankAfterLast_free_iff hlawful hwritten).trans ?_
          constructor
          · intro hfree l' haccepted'
            obtain ⟨parent, hparent, -, rfl⟩ := haccepted.parent
            obtain ⟨parent', hparent', -, rfl⟩ := haccepted'.parent
            obtain rfl := Option.some.inj (hparent.symm.trans hparent')
            exact hfree
          · exact fun hfree => hfree l haccepted
      | @move b ws c u dto rank row new hrank hnew hactive htarget =>
          subst hrank
          have hwidth := (w'.db.wellFormed.cards _ _ hcards.self).2.2.2
          have hopen := hactive.active hold
          have hplace : new.place = some (dto.targetListId,
              LexorankService.rankOrInitial env.lexorank dto.prevRank dto.nextRank) := by
            subst hnew
            exact CardRow.place_eq_some.mpr ⟨hopen, rfl⟩
          rw [free_iff hplace]
          rcases rankOrInitial_cases env.lexorank dto.prevRank dto.nextRank with
            hrank | ⟨hthrows, hmiddle⟩
          · refine iff_of_true (hslot.free hlawful hwritten.occurs_card hrank) fun _ hthrows => ?_
            rw [hrank] at hthrows
            cases hthrows
          · rw [hmiddle]
            rw [hnew] at hwidth
            exact ⟨fun hfree _ _ => hfree, fun hfree => hfree ⟨hactive, htarget, hwidth⟩ hthrows⟩
      | @unarchive b ws c u row new hnew hany =>
          by_cases hdeleted : row.deletedAt = none
          · have hplace : new.place = some (row.listId, row.rank) := by
              subst hnew
              exact CardRow.place_eq_some.mpr ⟨⟨rfl, hdeleted⟩, rfl⟩
            rw [free_iff hplace]
            constructor
            · intro hfree _ card hcard _
              obtain rfl := Option.some.inj (hold.symm.trans hcard)
              exact hfree
            · exact fun hfree => hfree hany row hold hdeleted
          · refine iff_of_true (fun x hx => ?_) fun _ card hcard hopen => ?_
            · subst hnew
              exact absurd (CardRow.place_eq_some.mp hx).1.2 hdeleted
            · obtain rfl := Option.some.inj (hold.symm.trans hcard)
              exact absurd hopen hdeleted
      | archive hnew =>
          subst hnew
          refine iff_of_true (fun x hx => ?_) trivial
          obtain ⟨⟨harchived, -⟩, -⟩ := CardRow.place_eq_some.mp hx
          cases harchived
      | deletePermanently hnew =>
          subst hnew
          refine iff_of_true (fun x hx => ?_) trivial
          obtain ⟨⟨-, hdeleted⟩, -⟩ := CardRow.place_eq_some.mp hx
          cases hdeleted
      | update hnew | updatePriority hnew | updateStatus hnew | attachSubcard hnew
      | detachSubcard hnew =>
          subst hnew
          exact iff_of_true (free_of_place h hold fun _ hx => hx) trivial

/-- A call of `ListService` that returns keeps the ranks apart exactly where it finds
the rank it writes free. -/
theorem distinctLists_iff (hlawful : LawfulRanking env.lexorank env.rankLe)
    (hwritten : RanksWritten w.db) (h : w.db.lists.UniqueWhere ListRow.place) {call : ListCall}
    (hslot : (Operation.list call).MovesIntoSlot env.rankLe w.db)
    (hreturns : Returns (call.run env) w () w') :
    w'.db.lists.UniqueWhere ListRow.place ↔ (Operation.list call).FindsRankFree env w.db := by
  obtain ⟨listId, old, new, event, hwrite, hold, hlists, -⟩ := (listEffect hreturns).wrote
  rw [h.wrote_iff hlists]
  cases hwrite with
  | create hrank hrow =>
      subst hrow
      rw [free_iff (ListRow.place_eq_some.mpr ⟨⟨rfl, rfl⟩, rfl⟩)]
      exact iff_of_true (listRankAfterLast_free hlawful hwritten hrank _) trivial
  | @move b ws l u dto rank row new hrank hnew hactive =>
      obtain ⟨rfl, hopen⟩ := hactive.active hold
      have hplace : new.place = some (row.boardId, rank) := by
        subst hnew
        exact ListRow.place_eq_some.mpr ⟨hopen, rfl⟩
      rw [free_iff hplace]
      exact iff_of_true
        (hslot.free hlawful hwritten.occurs_list (getRankBetween_eq_ok.mp hrank)) trivial
  | @unarchive b ws l u row new hnew hany =>
      by_cases hdeleted : row.deletedAt = none
      · have hplace : new.place = some (row.boardId, row.rank) := by
          subst hnew
          exact ListRow.place_eq_some.mpr ⟨⟨rfl, hdeleted⟩, rfl⟩
        rw [free_iff hplace]
        constructor
        · intro hfree _ list hlist _
          obtain rfl := Option.some.inj (hold.symm.trans hlist)
          exact hfree
        · exact fun hfree => hfree hany row hold hdeleted
      · refine iff_of_true (fun x hx => ?_) fun _ list hlist hopen => ?_
        · subst hnew
          exact absurd (ListRow.place_eq_some.mp hx).1.2 hdeleted
        · obtain rfl := Option.some.inj (hold.symm.trans hlist)
          exact absurd hopen hdeleted
  | archive hnew =>
      subst hnew
      refine iff_of_true (fun x hx => ?_) trivial
      obtain ⟨⟨harchived, -⟩, -⟩ := ListRow.place_eq_some.mp hx
      cases harchived
  | deletePermanently hnew =>
      subst hnew
      refine iff_of_true (fun x hx => ?_) trivial
      obtain ⟨⟨-, hdeleted⟩, -⟩ := ListRow.place_eq_some.mp hx
      cases hdeleted
  | update hnew =>
      subst hnew
      exact iff_of_true (free_of_place h hold fun _ hx => hx) trivial

/-- What a call writes has a rank. -/
theorem RanksWritten.card (hlawful : LawfulRanking env.lexorank env.rankLe)
    (h : RanksWritten w.db) {call : Call} (hreturns : Returns (call.run env) w () w') :
    RanksWritten w'.db := by
  obtain ⟨hframe, heffect⟩ := callEffect hreturns
  refine ⟨?_, by rw [hframe.lists]; exact h.lists⟩
  cases heffect with
  | kept _ hcards =>
      rw [hcards]
      exact h.cards
  | @wrote cardId old new event hwrite hold hcards =>
      have hnew : new.rank ≠ [] := by
        cases hwrite with
        | create hrow | createSubcard hrow =>
            rw [hrow]
            exact rankAfterLast_ne hlawful
        | move hrank hnew =>
            rw [hnew, hrank]
            exact hlawful.rankOrInitial_ne _ _
        | update hnew | updatePriority hnew | updateStatus hnew | attachSubcard hnew
        | detachSubcard hnew | archive hnew | unarchive hnew | deletePermanently hnew =>
            have hbefore := h.cards _ _ hold
            rw [hnew]
            exact hbefore
      intro id card hcard
      rcases hcards.eq_or_old hcard with ⟨-, rfl⟩ | ⟨-, hcard⟩
      · exact hnew
      · exact h.cards id card hcard

theorem RanksWritten.list (hlawful : LawfulRanking env.lexorank env.rankLe)
    (h : RanksWritten w.db) {call : ListCall} (hreturns : Returns (call.run env) w () w') :
    RanksWritten w'.db := by
  have heffect := listEffect hreturns
  refine ⟨by rw [heffect.cards]; exact h.cards, ?_⟩
  obtain ⟨listId, old, new, event, hwrite, hold, hlists, -⟩ := heffect.wrote
  have hnew : new.rank ≠ [] := by
    cases hwrite with
    | create hrank hrow =>
        rw [hrow]
        exact listRankAfterLast_ne hlawful hrank
    | move hrank hnew =>
        rw [hnew]
        exact hlawful.nonempty _ _ _ (getRankBetween_eq_ok.mp hrank)
    | update hnew | archive hnew | unarchive hnew | deletePermanently hnew =>
        have hbefore := h.lists _ _ hold
        rw [hnew]
        exact hbefore
  intro id list hlist
  rcases hlists.eq_or_old hlist with ⟨-, rfl⟩ | ⟨-, hlist⟩
  · exact hnew
  · exact h.lists id list hlist

/-- A call that does not return finds no rank taken: none of its writes is made. -/
theorem findsRankFree_of_throws {op : Operation} (h : ∀ u, ¬ Returns (op.run env) w () u) :
    op.FindsRankFree env w.db := by
  cases op with
  | card call =>
      cases call with
      | create =>
          intro haccepted
          obtain ⟨card, u, hreturns⟩ := exists_create haccepted
          exact absurd (returns_discard.mpr ⟨card, hreturns⟩) (h u)
      | createSubcard =>
          intro l haccepted
          obtain ⟨card, u, hreturns⟩ := exists_createSubcard haccepted
          exact absurd (returns_discard.mpr ⟨card, hreturns⟩) (h u)
      | move =>
          intro haccepted
          obtain ⟨card, u, hreturns⟩ := exists_move haccepted
          exact absurd (returns_discard.mpr ⟨card, hreturns⟩) (h u)
      | unarchive =>
          intro hany
          obtain ⟨card, u, hreturns⟩ := exists_unarchive hany
          exact absurd (returns_discard.mpr ⟨card, hreturns⟩) (h u)
      | _ => trivial
  | list call =>
      cases call with
      | unarchive =>
          intro hany
          obtain ⟨list, u, hreturns⟩ := exists_unarchiveList hany
          exact absurd (returns_discard.mpr ⟨list, hreturns⟩) (h u)
      | _ => trivial
  | board => trivial

end Calls

section Steps
variable {ranking : Ranking} {w w' : World} {r : Request}

theorem RanksWritten.step (hlawful : LawfulRanking ranking.lexorank ranking.rankLe)
    (h : RanksWritten w.db) (hstep : step ranking w r = some w') : RanksWritten w'.db := by
  rcases step_cases hstep with hreturns | rfl
  · obtain ⟨op, newId, now⟩ := r
    cases op with
    | card call => exact h.card hlawful hreturns
    | list call => exact h.list hlawful hreturns
    | board call =>
        have heffect := boardEffect hreturns
        exact ⟨by rw [heffect.cards]; exact h.cards, by rw [heffect.lists]; exact h.lists⟩
  · exact h

/-- One request keeps the ranks apart exactly where it finds the rank it writes free. -/
theorem distinctRanks_step (hlawful : LawfulRanking ranking.lexorank ranking.rankLe)
    (hwritten : RanksWritten w.db) (h : DistinctRanks w.db)
    (hslot : r.operation.MovesIntoSlot ranking.rankLe w.db)
    (hstep : step ranking w r = some w') :
    DistinctRanks w'.db ↔ r.operation.FindsRankFree (r.env ranking) w.db := by
  by_cases hreturns : Returns (r.operation.run (r.env ranking)) w () w'
  · obtain ⟨op, newId, now⟩ := r
    cases op with
    | card call =>
        have hiff := distinctCards_iff hlawful hwritten h.cards hslot hreturns
        obtain ⟨hframe, -⟩ := callEffect hreturns
        have hlists : w'.db.lists.UniqueWhere ListRow.place := by
          rw [hframe.lists]
          exact h.lists
        exact ⟨fun h' => hiff.mp h'.cards, fun hfree => ⟨hiff.mpr hfree, hlists⟩⟩
    | list call =>
        have hiff := distinctLists_iff hlawful hwritten h.lists hslot hreturns
        have hcards : w'.db.cards.UniqueWhere CardRow.place := by
          rw [(listEffect hreturns).cards]
          exact h.cards
        exact ⟨fun h' => hiff.mp h'.lists, fun hfree => ⟨hcards, hiff.mpr hfree⟩⟩
    | board call =>
        have heffect := boardEffect hreturns
        refine iff_of_true ⟨?_, ?_⟩ trivial
        · rw [heffect.cards]
          exact h.cards
        · rw [heffect.lists]
          exact h.lists
  · obtain ⟨rfl, hthrows⟩ := step_throws hstep hreturns
    exact iff_of_true h (findsRankFree_of_throws hthrows)

end Steps

/-- In a run of requests whose moves go where there is a place, the active cards of
each list and the active lists of each board keep distinct ranks exactly when no card
or list is brought back to a sibling with its rank, and none falls back to the initial
rank beside a card that has it. -/
theorem ranksKept_iff (ranking : Ranking)
    (hlawful : LawfulRanking ranking.lexorank ranking.rankLe) {w w' : World} {rs : List Request}
    (run : Run (step ranking) w rs w')
    (hslots : AllSteps (step ranking)
      (fun w r => r.operation.MovesIntoSlot ranking.rankLe w.db) w rs)
    (hwritten : RanksWritten w.db) (h : DistinctRanks w.db) :
    AllStates (step ranking) (fun w => DistinctRanks w.db) w rs ↔
      AllSteps (step ranking)
        (fun w r => r.operation.FindsRankFree (r.env ranking) w.db) w rs :=
  allStates_iff_allSteps_of (I := fun w => RanksWritten w.db)
    (fun _ _ _ hwritten _ hstep => hwritten.step hlawful hstep)
    (fun _ _ _ hwritten hslot h hstep => distinctRanks_step hlawful hwritten h hslot hstep)
    run hslots hwritten h

/-- The ranks around the first one; `between` is not reached. -/
def edgeRanks : Ranking where
  lexorank := { firstRanks.lexorank with
    genPrev := fun rank => if rank = js "0|hzzzzz:" then some (js "0|hzzzzr:") else none }
  rankLe := firstRanks.rankLe

theorem lawful_edgeRanks : LawfulRanking edgeRanks.lexorank edgeRanks.rankLe := by
  have hnext : ∀ a b, edgeRanks.lexorank.genNext a = some b →
      Before edgeRanks.rankLe a b ∧ b ≠ [] := by
    intro a b h
    simp only [edgeRanks, firstRanks] at h
    split at h
    · next ha =>
        subst ha
        obtain rfl := Option.some.inj h
        decide
    · split at h
      · next ha =>
          subst ha
          obtain rfl := Option.some.inj h
          decide
      · cases h
  have hprev : ∀ a b, edgeRanks.lexorank.genPrev a = some b →
      Before edgeRanks.rankLe b a ∧ b ≠ [] := by
    intro a b h
    simp only [edgeRanks] at h
    split at h
    · next ha =>
        subst ha
        obtain rfl := Option.some.inj h
        decide
    · cases h
  refine
    { total := fun a b => by simpa [edgeRanks, firstRanks] using le_total a b
      trans := fun a b c => by simpa [edgeRanks, firstRanks] using le_trans
      genNext := fun a b h => (hnext a b h).1
      genPrev := fun a b h => (hprev a b h).1
      between := fun _ _ _ _ h => by cases h
      nonempty := fun a b c h => ?_ }
  cases a with
  | nil =>
      cases b with
      | nil =>
          obtain rfl := Option.some.inj h
          decide
      | cons => exact (hprev _ c h).2
  | cons =>
      cases b with
      | nil => exact (hnext _ c h).2
      | cons => cases h

theorem ranks_oneBoard : RanksWritten oneBoard ∧ DistinctRanks oneBoard := by
  have hlist : oneBoard.lists.All fun id _ => id = 30 := Table.All.of_rows (by decide)
  refine ⟨⟨Table.All.of_rows (by decide), Table.All.of_rows (by decide)⟩, ?_, ?_⟩
  · intro j k card _ _ hj
    cases hj
  · intro j k list list' _ hj hk _ _
    exact (hlist j list hj).trans (hlist k list' hk).symm

/-- Cards 40 and 41, then card 41 is moved before card 40. -/
def moveBeforeFirst : List Request :=
  [⟨.card (.create 20 1 30 { title := js "Ship" } 7), 40, 1⟩,
    ⟨.card (.create 20 1 30 { title := js "Test" } 7), 41, 2⟩,
    ⟨.card (.move 20 1 41 { targetListId := 30, nextRank := some (js "0|hzzzzz:") } 7), 0, 3⟩]

theorem ranksKept_iff_moveBeforeFirst :
    AllStates (step edgeRanks) (fun w => DistinctRanks w.db) { db := oneBoard } moveBeforeFirst ↔
      AllSteps (step edgeRanks)
        (fun w r => r.operation.FindsRankFree (r.env edgeRanks) w.db) { db := oneBoard }
        moveBeforeFirst := by
  refine ranksKept_iff edgeRanks lawful_edgeRanks (run_of_exec rfl) ?_ ranks_oneBoard.1
    ranks_oneBoard.2
  refine allSteps_cons.mpr ⟨trivial, fun w₁ h₁ => allSteps_cons.mpr ⟨trivial, fun w₂ h₂ => ?_⟩⟩
  obtain rfl := Option.some.inj h₁
  obtain rfl := Option.some.inj h₂
  refine allSteps_cons.mpr ⟨⟨⟨40, _, rfl, rfl⟩, ?_⟩, fun _ _ => allSteps_nil⟩
  rintro rank ⟨j, card, hj, hcard, hplace⟩
  exact Table.All.of_rows (p := fun j card => j ≠ 41 → ∀ x ∈ card.place,
    ¬ Before edgeRanks.rankLe x.2 (js "0|hzzzzz:")) (by decide) j card hcard hj (30, rank) hplace

/-- Card 40 is created and archived, card 41 is created, and card 40 is brought back. -/
def unarchiveAfterCreate : List Request :=
  [⟨.card (.create 20 1 30 { title := js "Ship" } 7), 40, 1⟩,
    ⟨.card (.archive 20 1 40 7), 0, 2⟩,
    ⟨.card (.create 20 1 30 { title := js "Test" } 7), 41, 3⟩,
    ⟨.card (.unarchive 20 1 40 7), 0, 4⟩]

/-- Both cards have the initial rank. -/
theorem unarchiveAfterCreate_collides :
    ¬ ∀ ranking : Ranking, LawfulRanking ranking.lexorank ranking.rankLe →
      ∀ (w w' : World) (rs : List Request), RanksWritten w.db → DistinctRanks w.db →
        AllSteps (step ranking)
          (fun w r => r.operation.MovesIntoSlot ranking.rankLe w.db) w rs →
        Run (step ranking) w rs w' → DistinctRanks w'.db := by
  intro hall
  have hslots : AllSteps (step edgeRanks)
      (fun w r => r.operation.MovesIntoSlot edgeRanks.rankLe w.db) { db := oneBoard }
      unarchiveAfterCreate :=
    allSteps_cons.mpr ⟨trivial, fun _ _ => allSteps_cons.mpr ⟨trivial, fun _ _ =>
      allSteps_cons.mpr ⟨trivial, fun _ _ => allSteps_cons.mpr ⟨trivial, fun _ _ =>
        allSteps_nil⟩⟩⟩⟩
  have h := hall edgeRanks lawful_edgeRanks { db := oneBoard } _ unarchiveAfterCreate
    ranks_oneBoard.1 ranks_oneBoard.2 hslots (run_of_exec rfl)
  have heq : (40 : Uuid) = 41 := h.cards 40 41 _ _ (30, js "0|hzzzzz:") rfl rfl rfl rfl
  cases heq

end SyncBoard.Board
