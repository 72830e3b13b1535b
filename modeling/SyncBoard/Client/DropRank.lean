import SyncBoard.Board.RankWidth
import SyncBoard.Board.ViewAgreement
import SyncBoard.Client.BoardCanvas

/-!
# Where a dropped card lands

`getBoardWithContent` sends the first fifty cards of a list, and the canvas takes the last
of these for the last card of the list: a drop after it asks for a rank after its rank, with
no upper bound, while the list may go on. Everywhere else the ranks around the place bound
the new one on the server too, unless the package throws for them.

## Implementation notes

The canvas shows the board as it is when the card is dropped. The labels and assignees of
a card are as the mapper of the board sends them.
-/

namespace SyncBoard.Client.BoardCanvas

open Relational Positional Fallible Board

/-- A card as `getBoardWithContent` sends it. -/
def canvasCard (card : CardContent) : Card where
  id := card.id
  listId := card.row.listId
  title := card.row.title
  description := card.row.description
  rank := card.row.rank
  parentCardId := card.row.parentCardId
  labels := some (card.labels.map fun label => .label label.id)
  assignees := some (card.assignees.map fun userId => { userId := userId, user := some userId })

def canvasList (list : ListContent) : ListWithCards where
  id := list.id
  rank := list.row.rank
  cards := list.cards.map canvasCard

/-- The canvas has the lists of the board as the server sends them. -/
def Shows (rankLe : JsString → JsString → Bool) (db : Database) (boardId workspaceId : Uuid)
    (canvas : LocalLists) : Prop :=
  (getBoardWithContent rankLe db boardId workspaceId).map
    (fun board => board.lists.map canvasList) = some canvas.lists

/-- No card is hidden up to the dragged one, nor up to the place where it is dropped. -/
def Unfiltered (toLowerCase : JsString → JsString) (filters : Filters) (result : DropResult)
    (source target : ListWithCards) (index : Nat) : Prop :=
  (∀ c ∈ source.cards.take (result.source.index + 1), passes toLowerCase filters c = true) ∧
    ∀ c ∈ (Dropped.rest result target).take (index + 1), passes toLowerCase filters c = true

instance (toLowerCase : JsString → JsString) (filters : Filters) (result : DropResult)
    (source target : ListWithCards) (index : Nat) :
    Decidable (Unfiltered toLowerCase filters result source target index) :=
  inferInstanceAs (Decidable (_ ∧ _))

/-- The rank of the rendered card above a place. -/
def rankAbove (toLowerCase : JsString → JsString) (filters : Filters) (result : DropResult)
    (target : ListWithCards) (index : Nat) : Option JsString :=
  if 0 < index then
    (otherCards toLowerCase filters result.draggableId target)[index - 1]?.map Card.rank
  else none

/-- The rank of the rendered card below a place. -/
def rankBelow (toLowerCase : JsString → JsString) (filters : Filters) (result : DropResult)
    (target : ListWithCards) (index : Nat) : Option JsString :=
  (otherCards toLowerCase filters result.draggableId target)[index]?.map Card.rank

/-- No other active card of the list has a rank after the one above and not after the
new one. -/
def LandsBelow (rankLe : JsString → JsString → Bool) (db : Database) (cardId listId : Uuid)
    (above : Option JsString) (rank : JsString) : Prop :=
  ∀ other, db.cards.Taken CardRow.place cardId (listId, other) →
    (∀ prev ∈ above, Before rankLe prev other) → Before rankLe rank other

/-- The call that moves the dragged card between the rendered cards around the place. -/
def dropCall (boardId workspaceId userId : Uuid) (toLowerCase : JsString → JsString)
    (filters : Filters) (result : DropResult) (target : ListWithCards) (index : Nat) : Call :=
  .move boardId workspaceId result.draggableId
    { targetListId := target.id
      prevRank := rankAbove toLowerCase filters result target index
      nextRank := rankBelow toLowerCase filters result target index } userId

/-- A card is dropped on a canvas that shows the board as it is and hides nothing around
the places. -/
structure DropOnBoard (env : Env) (parses : JsString → Prop) (w : World)
    (boardId workspaceId : Uuid) (toLowerCase : JsString → JsString) (filters : Filters)
    (canvas : LocalLists) (result : DropResult) (source target : ListWithCards) (index : Nat) :
    Prop where
  total : ∀ a b, env.rankLe a b = true ∨ env.rankLe b a = true
  trans : ∀ a b c, env.rankLe a b = true → env.rankLe b c = true → env.rankLe a c = true
  lawful : PlacingRanking env.lexorank env.rankLe parses
  written : RanksWritten w.db
  shows : Shows env.rankLe w.db boardId workspaceId canvas
  dropped : Dropped toLowerCase filters canvas result source target index
  unfiltered : Unfiltered toLowerCase filters result source target index

/-- Where the server answers the call, the card is in its place. -/
def Lands (env : Env) (w : World) (boardId workspaceId userId : Uuid)
    (toLowerCase : JsString → JsString) (filters : Filters) (result : DropResult)
    (target : ListWithCards) (index : Nat) : Prop :=
  ∀ w', Returns
      ((dropCall boardId workspaceId userId toLowerCase filters result target index).run env)
      w () w' →
    ∃ card, w'.db.cards.get? result.draggableId = some card ∧ card.listId = target.id ∧
      LandsBelow env.rankLe w'.db result.draggableId target.id
        (rankAbove toLowerCase filters result target index) card.rank

section Server
variable {rankLe : JsString → JsString → Bool} {db : Database} {boardId workspaceId : Uuid}
variable {canvas : LocalLists} {list : ListWithCards}

/-- The ranks of the other active cards of a list, in the order of the server. -/
def otherRanks (rankLe : JsString → JsString → Bool) (db : Database) (cardId listId : Uuid) :
    List JsString :=
  ((cardsOf rankLe db listId).filter fun p => decide (p.1 ≠ cardId)).map fun p => p.2.rank

theorem pairwise_otherRanks (htotal : ∀ a b, rankLe a b = true ∨ rankLe b a = true)
    (htrans : ∀ a b c, rankLe a b = true → rankLe b c = true → rankLe a c = true)
    (db : Database) (cardId listId : Uuid) :
    (otherRanks rankLe db cardId listId).Pairwise fun a b => rankLe a b = true := by
  have : Std.Total fun p q : Uuid × CardRow => rankLe p.2.rank q.2.rank = true :=
    ⟨fun p q => htotal p.2.rank q.2.rank⟩
  have : IsTrans (Uuid × CardRow) fun p q => rankLe p.2.rank q.2.rank = true :=
    ⟨fun p q r => htrans p.2.rank q.2.rank r.2.rank⟩
  exact List.pairwise_map.mpr ((List.pairwise_insertionSort _ _).filter _)

variable (rankLe) in
theorem mem_otherRanks {cardId listId : Uuid} {rank : JsString} :
    rank ∈ otherRanks rankLe db cardId listId ↔
      db.cards.Taken CardRow.place cardId (listId, rank) := by
  rw [otherRanks, List.mem_map]
  constructor
  · rintro ⟨⟨id, card⟩, hmem, hrank⟩
    obtain ⟨hmem, hid⟩ := List.mem_filter.mp hmem
    obtain ⟨hcard, hlist, hactive⟩ := mem_cardsOf.mp hmem
    refine ⟨id, card, of_decide_eq_true hid, hcard, CardRow.place_eq_some.mpr ⟨?_, ?_⟩⟩
    · simpa [CardRow.isActive] using hactive
    · rw [hlist, hrank]
  · rintro ⟨id, card, hid, hcard, hplace⟩
    obtain ⟨hactive, hx⟩ := CardRow.place_eq_some.mp hplace
    obtain ⟨hlist, hrank⟩ := Prod.mk.inj hx
    refine ⟨(id, card), List.mem_filter.mpr ⟨mem_cardsOf.mpr ⟨hcard, hlist, ?_⟩, ?_⟩, hrank⟩
    · simp [CardRow.isActive, hactive]
    · exact decide_eq_true hid

/-- The canvas has the first cards of a list, in the order of the server. -/
theorem Shows.cards (h : Shows rankLe db boardId workspaceId canvas) (hlist : list ∈ canvas.lists) :
    list.cards = ((cardsOf rankLe db list.id).take contentPageSize).map
      fun p => canvasCard (cardContent db p.1 p.2) := by
  obtain ⟨content, hcontent, hlists⟩ := Option.map_eq_some_iff.mp h
  obtain ⟨board, -, rfl⟩ := Option.map_eq_some_iff.mp hcontent
  rw [← hlists, List.map_map, List.mem_map] at hlist
  obtain ⟨p, -, rfl⟩ := hlist
  exact List.map_map

/-- Without the dragged card, the rest of the list is not loaded. -/
theorem Shows.otherRanks (h : Shows rankLe db boardId workspaceId canvas)
    (hlist : list ∈ canvas.lists) (result : DropResult) : ∃ unloaded,
      otherRanks rankLe db result.draggableId list.id =
        (Dropped.rest result list).map Card.rank ++ unloaded ∧
      ((cardsOf rankLe db list.id).length ≤ contentPageSize → unloaded = []) := by
  let kept := fun p : Uuid × CardRow => decide (p.1 ≠ result.draggableId)
  have hrest : (Dropped.rest result list).map Card.rank =
      (((cardsOf rankLe db list.id).take contentPageSize).filter kept).map fun p => p.2.rank := by
    rw [Dropped.rest, h.cards hlist, List.filter_map, List.map_map]
    rfl
  refine ⟨(((cardsOf rankLe db list.id).drop contentPageSize).filter kept).map
    fun p => p.2.rank, ?_, ?_⟩
  · rw [hrest, ← List.map_append, ← List.filter_append, List.take_append_drop]
    rfl
  · intro hlength
    rw [List.drop_of_length_le hlength]
    rfl

end Server

/-- Between two ranks in order, what the package returns is after the one and before the
other. -/
theorem between_ranks {lexorank : LexoRank} {rankLe : JsString → JsString → Bool}
    {parses : JsString → Prop} (hlawful : PlacingRanking lexorank rankLe parses)
    (htotal : ∀ a b, rankLe a b = true ∨ rankLe b a = true)
    (htrans : ∀ a b c, rankLe a b = true → rankLe b c = true → rankLe a c = true)
    {above below : Option JsString} {rank : JsString} (habove : ∀ prev ∈ above, prev ≠ [])
    (hbelow : ∀ next ∈ below, next ≠ [])
    (hle : ∀ prev ∈ above, ∀ next ∈ below, rankLe prev next = true)
    (h : LexorankService.rankBetween lexorank (above.getD []) (below.getD []) = some rank) :
    (∀ prev ∈ above, Before rankLe prev rank) ∧ ∀ next ∈ below, Before rankLe rank next := by
  have hplaced := hlawful.liesBetween h
  cases above with
  | none =>
      refine ⟨by simp, ?_⟩
      intro next hnext
      obtain rfl := Option.mem_def.mp hnext
      obtain ⟨u, us, rfl⟩ := List.exists_cons_of_ne_nil (hbelow next rfl)
      exact hplaced
  | some prev =>
      have hprevNe := habove prev rfl
      cases below with
      | none =>
          obtain ⟨u, us, rfl⟩ := List.exists_cons_of_ne_nil hprevNe
          have hafter : Before rankLe (u :: us) rank := hplaced
          simpa using hafter
      | some next =>
          have hordered := hle prev rfl next rfl
          rw [Option.getD_some, Option.getD_some,
            liesBetween_both hprevNe (hbelow next rfl)] at hplaced
          simp only [Option.mem_def, Option.some.injEq, forall_eq']
          refine hplaced.resolve_right ?_
          -- the package cannot return a rank between them the other way round
          rintro ⟨hnext, hprev⟩
          have hle : rankLe rank next = true :=
            htrans rank prev next ((htotal rank prev).resolve_right
              fun h => by cases hprev.symm.trans h) hordered
          cases hnext.symm.trans hle

section Drop
variable {env : Env} {parses : JsString → Prop} {w w' : World}
variable {boardId workspaceId : Uuid} {toLowerCase : JsString → JsString}
variable {filters : Filters} {canvas : LocalLists} {result : DropResult}
variable {source target : ListWithCards} {index : Nat}

/-- Where nothing is hidden, the ranks around a place are those in the whole list. -/
theorem Unfiltered.rankBelow_eq (h : Unfiltered toLowerCase filters result source target index) :
    rankBelow toLowerCase filters result target index =
      ((Dropped.rest result target).map Card.rank)[index]? := by
  rw [rankBelow, Dropped.otherCards_eq, filterCards, getElem?_filter_of_take h.2,
    List.getElem?_map]

theorem Unfiltered.rankAbove_eq (h : Unfiltered toLowerCase filters result source target index) :
    rankAbove toLowerCase filters result target index =
      if 0 < index then ((Dropped.rest result target).map Card.rank)[index - 1]? else none := by
  rw [rankAbove, Dropped.otherCards_eq, filterCards]
  congr 1
  rw [getElem?_filter_of_take, List.getElem?_map]
  intro c hc
  exact h.2 c (List.take_subset_take_left _ (by omega) hc)

namespace DropOnBoard
variable (h : DropOnBoard env parses w boardId workspaceId toLowerCase filters canvas result
  source target index)
include h

/-- The canvas sends the call for the dragged card and the rendered ones around the place. -/
theorem call_eq : (handleDragEnd canvas.lists result).map Prod.snd =
    some (.card result.draggableId target.id (rankAbove toLowerCase filters result target index)
      (rankBelow toLowerCase filters result target index)) := by
  obtain ⟨card, hcard⟩ := h.dropped.exists_card
  have hid := (h.dropped.card_id_iff hcard).mpr h.unfiltered.1
  rw [h.dropped.call_of_dragged hcard hid, h.unfiltered.rankAbove_eq, h.unfiltered.rankBelow_eq,
    List.getElem?_map, List.getElem?_map]

theorem refl (a : JsString) : env.rankLe a a = true :=
  (h.total a a).elim id id

theorem place_le : index ≤ ((Dropped.rest result target).map Card.rank).length := by
  have hle := List.length_filter_le (passes toLowerCase filters) (Dropped.rest result target)
  have hothers := h.dropped.place
  rw [Dropped.otherCards_eq, filterCards] at hothers
  rw [List.length_map]
  omega

/-- The ranks around the place are ranks of the list on the server, and in order. -/
theorem ranks_around :
    (∀ prev ∈ rankAbove toLowerCase filters result target index,
      w.db.cards.Taken CardRow.place result.draggableId (target.id, prev) ∧
      ∀ next ∈ rankBelow toLowerCase filters result target index,
        env.rankLe prev next = true) ∧
    ∀ next ∈ rankBelow toLowerCase filters result target index,
      w.db.cards.Taken CardRow.place result.draggableId (target.id, next) := by
  obtain ⟨unloaded, hothers, -⟩ := h.shows.otherRanks h.dropped.target_mem result
  have hsorted := pairwise_otherRanks h.total h.trans w.db result.draggableId target.id
  rw [hothers] at hsorted
  have hshownSorted := (List.pairwise_append.mp hsorted).1
  have htaken : ∀ rank ∈ (Dropped.rest result target).map Card.rank,
      w.db.cards.Taken CardRow.place result.draggableId (target.id, rank) := by
    intro rank hrank
    rw [← mem_otherRanks env.rankLe, hothers]
    exact List.mem_append_left _ hrank
  rw [h.unfiltered.rankBelow_eq, h.unfiltered.rankAbove_eq]
  refine ⟨fun prev hprev => ?_, fun next hnext => htaken next (List.mem_of_getElem? hnext)⟩
  cases index with
  | zero => cases hprev
  | succ i =>
      rw [if_pos (Nat.succ_pos i), Nat.add_sub_cancel] at hprev
      refine ⟨htaken prev (List.mem_of_getElem? hprev), fun next hnext => ?_⟩
      obtain ⟨hi, rfl⟩ := List.getElem?_eq_some_iff.mp hprev
      obtain ⟨hj, rfl⟩ := List.getElem?_eq_some_iff.mp hnext
      exact List.pairwise_iff_getElem.mp hshownSorted i (i + 1) hi hj (Nat.lt_succ_self i)

/-- Another active card of the list is not after the card above the place or not before the
one below it, where there is one below or all cards are loaded. -/
theorem above_or_below (hend : rankBelow toLowerCase filters result target index ≠ none ∨
      (cardsOf env.rankLe w.db target.id).length ≤ contentPageSize) {rank : JsString}
    (htaken : w.db.cards.Taken CardRow.place result.draggableId (target.id, rank)) :
    (∃ prev ∈ rankAbove toLowerCase filters result target index, env.rankLe rank prev = true) ∨
      ∃ next ∈ rankBelow toLowerCase filters result target index,
        env.rankLe next rank = true := by
  obtain ⟨unloaded, hothers, hloaded⟩ := h.shows.otherRanks h.dropped.target_mem result
  have hsorted := pairwise_otherRanks h.total h.trans w.db result.draggableId target.id
  have hplace := h.place_le
  rw [← mem_otherRanks env.rankLe, hothers] at htaken
  rw [hothers] at hsorted
  rw [h.unfiltered.rankBelow_eq] at hend ⊢
  rw [h.unfiltered.rankAbove_eq]
  generalize (Dropped.rest result target).map Card.rank = shown at *
  rw [← List.take_append_drop index (shown ++ unloaded), List.mem_append] at htaken
  rcases htaken with habove | hbelow
  · left
    cases index with
    | zero => simp at habove
    | succ i =>
        have hat : (shown ++ unloaded)[i]? = some shown[i] := by
          rw [List.getElem?_append_left hplace, List.getElem?_eq_getElem hplace]
        refine ⟨shown[i], by simp, ?_⟩
        rcases rel_of_mem_take hsorted hat habove with rfl | hle
        · exact h.refl _
        · exact hle
  · right
    cases hnext : shown[index]? with
    | none =>
        have hall : shown.length ≤ index := List.getElem?_eq_none_iff.mp hnext
        rw [hloaded (hend.resolve_left fun hne => hne hnext), List.append_nil,
          List.drop_of_length_le hall] at hbelow
        cases hbelow
    | some next =>
        have hat : (shown ++ unloaded)[index]? = some next := by
          rw [List.getElem?_append_left (List.getElem?_eq_some_iff.mp hnext).1, hnext]
        refine ⟨next, rfl, ?_⟩
        rcases rel_of_mem_drop hsorted hat hbelow with rfl | hle
        · exact h.refl _
        · exact hle

/-- A rank that the package returns for the ranks around the place is after the one above
and before the one below. -/
theorem between {rank : JsString} (hrank : LexorankService.rankBetween env.lexorank
      ((rankAbove toLowerCase filters result target index).getD [])
      ((rankBelow toLowerCase filters result target index).getD []) = some rank) :
    (∀ prev ∈ rankAbove toLowerCase filters result target index, Before env.rankLe prev rank) ∧
      ∀ next ∈ rankBelow toLowerCase filters result target index,
        Before env.rankLe rank next := by
  have hwritten : ∀ r, w.db.cards.Taken CardRow.place result.draggableId (target.id, r) →
      r ≠ [] := by
    rintro r ⟨id, card, -, hcard, hplace⟩
    obtain ⟨-, hx⟩ := CardRow.place_eq_some.mp hplace
    rw [← (Prod.mk.inj hx).2]
    exact h.written.cards id card hcard
  obtain ⟨habove, hbelow⟩ := h.ranks_around
  exact between_ranks h.lawful h.total h.trans (fun prev hprev => hwritten _ (habove prev hprev).1)
    (fun next hnext => hwritten _ (hbelow next hnext)) (fun prev hprev => (habove prev hprev).2)
    hrank

/-- So the card lands in its place, where there is a card below or all are loaded. -/
theorem landsBelow {rank : JsString} (hrank : LexorankService.rankBetween env.lexorank
      ((rankAbove toLowerCase filters result target index).getD [])
      ((rankBelow toLowerCase filters result target index).getD []) = some rank)
    (hend : rankBelow toLowerCase filters result target index ≠ none ∨
      (cardsOf env.rankLe w.db target.id).length ≤ contentPageSize) :
    LandsBelow env.rankLe w.db result.draggableId target.id
      (rankAbove toLowerCase filters result target index) rank := by
  intro other htaken hafter
  rcases h.above_or_below hend htaken with ⟨prev, hprev, hle⟩ | ⟨next, hnext, hle⟩
  · cases (hafter prev hprev).symm.trans hle
  · have hbefore : Before env.rankLe rank next := (h.between hrank).2 next hnext
    by_contra hmeets
    have hmeets : env.rankLe other rank = true := by
      simpa [Before] using hmeets
    cases hbefore.symm.trans (h.trans next other rank hle hmeets)

end DropOnBoard

/-- The cards that a moved card meets are those that it meets before. -/
theorem landsBelow_of_wrote {rankLe : JsString → JsString → Bool} {cardId listId : Uuid}
    {new : CardRow} {above : Option JsString} {rank : JsString}
    (hwrote : w.db.cards.Wrote w'.db.cards cardId new)
    (h : LandsBelow rankLe w.db cardId listId above rank) :
    LandsBelow rankLe w'.db cardId listId above rank := by
  rintro other ⟨id, card, hid, hcard, hplace⟩
  exact h other ⟨id, card, hid, (hwrote.other hid).symm.trans hcard, hplace⟩

/-- A drop does not land in its place where another card is met: one after the rank above
and not after the new rank. -/
theorem not_lands {userId : Uuid} (rank other : JsString)
    (haccepted : MoveAccepted env w.db boardId workspaceId result.draggableId
      { targetListId := target.id
        prevRank := rankAbove toLowerCase filters result target index
        nextRank := rankBelow toLowerCase filters result target index })
    (hrank : LexorankService.rankOrInitial env.lexorank
      (rankAbove toLowerCase filters result target index)
      (rankBelow toLowerCase filters result target index) = rank)
    (htaken : w.db.cards.Taken CardRow.place result.draggableId (target.id, other))
    (hafter : ∀ prev ∈ rankAbove toLowerCase filters result target index,
      Before env.rankLe prev other)
    (hmeets : ¬ Before env.rankLe rank other) :
    ¬ Lands env w boardId workspaceId userId toLowerCase filters result target index := by
  intro hlands
  obtain ⟨moved, w', hmoves⟩ : ∃ moved w', Returns (CardService.move env boardId workspaceId
      result.draggableId _ userId) w moved w' := exists_move haccepted
  have hreturns : Returns
      ((dropCall boardId workspaceId userId toLowerCase filters result target index).run env)
      w () w' := returns_discard.mpr ⟨moved, hmoves⟩
  obtain ⟨card, hcard, -, hbelow⟩ := hlands w' hreturns
  obtain ⟨-, new, hwrote, -, hnew⟩ := cardMove_wrote hreturns
  obtain rfl := Option.some.inj (hcard.symm.trans hwrote.self)
  obtain ⟨id, row, hid, hrow, hplace⟩ := htaken
  apply hmeets
  rw [← hrank, ← hnew]
  exact hbelow other ⟨id, row, hid, (hwrote.other hid).trans hrow, hplace⟩ hafter

end Drop

/-- Ranks that the package writes: the initial one, the one before it and two after it. -/
def writtenRanks : List JsString :=
  [js "0|hzzzzr:", js "0|hzzzzz:", js "0|i00007:", js "0|i0000f:"]

/-- What the package returns between two of them. -/
def midpoints : List (JsString × JsString × JsString) :=
  [(js "0|hzzzzr:", js "0|hzzzzz:", js "0|hzzzzv:"),
    (js "0|hzzzzr:", js "0|i00007:", js "0|hzzzzz:"),
    (js "0|hzzzzr:", js "0|i0000f:", js "0|i00003:"),
    (js "0|hzzzzz:", js "0|i00007:", js "0|i00003:"),
    (js "0|hzzzzz:", js "0|i0000f:", js "0|i00007:"),
    (js "0|i00007:", js "0|i0000f:", js "0|i0000b:")]

/-- The package on these ranks. -/
def writtenEnv : Env where
  lexorank :=
    { middle := js "0|hzzzzz:"
      genPrev := fun _ => none
      genNext := fun rank => if rank = js "0|i00007:" then some (js "0|i0000f:") else none
      between := fun a b =>
        if a ∈ writtenRanks ∧ b ∈ writtenRanks ∧ a ≠ b then
          (midpoints.find? fun m => m.1 = min a b && m.2.1 = max a b).map fun m => m.2.2
        else none }
  rankLe := firstRanks.rankLe
  newId := 0
  now := 3

theorem placing_writtenEnv :
    PlacingRanking writtenEnv.lexorank writtenEnv.rankLe (· ∈ writtenRanks) where
  between a b ha hb hne := by
    have hall : ∀ a ∈ writtenRanks, ∀ b ∈ writtenRanks, a ≠ b →
        ∃ c ∈ writtenEnv.lexorank.between a b,
          Before writtenEnv.rankLe a c ∧ Before writtenEnv.rankLe c b ∨
            Before writtenEnv.rankLe b c ∧ Before writtenEnv.rankLe c a := by
      decide +kernel
    exact hall a ha b hb hne
  between_throws a b hbad := by
    refine if_neg ?_
    rintro ⟨ha, hb, hne⟩
    rcases hbad with heq | hna | hnb
    · exact hne heq
    · exact hna ha
    · exact hnb hb
  genNext a b h := by
    obtain ⟨rfl, hb⟩ := Option.ite_none_right_eq_some.mp h
    obtain rfl := Option.some.inj hb
    decide
  genPrev _ _ h := by cases h

/-- A card of the list for each rank. -/
def cardsOfRanks (listId first : Uuid) (ranks : List JsString) : List (Uuid × CardRow) :=
  ranks.zipIdx.map fun p => (first + p.2,
    { listId := listId, title := js "Ship", rank := p.1, createdBy := 7, updatedAt := 3 })

/-- A list in which two cards have one rank and two come after them, and a list of fifty-one
cards, of which the client loads those up to the rank `0|i00007:`. -/
def crowdedBoard : Database where
  workspaces := .single 1 ()
  users := .single 7 ()
  members := .single (1, 7) ()
  boards := .single 20 { workspaceId := 1, title := js "Plans", createdBy := 7, updatedAt := 3 }
  lists := ⟨[
    (30, { boardId := 20, title := js "Open", rank := js "0|hzzzzz:", updatedAt := 3 }),
    (31, { boardId := 20, title := js "Done", rank := js "0|i00007:", updatedAt := 3 })],
    by decide⟩
  cards := ⟨cardsOfRanks 30 40
      [js "0|hzzzzr:", js "0|hzzzzr:", js "0|hzzzzz:", js "0|i00007:"] ++
    cardsOfRanks 31 50
      (List.replicate 49 (js "0|hzzzzz:") ++ [js "0|i00007:", js "0|i0000f:"]),
    by decide +kernel⟩
  wellFormed :=
    { members := Table.All.of_rows (by decide)
      boards := Table.All.of_rows (by decide)
      starredBoards := Table.All.of_rows (by decide)
      lists := Table.All.of_rows (by decide)
      cards := Table.All.of_rows (by decide +kernel)
      cardAssignees := Table.All.of_rows (by decide)
      cardLabels := Table.All.of_rows (by decide)
      labels := Table.All.of_rows (by decide)
      checklists := Table.All.of_rows (by decide)
      checklistItems := Table.All.of_rows (by decide) }

/-- A list of the board on the canvas. -/
def crowdedList (title rank : JsString) (id : Uuid) : ListWithCards :=
  canvasList (listContent writtenEnv.rankLe crowdedBoard id
    { boardId := 20, title := title, rank := rank, updatedAt := 3 })

def openList : ListWithCards := crowdedList (js "Open") (js "0|hzzzzz:") 30

def doneList : ListWithCards := crowdedList (js "Done") (js "0|i00007:") 31

def crowdedCanvas : LocalLists where
  lists := [openList, doneList]
  listIds := by decide
  cardIds := by decide +kernel

theorem shows_crowdedBoard : Shows writtenEnv.rankLe crowdedBoard 20 1 crowdedCanvas := by
  rw [Shows]
  decide +kernel

theorem dropOnBoard_crowded {result : DropResult} {source target : ListWithCards} {index : Nat}
    (hdropped : Dropped id {} crowdedCanvas result source target index)
    (hunfiltered : Unfiltered id {} result source target index) :
    DropOnBoard writtenEnv (· ∈ writtenRanks) { db := crowdedBoard } 20 1 id {} crowdedCanvas
      result source target index where
  total := calculator_fractionRanks.total
  trans := calculator_fractionRanks.trans
  lawful := placing_writtenEnv
  written := ⟨Table.All.of_rows (by decide +kernel), Table.All.of_rows (by decide)⟩
  shows := shows_crowdedBoard
  dropped := hdropped
  unfiltered := hunfiltered

/-- The last card of the first list, dropped on a place among the others. -/
def dropLast (index : Nat) : DropResult :=
  { draggableId := 43, type := .card, source := ⟨30, 3⟩, destination := some ⟨30, index⟩ }

/-- The last card of the first list, dropped after the last loaded card of the second. -/
def dropAfterPage : DropResult :=
  { draggableId := 43, type := .card, source := ⟨30, 3⟩, destination := some ⟨31, 50⟩ }

/-- Between the ranks `0|hzzzzr:` and `0|hzzzzz:`. -/
theorem dropOnBoard_between :
    DropOnBoard writtenEnv (· ∈ writtenRanks) { db := crowdedBoard } 20 1 id {} crowdedCanvas
      (dropLast 2) openList openList 2 :=
  dropOnBoard_crowded
    ⟨rfl, rfl, by decide, by decide +kernel, by decide +kernel, rfl, by decide +kernel,
      by decide +kernel⟩ (by decide +kernel)

/-- Between the cards of equal rank. -/
theorem dropOnBoard_equal :
    DropOnBoard writtenEnv (· ∈ writtenRanks) { db := crowdedBoard } 20 1 id {} crowdedCanvas
      (dropLast 1) openList openList 1 :=
  dropOnBoard_crowded
    ⟨rfl, rfl, by decide, by decide +kernel, by decide +kernel, rfl, by decide +kernel,
      by decide +kernel⟩ (by decide +kernel)

theorem dropOnBoard_afterPage :
    DropOnBoard writtenEnv (· ∈ writtenRanks) { db := crowdedBoard } 20 1 id {} crowdedCanvas
      dropAfterPage openList doneList 50 :=
  dropOnBoard_crowded
    ⟨rfl, rfl, by decide, by decide +kernel, by decide +kernel, rfl, by decide +kernel,
      by decide +kernel⟩ (by decide +kernel)

end SyncBoard.Client.BoardCanvas
