import Mathlib.Algebra.BigOperators.Group.List.Basic
import Mathlib.Algebra.GroupWithZero.Nat
import Mathlib.Data.List.Infix
import Mathlib.Data.List.Pairwise
import SyncBoard.Basic
import SyncBoard.Lib.Positions

/-!
# BoardCanvas

The canvas renders of every list the cards that pass the filter, and numbers them as it
renders them. A drop reports these numbers; `handleDragEnd` reads them as positions in the
whole list.

## Implementation notes

An absent `lists` or `cards` is the empty one, as in the source. `toLowerCase` is the one of
the browser, and a parameter.
-/

namespace SyncBoard.Client.BoardCanvas

open Positional

/-- A label on a card: a join row, or the label itself. -/
inductive CardLabel
  | joined (labelId : Uuid)
  | label (id : Uuid)
  deriving DecidableEq, Repr

structure CardAssignee where
  userId : Uuid
  user : Option Uuid := none
  deriving DecidableEq, Repr

structure Card where
  id : Uuid
  listId : Uuid
  title : JsString := []
  description : Option JsString := none
  rank : JsString
  parentCardId : Option Uuid := none
  labels : Option (List CardLabel) := none
  assignees : Option (List CardAssignee) := none
  deriving DecidableEq, Repr

structure ListWithCards where
  id : Uuid
  rank : JsString
  cards : List Card
  deriving DecidableEq, Repr

structure Filters where
  filterQuery : JsString := []
  filterLabelIds : List Uuid := []
  filterAssigneeId : Option Uuid := none
  deriving DecidableEq, Repr

def CardLabel.id : CardLabel → Uuid
  | .joined labelId => labelId
  | .label id => id

/-- Whether a card is rendered: the condition of `filterCards`. -/
def passes (toLowerCase : JsString → JsString) (filters : Filters) (card : Card) : Bool :=
  let q := toLowerCase filters.filterQuery
  -- subcards are hidden from the columns unless the user searches
  !(card.parentCardId.isSome && filters.filterQuery.isEmpty) &&
  (filters.filterQuery.isEmpty ||
    decide (q <:+: toLowerCase card.title) ||
    decide (q <:+: toLowerCase (card.description.getD []))) &&
  (filters.filterLabelIds.isEmpty ||
    (card.labels.getD []).any fun l => filters.filterLabelIds.contains l.id) &&
  match filters.filterAssigneeId with
  | none => true
  | some assigneeId => (card.assignees.getD []).any fun a =>
      decide (a.userId = assigneeId) || decide (a.user = some assigneeId)

def filterCards (toLowerCase : JsString → JsString) (filters : Filters) (cards : List Card) :
    List Card :=
  cards.filter (passes toLowerCase filters)

structure DraggableLocation where
  droppableId : Uuid
  index : Nat
  deriving DecidableEq, Repr

inductive DropType
  | list
  | card
  deriving DecidableEq, Repr

structure DropResult where
  draggableId : Uuid
  type : DropType
  source : DraggableLocation
  destination : Option DraggableLocation
  deriving DecidableEq, Repr

/-- `listApi.move` and `cardApi.move`. -/
inductive MoveCall
  | list (listId : Uuid) (prevRank nextRank : Option JsString)
  | card (cardId targetListId : Uuid) (prevRank nextRank : Option JsString)
  deriving DecidableEq, Repr

/-- `Array.prototype.splice`, without the elements that it returns. -/
def splice {α : Type*} (xs : List α) (start deleteCount : Nat) (items : List α) : List α :=
  xs.take start ++ items ++ xs.drop (start + deleteCount)

/-- The rank of the element before the index, where there is one. -/
def rankBefore {α : Type*} (rank : α → JsString) (xs : List α) (index : Nat) : Option JsString :=
  if index > 0 then xs[index - 1]?.map rank else none

/-- The rank of the element after the index, unless the index is the last. -/
def rankAfter {α : Type*} (rank : α → JsString) (xs : List α) (index : Nat) : Option JsString :=
  if index < xs.length - 1 then xs[index + 1]?.map rank else none

/-- A list after a card went from one list to another, or moved within its own. -/
def updatedList (source destination : Uuid) (sourceCards targetCards : List Card)
    (l : ListWithCards) : ListWithCards :=
  if l.id = source ∧ source = destination then { l with cards := targetCards }
  else if l.id = source then { l with cards := sourceCards }
  else if l.id = destination then { l with cards := targetCards }
  else l

/-- The lists as `handleDragEnd` sets them before it awaits, and the call that it awaits;
`none` where it returns without one. -/
def handleDragEnd (localLists : List ListWithCards) (result : DropResult) :
    Option (List ListWithCards × MoveCall) :=
  match result.destination with
  | none => none
  | some destination =>
      if destination.droppableId = result.source.droppableId ∧
          destination.index = result.source.index then none
      else match result.type with
      | .list =>
          -- every list is rendered, so there is one at the index
          localLists[result.source.index]?.map fun moved =>
            let reordered := splice (splice localLists result.source.index 1 [])
              destination.index 0 [moved]
            (reordered, .list result.draggableId
              (rankBefore ListWithCards.rank reordered destination.index)
              (rankAfter ListWithCards.rank reordered destination.index))
      | .card =>
          match localLists.find? fun l => decide (l.id = result.source.droppableId),
              localLists.find? fun l => decide (l.id = destination.droppableId) with
          | some sourceList, some targetList =>
              let isSameList := result.source.droppableId = destination.droppableId
              let sourceCards := splice sourceList.cards result.source.index 1 []
              sourceList.cards[result.source.index]?.map fun card =>
                let movedCard := { card with listId := destination.droppableId }
                let targetCards := splice (if isSameList then sourceCards else targetList.cards)
                  destination.index 0 [movedCard]
                let updatedLists := localLists.map
                  (updatedList result.source.droppableId destination.droppableId sourceCards
                    targetCards)
                (updatedLists, .card card.id destination.droppableId
                  (rankBefore Card.rank targetCards destination.index)
                  (rankAfter Card.rank targetCards destination.index))
          | _, _ => none

section Splice
variable {α : Type*} (rank : α → JsString) {xs : List α} {index : Nat}

theorem splice_remove (xs : List α) (index : Nat) :
    splice xs index 1 [] = xs.eraseIdx index := by
  rw [splice, List.append_nil, List.eraseIdx_eq_take_drop_succ]

theorem perm_splice_insert (xs : List α) (index : Nat) (moved : α) :
    (splice xs index 0 [moved]).Perm (moved :: xs) := by
  have hxs : xs.take index ++ xs.drop index = xs := List.take_append_drop index xs
  calc (splice xs index 0 [moved]).Perm (xs.take index ++ moved :: xs.drop index) := by
        rw [splice, List.append_assoc, List.singleton_append, Nat.add_zero]
    _ |>.Perm (moved :: (xs.take index ++ xs.drop index)) := List.perm_middle
    _ |>.Perm (moved :: xs) := by rw [hxs]

theorem rankBefore_splice (h : index ≤ xs.length) (moved : α) :
    rankBefore rank (splice xs index 0 [moved]) index =
      if 0 < index then xs[index - 1]?.map rank else none := by
  unfold rankBefore splice
  split
  · next hpos =>
      have hlt : index - 1 < (xs.take index).length := by
        rw [List.length_take]
        omega
      rw [List.append_assoc, List.getElem?_append_left hlt, List.getElem?_take_of_lt (by omega)]
  · rfl

theorem rankAfter_splice (h : index ≤ xs.length) (moved : α) :
    rankAfter rank (splice xs index 0 [moved]) index = xs[index]?.map rank := by
  have hlen : (xs.take index ++ [moved]).length = index + 1 := by
    rw [List.length_append, List.length_take, List.length_singleton]
    omega
  unfold rankAfter splice
  by_cases hlast : index < xs.length
  · rw [if_pos, List.getElem?_append_right (by omega), hlen, List.getElem?_drop]
    · congr 2
      omega
    · rw [List.length_append, hlen, List.length_drop]
      omega
  · rw [if_neg, List.getElem?_eq_none (by omega), Option.map_none]
    rw [List.length_append, hlen, List.length_drop]
    omega

end Splice

/-- Lists as the canvas holds them: no list and no card stands in it twice. -/
structure LocalLists where
  lists : List ListWithCards
  listIds : (lists.map ListWithCards.id).Nodup
  cardIds : ((lists.flatMap ListWithCards.cards).map Card.id).Nodup

/-- The cards rendered in a list, without the dragged one. -/
def otherCards (toLowerCase : JsString → JsString) (filters : Filters) (draggableId : Uuid)
    (list : ListWithCards) : List Card :=
  (filterCards toLowerCase filters list.cards).filter fun c => decide (c.id ≠ draggableId)

/-- A drop of a card as the library reports it: the dragged card is the rendered one at the
index of the source, and the destination is a place among the other rendered cards. A drop
outside of the lists or on the place of the card moves nothing. -/
structure Dropped (toLowerCase : JsString → JsString) (filters : Filters) (canvas : LocalLists)
    (result : DropResult) (source target : ListWithCards) (index : Nat) : Prop where
  type : result.type = .card
  destination : result.destination = some ⟨target.id, index⟩
  moved : ¬ (target.id = source.id ∧ index = result.source.index)
  source_mem : source ∈ canvas.lists
  target_mem : target ∈ canvas.lists
  source_id : result.source.droppableId = source.id
  dragged : (filterCards toLowerCase filters source.cards)[result.source.index]?.map Card.id =
    some result.draggableId
  place : index ≤ (otherCards toLowerCase filters result.draggableId target).length

/-- The call moves the dragged card between its neighbours on the canvas. -/
def MovesDragged (toLowerCase : JsString → JsString) (filters : Filters) (canvas : LocalLists)
    (result : DropResult) (target : ListWithCards) (index : Nat) : Prop :=
  let others := otherCards toLowerCase filters result.draggableId target
  (handleDragEnd canvas.lists result).map Prod.snd =
    some (.card result.draggableId target.id
      (if 0 < index then others[index - 1]?.map Card.rank else none)
      (others[index]?.map Card.rank))

instance (toLowerCase : JsString → JsString) (filters : Filters) (canvas : LocalLists)
    (result : DropResult) (target : ListWithCards) (index : Nat) :
    Decidable (MovesDragged toLowerCase filters canvas result target index) :=
  inferInstanceAs (Decidable (Option.map _ _ = some _))

namespace LocalLists
variable {canvas : LocalLists} {list other : ListWithCards}

theorem find?_eq_some (h : list ∈ canvas.lists) :
    canvas.lists.find? (fun l => decide (l.id = list.id)) = some list := by
  cases hfind : canvas.lists.find? fun l => decide (l.id = list.id) with
  | none => simpa using List.find?_eq_none.mp hfind list h
  | some found =>
      have hid : found.id = list.id := by simpa using List.find?_some hfind
      have hmem := List.mem_of_find?_eq_some hfind
      rw [List.inj_on_of_nodup_map canvas.listIds hmem h hid]

theorem nodup_cards (h : list ∈ canvas.lists) : (list.cards.map Card.id).Nodup :=
  canvas.cardIds.sublist ((List.sublist_flatten_of_mem (List.mem_map_of_mem h)).map Card.id)

/-- A card stands in one list only. -/
theorem list_unique (h : list ∈ canvas.lists) (h' : other ∈ canvas.lists) {c d : Card}
    (hc : c ∈ list.cards) (hd : d ∈ other.cards) (hid : c.id = d.id) : list = other := by
  have hnodup := canvas.cardIds
  rw [List.map_flatMap, List.nodup_flatMap] at hnodup
  by_contra hne
  have : Std.Symm (Function.onFun List.Disjoint fun a : ListWithCards => a.cards.map Card.id) :=
    ⟨fun _ _ hxy _ hx hy => hxy hy hx⟩
  have hdisjoint := hnodup.2.forall h h' hne
  exact hdisjoint (List.mem_map_of_mem hc) (hid ▸ List.mem_map_of_mem hd)

end LocalLists

namespace Dropped
variable {toLowerCase : JsString → JsString} {filters : Filters} {canvas : LocalLists}
  {result : DropResult} {source target : ListWithCards} {index : Nat}

/-- The cards of a list without the dragged one. -/
def rest (result : DropResult) (list : ListWithCards) : List Card :=
  list.cards.filter fun c => decide (c.id ≠ result.draggableId)

theorem otherCards_eq (result : DropResult) (list : ListWithCards) :
    otherCards toLowerCase filters result.draggableId list =
      filterCards toLowerCase filters (rest result list) := by
  simp only [otherCards, filterCards, rest, List.filter_filter, Bool.and_comm]

/-- The call names the card that the whole list has at the index of the source, and the
ranks that stand around the place in the whole list. -/
theorem call_eq (h : Dropped toLowerCase filters canvas result source target index) {card : Card}
    (hcard : source.cards[result.source.index]? = some card) :
    ∃ targetCards,
      targetCards = (if source.id = target.id then source.cards.eraseIdx result.source.index
        else target.cards) ∧
      (handleDragEnd canvas.lists result).map Prod.snd = some (.card card.id target.id
        (rankBefore Card.rank (splice targetCards index 0 [{ card with listId := target.id }]) index)
        (rankAfter Card.rank (splice targetCards index 0 [{ card with listId := target.id }])
          index)) := by
  refine ⟨_, rfl, ?_⟩
  simp only [handleDragEnd, h.destination, h.type, h.source_id, if_neg h.moved,
    LocalLists.find?_eq_some h.source_mem, LocalLists.find?_eq_some h.target_mem, hcard,
    Option.map_some, splice_remove]

/-- There is a card at the index of the source. -/
theorem exists_card (h : Dropped toLowerCase filters canvas result source target index) :
    ∃ card, source.cards[result.source.index]? = some card := by
  obtain ⟨shown, hshown, -⟩ := Option.map_eq_some_iff.mp h.dragged
  have hlt : result.source.index < (filterCards toLowerCase filters source.cards).length :=
    (List.getElem?_eq_some_iff.mp hshown).1
  have hle := List.length_filter_le (passes toLowerCase filters) source.cards
  exact ⟨_, List.getElem?_eq_getElem (Nat.lt_of_lt_of_le hlt hle)⟩

/-- The card at the index of the source is the dragged one exactly when the filter hides no
card up to there. -/
theorem card_id_iff (h : Dropped toLowerCase filters canvas result source target index)
    {card : Card} (hcard : source.cards[result.source.index]? = some card) :
    card.id = result.draggableId ↔
      ∀ c ∈ source.cards.take (result.source.index + 1), passes toLowerCase filters c = true := by
  have hlt : result.source.index ≤ (filterCards toLowerCase filters source.cards).length := by
    obtain ⟨shown, hshown, -⟩ := Option.map_eq_some_iff.mp h.dragged
    exact Nat.le_of_lt (List.getElem?_eq_some_iff.mp hshown).1
  rw [← getElem?_filter_iff (LocalLists.nodup_cards h.source_mem) hlt, hcard]
  change _ ↔ (filterCards toLowerCase filters source.cards)[_]?.map Card.id = _
  rw [h.dragged, Option.map_some, Option.some.injEq, eq_comm]

/-- Without the dragged card, the target is the list into which `handleDragEnd` inserts. -/
theorem rest_eq (h : Dropped toLowerCase filters canvas result source target index) {card : Card}
    (hcard : source.cards[result.source.index]? = some card)
    (hid : card.id = result.draggableId) :
    rest result target = if source.id = target.id then
      source.cards.eraseIdx result.source.index else target.cards := by
  split
  · next hsame =>
      obtain rfl : source = target :=
        List.inj_on_of_nodup_map canvas.listIds h.source_mem h.target_mem hsame
      rw [eraseIdx_eq_filter (LocalLists.nodup_cards h.source_mem) hcard, hid, rest]
  · next hother =>
      apply List.filter_eq_self.mpr
      intro c hc
      rw [decide_eq_true_iff]
      intro hcid
      have hmem : card ∈ source.cards := List.mem_of_getElem? hcard
      exact hother (congrArg _
        (LocalLists.list_unique h.source_mem h.target_mem hmem hc (hid.trans hcid.symm)))

/-- What the call says, where it names the dragged card. -/
theorem call_of_dragged (h : Dropped toLowerCase filters canvas result source target index)
    {card : Card} (hcard : source.cards[result.source.index]? = some card)
    (hid : card.id = result.draggableId) :
    (handleDragEnd canvas.lists result).map Prod.snd = some (.card result.draggableId target.id
      (if 0 < index then (rest result target)[index - 1]?.map Card.rank else none)
      ((rest result target)[index]?.map Card.rank)) := by
  obtain ⟨targetCards, htarget, hcall⟩ := h.call_eq hcard
  rw [← h.rest_eq hcard hid] at htarget
  subst htarget
  have hplace : index ≤ (rest result target).length := by
    have hle := List.length_filter_le (passes toLowerCase filters) (rest result target)
    have hothers := h.place
    rw [otherCards_eq, filterCards] at hothers
    omega
  rw [hcall, hid, rankBefore_splice Card.rank hplace, rankAfter_splice Card.rank hplace]

/-- The call names the dragged card and its neighbours on the canvas. -/
theorem moves_iff_ranks (h : Dropped toLowerCase filters canvas result source target index) :
    MovesDragged toLowerCase filters canvas result target index ↔
      (∀ c ∈ source.cards.take (result.source.index + 1), passes toLowerCase filters c = true) ∧
      (∀ i, i = index ∨ i + 1 = index →
        (filterCards toLowerCase filters (rest result target))[i]?.map Card.rank =
          (rest result target)[i]?.map Card.rank) := by
  obtain ⟨card, hcard⟩ := h.exists_card
  rw [← h.card_id_iff hcard, MovesDragged, otherCards_eq]
  constructor
  · intro hmoves
    have hid : card.id = result.draggableId := by
      obtain ⟨_, -, hcall⟩ := h.call_eq hcard
      exact (MoveCall.card.inj (Option.some.inj (hcall.symm.trans hmoves))).1
    rw [h.call_of_dragged hcard hid] at hmoves
    obtain ⟨-, -, hprev, hnext⟩ := MoveCall.card.inj (Option.some.inj hmoves)
    refine ⟨hid, ?_⟩
    rintro i (rfl | rfl)
    · exact hnext.symm
    · simpa using hprev.symm
  · rintro ⟨hid, hranks⟩
    rw [h.call_of_dragged hcard hid, hranks index (.inl rfl)]
    cases index with
    | zero => rfl
    | succ i => simp [hranks i (.inr rfl)]

/-- Distinct ranks around the place show that no card up to it is hidden. -/
theorem ranks_iff_shown (h : Dropped toLowerCase filters canvas result source target index)
    (hnodup : ((rest result target).map Card.rank).Nodup) :
    (∀ i, i = index ∨ i + 1 = index →
        (filterCards toLowerCase filters (rest result target))[i]?.map Card.rank =
          (rest result target)[i]?.map Card.rank) ↔
      ∀ c ∈ (rest result target).take (index + 1), passes toLowerCase filters c = true := by
  have hplace := h.place
  rw [otherCards_eq] at hplace
  constructor
  · intro hranks
    exact (getElem?_filter_iff hnodup hplace).mp (hranks index (.inl rfl))
  · intro hshown i hi
    rw [filterCards, getElem?_filter_of_take]
    intro c hc
    apply hshown c
    exact (List.take_subset_take_left _ (by omega)) hc

end Dropped

open Dropped in
/-- A drop moves the dragged card between its neighbours on the canvas exactly when the filter
hides no card of the source list up to the index of the source, and the hidden cards of the
target list leave the ranks around the place as they are. Where the ranks of the target list
are distinct, the latter means that no card up to the place is hidden. -/
theorem movesDragged_iff {toLowerCase : JsString → JsString} {filters : Filters}
    {canvas : LocalLists} {result : DropResult} {source target : ListWithCards} {index : Nat}
    (h : Dropped toLowerCase filters canvas result source target index) :
    (MovesDragged toLowerCase filters canvas result target index ↔
      (∀ c ∈ source.cards.take (result.source.index + 1), passes toLowerCase filters c = true) ∧
      (∀ i, i = index ∨ i + 1 = index →
        (filterCards toLowerCase filters (rest result target))[i]?.map Card.rank =
          (rest result target)[i]?.map Card.rank)) ∧
    (((rest result target).map Card.rank).Nodup →
      (MovesDragged toLowerCase filters canvas result target index ↔
        (∀ c ∈ source.cards.take (result.source.index + 1),
          passes toLowerCase filters c = true) ∧
        ∀ c ∈ (rest result target).take (index + 1), passes toLowerCase filters c = true)) := by
  refine ⟨h.moves_iff_ranks, fun hnodup => h.moves_iff_ranks.trans ?_⟩
  exact and_congr_right fun _ => h.ranks_iff_shown hnodup

/-- A column in front of whose cards stands a subcard, rendered only in a search. -/
def columnWithSubcard : ListWithCards where
  id := 1
  rank := [1]
  cards := [{ id := 9, listId := 1, rank := [1], parentCardId := some 10 },
    { id := 10, listId := 1, rank := [2] }, { id := 11, listId := 1, rank := [3] }]

def columnOfCards : ListWithCards where
  id := 2
  rank := [2]
  cards := [{ id := 20, listId := 2, rank := [1] }, { id := 21, listId := 2, rank := [2] }]

def twoColumns : LocalLists where
  lists := [columnWithSubcard, columnOfCards]
  listIds := by decide
  cardIds := by decide

/-- The second rendered card of the first column, dragged in front of the first one. -/
def dragPastSubcard : DropResult :=
  { draggableId := 11, type := .card, source := ⟨1, 1⟩, destination := some ⟨1, 0⟩ }

/-- The first card of the second column, dragged to its end. -/
def dragToEnd : DropResult :=
  { draggableId := 20, type := .card, source := ⟨2, 0⟩, destination := some ⟨2, 1⟩ }

theorem movesDragged_iff_dragToEnd : MovesDragged id {} twoColumns dragToEnd columnOfCards 1 := by
  have hdrop : Dropped id {} twoColumns dragToEnd columnOfCards columnOfCards 1 :=
    ⟨rfl, rfl, by decide, by decide, by decide, rfl, rfl, by decide⟩
  exact ((movesDragged_iff hdrop).2 (by decide)).mpr (by decide)

/-- With a hidden card in front, the drop moves another card than the dragged one. -/
theorem dragPastSubcard_moves_other :
    ¬ ∀ (toLowerCase : JsString → JsString) (filters : Filters) (canvas : LocalLists)
      (result : DropResult) (source target : ListWithCards) (index : Nat),
      Dropped toLowerCase filters canvas result source target index →
        MovesDragged toLowerCase filters canvas result target index := by
  intro hall
  have hdrop : Dropped id {} twoColumns dragPastSubcard columnWithSubcard columnWithSubcard 0 :=
    ⟨rfl, rfl, by decide, by decide, by decide, rfl, rfl, by decide⟩
  have hmoves := hall id {} twoColumns dragPastSubcard _ _ 0 hdrop
  exact absurd hmoves (by decide)

/-- Every list is rendered, so a list is always moved between its neighbours. -/
theorem moves_list {canvas : LocalLists} {result : DropResult} {index : Nat}
    (htype : result.type = .list)
    (hdestination : result.destination = some ⟨result.source.droppableId, index⟩)
    (hmoved : index ≠ result.source.index)
    (hdragged : canvas.lists[result.source.index]?.map ListWithCards.id = some result.draggableId)
    (hplace : index ≤ (canvas.lists.eraseIdx result.source.index).length) :
    (handleDragEnd canvas.lists result).map Prod.snd = some (.list result.draggableId
      (if 0 < index then (canvas.lists.eraseIdx result.source.index)[index - 1]?.map
        ListWithCards.rank else none)
      ((canvas.lists.eraseIdx result.source.index)[index]?.map ListWithCards.rank)) := by
  obtain ⟨moved, hget, -⟩ := Option.map_eq_some_iff.mp hdragged
  simp only [handleDragEnd, hdestination, hmoved, and_false, if_false, htype, hget,
    Option.map_some, splice_remove, rankBefore_splice ListWithCards.rank hplace,
    rankAfter_splice ListWithCards.rank hplace]

theorem count_cons_eq (a : Uuid) (ids : List Uuid) (x : Uuid) :
    (a :: ids).count x = [a].count x + ids.count x := by
  rw [← List.singleton_append, List.count_append]

/-- How often an id stands in the lists. -/
theorem count_cardIds (lists : List ListWithCards) (x : Uuid) :
    ((lists.flatMap ListWithCards.cards).map Card.id).count x =
      (lists.map fun l => (l.cards.map Card.id).count x).sum := by
  rw [List.map_flatMap, List.count_flatMap]
  rfl

/-- A number counted at the one list with an id. -/
theorem sum_at_list {lists : List ListWithCards} (hnodup : (lists.map ListWithCards.id).Nodup)
    {list : ListWithCards} (h : list ∈ lists) (n : Nat) :
    (lists.map fun l => if l.id = list.id then n else 0).sum = n := by
  induction lists with
  | nil => cases h
  | cons l lists ih =>
      rw [List.map_cons, List.nodup_cons] at hnodup
      rw [List.map_cons, List.sum_cons]
      rcases List.mem_cons.mp h with rfl | h
      · have hnone : (lists.map fun m => if m.id = list.id then n else 0) =
            lists.map fun _ => 0 := by
          apply List.map_congr_left
          intro m hm
          rw [if_neg]
          intro heq
          exact hnodup.1 (heq ▸ List.mem_map_of_mem hm)
        rw [hnone]
        simp
      · rw [ih hnodup.2 h, if_neg]
        · omega
        · intro heq
          exact hnodup.1 (heq ▸ List.mem_map_of_mem h)

/-- Lists of which one loses a card and one gains it show the same cards. -/
theorem perm_of_moved (canvas : LocalLists) {f : ListWithCards → ListWithCards}
    {source target : ListWithCards} (hsource : source ∈ canvas.lists)
    (htarget : target ∈ canvas.lists) (moved : Uuid)
    (hf : ∀ l ∈ canvas.lists, ∀ x, ((f l).cards.map Card.id).count x +
      (if l.id = source.id then [moved].count x else 0) =
      (l.cards.map Card.id).count x + if l.id = target.id then [moved].count x else 0) :
    (((canvas.lists.map f).flatMap ListWithCards.cards).map Card.id).Perm
      ((canvas.lists.flatMap ListWithCards.cards).map Card.id) := by
  rw [List.perm_iff_count]
  intro x
  have hsum : (canvas.lists.map fun l => ((f l).cards.map Card.id).count x +
      if l.id = source.id then [moved].count x else 0).sum =
      (canvas.lists.map fun l => (l.cards.map Card.id).count x +
        if l.id = target.id then [moved].count x else 0).sum :=
    congrArg List.sum (List.map_congr_left fun l hl => hf l hl x)
  rw [List.sum_map_add, List.sum_map_add, sum_at_list canvas.listIds hsource,
    sum_at_list canvas.listIds htarget] at hsum
  rw [count_cardIds, count_cardIds, List.map_map]
  exact Nat.add_right_cancel hsum

theorem updatedList_id (source destination : Uuid) (sourceCards targetCards : List Card)
    (l : ListWithCards) : (updatedList source destination sourceCards targetCards l).id = l.id := by
  unfold updatedList
  split
  · rfl
  · split
    · rfl
    · split <;> rfl

/-- The source list loses the moved card and the target list gains it. -/
theorem count_updatedList (canvas : LocalLists) {source target l : ListWithCards}
    (hsource : source ∈ canvas.lists) (htarget : target ∈ canvas.lists) (hl : l ∈ canvas.lists)
    {i : Nat} {card : Card} (hcard : source.cards[i]? = some card) (j : Nat) (x : Uuid) :
    let sourceCards := source.cards.eraseIdx i
    let targetCards := splice (if source.id = target.id then sourceCards else target.cards) j 0
      [{ card with listId := target.id }]
    ((updatedList source.id target.id sourceCards targetCards l).cards.map Card.id).count x +
        (if l.id = source.id then [card.id].count x else 0) =
      (l.cards.map Card.id).count x + if l.id = target.id then [card.id].count x else 0 := by
  intro sourceCards targetCards
  have hinsert : ∀ xs : List Card,
      ((splice xs j 0 [{ card with listId := target.id }]).map Card.id).count x =
        [card.id].count x + (xs.map Card.id).count x := by
    intro xs
    rw [((perm_splice_insert xs j _).map Card.id).count_eq x]
    exact count_cons_eq _ _ x
  have hremove : [card.id].count x + (sourceCards.map Card.id).count x =
      (source.cards.map Card.id).count x := by
    rw [← ((perm_cons_eraseIdx hcard).map Card.id).count_eq x]
    exact (count_cons_eq _ _ x).symm
  have hunique : ∀ m ∈ canvas.lists, m.id = l.id → m = l := fun m hm heq =>
    List.inj_on_of_nodup_map canvas.listIds hm hl heq
  by_cases hls : l.id = source.id
  · obtain rfl := hunique source hsource hls.symm
    by_cases hsame : source.id = target.id
    · simp only [updatedList, targetCards, hsame, and_self, if_true, hinsert]
      omega
    · simp only [updatedList, hsame, and_false, if_true, if_false]
      omega
  · by_cases hlt : l.id = target.id
    · obtain rfl := hunique target htarget hlt.symm
      have hother : ¬ source.id = target.id := fun heq => hls heq.symm
      simp only [updatedList, targetCards, hls, hother, false_and, if_true, if_false, hinsert]
      omega
    · simp only [updatedList, hls, hlt, false_and, if_false]

/-- After a drop the canvas shows the same lists and the same cards, each of them once. -/
theorem exists_localLists_of_drop (canvas : LocalLists) {result : DropResult}
    {lists : List ListWithCards} {call : MoveCall}
    (h : handleDragEnd canvas.lists result = some (lists, call)) :
    ∃ canvas' : LocalLists, canvas'.lists = lists ∧
      (lists.map ListWithCards.id).Perm (canvas.lists.map ListWithCards.id) ∧
      ((lists.flatMap ListWithCards.cards).map Card.id).Perm
        ((canvas.lists.flatMap ListWithCards.cards).map Card.id) := by
  suffices hperm : (lists.map ListWithCards.id).Perm (canvas.lists.map ListWithCards.id) ∧
      ((lists.flatMap ListWithCards.cards).map Card.id).Perm
        ((canvas.lists.flatMap ListWithCards.cards).map Card.id) from
    ⟨⟨lists, hperm.1.nodup_iff.mpr canvas.listIds, hperm.2.nodup_iff.mpr canvas.cardIds⟩, rfl,
      hperm⟩
  unfold handleDragEnd at h
  split at h
  · cases h
  · next destination _ =>
      split at h
      · cases h
      · split at h
        · obtain ⟨moved, hmoved, heq⟩ := Option.map_eq_some_iff.mp h
          obtain ⟨rfl, -⟩ := Prod.mk.inj heq
          rw [splice_remove]
          have hreordered :
              (splice (canvas.lists.eraseIdx result.source.index) destination.index 0
                [moved]).Perm canvas.lists :=
            (perm_splice_insert _ _ moved).trans (perm_cons_eraseIdx hmoved)
          exact ⟨hreordered.map _, (hreordered.flatMap_right _).map _⟩
        · split at h
          · next source target hsource htarget =>
              obtain ⟨card, hcard, heq⟩ := Option.map_eq_some_iff.mp h
              obtain ⟨rfl, -⟩ := Prod.mk.inj heq
              have hsid := List.find?_some hsource
              have htid := List.find?_some htarget
              rw [decide_eq_true_iff] at hsid htid
              have hsmem := List.mem_of_find?_eq_some hsource
              have htmem := List.mem_of_find?_eq_some htarget
              rw [splice_remove, ← hsid, ← htid]
              constructor
              · rw [List.map_map, List.map_congr_left]
                intro l _
                exact updatedList_id _ _ _ _ l
              · apply perm_of_moved canvas hsmem htmem card.id
                intro l hl x
                exact count_updatedList canvas hsmem htmem hl hcard destination.index x
          · cases h

end SyncBoard.Client.BoardCanvas
