import SyncBoard.Board.MovedRank
import Mathlib.Data.Set.Finite.List

/-!
# Ranks run out of width

A `rank` column holds fifty characters, and no call shortens a rank. Of two adjacent
items and a third one, each can in turn be moved to the front of the gap before the other.
Every such move asks for a rank below the last one and above the item in front, and as
there are finitely many strings that fit the column, some move of the sequence is refused,
whatever the rank calculator is.

## Implementation notes

`RankCalculator` is what is assumed of the package. Density cannot hold for all strings,
so it is assumed of a set of well-formed ranks that contains its results.
-/

namespace SyncBoard.Board

open Relational Fallible Labelled

/-- `between` returns, for two well-formed ranks, one strictly between them in the order of
the column. -/
structure RankCalculator (ranking : Ranking) (IsRank : JsString → Prop) : Prop where
  total : ∀ a b, ranking.rankLe a b = true ∨ ranking.rankLe b a = true
  trans : ∀ a b c, ranking.rankLe a b = true → ranking.rankLe b c = true →
    ranking.rankLe a c = true
  nonempty : ∀ a, IsRank a → a ≠ []
  units : ∀ a, IsRank a → ∀ u ∈ a, u < 0x10000
  between : ∀ a b, IsRank a → IsRank b → Before ranking.rankLe a b →
    ∃ c, ranking.lexorank.between a b = some c ∧ IsRank c ∧
      Before ranking.rankLe a c ∧ Before ranking.rankLe c b

/-- The ranks of two other rows of the container, distinct and with no other one between
them. -/
def Gap {ρ : Type} (rankLe : JsString → JsString → Bool) (t : Table Uuid ρ)
    (place : ρ → Option (Uuid × JsString)) (container id : Uuid) :
    Option JsString → Option JsString → Prop
  | some prev, some next => t.Taken place id (container, prev) ∧
      t.Taken place id (container, next) ∧ Before rankLe prev next ∧
        ∀ rank, t.Taken place id (container, rank) →
          ¬ (Before rankLe prev rank ∧ Before rankLe rank next)
  | _, _ => False

namespace Request

/-- An active card or list is moved between two adjacent ones of distinct ranks. -/
def MovesBetween (ranking : Ranking) (w : World) (r : Request) : Prop :=
  match r.operation with
  | .card (.move boardId workspaceId cardId dto _) =>
      OnActiveCard w.db boardId workspaceId cardId ∧
        (ListRepository.findActiveById w.db dto.targetListId (some boardId)).isSome = true ∧
          Gap ranking.rankLe w.db.cards CardRow.place dto.targetListId cardId dto.prevRank
            dto.nextRank
  | .list (.move boardId workspaceId listId dto _) =>
      OnActiveList w.db boardId workspaceId listId ∧
        Gap ranking.rankLe w.db.lists ListRow.place boardId listId dto.prevRank dto.nextRank
  | _ => False

/-- The rank that a move computes. -/
def producedRank (ranking : Ranking) (r : Request) : Option JsString :=
  match r.operation with
  | .card (.move _ _ _ dto _) => LexorankService.rankBetween ranking.lexorank
      (dto.prevRank.getD []) (dto.nextRank.getD [])
  | .list (.move _ _ _ dto _) => LexorankService.rankBetween ranking.lexorank
      (dto.prevRank.getD []) (dto.nextRank.getD [])
  | _ => none

def Succeeds (ranking : Ranking) (w : World) (r : Request) : Prop :=
  ∃ w', Returns (r.operation.run (r.env ranking)) w () w'

end Request

/-- However often cards and lists are moved between adjacent ones, every move succeeds. -/
def NeverFull (ranking : Ranking) (w : World) : Prop :=
  ∀ rs, AllSteps (step ranking) (fun w r => r.MovesBetween ranking w) w rs →
    AllSteps (step ranking) (fun w r => r.Succeeds ranking w) w rs

theorem finite_lists (n bound : Nat) :
    {s : List Nat | s.length ≤ n ∧ ∀ u ∈ s, u < bound}.Finite := by
  refine ((List.finite_length_le (Fin bound) n).image (List.map Fin.val)).subset ?_
  rintro s ⟨hlength, hunits⟩
  refine ⟨s.pmap Fin.mk hunits, by simpa using hlength, ?_⟩
  simp [List.map_pmap]

theorem length_le_charCount (s : JsString) : s.length ≤ 2 * charCount s := by
  fun_induction charCount s with
  | case1 => simp
  | case2 => simp
  | case3 high low s _ ih =>
      simp only [List.length_cons]
      omega
  | case4 high low s _ ih =>
      simp only [List.length_cons] at ih ⊢
      omega

/-- The strings that fit the column. -/
def Fitting : Set JsString :=
  {s | charCount s ≤ rankWidth ∧ ∀ u ∈ s, u < 0x10000}

theorem finite_fitting : Fitting.Finite := by
  refine (finite_lists (2 * rankWidth) 0x10000).subset ?_
  rintro s ⟨hwidth, hunits⟩
  have hlength := length_le_charCount s
  exact ⟨by omega, hunits⟩

open Classical in
/-- How many strings that fit are before a rank. -/
noncomputable def roomBefore (rankLe : JsString → JsString → Bool) (rank : JsString) : Nat :=
  (finite_fitting.toFinset.filter fun s => Before rankLe s rank).card

section Order
variable {ranking : Ranking} {IsRank : JsString → Prop} {a b c : JsString}

theorem RankCalculator.before_irrefl (h : RankCalculator ranking IsRank) (a : JsString) :
    ¬ Before ranking.rankLe a a := by
  intro hbefore
  rcases h.total a a with hle | hle <;> cases hbefore.symm.trans hle

theorem RankCalculator.before_trans (h : RankCalculator ranking IsRank)
    (hab : Before ranking.rankLe a b) (hbc : Before ranking.rankLe b c) :
    Before ranking.rankLe a c := by
  have hle : ranking.rankLe a b = true := by
    refine (h.total a b).resolve_right fun hba => ?_
    cases hab.symm.trans hba
  cases hca : ranking.rankLe c a with
  | false => exact hca
  | true => cases hbc.symm.trans (h.trans c a b hca hle)

/-- A rank that fits has less room before it than those after it. -/
theorem RankCalculator.roomBefore_lt (h : RankCalculator ranking IsRank) (ha : a ∈ Fitting)
    (hab : Before ranking.rankLe a b) :
    roomBefore ranking.rankLe a < roomBefore ranking.rankLe b := by
  refine Finset.card_lt_card (Finset.ssubset_iff_of_subset ?_ |>.mpr ⟨a, ?_, ?_⟩)
  · intro s hs
    obtain ⟨hfits, hbefore⟩ := Finset.mem_filter.mp hs
    exact Finset.mem_filter.mpr ⟨hfits, h.before_trans hbefore hab⟩
  · exact Finset.mem_filter.mpr ⟨finite_fitting.mem_toFinset.mpr ha, hab⟩
  · intro hmem
    exact h.before_irrefl a (Finset.mem_filter.mp hmem).2

end Order

/-- Row `front` is before row `back`, and but for row `mover` there is none between them. -/
structure Squeezed {ρ : Type} (rankLe : JsString → JsString → Bool) (t : Table Uuid ρ)
    (place : ρ → Option (Uuid × JsString)) (container front back mover : Uuid)
    (low high : JsString) : Prop where
  atFront : ∃ row, t.get? front = some row ∧ place row = some (container, low)
  atBack : ∃ row, t.get? back = some row ∧ place row = some (container, high)
  front_ne : front ≠ mover
  back_ne : back ≠ mover
  before : Before rankLe low high
  empty : ∀ rank, t.Taken place mover (container, rank) →
    ¬ (Before rankLe low rank ∧ Before rankLe rank high)

section Squeezed
variable {ρ : Type} {ranking : Ranking} {IsRank : JsString → Prop} {t u : Table Uuid ρ}
variable {place : ρ → Option (Uuid × JsString)} {container front back mover : Uuid}
variable {low high mid : JsString} {new : ρ}

theorem Squeezed.gap (h : Squeezed ranking.rankLe t place container front back mover low high) :
    Gap ranking.rankLe t place container mover (some low) (some high) := by
  obtain ⟨row, hrow, hplace⟩ := h.atFront
  obtain ⟨row', hrow', hplace'⟩ := h.atBack
  exact ⟨⟨front, row, h.front_ne, hrow, hplace⟩, ⟨back, row', h.back_ne, hrow', hplace'⟩,
    h.before, h.empty⟩

/-- The ends of a gap are rows, and have their ranks. -/
theorem Gap.squeezed {prev next : Option JsString} {rankOf : ρ → JsString}
    (h : Gap ranking.rankLe t place container mover prev next)
    (hplace : ∀ row rank, place row = some (container, rank) → rankOf row = rank)
    (hrows : t.All fun _ row => IsRank (rankOf row)) :
    ∃ front back low high, prev = some low ∧ next = some high ∧ IsRank low ∧ IsRank high ∧
      Squeezed ranking.rankLe t place container front back mover low high := by
  cases prev with
  | none => exact h.elim
  | some low =>
      cases next with
      | none => exact h.elim
      | some high =>
          obtain ⟨⟨front, row, hfront, hrow, hlow⟩, ⟨back, row', hback, hrow', hhigh⟩,
            hbefore, hempty⟩ := h
          refine ⟨front, back, low, high, rfl, rfl, ?_, ?_,
            ⟨⟨row, hrow, hlow⟩, ⟨row', hrow', hhigh⟩, hfront, hback, hbefore, hempty⟩⟩
          · rw [← hplace row low hlow]
            exact hrows front row hrow
          · rw [← hplace row' high hhigh]
            exact hrows back row' hrow'

/-- The row that moves into the gap is the end of a gap that the former end can move
into. -/
theorem Squeezed.wrote (h : Squeezed ranking.rankLe t place container front back mover low high)
    (hranking : RankCalculator ranking IsRank) (hwrote : t.Wrote u mover new)
    (hplace : place new = some (container, mid)) (hlow : Before ranking.rankLe low mid)
    (hhigh : Before ranking.rankLe mid high) :
    Squeezed ranking.rankLe u place container front mover back low mid := by
  obtain ⟨row, hrow, hrowPlace⟩ := h.atFront
  obtain ⟨row', hrow', hrowPlace'⟩ := h.atBack
  refine ⟨⟨row, (hwrote.other h.front_ne).trans hrow, hrowPlace⟩, ⟨new, hwrote.self, hplace⟩, ?_,
    h.back_ne.symm, hlow, ?_⟩
  · rintro rfl
    obtain rfl := Option.some.inj (hrow.symm.trans hrow')
    cases hrowPlace.symm.trans hrowPlace'
    exact hranking.before_irrefl _ h.before
  · rintro rank ⟨j, q, hj, hq, hqplace⟩ ⟨hlowRank, hrankMid⟩
    rcases hwrote.eq_or_old hq with ⟨rfl, rfl⟩ | ⟨hne, hold⟩
    · cases hplace.symm.trans hqplace
      exact hranking.before_irrefl _ hrankMid
    · exact h.empty rank ⟨j, q, hne, hold, hqplace⟩
        ⟨hlowRank, hranking.before_trans hrankMid hhigh⟩

end Squeezed

section Cards
variable {ranking : Ranking} {IsRank : JsString → Prop} {boardId workspaceId listId : Uuid}
variable {w w' : World} {front back mover : Uuid} {low high : JsString}

/-- Three cards of which each can move between the other two; `n` is the room left. -/
def CardsSqueezed (ranking : Ranking) (IsRank : JsString → Prop)
    (boardId workspaceId listId : Uuid) (n : Nat) (w : World) : Prop :=
  ∃ front back mover low high,
    Squeezed ranking.rankLe w.db.cards CardRow.place listId front back mover low high ∧
      OnActiveCard w.db boardId workspaceId mover ∧
        (ListRepository.findActiveById w.db listId (some boardId)).isSome = true ∧
          IsRank low ∧ IsRank high ∧ roomBefore ranking.rankLe high = n

theorem RankCalculator.rankBetween (h : RankCalculator ranking IsRank) (hlow : IsRank low)
    (hhigh : IsRank high) (hbefore : Before ranking.rankLe low high) :
    ∃ mid, LexorankService.rankBetween ranking.lexorank low high = some mid ∧ IsRank mid ∧
      Before ranking.rankLe low mid ∧ Before ranking.rankLe mid high := by
  rw [rankBetween_both (h.nonempty low hlow) (h.nonempty high hhigh)]
  exact h.between low high hlow hhigh hbefore

theorem CardRow.rank_of_place {card : CardRow} {rank : JsString}
    (h : card.place = some (listId, rank)) : card.rank = rank :=
  (Prod.mk.inj (CardRow.place_eq_some.mp h).2).2

theorem OnActiveCard.of_place {db : Database} {cardId : Uuid} {row : CardRow} {rank : JsString}
    (hboard : (BoardRepository.findById db boardId (some workspaceId)).isSome = true)
    (hlist : (ListRepository.findActiveById db listId (some boardId)).isSome = true)
    (hrow : db.cards.get? cardId = some row) (hplace : row.place = some (listId, rank)) :
    OnActiveCard db boardId workspaceId cardId := by
  refine ⟨hboard, ?_⟩
  obtain ⟨list, hlist⟩ := Option.isSome_iff_exists.mp hlist
  obtain ⟨hget, hlistBoard⟩ := ListRepository.findActiveById_eq_some hlist
  obtain ⟨⟨harchived, hdeleted⟩, heq⟩ := CardRow.place_eq_some.mp hplace
  obtain ⟨rfl, -⟩ := Prod.mk.inj heq
  simp [CardRepository.findActiveById, hrow, harchived, hdeleted, CardRepository.onBoard, hget,
    hlistBoard]

/-- The request that moves a card into the gap. -/
def moveCardRequest (boardId workspaceId listId mover : Uuid) (low high : JsString) : Request where
  operation := .card (.move boardId workspaceId mover
    { targetListId := listId, prevRank := some low, nextRank := some high } 0)
  newId := 0
  now := 0

/-- A card that has moved into the gap has left less room. -/
theorem CardsSqueezed.next (hranking : RankCalculator ranking IsRank) {n : Nat}
    (h : CardsSqueezed ranking IsRank boardId workspaceId listId n w) :
    ∃ r : Request, r.MovesBetween ranking w ∧ (r.Succeeds ranking w →
      ∃ w' m, step ranking w r = some w' ∧ m < n ∧
        CardsSqueezed ranking IsRank boardId workspaceId listId m w') := by
  obtain ⟨front, back, mover, low, high, hsqueezed, hactive, hlist, hlow, hhigh, rfl⟩ := h
  refine ⟨moveCardRequest boardId workspaceId listId mover low high,
    ⟨hactive, hlist, hsqueezed.gap⟩, ?_⟩
  rintro ⟨w', hreturns⟩
  obtain ⟨mid, hmid, hmidRank, hlowMid, hmidHigh⟩ :=
    hranking.rankBetween hlow hhigh hsqueezed.before
  obtain ⟨hframe, new, hwrote, hplace, hrank⟩ := cardMove_wrote hreturns
  obtain rfl : new.rank = mid := hrank.trans (rankOrInitial_of_some hmid)
  have hfits : new.rank ∈ Fitting :=
    ⟨(w'.db.wellFormed.cards mover new hwrote.self).2.2.2, hranking.units new.rank hmidRank⟩
  obtain ⟨back', hback, hbackPlace⟩ := hsqueezed.atBack
  have hlist' : (ListRepository.findActiveById w'.db listId (some boardId)).isSome = true := by
    rw [ListRepository.findActiveById, hframe.lists]
    exact hlist
  have hboard' : (BoardRepository.findById w'.db boardId (some workspaceId)).isSome = true := by
    rw [BoardRepository.findById, hframe.boards]
    exact hactive.board
  refine ⟨w', _, congrArg some (congrArg Prod.snd hreturns),
    hranking.roomBefore_lt hfits hmidHigh, front, mover, back, low, new.rank,
    hsqueezed.wrote hranking hwrote hplace hlowMid hmidHigh, ?_, hlist', hlow, hmidRank, rfl⟩
  exact .of_place hboard' hlist' ((hwrote.other hsqueezed.back_ne).trans hback) hbackPlace

end Cards

section Lists
variable {ranking : Ranking} {IsRank : JsString → Prop} {boardId workspaceId : Uuid} {w : World}

/-- Three lists of which each can move between the other two; `n` is the room left. -/
def ListsSqueezed (ranking : Ranking) (IsRank : JsString → Prop) (boardId workspaceId : Uuid)
    (n : Nat) (w : World) : Prop :=
  ∃ front back mover low high,
    Squeezed ranking.rankLe w.db.lists ListRow.place boardId front back mover low high ∧
      OnActiveList w.db boardId workspaceId mover ∧ IsRank low ∧ IsRank high ∧
        roomBefore ranking.rankLe high = n

theorem ListRow.rank_of_place {list : ListRow} {rank : JsString}
    (h : list.place = some (boardId, rank)) : list.rank = rank :=
  (Prod.mk.inj (ListRow.place_eq_some.mp h).2).2

theorem OnActiveList.of_place {db : Database} {listId : Uuid} {row : ListRow} {rank : JsString}
    (hboard : (BoardRepository.findById db boardId (some workspaceId)).isSome = true)
    (hrow : db.lists.get? listId = some row) (hplace : row.place = some (boardId, rank)) :
    OnActiveList db boardId workspaceId listId := by
  refine ⟨hboard, ?_⟩
  obtain ⟨⟨harchived, hdeleted⟩, heq⟩ := ListRow.place_eq_some.mp hplace
  obtain ⟨rfl, -⟩ := Prod.mk.inj heq
  simp [ListRepository.findActiveById, hrow, harchived, hdeleted]

/-- The request that moves a list into the gap. -/
def moveListRequest (boardId workspaceId mover : Uuid) (low high : JsString) : Request where
  operation := .list (.move boardId workspaceId mover
    { prevRank := some low, nextRank := some high } 0)
  newId := 0
  now := 0

/-- A list that has moved into the gap has left less room. -/
theorem ListsSqueezed.next (hranking : RankCalculator ranking IsRank) {n : Nat}
    (h : ListsSqueezed ranking IsRank boardId workspaceId n w) :
    ∃ r : Request, r.MovesBetween ranking w ∧ (r.Succeeds ranking w →
      ∃ w' m, step ranking w r = some w' ∧ m < n ∧
        ListsSqueezed ranking IsRank boardId workspaceId m w') := by
  obtain ⟨front, back, mover, low, high, hsqueezed, hactive, hlow, hhigh, rfl⟩ := h
  refine ⟨moveListRequest boardId workspaceId mover low high, ⟨hactive, hsqueezed.gap⟩, ?_⟩
  rintro ⟨w', hreturns⟩
  obtain ⟨mid, hmid, hmidRank, hlowMid, hmidHigh⟩ :=
    hranking.rankBetween hlow hhigh hsqueezed.before
  obtain ⟨hboards, new, hwrote, hplace, hrank⟩ := listMove_wrote hreturns
  obtain rfl : new.rank = mid := Option.some.inj (hrank.symm.trans hmid)
  have hfits : new.rank ∈ Fitting :=
    ⟨(w'.db.wellFormed.lists mover new hwrote.self).2, hranking.units new.rank hmidRank⟩
  obtain ⟨back', hback, hbackPlace⟩ := hsqueezed.atBack
  have hboard' : (BoardRepository.findById w'.db boardId (some workspaceId)).isSome = true := by
    rw [BoardRepository.findById, hboards]
    exact hactive.board
  refine ⟨w', _, congrArg some (congrArg Prod.snd hreturns),
    hranking.roomBefore_lt hfits hmidHigh, front, mover, back, low, new.rank,
    hsqueezed.wrote hranking hwrote hplace hlowMid hmidHigh, ?_, hlow, hmidRank, rfl⟩
  exact .of_place hboard' ((hwrote.other hsqueezed.back_ne).trans hback) hbackPlace

end Lists

section Sequences
variable {ranking : Ranking} {IsRank : JsString → Prop} {w : World}

/-- Where one move between adjacent items can be made, some sequence of them ends in a
refusal. -/
theorem not_neverFull (hranking : RankCalculator ranking IsRank)
    (hcards : w.db.cards.All fun _ card => IsRank card.rank)
    (hlists : w.db.lists.All fun _ list => IsRank list.rank) {r : Request}
    (h : r.MovesBetween ranking w) : ¬ NeverFull ranking w := by
  intro hnever
  have hrefused : ∃ rs, AllSteps (step ranking) (fun w r => r.MovesBetween ranking w) w rs ∧
      ¬ AllSteps (step ranking) (fun w r => r.Succeeds ranking w) w rs := by
    obtain ⟨op, newId, now⟩ := r
    cases op with
    | card call =>
        cases call with
        | move boardId workspaceId cardId dto userId =>
            obtain ⟨hactive, hlist, hgap⟩ := h
            obtain ⟨front, back, low, high, -, -, hlow, hhigh, hsqueezed⟩ :=
              hgap.squeezed (fun _ _ => CardRow.rank_of_place) hcards
            exact exists_refused (fun _ _ hs => CardsSqueezed.next hranking hs)
              ⟨front, back, cardId, low, high, hsqueezed, hactive, hlist, hlow, hhigh, rfl⟩
        | _ => exact h.elim
    | list call =>
        cases call with
        | move boardId workspaceId listId dto userId =>
            obtain ⟨hactive, hgap⟩ := h
            obtain ⟨front, back, low, high, -, -, hlow, hhigh, hsqueezed⟩ :=
              hgap.squeezed (fun _ _ => ListRow.rank_of_place) hlists
            exact exists_refused (fun _ _ hs => ListsSqueezed.next hranking hs)
              ⟨front, back, listId, low, high, hsqueezed, hactive, hlow, hhigh, rfl⟩
        | _ => exact h.elim
    | board => exact h.elim
  obtain ⟨rs, hmoves, hnot⟩ := hrefused
  exact hnot (hnever rs hmoves)

/-- A move between adjacent items succeeds exactly where the rank it produces fits the
column. -/
theorem succeeds_iff_fits (hranking : RankCalculator ranking IsRank)
    (hcards : w.db.cards.All fun _ card => IsRank card.rank) {r : Request}
    (h : r.MovesBetween ranking w) : r.Succeeds ranking w ↔
      ∃ rank, r.producedRank ranking = some rank ∧ charCount rank ≤ rankWidth := by
  obtain ⟨op, newId, now⟩ := r
  cases op with
  | card call =>
      cases call with
      | move boardId workspaceId cardId dto userId =>
          obtain ⟨hactive, hlist, hgap⟩ := h
          obtain ⟨front, back, low, high, hprev, hnext, hlow, hhigh, hsqueezed⟩ :=
            hgap.squeezed (fun _ _ => CardRow.rank_of_place) hcards
          obtain ⟨mid, hmid, -⟩ := hranking.rankBetween hlow hhigh hsqueezed.before
          have hproduced : LexorankService.rankBetween ranking.lexorank (dto.prevRank.getD [])
              (dto.nextRank.getD []) = some mid := by
            rw [hprev, hnext]
            exact hmid
          have hrank : LexorankService.rankOrInitial ranking.lexorank dto.prevRank dto.nextRank =
              mid := rankOrInitial_of_some hproduced
          constructor
          · rintro ⟨w', hreturns⟩
            obtain ⟨-, new, hwrote, -, hnew⟩ := cardMove_wrote hreturns
            have hfits := (w'.db.wellFormed.cards cardId new hwrote.self).2.2.2
            rw [hnew.trans hrank] at hfits
            exact ⟨mid, hproduced, hfits⟩
          · rintro ⟨rank, hsome, hfits⟩
            obtain rfl := Option.some.inj (hproduced.symm.trans hsome)
            rw [← hrank] at hfits
            have haccepted : MoveAccepted (Request.env ranking
                ⟨.card (.move boardId workspaceId cardId dto userId), newId, now⟩)
                w.db boardId workspaceId cardId dto := ⟨hactive, hlist, hfits⟩
            obtain ⟨card, w', hreturns⟩ := exists_move haccepted
            exact ⟨w', returns_discard.mpr ⟨card, hreturns⟩⟩
      | _ => exact h.elim
  | list call =>
      cases call with
      | move boardId workspaceId listId dto userId =>
          obtain ⟨hactive, hgap⟩ := h
          constructor
          · rintro ⟨w', hreturns⟩
            obtain ⟨-, new, hwrote, -, hnew⟩ := listMove_wrote hreturns
            exact ⟨new.rank, hnew, (w'.db.wellFormed.lists listId new hwrote.self).2⟩
          · rintro ⟨rank, hsome, hfits⟩
            have hproduced : LexorankService.rankBetween (Request.env ranking
                ⟨.list (.move boardId workspaceId listId dto userId), newId, now⟩).lexorank
                  (dto.prevRank.getD []) (dto.nextRank.getD []) = some rank := hsome
            obtain ⟨list, w', hreturns⟩ := exists_moveList hactive hproduced hfits
            exact ⟨w', returns_discard.mpr ⟨list, hreturns⟩⟩
      | _ => exact h.elim
  | board => exact h.elim

/-- Every sequence of moves between adjacent cards or lists succeeds only where no such
move can be made at all. -/
theorem neverFull_iff (hranking : RankCalculator ranking IsRank) (w : World)
    (hcards : w.db.cards.All fun _ card => IsRank card.rank)
    (hlists : w.db.lists.All fun _ list => IsRank list.rank) :
    NeverFull ranking w ↔ ∀ r : Request, ¬ r.MovesBetween ranking w := by
  constructor
  · intro hnever r hr
    exact not_neverFull hranking hcards hlists hr hnever
  · intro hnone rs hmoves
    cases rs with
    | nil => exact allSteps_nil
    | cons r rs => exact absurd (allSteps_cons.mp hmoves).1 (hnone r)

end Sequences

/-- A digit to the base 36, in lower case. -/
def isDigit36 (u : Nat) : Bool :=
  (48 ≤ u && u ≤ 57) || (97 ≤ u && u ≤ 122)

/-- Digits behind a point, of which the last is not zero. -/
def IsFraction (s : JsString) : Prop :=
  (∀ u ∈ s, isDigit36 u = true) ∧ ∃ u ∈ s.getLast?, u ≠ 48

instance (s : JsString) : Decidable (IsFraction s) :=
  inferInstanceAs (Decidable (_ ∧ _))

/-- A fraction between two others. -/
def halfway : JsString → JsString → JsString
  | [], b => 48 :: b
  | a :: as, [] => a :: as
  | a :: as, b :: bs => if a = b then a :: halfway as bs else a :: as ++ [105]

theorem zero_le_digit {u : Nat} (h : isDigit36 u = true) : 48 ≤ u ∧ u < 0x10000 := by
  simp only [isDigit36, Bool.or_eq_true, Bool.and_eq_true, decide_eq_true_eq] at h
  omega

theorem IsFraction.cons {s : JsString} (h : IsFraction s) {u : Nat} (hu : isDigit36 u = true) :
    IsFraction (u :: s) := by
  obtain ⟨hdigits, v, hlast, hv⟩ := h
  refine ⟨List.forall_mem_cons.mpr ⟨hu, hdigits⟩, v, ?_, hv⟩
  rw [List.getLast?_cons, Option.mem_def.mp hlast]
  rfl

theorem IsFraction.tail {u : Nat} {s : JsString} (h : IsFraction (u :: s)) (hs : s ≠ []) :
    IsFraction s := by
  obtain ⟨hdigits, v, hlast, hv⟩ := h
  refine ⟨(List.forall_mem_cons.mp hdigits).2, v, ?_, hv⟩
  rw [List.getLast?_cons] at hlast
  cases hs' : s.getLast? with
  | none => exact absurd (List.getLast?_eq_none_iff.mp hs') hs
  | some w =>
      rw [hs'] at hlast
      exact hlast

theorem not_isFraction_nil : ¬ IsFraction [] := by
  rintro ⟨-, v, hlast, -⟩
  cases hlast

/-- One more zero in front makes a fraction smaller. -/
theorem zero_cons_lt {s : JsString} (h : IsFraction s) : 48 :: s < s := by
  induction s with
  | nil => exact absurd h not_isFraction_nil
  | cons u s ih =>
      rw [List.cons_lt_cons_iff]
      obtain ⟨hzero, -⟩ := zero_le_digit (List.forall_mem_cons.mp h.1).1
      rcases hzero.eq_or_lt with rfl | hlt
      · refine .inr ⟨rfl, ih (h.tail ?_)⟩
        rintro rfl
        exact absurd h (by decide)
      · exact .inl hlt

theorem lt_concat (s : JsString) (u : Nat) : s < s ++ [u] := by
  induction s with
  | nil => exact List.nil_lt_cons u []
  | cons v s ih =>
      rw [List.cons_append, List.cons_lt_cons_iff]
      exact .inr ⟨rfl, ih⟩

theorem halfway_between {a b : JsString} (ha : ∀ u ∈ a, isDigit36 u = true) (hb : IsFraction b)
    (hab : a < b) : IsFraction (halfway a b) ∧ a < halfway a b ∧ halfway a b < b := by
  fun_induction halfway a b with
  | case1 b =>
      exact ⟨hb.cons rfl, List.nil_lt_cons 48 b, zero_cons_lt hb⟩
  | case2 a as => exact absurd hb not_isFraction_nil
  | case3 as b bs ih =>
      obtain ⟨hdigit, has⟩ := List.forall_mem_cons.mp ha
      have htails : as < bs := by
        rw [List.cons_lt_cons_iff] at hab
        exact (hab.resolve_left (lt_irrefl b)).2
      have hbs : bs ≠ [] := by
        rintro rfl
        exact absurd htails (List.not_lt_nil as)
      obtain ⟨hfraction, hlow, hhigh⟩ := ih has (hb.tail hbs) htails
      rw [List.cons_lt_cons_iff, List.cons_lt_cons_iff]
      exact ⟨hfraction.cons hdigit, .inr ⟨rfl, hlow⟩, .inr ⟨rfl, hhigh⟩⟩
  | case4 a as b bs hne =>
      have hheads : a < b := by
        rw [List.cons_lt_cons_iff] at hab
        exact hab.resolve_right fun h => hne h.1
      refine ⟨⟨?_, 105, ?_, by decide⟩, ?_, ?_⟩
      · intro u hu
        rcases List.mem_append.mp hu with hu | hu
        · exact ha u hu
        · exact List.mem_singleton.mp hu ▸ rfl
      · exact List.getLast?_concat (l := a :: as)
      · exact lt_concat (a :: as) 105
      · rw [List.cons_append, List.cons_lt_cons_iff]
        exact .inl hheads

/-- The rank of a fraction, in the first bucket of the package. -/
def fractionRank (s : JsString) : JsString :=
  js "0|000000:" ++ s

/-- Ranks that are fractions. Between `…1` and `…2` the package returns `…1i`, as here. -/
def fractionRanks : Ranking where
  lexorank :=
    { middle := js "0|hzzzzz:"
      genPrev := fun _ => none
      genNext := fun _ => none
      between := fun a b => some (fractionRank (halfway (a.drop 9) (b.drop 9))) }
  rankLe := firstRanks.rankLe

def IsFractionRank (rank : JsString) : Prop :=
  rank = fractionRank (rank.drop 9) ∧ IsFraction (rank.drop 9)

instance (rank : JsString) : Decidable (IsFractionRank rank) :=
  inferInstanceAs (Decidable (_ ∧ _))

theorem before_firstRanks {a b : JsString} : Before firstRanks.rankLe a b ↔ a < b := by
  simp [Before, firstRanks]

/-- The fractions decide. -/
theorem fractionRank_lt {s t : JsString} : fractionRank s < fractionRank t ↔ s < t := by
  simp [fractionRank, js]

theorem calculator_fractionRanks : RankCalculator fractionRanks IsFractionRank where
  total a b := by simpa [fractionRanks, firstRanks] using le_total a b
  trans a b c := by simpa [fractionRanks, firstRanks] using le_trans
  nonempty a ha := by
    rintro rfl
    exact absurd ha.2 not_isFraction_nil
  units a ha u hu := by
    rw [ha.1] at hu
    rcases List.mem_append.mp hu with hu | hu
    · exact (by decide : ∀ u ∈ js "0|000000:", u < 0x10000) u hu
    · exact (zero_le_digit (ha.2.1 u hu)).2
  between a b ha hb hab := by
    have hlt : a < b := before_firstRanks.mp hab
    rw [ha.1, hb.1, fractionRank_lt] at hlt
    obtain ⟨hfraction, hlow, hhigh⟩ := halfway_between ha.2.1 hb.2 hlt
    refine ⟨_, rfl, ⟨rfl, hfraction⟩, before_firstRanks.mpr ?_, before_firstRanks.mpr ?_⟩
    · rw [ha.1, fractionRank_lt]
      exact hlow
    · rw [hb.1, fractionRank_lt]
      exact hhigh

/-- The least rank that fits the column, and the next of its length. -/
def leastRank : JsString :=
  fractionRank (List.replicate 40 48 ++ js "1")

def nextRank : JsString :=
  fractionRank (List.replicate 40 48 ++ js "2")

/-- A list with a card of the least rank and two cards after it. -/
def leastRankFirst : Database where
  workspaces := .single 1 ()
  users := .single 7 ()
  members := .single (1, 7) ()
  boards := .single 20 { workspaceId := 1, title := js "Plans", createdBy := 7, updatedAt := 2 }
  lists := .single 30
    { boardId := 20, title := js "Open", rank := fractionRank (js "i"), updatedAt := 2 }
  cards := ⟨[(40, { listId := 30, title := js "Ship", rank := leastRank, createdBy := 7,
                    updatedAt := 2 }),
    (41, { listId := 30, title := js "Test", rank := nextRank, createdBy := 7, updatedAt := 2 }),
    (42, { listId := 30, title := js "Plan", rank := fractionRank (js "i"), createdBy := 7,
           updatedAt := 2 })], by decide⟩
  wellFormed :=
    { members := Table.All.of_rows (by decide)
      boards := Table.All.of_rows (by decide)
      starredBoards := Table.All.of_rows (by decide)
      lists := Table.All.of_rows (by decide)
      cards := Table.All.of_rows (by decide)
      cardAssignees := Table.All.of_rows (by decide)
      cardLabels := Table.All.of_rows (by decide)
      labels := Table.All.of_rows (by decide)
      checklists := Table.All.of_rows (by decide)
      checklistItems := Table.All.of_rows (by decide) }

theorem ranks_leastRankFirst : (leastRankFirst.cards.All fun _ card => IsFractionRank card.rank) ∧
    leastRankFirst.lists.All fun _ list => IsFractionRank list.rank :=
  ⟨Table.All.of_rows (by decide +kernel), Table.All.of_rows (by decide)⟩

/-- Card 42 is moved between the other two. -/
theorem movesBetween_leastRankFirst :
    (moveCardRequest 20 1 30 42 leastRank nextRank).MovesBetween fractionRanks
      { db := leastRankFirst } := by
  refine ⟨⟨by decide, by decide⟩, by decide, ⟨40, _, by decide, rfl, rfl⟩,
    ⟨41, _, by decide, rfl, rfl⟩, by decide +kernel, ?_⟩
  rintro rank ⟨j, card, hj, hcard, hplace⟩
  exact Table.All.of_rows (p := fun j card => j ≠ 42 → ∀ x ∈ card.place,
    ¬ (Before fractionRanks.rankLe leastRank x.2 ∧ Before fractionRanks.rankLe x.2 nextRank))
    (by decide +kernel) j card hcard hj (30, rank) hplace

/-- As such a move can be made, some sequence of them has one that is refused. -/
theorem neverFull_iff_leastRankFirst : ¬ NeverFull fractionRanks { db := leastRankFirst } := by
  intro hnever
  have hnone := (neverFull_iff calculator_fractionRanks { db := leastRankFirst }
    ranks_leastRankFirst.1 ranks_leastRankFirst.2).mp hnever
  exact hnone _ movesBetween_leastRankFirst

/-- The new rank has fifty-one characters. -/
theorem leastRankFirst_refuses :
    ¬ ∀ (ranking : Ranking) (IsRank : JsString → Prop), RankCalculator ranking IsRank →
      ∀ w : World, (w.db.cards.All fun _ card => IsRank card.rank) →
        (w.db.lists.All fun _ list => IsRank list.rank) → NeverFull ranking w := by
  intro hall
  have hnever := hall fractionRanks IsFractionRank calculator_fractionRanks
    { db := leastRankFirst } ranks_leastRankFirst.1 ranks_leastRankFirst.2
    [moveCardRequest 20 1 30 42 leastRank nextRank]
    (allSteps_cons.mpr ⟨movesBetween_leastRankFirst, fun _ _ => allSteps_nil⟩)
  obtain ⟨w', hreturns⟩ := (allSteps_cons.mp hnever).1
  obtain ⟨-, new, hwrote, -, hrank⟩ := cardMove_wrote hreturns
  have hfits := (w'.db.wellFormed.cards 42 new hwrote.self).2.2.2
  rw [hrank] at hfits
  exact absurd hfits (by decide)

end SyncBoard.Board
