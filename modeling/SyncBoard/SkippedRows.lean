import Mathlib.Data.Finset.Card
import Mathlib.Data.Finset.Dedup
import SyncBoard.Pagination

/-!
# Rows that a followed cursor skips

With a cursor `findMany` drops the first of the rows it finds, which is that of the cursor as
long as this satisfies the filter. Where it does not any more, another row is dropped. So a
client that follows the cursor misses rows, but at most one for each request whose cursor row
no longer satisfies the filter, as long as no cursor row moves towards the end
(`Follows.card_missed_le`).
-/

namespace SyncBoard

open Paging

variable {α γ σ ε K : Type} [LinearOrder K] [DecidableEq γ]

/-- A row under the cursor satisfies the filter. -/
def isListed (cursorOf : α → γ) (rows : List α) (cursor : γ) : Bool :=
  rows.any fun a => cursorOf a == cursor

/-- How many rows a request drops that are not that of its cursor. -/
def skips (cursorOf : α → γ) (rows : List α) : Option γ → Nat
  | none => 0
  | some cursor => if isListed cursorOf rows cursor then 0 else 1

section Pages
variable {key : α → K} {rows : List α} {cursorOf : α → γ} {cursorRow : γ → Option α}

theorem isListed_iff {cursor : γ} :
    isListed cursorOf rows cursor = true ↔ ∃ a ∈ rows, cursorOf a = cursor := by
  simp [isListed]

/-- Where no row has the key, the rows at it and after it are those after it. -/
theorem startingAt_eq_after {k : K} (h : ∀ a ∈ rows, key a ≠ k) :
    startingAt key k rows = after key (some k) rows := by
  have hfilter : (rows.filter fun a => decide (k ≤ key a)) =
      rows.filter fun a => decide (Beyond (some k) (key a)) := by
    apply List.filter_congr
    intro a ha
    rw [decide_eq_decide, beyond_some]
    exact ⟨fun hle => lt_of_le_of_ne hle (h a ha).symm, le_of_lt⟩
  rw [startingAt, after, hfilter]

/-- A page of a cursor that is found starts after its row, less what it skips. -/
theorem findManyPage_eq (hkeyed : (rows.map key).Nodup)
    (hrow : ∀ a ∈ rows, cursorRow (cursorOf a) = some a)
    (hcursor : ∀ i a, cursorRow i = some a → cursorOf a = i)
    (hkey : ∀ a b, key a = key b → cursorOf a = cursorOf b) {nullable : Bool} {take : Nat}
    {cursor : Option γ} (hfound : ∀ i ∈ cursor, (∃ row, cursorRow i = some row) ∧
      (nullable = true → isListed cursorOf rows i = true)) :
    findManyPage key rows cursorRow nullable take cursor =
      ((after key ((cursor.bind cursorRow).map key) rows).drop
        (skips cursorOf rows cursor)).take take := by
  cases cursor with
  | none => rfl
  | some cursor =>
      obtain ⟨⟨row, hfound⟩, hnullable⟩ := hfound cursor rfl
      by_cases hlisted : isListed cursorOf rows cursor = true
      · obtain ⟨a, ha, rfl⟩ := isListed_iff.mp hlisted
        rw [skips, if_pos hlisted, List.drop_zero]
        apply findManyPage_of_found hkeyed
        rintro _ ⟨⟩
        exact ⟨a, ha, hrow a ha⟩
      · have hquery : nullable = false := by
          cases nullable with
          | false => rfl
          | true => exact absurd (hnullable rfl) hlisted
        simp only [findManyPage, hfound, hquery, Bool.false_and, Bool.false_eq_true, if_false,
          Option.bind_some, Option.map_some]
        rw [skips, if_neg hlisted, startingAt_eq_after]
        intro a ha heq
        apply hlisted
        exact isListed_iff.mpr ⟨a, ha, (hkey a row heq).trans (hcursor cursor row hfound)⟩

end Pages

section Walks
variable {page : σ → Option γ → Except ε (PaginatedResult α γ)} {key : α → K}
variable {rowsOf : σ → List α} {cursorOf : α → γ} {start : σ → Option γ → Option K} {limit : Nat}
variable {found : σ → γ → Prop} {c : Option γ} {s : σ} {ss : List σ} {l : List α}

/-- Every page starts after the place of its cursor, less what it skips, if the cursor is found,
and is empty otherwise. -/
structure Skipping (cursorOf : α → γ) (key : α → K) (rowsOf : σ → List α)
    (start : σ → Option γ → Option K) (limit : Nat) (found : σ → γ → Prop)
    (page : σ → Option γ → Except ε (PaginatedResult α γ)) (s : σ) : Prop where
  isPage : ∀ c r, page s c = .ok r → (∀ i ∈ c, found s i) → IsPage cursorOf limit
    ((after key (start s c) (rowsOf s)).drop (skips cursorOf (rowsOf s) c)) r
  empty : ∀ i r, page s (some i) = .ok r → ¬found s i → r.items = [] ∧ r.hasMore = false

omit [LinearOrder K] [DecidableEq γ] in
theorem Follows.exists_head (h : Follows page c ss l) : ∃ s, ss.head? = some s := by
  cases h with
  | last => exact ⟨_, rfl⟩
  | more => exact ⟨_, rfl⟩

omit [LinearOrder K] [DecidableEq γ] in
/-- The request after a page goes on from the cursor of the page. -/
theorem resumptions_more {c' : γ} {r : PaginatedResult α γ} (h : page s c = .ok r)
    (hcursor : r.cursor = some c') (tail : Follows page (some c') ss l) :
    ∃ u us, ss = u :: us ∧ (∃ r', page u (some c') = .ok r') ∧
      resumptions page c (s :: ss) = ⟨c', s, u⟩ :: resumptions page (some c') ss := by
  obtain ⟨u, us, rfl, hok⟩ : ∃ u us, ss = u :: us ∧ ∃ r', page u (some c') = .ok r' := by
    cases tail with
    | last h => exact ⟨_, _, rfl, _, h⟩
    | more h => exact ⟨_, _, rfl, _, h⟩
  refine ⟨u, us, rfl, hok, ?_⟩
  rw [resumptions, h, Except.toOption, Option.bind_some, hcursor]

/-- What remains of a page to come lies after its last row. -/
theorem lt_of_mem_drop {rows : List α} (h : rows.Pairwise fun a b => key a < key b) {n : Nat}
    {a x : α} (ha : a ∈ rows.take n) (hx : x ∈ rows.drop n) : key a < key x := by
  rw [← List.take_append_drop n rows] at h
  exact (List.pairwise_append.mp h).2.2 a ha x hx

/-- A page that is not empty starts after a place. -/
theorem Skipping.isPage_of_items (h : Skipping cursorOf key rowsOf start limit found page s)
    {r : PaginatedResult α γ} (hr : page s c = .ok r) (hitems : r.items ≠ []) :
    IsPage cursorOf limit
      ((after key (start s c) (rowsOf s)).drop (skips cursorOf (rowsOf s) c)) r := by
  apply h.isPage c r hr
  rintro i rfl
  by_contra hfound
  exact hitems (h.empty i r hr hfound).1

/-- A page that is not the last one starts after a place. -/
theorem Skipping.isPage_of_more (h : Skipping cursorOf key rowsOf start limit found page s)
    {r : PaginatedResult α γ} (hr : page s c = .ok r) (hmore : r.hasMore = true) :
    IsPage cursorOf limit
      ((after key (start s c) (rowsOf s)).drop (skips cursorOf (rowsOf s) c)) r := by
  apply h.isPage c r hr
  rintro i rfl
  by_contra hfound
  rw [(h.empty i r hr hfound).2] at hmore
  cases hmore

/-- Whatever is shown was in a table. -/
theorem Follows.exists_mem (h : Follows page c ss l)
    (hpage : ∀ s ∈ ss, Skipping cursorOf key rowsOf start limit found page s) {a : α}
    (ha : a ∈ l) : ∃ s ∈ ss, a ∈ rowsOf s := by
  have hrows : ∀ {s c r}, s ∈ ss → page s c = .ok r → a ∈ r.items → a ∈ rowsOf s := by
    intro s c r hs hr ha
    rw [((hpage s hs).isPage_of_items hr (List.ne_nil_of_mem ha)).items] at ha
    exact (mem_after.mp (List.mem_of_mem_drop (List.mem_of_mem_take ha))).1
  induction h with
  | @last s c r h hmore =>
      have hs : s ∈ [s] := List.mem_singleton_self s
      exact ⟨s, hs, hrows hs h ha⟩
  | @more s c c' r ss l h hmore hcursor tail ih =>
      rcases List.mem_append.mp ha with ha | ha
      · exact ⟨s, List.mem_cons_self, hrows List.mem_cons_self h ha⟩
      · obtain ⟨t, ht, hat⟩ := ih (fun t ht => hpage t (List.mem_cons_of_mem s ht)) ha
          fun ht => hrows (List.mem_cons_of_mem s ht)
        exact ⟨t, List.mem_cons_of_mem s ht, hat⟩

/-- A row after the start that a page does not hold is skipped, or comes later. -/
theorem missed_of_page {r : PaginatedResult α γ} (h : IsPage cursorOf limit
      ((after key (start s c) (rowsOf s)).drop (skips cursorOf (rowsOf s) c)) r) {a : α}
    (ha : a ∈ rowsOf s) (hbeyond : Beyond (start s c) (key a))
    (hmissed : cursorOf a ∉ r.items.map cursorOf) :
    cursorOf a ∈ (((after key (start s c) (rowsOf s)).take
        (skips cursorOf (rowsOf s) c)).map cursorOf).toFinset ∨
      a ∈ ((after key (start s c) (rowsOf s)).drop (skips cursorOf (rowsOf s) c)).drop limit := by
  have hmem : a ∈ after key (start s c) (rowsOf s) := mem_after.mpr ⟨ha, hbeyond⟩
  rw [← List.take_append_drop (skips cursorOf (rowsOf s) c) (after key _ _)] at hmem
  rcases List.mem_append.mp hmem with hskipped | hrest
  · exact .inl (List.mem_toFinset.mpr (List.mem_map_of_mem hskipped))
  · rw [← List.take_append_drop limit (List.drop _ _)] at hrest
    rcases List.mem_append.mp hrest with hitem | hlater
    · rw [← h.items] at hitem
      exact absurd (List.mem_map_of_mem hitem) hmissed
    · exact .inr hlater

theorem card_skipped_le (cursorOf : α → γ) (rows : List α) (n : Nat) :
    ((rows.take n).map cursorOf).toFinset.card ≤ n := by
  calc
    _ ≤ ((rows.take n).map cursorOf).length := List.toFinset_card_le _
    _ ≤ n := by
      rw [List.length_map, List.length_take]
      exact Nat.min_le_left _ _

/-- Of the rows that keep their places after the start, a client misses at most one for each
request that skips one, where every cursor is found and no cursor row moves towards the end. -/
theorem Follows.card_missed_le (h : Follows page c ss l)
    (hpage : ∀ s ∈ ss, Skipping cursorOf key rowsOf start limit found page s)
    (hkeyed : ∀ s ∈ ss, Keyed key rowsOf s)
    (hfound : ∀ q ∈ resumptions page c ss, found q.now q.cursor)
    (hback : ∀ q ∈ resumptions page c ss, ∀ a ∈ rowsOf q.before, cursorOf a = q.cursor →
      ∀ k ∈ start q.now (some q.cursor), k ≤ key a)
    {kept : Finset γ} {place : γ → K}
    (hkept : ∀ i ∈ kept, ∀ s ∈ ss, ∃ a ∈ rowsOf s, cursorOf a = i ∧ key a = place i)
    (hs : ss.head? = some s) (hc : ∀ i ∈ c, found s i) :
    (kept.filter fun i => Beyond (start s c) (place i) ∧ i ∉ l.map cursorOf).card ≤
      skips cursorOf (rowsOf s) c +
        (resumptions page c ss).countP fun q => !isListed cursorOf (rowsOf q.now) q.cursor := by
  induction h generalizing s with
  | @last s' c r h hmore =>
      obtain rfl : s' = s := Option.some.inj hs
      have hr := (hpage s' (List.mem_singleton_self s')).isPage c r h hc
      obtain ⟨hlength, -⟩ := hr.items_of_last hmore
      refine Nat.le_trans (Finset.card_le_card ?_) (Nat.le_trans
        (card_skipped_le cursorOf (after key (start s' c) (rowsOf s')) _)
        (Nat.le_add_right _ _))
      intro i hi
      obtain ⟨hi, hbeyond, hmissed⟩ := Finset.mem_filter.mp hi
      obtain ⟨a, ha, rfl, hplace⟩ := hkept i hi s' (List.mem_singleton_self s')
      rw [← hplace] at hbeyond
      rcases missed_of_page hr ha hbeyond hmissed with hskipped | hlater
      · exact hskipped
      · rw [List.drop_of_length_le hlength] at hlater
        cases hlater
  | @more s' c c' r ss l h hmore hcursor tail ih =>
      obtain rfl : s' = s := Option.some.inj hs
      have hr := (hpage s' List.mem_cons_self).isPage_of_more h hmore
      obtain ⟨a, ha, rfl⟩ := Option.map_eq_some_iff.mp ((hr.cursor hmore).symm.trans hcursor)
      obtain ⟨u, us, rfl, -, hresumptions⟩ := resumptions_more h hcursor tail
      rw [hresumptions] at hback hfound ⊢
      obtain ⟨hnow, hlater⟩ := List.forall_mem_cons.mp hback
      obtain ⟨hfirst, hothers⟩ := List.forall_mem_cons.mp hfound
      have hrest := ih (fun t ht => hpage t (List.mem_cons_of_mem s' ht))
        (fun t ht => hkeyed t (List.mem_cons_of_mem s' ht)) hothers hlater
        (fun i hi t ht => hkept i hi t (List.mem_cons_of_mem s' ht)) rfl
        (fun i hi => Option.some.inj hi ▸ hfirst)
      -- the last row of the page, after which the others of the page do not come
      have hstrict := (pairwise_after (c := start s' c) (hkeyed s' List.mem_cons_self)).sublist
        (List.drop_sublist (skips cursorOf (rowsOf s') c) _)
      have hitem := List.mem_of_getLast? ha
      rw [hr.items] at hitem
      have hplaced : ∀ k ∈ start u (some (cursorOf a)), k ≤ key a :=
        hnow a (mem_after.mp (List.mem_of_mem_drop (List.mem_of_mem_take hitem))).1 rfl
      have hsubset : (kept.filter fun i => Beyond (start s' c) (place i) ∧
          i ∉ (r.items ++ l).map cursorOf) ⊆
            (((after key (start s' c) (rowsOf s')).take
              (skips cursorOf (rowsOf s') c)).map cursorOf).toFinset ∪
                kept.filter fun i => Beyond (start u (some (cursorOf a))) (place i) ∧
                  i ∉ l.map cursorOf := by
        intro i hi
        obtain ⟨hi, hbeyond, hmissed⟩ := Finset.mem_filter.mp hi
        obtain ⟨b, hb, rfl, hplace⟩ := hkept i hi s' List.mem_cons_self
        rw [← hplace] at hbeyond
        rw [List.map_append, List.mem_append, not_or] at hmissed
        rcases missed_of_page hr hb hbeyond hmissed.1 with hskipped | hafter
        · exact Finset.mem_union_left _ hskipped
        · refine Finset.mem_union_right _ (Finset.mem_filter.mpr ⟨hi, fun k hk => ?_, hmissed.2⟩)
          rw [← hplace]
          exact (hplaced k hk).trans_lt (lt_of_mem_drop hstrict hitem hafter)
      have hcount : (List.countP (fun q => !isListed cursorOf (rowsOf q.now) q.cursor)
          (⟨cursorOf a, s', u⟩ :: resumptions page (some (cursorOf a)) (u :: us))) =
            skips cursorOf (rowsOf u) (some (cursorOf a)) +
              (resumptions page (some (cursorOf a)) (u :: us)).countP fun q =>
                !isListed cursorOf (rowsOf q.now) q.cursor := by
        rw [List.countP_cons, Nat.add_comm, skips]
        cases isListed cursorOf (rowsOf u) (cursorOf a) <;> rfl
      calc
        _ ≤ _ := Finset.card_le_card hsubset
        _ ≤ _ := Finset.card_union_le _ _
        _ ≤ _ := Nat.add_le_add (card_skipped_le _ _ _) (hrest.trans_eq hcount.symm)

omit [LinearOrder K] [DecidableEq γ] in
theorem Follows.eq_nil (h : Follows page c (s :: ss) l)
    (hpage : ∀ r, page s c = .ok r → r.items = [] ∧ r.hasMore = false) : l = [] := by
  cases h with
  | last h hmore => exact (hpage _ h).1
  | more h hmore => exact absurd ((hpage _ h).2.symm.trans hmore) (by decide)

/-- Where no cursor row moves at all, the rows come in strict order. -/
theorem Follows.pairwise (h : Follows page c ss l)
    (hpage : ∀ s ∈ ss, Skipping cursorOf key rowsOf start limit found page s)
    (hkeyed : ∀ s ∈ ss, Keyed key rowsOf s)
    (hresume : ∀ q ∈ resumptions page c ss, ∀ a ∈ rowsOf q.before, cursorOf a = q.cursor →
      found q.now q.cursor → start q.now (some q.cursor) = some (key a))
    (hs : ss.head? = some s) :
    l.Pairwise (fun a b => key a < key b) ∧ ∀ a ∈ l, Beyond (start s c) (key a) := by
  induction h generalizing s with
  | @last s' c r h hmore =>
      obtain rfl : s' = s := Option.some.inj hs
      by_cases hnone : r.items = []
      · simp [hnone]
      have hr := (hpage s' (List.mem_singleton_self s')).isPage_of_items h hnone
      rw [(hr.items_of_last hmore).2]
      exact ⟨(pairwise_after (hkeyed s' (List.mem_singleton_self s'))).sublist
        (List.drop_sublist _ _), fun a ha => (mem_after.mp (List.mem_of_mem_drop ha)).2⟩
  | @more s' c c' r ss l h hmore hcursor tail ih =>
      obtain rfl : s' = s := Option.some.inj hs
      have hr := (hpage s' List.mem_cons_self).isPage_of_more h hmore
      obtain ⟨a, ha, rfl⟩ := Option.map_eq_some_iff.mp ((hr.cursor hmore).symm.trans hcursor)
      obtain ⟨u, us, rfl, -, hresumptions⟩ := resumptions_more h hcursor tail
      rw [hresumptions] at hresume
      obtain ⟨hnow, hlater⟩ := List.forall_mem_cons.mp hresume
      obtain ⟨hrest, hafter⟩ := ih (fun t ht => hpage t (List.mem_cons_of_mem s' ht))
        (fun t ht => hkeyed t (List.mem_cons_of_mem s' ht)) hlater rfl
      have hstrict := (pairwise_after (c := start s' c) (hkeyed s' List.mem_cons_self)).sublist
        (List.drop_sublist (skips cursorOf (rowsOf s') c) _)
      have hbeyond : ∀ x ∈ r.items, x ∈ rowsOf s' ∧ Beyond (start s' c) (key x) := by
        intro x hx
        rw [hr.items] at hx
        exact mem_after.mp (List.mem_of_mem_drop (List.mem_of_mem_take hx))
      have hlast : a ∈ r.items := List.mem_of_getLast? ha
      -- the next request starts at the place of the last row, or finds nothing
      have hplaced : ∀ y ∈ l, key a < key y := by
        intro y hy
        by_cases hfound : found u (cursorOf a)
        · have hy := hafter y hy
          rwa [hnow a (hbeyond a hlast).1 rfl hfound, beyond_some] at hy
        · obtain rfl := tail.eq_nil fun r hr =>
            (hpage u (List.mem_cons_of_mem s' List.mem_cons_self)).empty _ r hr hfound
          cases hy
      have hnext : ∀ x ∈ r.items, ∀ y ∈ l, key x < key y := by
        intro x hx y hy
        rw [hr.items, take_eq_filter hstrict (hr.items ▸ ha), List.mem_filter,
          decide_eq_true_iff] at hx
        exact hx.2.trans_lt (hplaced y hy)
      constructor
      · refine List.pairwise_append.mpr ⟨?_, hrest, hnext⟩
        rw [hr.items]
        exact hstrict.sublist (List.take_sublist _ _)
      · intro x hx
        rcases List.mem_append.mp hx with hx | hx
        · exact (hbeyond x hx).2
        · exact fun k hk => ((hbeyond a hlast).2 k hk).trans (hnext a hlast x hx)

end Walks

end SyncBoard
