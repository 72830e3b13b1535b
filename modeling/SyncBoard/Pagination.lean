import SyncBoard.Basic
import SyncBoard.Lib.Paging

/-!
# Cursor pagination

The envelope of a page, `buildCursorPagination`, the cursor of `findMany`, and what a
client does that follows the returned cursor until `hasMore` is false. Where every page
consists of the first rows after a position, the followed pages are a `Walk`.
-/

namespace SyncBoard

open Paging

/-- `PaginatedResult`. -/
structure PaginatedResult (α γ : Type) where
  items : List α
  cursor : Option γ
  hasMore : Bool
  deriving DecidableEq, Repr

/-- `buildCursorPagination`, for rows of which one more than the limit was asked for. -/
def buildCursorPagination {α γ : Type} (items : List α) (limit : Nat) (cursorExtractor : α → γ) :
    PaginatedResult α γ :=
  let hasMore := decide (limit < items.length)
  let pageItems := if hasMore then items.take limit else items
  { items := pageItems
    cursor := if hasMore then pageItems.getLast?.map cursorExtractor else none
    hasMore := hasMore }

/-- `BadRequestException`, by which a cursor is refused. -/
structure BadRequest where
  message : String
  deriving DecidableEq, Repr

variable {α γ σ ε K : Type} [LinearOrder K]

/-- `findMany` with an order and `take`, and where a cursor is given with the cursor and
`skip: 1`: the rows from where the row of the cursor is now, less the first. Without a row
of the cursor nothing is found. The row need not satisfy the filter of the query, unless
the order is by a field that may be null: then it is looked for in memory. -/
def findManyPage (key : α → K) (rows : List α) (cursorRow : γ → Option α) (nullable : Bool)
    (take : Nat) : Option γ → List α
  | none => (after key none rows).take take
  | some cursor =>
      match cursorRow cursor with
      | none => []
      | some row =>
          if nullable && rows.all fun a => decide (key a ≠ key row) then []
          else ((startingAt key (key row) rows).drop 1).take take

/-- Where the row of the cursor satisfies the filter, the page starts after it. -/
theorem findManyPage_of_found {key : α → K} {rows : List α} (h : (rows.map key).Nodup)
    {cursorRow : γ → Option α} {cursor : Option γ}
    (hfound : ∀ c ∈ cursor, ∃ row ∈ rows, cursorRow c = some row) (nullable : Bool)
    (take : Nat) : findManyPage key rows cursorRow nullable take cursor =
      (after key ((cursor.bind cursorRow).map key) rows).take take := by
  cases cursor with
  | none => rfl
  | some cursor =>
      obtain ⟨row, hmem, hrow⟩ := hfound cursor rfl
      have hlisted : ¬(nullable && rows.all fun a => decide (key a ≠ key row)) = true := by
        rw [Bool.and_eq_true, List.all_eq_true]
        exact fun hnone => absurd rfl (of_decide_eq_true (hnone.2 row hmem))
      simp only [findManyPage, hrow, Option.bind_some, Option.map_some]
      rw [if_neg hlisted, startingAt_eq_cons h hmem, List.drop_one, List.tail_cons]

/-- The pages of a client that follows the returned cursor until `hasMore` is false: the
stores on which the requests are answered, and the items of all pages. -/
inductive Follows (page : σ → Option γ → Except ε (PaginatedResult α γ)) :
    Option γ → List σ → List α → Prop
  | last {s : σ} {c : Option γ} {r : PaginatedResult α γ} (h : page s c = .ok r)
      (hmore : r.hasMore = false) : Follows page c [s] r.items
  | more {s : σ} {c : Option γ} {c' : γ} {r : PaginatedResult α γ} {ss : List σ} {l : List α}
      (h : page s c = .ok r) (hmore : r.hasMore = true) (hcursor : r.cursor = some c')
      (tail : Follows page (some c') ss l) : Follows page c (s :: ss) (r.items ++ l)

/-- A request after the first: its cursor, the store on which that was returned, and the
store on which the request is answered. -/
structure Resumption (γ σ : Type) where
  cursor : γ
  before : σ
  now : σ

/-- The requests after the first of a client that follows the returned cursor. -/
def resumptions (page : σ → Option γ → Except ε (PaginatedResult α γ)) :
    Option γ → List σ → List (Resumption γ σ)
  | c, s :: s' :: ss =>
      match (page s c).toOption.bind PaginatedResult.cursor with
      | some c' => ⟨c', s, s'⟩ :: resumptions page (some c') (s' :: ss)
      | none => []
  | _, _ => []

/-- The request goes on from a row of the page before, on the store of the pair. -/
def GoesOnFrom (cursorOf : α → γ) (rowsOf : σ → List α) (t : α × σ) (q : Resumption γ σ) : Prop :=
  cursorOf t.1 = q.cursor ∧ t.2 = q.now ∧ t.1 ∈ rowsOf q.before

/-- The two moments at which every request reads the store, in their order. -/
def moments (requests : List (σ × σ)) : List σ :=
  requests.flatMap fun request => [request.1, request.2]

/-- The items of a feed come in strict order and none twice, and every row that is there
throughout comes exactly once. -/
structure ReturnsOnce {κ : Type} [DecidableEq κ] (precedes : α → α → Prop) (idOf : α → κ)
    (throughout : κ → Prop) (l : List α) : Prop where
  ordered : l.Pairwise precedes
  nodup : (l.map idOf).Nodup
  once : ∀ k, throughout k → (l.map idOf).count k = 1

/-- The first rows of a list, with the cursor of the last of them where there are more. -/
structure IsPage (cursorOf : α → γ) (limit : Nat) (rows : List α) (r : PaginatedResult α γ) :
    Prop where
  items : r.items = rows.take limit
  hasMore : r.hasMore = decide (limit < rows.length)
  cursor : r.hasMore = true → r.cursor = r.items.getLast?.map cursorOf

section Pages
variable {cursorOf : α → γ} {limit : Nat} {rows : List α} {r : PaginatedResult α γ}

/-- The rows beyond the limit need not be fetched, but for one. -/
theorem isPage_buildCursorPagination (rows : List α) (limit : Nat) (cursorOf : α → γ) :
    IsPage cursorOf limit rows (buildCursorPagination (rows.take (limit + 1)) limit cursorOf) := by
  have hlength : limit < (rows.take (limit + 1)).length ↔ limit < rows.length := by
    rw [List.length_take]
    omega
  refine ⟨?_, ?_, fun hmore => ?_⟩
  · by_cases h : limit < rows.length
    · simp only [buildCursorPagination, hlength, h, decide_true, if_true, List.take_take]
      rw [Nat.min_eq_left (Nat.le_succ limit)]
    · simp only [buildCursorPagination, hlength, h, decide_false, Bool.false_eq_true, if_false]
      rw [List.take_of_length_le (by omega), List.take_of_length_le (by omega)]
  · simp only [buildCursorPagination, hlength]
  · simp only [buildCursorPagination] at hmore ⊢
    simp only [hmore, if_true]

theorem IsPage.items_of_last (h : IsPage cursorOf limit rows r) (hmore : r.hasMore = false) :
    rows.length ≤ limit ∧ r.items = rows := by
  rw [h.hasMore, decide_eq_false_iff_not] at hmore
  have hlength : rows.length ≤ limit := by omega
  refine ⟨hlength, ?_⟩
  rw [h.items, List.take_of_length_le hlength]

end Pages

section Walks
variable {page : σ → Option γ → Except ε (PaginatedResult α γ)} {key : α → K}
variable {rowsOf : σ → List α} {cursorOf : α → γ} {start : σ → Option γ → Option K} {limit : Nat}
variable {found : σ → γ → Prop} {c : Option γ} {s : σ} {ss : List σ} {l : List α}

/-- Pages that start after a position are a walk. The position of a request depends on
its cursor and the store by then, and the pages have to be such only where the cursor is
one that is found there. -/
theorem Follows.walk (h : Follows page c ss l)
    (hpage : ∀ s ∈ ss, ∀ c r, (∀ i ∈ c, found s i) → page s c = .ok r →
      IsPage cursorOf limit (after key (start s c) (rowsOf s)) r)
    (hfirst : ∀ s ∈ ss.head?, ∀ i ∈ c, found s i)
    (hnext : ss.Pairwise fun s s' => ∀ a ∈ rowsOf s, found s' (cursorOf a))
    (hs : ss.head? = some s) :
    ∃ ts, Walk key rowsOf (fun a s => start s (some (cursorOf a))) limit (start s c) ss l ts ∧
      (∀ t ∈ ts, ∃ q ∈ resumptions page c ss, GoesOnFrom cursorOf rowsOf t q) ∧
      (∀ q ∈ resumptions page c ss, ∃ t ∈ ts, GoesOnFrom cursorOf rowsOf t q) ∧
      ∀ t ∈ ts, t.2 ∈ ss ∧ (∃ s ∈ ss, t.1 ∈ rowsOf s) ∧
        ∃ r, page t.2 (some (cursorOf t.1)) = .ok r := by
  induction h generalizing s with
  | @last s' c r h hmore =>
      obtain rfl : s' = s := Option.some.inj hs
      have hr := hpage s' (List.mem_singleton_self s') c r (hfirst s' rfl) h
      obtain ⟨hlength, hitems⟩ := hr.items_of_last hmore
      rw [hitems]
      exact ⟨[], .last hlength, by simp, by simp [resumptions], by simp⟩
  | @more s' c c' r ss l h hmore hcursor tail ih =>
      obtain rfl : s' = s := Option.some.inj hs
      have hr := hpage s' List.mem_cons_self c r (hfirst s' rfl) h
      have hlimit : limit < (after key (start s' c) (rowsOf s')).length := by
        rw [hr.hasMore, decide_eq_true_iff] at hmore
        exact hmore
      obtain ⟨a, ha, rfl⟩ := Option.map_eq_some_iff.mp ((hr.cursor hmore).symm.trans hcursor)
      rw [hr.items] at ha ⊢
      have hmem : a ∈ rowsOf s' :=
        (mem_after.mp (List.mem_of_mem_take (List.mem_of_getLast? ha))).1
      obtain ⟨hfound, hrest⟩ := List.pairwise_cons.mp hnext
      obtain ⟨u, us, rfl⟩ : ∃ u us, ss = u :: us := by
        cases tail with
        | last => exact ⟨_, _, rfl⟩
        | more => exact ⟨_, _, rfl⟩
      obtain ⟨ts, walk, hfrom, hto, hts⟩ := ih (fun v hv => hpage v (List.mem_cons_of_mem s' hv))
        (fun v hv i hi => by
          obtain rfl : u = v := Option.some.inj hv
          obtain rfl : cursorOf a = i := Option.some.inj hi
          exact hfound u List.mem_cons_self a hmem) hrest rfl
      have hpageOk : ∃ r, page u (some (cursorOf a)) = .ok r := by
        cases tail with
        | last h => exact ⟨_, h⟩
        | more h => exact ⟨_, h⟩
      have hresumptions : resumptions page c (s' :: u :: us) =
          ⟨cursorOf a, s', u⟩ :: resumptions page (some (cursorOf a)) (u :: us) := by
        rw [resumptions, h, Except.toOption, Option.bind_some, hcursor]
      have hgoes : GoesOnFrom cursorOf rowsOf (a, u) ⟨cursorOf a, s', u⟩ := ⟨rfl, rfl, hmem⟩
      refine ⟨(a, u) :: ts, .more hlimit ha walk, ?_, ?_,
        List.forall_mem_cons.mpr ⟨?_, fun t ht => ?_⟩⟩
      · rw [hresumptions]
        refine List.forall_mem_cons.mpr ⟨⟨_, List.mem_cons_self, hgoes⟩, fun t ht => ?_⟩
        obtain ⟨q, hq, hgoes⟩ := hfrom t ht
        exact ⟨q, List.mem_cons_of_mem _ hq, hgoes⟩
      · rw [hresumptions]
        refine List.forall_mem_cons.mpr ⟨⟨_, List.mem_cons_self, hgoes⟩, fun q hq => ?_⟩
        obtain ⟨t, ht, hgoes⟩ := hto q hq
        exact ⟨t, List.mem_cons_of_mem _ ht, hgoes⟩
      · exact ⟨List.mem_cons_of_mem _ List.mem_cons_self, ⟨s', List.mem_cons_self, hmem⟩, hpageOk⟩
      · obtain ⟨hmem', ⟨v, hv, hrow⟩, hok⟩ := hts t ht
        exact ⟨List.mem_cons_of_mem _ hmem', ⟨v, List.mem_cons_of_mem _ hv, hrow⟩, hok⟩

/-- A walk from the first page. -/
theorem Follows.walk_none (h : Follows page none ss l)
    (hpage : ∀ s ∈ ss, ∀ c r, (∀ i ∈ c, found s i) → page s c = .ok r →
      IsPage cursorOf limit (after key (start s c) (rowsOf s)) r)
    (hnext : ss.Pairwise fun s s' => ∀ a ∈ rowsOf s, found s' (cursorOf a))
    (hnone : ∀ s ∈ ss, start s none = none) :
    ∃ ts, Walk key rowsOf (fun a s => start s (some (cursorOf a))) limit none ss l ts ∧
      (∀ t ∈ ts, ∃ q ∈ resumptions page none ss, GoesOnFrom cursorOf rowsOf t q) ∧
      (∀ q ∈ resumptions page none ss, ∃ t ∈ ts, GoesOnFrom cursorOf rowsOf t q) ∧
      ∀ t ∈ ts, t.2 ∈ ss ∧ (∃ s ∈ ss, t.1 ∈ rowsOf s) ∧
        ∃ r, page t.2 (some (cursorOf t.1)) = .ok r := by
  obtain ⟨s, hs⟩ : ∃ s, ss.head? = some s := by
    cases h with
    | last => exact ⟨_, rfl⟩
    | more => exact ⟨_, rfl⟩
  rw [← hnone s (List.mem_of_head? hs)]
  exact h.walk hpage (fun _ _ _ hi => absurd hi (by simp)) hnext hs

/-- Where every page starts at the key of the row whose cursor is given, the rows come in
strict order, and every row that is there throughout comes exactly once. -/
theorem Follows.keyset (h : Follows page none ss l)
    (hpage : ∀ s ∈ ss, ∀ c r, page s c = .ok r →
      IsPage cursorOf limit (after key (start s c) (rowsOf s)) r)
    (hnone : ∀ s ∈ ss, start s none = none)
    (hresume : ∀ s ∈ ss, ∀ t ∈ ss, ∀ a ∈ rowsOf s, ∀ r, page t (some (cursorOf a)) = .ok r →
      start t (some (cursorOf a)) = some (key a))
    (hkeyed : ∀ s ∈ ss, Keyed key rowsOf s) :
    l.Pairwise (fun a b => key a < key b) ∧ (∀ a ∈ l, ∃ s ∈ ss, a ∈ rowsOf s) ∧
      ∀ is k, (∀ s ∈ ss, Holds key rowsOf is k s) → l.countP is = 1 := by
  let found : σ → γ → Prop := fun _ _ => True
  have hpages : ∀ s ∈ ss, ∀ c r, (∀ i ∈ c, found s i) → page s c = .ok r →
      IsPage cursorOf limit (after key (start s c) (rowsOf s)) r :=
    fun s hs c r _ hr => hpage s hs c r hr
  have hnext : ss.Pairwise fun s s' => ∀ a ∈ rowsOf s, found s' (cursorOf a) :=
    List.pairwise_of_forall fun _ _ _ _ => trivial
  obtain ⟨ts, walk, -, -, hts⟩ := h.walk_none hpages hnext hnone
  have hlast : ∀ t ∈ ts, start t.2 (some (cursorOf t.1)) = some (key t.1) := by
    intro t ht
    obtain ⟨hmem, ⟨u, hu, hrow⟩, r, hr⟩ := hts t ht
    exact hresume u hu t.2 hmem t.1 hrow r hr
  exact ⟨(walk.pairwise hkeyed hlast).1, fun a ha => walk.mem_rows ha,
    fun is k hholds => walk.countP_eq_one hkeyed hlast hholds⟩

theorem mem_of_mem_resumptions {q : Resumption γ σ} (h : q ∈ resumptions page c ss) :
    q.before ∈ ss ∧ q.now ∈ ss := by
  induction ss generalizing c with
  | nil => cases h
  | cons s ss ih =>
      cases ss with
      | nil => cases h
      | cons s' ss =>
          simp only [resumptions] at h
          split at h
          · rcases List.mem_cons.mp h with rfl | h
            · exact ⟨List.mem_cons_self, List.mem_cons_of_mem _ List.mem_cons_self⟩
            · obtain ⟨hbefore, hnow⟩ := ih h
              exact ⟨List.mem_cons_of_mem _ hbefore, List.mem_cons_of_mem _ hnow⟩
          · cases h

/-- A request is answered on a later store than its cursor was returned on. -/
theorem resumptions_of_pairwise {R : σ → σ → Prop} (h : ss.Pairwise R) :
    ∀ q ∈ resumptions page c ss, R q.before q.now := by
  induction ss generalizing c with
  | nil => simp [resumptions]
  | cons s ss ih =>
      obtain ⟨hs, hrest⟩ := List.pairwise_cons.mp h
      cases ss with
      | nil => simp [resumptions]
      | cons s' ss =>
          simp only [resumptions]
          split
          · exact List.forall_mem_cons.mpr ⟨hs s' List.mem_cons_self, ih hrest⟩
          · simp

/-- Where no page starts after a row that the one before has not come to, a row that is
there throughout comes exactly once if and only if no page starts before it again. -/
theorem Follows.countP_eq_one_iff {is : α → Bool} {k : K} (h : Follows page none ss l)
    (hpage : ∀ s ∈ ss, ∀ c r, (∀ i ∈ c, found s i) → page s c = .ok r →
      IsPage cursorOf limit (after key (start s c) (rowsOf s)) r)
    (hnext : ss.Pairwise fun s s' => ∀ a ∈ rowsOf s, found s' (cursorOf a))
    (hnone : ∀ s ∈ ss, start s none = none) (hkeyed : ∀ s ∈ ss, Keyed key rowsOf s)
    (hcursor : ∀ s ∈ ss, ∀ a ∈ rowsOf s, ∀ b ∈ rowsOf s, cursorOf a = cursorOf b → a = b)
    (hback : ∀ q ∈ resumptions page none ss, ∀ a ∈ rowsOf q.before, cursorOf a = q.cursor →
      key a < k → Beyond (start q.now (some q.cursor)) k)
    (hholds : ∀ s ∈ ss, Holds key rowsOf is k s) :
    l.countP is = 1 ↔ ∀ q ∈ resumptions page none ss, ∃ a ∈ rowsOf q.before,
      cursorOf a = q.cursor ∧ (Beyond (start q.now (some q.cursor)) k → key a < k) := by
  obtain ⟨ts, walk, hfrom, hto, -⟩ := h.walk_none hpage hnext hnone
  have hskip : ∀ t ∈ ts, key t.1 < k → Beyond (start t.2 (some (cursorOf t.1))) k := by
    intro t ht hk
    obtain ⟨q, hq, hcur, hnow, hrow⟩ := hfrom t ht
    rw [hcur, hnow]
    exact hback q hq t.1 hrow hcur hk
  have hiff := (walk.countP hkeyed hholds hskip).2
  rw [if_pos (beyond_none k)] at hiff
  rw [hiff]
  constructor
  · intro hts q hq
    obtain ⟨t, ht, hcur, hnow, hrow⟩ := hto q hq
    have hstop := hts t ht
    rw [hcur, hnow] at hstop
    exact ⟨t.1, hrow, hcur, hstop⟩
  · intro hqs t ht
    obtain ⟨q, hq, hcur, hnow, hrow⟩ := hfrom t ht
    obtain ⟨a, ha, hcur', hstop⟩ := hqs q hq
    have hbefore := (mem_of_mem_resumptions hq).1
    obtain rfl := hcursor q.before hbefore a ha t.1 hrow (hcur'.trans hcur.symm)
    rw [hcur, hnow]
    exact hstop

/-- A client can follow a walk over one store. -/
theorem follows_of_walk {k : Option K} {ts : List (α × σ)}
    (walk : Walk key rowsOf (fun a _ => some (key a)) limit k ss l ts)
    (hss : ∀ t ∈ ss, t = s) (hpage : ∀ c, (∀ i ∈ c, found s i) →
      ∃ r, page s c = .ok r ∧ IsPage cursorOf limit (after key (start s c) (rowsOf s)) r)
    (hfound : ∀ a ∈ rowsOf s, found s (cursorOf a))
    (hstart : ∀ a ∈ rowsOf s, start s (some (cursorOf a)) = some (key a))
    (hk : start s c = k) (hc : ∀ i ∈ c, found s i) : Follows page c ss l := by
  induction walk generalizing c with
  | @last k s' hlength =>
      obtain rfl := hss s' (List.mem_singleton_self s')
      obtain ⟨r, hr, hpage⟩ := hpage c hc
      rw [hk] at hpage
      have hmore : r.hasMore = false := by
        rw [hpage.hasMore, decide_eq_false_iff_not]
        omega
      rw [← (hpage.items_of_last hmore).2]
      exact .last hr hmore
  | @more k s' s'' ss l a ts hlimit ha tail ih =>
      obtain rfl := hss s' List.mem_cons_self
      obtain ⟨r, hr, hpage⟩ := hpage c hc
      rw [hk] at hpage
      have hmore : r.hasMore = true := by
        rw [hpage.hasMore, decide_eq_true_iff]
        exact hlimit
      have hmem : a ∈ rowsOf s' :=
        (mem_after.mp (List.mem_of_mem_take (List.mem_of_getLast? ha))).1
      rw [← hpage.items] at ha ⊢
      refine .more hr hmore ?_ (ih (fun t ht => hss t (List.mem_cons_of_mem s' ht))
        (hstart a hmem) ?_)
      · rw [hpage.cursor hmore, ha, Option.map_some]
      · intro i hi
        obtain rfl : cursorOf a = i := Option.some.inj hi
        exact hfound a hmem

variable (rowsOf start found) in
/-- Over one store the followed pages come to an end, and hold every row once. -/
theorem follows_of_static (hlimit : 0 < limit) (hkeyed : Keyed key rowsOf s)
    (hpage : ∀ c, (∀ i ∈ c, found s i) →
      ∃ r, page s c = .ok r ∧ IsPage cursorOf limit (after key (start s c) (rowsOf s)) r)
    (hfound : ∀ a ∈ rowsOf s, found s (cursorOf a))
    (hstart : ∀ a ∈ rowsOf s, start s (some (cursorOf a)) = some (key a))
    (hnone : start s none = none) :
    (∃ n l, Follows page none (List.replicate (n + 1) s) l) ∧
      ∀ n l, Follows page none (List.replicate (n + 1) s) l → l.Perm (rowsOf s) := by
  constructor
  · obtain ⟨n, l, ts, -, walk⟩ : ∃ n l ts, (∀ t ∈ ts, t.2 = s) ∧ Walk key rowsOf
        (fun a _ => some (key a)) limit none (List.replicate (n + 1) s) l ts :=
      exists_walk hlimit hkeyed (fun _ => rfl) none
    refine ⟨n, l, follows_of_walk walk (fun t ht => List.eq_of_mem_replicate ht) hpage hfound
      hstart hnone ?_⟩
    simp
  · intro n l h
    have hconst : ∀ t ∈ List.replicate (n + 1) s, t = s := fun t ht => List.eq_of_mem_replicate ht
    have hpages : ∀ t ∈ List.replicate (n + 1) s, ∀ c r, (∀ i ∈ c, found t i) →
        page t c = .ok r → IsPage cursorOf limit (after key (start t c) (rowsOf t)) r := by
      intro t ht c r hc hr
      obtain rfl := hconst t ht
      obtain ⟨r', hr', hpage⟩ := hpage c hc
      obtain rfl : r' = r := Except.ok.inj (hr'.symm.trans hr)
      exact hpage
    have hnext : (List.replicate (n + 1) s).Pairwise fun t t' =>
        ∀ a ∈ rowsOf t, found t' (cursorOf a) := by
      apply List.pairwise_of_forall_mem_list
      intro t ht t' ht' a ha
      rw [hconst t ht] at ha
      rw [hconst t' ht']
      exact hfound a ha
    obtain ⟨ts, walk, -, -, hts⟩ := h.walk hpages (by simp) hnext rfl
    rw [hnone] at walk
    have hresume : ∀ t ∈ ts, start t.2 (some (cursorOf t.1)) = some (key t.1) := by
      intro t ht
      obtain ⟨hstore, ⟨u, hu, hrow⟩, -⟩ := hts t ht
      rw [hconst u hu] at hrow
      rw [hconst t.2 hstore]
      exact hstart t.1 hrow
    have hperm := walk.perm_after hkeyed hconst hresume
    apply hperm.trans
    have hall : (after key none (rowsOf s)).Perm _ := perm_after none (rowsOf s)
    simpa using hall

end Walks

end SyncBoard
