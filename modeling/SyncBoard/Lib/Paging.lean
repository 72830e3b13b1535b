import Mathlib.Data.List.Sort
import Mathlib.Data.Prod.Lex
import Mathlib.Order.Basic
import Mathlib.Order.Defs.LinearOrder

/-!
# Feeds that are read page by page

A feed is a table ordered by a key. A request gives the first rows after a position,
and the next request goes on from the last of them, while the table changes. `Walk` is
such a sequence of requests until one finds no more rows than a page holds; where it
resumes is a function of the last row and of the table by then.

A row that keeps its key through the whole walk is returned once by every request that
starts before it and does not stop before it. So it is returned exactly once where no
request resumes on the other side of it than where the request before has stopped
(`Walk.countP`), in particular where each resumes at the key of the last row.

Pages may also be numbered; then they are slices of the rows (`flatMap_allPages`).
-/

namespace Paging

variable {α σ K : Type*} [LinearOrder K]

/-- The key lies after the position; all keys lie after the start. -/
def Beyond (c : Option K) (k : K) : Prop :=
  ∀ b ∈ c, b < k

instance (c : Option K) (k : K) : Decidable (Beyond c k) :=
  match c with
  | none => isTrue (by simp [Beyond])
  | some b => decidable_of_iff (b < k) (by simp [Beyond])

@[simp] theorem beyond_none (k : K) : Beyond none k := by
  simp [Beyond]

@[simp] theorem beyond_some {b k : K} : Beyond (some b) k ↔ b < k := by
  simp [Beyond]

/-- A condition that is there where a position is. -/
theorem all_eq_beyond {β : Type*} {f : β → Bool} {position : β → K} {k : K}
    (h : ∀ b, f b = decide (position b < k)) (boundary : Option β) :
    boundary.all f = decide (Beyond (boundary.map position) k) := by
  cases boundary with
  | none => simp
  | some b => simp [h]

variable (key : α → K)

/-- The rows after a position, ordered by their keys. -/
def after (c : Option K) (rows : List α) : List α :=
  (rows.filter fun a => decide (Beyond c (key a))).insertionSort fun a b => key a ≤ key b

/-- The rows at a position and after it, ordered by their keys. -/
def startingAt (k : K) (rows : List α) : List α :=
  (rows.filter fun a => decide (k ≤ key a)).insertionSort fun a b => key a ≤ key b

section Pages
variable {key} {c : Option K} {rows l : List α} {n : Nat} {a x : α}

theorem perm_after (c : Option K) (rows : List α) :
    (after key c rows).Perm (rows.filter fun a => decide (Beyond c (key a))) :=
  List.perm_insertionSort _ _

theorem mem_after : x ∈ after key c rows ↔ x ∈ rows ∧ Beyond c (key x) := by
  rw [(perm_after c rows).mem_iff, List.mem_filter, decide_eq_true_iff]

/-- Where no two rows have the same key, the order is strict. -/
theorem pairwise_insertionSort (h : (rows.map key).Nodup) (p : α → Bool) :
    ((rows.filter p).insertionSort fun a b => key a ≤ key b).Pairwise fun a b => key a < key b := by
  have hsorted : ((rows.filter p).insertionSort fun a b => key a ≤ key b).Pairwise
      fun a b => key a ≤ key b := by
    have : Std.Total fun a b : α => key a ≤ key b := ⟨fun a b => le_total _ _⟩
    have : IsTrans α fun a b => key a ≤ key b := ⟨fun _ _ _ => le_trans⟩
    exact List.pairwise_insertionSort _ _
  have hdistinct : ((rows.filter p).insertionSort fun a b => key a ≤ key b).Pairwise
      fun a b => key a ≠ key b := by
    apply List.pairwise_map.mp
    apply ((List.perm_insertionSort _ (rows.filter p)).map key).nodup_iff.mpr
    exact h.sublist (List.filter_sublist.map key)
  exact hsorted.imp₂ (fun _ _ hle hne => lt_of_le_of_ne hle hne) hdistinct

/-- The position may be one more condition on the rows. -/
theorem after_none_filter {p q : α → Bool}
    (h : ∀ a ∈ rows, p a = (decide (Beyond c (key a)) && q a)) :
    after key none (rows.filter p) = after key c (rows.filter q) := by
  have hfilter : (rows.filter p).filter (fun a => decide (Beyond none (key a))) =
      (rows.filter q).filter fun a => decide (Beyond c (key a)) := by
    simp only [beyond_none, decide_true, List.filter_filter]
    exact List.filter_congr h
  simp only [after, hfilter]

theorem pairwise_after (h : (rows.map key).Nodup) :
    (after key c rows).Pairwise fun a b => key a < key b :=
  pairwise_insertionSort h _

/-- At the position of a row there is only this row. -/
theorem startingAt_eq_cons (h : (rows.map key).Nodup) (ha : a ∈ rows) :
    startingAt key (key a) rows = a :: after key (some (key a)) rows := by
  have hstrict : (startingAt key (key a) rows).Pairwise fun a b => key a < key b :=
    pairwise_insertionSort h _
  have hcons : (a :: after key (some (key a)) rows).Pairwise fun a b => key a < key b := by
    refine List.pairwise_cons.mpr ⟨fun x hx => ?_, pairwise_after h⟩
    exact beyond_some.mp (mem_after.mp hx).2
  have hperm : (startingAt key (key a) rows).Perm (a :: after key (some (key a)) rows) := by
    apply (List.perm_ext_iff_of_nodup (hstrict.imp fun hlt heq => (heq ▸ hlt).false)
      (hcons.imp fun hlt heq => (heq ▸ hlt).false)).mpr
    intro x
    rw [startingAt, List.mem_insertionSort, List.mem_filter, decide_eq_true_iff, List.mem_cons,
      mem_after, beyond_some]
    constructor
    · rintro ⟨hx, hle⟩
      rcases hle.eq_or_lt with heq | hlt
      · exact .inl (List.inj_on_of_nodup_map h hx ha heq.symm)
      · exact .inr ⟨hx, hlt⟩
    · rintro (rfl | ⟨hx, hlt⟩)
      · exact ⟨ha, le_refl _⟩
      · exact ⟨hx, hlt.le⟩
  exact hperm.eq_of_pairwise (fun a b _ _ hab hba => absurd hab hba.asymm) hstrict hcons

/-- A page holds the rows up to its last one. -/
theorem take_eq_filter (hl : l.Pairwise fun a b => key a < key b)
    (ha : (l.take n).getLast? = some a) : l.take n = l.filter fun x => decide (key x ≤ key a) := by
  obtain ⟨front, hfront⟩ := List.getLast?_eq_some_iff.mp ha
  have hsplit : l = (front ++ [a]) ++ l.drop n := by
    rw [← hfront, List.take_append_drop]
  rw [hsplit] at hl
  obtain ⟨hpage, -, hrest⟩ := List.pairwise_append.mp hl
  have hle : ∀ x ∈ front ++ [a], key x ≤ key a := by
    intro x hx
    rcases List.mem_append.mp hx with hx | hx
    · exact ((List.pairwise_append.mp hpage).2.2 x hx a (List.mem_singleton_self a)).le
    · rw [List.mem_singleton.mp hx]
  have hdrop : (l.drop n).filter (fun x => decide (key x ≤ key a)) = [] := by
    apply List.filter_eq_nil_iff.mpr
    intro x hx
    simpa using hrest a (by simp) x hx
  calc
    l.take n = (l.take n).filter fun x => decide (key x ≤ key a) := by
      rw [hfront]
      exact (List.filter_eq_self.mpr fun x hx => by simpa using hle x hx).symm
    _ = (l.take n).filter (fun x => decide (key x ≤ key a)) ++
        (l.drop n).filter fun x => decide (key x ≤ key a) := by
      rw [hdrop, List.append_nil]
    _ = l.filter fun x => decide (key x ≤ key a) := by
      rw [← List.filter_append, List.take_append_drop]

end Pages

/-- Times and ids, both in descending order. -/
abbrev Newest (T I : Type*) := (T ×ₗ I)ᵒᵈ

section NewestFirst
variable {T I : Type*}

def newest (t : T) (i : I) : Newest T I :=
  OrderDual.toDual (toLex (t, i))

theorem newest_lt [LinearOrder T] [LinearOrder I] {t t' : T} {i i' : I} :
    newest t i < newest t' i' ↔ t' < t ∨ t' = t ∧ i' < i := by
  rw [newest, newest, OrderDual.toDual_lt_toDual, Prod.Lex.toLex_lt_toLex]

/-- The order as a query writes it. -/
theorem newest_lt_eq_or [LinearOrder T] [LinearOrder I] (t t' : T) (i i' : I) :
    (decide (t' < t) || (t' == t && decide (i' < i))) = decide (newest t i < newest t' i') := by
  rw [Bool.eq_iff_iff]
  simp only [newest_lt, Bool.or_eq_true, Bool.and_eq_true, decide_eq_true_eq, beq_iff_eq]

theorem newest_inj {t t' : T} {i i' : I} : newest t i = newest t' i' ↔ t = t' ∧ i = i' := by
  simp [newest]

end NewestFirst

section Numbered
variable {size : Nat}

theorem flatMap_pages (l : List α) (size n : Nat) :
    ((List.range' 1 n).flatMap fun i => (l.drop ((i - 1) * size)).take size) =
      l.take (n * size) := by
  induction n with
  | zero => simp
  | succ n ih =>
      rw [List.range'_1_concat, List.flatMap_append, ih, List.flatMap_singleton,
        Nat.add_sub_cancel_left, Nat.succ_mul, List.take_add]

/-- So many pages are there, and one where there are no rows. -/
def pageCount (rows size : Nat) : Nat :=
  max 1 ((rows + size - 1) / size)

theorem le_pageCount_mul (rows : Nat) (hsize : 0 < size) : rows ≤ pageCount rows size * size := by
  have hdiv := Nat.div_add_mod' (rows + size - 1) size
  have hmod := Nat.mod_lt (rows + size - 1) hsize
  have hle : (rows + size - 1) / size * size ≤ pageCount rows size * size :=
    Nat.mul_le_mul_right size (le_max_right 1 _)
  omega

/-- Numbered pages hold all rows. -/
theorem flatMap_allPages (l : List α) (hsize : 0 < size) :
    ((List.range' 1 (pageCount l.length size)).flatMap fun i =>
      (l.drop ((i - 1) * size)).take size) = l := by
  rw [flatMap_pages, List.take_of_length_le (le_pageCount_mul l.length hsize)]

end Numbered

variable (rowsOf : σ → List α) (resume : α → σ → Option K) (limit : Nat)

/-- The requests of a walk from a position, on the tables `ss`, up to the first that
finds no more rows than a page holds: the rows that they return together, and for each
but the first the last row of the page before it and the table on which it resumes. -/
inductive Walk : Option K → List σ → List α → List (α × σ) → Prop
  | last {c : Option K} {s : σ} (h : (after key c (rowsOf s)).length ≤ limit) :
      Walk c [s] (after key c (rowsOf s)) []
  | more {c : Option K} {s s' : σ} {ss : List σ} {rest : List α} {a : α} {ts : List (α × σ)}
      (h : limit < (after key c (rowsOf s)).length)
      (ha : ((after key c (rowsOf s)).take limit).getLast? = some a)
      (tail : Walk (resume a s') (s' :: ss) rest ts) :
      Walk c (s :: s' :: ss) ((after key c (rowsOf s)).take limit ++ rest) ((a, s') :: ts)

/-- No two rows of the table have the same key. -/
def Keyed (s : σ) : Prop :=
  ((rowsOf s).map key).Nodup

/-- The table has exactly one row of the kind, and under the key. -/
def Holds (is : α → Bool) (k : K) (s : σ) : Prop :=
  ∃ a, (rowsOf s).filter is = [a] ∧ key a = k

section Walks
variable {key} {rowsOf} {resume} {limit} {c : Option K} {s : σ} {ss : List σ} {l : List α}
variable {ts : List (α × σ)} {is : α → Bool} {k : K} {a x : α}

/-- Whatever is returned was in a table. -/
theorem Walk.mem_rows (walk : Walk key rowsOf resume limit c ss l ts) (hx : x ∈ l) :
    ∃ s ∈ ss, x ∈ rowsOf s := by
  induction walk with
  | @last c s h => exact ⟨s, List.mem_singleton_self s, (mem_after.mp hx).1⟩
  | @more c s s' ss rest a ts h ha tail ih =>
      rcases List.mem_append.mp hx with hx | hx
      · exact ⟨s, List.mem_cons_self, (mem_after.mp (List.mem_of_mem_take hx)).1⟩
      · obtain ⟨t, ht, hxt⟩ := ih hx
        exact ⟨t, List.mem_cons_of_mem s ht, hxt⟩

/-- The one row of a kind is among the rows after a position if it lies there. -/
theorem Holds.countP_filter_after (h : Holds key rowsOf is k s) (q : K → Bool) (c : Option K) :
    ((after key c (rowsOf s)).filter fun x => q (key x)).countP is =
      if q k = true ∧ Beyond c k then 1 else 0 := by
  obtain ⟨a, hfilter, rfl⟩ := h
  have hcomm : (((rowsOf s).filter fun x => decide (Beyond c (key x))).filter
      fun x => q (key x)).filter is =
        ((rowsOf s).filter is).filter fun x => q (key x) && decide (Beyond c (key x)) := by
    simp only [List.filter_filter]
    apply List.filter_congr
    intro x _
    exact Bool.and_comm _ _
  have hone : [a].filter (fun x => q (key x) && decide (Beyond c (key x))) =
      if q (key a) = true ∧ Beyond c (key a) then [a] else [] := by
    simp [List.filter_cons]
  calc
    _ = (((rowsOf s).filter fun x => decide (Beyond c (key x))).filter
        fun x => q (key x)).countP is :=
      ((perm_after c (rowsOf s)).filter _).countP_eq is
    _ = ([a].filter fun x => q (key x) && decide (Beyond c (key x))).length := by
      rw [List.countP_eq_length_filter, hcomm, hfilter]
    _ = if q (key a) = true ∧ Beyond c (key a) then 1 else 0 := by
      rw [hone]
      split <;> rfl

theorem Holds.countP_after (h : Holds key rowsOf is k s) (c : Option K) :
    (after key c (rowsOf s)).countP is = if Beyond c k then 1 else 0 := by
  simpa using h.countP_filter_after (fun _ => true) c

/-- A page holds the row if it lies after the start of the page and not after its last
row. -/
theorem Holds.countP_page (h : Holds key rowsOf is k s) (hkeyed : Keyed key rowsOf s)
    (ha : ((after key c (rowsOf s)).take limit).getLast? = some a) :
    ((after key c (rowsOf s)).take limit).countP is = if k ≤ key a ∧ Beyond c k then 1 else 0 := by
  rw [take_eq_filter (pairwise_after hkeyed) ha]
  simpa using h.countP_filter_after (fun j => decide (j ≤ key a)) c

/-- A page goes on from its start. -/
theorem beyond_last (ha : ((after key c (rowsOf s)).take limit).getLast? = some a) :
    Beyond c (key a) :=
  (mem_after.mp (List.mem_of_mem_take (List.mem_of_getLast? ha))).2

/-- A walk returns a row that is there throughout at least once, if no request resumes
after the row without the request before having come to it. It returns the row exactly
once if also no request resumes before the row that the request before had passed. -/
theorem Walk.countP (walk : Walk key rowsOf resume limit c ss l ts)
    (hkeyed : ∀ s ∈ ss, Keyed key rowsOf s) (hholds : ∀ s ∈ ss, Holds key rowsOf is k s)
    (hskip : ∀ t ∈ ts, key t.1 < k → Beyond (resume t.1 t.2) k) :
    (if Beyond c k then 1 else 0) ≤ l.countP is ∧
      (l.countP is = (if Beyond c k then 1 else 0) ↔
        ∀ t ∈ ts, Beyond (resume t.1 t.2) k → key t.1 < k) := by
  induction walk with
  | @last c s h =>
      have hcount := (hholds s (List.mem_singleton_self s)).countP_after c
      rw [hcount]
      exact ⟨le_refl _, by simp⟩
  | @more c s s' ss rest a ts h ha tail ih =>
      obtain ⟨hle, hiff⟩ := ih (fun t ht => hkeyed t (List.mem_cons_of_mem s ht))
        (fun t ht => hholds t (List.mem_cons_of_mem s ht))
        (fun t ht => hskip t (List.mem_cons_of_mem _ ht))
      have hpage := (hholds s List.mem_cons_self).countP_page (hkeyed s List.mem_cons_self) ha
      rw [List.countP_append, hpage, List.forall_mem_cons, ← hiff]
      by_cases hpassed : key a < k
      · -- the page stops before the row, and the next one starts before it too
        have hbeyond : Beyond c k := fun b hb => (beyond_last ha b hb).trans hpassed
        have hnext : Beyond (resume a s') k := hskip (a, s') List.mem_cons_self hpassed
        rw [if_pos hnext] at hle ⊢
        rw [if_pos hbeyond, if_neg fun hk => absurd hpassed (not_lt.mpr hk.1), Nat.zero_add]
        exact ⟨hle, by simp [hpassed]⟩
      · have hk : k ≤ key a := not_lt.mp hpassed
        by_cases hnext : Beyond (resume a s') k
        · -- the next page starts before the row that this one has passed
          rw [if_pos hnext] at hle ⊢
          refine ⟨?_, iff_of_false ?_ fun h => hpassed (h.1 hnext)⟩
          · split <;> omega
          · by_cases hbeyond : Beyond c k
            · rw [if_pos hbeyond, if_pos ⟨hk, hbeyond⟩]
              omega
            · rw [if_neg hbeyond, if_neg fun h => hbeyond h.2]
              omega
        · rw [if_neg hnext]
          by_cases hbeyond : Beyond c k
          · rw [if_pos hbeyond, if_pos ⟨hk, hbeyond⟩]
            refine ⟨by omega, ?_⟩
            simp [hnext]
          · rw [if_neg hbeyond, if_neg fun h => hbeyond h.2]
            refine ⟨by omega, ?_⟩
            simp [hnext]

/-- Where every request resumes at the key of the last row, the rows come in strict
order, all of them after the start. -/
theorem Walk.pairwise (walk : Walk key rowsOf resume limit c ss l ts)
    (hkeyed : ∀ s ∈ ss, Keyed key rowsOf s) (hresume : ∀ t ∈ ts, resume t.1 t.2 = some (key t.1)) :
    l.Pairwise (fun a b => key a < key b) ∧ ∀ a ∈ l, Beyond c (key a) := by
  induction walk with
  | @last c s h =>
      exact ⟨pairwise_after (hkeyed s (List.mem_singleton_self s)), fun a ha => (mem_after.mp ha).2⟩
  | @more c s s' ss rest a ts h ha tail ih =>
      have hstrict := pairwise_after (c := c) (hkeyed s List.mem_cons_self)
      obtain ⟨hrest, hafter⟩ := ih (fun t ht => hkeyed t (List.mem_cons_of_mem s ht))
        (fun t ht => hresume t (List.mem_cons_of_mem _ ht))
      have hnext : ∀ x ∈ rest, key a < key x := by
        intro x hx
        have hx := hafter x hx
        rw [hresume (a, s') List.mem_cons_self] at hx
        exact beyond_some.mp hx
      constructor
      · apply List.pairwise_append.mpr
        refine ⟨hstrict.sublist (List.take_sublist _ _), hrest, fun x hx y hy => ?_⟩
        rw [take_eq_filter hstrict ha, List.mem_filter, decide_eq_true_iff] at hx
        exact hx.2.trans_lt (hnext y hy)
      · intro x hx
        rcases List.mem_append.mp hx with hx | hx
        · exact (mem_after.mp (List.mem_of_mem_take hx)).2
        · exact fun b hb => (beyond_last ha b hb).trans (hnext x hx)

/-- Every row that is there throughout is returned exactly once. -/
theorem Walk.countP_eq_one (walk : Walk key rowsOf resume limit none ss l ts)
    (hkeyed : ∀ s ∈ ss, Keyed key rowsOf s) (hresume : ∀ t ∈ ts, resume t.1 t.2 = some (key t.1))
    (hholds : ∀ s ∈ ss, Holds key rowsOf is k s) : l.countP is = 1 := by
  have hskip : ∀ t ∈ ts, key t.1 < k → Beyond (resume t.1 t.2) k := by
    intro t ht hk
    rw [hresume t ht]
    exact beyond_some.mpr hk
  have hiff := (walk.countP hkeyed hholds hskip).2
  rw [if_pos (beyond_none k)] at hiff
  apply hiff.mpr
  intro t ht hbeyond
  rw [hresume t ht] at hbeyond
  exact beyond_some.mp hbeyond

/-- A row is the only one under its key. -/
theorem filter_key {rows : List α} (h : (rows.map key).Nodup) (hx : x ∈ rows) :
    (rows.filter fun y => decide (key y = key x)) = [x] := by
  induction rows with
  | nil => cases hx
  | cons y rows ih =>
      obtain ⟨hfresh, hrest⟩ := List.nodup_cons.mp h
      rcases List.mem_cons.mp hx with rfl | hx
      · have hnone : (rows.filter fun y => decide (key y = key x)) = [] := by
          apply List.filter_eq_nil_iff.mpr
          intro y hy
          rw [decide_eq_true_iff]
          intro hkey
          exact hfresh (List.mem_map.mpr ⟨y, hy, hkey⟩)
        rw [List.filter_cons_of_pos (by simp), hnone]
      · have hne : key y ≠ key x := by
          intro hkey
          exact hfresh (List.mem_map.mpr ⟨x, hx, hkey.symm⟩)
        rw [List.filter_cons_of_neg (by simpa using hne)]
        exact ih hrest hx

/-- Over one table a walk returns the rows after its start. -/
theorem Walk.perm_after (walk : Walk key rowsOf resume limit c ss l ts)
    (hkeyed : Keyed key rowsOf s) (hconst : ∀ t ∈ ss, t = s)
    (hresume : ∀ t ∈ ts, resume t.1 t.2 = some (key t.1)) : l.Perm (after key c (rowsOf s)) := by
  have hall : ∀ t ∈ ss, Keyed key rowsOf t := by
    intro t ht
    rw [hconst t ht]
    exact hkeyed
  obtain ⟨hpairwise, hafter⟩ := walk.pairwise hall hresume
  have hl : l.Nodup := hpairwise.imp fun hlt heq => (heq ▸ hlt).false
  have hrows : (after key c (rowsOf s)).Nodup :=
    (pairwise_after hkeyed).imp fun hlt heq => (heq ▸ hlt).false
  apply (List.perm_ext_iff_of_nodup hl hrows).mpr
  intro x
  constructor
  · intro hx
    obtain ⟨t, ht, hxt⟩ := walk.mem_rows hx
    rw [hconst t ht] at hxt
    exact mem_after.mpr ⟨hxt, hafter x hx⟩
  · intro hx
    obtain ⟨hmem, hbeyond⟩ := mem_after.mp hx
    have hholds : ∀ t ∈ ss, Holds key rowsOf (fun y => decide (key y = key x)) (key x) t := by
      intro t ht
      rw [hconst t ht]
      exact ⟨x, filter_key hkeyed hmem, rfl⟩
    have hskip : ∀ t ∈ ts, key t.1 < key x → Beyond (resume t.1 t.2) (key x) := by
      intro t ht hk
      rw [hresume t ht]
      exact beyond_some.mpr hk
    have hcount := (walk.countP hall hholds hskip).1
    rw [if_pos hbeyond] at hcount
    obtain ⟨y, hy, hkey⟩ := List.countP_pos_iff.mp hcount
    rw [decide_eq_true_iff] at hkey
    obtain ⟨t, ht, hyt⟩ := walk.mem_rows hy
    rw [hconst t ht] at hyt
    exact List.inj_on_of_nodup_map hkeyed hyt hmem hkey ▸ hy

/-- Fewer rows lie after a row than after where it was found. -/
theorem length_after_lt (hkeyed : Keyed key rowsOf s) (ha : a ∈ after key c (rowsOf s)) :
    (after key (some (key a)) (rowsOf s)).length < (after key c (rowsOf s)).length := by
  have hfresh : a ∉ after key (some (key a)) (rowsOf s) := by
    intro h
    exact lt_irrefl _ (beyond_some.mp (mem_after.mp h).2)
  have hnodup : (a :: after key (some (key a)) (rowsOf s)).Nodup := by
    apply List.nodup_cons.mpr
    exact ⟨hfresh, (pairwise_after hkeyed).imp fun hlt heq => (heq ▸ hlt).false⟩
  have hsubset : a :: after key (some (key a)) (rowsOf s) ⊆ after key c (rowsOf s) := by
    intro x hx
    rcases List.mem_cons.mp hx with rfl | hx
    · exact ha
    · obtain ⟨hmem, hlt⟩ := mem_after.mp hx
      exact mem_after.mpr ⟨hmem, fun b hb => ((mem_after.mp ha).2 b hb).trans (beyond_some.mp hlt)⟩
  exact (List.subperm_of_subset hnodup hsubset).length_le

/-- Over one table there is a walk from every start to the end. -/
theorem exists_walk (hlimit : 0 < limit) (hkeyed : Keyed key rowsOf s)
    (hresume : ∀ a, resume a s = some (key a)) (c : Option K) :
    ∃ n l ts, (∀ t ∈ ts, t.2 = s) ∧
      Walk key rowsOf resume limit c (List.replicate (n + 1) s) l ts := by
  induction hn : (after key c (rowsOf s)).length using Nat.strong_induction_on generalizing c with
  | _ n ih =>
      by_cases hend : n ≤ limit
      · refine ⟨0, _, [], by simp, .last ?_⟩
        rw [hn]
        exact hend
      · have hmore : limit < (after key c (rowsOf s)).length := by omega
        obtain ⟨a, ha⟩ : ∃ a, ((after key c (rowsOf s)).take limit).getLast? = some a := by
          apply Option.isSome_iff_exists.mp
          rw [List.getLast?_isSome]
          intro hnil
          have hlength := congrArg List.length hnil
          rw [List.length_take, List.length_nil] at hlength
          omega
        have hmem : a ∈ after key c (rowsOf s) :=
          List.mem_of_mem_take (List.mem_of_getLast? ha)
        have hshorter : (after key (resume a s) (rowsOf s)).length < n := by
          rw [hresume a, ← hn]
          exact length_after_lt hkeyed hmem
        obtain ⟨m, l, ts, hts, walk⟩ := ih _ hshorter (resume a s) rfl
        exact ⟨m + 1, _, (a, s) :: ts, List.forall_mem_cons.mpr ⟨rfl, hts⟩, .more hmore ha walk⟩

end Walks

end Paging
