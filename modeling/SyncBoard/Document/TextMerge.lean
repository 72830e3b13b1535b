import SyncBoard.Lib.ItemText
import Mathlib.Data.List.Count
import Mathlib.Data.List.Nodup
import Mathlib.Data.List.Range

/-!
# Concurrent edits of one text

`handleTextChange` and `insertMarkdown` write every change as the deletion of
the whole text followed by the insertion of the next one. Two such edits delete
the same base text and insert two copies of what they keep of it.

## Implementation notes

The handlers are generic in the character type. To follow a character through
an exchange they are run on glyphs, characters with a mark that says where they
come from: a position of the base text, or the keyboard of an editor.
`selectionStart` and `selectionEnd` are positions in the text.
-/

namespace SyncBoard.Document

open ItemText

variable {α : Type}

/-- The transaction `yText.delete(0, yText.length)`, `yText.insert(0, next)`. -/
def replaceText (t : Text α) (client : Nat) (next : List α) : Text α × Update α :=
  let deletes := deleteRange t 0 (visible t).length
  let inserts := newItems client (nextClock t client) next
  (insertAt 0 inserts (markDeleted deletes t), { deletes, inserts })

/-- `nextVal` is the value of the text area after the change. -/
def handleTextChange (t : Text α) (client : Nat) (nextVal : List α) : Text α × Update α :=
  replaceText t client nextVal

/-- `placeholder` is the literal that stands for an empty selection. -/
def insertMarkdown (t : Text α) (client : Nat) (placeholder : List α) (start stop : Nat)
    (pre suf : List α) : Text α × Update α :=
  let text := visible t
  let selected := (text.take stop).drop start
  let replacement := pre ++ (if selected.isEmpty then placeholder else selected) ++ suf
  replaceText t client (text.take start ++ replacement ++ text.drop stop)

/-- The deletes of a transaction name items of the base text only. -/
theorem exists_of_mem_deletes {t : Text α} {id : ItemId}
    (h : id ∈ deleteRange t 0 (visible t).length) : ∃ old ∈ t, old.id = id := by
  rw [deleteRange_all] at h
  obtain ⟨old, hold, rfl⟩ := List.mem_map.mp h
  exact ⟨old, List.mem_of_mem_filter hold, rfl⟩

/-- No transaction on the same base text deletes what another one inserts. -/
theorem newItems_not_deleted {t : Text α} {client : Nat} {next : List α} {item : Item α}
    (h : item ∈ newItems client (nextClock t client) next) :
    item.id ∉ deleteRange t 0 (visible t).length := by
  intro hid
  obtain ⟨old, hold, heq⟩ := exists_of_mem_deletes hid
  exact newItems_fresh h hold heq.symm

/-- After the exchange both replicas show the two next texts, item by item. -/
theorem visible_exchange (yjs : Integration α) (t : Text α) {c d : Nat} (hcd : c ≠ d)
    (next next' : List α) :
    (visible (applyUpdate yjs (replaceText t c next).1 (replaceText t d next').2)).Perm
      (next ++ next') := by
  let deletes := deleteRange t 0 (visible t).length
  let own := newItems c (nextClock t c) next
  let other := newItems d (nextClock t d) next'
  let replica := own ++ markDeleted deletes t
  have hnew : ∀ x ∈ other, ∀ y ∈ replica, x.id ≠ y.id := by
    intro x hx y hy
    rcases List.mem_append.mp hy with hy | hy
    · exact newItems_ne hcd.symm hx hy
    · obtain ⟨old, hold, heq⟩ := exists_of_mem_markDeleted hy
      exact heq ▸ newItems_fresh hx hold
  -- the base text is deleted by both, so the second deletion finds nothing new
  have hgone : visible (markDeleted deletes t) = [] := by
    apply visible_markDeleted_eq_nil
    intro item hitem
    rw [show deletes = (live t).map (·.id) from deleteRange_all t]
    exact List.mem_map_of_mem hitem
  have hown : markDeleted deletes own = own :=
    markDeleted_of_unnamed fun _ hx => newItems_not_deleted hx
  have hother : markDeleted deletes other = other :=
    markDeleted_of_unnamed fun _ hx => newItems_not_deleted hx
  have hmarked : markDeleted deletes (replica ++ other) =
      own ++ markDeleted deletes t ++ other := by
    simp only [replica, markDeleted_append, markDeleted_idem, hown, hother]
  have hperm : (markDeleted deletes (yjs.integrate replica other)).Perm
      (own ++ markDeleted deletes t ++ other) := hmarked ▸ (yjs.perm replica other hnew).map _
  have htexts : visible (own ++ markDeleted deletes t ++ other) = next ++ next' := by
    simp [hgone, own, other]
  have hmerged : applyUpdate yjs (replaceText t c next).1 (replaceText t d next').2 =
      markDeleted deletes (yjs.integrate replica other) := by
    simp only [applyUpdate, replaceText, insertAt_zero, replica, deletes, own, other]
  rw [hmerged, ← htexts]
  exact visible_perm hperm

/-- Where a character comes from. -/
inductive Origin
  | base (i : Nat)
  | typed (client : Nat)
  deriving DecidableEq, Repr

/-- A character and its origin. -/
abbrev Glyph := Char × Origin

/-- The base text, with its positions. -/
def baseGlyphs (text : List Char) : List Glyph :=
  text.mapIdx fun i c => (c, .base i)

def typedGlyphs (client : Nat) (chars : List Char) : List Glyph :=
  chars.map fun c => (c, .typed client)

/-- A piece of the text after an edit: a base character, or a new one. -/
inductive Piece
  | keep (i : Nat)
  | type (c : Char)

/-- The base positions among the pieces. -/
def keptOf (pieces : List Piece) : List Nat :=
  pieces.filterMap fun
    | .keep i => some i
    | .type _ => none

/-- The characters typed among the pieces. -/
def typedOf (pieces : List Piece) : List Char :=
  pieces.filterMap fun
    | .keep _ => none
    | .type c => some c

/-- The glyphs of the pieces over a base text. -/
def render (text : List Char) (client : Nat) (pieces : List Piece) : List Glyph :=
  pieces.filterMap fun
    | .keep i => text[i]?.map fun c => (c, .base i)
    | .type c => some (c, .typed client)

/-- An edit of a text of `n` characters: base characters stay in their order,
and new ones are typed between them. -/
structure TextEdit (n : Nat) where
  pieces : List Piece
  increasing : (keptOf pieces).Pairwise (· < ·)
  inBounds : ∀ i ∈ keptOf pieces, i < n

section Pieces
variable (ps qs : List Piece) (positions : List Nat) (chars : List Char)

@[simp] theorem keptOf_append : keptOf (ps ++ qs) = keptOf ps ++ keptOf qs :=
  List.filterMap_append

@[simp] theorem keptOf_keep : keptOf (positions.map .keep) = positions := by
  induction positions with
  | nil => rfl
  | cons i rest _ => simp [keptOf]

@[simp] theorem keptOf_type : keptOf (chars.map .type) = [] := by
  simp [keptOf]

theorem render_append (text : List Char) (client : Nat) :
    render text client (ps ++ qs) = render text client ps ++ render text client qs :=
  List.filterMap_append

theorem render_type (text : List Char) (client : Nat) :
    render text client (chars.map .type) = typedGlyphs client chars := by
  induction chars with
  | nil => rfl
  | cons c rest _ => simp [render, typedGlyphs]

/-- A run of kept positions shows the part of the base text between them. -/
theorem render_keep (text : List Char) (client start length : Nat) :
    render text client ((List.range' start length).map .keep) =
      ((baseGlyphs text).drop start).take length := by
  induction length generalizing start with
  | zero => simp [render]
  | succ length ih =>
      have hrest := ih (start + 1)
      by_cases hlt : start < text.length
      · have hlt' : start < (baseGlyphs text).length := by simpa [baseGlyphs] using hlt
        rw [List.drop_eq_getElem_cons hlt', List.take_succ_cons, ← hrest]
        simp [render, List.range'_succ, List.getElem?_eq_getElem hlt, baseGlyphs]
      · have hlen : (baseGlyphs text).length ≤ start := by simpa [baseGlyphs] using hlt
        rw [List.drop_eq_nil_of_le (by omega), List.take_nil] at hrest
        rw [List.drop_eq_nil_of_le hlen, List.take_nil, List.range'_succ, List.map_cons]
        simp only [render, List.filterMap_cons, List.getElem?_eq_none (not_lt.mp hlt),
          Option.map_none]
        exact hrest

end Pieces

/-- What `insertMarkdown` makes of a text of `n` characters: the selection stays,
or `text` is typed in its place, between the prefix and the suffix. -/
def markdownPieces (n start stop : Nat) (pre suf : List Char) : List Piece :=
  (List.range' 0 start).map .keep ++ pre.map .type ++
    (if start = stop then "text".toList.map .type
      else (List.range' start (stop - start)).map .keep) ++
    suf.map .type ++ (List.range' stop (n - stop)).map .keep

/-- `insertMarkdown` keeps the whole base text. -/
theorem keptOf_markdownPieces {n start stop : Nat} (h : start ≤ stop ∧ stop ≤ n)
    (pre suf : List Char) : keptOf (markdownPieces n start stop pre suf) = List.range' 0 n := by
  obtain ⟨selected, rfl⟩ := Nat.exists_eq_add_of_le h.1
  obtain ⟨rest, rfl⟩ := Nat.exists_eq_add_of_le h.2
  have hmid : keptOf (if start = start + selected then "text".toList.map .type
      else (List.range' start selected).map .keep) = List.range' start selected := by
    split
    · obtain rfl : selected = 0 := by omega
      exact keptOf_type _
    · exact keptOf_keep _
  have hfirst : List.range' 0 start ++ List.range' start selected =
      List.range' 0 (start + selected) := by
    simpa using List.range'_append_1 (s := 0) (m := start) (n := selected)
  have hall : List.range' 0 (start + selected) ++ List.range' (start + selected) rest =
      List.range' 0 (start + selected + rest) := by
    simpa using List.range'_append_1 (s := 0) (m := start + selected) (n := rest)
  simp only [markdownPieces, keptOf_append, keptOf_keep, keptOf_type, List.append_nil,
    Nat.add_sub_cancel_left]
  rw [hmid, hfirst, hall]

def markdownEdit {n : Nat} (start stop : Nat) (pre suf : List Char)
    (h : start ≤ stop ∧ stop ≤ n) : TextEdit n where
  pieces := markdownPieces n start stop pre suf
  increasing := by
    rw [keptOf_markdownPieces h]
    exact List.pairwise_lt_range'
  inBounds i hi := by
    rw [keptOf_markdownPieces h, List.mem_range'_1] at hi
    omega

/-- A call of one of the two handlers on a text of `n` characters. -/
inductive LocalEdit (n : Nat)
  | textChange (edit : TextEdit n)
  | markdown (start stop : Nat) (pre suf : List Char) (h : start ≤ stop ∧ stop ≤ n)

namespace LocalEdit

/-- What the user did. -/
def edit {n : Nat} : LocalEdit n → TextEdit n
  | .textChange e => e
  | .markdown start stop pre suf h => markdownEdit start stop pre suf h

/-- What the handler does. -/
def run {text : List Char} (t : Text Glyph) (client : Nat) :
    LocalEdit text.length → Text Glyph × Update Glyph
  | .textChange e => handleTextChange t client (render text client e.pieces)
  | .markdown start stop pre suf _ =>
      insertMarkdown t client (typedGlyphs client "text".toList) start stop
        (typedGlyphs client pre) (typedGlyphs client suf)

/-- Both handlers replace the whole text by the pieces of the edit. -/
theorem run_eq {text : List Char} {t : Text Glyph} (ht : visible t = baseGlyphs text)
    (client : Nat) (e : LocalEdit text.length) :
    e.run t client = replaceText t client (render text client e.edit.pieces) := by
  cases e with
  | textChange e => rfl
  | markdown start stop pre suf h =>
      have hlen : (baseGlyphs text).length = text.length := by simp [baseGlyphs]
      have hsel : ((baseGlyphs text).take stop).drop start =
          ((baseGlyphs text).drop start).take (stop - start) := List.drop_take
      have hempty : (((baseGlyphs text).drop start).take (stop - start)).isEmpty = true ↔
          start = stop := by
        rw [List.isEmpty_iff_length_eq_zero, List.length_take, List.length_drop]
        omega
      have hrest : ((baseGlyphs text).drop stop).take (text.length - stop) =
          (baseGlyphs text).drop stop := by
        apply List.take_of_length_le
        rw [List.length_drop]
        omega
      have hnext : render text client (markdownPieces text.length start stop pre suf) =
          (baseGlyphs text).take start ++ (typedGlyphs client pre ++
            (if start = stop then typedGlyphs client "text".toList
              else ((baseGlyphs text).drop start).take (stop - start)) ++
            typedGlyphs client suf) ++ (baseGlyphs text).drop stop := by
        simp only [markdownPieces, render_append, render_keep, render_type, List.drop_zero, hrest]
        split <;> simp only [render_keep, render_type, List.append_assoc]
      simp only [run, insertMarkdown, edit, markdownEdit, ht, hsel, hempty, hnext]

end LocalEdit

/-- A merged text shows each base character that both edits keep once, and the
characters that each of them typed. -/
structure NotDuplicated {n : Nat} (merged : List Glyph) (c d : Nat) (e e' : TextEdit n) :
    Prop where
  common : ∀ i ∈ keptOf e.pieces, i ∈ keptOf e'.pieces →
    (merged.map Prod.snd).count (.base i) = 1
  typed : ((merged.filter fun g => g.2 = .typed c).map Prod.fst).Perm (typedOf e.pieces)
  typed' : ((merged.filter fun g => g.2 = .typed d).map Prod.fst).Perm (typedOf e'.pieces)

/-- An edit shows the base characters that it keeps, each once. -/
theorem count_base_render (text : List Char) (client : Nat) (e : TextEdit text.length)
    (i : Nat) :
    ((render text client e.pieces).map Prod.snd).count (.base i) =
      if i ∈ keptOf e.pieces then 1 else 0 := by
  have hcount : ∀ ps : List Piece, (∀ j ∈ keptOf ps, j < text.length) →
      ((render text client ps).map Prod.snd).count (.base i) = (keptOf ps).count i := by
    intro ps hps
    induction ps with
    | nil => rfl
    | cons p ps ih =>
        cases p with
        | keep j =>
            have hj : j < text.length := hps j (by simp [keptOf])
            have hrest := ih fun k hk => hps k (by simp [keptOf] at hk ⊢; exact .inr hk)
            simp only [render, keptOf, List.filterMap_cons, List.getElem?_eq_getElem hj,
              Option.map_some, List.map_cons, List.count_cons] at hrest ⊢
            rw [hrest]
            simp
        | type ch =>
            have hrest := ih fun k hk => hps k (by simpa [keptOf] using hk)
            simp only [render, keptOf, List.filterMap_cons, List.map_cons, List.count_cons]
              at hrest ⊢
            rw [hrest]
            simp
  rw [hcount e.pieces e.inBounds]
  have hnodup : (keptOf e.pieces).Nodup := e.increasing.imp fun h => h.ne
  exact hnodup.count

/-- The characters that an edit types carry the mark of its editor. -/
theorem filter_typed_render (text : List Char) (client : Nat) (ps : List Piece) :
    ((render text client ps).filter fun g => g.2 = .typed client).map Prod.fst = typedOf ps := by
  induction ps with
  | nil => rfl
  | cons p ps ih =>
      simp only [render, typedOf] at ih ⊢
      cases p with
      | keep j => cases hj : text[j]? <;> simp [hj, ih]
      | type ch => simp [ih]

theorem filter_typed_render_of_ne (text : List Char) {client other : Nat} (h : client ≠ other)
    (ps : List Piece) : (render text client ps).filter (fun g => g.2 = .typed other) = [] := by
  induction ps with
  | nil => rfl
  | cons p ps ih =>
      simp only [render] at ih ⊢
      cases p with
      | keep j => cases hj : text[j]? <;> simp [hj, ih]
      | type ch => simp [h, ih]

/-- A merged text that consists of both next texts duplicates nothing exactly
when the two edits keep no common character. -/
theorem notDuplicated_of_perm (text : List Char) {c d : Nat} (hcd : c ≠ d)
    (e e' : TextEdit text.length) {merged : List Glyph}
    (h : merged.Perm (render text c e.pieces ++ render text d e'.pieces)) :
    NotDuplicated merged c d e e' ↔ ∀ i ∈ keptOf e.pieces, i ∉ keptOf e'.pieces := by
  have hcount : ∀ i ∈ keptOf e.pieces, i ∈ keptOf e'.pieces →
      (merged.map Prod.snd).count (.base i) = 2 := by
    intro i hi hi'
    rw [(h.map Prod.snd).count_eq, List.map_append, List.count_append, count_base_render,
      count_base_render, if_pos hi, if_pos hi']
  constructor
  · intro hnot i hi hi'
    have hone := hnot.common i hi hi'
    rw [hcount i hi hi'] at hone
    omega
  · intro hdisjoint
    have hfilter := fun x : Nat => h.filter fun g => decide (g.2 = .typed x)
    refine ⟨fun i hi hi' => absurd hi' (hdisjoint i hi), ?_, ?_⟩
    · have hc := (hfilter c).map Prod.fst
      rw [List.filter_append, filter_typed_render_of_ne text hcd.symm, List.append_nil,
        filter_typed_render] at hc
      exact hc
    · have hd := (hfilter d).map Prod.fst
      rw [List.filter_append, filter_typed_render_of_ne text hcd, List.nil_append,
        filter_typed_render] at hd
      exact hd

/-- The text that the first editor shows after the exchange. -/
def exchange {text : List Char} (yjs : Integration Glyph) (t : Text Glyph) (c d : Nat)
    (a b : LocalEdit text.length) : List Glyph :=
  visible (applyUpdate yjs (a.run t c).1 (b.run t d).2)

/-- After two concurrent edits of one base text are exchanged, each of the two
replicas shows no duplicate exactly when the edits keep no common character. -/
theorem notDuplicated_iff (yjs : Integration Glyph) (text : List Char) (t : Text Glyph)
    (ht : visible t = baseGlyphs text) {c d : Nat} (hcd : c ≠ d) (a b : LocalEdit text.length) :
    (NotDuplicated (exchange yjs t c d a b) c d a.edit b.edit ↔
      ∀ i ∈ keptOf a.edit.pieces, i ∉ keptOf b.edit.pieces) ∧
    (NotDuplicated (exchange yjs t d c b a) d c b.edit a.edit ↔
      ∀ i ∈ keptOf b.edit.pieces, i ∉ keptOf a.edit.pieces) := by
  have hshown : ∀ {x y : Nat} (_ : x ≠ y) (p q : LocalEdit text.length),
      (exchange yjs t x y p q).Perm
        (render text x p.edit.pieces ++ render text y q.edit.pieces) := by
    intro x y hxy p q
    rw [exchange, LocalEdit.run_eq ht, LocalEdit.run_eq ht]
    exact visible_exchange yjs t hxy _ _
  exact ⟨notDuplicated_of_perm text hcd a.edit b.edit (hshown hcd a b),
    notDuplicated_of_perm text hcd.symm b.edit a.edit (hshown hcd.symm b a)⟩

/-- The text `a`, as a third editor typed it. -/
def oneLetter : Text Glyph := newItems 0 0 (baseGlyphs ['a'])

/-- Keep the letter and type another one after it. -/
def appendLetter (c : Char) : LocalEdit ['a'].length :=
  .textChange ⟨[.keep 0, .type c], by simp [keptOf], by simp [keptOf]⟩

theorem notDuplicated_iff_appendLetter :
    (NotDuplicated (exchange .atEnd oneLetter 1 2 (appendLetter 'x') (appendLetter 'y')) 1 2
        (appendLetter 'x').edit (appendLetter 'y').edit ↔
      ∀ i ∈ keptOf (appendLetter 'x').edit.pieces, i ∉ keptOf (appendLetter 'y').edit.pieces) ∧
    (NotDuplicated (exchange .atEnd oneLetter 2 1 (appendLetter 'y') (appendLetter 'x')) 2 1
        (appendLetter 'y').edit (appendLetter 'x').edit ↔
      ∀ i ∈ keptOf (appendLetter 'y').edit.pieces, i ∉ keptOf (appendLetter 'x').edit.pieces) :=
  notDuplicated_iff .atEnd ['a'] oneLetter rfl (by decide) (appendLetter 'x') (appendLetter 'y')

/-- Two editors append a letter to `a`, and both then see the `a` twice. -/
theorem appendLetter_duplicated :
    ¬ ∀ (yjs : Integration Glyph) (text : List Char) (t : Text Glyph),
      visible t = baseGlyphs text → ∀ c d : Nat, c ≠ d → ∀ a b : LocalEdit text.length,
        keptOf a.edit.pieces ≠ [] → keptOf b.edit.pieces ≠ [] →
          NotDuplicated (exchange yjs t c d a b) c d a.edit b.edit := by
  intro hall
  have hnot := hall .atEnd ['a'] oneLetter rfl 1 2 (by decide) (appendLetter 'x')
    (appendLetter 'y') (by decide) (by decide)
  have hone := hnot.common 0 (by decide) (by decide)
  have htwo : ((exchange .atEnd oneLetter 1 2 (appendLetter 'x') (appendLetter 'y')).map
      Prod.snd).count (.base 0) = 2 := by decide
  omega

end SyncBoard.Document
