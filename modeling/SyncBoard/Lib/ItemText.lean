import Mathlib.Data.List.Basic
import Mathlib.Data.List.Perm.Basic

/-!
# Texts made of items

A replicated text is a list of items, each under an id that its author gave
it. A delete names items, which stay behind as tombstones; an insert adds items
with new ids. A replica that receives an update marks the items that the update
deletes and places the items that it inserts. Where it places them is left to
an `Integration`, of which only this is known: no item is lost, and none is
made up.
-/

namespace ItemText

structure ItemId where
  client : Nat
  clock : Nat
  deriving DecidableEq, Repr

structure Item (α : Type*) where
  id : ItemId
  content : α
  deleted : Bool := false

/-- The items of a text in document order, tombstones included. -/
abbrev Text (α : Type*) := List (Item α)

/-- What one transaction did, as it is sent to the other replicas. -/
structure Update (α : Type*) where
  deletes : List ItemId
  inserts : List (Item α)

variable {α : Type*}

/-- The items that are not deleted. -/
def live (t : Text α) : List (Item α) :=
  t.filter fun item => !item.deleted

/-- The text that a reader sees. -/
def visible (t : Text α) : List α :=
  (live t).map (·.content)

/-- The ids that a deletion of `length` characters from `index` names. -/
def deleteRange (t : Text α) (index length : Nat) : List ItemId :=
  (((live t).drop index).take length).map (·.id)

def markDeleted (ids : List ItemId) (t : Text α) : Text α :=
  t.map fun item => if item.id ∈ ids then { item with deleted := true } else item

/-- Place items before the character at `index`. -/
def insertAt : Nat → List (Item α) → Text α → Text α
  | 0, new, t => new ++ t
  | _ + 1, new, [] => new
  | index + 1, new, item :: t =>
      item :: insertAt (if item.deleted then index + 1 else index) new t

/-- The first clock value that a client has not used in a text. -/
def nextClock (t : Text α) (client : Nat) : Nat :=
  t.foldr (fun item n => if item.id.client = client then max (item.id.clock + 1) n else n) 0

/-- Items for a run of characters, under consecutive clock values. -/
def newItems (client clock : Nat) : List α → List (Item α)
  | [] => []
  | content :: rest => { id := ⟨client, clock⟩, content } :: newItems client (clock + 1) rest

/-- A way to place the inserted items of an update among those of a text. -/
structure Integration (α : Type*) where
  integrate : Text α → List (Item α) → Text α
  perm : ∀ t new, (∀ x ∈ new, ∀ y ∈ t, x.id ≠ y.id) → (integrate t new).Perm (t ++ new)

/-- Receive an update. -/
def applyUpdate (yjs : Integration α) (t : Text α) (u : Update α) : Text α :=
  markDeleted u.deletes (yjs.integrate t u.inserts)

@[simp] theorem visible_nil : visible ([] : Text α) = [] := rfl

@[simp] theorem visible_append (t u : Text α) : visible (t ++ u) = visible t ++ visible u := by
  simp [visible, live]

theorem visible_perm {t u : Text α} (h : t.Perm u) : (visible t).Perm (visible u) :=
  (h.filter _).map _

theorem markDeleted_append (ids : List ItemId) (t u : Text α) :
    markDeleted ids (t ++ u) = markDeleted ids t ++ markDeleted ids u :=
  List.map_append

/-- A delete leaves alone what it does not name. -/
theorem markDeleted_of_unnamed {ids : List ItemId} {t : Text α}
    (h : ∀ item ∈ t, item.id ∉ ids) : markDeleted ids t = t := by
  induction t with
  | nil => rfl
  | cons item t ih =>
      have hrest := ih fun x hx => h x (List.mem_cons_of_mem _ hx)
      simp only [markDeleted, List.map_cons, h item List.mem_cons_self, if_false]
      exact congrArg _ hrest

/-- Nothing of a text is visible once every live item of it is deleted. -/
theorem visible_markDeleted_eq_nil {ids : List ItemId} {t : Text α}
    (h : ∀ item ∈ live t, item.id ∈ ids) : visible (markDeleted ids t) = [] := by
  have hdead : ∀ item ∈ markDeleted ids t, item.deleted = true := by
    intro item hitem
    obtain ⟨old, hold, rfl⟩ := List.mem_map.mp hitem
    split
    · rfl
    · rename_i hid
      by_contra hlive
      apply hid
      apply h old
      exact List.mem_filter.mpr ⟨hold, by simpa using hlive⟩
  rw [visible, live, List.map_eq_nil_iff, List.filter_eq_nil_iff]
  intro item hitem
  simp [hdead item hitem]

/-- Marking keeps the ids of a text. -/
theorem exists_of_mem_markDeleted {ids : List ItemId} {t : Text α} {item : Item α}
    (h : item ∈ markDeleted ids t) : ∃ old ∈ t, old.id = item.id := by
  obtain ⟨old, hold, rfl⟩ := List.mem_map.mp h
  refine ⟨old, hold, ?_⟩
  split <;> rfl

theorem markDeleted_idem (ids : List ItemId) (t : Text α) :
    markDeleted ids (markDeleted ids t) = markDeleted ids t := by
  simp only [markDeleted, List.map_map]
  apply List.map_congr_left
  intro item _
  by_cases h : item.id ∈ ids <;> simp [h]

theorem deleteRange_all (t : Text α) :
    deleteRange t 0 (visible t).length = (live t).map (·.id) := by
  simp [deleteRange, visible]

@[simp] theorem insertAt_zero (new : List (Item α)) (t : Text α) : insertAt 0 new t = new ++ t := by
  cases t <;> rfl

@[simp] theorem visible_newItems (client clock : Nat) (content : List α) :
    visible (newItems client clock content) = content := by
  induction content generalizing clock with
  | nil => rfl
  | cons c rest ih =>
      have hrest := ih (clock + 1)
      simp only [visible, live] at hrest ⊢
      simp [newItems, hrest]

theorem id_of_mem_newItems {client clock : Nat} {content : List α} {item : Item α}
    (h : item ∈ newItems client clock content) :
    item.id.client = client ∧ clock ≤ item.id.clock := by
  induction content generalizing clock with
  | nil => cases h
  | cons c rest ih =>
      rcases List.mem_cons.mp h with rfl | h
      · exact ⟨rfl, Nat.le_refl _⟩
      · obtain ⟨hc, hk⟩ := ih h
        exact ⟨hc, by omega⟩

theorem clock_lt_nextClock {t : Text α} {item : Item α} (h : item ∈ t) :
    item.id.clock < nextClock t item.id.client := by
  induction t with
  | nil => cases h
  | cons x t ih =>
      simp only [nextClock, List.foldr_cons]
      rcases List.mem_cons.mp h with rfl | h
      · rw [if_pos rfl]
        omega
      · have hlt := ih h
        simp only [nextClock] at hlt
        split
        · omega
        · exact hlt

/-- The ids that a client gives to new items are new. -/
theorem newItems_fresh {t : Text α} {client : Nat} {content : List α} {item old : Item α}
    (h : item ∈ newItems client (nextClock t client) content) (hold : old ∈ t) :
    item.id ≠ old.id := by
  intro heq
  obtain ⟨hc, hk⟩ := id_of_mem_newItems h
  have hlt := clock_lt_nextClock hold
  rw [← heq, hc] at hlt
  omega

/-- The ids of two clients never clash. -/
theorem newItems_ne {c d k l : Nat} (hcd : c ≠ d) {as bs : List α} {a b : Item α}
    (ha : a ∈ newItems c k as) (hb : b ∈ newItems d l bs) : a.id ≠ b.id := by
  intro heq
  apply hcd
  rw [← (id_of_mem_newItems ha).1, ← (id_of_mem_newItems hb).1, heq]

/-- An integration exists: put the new items at the end. -/
def Integration.atEnd : Integration α where
  integrate t new := t ++ new
  perm _ _ _ := .rfl

end ItemText
