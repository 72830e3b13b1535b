import SyncBoard.Board.SubcardDepth

/-!
# Permanent deletes

`deletePermanently` sets `deletedAt`, and nothing clears it again. The finders of
active rows leave such a row out; the finder of `unarchive` does not look at
`deletedAt`, and `create`, `addAssignee` and `addLabel` of `CardService` do not look
at the board at all. The theorem says that these are the only ways to a card, list or
board that is deleted.

## Implementation notes

A call is on the cards, lists and boards whose ids it is given as those of a card, a
list or a board of its path or payload. The two calls of `LabelService` are part of
the runs and are not on the card they attach a label to.
-/

namespace SyncBoard.Board

open Relational Fallible Labelled

/-- A card, a list or a board. -/
inductive Entity
  | card (id : Uuid)
  | list (id : Uuid)
  | board (id : Uuid)
  deriving DecidableEq, Repr

/-- The cards that a call of `CardService` is on. -/
def Call.cardIds : Call → List Uuid
  | .create _ _ _ dto _ => dto.parentCardId.toList
  | .createSubcard _ _ parentId _ _ => [parentId]
  | .attachSubcard _ _ parentId subcardId _ => [parentId.id, subcardId]
  | .update _ _ c _ _ | .updatePriority _ _ c _ _ | .updateStatus _ _ c _ _
  | .detachSubcard _ _ c _ | .move _ _ c _ _ | .archive _ _ c _ | .unarchive _ _ c _
  | .deletePermanently _ _ c _ | .addAssignee _ _ c _ _ | .removeAssignee _ _ c _ _
  | .addLabel _ _ c _ | .removeLabel _ _ c _ => [c]
  | .createLabel _ _ _ | .createWorkspaceLabel _ _ => []

/-- The lists that a call of `CardService` is on. -/
def Call.listIds : Call → List Uuid
  | .create _ _ listId _ _ => [listId]
  | .move _ _ _ dto _ => [dto.targetListId]
  | _ => []

/-- The list that a call of `ListService` is on. -/
def ListCall.listIds : ListCall → List Uuid
  | .create _ _ _ _ => []
  | .update _ _ l _ _ | .move _ _ l _ _ | .archive _ _ l _ | .unarchive _ _ l _
  | .deletePermanently _ _ l _ => [l]

def ListCall.boardId : ListCall → Uuid
  | .create b _ _ _ | .update b _ _ _ _ | .move b _ _ _ _ | .archive b _ _ _
  | .unarchive b _ _ _ | .deletePermanently b _ _ _ => b

/-- The board that a call of `BoardService` is on. -/
def BoardCall.boardIds : BoardCall → List Uuid
  | .create _ _ _ => []
  | .update b _ _ _ | .archive b _ _ | .unarchive b _ _ | .deletePermanently b _ _
  | .starBoard _ b _ | .unstarBoard _ b _ => [b]

/-- The operation is on the card, list or board. -/
def Operation.On : Entity → Operation → Prop
  | .card c, .card call => c ∈ call.cardIds
  | .list l, .card call => l ∈ call.listIds
  | .list l, .list call => l ∈ call.listIds
  | .board b, .card call => b ∈ call.scope.1
  | .board b, .list call => b = call.boardId
  | .board b, .board call => b ∈ call.boardIds
  | _, _ => False

/-- The operation deletes the card, list or board permanently. -/
def Operation.Deletes : Entity → Operation → Prop
  | .card c, .card (.deletePermanently _ _ c' _) => c' = c
  | .list l, .list (.deletePermanently _ _ l' _) => l' = l
  | .board b, .board (.deletePermanently b' _ _) => b' = b
  | _, _ => False

/-- The cards that an event carries. -/
def CardEvent.cardIds : CardEvent → List Uuid
  | .created card _ _ _ | .updated card _ _ | .unarchived card _ _ _ => [card.id]
  | .moved c _ _ _ _ _ | .archived c _ _ _ | .deleted c _ _ _ | .assigneeAdded c _ _ _
  | .assigneeRemoved c _ _ _ | .priorityChanged c _ _ _ _ | .statusChanged c _ _ _ _ _ => [c]
  | .subcardCreated parentId childId _ _ => [parentId, childId]

def ListEvent.listId : ListEvent → Uuid
  | .created list _ | .updated list _ | .unarchived list _ => list.id
  | .archived l _ _ | .moved l _ _ _ | .deleted l _ _ => l

def BoardEvent.boardId : BoardEvent → Uuid
  | .created board _ | .updated board _ | .unarchived board _ => board.id
  | .archived b _ _ | .deleted b _ _ => b

namespace Entity

/-- The row is there and deleted. -/
def Deleted (db : Database) : Entity → Prop
  | card c => ∃ row, db.cards.get? c = some row ∧ row.deletedAt.isSome = true
  | list l => ∃ row, db.lists.get? l = some row ∧ row.deletedAt.isSome = true
  | board b => ∃ row, db.boards.get? b = some row ∧ row.deletedAt.isSome = true

/-- The row is the same in both databases. -/
def SameRow (db db' : Database) : Entity → Prop
  | card c => db'.cards.get? c = db.cards.get? c
  | list l => db'.lists.get? l = db.lists.get? l
  | board b => db'.boards.get? b = db.boards.get? b

/-- The same events carry it in both states. -/
def SameEvents (w w' : World) : Entity → Prop
  | card c => w'.events.filter (c ∈ ·.cardIds) = w.events.filter (c ∈ ·.cardIds)
  | list l => w'.listEvents.filter (l = ·.listId) = w.listEvents.filter (l = ·.listId)
  | board b => w'.boardEvents.filter (b = ·.boardId) = w.boardEvents.filter (b = ·.boardId)

end Entity

/-- An operation on the card, list or board fails, and no operation changes its row or
emits an event that carries it. -/
structure LeavesAlone (ranking : Ranking) (e : Entity) (w : World) (r : Request) : Prop where
  fails : r.operation.On e → ∀ w', ¬ Returns (r.operation.run (r.env ranking)) w () w'
  row : ∀ w', step ranking w r = some w' → e.SameRow w.db w'.db
  events : ∀ w', step ranking w r = some w' → e.SameEvents w w'

/-- The operations that reach what is deleted: an `unarchive` of it that passes its
checks, and, for a board, a call that passes its checks and does not look at it. -/
def Operation.Reaches (env : Env) (db : Database) : Entity → Operation → Prop
  | .card c, .card (.unarchive boardId workspaceId cardId _) =>
      cardId = c ∧ OnAnyCard db boardId workspaceId cardId
  | .list l, .list (.unarchive boardId workspaceId listId _) =>
      listId = l ∧ OnAnyList db boardId workspaceId listId
  | .board b, .board (.unarchive boardId workspaceId _) => boardId = b ∧
      (BoardRepository.findByIdIncludingArchived db boardId (some workspaceId)).isSome = true
  | .board b, .card (.create boardId workspaceId listId dto userId) =>
      boardId = b ∧ CreateAccepted env db boardId workspaceId listId dto userId
  | .board b, .card (.addAssignee boardId workspaceId cardId assigneeUserId _) => boardId = b ∧
      (CardRepository.findActiveById db cardId (some boardId)).isSome = true ∧
        WorkspaceService.isUserMember db workspaceId assigneeUserId = true
  | .board b, .card (.addLabel boardId workspaceId cardId labelId) => boardId = b ∧
      (CardRepository.findActiveById db cardId (some boardId)).isSome = true ∧
        CardService.labelAvailable db workspaceId labelId = true
  | _, _ => False

/-- Events that do not carry it make no difference. -/
theorem filter_append_of_none {ε : Type} {p : ε → Bool} {before events : List ε}
    (h : ∀ event ∈ events, ¬ p event = true) :
    (before ++ events).filter p = before.filter p := by
  rw [List.filter_append, List.filter_eq_nil_iff.mpr h, List.append_nil]

/-- An event that does not carry it makes no difference. -/
theorem filter_concat_of_not {ε : Type} {p : ε → Bool} {before : List ε} {event : ε}
    (h : ¬ p event = true) : (before ++ [event]).filter p = before.filter p := by
  apply filter_append_of_none
  intro event' hevent
  exact List.mem_singleton.mp hevent ▸ h

/-- A row that is there is not the one written, which is new or one that the call is on. -/
theorem ne_of_written {ρ : Type} {t : Table Uuid ρ} {id written : Uuid} {row : ρ}
    {old : Option ρ} {ids : List Uuid} (hrow : t.get? id = some row)
    (hold : t.get? written = old) (hwritten : written ∈ ids ∨ old = none) (hoff : id ∉ ids) :
    id ≠ written := by
  rintro rfl
  rcases hwritten with hid | rfl
  · exact hoff hid
  · cases hold.symm.trans hrow

section Finders
variable {db : Database} {c l b boardId workspaceId : Uuid}

theorem not_findActiveCard (h : (Entity.card c).Deleted db) :
    (CardRepository.findActiveById db c (some boardId)).isSome ≠ true := by
  intro hfound
  obtain ⟨card, hcard⟩ := Option.isSome_iff_exists.mp hfound
  obtain ⟨row, hrow, hdeleted⟩ := h
  obtain rfl := Option.some.inj
    ((CardRepository.findActiveById_eq_some hcard).1.symm.trans hrow)
  rw [(CardRepository.findActiveById_active hcard).2] at hdeleted
  cases hdeleted

theorem not_findActiveList (h : (Entity.list l).Deleted db) :
    (ListRepository.findActiveById db l (some boardId)).isSome ≠ true := by
  intro hfound
  obtain ⟨list, hlist⟩ := Option.isSome_iff_exists.mp hfound
  obtain ⟨row, hrow, hdeleted⟩ := h
  obtain rfl := Option.some.inj
    ((ListRepository.findActiveById_eq_some hlist).1.symm.trans hrow)
  rw [(ListRepository.findActiveById_active hlist).2] at hdeleted
  cases hdeleted

theorem not_findBoard (h : (Entity.board b).Deleted db) :
    (BoardRepository.findById db b (some workspaceId)).isSome ≠ true := by
  intro hfound
  obtain ⟨board, hboard⟩ := Option.isSome_iff_exists.mp hfound
  obtain ⟨hget, -, hopen⟩ := BoardRepository.findById_active hboard
  obtain ⟨row, hrow, hdeleted⟩ := h
  obtain rfl := Option.some.inj (hget.symm.trans hrow)
  rw [hopen] at hdeleted
  cases hdeleted

theorem not_freeCard (h : (Entity.card c).Deleted db) : ¬ FreeCard db boardId c := by
  rintro ⟨card, hcard, -⟩
  exact not_findActiveCard h (by rw [hcard]; rfl)

end Finders

section Cards
variable {env : Env} {w w' : World} {call : Call} {c : Uuid}

/-- The card written is one that the call is on, or a new one; the event carries no
other card than these. -/
theorem CardWrite.about {db : Database} {cardId : Uuid} {old : Option CardRow} {new : CardRow}
    {event : CardEvent} (h : CardWrite env db call cardId old new event) :
    (cardId ∈ call.cardIds ∨ old = none) ∧
      ∀ x ∈ event.cardIds, x ∈ call.cardIds ∨ x = cardId := by
  cases h <;> simp [Call.cardIds, CardEvent.cardIds]

theorem KeptCards.about {db : Database} {events : List CardEvent} (h : KeptCards db call events) :
    ∀ event ∈ events, ∀ x ∈ event.cardIds, x ∈ call.cardIds := by
  cases h <;> simp [Call.cardIds, CardEvent.cardIds]

/-- A card that is written stays deleted. -/
theorem CardWrite.deleted {db : Database} {cardId : Uuid} {old new : CardRow} {event : CardEvent}
    (h : CardWrite env db call cardId (some old) new event)
    (hold : old.deletedAt.isSome = true) : new.deletedAt.isSome = true := by
  cases h with
  | deletePermanently hnew =>
      rw [hnew]
      rfl
  | update hnew | updatePriority hnew | updateStatus hnew | attachSubcard hnew
  | detachSubcard hnew | move _ hnew | archive hnew | unarchive hnew =>
      rw [hnew]
      exact hold

/-- A call on a deleted card that returns is an `unarchive` of it. -/
theorem reaches_of_onCard (hdeleted : (Entity.card c).Deleted w.db)
    (hon : (Operation.card call).On (.card c)) (hreturns : Returns (call.run env) w () w') :
    (Operation.card call).Reaches env w.db (.card c) := by
  obtain ⟨-, heffect⟩ := callEffect hreturns
  cases heffect with
  | kept hkept =>
      cases hkept with
      | updatePriority h | updateStatus h | removeAssignee h | removeLabel h =>
          obtain rfl := List.mem_singleton.mp hon
          exact absurd h.card (not_findActiveCard hdeleted)
      | addAssignee h | addLabel h =>
          obtain rfl := List.mem_singleton.mp hon
          exact absurd h (not_findActiveCard hdeleted)
      | createLabel | createWorkspaceLabel => cases hon
  | wrote hwrite hold =>
      cases hwrite with
      | create _ haccepted =>
          obtain ⟨parent, hparent, hfree⟩ := haccepted.parent c (Option.mem_toList.mp hon)
          exact absurd ⟨parent, hparent, hfree⟩ (not_freeCard hdeleted)
      | createSubcard _ haccepted =>
          obtain rfl := List.mem_singleton.mp hon
          obtain ⟨parent, hparent, hfree, -⟩ := haccepted.parent
          exact absurd ⟨parent, hparent, hfree⟩ (not_freeCard hdeleted)
      | attachSubcard _ haccepted =>
          rcases List.mem_pair.mp hon with rfl | rfl
          · exact absurd haccepted.parent (not_freeCard hdeleted)
          · exact absurd haccepted.child (not_freeCard hdeleted)
      | unarchive _ hany =>
          obtain rfl := List.mem_singleton.mp hon
          exact ⟨rfl, hany⟩
      | deletePermanently _ _ hopen =>
          obtain rfl := List.mem_singleton.mp hon
          obtain ⟨row, hrow, hsome⟩ := hdeleted
          obtain rfl := Option.some.inj (hold.symm.trans hrow)
          rw [hopen] at hsome
          cases hsome
      | update _ h | updatePriority _ h | updateStatus _ h | detachSubcard _ h | move _ _ h
      | archive _ h =>
          obtain rfl := List.mem_singleton.mp hon
          exact absurd h.card (not_findActiveCard hdeleted)

/-- Every other call leaves the card and its events alone. -/
theorem frame_of_notOnCard (hdeleted : (Entity.card c).Deleted w.db)
    (hoff : ¬ (Operation.card call).On (.card c)) (hreturns : Returns (call.run env) w () w') :
    (Entity.card c).SameRow w.db w'.db ∧ (Entity.card c).SameEvents w w' := by
  obtain ⟨-, heffect⟩ := callEffect hreturns
  cases heffect with
  | kept hkept hcards hevents =>
      refine ⟨by rw [Entity.SameRow, hcards], ?_⟩
      rw [Entity.SameEvents, hevents]
      apply filter_append_of_none
      intro event hevent
      simpa using fun hc => hoff (hkept.about event hevent c hc)
  | @wrote cardId old new event hwrite hold hcards hevents =>
      obtain ⟨hid, hcarried⟩ := hwrite.about
      obtain ⟨row, hrow, -⟩ := hdeleted
      have hne : c ≠ cardId := ne_of_written hrow hold hid hoff
      refine ⟨hcards.other hne, ?_⟩
      rw [Entity.SameEvents, hevents]
      apply filter_concat_of_not
      simpa using fun hc => (hcarried c hc).elim hoff hne

/-- A deleted card stays deleted. -/
theorem Entity.Deleted.card (hdeleted : (Entity.card c).Deleted w.db)
    (hreturns : Returns (call.run env) w () w') : (Entity.card c).Deleted w'.db := by
  obtain ⟨-, heffect⟩ := callEffect hreturns
  cases heffect with
  | kept _ hcards => rwa [Entity.Deleted, hcards]
  | wrote hwrite hold hcards =>
      refine hcards.keeps (fun row hrow hsome => ?_) hdeleted
      obtain rfl := hold.symm.trans hrow
      exact hwrite.deleted hsome

end Cards

section Lists
variable {env : Env} {w w' : World} {call : ListCall} {l : Uuid}

theorem ListWrite.about {db : Database} {listId : Uuid} {old : Option ListRow} {new : ListRow}
    {event : ListEvent} (h : ListWrite env db call listId old new event) :
    (listId ∈ call.listIds ∨ old = none) ∧ event.listId = listId := by
  cases h <;> simp [ListCall.listIds, ListEvent.listId]

theorem ListWrite.deleted {db : Database} {listId : Uuid} {old new : ListRow} {event : ListEvent}
    (h : ListWrite env db call listId (some old) new event)
    (hold : old.deletedAt.isSome = true) : new.deletedAt.isSome = true := by
  cases h with
  | deletePermanently hnew =>
      rw [hnew]
      rfl
  | update hnew | move _ hnew | archive hnew | unarchive hnew =>
      rw [hnew]
      exact hold

/-- A call on a deleted list that returns is an `unarchive` of it. -/
theorem reaches_of_onList (hdeleted : (Entity.list l).Deleted w.db)
    (hon : (Operation.list call).On (.list l)) (hreturns : Returns (call.run env) w () w') :
    (Operation.list call).Reaches env w.db (.list l) := by
  obtain ⟨listId, old, new, event, hwrite, hold, -⟩ := (listEffect hreturns).wrote
  cases hwrite with
  | create => cases hon
  | unarchive _ hany =>
      obtain rfl := List.mem_singleton.mp hon
      exact ⟨rfl, hany⟩
  | deletePermanently _ _ hopen =>
      obtain rfl := List.mem_singleton.mp hon
      obtain ⟨row, hrow, hsome⟩ := hdeleted
      obtain rfl := Option.some.inj (hold.symm.trans hrow)
      rw [hopen] at hsome
      cases hsome
  | update _ h | move _ _ h | archive _ h =>
      obtain rfl := List.mem_singleton.mp hon
      exact absurd h.list (not_findActiveList hdeleted)

/-- Every other call leaves the list and its events alone. -/
theorem frame_of_notOnList (hdeleted : (Entity.list l).Deleted w.db)
    (hoff : ¬ (Operation.list call).On (.list l)) (hreturns : Returns (call.run env) w () w') :
    (Entity.list l).SameRow w.db w'.db ∧ (Entity.list l).SameEvents w w' := by
  obtain ⟨listId, old, new, event, hwrite, hold, hlists, hevents⟩ := (listEffect hreturns).wrote
  obtain ⟨hid, hcarried⟩ := hwrite.about
  obtain ⟨row, hrow, -⟩ := hdeleted
  have hne : l ≠ listId := ne_of_written hrow hold hid hoff
  refine ⟨hlists.other hne, ?_⟩
  rw [Entity.SameEvents, hevents]
  apply filter_concat_of_not
  simpa [hcarried] using hne

/-- A deleted list stays deleted. -/
theorem Entity.Deleted.list (hdeleted : (Entity.list l).Deleted w.db)
    (hreturns : Returns (call.run env) w () w') : (Entity.list l).Deleted w'.db := by
  obtain ⟨listId, old, new, event, hwrite, hold, hlists, -⟩ := (listEffect hreturns).wrote
  refine hlists.keeps (fun row hrow hsome => ?_) hdeleted
  obtain rfl := hold.symm.trans hrow
  exact hwrite.deleted hsome

end Lists

section Boards
variable {env : Env} {w w' : World} {call : BoardCall} {b : Uuid}

theorem BoardWrite.about {db : Database} {boardId : Uuid} {old : Option BoardRow} {new : BoardRow}
    {event : BoardEvent} (h : BoardWrite env db call boardId old new event) :
    (boardId ∈ call.boardIds ∨ old = none) ∧ event.boardId = boardId := by
  cases h <;> simp [BoardCall.boardIds, BoardEvent.boardId]

theorem BoardWrite.deleted {db : Database} {boardId : Uuid} {old new : BoardRow}
    {event : BoardEvent} (h : BoardWrite env db call boardId (some old) new event)
    (hold : old.deletedAt.isSome = true) : new.deletedAt.isSome = true := by
  cases h with
  | deletePermanently hnew =>
      rw [hnew]
      rfl
  | update hnew | archive hnew | unarchive hnew =>
      rw [hnew]
      exact hold

/-- A call on a deleted board that returns is an `unarchive` of it. -/
theorem reaches_of_onBoard (hdeleted : (Entity.board b).Deleted w.db)
    (hon : (Operation.board call).On (.board b)) (hreturns : Returns (call.run env) w () w') :
    (Operation.board call).Reaches env w.db (.board b) := by
  rcases (boardEffect hreturns).wrote with ⟨hkept, -⟩ | ⟨boardId, old, new, event, hwrite, hold, -⟩
  · cases call with
    | starBoard | unstarBoard =>
        obtain rfl := List.mem_singleton.mp hon
        exact absurd hkept (not_findBoard hdeleted)
    | _ => cases hkept
  · cases hwrite with
    | create => cases hon
    | unarchive _ hany =>
        obtain rfl := List.mem_singleton.mp hon
        exact ⟨rfl, hany⟩
    | deletePermanently _ _ hopen =>
        obtain rfl := List.mem_singleton.mp hon
        obtain ⟨row, hrow, hsome⟩ := hdeleted
        obtain rfl := Option.some.inj (hold.symm.trans hrow)
        rw [hopen] at hsome
        cases hsome
    | update _ h | archive _ h =>
        obtain rfl := List.mem_singleton.mp hon
        exact absurd h (not_findBoard hdeleted)

/-- Every other call leaves the board and its events alone. -/
theorem frame_of_notOnBoard (hdeleted : (Entity.board b).Deleted w.db)
    (hoff : ¬ (Operation.board call).On (.board b)) (hreturns : Returns (call.run env) w () w') :
    (Entity.board b).SameRow w.db w'.db ∧ (Entity.board b).SameEvents w w' := by
  rcases (boardEffect hreturns).wrote with ⟨-, hboards, hevents⟩ |
    ⟨boardId, old, new, event, hwrite, hold, hboards, hevents⟩
  · exact ⟨by rw [Entity.SameRow, hboards], by rw [Entity.SameEvents, hevents]⟩
  · obtain ⟨hid, hcarried⟩ := hwrite.about
    obtain ⟨row, hrow, -⟩ := hdeleted
    have hne : b ≠ boardId := ne_of_written hrow hold hid hoff
    refine ⟨hboards.other hne, ?_⟩
    rw [Entity.SameEvents, hevents]
    apply filter_concat_of_not
    simpa [hcarried] using hne

/-- A deleted board stays deleted. -/
theorem Entity.Deleted.board (hdeleted : (Entity.board b).Deleted w.db)
    (hreturns : Returns (call.run env) w () w') : (Entity.board b).Deleted w'.db := by
  rcases (boardEffect hreturns).wrote with ⟨-, hboards, -⟩ |
    ⟨boardId, old, new, event, hwrite, hold, hboards, -⟩
  · rwa [Entity.Deleted, hboards]
  · refine hboards.keeps (fun row hrow hsome => ?_) hdeleted
    obtain rfl := hold.symm.trans hrow
    exact hwrite.deleted hsome

end Boards

section Across
variable {env : Env} {w w' : World} {l b : Uuid}

/-- `create` and `move` go to active lists only. -/
theorem not_onList_card {call : Call} (hdeleted : (Entity.list l).Deleted w.db)
    (hreturns : Returns (call.run env) w () w') : ¬ (Operation.card call).On (.list l) := by
  intro hon
  obtain ⟨-, heffect⟩ := callEffect hreturns
  cases heffect with
  | kept hkept => cases hkept <;> cases hon
  | wrote hwrite =>
      cases hwrite with
      | create _ haccepted =>
          obtain rfl := List.mem_singleton.mp hon
          exact not_findActiveList hdeleted haccepted.list
      | move _ _ _ htarget =>
          obtain rfl := List.mem_singleton.mp hon
          exact not_findActiveList hdeleted htarget
      | _ => cases hon

/-- A call of `CardService` on a deleted board that returns is one that does not look
at the board. -/
theorem reaches_of_onBoard_card {call : Call} (hdeleted : (Entity.board b).Deleted w.db)
    (hon : (Operation.card call).On (.board b)) (hreturns : Returns (call.run env) w () w') :
    (Operation.card call).Reaches env w.db (.board b) := by
  obtain ⟨-, heffect⟩ := callEffect hreturns
  cases heffect with
  | kept hkept =>
      cases hkept with
      | addAssignee hcard hmember =>
          obtain rfl := Option.some.inj hon
          exact ⟨rfl, hcard, hmember⟩
      | addLabel hcard hlabel =>
          obtain rfl := Option.some.inj hon
          exact ⟨rfl, hcard, hlabel⟩
      | updatePriority h | updateStatus h | removeAssignee h | removeLabel h =>
          obtain rfl := Option.some.inj hon
          exact absurd h.board (not_findBoard hdeleted)
      | createLabel h =>
          obtain rfl := Option.some.inj hon
          exact absurd h (not_findBoard hdeleted)
      | createWorkspaceLabel => cases hon
  | wrote hwrite =>
      cases hwrite with
      | create _ haccepted =>
          obtain rfl := Option.some.inj hon
          exact ⟨rfl, haccepted⟩
      | createSubcard _ h | attachSubcard _ h | update _ h | updatePriority _ h
      | updateStatus _ h | detachSubcard _ h | move _ _ h | archive _ h | unarchive _ h
      | deletePermanently _ h =>
          obtain rfl := Option.some.inj hon
          exact absurd h.board (not_findBoard hdeleted)

/-- Every call of `ListService` looks for the active board. -/
theorem not_onBoard_list {call : ListCall} (hdeleted : (Entity.board b).Deleted w.db)
    (hreturns : Returns (call.run env) w () w') : ¬ (Operation.list call).On (.board b) := by
  intro hon
  obtain ⟨listId, old, new, event, hwrite, -⟩ := (listEffect hreturns).wrote
  cases hwrite with
  | create _ _ h =>
      obtain rfl : b = _ := hon
      exact not_findBoard hdeleted h
  | update _ h | move _ _ h | archive _ h | unarchive _ h | deletePermanently _ h =>
      obtain rfl : b = _ := hon
      exact not_findBoard hdeleted h.board

end Across

section Requests
variable {env : Env} {w w' : World} {op : Operation} {e : Entity}

/-- An operation on what is deleted that returns is one of those that reach it. -/
theorem reaches_of_on (hdeleted : e.Deleted w.db) (hon : op.On e)
    (hreturns : Returns (op.run env) w () w') : op.Reaches env w.db e := by
  cases e with
  | card c =>
      cases op with
      | card call => exact reaches_of_onCard hdeleted hon hreturns
      | list | board => cases hon
  | list l =>
      cases op with
      | card call => exact absurd hon (not_onList_card hdeleted hreturns)
      | list call => exact reaches_of_onList hdeleted hon hreturns
      | board => cases hon
  | board b =>
      cases op with
      | card call => exact reaches_of_onBoard_card hdeleted hon hreturns
      | list call => exact absurd hon (not_onBoard_list hdeleted hreturns)
      | board call => exact reaches_of_onBoard hdeleted hon hreturns

/-- An operation that is not on what is deleted leaves it alone. -/
theorem frame_of_notOn (hdeleted : e.Deleted w.db) (hoff : ¬ op.On e)
    (hreturns : Returns (op.run env) w () w') : e.SameRow w.db w'.db ∧ e.SameEvents w w' := by
  cases op with
  | card call =>
      obtain ⟨hframe, -⟩ := callEffect hreturns
      cases e with
      | card c => exact frame_of_notOnCard hdeleted hoff hreturns
      | list l =>
          exact ⟨by rw [Entity.SameRow, hframe.lists], by rw [Entity.SameEvents, hframe.listEvents]⟩
      | board b =>
          exact ⟨by rw [Entity.SameRow, hframe.boards],
            by rw [Entity.SameEvents, hframe.boardEvents]⟩
  | list call =>
      have heffect := listEffect hreturns
      cases e with
      | card c =>
          exact ⟨by rw [Entity.SameRow, heffect.cards], by rw [Entity.SameEvents, heffect.events]⟩
      | list l => exact frame_of_notOnList hdeleted hoff hreturns
      | board b =>
          exact ⟨by rw [Entity.SameRow, heffect.boards],
            by rw [Entity.SameEvents, heffect.boardEvents]⟩
  | board call =>
      have heffect := boardEffect hreturns
      cases e with
      | card c =>
          exact ⟨by rw [Entity.SameRow, heffect.cards], by rw [Entity.SameEvents, heffect.events]⟩
      | list l =>
          exact ⟨by rw [Entity.SameRow, heffect.lists],
            by rw [Entity.SameEvents, heffect.listEvents]⟩
      | board b => exact frame_of_notOnBoard hdeleted hoff hreturns

/-- What is deleted stays deleted. -/
theorem Entity.Deleted.returns (hdeleted : e.Deleted w.db)
    (hreturns : Returns (op.run env) w () w') : e.Deleted w'.db := by
  cases op with
  | card call =>
      obtain ⟨hframe, -⟩ := callEffect hreturns
      cases e with
      | card c => exact hdeleted.card hreturns
      | list l => rwa [Entity.Deleted, hframe.lists]
      | board b => rwa [Entity.Deleted, hframe.boards]
  | list call =>
      have heffect := listEffect hreturns
      cases e with
      | card c => rwa [Entity.Deleted, heffect.cards]
      | list l => exact hdeleted.list hreturns
      | board b => rwa [Entity.Deleted, heffect.boards]
  | board call =>
      have heffect := boardEffect hreturns
      cases e with
      | card c => rwa [Entity.Deleted, heffect.cards]
      | list l => rwa [Entity.Deleted, heffect.lists]
      | board b => exact hdeleted.board hreturns

/-- `deletePermanently` deletes. -/
theorem deleted_of_deletes (hdeletes : op.Deletes e) (hreturns : Returns (op.run env) w () w') :
    e.Deleted w'.db := by
  cases e with
  | card c =>
      cases op with
      | card call =>
          obtain ⟨-, heffect⟩ := callEffect hreturns
          cases heffect with
          | kept hkept => cases hkept <;> cases hdeletes
          | wrote hwrite _ hcards =>
              cases hwrite with
              | deletePermanently hnew =>
                  obtain rfl := hdeletes
                  exact ⟨_, hcards.self, by rw [hnew]; rfl⟩
              | _ => cases hdeletes
      | list | board => cases hdeletes
  | list l =>
      cases op with
      | list call =>
          obtain ⟨listId, old, new, event, hwrite, -, hlists, -⟩ := (listEffect hreturns).wrote
          cases hwrite with
          | deletePermanently hnew =>
              obtain rfl := hdeletes
              exact ⟨_, hlists.self, by rw [hnew]; rfl⟩
          | _ => cases hdeletes
      | card | board => cases hdeletes
  | board b =>
      cases op with
      | board call =>
          rcases (boardEffect hreturns).wrote with ⟨hkept, -⟩ |
            ⟨boardId, old, new, event, hwrite, -, hboards, -⟩
          · cases call <;> first | cases hkept | cases hdeletes
          · cases hwrite with
            | deletePermanently hnew =>
                obtain rfl := hdeletes
                exact ⟨_, hboards.self, by rw [hnew]; rfl⟩
            | _ => cases hdeletes
      | card | list => cases hdeletes

/-- An operation that reaches what is deleted is on it, and returns. -/
theorem returns_of_reaches (h : op.Reaches env w.db e) :
    op.On e ∧ ∃ w', Returns (op.run env) w () w' := by
  cases e with
  | card c =>
      cases op with
      | card call =>
          cases call with
          | unarchive =>
              obtain ⟨rfl, hany⟩ := h
              obtain ⟨card, w', hreturns⟩ := exists_unarchive hany
              exact ⟨List.mem_singleton_self _, w', returns_discard.mpr ⟨card, hreturns⟩⟩
          | _ => cases h
      | list | board => cases h
  | list l =>
      cases op with
      | list call =>
          cases call with
          | unarchive =>
              obtain ⟨rfl, hany⟩ := h
              obtain ⟨list, w', hreturns⟩ := exists_unarchiveList hany
              exact ⟨List.mem_singleton_self _, w', returns_discard.mpr ⟨list, hreturns⟩⟩
          | _ => cases h
      | card | board => cases h
  | board b =>
      cases op with
      | board call =>
          cases call with
          | unarchive =>
              obtain ⟨rfl, hany⟩ := h
              obtain ⟨board, w', hreturns⟩ := exists_unarchiveBoard hany
              exact ⟨List.mem_singleton_self _, w', returns_discard.mpr ⟨board, hreturns⟩⟩
          | _ => cases h
      | card call =>
          cases call with
          | create =>
              obtain ⟨rfl, haccepted⟩ := h
              obtain ⟨card, w', hreturns⟩ := exists_create haccepted
              exact ⟨rfl, w', returns_discard.mpr ⟨card, hreturns⟩⟩
          | addAssignee =>
              obtain ⟨rfl, hcard, hmember⟩ := h
              obtain ⟨card, hcard⟩ := Option.isSome_iff_exists.mp hcard
              exact ⟨rfl, exists_addAssignee hcard hmember⟩
          | addLabel =>
              obtain ⟨rfl, hcard, hlabel⟩ := h
              obtain ⟨card, hcard⟩ := Option.isSome_iff_exists.mp hcard
              exact ⟨rfl, exists_addLabel hcard hlabel⟩
          | _ => cases h
      | list => cases h

end Requests

/-- What one request does to what is deleted: it leaves it alone exactly where it does
not reach it. -/
theorem leavesAlone_iff {ranking : Ranking} {e : Entity} {w : World} {r : Request}
    (hdeleted : e.Deleted w.db) :
    LeavesAlone ranking e w r ↔ ¬ r.operation.Reaches (r.env ranking) w.db e := by
  constructor
  · intro h hreaches
    obtain ⟨hon, w', hreturns⟩ := returns_of_reaches hreaches
    exact h.fails hon w' hreturns
  · intro hreaches
    have hframe : ∀ w', step ranking w r = some w' → e.SameRow w.db w'.db ∧ e.SameEvents w w' := by
      intro w' hstep
      rcases step_cases hstep with hreturns | rfl
      · exact frame_of_notOn hdeleted
          (fun hon => hreaches (reaches_of_on hdeleted hon hreturns)) hreturns
      · cases e <;> exact ⟨rfl, rfl⟩
    exact
      { fails := fun hon w' hreturns => hreaches (reaches_of_on hdeleted hon hreturns)
        row := fun w' hstep => (hframe w' hstep).1
        events := fun w' hstep => (hframe w' hstep).2 }

/-- List 30 of the sample board is deleted permanently. -/
def deleteList : Request := ⟨.list (.deletePermanently 20 1 30 7), 0, 5⟩

end SyncBoard.Board
