import SyncBoard.Board.CallEffects

/-!
# What the calls write to the cards

A call that returns writes the row of at most one card and announces what it did.
`CardWrite` lists the writes: which checks the call has passed, the row before and
after, and the event. `KeptCards` lists the calls that write no card row. The
theorem `callEffect` says that this is all that a call does to the cards; the
sections after it say which of the calls return.

## Implementation notes

`OnActiveCard` collects the two checks that most calls on a card begin with. The
row that `create` and `createSubcard` insert is written out; that of an update is
the data of its statement, dated.
-/

namespace SyncBoard.Board

open Relational Fallible

/-- The board is an active one of the workspace and the card an active one of the
board. -/
structure OnActiveCard (db : Database) (boardId workspaceId cardId : Uuid) : Prop where
  board : (BoardRepository.findById db boardId (some workspaceId)).isSome = true
  card : (CardRepository.findActiveById db cardId (some boardId)).isSome = true

theorem OnActiveCard.active {db : Database} {boardId workspaceId cardId : Uuid} {row : CardRow}
    (h : OnActiveCard db boardId workspaceId cardId) (hrow : db.cards.get? cardId = some row) :
    row.archivedAt = none ∧ row.deletedAt = none := by
  obtain ⟨card, hcard⟩ := Option.isSome_iff_exists.mp h.card
  have hactive := CardRepository.findActiveById_active hcard
  rwa [Option.some.inj ((CardRepository.findActiveById_eq_some hcard).1.symm.trans hrow)] at hactive

/-- The board is an active one of the workspace and the card any one of the board. -/
structure OnAnyCard (db : Database) (boardId workspaceId cardId : Uuid) : Prop where
  board : (BoardRepository.findById db boardId (some workspaceId)).isSome = true
  card : (CardRepository.findByIdIncludingArchived db cardId (some boardId)).isSome = true

/-- An active card of the board that has no parent. -/
def FreeCard (db : Database) (boardId cardId : Uuid) : Prop :=
  ∃ card, CardRepository.findActiveById db cardId (some boardId) = some card ∧
    card.row.parentCardId = none

/-- The checks that `attachSubcard` makes. -/
structure AttachAccepted (db : Database) (boardId workspaceId : Uuid) (parentId : UuidText)
    (subcardId : Uuid) : Prop where
  board : (BoardRepository.findById db boardId (some workspaceId)).isSome = true
  parent : FreeCard db boardId parentId.id
  child : FreeCard db boardId subcardId
  distinct : .canonical subcardId ≠ parentId
  bare : CardRepository.countSubcards db subcardId = 0

/-- The checks that `createSubcard` makes and the constraints of the row it inserts;
`listId` is the list of the parent. -/
structure SubcardAccepted (env : Env) (db : Database) (boardId workspaceId parentId listId : Uuid)
    (dto : CreateCardDto) (userId : Uuid) : Prop where
  board : (BoardRepository.findById db boardId (some workspaceId)).isSome = true
  parent : ∃ parent, CardRepository.findActiveById db parentId (some boardId) = some parent ∧
    parent.row.parentCardId = none ∧ parent.row.listId = listId
  assignees : ∀ u ∈ dto.assigneeIds, WorkspaceService.isUserMember db workspaceId u = true
  labels : ∀ l ∈ dto.labelIds, CardService.labelAvailable db workspaceId l = true
  creator : db.users.contains userId = true
  fresh : db.cards.get? env.newId = none
  rank : charCount (CardService.rankAfterLast env db listId) ≤ rankWidth

/-- The checks that `move` makes, and the bound on the rank that it writes. -/
structure MoveAccepted (env : Env) (db : Database) (boardId workspaceId cardId : Uuid)
    (dto : MoveCardDto) : Prop where
  card : OnActiveCard db boardId workspaceId cardId
  target : (ListRepository.findActiveById db dto.targetListId (some boardId)).isSome = true
  rank : charCount (LexorankService.rankOrInitial env.lexorank dto.prevRank dto.nextRank) ≤ rankWidth

/-- The row that a call writes, under which id, over which row, and its event. -/
inductive CardWrite (env : Env) (db : Database) :
    Call → Uuid → Option CardRow → CardRow → CardEvent → Prop
  | create {b w l u : Uuid} {dto : CreateCardDto} {row : CardRow}
      (hrow : row = CardService.newCard env dto l (CardService.rankAfterLast env db l)
        dto.parentCardId u)
      (h : CreateAccepted env db b w l dto u) :
      CardWrite env db (.create b w l dto u) env.newId none row (.created ⟨env.newId, row⟩ b l u)
  | createSubcard {b w p l u : Uuid} {dto : CreateCardDto} {row : CardRow}
      (hrow : row = CardService.newCard env dto l (CardService.rankAfterLast env db l) (some p) u)
      (h : SubcardAccepted env db b w p l dto u) :
      CardWrite env db (.createSubcard b w p dto u) env.newId none row
        (.subcardCreated p env.newId b u)
  | update {b w c u : Uuid} {dto : UpdateCardDto} {old new : CardRow}
      {status : Option CardStatus} {isComplete : Option Bool}
      (hnew : new = { CardService.patch status isComplete dto old with updatedAt := env.now })
      (h : OnActiveCard db b w c) :
      CardWrite env db (.update b w c dto u) c (some old) new (.updated ⟨c, new⟩ b u)
  | updatePriority {b w c u : Uuid} {p : CardPriority} {old new : CardRow}
      (hnew : new = { old with priority := p, updatedAt := env.now })
      (h : OnActiveCard db b w c) :
      CardWrite env db (.updatePriority b w c p u) c (some old) new
        (.priorityChanged c b old.priority p u)
  | updateStatus {b w c u : Uuid} {s : CardStatus} {old new : CardRow}
      (hnew : new = { old with
        status := s, isComplete := isCompleteFromStatus s, updatedAt := env.now })
      (h : OnActiveCard db b w c) :
      CardWrite env db (.updateStatus b w c s u) c (some old) new
        (.statusChanged c b old.status s (isCompleteFromStatus s) u)
  | attachSubcard {b w c u : Uuid} {p : UuidText} {old new : CardRow}
      (hnew : new = { old with parentCardId := some p.id, updatedAt := env.now })
      (h : AttachAccepted db b w p c) :
      CardWrite env db (.attachSubcard b w p c u) c (some old) new (.subcardCreated p.id c b u)
  | detachSubcard {b w c u : Uuid} {old new : CardRow}
      (hnew : new = { old with parentCardId := none, updatedAt := env.now })
      (h : OnActiveCard db b w c) :
      CardWrite env db (.detachSubcard b w c u) c (some old) new (.updated ⟨c, new⟩ b u)
  | move {b w c u : Uuid} {dto : MoveCardDto} {rank : JsString} {old new : CardRow}
      (hrank : rank = LexorankService.rankOrInitial env.lexorank dto.prevRank dto.nextRank)
      (hnew : new = { old with listId := dto.targetListId, rank := rank, updatedAt := env.now })
      (h : OnActiveCard db b w c)
      (htarget : (ListRepository.findActiveById db dto.targetListId (some b)).isSome = true) :
      CardWrite env db (.move b w c dto u) c (some old) new
        (.moved c b old.listId dto.targetListId rank u)
  | archive {b w c u : Uuid} {old new : CardRow}
      (hnew : new = { old with archivedAt := some env.now, updatedAt := env.now })
      (h : OnActiveCard db b w c) :
      CardWrite env db (.archive b w c u) c (some old) new (.archived c b old.listId u)
  | unarchive {b w c u : Uuid} {old new : CardRow}
      (hnew : new = { old with archivedAt := none, updatedAt := env.now })
      (h : OnAnyCard db b w c) :
      CardWrite env db (.unarchive b w c u) c (some old) new
        (.unarchived ⟨c, new⟩ b new.listId u)
  | deletePermanently {b w c u : Uuid} {old new : CardRow}
      (hnew : new = { old with deletedAt := some env.now, updatedAt := env.now })
      (h : OnAnyCard db b w c) (hopen : old.deletedAt = none) :
      CardWrite env db (.deletePermanently b w c u) c (some old) new (.deleted c b old.listId u)

/-- A call that writes no card row, and its events. -/
inductive KeptCards (db : Database) : Call → List CardEvent → Prop
  | updatePriority {b w c u : Uuid} {p : CardPriority} (h : OnActiveCard db b w c) :
      KeptCards db (.updatePriority b w c p u) []
  | updateStatus {b w c u : Uuid} {s : CardStatus} (h : OnActiveCard db b w c) :
      KeptCards db (.updateStatus b w c s u) []
  | addAssignee {b w c a u : Uuid}
      (h : (CardRepository.findActiveById db c (some b)).isSome = true)
      (hmember : WorkspaceService.isUserMember db w a = true) :
      KeptCards db (.addAssignee b w c a u) [.assigneeAdded c b a u]
  | removeAssignee {b w c a u : Uuid} (h : OnActiveCard db b w c) :
      KeptCards db (.removeAssignee b w c a u) [.assigneeRemoved c b a u]
  | addLabel {b w c l : Uuid}
      (h : (CardRepository.findActiveById db c (some b)).isSome = true)
      (hlabel : CardService.labelAvailable db w l = true) :
      KeptCards db (.addLabel b w c l) []
  | removeLabel {b w c l : Uuid} (h : OnActiveCard db b w c) :
      KeptCards db (.removeLabel b w c l) []
  | createLabel {b w : Uuid} {dto : CreateLabelDto}
      (h : (BoardRepository.findById db b (some w)).isSome = true) :
      KeptCards db (.createLabel b w dto) []
  | createWorkspaceLabel {w : Uuid} {dto : CreateLabelDto} :
      KeptCards db (.createWorkspaceLabel w dto) []

/-- What a call leaves as it was, whatever it does. -/
structure CallFrame (w w' : World) : Prop where
  boards : w'.db.boards = w.db.boards
  lists : w'.db.lists = w.db.lists
  listEvents : w'.listEvents = w.listEvents
  boardEvents : w'.boardEvents = w.boardEvents

/-- What a call that returns has done to the cards. -/
inductive CallEffect (env : Env) (w w' : World) (call : Call) : Prop
  | kept {events : List CardEvent} (h : KeptCards w.db call events)
      (hcards : w'.db.cards = w.db.cards) (hevents : w'.events = w.events ++ events)
  | wrote {cardId : Uuid} {old : Option CardRow} {new : CardRow} {event : CardEvent}
      (h : CardWrite env w.db call cardId old new event)
      (hold : w.db.cards.get? cardId = old) (hcards : w.db.cards.Wrote w'.db.cards cardId new)
      (hevents : w'.events = w.events ++ [event])

section Steps
variable {α : Type} {env : Env} {w w' : World} {boardId workspaceId cardId : Uuid}

theorem returns_verifyBoardInWorkspace_bind {rest : Unit → Service α} {a : α} :
    Returns (CardService.verifyBoardInWorkspace boardId workspaceId >>= rest) w a w' ↔
      (BoardRepository.findById w.db boardId (some workspaceId)).isSome = true ∧
        Returns (rest ()) w a w' := by
  simp only [CardService.verifyBoardInWorkspace, returns_bind, returns_find, returns_pure,
    Option.isSome_iff_exists]
  constructor
  · rintro ⟨_, _, ⟨board, _, ⟨hboard, rfl⟩, -, rfl⟩, h⟩
    exact ⟨⟨board, hboard⟩, h⟩
  · rintro ⟨⟨board, hboard⟩, h⟩
    exact ⟨(), w, ⟨board, w, ⟨hboard, rfl⟩, trivial, rfl⟩, h⟩

/-- The two checks that most calls on a card begin with. -/
theorem returns_onActiveCard {f : CardWithDetails → Service α} {a : α}
    (h : Returns (do
      CardService.verifyBoardInWorkspace boardId workspaceId
      let card ← CardService.findCard cardId boardId
      f card) w a w') :
    OnActiveCard w.db boardId workspaceId cardId ∧
      ∃ card, CardRepository.findActiveById w.db cardId (some boardId) = some card ∧
        Returns (f card) w a w' := by
  obtain ⟨hboard, h⟩ := returns_verifyBoardInWorkspace_bind.mp h
  obtain ⟨card, hcard, h⟩ := returns_findCard_bind.mp h
  exact ⟨⟨hboard, by rw [hcard]; rfl⟩, card, hcard, h⟩

/-- The statement that rewrites a card. -/
theorem CardRepository.update_wrote {db db' : Database} {data : CardRow → CardRow}
    {now : Timestamp} {card : Card} (h : update db cardId data now = .ok (card, db')) :
    ∃ old, db.cards.get? cardId = some old ∧
      card = ⟨cardId, { data old with updatedAt := now }⟩ ∧
        db.cards.Wrote db'.cards cardId { data old with updatedAt := now } ∧
          db'.boards = db.boards ∧ db'.lists = db.lists := by
  rw [update] at h
  split at h
  · cases h
  · next row hrow =>
      dsimp only at h
      rw [Database.updateCard] at h
      split at h
      · cases h
        exact ⟨row, hrow, rfl, Table.wrote_modify hrow _, rfl, rfl⟩
      · cases h

/-- An update of an existing card is not refused where the constraints accept the row. -/
theorem CardRepository.exists_update_of_accepted {db : Database} {row : CardRow}
    (data : CardRow → CardRow) (now : Timestamp) (hrow : db.cards.get? cardId = some row)
    (haccepted : CardRow.Accepted db.toTables { data row with updatedAt := now }) :
    ∃ card db', update db cardId data now = .ok (card, db') := by
  simp only [update, hrow, Database.updateCard, dif_pos haccepted, Except.map]
  exact ⟨_, _, rfl⟩

/-- An update that keeps the list, the creator and the rank of a card, and gives it
a parent only where there is such a card, is never refused. -/
theorem CardRepository.exists_update {db : Database} {row : CardRow} (data : CardRow → CardRow)
    (hrow : db.cards.get? cardId = some row) (hlist : (data row).listId = row.listId)
    (hcreator : (data row).createdBy = row.createdBy) (hrank : (data row).rank = row.rank)
    (hparent : (data row).parentCardId = row.parentCardId ∨
      (data row).parentCardId.all db.cards.contains = true) (now : Timestamp) :
    ∃ card db', update db cardId data now = .ok (card, db') := by
  obtain ⟨hl, hu, hp, hr⟩ := db.wellFormed.cards cardId row hrow
  apply exists_update_of_accepted data now hrow
  refine ⟨?_, ?_, ?_, ?_⟩
  · exact hlist.symm ▸ hl
  · exact hcreator.symm ▸ hu
  · rcases hparent with hparent | hparent
    · exact hparent.symm ▸ hp
    · exact hparent
  · exact hrank.symm ▸ hr

theorem returns_emit_return {event : CardEvent} {a b : α}
    (h : Returns (do emit event; return a) w b w') :
    w' = { w with events := w.events ++ [event] } := by
  simp only [returns_bind, returns_emit, returns_pure] at h
  obtain ⟨_, _, rfl, -, rfl⟩ := h
  rfl

/-- The last steps of most calls: one update of the card, then one event. -/
theorem effect_of_updating {data : CardRow → CardRow} {rejected : DbError → AppError}
    {rest : Card → Service α} {a : α} {call : Call} {event : Card → CardEvent}
    (h : Returns (write (CardRepository.update · cardId data env.now) rejected >>= rest) w a w')
    (hrest : ∀ card u a v, Returns (rest card) u a v →
      v = { u with events := u.events ++ [event card] })
    (hwrite : ∀ old new, w.db.cards.get? cardId = some old →
      new = { data old with updatedAt := env.now } →
        CardWrite env w.db call cardId (some old) new (event ⟨cardId, new⟩)) :
    CallFrame w w' ∧ CallEffect env w w' call := by
  simp only [returns_bind, returns_write] at h
  obtain ⟨card, _, ⟨db, hupdate, rfl⟩, h⟩ := h
  obtain ⟨old, hold, rfl, hwrote, hboards, hlists⟩ := CardRepository.update_wrote hupdate
  obtain rfl := hrest _ _ _ _ h
  exact ⟨⟨hboards, hlists, rfl, rfl⟩, .wrote (hwrite old _ hold rfl) hold hwrote rfl⟩

/-- The last step of the other calls: a write that leaves the cards as they were, and
the events after it. -/
theorem effect_of_keeping {call : Call} {events : List CardEvent} {db : Database}
    (h : KeptCards w.db call events) (hsame : db.cards = w.db.cards)
    (hboards : db.boards = w.db.boards) (hlists : db.lists = w.db.lists) :
    CallFrame w { w with db := db, events := w.events ++ events } ∧
      CallEffect env w { w with db := db, events := w.events ++ events } call :=
  ⟨⟨hboards, hlists, rfl, rfl⟩, .kept h hsame rfl⟩

/-- The transaction of `create` inserts its row, and returns it. -/
theorem CardRepository.create_wrote {db db' : Database} {id : Uuid} {data : CardRow}
    {assigneeIds labelIds : List Uuid} {now : Timestamp} {card : CardWithDetails}
    (h : create db id data assigneeIds labelIds now = .ok (card, db')) :
    db.cards.get? id = none ∧ db.users.contains data.createdBy = true ∧
      charCount data.rank ≤ rankWidth ∧ card.toCard = ⟨id, data⟩ ∧
        db.cards.Wrote db'.cards id data ∧ db'.boards = db.boards ∧ db'.lists = db.lists := by
  obtain ⟨db₁, hinsert, hlinks, hcard⟩ := create_inserts h
  obtain ⟨hfresh, hcreator, hrank, honly, hget, -, -⟩ := Database.insertCard_ok hinsert
  have hwrote : db.cards.Wrote db'.cards id data := by
    intro j
    rw [hlinks.allCards]
    split
    · next hj =>
        rw [hj, hget]
    · next hj =>
        exact honly.cards j hj
  exact ⟨hfresh, hcreator, hrank, hcard, hwrote, hlinks.boards.trans honly.boards,
    hlinks.lists.trans honly.lists⟩

end Steps

section Effects
variable {env : Env} {w w' : World} {boardId workspaceId cardId : Uuid}

theorem effect_create {listId userId : Uuid} {dto : CreateCardDto} {card : CardWithDetails}
    (h : Returns (CardService.create env boardId workspaceId listId dto userId) w card w') :
    CallFrame w w' ∧
      CallEffect env w w' (.create boardId workspaceId listId dto userId) := by
  have hsaved := h
  obtain ⟨haccepted, -, -⟩ := returns_create hsaved
  obtain ⟨list, hlist, h⟩ := returns_find_bind.mp h
  obtain ⟨_, _, hv, h⟩ := returns_bind.mp h
  obtain ⟨hassignees, rfl⟩ := returns_validateAssignees.mp hv
  obtain ⟨_, _, hv, h⟩ := returns_bind.mp h
  obtain ⟨hlabels, rfl⟩ := returns_validateLabels.mp hv
  obtain ⟨_, _, hv, h⟩ := returns_bind.mp h
  obtain ⟨hparent, rfl, rfl⟩ := returns_parentFor.mp hv
  have h := returns_query_bind.mp h
  simp only [returns_bind, returns_write] at h
  obtain ⟨card', _, ⟨db, hcreate, rfl⟩, h⟩ := h
  obtain rfl := returns_emit_return (returns_bind.mpr h)
  obtain ⟨hfresh, -, -, hcard, hwrote, hboards, hlists⟩ := CardRepository.create_wrote hcreate
  exact ⟨⟨hboards, hlists, rfl, rfl⟩,
    .wrote (.create rfl haccepted) hfresh hwrote (by rw [hcard])⟩

theorem effect_createSubcard {parentId userId : Uuid} {dto : CreateCardDto}
    {card : CardWithDetails}
    (h : Returns (CardService.createSubcard env boardId workspaceId parentId dto userId)
      w card w') :
    CallFrame w w' ∧
      CallEffect env w w' (.createSubcard boardId workspaceId parentId dto userId) := by
  obtain ⟨hactive, parent, hparent, h⟩ := returns_onActiveCard h
  obtain ⟨hnone, h⟩ := returns_refuseIf_bind.mp h
  obtain ⟨_, _, hv, h⟩ := returns_bind.mp h
  obtain ⟨hassignees, rfl⟩ := returns_validateAssignees.mp hv
  obtain ⟨_, _, hv, h⟩ := returns_bind.mp h
  obtain ⟨hlabels, rfl⟩ := returns_validateLabels.mp hv
  have h := returns_query_bind.mp h
  simp only [returns_bind, returns_write] at h
  obtain ⟨card', _, ⟨db, hcreate, rfl⟩, h⟩ := h
  obtain rfl := returns_emit_return (returns_bind.mpr h)
  obtain ⟨hfresh, hcreator, hrank, hcard, hwrote, hboards, hlists⟩ :=
    CardRepository.create_wrote hcreate
  have hid : card'.id = env.newId := congrArg Card.id hcard
  have haccepted : SubcardAccepted env w.db boardId workspaceId parentId parent.row.listId dto
      userId :=
    { board := hactive.board
      parent := ⟨parent, hparent, by simpa using hnone, rfl⟩
      assignees := hassignees
      labels := hlabels
      creator := hcreator
      fresh := hfresh
      rank := hrank }
  exact ⟨⟨hboards, hlists, rfl, rfl⟩,
    .wrote (.createSubcard rfl haccepted) hfresh hwrote (by rw [hid])⟩

theorem row_eq_of_found {db : Database} {card : CardWithDetails} {old : CardRow}
    (hcard : CardRepository.findActiveById db cardId (some boardId) = some card)
    (hold : db.cards.get? cardId = some old) : card.row = old :=
  Option.some.inj ((CardRepository.findActiveById_eq_some hcard).1.symm.trans hold)

theorem effect_updatePriority {priority : CardPriority} {userId : Uuid} {card : Card}
    (h : Returns (CardService.updatePriority env boardId workspaceId cardId priority userId)
      w card w') :
    CallFrame w w' ∧
      CallEffect env w w' (.updatePriority boardId workspaceId cardId priority userId) := by
  obtain ⟨hactive, existing, hexisting, h⟩ := returns_onActiveCard h
  split at h
  · obtain ⟨-, rfl⟩ := returns_pure.mp h
    exact ⟨⟨rfl, rfl, rfl, rfl⟩, .kept (.updatePriority hactive) rfl (by simp)⟩
  · apply effect_of_updating h fun _ _ _ _ => returns_emit_return
    intro old new hold hnew
    rw [row_eq_of_found hexisting hold]
    exact .updatePriority hnew hactive

theorem effect_updateStatus {status : CardStatus} {userId : Uuid} {card : Card}
    (h : Returns (CardService.updateStatus env boardId workspaceId cardId status userId)
      w card w') :
    CallFrame w w' ∧
      CallEffect env w w' (.updateStatus boardId workspaceId cardId status userId) := by
  obtain ⟨hactive, existing, hexisting, h⟩ := returns_onActiveCard h
  split at h
  · obtain ⟨-, rfl⟩ := returns_pure.mp h
    exact ⟨⟨rfl, rfl, rfl, rfl⟩, .kept (.updateStatus hactive) rfl (by simp)⟩
  · apply effect_of_updating h fun _ _ _ _ => returns_emit_return
    intro old new hold hnew
    rw [row_eq_of_found hexisting hold]
    exact .updateStatus hnew hactive

theorem effect_attachSubcard {parentId : UuidText} {userId : Uuid} {card : Card}
    (h : Returns (CardService.attachSubcard env boardId workspaceId parentId cardId userId)
      w card w') :
    CallFrame w w' ∧
      CallEffect env w w' (.attachSubcard boardId workspaceId parentId cardId userId) := by
  obtain ⟨hactive, parent, hparent, h⟩ := returns_onActiveCard h
  obtain ⟨hparentFree, h⟩ := returns_refuseIf_bind.mp h
  obtain ⟨child, hchild, h⟩ := returns_findCard_bind.mp h
  obtain ⟨-, hid, -⟩ := CardRepository.findActiveById_eq_some hchild
  obtain ⟨hdistinct, h⟩ := returns_refuseIf_bind.mp h
  obtain ⟨hchildFree, h⟩ := returns_refuseIf_bind.mp h
  have h := returns_query_bind.mp h
  obtain ⟨hbare, h⟩ := returns_refuseIf_bind.mp h
  rw [hid] at hdistinct hbare
  have haccepted : AttachAccepted w.db boardId workspaceId parentId cardId :=
    { board := hactive.board
      parent := ⟨parent, hparent, by simpa using hparentFree⟩
      child := ⟨child, hchild, by simpa using hchildFree⟩
      distinct := by simpa using hdistinct
      bare := by simpa using hbare }
  exact effect_of_updating h (fun _ _ _ _ => returns_emit_return)
    fun _ _ _ hnew => .attachSubcard hnew haccepted

theorem effect_move {dto : MoveCardDto} {userId : Uuid} {card : Card}
    (h : Returns (CardService.move env boardId workspaceId cardId dto userId) w card w') :
    CallFrame w w' ∧ CallEffect env w w' (.move boardId workspaceId cardId dto userId) := by
  obtain ⟨hactive, existing, hexisting, h⟩ := returns_onActiveCard h
  obtain ⟨target, htarget, h⟩ := returns_find_bind.mp h
  apply effect_of_updating h fun _ _ _ _ => returns_emit_return
  intro old new hold hnew
  rw [row_eq_of_found hexisting hold]
  exact .move rfl hnew hactive (by rw [htarget]; rfl)

theorem effect_unarchive {userId : Uuid} {card : Card}
    (h : Returns (CardService.unarchive env boardId workspaceId cardId userId) w card w') :
    CallFrame w w' ∧ CallEffect env w w' (.unarchive boardId workspaceId cardId userId) := by
  obtain ⟨hboard, h⟩ := returns_verifyBoardInWorkspace_bind.mp h
  obtain ⟨found, hfound, h⟩ := returns_find_bind.mp h
  have hcard : OnAnyCard w.db boardId workspaceId cardId := ⟨hboard, by rw [hfound]; rfl⟩
  exact effect_of_updating h (fun _ _ _ _ => returns_emit_return)
    fun _ _ _ hnew => .unarchive hnew hcard

theorem effect_deletePermanently {userId : Uuid} {u : Unit}
    (h : Returns (CardService.deletePermanently env boardId workspaceId cardId userId) w u w') :
    CallFrame w w' ∧
      CallEffect env w w' (.deletePermanently boardId workspaceId cardId userId) := by
  obtain ⟨hboard, h⟩ := returns_verifyBoardInWorkspace_bind.mp h
  obtain ⟨found, hfound, h⟩ := returns_find_bind.mp h
  obtain ⟨hopen, h⟩ := returns_refuseIf_bind.mp h
  rw [CardRepository.findByIdIncludingDeleted_eq] at hfound
  obtain ⟨hrow, -⟩ := CardRepository.findByIdIncludingArchived_eq_some hfound
  have hcard : OnAnyCard w.db boardId workspaceId cardId := ⟨hboard, by rw [hfound]; rfl⟩
  apply effect_of_updating h fun _ _ _ _ h => (returns_emit.mp h).symm
  intro old new hold hnew
  obtain rfl : found.row = old := Option.some.inj (hrow.symm.trans hold)
  exact .deletePermanently hnew hcard (by simpa using hopen)

theorem effect_addAssignee {assigneeUserId addedBy : Uuid}
    (h : Returns (CardService.addAssignee env boardId workspaceId cardId assigneeUserId addedBy)
      w () w') :
    CallFrame w w' ∧
      CallEffect env w w' (.addAssignee boardId workspaceId cardId assigneeUserId addedBy) := by
  obtain ⟨⟨card, hcard⟩, hmember, hlinks, -, -⟩ := returns_addAssignee h
  obtain ⟨_, -, h⟩ := returns_findCard_bind.mp h
  obtain ⟨-, h⟩ := returns_check_bind.mp h
  simp only [returns_bind, returns_write, returns_emit] at h
  obtain ⟨_, _, ⟨db, -, rfl⟩, rfl⟩ := h
  exact effect_of_keeping (.addAssignee (by rw [hcard]; rfl) hmember) hlinks.allCards
    hlinks.boards hlinks.lists

theorem effect_removeAssignee {assigneeUserId removedBy : Uuid} {u : Unit}
    (h : Returns (CardService.removeAssignee boardId workspaceId cardId assigneeUserId removedBy)
      w u w') :
    CallFrame w w' ∧
      CallEffect env w w' (.removeAssignee boardId workspaceId cardId assigneeUserId removedBy) := by
  obtain ⟨hactive, card, -, h⟩ := returns_onActiveCard h
  simp only [returns_bind, returns_write, returns_emit, Except.ok.injEq, Prod.mk.injEq] at h
  obtain ⟨_, _, ⟨db, ⟨-, rfl⟩, rfl⟩, rfl⟩ := h
  exact effect_of_keeping (.removeAssignee hactive) rfl rfl rfl

theorem effect_addLabel {labelId : Uuid}
    (h : Returns (CardService.addLabel boardId workspaceId cardId labelId) w () w') :
    CallFrame w w' ∧ CallEffect env w w' (.addLabel boardId workspaceId cardId labelId) := by
  obtain ⟨⟨card, hcard⟩, hlabel, hlinks, -, -⟩ := returns_addLabel h
  obtain ⟨_, -, h⟩ := returns_findCard_bind.mp h
  obtain ⟨-, h⟩ := returns_check_bind.mp h
  obtain ⟨db, -, rfl⟩ := returns_write.mp h
  have hkept : KeptCards w.db (.addLabel boardId workspaceId cardId labelId) [] :=
    .addLabel (by rw [hcard]; rfl) hlabel
  exact ⟨⟨hlinks.boards, hlinks.lists, rfl, rfl⟩, .kept hkept hlinks.allCards (by simp)⟩

theorem effect_removeLabel {labelId : Uuid} {u : Unit}
    (h : Returns (CardService.removeLabel boardId workspaceId cardId labelId) w u w') :
    CallFrame w w' ∧ CallEffect env w w' (.removeLabel boardId workspaceId cardId labelId) := by
  obtain ⟨hactive, card, -, h⟩ := returns_onActiveCard h
  simp only [returns_write, Except.ok.injEq, Prod.mk.injEq] at h
  obtain ⟨db, ⟨-, rfl⟩, rfl⟩ := h
  exact ⟨⟨rfl, rfl, rfl, rfl⟩, .kept (.removeLabel hactive) rfl (by simp)⟩

/-- The transaction of the two label calls writes no card. -/
theorem LabelRepository.createWithCard_kept {db db' : Database} {id : Uuid} {data : LabelRow}
    {c : Option Uuid} {label : Label} (h : createWithCard db id data c = .ok (label, db')) :
    db'.cards = db.cards ∧ db'.boards = db.boards ∧ db'.lists = db.lists := by
  cases c with
  | none =>
      have hsame := createWithCard_none h
      exact ⟨hsame.cards, hsame.boards, hsame.lists⟩
  | some c =>
      obtain ⟨-, -, -, honly, hcards, -⟩ := createWithCard_some h
      exact ⟨hcards, honly.boards, honly.lists⟩

theorem effect_creatingLabel {call : Call} {data : LabelRow} {c : Option Uuid} {label : Label}
    (h : Returns (write fun db => LabelRepository.createWithCard db env.newId data c) w label w')
    (hkept : KeptCards w.db call []) : CallFrame w w' ∧ CallEffect env w w' call := by
  obtain ⟨db, hcreate, rfl⟩ := returns_write.mp h
  obtain ⟨hcards, hboards, hlists⟩ := LabelRepository.createWithCard_kept hcreate
  exact ⟨⟨hboards, hlists, rfl, rfl⟩, .kept hkept hcards (by simp)⟩

/-- A call that returns has written what `CardWrite` says, or no card row. -/
theorem callEffect {call : Call} (h : Returns (call.run env) w () w') :
    CallFrame w w' ∧ CallEffect env w w' call := by
  cases call with
  | create =>
      obtain ⟨card, h⟩ := returns_discard.mp h
      exact effect_create h
  | createSubcard =>
      obtain ⟨card, h⟩ := returns_discard.mp h
      exact effect_createSubcard h
  | update =>
      obtain ⟨card, h⟩ := returns_discard.mp h
      obtain ⟨hactive, existing, -, h⟩ := returns_onActiveCard h
      exact effect_of_updating h (fun _ _ _ _ => returns_emit_return)
        fun _ _ _ hnew => .update hnew hactive
  | updatePriority =>
      obtain ⟨card, h⟩ := returns_discard.mp h
      exact effect_updatePriority h
  | updateStatus =>
      obtain ⟨card, h⟩ := returns_discard.mp h
      exact effect_updateStatus h
  | attachSubcard =>
      obtain ⟨card, h⟩ := returns_discard.mp h
      exact effect_attachSubcard h
  | detachSubcard =>
      obtain ⟨card, h⟩ := returns_discard.mp h
      obtain ⟨hactive, child, -, h⟩ := returns_onActiveCard h
      obtain ⟨-, h⟩ := returns_refuseIf_bind.mp h
      exact effect_of_updating h (fun _ _ _ _ => returns_emit_return)
        fun _ _ _ hnew => .detachSubcard hnew hactive
  | move =>
      obtain ⟨card, h⟩ := returns_discard.mp h
      exact effect_move h
  | archive =>
      obtain ⟨hactive, card, hcard, h⟩ := returns_onActiveCard h
      apply effect_of_updating h fun _ _ _ _ h => (returns_emit.mp h).symm
      intro old new hold hnew
      rw [row_eq_of_found hcard hold]
      exact .archive hnew hactive
  | unarchive =>
      obtain ⟨card, h⟩ := returns_discard.mp h
      exact effect_unarchive h
  | deletePermanently =>
      exact effect_deletePermanently h
  | addAssignee =>
      exact effect_addAssignee h
  | removeAssignee =>
      exact effect_removeAssignee h
  | addLabel =>
      exact effect_addLabel h
  | removeLabel =>
      exact effect_removeLabel h
  | createLabel =>
      obtain ⟨label, h⟩ := returns_discard.mp h
      obtain ⟨board, hboard, h⟩ := returns_find_bind.mp h
      exact effect_creatingLabel h (.createLabel (by rw [hboard]; rfl))
  | createWorkspaceLabel =>
      obtain ⟨label, h⟩ := returns_discard.mp h
      exact effect_creatingLabel h .createWorkspaceLabel

end Effects

section Acceptance
variable {α : Type} {env : Env} {w : World} {boardId workspaceId cardId : Uuid}

/-- An update that is not refused, with one event after it, returns. -/
theorem exists_updating {data : CardRow → CardRow}
    (h : ∃ card db, CardRepository.update w.db cardId data env.now = .ok (card, db))
    (event : Card → CardEvent) :
    ∃ card w', Returns (do
      let updated ← write (CardRepository.update · cardId data env.now)
      emit (event updated)
      return updated) w card w' := by
  obtain ⟨card, db, hupdate⟩ := h
  refine ⟨card, { w with db := db, events := w.events ++ [event card] }, ?_⟩
  apply returns_bind.mpr
  refine ⟨card, { w with db := db }, returns_write.mpr ⟨db, hupdate, rfl⟩, ?_⟩
  exact returns_bind.mpr ⟨(), _, returns_emit.mpr rfl, returns_pure.mpr ⟨rfl, rfl⟩⟩

/-- `attachSubcard` returns where its checks pass. -/
theorem exists_attachSubcard {parentId : UuidText} {userId : Uuid}
    (h : AttachAccepted w.db boardId workspaceId parentId cardId) :
    ∃ card w', Returns
      (CardService.attachSubcard env boardId workspaceId parentId cardId userId) w card w' := by
  obtain ⟨parent, hparent, hparentFree⟩ := h.parent
  obtain ⟨child, hchild, hchildFree⟩ := h.child
  obtain ⟨hparentRow, -, -⟩ := CardRepository.findActiveById_eq_some hparent
  obtain ⟨hrow, hid, -⟩ := CardRepository.findActiveById_eq_some hchild
  have hexists : w.db.cards.contains parentId.id = true :=
    (w.db.cards.contains_iff parentId.id).mpr ⟨_, hparentRow⟩
  have hupdate := CardRepository.exists_update
    (fun card => { card with parentCardId := some parentId.id }) hrow rfl rfl rfl
    (.inr (by simpa using hexists)) env.now
  obtain ⟨card, w', hupdating⟩ :=
    exists_updating hupdate fun _ => .subcardCreated parentId.id cardId boardId userId
  refine ⟨card, w', returns_verifyBoardInWorkspace_bind.mpr ⟨h.board, ?_⟩⟩
  refine returns_findCard_bind.mpr ⟨parent, hparent, ?_⟩
  refine returns_refuseIf_bind.mpr ⟨by simp [hparentFree], ?_⟩
  refine returns_findCard_bind.mpr ⟨child, hchild, ?_⟩
  refine returns_refuseIf_bind.mpr ⟨by simpa [hid] using h.distinct, ?_⟩
  refine returns_refuseIf_bind.mpr ⟨by simp [hchildFree], ?_⟩
  refine returns_query_bind.mpr (returns_refuseIf_bind.mpr ⟨?_, hupdating⟩)
  rw [hid, h.bare]
  rfl

/-- `unarchive` returns for every card of an active board. -/
theorem exists_unarchive {userId : Uuid} (h : OnAnyCard w.db boardId workspaceId cardId) :
    ∃ card w', Returns (CardService.unarchive env boardId workspaceId cardId userId)
      w card w' := by
  obtain ⟨found, hfound⟩ := Option.isSome_iff_exists.mp h.card
  obtain ⟨hrow, -⟩ := CardRepository.findByIdIncludingArchived_eq_some hfound
  have hupdate := CardRepository.exists_update
    (fun card => { card with archivedAt := none }) hrow rfl rfl rfl (.inl rfl) env.now
  obtain ⟨card, w', hupdating⟩ :=
    exists_updating hupdate fun card => .unarchived card boardId card.row.listId userId
  refine ⟨card, w', returns_verifyBoardInWorkspace_bind.mpr ⟨h.board, ?_⟩⟩
  exact returns_find_bind.mpr ⟨found, hfound, hupdating⟩

/-- `move` returns where its checks and the bound on the rank allow it. -/
theorem exists_move {dto : MoveCardDto} {userId : Uuid}
    (h : MoveAccepted env w.db boardId workspaceId cardId dto) :
    ∃ card w', Returns (CardService.move env boardId workspaceId cardId dto userId)
      w card w' := by
  obtain ⟨card, hcard⟩ := Option.isSome_iff_exists.mp h.card.card
  obtain ⟨target, htarget⟩ := Option.isSome_iff_exists.mp h.target
  obtain ⟨hrow, -, -⟩ := CardRepository.findActiveById_eq_some hcard
  obtain ⟨htargetRow, -⟩ := ListRepository.findActiveById_eq_some htarget
  obtain ⟨-, hcreator, hparent, -⟩ := w.db.wellFormed.cards cardId card.row hrow
  have hupdate := CardRepository.exists_update_of_accepted
    (fun card => { card with
      listId := dto.targetListId
      rank := LexorankService.rankOrInitial env.lexorank dto.prevRank dto.nextRank }) env.now hrow
    ⟨(w.db.lists.contains_iff dto.targetListId).mpr ⟨target, htargetRow⟩, hcreator, hparent,
      h.rank⟩
  obtain ⟨moved, w', hupdating⟩ := exists_updating hupdate fun _ =>
    .moved cardId boardId card.row.listId dto.targetListId
      (LexorankService.rankOrInitial env.lexorank dto.prevRank dto.nextRank) userId
  refine ⟨moved, w', returns_verifyBoardInWorkspace_bind.mpr ⟨h.card.board, ?_⟩⟩
  refine returns_findCard_bind.mpr ⟨card, hcard, ?_⟩
  exact returns_find_bind.mpr ⟨target, htarget, hupdating⟩

/-- `createSubcard` returns where its checks and the constraints of the row allow it. -/
theorem exists_createSubcard {parentId listId userId : Uuid} {dto : CreateCardDto}
    (h : SubcardAccepted env w.db boardId workspaceId parentId listId dto userId) :
    ∃ card w', Returns (CardService.createSubcard env boardId workspaceId parentId dto userId)
      w card w' := by
  obtain ⟨parent, hparent, hfree, rfl⟩ := h.parent
  obtain ⟨hrow, -, -⟩ := CardRepository.findActiveById_eq_some hparent
  obtain ⟨hlist, -, -, -⟩ := w.db.wellFormed.cards parentId parent.row hrow
  have haccepted : (CardService.newCard env dto parent.row.listId
      (CardService.rankAfterLast env w.db parent.row.listId) (some parentId) userId).Accepted
        w.db.toTables := by
    refine ⟨hlist, h.creator, ?_, h.rank⟩
    simpa [CardService.newCard] using (w.db.cards.contains_iff parentId).mpr ⟨_, hrow⟩
  obtain ⟨db₁, hinsert⟩ := Database.insertCard_of_accepted h.fresh haccepted
  obtain ⟨card, db', hcreate, -⟩ := CardRepository.create_ok env.now hinsert
    (fun u hu => WorkspaceService.isUserMember_user (h.assignees u hu))
    (fun l hl => labels_contains_of_available (h.labels l hl))
  refine ⟨card, { w with
    db := db', events := w.events ++ [.subcardCreated parentId card.id boardId userId] }, ?_⟩
  refine returns_verifyBoardInWorkspace_bind.mpr ⟨h.board, ?_⟩
  refine returns_findCard_bind.mpr ⟨parent, hparent, ?_⟩
  refine returns_refuseIf_bind.mpr ⟨by simp [hfree], ?_⟩
  refine returns_bind.mpr ⟨(), w, returns_validateAssignees.mpr ⟨h.assignees, rfl⟩, ?_⟩
  refine returns_bind.mpr ⟨(), w, returns_validateLabels.mpr ⟨h.labels, rfl⟩, ?_⟩
  refine returns_query_bind.mpr (returns_bind.mpr ⟨card, _, returns_write.mpr ⟨db', hcreate, rfl⟩, ?_⟩)
  exact returns_bind.mpr ⟨(), _, returns_emit.mpr rfl, returns_pure.mpr ⟨rfl, rfl⟩⟩

end Acceptance

end SyncBoard.Board
