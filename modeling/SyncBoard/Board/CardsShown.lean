import Mathlib.Data.List.Lex
import SyncBoard.Board.BoardPrograms
import SyncBoard.Board.ViewAgreement

/-!
# Active cards in lists that are gone

The views of every board agree as long as no active card of an active board is in an
archived or deleted list (`boardsAgree_iff`). Each of the statements that can bring this
about is compared with the rows that it finds (`KeepsShown`): a card that is created in
such a list, moved there or restored there, a list that is archived or deleted with its
active cards, and a board that is restored with such a card. A run keeps the views of
all boards together exactly where all its statements are of the other kind.
-/

namespace SyncBoard.Board

open Relational Interleaved Interleaved.Program Labelled

def BoardRow.isActive (board : BoardRow) : Bool :=
  board.archivedAt.isNone && board.deletedAt.isNone

/-- The views of every active board agree. -/
def BoardsAgree {C : Type} [LinearOrder C] (store : ViewStore C) (le : JsString → JsString → Bool)
    (db : Database) : Prop :=
  ∀ boardId workspaceId board,
    BoardRepository.findById db boardId (some workspaceId) = some board →
      ViewsAgree store le db boardId workspaceId

/-- If its board is active, the list is. -/
def ListShown (db : Database) (listId : Uuid) : Prop :=
  ∀ list board, db.lists.get? listId = some list → db.boards.get? list.boardId = some board →
    board.isActive = true → list.isActive = true

/-- Every active card is in a list that is shown with its board. -/
def CardsShown (db : Database) : Prop :=
  db.cards.All fun _ card => card.isActive = true → ListShown db card.listId

/-- No active card is in the list, if its board is active. -/
def Vacant (db : Database) (listId : Uuid) : Prop :=
  ∀ list board, db.lists.get? listId = some list → db.boards.get? list.boardId = some board →
    board.isActive = true → db.cards.All fun _ card =>
      card.listId = listId → card.isActive = false

/-- The statement leaves every active card in a list that is shown, where it is not
refused. -/
def BoardStatement.KeepsShown (ranking : Ranking) (x : Outside) (db : Database) :
    BoardStatement → Prop
  | .card (.subcard (.createCard dto listId rank parentCardId userId)) =>
      ∀ created, CardRepository.create db x.newId
        (CardService.newCard (x.env ranking) dto listId rank parentCardId userId)
        dto.assigneeIds dto.labelIds x.now = .ok created → ListShown db listId
  | .card (.subcard (.updateCard (.moveCard cardId targetListId newRank))) =>
      ∀ moved card, CardRepository.moveCard db cardId targetListId newRank x.now = .ok moved →
        db.cards.get? cardId = some card → card.isActive = true → ListShown db targetListId
  | .card (.subcard (.updateCard (.unarchive cardId))) =>
      ∀ card, db.cards.get? cardId = some card → card.deletedAt = none → ListShown db card.listId
  | .changeList (.archive listId) | .changeList (.deletePermanently listId) => Vacant db listId
  | .changeBoard (.unarchive boardId) =>
      ∀ board, db.boards.get? boardId = some board → board.deletedAt = none →
        db.cards.All fun _ card => ¬ Stray db boardId card
  | _ => True

section Views
variable {C : Type} [LinearOrder C] (store : ViewStore C) (le : JsString → JsString → Bool)
variable {db : Database}

theorem findById_eq_some {boardId workspaceId : Uuid} {board : BoardRow} :
    BoardRepository.findById db boardId (some workspaceId) = some board ↔
      db.boards.get? boardId = some board ∧ board.isActive = true ∧
        board.workspaceId = workspaceId := by
  rw [BoardRepository.findById, Option.filter_eq_some_iff, Option.all_some, Bool.and_eq_true,
    beq_iff_eq]
  rfl

/-- The views of all boards agree exactly where every active card is shown. -/
theorem boardsAgree_iff : BoardsAgree store le db ↔ CardsShown db := by
  constructor
  · intro h cardId card hcard hactive list board hlist hboard hboardActive
    have hfound : BoardRepository.findById db list.boardId (some board.workspaceId) = some board :=
      findById_eq_some.mpr ⟨hboard, hboardActive, rfl⟩
    have hstray := (viewsAgree_iff hfound).mp (h _ _ _ hfound) cardId card hcard
    by_contra hinactive
    rw [Bool.not_eq_true] at hinactive
    exact hstray ⟨hactive, list, hlist, rfl, hinactive⟩
  · intro h boardId workspaceId board hfound
    obtain ⟨hboard, hboardActive, -⟩ := findById_eq_some.mp hfound
    apply (viewsAgree_iff hfound).mpr
    rintro cardId card hcard ⟨hactive, list, hlist, rfl, hinactive⟩
    have hshown := h cardId card hcard hactive list board hlist hboard hboardActive
    rw [hinactive] at hshown
    cases hshown

end Views

section Rows
variable {db db' : Database} {id : Uuid}

/-- A written card has to be in a list that is shown. -/
theorem cardsShown_of_card {card : CardRow} (h : CardsShown db)
    (hcards : db.cards.Wrote db'.cards id card) (hlists : db'.lists = db.lists)
    (hboards : db'.boards = db.boards) :
    CardsShown db' ↔ (card.isActive = true → ListShown db card.listId) := by
  have hshown : ∀ listId, ListShown db' listId ↔ ListShown db listId := by
    intro listId
    rw [ListShown, ListShown, hlists, hboards]
  constructor
  · intro h' hactive
    exact (hshown _).mp (h' id card hcards.self hactive)
  · intro hcard cardId card' hcard' hactive
    rw [hshown]
    rcases hcards.eq_or_old hcard' with ⟨rfl, rfl⟩ | ⟨-, hold⟩
    · exact hcard hactive
    · exact h cardId card' hold hactive

/-- A written list has to be active where it holds active cards of an active board. -/
theorem cardsShown_of_list {list : ListRow} (h : CardsShown db)
    (hlists : db.lists.Wrote db'.lists id list) (hcards : db'.cards = db.cards)
    (hboards : db'.boards = db.boards) :
    CardsShown db' ↔ (list.isActive = true ∨
      ∀ board, db.boards.get? list.boardId = some board → board.isActive = true →
        db.cards.All fun _ card => card.listId = id → card.isActive = false) := by
  constructor
  · intro h'
    by_cases hlist : list.isActive = true
    · exact .inl hlist
    · refine .inr fun board hboard hboardActive cardId card hcard hid => ?_
      subst hid
      by_contra hactive
      rw [Bool.not_eq_false] at hactive
      rw [← hcards] at hcard
      rw [← hboards] at hboard
      exact hlist (h' cardId card hcard hactive list board hlists.self hboard hboardActive)
  · intro hlist cardId card hcard hactive list' board hlist' hboard hboardActive
    rw [hcards] at hcard
    rw [hboards] at hboard
    rcases hlists.eq_or_old hlist' with ⟨hid, rfl⟩ | ⟨-, hold⟩
    · rcases hlist with hlist | hnone
      · exact hlist
      · have hinactive := hnone board hboard hboardActive cardId card hcard hid
        rw [hactive] at hinactive
        cases hinactive
    · exact h cardId card hcard hactive list' board hold hboard hboardActive

/-- A written board has to be without strays where it is active. -/
theorem cardsShown_of_board {board : BoardRow} (h : CardsShown db)
    (hboards : db.boards.Wrote db'.boards id board) (hcards : db'.cards = db.cards)
    (hlists : db'.lists = db.lists) :
    CardsShown db' ↔
      (board.isActive = true → db.cards.All fun _ card => ¬ Stray db id card) := by
  constructor
  · rintro h' hboard cardId card hcard ⟨hactive, list, hlist, rfl, hinactive⟩
    rw [← hcards] at hcard
    rw [← hlists] at hlist
    have hshown := h' cardId card hcard hactive list board hlist hboards.self hboard
    rw [hinactive] at hshown
    cases hshown
  · intro hnone cardId card hcard hactive list board' hlist hboard' hboardActive
    rw [hcards] at hcard
    rw [hlists] at hlist
    rcases hboards.eq_or_old hboard' with ⟨hid, rfl⟩ | ⟨-, hold⟩
    · by_contra hinactive
      rw [Bool.not_eq_true] at hinactive
      exact hnone hboardActive cardId card hcard ⟨hactive, list, hlist, hid, hinactive⟩
    · exact h cardId card hcard hactive list board' hlist hold hboardActive

end Rows

section Statements
variable {w : World} {id : Uuid} {now : Timestamp} {ranking : Ranking} {x : Outside}

/-- An update of a card that moves or restores it brings it into a list that is shown. -/
theorem cardsShown_updateCard (h : CardsShown w.db) (data : CardRow → CardRow) :
    CardsShown (w.write (CardRepository.update w.db id data now)).2.db ↔
      ∀ updated card, CardRepository.update w.db id data now = .ok updated →
        w.db.cards.get? id = some card → (data card).isActive = true →
          ListShown w.db (data card).listId := by
  cases hupdate : CardRepository.update w.db id data now with
  | error e =>
      refine iff_of_true h fun updated card hok => ?_
      cases hok
  | ok updated =>
      obtain ⟨card, db'⟩ := updated
      obtain ⟨old, hold, -, hwrote, hboards, hlists⟩ := CardRepository.update_wrote hupdate
      rw [World.write, cardsShown_of_card h hwrote hlists hboards]
      constructor
      · intro hshown _ card hok hcard
        obtain rfl := Option.some.inj (hold.symm.trans hcard)
        exact hshown
      · intro hshown
        exact hshown _ old rfl hold

/-- An update that neither moves nor restores a card keeps it shown. -/
theorem cardsShown_of_kept (h : CardsShown w.db) {data : CardRow → CardRow}
    (hdata : ∀ card, (data card).isActive = true →
      card.isActive = true ∧ (data card).listId = card.listId) :
    CardsShown (w.write (CardRepository.update w.db id data now)).2.db := by
  apply (cardsShown_updateCard h data).mpr
  intro _ card _ hcard hactive
  obtain ⟨hbefore, hlist⟩ := hdata card hactive
  rw [hlist]
  exact h id card hcard hbefore

/-- An update of a list keeps it active, or finds no active card in it. -/
theorem cardsShown_updateList (h : CardsShown w.db) (data : ListRow → ListRow)
    (hboard : ∀ list, (data list).boardId = list.boardId) :
    CardsShown (w.write (ListRepository.update w.db id data now)).2.db ↔
      ∀ updated list, ListRepository.update w.db id data now = .ok updated →
        w.db.lists.get? id = some list → (data list).isActive = true ∨ Vacant w.db id := by
  cases hupdate : ListRepository.update w.db id data now with
  | error e =>
      refine iff_of_true h fun updated list hok => ?_
      cases hok
  | ok updated =>
      obtain ⟨list, db'⟩ := updated
      obtain ⟨old, hold, -, hwrote, hboards, hcards⟩ := ListRepository.update_wrote hupdate
      rw [World.write, cardsShown_of_list h hwrote hcards hboards]
      have hvacant : Vacant w.db id ↔ ∀ board,
          w.db.boards.get? (data old).boardId = some board → board.isActive = true →
            w.db.cards.All fun _ card => card.listId = id → card.isActive = false := by
        rw [hboard]
        constructor
        · intro hvacant board
          exact hvacant old board hold
        · intro hvacant list board hlist
          obtain rfl := Option.some.inj (hold.symm.trans hlist)
          exact hvacant board
      rw [hvacant]
      constructor
      · intro hshown _ list hok hlist
        obtain rfl := Option.some.inj (hold.symm.trans hlist)
        exact hshown
      · intro hshown
        exact hshown _ old rfl hold

/-- An update that leaves an active list active keeps the cards shown. -/
theorem cardsShown_of_keptList (h : CardsShown w.db) {data : ListRow → ListRow}
    (hboard : ∀ list, (data list).boardId = list.boardId)
    (hdata : ∀ list, list.isActive = true → (data list).isActive = true) :
    CardsShown (w.write (ListRepository.update w.db id data now)).2.db := by
  apply (cardsShown_updateList h data hboard).mpr
  intro _ list _ hlist
  by_cases hactive : list.isActive = true
  · exact .inl (hdata list hactive)
  · refine .inr fun list' board hlist' hboard hboardActive cardId card hcard hid => ?_
    obtain rfl := Option.some.inj (hlist.symm.trans hlist')
    subst hid
    by_contra hcardActive
    rw [Bool.not_eq_false] at hcardActive
    exact hactive (h cardId card hcard hcardActive list board hlist hboard hboardActive)

/-- A list that is archived or deleted is vacant. -/
theorem cardsShown_of_gone (h : CardsShown w.db) (data : ListRow → ListRow)
    (hboard : ∀ list, (data list).boardId = list.boardId)
    (hrank : ∀ list, (data list).rank = list.rank)
    (hdata : ∀ list, (data list).isActive = false) :
    CardsShown (w.write (ListRepository.update w.db id data now)).2.db ↔ Vacant w.db id := by
  rw [cardsShown_updateList h data hboard]
  constructor
  · intro hgone list board hlist
    obtain ⟨updated, db', hupdate⟩ :=
      ListRepository.exists_update data hlist (hboard list) (hrank list) now
    rcases hgone _ list hupdate hlist with hactive | hvacant
    · rw [hdata] at hactive
      cases hactive
    · exact hvacant list board hlist
  · intro hvacant _ list _ _
    exact .inr hvacant

/-- An update of a board leaves it inactive, or finds no stray card on it. -/
theorem cardsShown_updateBoard (h : CardsShown w.db) (data : BoardRow → BoardRow) :
    CardsShown (w.write (BoardRepository.update w.db id data now)).2.db ↔
      ∀ updated board, BoardRepository.update w.db id data now = .ok updated →
        w.db.boards.get? id = some board → (data board).isActive = true →
          w.db.cards.All fun _ card => ¬ Stray w.db id card := by
  cases hupdate : BoardRepository.update w.db id data now with
  | error e =>
      refine iff_of_true h fun updated board hok => ?_
      cases hok
  | ok updated =>
      obtain ⟨board, db'⟩ := updated
      obtain ⟨old, hold, -, hwrote, hlists, hcards⟩ := BoardRepository.update_wrote hupdate
      rw [World.write, cardsShown_of_board h hwrote hcards hlists]
      constructor
      · intro hnone _ board hok hboard
        obtain rfl := Option.some.inj (hold.symm.trans hboard)
        exact hnone
      · intro hnone
        exact hnone _ old rfl hold

/-- On an active board there is no stray card. -/
theorem cardsShown_of_keptBoard (h : CardsShown w.db) {data : BoardRow → BoardRow}
    (hdata : ∀ board, (data board).isActive = true → board.isActive = true) :
    CardsShown (w.write (BoardRepository.update w.db id data now)).2.db := by
  apply (cardsShown_updateBoard h data).mpr
  rintro _ board _ hboard hactive cardId card hcard ⟨hcardActive, list, hlist, rfl, hinactive⟩
  have hshown := h cardId card hcard hcardActive list board hlist hboard (hdata board hactive)
  rw [hinactive] at hshown
  cases hshown

/-- A write to other tables. -/
theorem cardsShown_of_same {db db' : Database} (h : CardsShown db)
    (hsame : db'.cards = db.cards ∧ db'.boards = db.boards ∧ db'.lists = db.lists) :
    CardsShown db' := by
  intro cardId card hcard hactive list board hlist hboard
  rw [hsame.1] at hcard
  rw [hsame.2.2] at hlist
  rw [hsame.2.1] at hboard
  exact h cardId card hcard hactive list board hlist hboard

theorem keepsShown_updateCard (h : CardsShown w.db) (update : CardUpdate) :
    CardsShown (w.write (update.run w.db x.now)).2.db ↔
      (BoardStatement.card (.subcard (.updateCard update))).KeepsShown ranking x w.db := by
  cases update with
  | attachSubcard | detachSubcard =>
      exact iff_of_true (cardsShown_of_kept h fun _ hactive => ⟨hactive, rfl⟩) trivial
  | archive =>
      apply iff_of_true (cardsShown_of_kept h fun card hactive => ?_) trivial
      cases hactive
  | moveCard cardId targetListId newRank =>
      exact cardsShown_updateCard h _
  | unarchive cardId =>
      refine (cardsShown_updateCard h fun card => { card with archivedAt := none }).trans ?_
      constructor
      · intro hshown card hcard hdeleted
        obtain ⟨restored, db', hok⟩ := CardRepository.exists_update
          (fun card => { card with archivedAt := none }) hcard rfl rfl rfl (.inl rfl) x.now
        exact hshown _ card hok hcard (by simp [CardRow.isActive, hdeleted])
      · intro hshown _ card _ hcard hactive
        exact hshown card hcard (by simpa [CardRow.isActive] using hactive)

theorem cardsShown_changeCard (h : CardsShown w.db) (change : CardChange) :
    CardsShown (w.write (change.run w.db x.now)).2.db := by
  rw [CardChange.run_eq]
  apply cardsShown_of_kept h
  intro card hactive
  cases change with
  | update | updatePriority | updateStatus => exact ⟨hactive, rfl⟩
  | deletePermanently => simp [CardChange.data, CardRow.isActive] at hactive

theorem keepsShown_createCard (h : CardsShown w.db) (dto : CreateCardDto) (listId : Uuid)
    (rank : JsString) (parentCardId : Option Uuid) (userId : Uuid) :
    CardsShown (w.write (CardRepository.create w.db x.newId
        (CardService.newCard (x.env ranking) dto listId rank parentCardId userId)
        dto.assigneeIds dto.labelIds x.now)).2.db ↔
      (BoardStatement.card (.subcard
        (.createCard dto listId rank parentCardId userId))).KeepsShown ranking x w.db := by
  rw [BoardStatement.KeepsShown]
  cases hcreate : CardRepository.create w.db x.newId
      (CardService.newCard (x.env ranking) dto listId rank parentCardId userId)
      dto.assigneeIds dto.labelIds x.now with
  | error e =>
      refine iff_of_true h fun created hok => ?_
      cases hok
  | ok created =>
      obtain ⟨card, db'⟩ := created
      obtain ⟨-, -, -, -, hwrote, hboards, hlists⟩ := CardRepository.create_wrote hcreate
      rw [World.write, cardsShown_of_card h hwrote hlists hboards]
      constructor
      · intro hshown _ _
        exact hshown rfl
      · intro hshown _
        exact hshown _ rfl

theorem keepsShown_changeList (h : CardsShown w.db) (change : ListChange) :
    CardsShown (w.write (change.run (x.env ranking) w.db)).2.db ↔
      (BoardStatement.changeList change).KeepsShown ranking x w.db := by
  cases change with
  | create boardId dto rank =>
      refine iff_of_true ?_ trivial
      simp only [ListChange.run]
      cases hcreate : ListRepository.create w.db (x.env ranking).newId
          (ListService.newList (x.env ranking) boardId dto rank) with
      | error e => exact h
      | ok created =>
          obtain ⟨list, db'⟩ := created
          obtain ⟨-, -, hwrote, hboards, hcards⟩ := ListRepository.create_wrote hcreate
          exact (cardsShown_of_list h hwrote hcards hboards).mpr (.inl rfl)
  | update | move =>
      exact iff_of_true (cardsShown_of_keptList h (fun _ => rfl) fun _ hactive => hactive) trivial
  | unarchive =>
      refine iff_of_true (cardsShown_of_keptList h (fun _ => rfl) fun list hactive => ?_) trivial
      exact (Bool.and_eq_true_iff.mp hactive).2
  | archive =>
      exact cardsShown_of_gone h (fun list => { list with archivedAt := some x.now })
        (fun _ => rfl) (fun _ => rfl) fun _ => rfl
  | deletePermanently =>
      exact cardsShown_of_gone h (fun list => { list with deletedAt := some x.now })
        (fun _ => rfl) (fun _ => rfl) fun _ => Bool.and_false _

theorem keepsShown_changeBoard (h : CardsShown w.db) (change : BoardChange) :
    CardsShown (w.write (change.run (x.env ranking) w.db)).2.db ↔
      (BoardStatement.changeBoard change).KeepsShown ranking x w.db := by
  cases change with
  | create workspaceId dto userId =>
      refine iff_of_true ?_ trivial
      simp only [BoardChange.run]
      cases hcreate : BoardRepository.create w.db (x.env ranking).newId
          (BoardService.newBoard (x.env ranking) workspaceId dto userId) with
      | error e => exact h
      | ok created =>
          obtain ⟨board, db'⟩ := created
          obtain ⟨hfresh, -, hwrote, hlists, hcards⟩ := BoardRepository.create_wrote hcreate
          apply (cardsShown_of_board h hwrote hcards hlists).mpr
          -- no list is on a board that has not been there
          rintro - cardId card hcard ⟨-, list, hlist, hboard, -⟩
          have hexists := (w.db.wellFormed.lists _ _ hlist).1
          rw [hboard, Table.contains, hfresh] at hexists
          cases hexists
  | update =>
      exact iff_of_true (cardsShown_of_keptBoard h fun _ hactive => hactive) trivial
  | archive =>
      refine iff_of_true (cardsShown_of_keptBoard h fun board hactive => ?_) trivial
      cases hactive
  | deletePermanently =>
      refine iff_of_true (cardsShown_of_keptBoard h fun board hactive => ?_) trivial
      cases (Bool.and_false _).symm.trans hactive
  | unarchive boardId =>
      refine (cardsShown_updateBoard h fun board => { board with archivedAt := none }).trans ?_
      constructor
      · intro hnone board hboard hdeleted
        obtain ⟨restored, db', hok⟩ := BoardRepository.exists_update
          (fun board => { board with archivedAt := none }) hboard rfl rfl x.now
        exact hnone _ board hok hboard (by simp [BoardRow.isActive, hdeleted])
      · intro hnone _ board _ hboard hactive
        exact hnone board hboard (by simpa [BoardRow.isActive] using hactive)

theorem cardsShown_changeLink (h : CardsShown w.db) (change : LinkChange) :
    CardsShown (w.write (change.run (x.env ranking) w.db)).2.db := by
  have hlinks : ∀ {db : Database} {cardId : Uuid}, OnlyLinks w.db db cardId →
      db.cards = w.db.cards ∧ db.boards = w.db.boards ∧ db.lists = w.db.lists :=
    fun honly => ⟨honly.allCards, honly.boards, honly.lists⟩
  cases change with
  | addAssignee cardId userId =>
      rw [LinkChange.run]
      cases hadd : w.db.upsertCardAssignee cardId userId (x.env ranking).now with
      | error e => exact h
      | ok db => exact cardsShown_of_same h (hlinks (Database.upsertCardAssignee_links hadd))
  | addLabel cardId labelId =>
      rw [LinkChange.run]
      cases hadd : w.db.upsertCardLabel cardId labelId with
      | error e => exact h
      | ok db => exact cardsShown_of_same h (hlinks (Database.upsertCardLabel_links hadd))
  | removeAssignee cardId userId =>
      exact cardsShown_of_same h (hlinks (onlyLinks_deleteCardAssignee w.db cardId userId))
  | removeLabel cardId labelId =>
      exact cardsShown_of_same h (hlinks (onlyLinks_deleteCardLabel w.db cardId labelId))
  | starBoard userId boardId =>
      rw [LinkChange.run, BoardRepository.starBoard, Database.upsertStar]
      split
      · split
        · exact cardsShown_of_same h ⟨rfl, rfl, rfl⟩
        · exact h
      · exact h
  | unstarBoard => exact cardsShown_of_same h ⟨rfl, rfl, rfl⟩

theorem cardsShown_createLabel (h : CardsShown w.db) (data : LabelRow) (cardId : Option Uuid) :
    CardsShown (w.write (LabelRepository.createWithCard w.db id data cardId)).2.db := by
  cases hcreate : LabelRepository.createWithCard w.db id data cardId with
  | error e => exact h
  | ok created =>
      obtain ⟨label, db'⟩ := created
      exact cardsShown_of_same h (LabelRepository.createWithCard_kept hcreate)

/-- A statement leaves every active card shown exactly where it is one that does. -/
theorem keepsShown_iff (h : CardsShown w.db) (op : BoardStatement) :
    CardsShown (boardAnswer ranking x op w).2.db ↔ op.KeepsShown ranking x w.db := by
  cases op with
  | card op =>
      cases op with
      | subcard op =>
          cases op with
          | createCard dto listId rank parentCardId userId =>
              exact keepsShown_createCard h dto listId rank parentCardId userId
          | updateCard update => exact keepsShown_updateCard h update
          | _ => exact iff_of_true h trivial
      | findCardIncludingDeleted => exact iff_of_true h trivial
      | changeCard change => exact iff_of_true (cardsShown_changeCard h change) trivial
  | changeList change => exact keepsShown_changeList h change
  | changeBoard change => exact keepsShown_changeBoard h change
  | changeLink change => exact iff_of_true (cardsShown_changeLink h change) trivial
  | createLabel => exact iff_of_true (cardsShown_createLabel h _ _) trivial
  | _ => exact iff_of_true h trivial

end Statements

/-- The calls of all board services, which interleave. -/
abbrev BoardPool := Pool BoardStatement BoardAnswer AppError Operation World

/-- The next statement leaves every active card in a list that is shown. -/
def MoveKeepsShown (ranking : Ranking) : BoardPool → Move Operation Outside → Prop :=
  Pool.OnStatement fun _ x w _ op => op.KeepsShown ranking x w.db

theorem cardsShown_step {ranking : Ranking} {p p' : BoardPool} {m : Move Operation Outside}
    (h : CardsShown p.store.db)
    (hstep : p.step (boardAnswer ranking) (Operation.program ranking) m = some p') :
    CardsShown p'.store.db ↔ MoveKeepsShown ranking p m := by
  cases m with
  | start call =>
      obtain rfl := Pool.step_start.mp hstep
      exact iff_of_true h trivial
  | resume i x =>
      obtain ⟨task, op, next, hasks, rfl⟩ := Pool.step_resume.mp hstep
      rw [MoveKeepsShown, Pool.onStatement_of_asks hasks]
      exact keepsShown_iff h op

/-- In every state of a run the table view, the timeline and the content of every active
board show the same cards, and count them, exactly where no statement of the run leaves an
active card of an active board in an archived or deleted list. -/
theorem viewsAgree_iff_keepsShown {C : Type} [LinearOrder C] (store : ViewStore C)
    (ranking : Ranking) {w : World} (h : BoardsAgree store ranking.rankLe w.db)
    {ms : List (Move Operation Outside)} {p : BoardPool}
    (run : Run (Pool.step (boardAnswer ranking) (Operation.program ranking)) { store := w } ms p) :
    AllStates (Pool.step (boardAnswer ranking) (Operation.program ranking))
        (fun p => BoardsAgree store ranking.rankLe p.store.db) { store := w } ms ↔
      AllSteps (Pool.step (boardAnswer ranking) (Operation.program ranking))
        (MoveKeepsShown ranking) { store := w } ms := by
  simp only [boardsAgree_iff] at h ⊢
  exact allStates_iff_allSteps (I := fun _ => True) (fun _ _ _ _ _ => trivial)
    (fun _ _ _ _ hshown hstep => cardsShown_step hshown hstep) run trivial h

theorem cardsShown_oneBoard : CardsShown oneBoard := by
  intro cardId card hcard
  cases hcard

/-- Titles collated by their code units, and cards created at the same time. -/
def codeUnitOrder : ViewStore JsString where
  collate := id
  contains search title := decide (search <:+: title)
  createdAt _ := 0

/-- Card 40 is created and archived, and then its list. -/
def cardArchivedFirst : List (Move Operation Outside) :=
  List.flatten [
    [.start (.card (.create 20 1 30 { title := js "Ship" } 7))],
    List.replicate 4 (.resume 0 (withId 40)),
    [.start (.card (.archive 20 1 40 7)), .start (.list (.archive 20 1 30 7))],
    List.replicate 4 (.resume 1 (withId 0)),
    List.replicate 4 (.resume 2 (withId 0))]

theorem viewsAgree_iff_keepsShown_cardArchivedFirst :
    AllStates (Pool.step (boardAnswer firstRanks) (Operation.program firstRanks))
        (fun p => BoardsAgree codeUnitOrder firstRanks.rankLe p.store.db)
        { store := { db := oneBoard } } cardArchivedFirst ↔
      AllSteps (Pool.step (boardAnswer firstRanks) (Operation.program firstRanks))
        (MoveKeepsShown firstRanks) { store := { db := oneBoard } } cardArchivedFirst := by
  obtain ⟨p, hp⟩ : ∃ p, exec (Pool.step (boardAnswer firstRanks) (Operation.program firstRanks))
      { store := { db := oneBoard } } cardArchivedFirst = some p :=
    Option.isSome_iff_exists.mp (by decide +kernel)
  have hstart : BoardsAgree codeUnitOrder firstRanks.rankLe oneBoard :=
    (boardsAgree_iff _ _).mpr cardsShown_oneBoard
  exact viewsAgree_iff_keepsShown codeUnitOrder firstRanks hstart (run_of_exec hp)

/-- Card 40 is created, and then its list is archived. -/
def listArchivedWithCard : List (Move Operation Outside) :=
  List.flatten [
    [.start (.card (.create 20 1 30 { title := js "Ship" } 7))],
    List.replicate 4 (.resume 0 (withId 40)),
    [.start (.list (.archive 20 1 30 7))],
    List.replicate 4 (.resume 1 (withId 0))]

/-- The table view and the timeline still show the card, and the content does not. -/
theorem listArchivedWithCard_disagrees : ¬ ∀ {C : Type} [LinearOrder C] (store : ViewStore C)
    (ranking : Ranking) (w : World), BoardsAgree store ranking.rankLe w.db →
      ∀ (ms : List (Move Operation Outside)) (p : BoardPool),
        Run (Pool.step (boardAnswer ranking) (Operation.program ranking)) { store := w } ms p →
          BoardsAgree store ranking.rankLe p.store.db := by
  intro hall
  have hstart : BoardsAgree codeUnitOrder firstRanks.rankLe oneBoard :=
    (boardsAgree_iff _ _).mpr cardsShown_oneBoard
  have hrows : (exec (Pool.step (boardAnswer firstRanks) (Operation.program firstRanks))
      { store := { db := oneBoard } } listArchivedWithCard).map
        (fun p => ((p.store.db.cards.get? 40).map fun card => (card.listId, card.isActive),
          (p.store.db.lists.get? 30).map fun list => (list.boardId, list.isActive),
          (p.store.db.boards.get? 20).map fun board => board.isActive)) =
      some (some (30, true), some (20, false), some true) := by
    decide +kernel
  obtain ⟨p, hp, heq⟩ := Option.map_eq_some_iff.mp hrows
  obtain ⟨hcard, hlist, hboard⟩ : (p.store.db.cards.get? 40).map
        (fun card => (card.listId, card.isActive)) = some (30, true) ∧
      (p.store.db.lists.get? 30).map (fun list => (list.boardId, list.isActive)) =
        some (20, false) ∧
      (p.store.db.boards.get? 20).map (fun board => board.isActive) = some true := by
    simpa using heq
  obtain ⟨card, hcard, hcardEq⟩ := Option.map_eq_some_iff.mp hcard
  obtain ⟨list, hlist, hlistEq⟩ := Option.map_eq_some_iff.mp hlist
  obtain ⟨board, hboard, hactive⟩ := Option.map_eq_some_iff.mp hboard
  obtain ⟨hlistId, hcardActive⟩ := Prod.mk.inj hcardEq
  obtain ⟨hboardId, hinactive⟩ := Prod.mk.inj hlistEq
  have hagree := hall codeUnitOrder firstRanks { db := oneBoard } hstart _ _ (run_of_exec hp)
  have hshown := (boardsAgree_iff _ _).mp hagree 40 card hcard hcardActive list board
    (hlistId ▸ hlist) (hboardId ▸ hboard) hactive
  rw [hinactive] at hshown
  cases hshown

end SyncBoard.Board
