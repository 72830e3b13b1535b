import SyncBoard.Board.CardPrograms
import SyncBoard.Board.SubcardDepth
import SyncBoard.Lib.Links

/-!
# Cycles of subcards

The checks of `attachSubcard` are reads, and its update comes later, so two calls can
each see the other's card as a free root. The results compare what becomes of the
hierarchy in a pool of calls with where the parent of an attach stands when its
update is made.

## Implementation notes

`hierarchyDiscipline` is what the calls rely on between their statements: no list and
no card changes its board. A card and its parent stay on one board whatever the
interleaving; only cycles need a condition.
-/

namespace SyncBoard.Board

open Relational Interleaved Interleaved.Program Labelled Links Relation

/-- The card has the parent. -/
def ParentOf (db : Database) (cardId parentId : Uuid) : Prop :=
  ∃ card, db.cards.get? cardId = some card ∧ card.parentCardId = some parentId

/-- A card and its parent are on the same board. -/
def SameBoard (db : Database) : Prop :=
  ∀ cardId parentId, ParentOf db cardId parentId →
    ∃ boardId, boardOf db cardId = some boardId ∧ boardOf db parentId = some boardId

/-- The hierarchy has no cycle and stays on its boards. -/
structure Hierarchy (db : Database) : Prop where
  acyclic : Acyclic (ParentOf db)
  sameBoard : SameBoard db

namespace Statement

/-- What a statement brings together is on one board. -/
def OnOneBoard (db : Database) : Statement → Prop
  | .createCard _ listId _ parentCardId _ => ∀ p ∈ parentCardId, ∃ list,
      db.lists.get? listId = some list ∧ boardOf db p = some list.boardId
  | .updateCard (.attachSubcard childId parentId) => ∃ boardId,
      boardOf db childId = some boardId ∧ boardOf db parentId = some boardId
  | .updateCard (.moveCard cardId targetListId _) => ∃ list,
      db.lists.get? targetListId = some list ∧ boardOf db cardId = some list.boardId
  | _ => True

/-- The update of an attach does not put a card below itself or below a card that is
below it. -/
def ClosesNoCycle (db : Database) : Statement → Prop
  | .updateCard (.attachSubcard childId parentId) =>
      ¬ ReflTransGen (ParentOf db) parentId childId
  | _ => True

/-- A statement that gives no card a parent or a list. -/
def Plain : Statement → Prop
  | .createCard _ _ _ _ _ | .updateCard (.attachSubcard _ _)
  | .updateCard (.moveCard _ _ _) => False
  | _ => True

theorem Plain.onOneBoard {db : Database} {op : Statement} (h : op.Plain) : op.OnOneBoard db := by
  cases op with
  | createCard => cases h
  | updateCard update =>
      cases update with
      | attachSubcard | moveCard => cases h
      | _ => trivial
  | _ => trivial

end Statement

namespace CardUpdate

/-- The card of an update. -/
def cardId : CardUpdate → Uuid
  | .attachSubcard childId _ => childId
  | .detachSubcard childId => childId
  | .moveCard cardId _ _ => cardId
  | .archive cardId => cardId
  | .unarchive cardId => cardId

/-- The data of an update. -/
def data (now : Timestamp) : CardUpdate → CardRow → CardRow
  | .attachSubcard _ parentId, card => { card with parentCardId := some parentId }
  | .detachSubcard _, card => { card with parentCardId := none }
  | .moveCard _ targetListId newRank, card =>
      { card with listId := targetListId, rank := newRank }
  | .archive _, card => { card with archivedAt := some now }
  | .unarchive _, card => { card with archivedAt := none }

theorem run_eq (update : CardUpdate) (db : Database) (now : Timestamp) :
    update.run db now = CardRepository.update db update.cardId (update.data now) now := by
  cases update <;> rfl

end CardUpdate

/-- The row that a statement writes, under which id and over which row. -/
inductive StatementWrite (ranking : Ranking) (x : Outside) :
    Statement → Uuid → Option CardRow → CardRow → Prop
  | createCard {dto : CreateCardDto} {listId userId : Uuid} {rank : JsString}
      {parentCardId : Option Uuid} :
      StatementWrite ranking x (.createCard dto listId rank parentCardId userId) x.newId none
        (CardService.newCard (x.env ranking) dto listId rank parentCardId userId)
  | updateCard {update : CardUpdate} {old : CardRow} :
      StatementWrite ranking x (.updateCard update) update.cardId (some old)
        { update.data x.now old with updatedAt := x.now }

/-- The statement has written the row to the cards, and changed no list. -/
structure Written (ranking : Ranking) (x : Outside) (op : Statement) (db db' : Database)
    (cardId : Uuid) (old : Option CardRow) (new : CardRow) : Prop where
  write : StatementWrite ranking x op cardId old new
  before : db.cards.get? cardId = old
  cards : db.cards.Wrote db'.cards cardId new
  lists : db'.lists = db.lists

section Answers
variable (ranking : Ranking) (x : Outside) {w : World}

/-- A statement writes one card, or leaves the database as it was. -/
theorem answer_cases (op : Statement) (w : World) :
    (answer ranking x op w).2.db = w.db ∨ ∃ cardId old new,
      Written ranking x op w.db (answer ranking x op w).2.db cardId old new := by
  cases op with
  | createCard dto listId rank parentCardId userId =>
      simp only [answer, World.write]
      cases hcreate : CardRepository.create w.db x.newId
          (CardService.newCard (x.env ranking) dto listId rank parentCardId userId)
          dto.assigneeIds dto.labelIds x.now with
      | error e => exact .inl rfl
      | ok created =>
          obtain ⟨card, db⟩ := created
          obtain ⟨hfresh, -, -, -, hwrote, -, hlists⟩ := CardRepository.create_wrote hcreate
          exact .inr ⟨_, _, _, .createCard, hfresh, hwrote, hlists⟩
  | updateCard update =>
      simp only [answer, World.write]
      cases hupdate : update.run w.db x.now with
      | error e => exact .inl rfl
      | ok updated =>
          obtain ⟨card, db⟩ := updated
          rw [CardUpdate.run_eq] at hupdate
          obtain ⟨old, hold, -, hwrote, -, hlists⟩ := CardRepository.update_wrote hupdate
          exact .inr ⟨_, _, _, .updateCard, hold, hwrote, hlists⟩
  | _ => exact .inl rfl

/-- The update of an attach is not refused where both cards exist. -/
theorem written_attachSubcard {childId parentId : Uuid} {old : CardRow}
    (hold : w.db.cards.get? childId = some old)
    (hparent : w.db.cards.contains parentId = true) :
    Written ranking x (.updateCard (.attachSubcard childId parentId)) w.db
      (answer ranking x (.updateCard (.attachSubcard childId parentId)) w).2.db childId (some old)
      { old with parentCardId := some parentId, updatedAt := x.now } := by
  obtain ⟨card, db, hupdate⟩ := CardRepository.exists_update
    (fun card => { card with parentCardId := some parentId }) hold rfl rfl rfl (.inr hparent) x.now
  obtain ⟨old', hold', -, hwrote, -, hlists⟩ := CardRepository.update_wrote hupdate
  obtain rfl := Option.some.inj (hold.symm.trans hold')
  have hanswer : (answer ranking x (.updateCard (.attachSubcard childId parentId)) w).2.db = db := by
    have hrun : (CardUpdate.attachSubcard childId parentId).run w.db x.now = .ok (card, db) :=
      hupdate
    simp only [answer, World.write, hrun]
  rw [hanswer]
  exact ⟨.updateCard, hold, hwrote, hlists⟩

end Answers

/-- No card changes its board, and no list changes. -/
structure KeepsBoards (db db' : Database) : Prop where
  lists : db'.lists = db.lists
  cards : ∀ cardId boardId, boardOf db cardId = some boardId → boardOf db' cardId = some boardId

theorem KeepsBoards.refl (db : Database) : KeepsBoards db db :=
  ⟨rfl, fun _ _ h => h⟩

theorem KeepsBoards.trans {db₁ db₂ db₃ : Database} (h : KeepsBoards db₁ db₂)
    (h' : KeepsBoards db₂ db₃) : KeepsBoards db₁ db₃ :=
  ⟨h'.lists.trans h.lists, fun c b hb => h'.cards c b (h.cards c b hb)⟩

section Boards
variable {ranking : Ranking} {x : Outside} {op : Statement} {db db' : Database} {cardId : Uuid}
variable {old : Option CardRow} {new : CardRow}

/-- The board of the card written is that of its list. -/
theorem Written.boardOf_self (h : Written ranking x op db db' cardId old new) {list : ListRow}
    (hlist : db.lists.get? new.listId = some list) : boardOf db' cardId = some list.boardId := by
  apply boardOf_eq_some.mpr
  exact ⟨new, list, h.cards.self, h.lists ▸ hlist, rfl⟩

/-- A statement that moves no card to the list of another board keeps the boards. -/
theorem Written.keepsBoards (h : Written ranking x op db db' cardId old new)
    (hop : op.OnOneBoard db) : KeepsBoards db db' := by
  refine ⟨h.lists, fun c b hb => ?_⟩
  obtain ⟨card, list, hcard, hlist, hboard⟩ := boardOf_eq_some.mp hb
  by_cases hc : c = cardId
  · subst hc
    have hbefore := h.before
    cases h.write with
    | createCard =>
        rw [hbefore] at hcard
        cases hcard
    | @updateCard update row =>
        obtain rfl := Option.some.inj (hbefore.symm.trans hcard)
        cases update with
        | moveCard c targetListId newRank =>
            obtain ⟨target, htarget, hsame⟩ := hop
            obtain rfl := Option.some.inj (hsame.symm.trans hb)
            exact h.boardOf_self htarget
        | attachSubcard | detachSubcard | archive | unarchive =>
            rw [← hboard]
            exact h.boardOf_self hlist
  · rw [boardOf_eq_some]
    exact ⟨card, list, (h.cards.other hc).trans hcard, h.lists ▸ hlist, hboard⟩

/-- A parent of the new table: that of the row written, or one of the old table. -/
theorem Written.parentOf_cases (h : Written ranking x op db db' cardId old new) {c p : Uuid}
    (hp : ParentOf db' c p) :
    c = cardId ∧ new.parentCardId = some p ∨ c ≠ cardId ∧ ParentOf db c p := by
  obtain ⟨card, hcard, hparent⟩ := hp
  rcases h.cards.eq_or_old hcard with ⟨rfl, rfl⟩ | ⟨hc, hcard⟩
  · exact .inl ⟨rfl, hparent⟩
  · exact .inr ⟨hc, card, hcard, hparent⟩

theorem Written.sameBoard (h : Written ranking x op db db' cardId old new)
    (hop : op.OnOneBoard db) (hdb : SameBoard db) : SameBoard db' := by
  have hkeeps := h.keepsBoards hop
  intro c p hp
  rcases h.parentOf_cases hp with ⟨rfl, hparent⟩ | ⟨-, hold⟩
  · have hbefore := h.before
    cases h.write with
    | createCard =>
        obtain ⟨list, hlist, hb⟩ := hop p hparent
        exact ⟨list.boardId, h.boardOf_self hlist, hkeeps.cards p _ hb⟩
    | @updateCard update row =>
        cases update with
        | attachSubcard c parentId =>
            obtain rfl : parentId = p := Option.some.inj hparent
            obtain ⟨b, hc, hb⟩ := hop
            exact ⟨b, hkeeps.cards _ b hc, hkeeps.cards _ b hb⟩
        | detachSubcard => cases hparent
        | moveCard | archive | unarchive =>
            obtain ⟨b, hc, hb⟩ := hdb _ p ⟨row, hbefore, hparent⟩
            exact ⟨b, hkeeps.cards _ b hc, hkeeps.cards _ b hb⟩
  · obtain ⟨b, hc, hb⟩ := hdb c p hold
    exact ⟨b, hkeeps.cards _ b hc, hkeeps.cards _ b hb⟩

end Boards

section Cycles
variable {ranking : Ranking} {x : Outside} {op : Statement} {db db' : Database} {cardId : Uuid}
variable {old : Option CardRow} {new : CardRow}

/-- A write that gives a card the parent it had, or none, closes no cycle. -/
theorem Written.acyclic_of_links (h : Written ranking x op db db' cardId old new)
    (hdb : Acyclic (ParentOf db)) (hparent : ∀ p, new.parentCardId = some p → ParentOf db cardId p) :
    Acyclic (ParentOf db') := by
  apply hdb.mono
  intro c p hp
  rcases h.parentOf_cases hp with ⟨rfl, hp⟩ | ⟨-, hp⟩
  · exact hparent p hp
  · exact hp

/-- A write that gives a card a parent redirects its link. -/
theorem Written.redirected (h : Written ranking x op db db' cardId old new) {parentId : Uuid}
    (hparent : new.parentCardId = some parentId) :
    Redirected (ParentOf db) (ParentOf db') cardId parentId where
  others c p hc := by
    simp only [ParentOf, h.cards.other hc]
  target p := by
    simp only [ParentOf, h.cards.self, Option.some.injEq, exists_eq_left', hparent]
    exact eq_comm

/-- Nothing is below a card that does not exist. -/
theorem childless_of_fresh (hfresh : db.cards.get? cardId = none) (c : Uuid) :
    ¬ ParentOf db c cardId := by
  rintro ⟨card, hcard, hparent⟩
  have hkey := (db.wellFormed.cards c card hcard).2.2.1
  simp [hparent, Table.contains, hfresh] at hkey

/-- A statement other than an attach closes no cycle. -/
theorem Written.acyclic (h : Written ranking x op db db' cardId old new)
    (hop : op.OnOneBoard db) (hdb : Acyclic (ParentOf db))
    (hother : ∀ c p, op ≠ .updateCard (.attachSubcard c p)) : Acyclic (ParentOf db') := by
  have hbefore := h.before
  cases h.write with
  | @createCard dto listId userId rank parentCardId =>
      cases hparent : parentCardId with
      | none =>
          apply h.acyclic_of_links hdb
          intro p hp
          rw [CardService.newCard, hparent] at hp
          cases hp
      | some p =>
          obtain ⟨list, -, hboard⟩ := hop p hparent
          obtain ⟨row, -, hrow, -⟩ := boardOf_eq_some.mp hboard
          have hne : p ≠ x.newId := by
            rintro rfl
            rw [hbefore] at hrow
            cases hrow
          exact (h.redirected hparent).acyclic_of_leaf hdb hne (childless_of_fresh hbefore)
  | @updateCard update row =>
      cases update with
      | attachSubcard c p => exact absurd rfl (hother c p)
      | detachSubcard => exact h.acyclic_of_links hdb fun p hp => by cases hp
      | moveCard | archive | unarchive =>
          exact h.acyclic_of_links hdb fun p hp => ⟨row, hbefore, hp⟩

/-- An attach closes a cycle exactly where its parent is below its card. -/
theorem acyclic_attachSubcard {w : World} {childId parentId : Uuid}
    (hop : (Statement.updateCard (.attachSubcard childId parentId)).OnOneBoard w.db)
    (hdb : Acyclic (ParentOf w.db)) :
    Acyclic (ParentOf
        (answer ranking x (.updateCard (.attachSubcard childId parentId)) w).2.db) ↔
      ¬ ReflTransGen (ParentOf w.db) parentId childId := by
  obtain ⟨b, hchild, hparent⟩ := hop
  obtain ⟨row, -, hrow, -⟩ := boardOf_eq_some.mp hchild
  obtain ⟨parent, -, hparent, -⟩ := boardOf_eq_some.mp hparent
  have hwritten := written_attachSubcard ranking x hrow
    ((w.db.cards.contains_iff parentId).mpr ⟨parent, hparent⟩)
  exact (hwritten.redirected rfl).acyclic_iff hdb

/-- One statement leaves the hierarchy without a cycle exactly where it closes none. -/
theorem acyclic_answer (ranking : Ranking) (x : Outside) {w : World} (hop : op.OnOneBoard w.db)
    (hdb : Acyclic (ParentOf w.db)) :
    Acyclic (ParentOf (answer ranking x op w).2.db) ↔ op.ClosesNoCycle w.db := by
  by_cases hattach : ∃ c p, op = .updateCard (.attachSubcard c p)
  · obtain ⟨c, p, rfl⟩ := hattach
    exact acyclic_attachSubcard hop hdb
  · simp only [not_exists] at hattach
    refine iff_of_true ?_ ?_
    · rcases answer_cases ranking x op w with hsame | ⟨cardId, old, new, hwritten⟩
      · rw [hsame]
        exact hdb
      · exact hwritten.acyclic hop hdb hattach
    · cases op with
      | updateCard update =>
          cases update with
          | attachSubcard c p => exact absurd rfl (hattach c p)
          | _ => trivial
      | _ => trivial

end Cycles

/-- What a statement on one board leaves: the boards, and what is on them. -/
theorem keepsBoards_answer {ranking : Ranking} {x : Outside} {op : Statement} {w : World}
    (hop : op.OnOneBoard w.db) : KeepsBoards w.db (answer ranking x op w).2.db := by
  rcases answer_cases ranking x op w with hsame | ⟨cardId, old, new, hwritten⟩
  · rw [hsame]
    exact .refl w.db
  · exact hwritten.keepsBoards hop

theorem sameBoard_answer {ranking : Ranking} {x : Outside} {op : Statement} {w : World}
    (hop : op.OnOneBoard w.db) (hdb : SameBoard w.db) :
    SameBoard (answer ranking x op w).2.db := by
  rcases answer_cases ranking x op w with hsame | ⟨cardId, old, new, hwritten⟩
  · rw [hsame]
    exact hdb
  · exact hwritten.sameBoard hop hdb

section Programs
variable {ranking : Ranking}

theorem only_announce (event : CardEvent) :
    (CardProgram.announce event).Only Statement.Plain :=
  Only.ask trivial

theorem only_reads {α : Type} {p : Procedure α} (hp : p.Only Statement.Reads) :
    p.Only Statement.Plain := by
  refine hp.imp fun op hop => ?_
  cases op with
  | createCard | updateCard => cases hop
  | _ => trivial

theorem only_verifyBoardInWorkspace (boardId workspaceId : Uuid) :
    (CardProgram.verifyBoardInWorkspace boardId workspaceId).Only Statement.Plain :=
  only_reads (CardProgram.reads_verifyBoardInWorkspace _ _)

theorem only_findCard (cardId boardId : Uuid) :
    (CardProgram.findCard cardId boardId).Only Statement.Plain :=
  only_reads (CardProgram.reads_findCard _ _)

theorem only_validateAssignees (workspaceId : Uuid) (assigneeIds : List Uuid) :
    (CardProgram.validateAssignees workspaceId assigneeIds).Only Statement.Plain :=
  only_reads (CardProgram.reads_validateAssignees _ _)

theorem only_validateLabels (workspaceId : Uuid) (labelIds : List Uuid) :
    (CardProgram.validateLabels workspaceId labelIds).Only Statement.Plain :=
  only_reads (CardProgram.reads_validateLabels _ _)

theorem only_rankAfterLast (listId : Uuid) :
    (CardProgram.rankAfterLast ranking listId).Only Statement.Plain :=
  only_reads (CardProgram.reads_rankAfterLast _)

theorem only_save (update : CardUpdate) (h : (Statement.updateCard update).Plain) :
    (CardProgram.save update).Only Statement.Plain :=
  (Only.ask h).bind fun _ => Only.orThrow _ _

theorem only_detachSubcard (boardId workspaceId subcardId userId : Uuid) :
    (CardProgram.detachSubcard boardId workspaceId subcardId userId).Only Statement.Plain :=
  (only_verifyBoardInWorkspace _ _).bind fun _ => (only_findCard _ _).bind fun _ =>
    (Only.refuseIf _ _).bind fun _ => (only_save (.detachSubcard subcardId) trivial).bind fun _ =>
      (only_announce _).bind fun _ => Only.pure _

theorem only_archive (boardId workspaceId cardId userId : Uuid) :
    (CardProgram.archive boardId workspaceId cardId userId).Only Statement.Plain :=
  (only_verifyBoardInWorkspace _ _).bind fun _ => (only_findCard _ _).bind fun _ =>
    (only_save (.archive cardId) trivial).bind fun _ => only_announce _

theorem only_unarchive (boardId workspaceId cardId userId : Uuid) :
    (CardProgram.unarchive boardId workspaceId cardId userId).Only Statement.Plain :=
  (only_verifyBoardInWorkspace _ _).bind fun _ =>
    ((Only.ask trivial).bind fun _ => Only.demand _ _).bind fun _ =>
      (only_save (.unarchive cardId) trivial).bind fun _ => (only_announce _).bind fun _ => Only.pure _

variable {α β : Type} {log : Log Answer} {w : World}

/-- The specification that the subcard calls have in common. -/
abbrev KeepsToBoards (ranking : Ranking) (p : Procedure α) (log : Log Answer) (w : World) : Prop :=
  p.Safe (answer ranking) (fun w w' => KeepsBoards w.db w'.db) (fun w => SameBoard w.db)
    (fun w _ op => op.OnOneBoard w.db) log w fun _ _ _ => True

/-- Statements that give no card a parent or a list may come at any time. -/
theorem keepsToBoards_of_only {p : Procedure α} (hp : p.Only Statement.Plain) :
    KeepsToBoards ranking p log w :=
  Safe.of_only (fun _ _ _ hop => hop.onOneBoard) hp fun _ _ _ _ => trivial

/-- After such statements the rest starts on the same boards. -/
theorem keepsToBoards_bind {p : Procedure α} {rest : α → Procedure β}
    (hp : p.Only Statement.Plain) (hrest : ∀ a log' w', KeepsBoards w.db w'.db →
      KeepsToBoards ranking (rest a) log' w') : KeepsToBoards ranking (p >>= rest) log w :=
  safe_bind.mpr <| Safe.of_only_later (fun w => .refl w.db) (fun _ _ _ => .trans)
    (fun _ _ _ hop => hop.onOneBoard) (fun _ _ _ hop _ => keepsBoards_answer hop.onOneBoard)
    hp hrest

theorem keepsToBoards_refuseIf {c : Bool} {e : AppError} {rest : Unit → Procedure β}
    (hrest : KeepsToBoards ranking (rest ()) log w) :
    KeepsToBoards ranking (Program.refuseIf c e >>= rest) log w :=
  safe_refuseIf_bind.mpr fun _ => hrest

/-- A card that was found is on the board from then on, and so is its list. -/
theorem keepsToBoards_findCard {cardId boardId : Uuid} {rest : CardWithDetails → Procedure β}
    (hrest : ∀ card log' w', KeepsBoards w.db w'.db → card.id = cardId →
      boardOf w'.db cardId = some boardId →
      (∃ list, w'.db.lists.get? card.row.listId = some list ∧ list.boardId = boardId) →
        KeepsToBoards ranking (rest card) log' w') :
    KeepsToBoards ranking (CardProgram.findCard cardId boardId >>= rest) log w := by
  refine safe_bind.mpr (safe_ask_bind.mpr fun w' hlater _ => ⟨trivial, fun _ => ?_⟩)
  refine safe_demand.mpr fun card hcard => ?_
  obtain ⟨hrow, hid, hboard⟩ := CardRepository.findActiveById_eq_some hcard
  obtain ⟨row, list, hrow', hlist, hb⟩ := boardOf_eq_some.mp hboard
  obtain rfl := Option.some.inj (hrow.symm.trans hrow')
  exact hrest card _ w' hlater hid hboard ⟨list, hlist, hb⟩

/-- A list that was found is on the board from then on. -/
theorem keepsToBoards_findList {listId boardId : Uuid} {e : AppError}
    {rest : ListRow → Procedure β}
    (hrest : ∀ list log' w', KeepsBoards w.db w'.db → w'.db.lists.get? listId = some list →
      list.boardId = boardId → KeepsToBoards ranking (rest list) log' w') :
    KeepsToBoards ranking (CardProgram.findList listId boardId e >>= rest) log w := by
  refine safe_bind.mpr (safe_ask_bind.mpr fun w' hlater _ => ⟨trivial, fun _ => ?_⟩)
  refine safe_demand.mpr fun list hlist => ?_
  obtain ⟨hrow, hb⟩ := ListRepository.findActiveById_eq_some hlist
  exact hrest list _ w' hlater hrow hb

/-- The write of a call, after which it only announces. -/
theorem keepsToBoards_write {op : Statement} {γ : Type} {p : Answer op → Procedure γ}
    {rest : γ → Procedure β} (hop : ∀ w' : World, KeepsBoards w.db w'.db → op.OnOneBoard w'.db)
    (hp : ∀ a, (p a).Only Statement.Plain) (hrest : ∀ c, (rest c).Only Statement.Plain) :
    KeepsToBoards ranking ((ask op >>= p) >>= rest) log w := by
  rw [Program.bind_assoc]
  refine safe_ask_bind.mpr fun w' hlater _ => ⟨hop w' hlater, fun x => ?_⟩
  exact keepsToBoards_of_only ((hp _).bind hrest)

theorem keepsToBoards_parentFor {boardId : Uuid} {parentCardId : Option Uuid}
    {rest : Option Uuid → Procedure β}
    (hrest : ∀ parent log' w', KeepsBoards w.db w'.db →
      (∀ p ∈ parent, boardOf w'.db p = some boardId) →
        KeepsToBoards ranking (rest parent) log' w') :
    KeepsToBoards ranking (CardProgram.parentFor boardId parentCardId >>= rest) log w := by
  cases parentCardId with
  | none =>
      exact hrest none log w (.refl w.db) (by simp)
  | some p =>
      rw [CardProgram.parentFor, Program.bind_assoc]
      refine keepsToBoards_findCard fun parent log' w' hlater hid hboard _ => ?_
      rw [Program.bind_assoc]
      refine keepsToBoards_refuseIf (hrest (some parent.id) log' w' hlater ?_)
      simpa [hid] using hboard

theorem keepsToBoards_create (boardId workspaceId listId : Uuid) (dto : CreateCardDto)
    (userId : Uuid) :
    KeepsToBoards ranking (CardProgram.create ranking boardId workspaceId listId dto userId)
      log w := by
  refine keepsToBoards_findList fun list log₁ w₁ _ hlist hboard => ?_
  refine keepsToBoards_bind (only_validateAssignees _ _) fun _ log₂ w₂ h₂ => ?_
  refine keepsToBoards_bind (only_validateLabels _ _) fun _ log₃ w₃ h₃ => ?_
  refine keepsToBoards_parentFor fun parent log₄ w₄ h₄ hparent => ?_
  refine keepsToBoards_bind (only_rankAfterLast _) fun rank log₅ w₅ h₅ => ?_
  apply keepsToBoards_write
  · intro w₆ h₆ p hp
    have hlater : KeepsBoards w₁.db w₆.db := h₂.trans (h₃.trans (h₄.trans (h₅.trans h₆)))
    refine ⟨list, by rw [hlater.lists]; exact hlist, ?_⟩
    rw [hboard]
    exact (h₅.trans h₆).cards p boardId (hparent p hp)
  · exact fun _ => Only.orThrow _ _
  · exact fun _ => (only_announce _).bind fun _ => Only.pure _

theorem keepsToBoards_createSubcard (boardId workspaceId parentId : Uuid) (dto : CreateCardDto)
    (userId : Uuid) :
    KeepsToBoards ranking
      (CardProgram.createSubcard ranking boardId workspaceId parentId dto userId) log w := by
  refine keepsToBoards_bind (only_verifyBoardInWorkspace _ _) fun _ log₁ w₁ _ => ?_
  refine keepsToBoards_findCard fun parent log₂ w₂ _ _ hparent hlist => keepsToBoards_refuseIf ?_
  obtain ⟨list, hlist, hboard⟩ := hlist
  refine keepsToBoards_bind (only_validateAssignees _ _) fun _ log₃ w₃ h₃ => ?_
  refine keepsToBoards_bind (only_validateLabels _ _) fun _ log₄ w₄ h₄ => ?_
  refine keepsToBoards_bind (only_rankAfterLast _) fun rank log₅ w₅ h₅ => ?_
  apply keepsToBoards_write
  · intro w₆ h₆ p hp
    obtain rfl := Option.some.inj hp
    have hlater : KeepsBoards w₂.db w₆.db := h₃.trans (h₄.trans (h₅.trans h₆))
    refine ⟨list, by rw [hlater.lists]; exact hlist, ?_⟩
    rw [hboard]
    exact hlater.cards parentId boardId hparent
  · exact fun _ => Only.orThrow _ _
  · exact fun _ => (only_announce _).bind fun _ => Only.pure _

theorem keepsToBoards_attachSubcard (boardId workspaceId : Uuid) (parentId : UuidText)
    (subcardId userId : Uuid) :
    KeepsToBoards ranking
      (CardProgram.attachSubcard boardId workspaceId parentId subcardId userId) log w := by
  refine keepsToBoards_bind (only_verifyBoardInWorkspace _ _) fun _ log₁ w₁ _ => ?_
  refine keepsToBoards_findCard fun parent log₂ w₂ _ _ hparent _ => keepsToBoards_refuseIf ?_
  refine keepsToBoards_findCard fun child log₃ w₃ h₃ _ hchild _ => ?_
  refine keepsToBoards_refuseIf (keepsToBoards_refuseIf ?_)
  have hcount : (ask (Statement.countSubcards child.id) : Procedure Nat).Only Statement.Plain :=
    Only.ask trivial
  refine keepsToBoards_bind hcount fun count log₄ w₄ h₄ => keepsToBoards_refuseIf ?_
  apply keepsToBoards_write
  · intro w₅ h₅
    exact ⟨boardId, (h₄.trans h₅).cards subcardId boardId hchild,
      (h₃.trans (h₄.trans h₅)).cards parentId.id boardId hparent⟩
  · exact fun _ => Only.orThrow _ _
  · exact fun _ => (only_announce _).bind fun _ => Only.pure _

theorem keepsToBoards_move (boardId workspaceId cardId : Uuid) (dto : MoveCardDto)
    (userId : Uuid) :
    KeepsToBoards ranking (CardProgram.move ranking boardId workspaceId cardId dto userId)
      log w := by
  refine keepsToBoards_bind (only_verifyBoardInWorkspace _ _) fun _ log₁ w₁ _ => ?_
  refine keepsToBoards_findCard fun card log₂ w₂ _ _ hcard _ => ?_
  refine keepsToBoards_findList fun list log₃ w₃ h₃ hlist hboard => ?_
  apply keepsToBoards_write
  · intro w₄ h₄
    refine ⟨list, by rw [h₄.lists]; exact hlist, ?_⟩
    rw [hboard]
    exact (h₃.trans h₄).cards cardId boardId hcard
  · exact fun _ => Only.orThrow _ _
  · exact fun _ => (only_announce _).bind fun _ => Only.pure _

end Programs

/-- What the subcard calls rely on: no card and no list changes its board. -/
def hierarchyDiscipline (ranking : Ranking) :
    Discipline (answer ranking) (SubcardCall.program ranking) where
  later w w' := KeepsBoards w.db w'.db
  inv w := SameBoard w.db
  allowed _ w _ op := op.OnOneBoard w.db
  post _ _ := True
  later_refl w := .refl w.db
  later_trans _ _ _ := .trans
  post_later _ _ _ _ _ := trivial
  kept _ _ _ _ _ hsame hop := ⟨keepsBoards_answer hop, sameBoard_answer hop hsame⟩
  safe call w _ := by
    cases call with
    | create => exact safe_bind.mpr (keepsToBoards_create _ _ _ _ _)
    | createSubcard => exact safe_bind.mpr (keepsToBoards_createSubcard _ _ _ _ _)
    | attachSubcard => exact safe_bind.mpr (keepsToBoards_attachSubcard _ _ _ _ _)
    | move => exact safe_bind.mpr (keepsToBoards_move _ _ _ _ _)
    | detachSubcard => exact safe_bind.mpr (keepsToBoards_of_only (only_detachSubcard _ _ _ _))
    | archive => exact keepsToBoards_of_only (only_archive _ _ _ _)
    | unarchive => exact safe_bind.mpr (keepsToBoards_of_only (only_unarchive _ _ _ _))

/-- The state of the boards whose cards change in calls that interleave. -/
abbrev SubcardPool := Pool Statement Answer AppError SubcardCall World

/-- Whatever the interleaving, a card and its parent are on one board. -/
theorem sameBoard_of_run {ranking : Ranking} {w : World} (h : SameBoard w.db)
    {ms : List (Move SubcardCall Outside)} {p : SubcardPool}
    (run : Run (Pool.step (answer ranking) (SubcardCall.program ranking)) { store := w } ms p) :
    SameBoard p.store.db := by
  have hdisciplined : Disciplined (hierarchyDiscipline ranking) p :=
    run.invariant (fun _ _ _ hp hstep => hp.step hstep) (Disciplined.initial h)
  exact hdisciplined.inv

/-- The hierarchy has no cycle and keeps to its boards in every state of a run,
whatever the interleaving, exactly when the update of every attach finds the new
parent neither the card itself nor below it. -/
theorem hierarchyKept_iff (ranking : Ranking) {w : World} (h : Hierarchy w.db)
    {ms : List (Move SubcardCall Outside)} {p : SubcardPool}
    (run : Run (Pool.step (answer ranking) (SubcardCall.program ranking)) { store := w } ms p) :
    AllStates (Pool.step (answer ranking) (SubcardCall.program ranking))
        (fun p => Hierarchy p.store.db) { store := w } ms ↔
      AllSteps (Pool.step (answer ranking) (SubcardCall.program ranking))
        (Pool.OnStatement fun _ _ w _ op => op.ClosesNoCycle w.db) { store := w } ms := by
  apply allStates_iff_allSteps (I := Disciplined (hierarchyDiscipline ranking)) _ _ run
    (Disciplined.initial h.sameBoard) h
  · intro p m p' hp hstep
    exact hp.step hstep
  · intro p m p' hp hhierarchy hstep
    have hsame : SameBoard p'.store.db := (hp.step hstep).inv
    cases m with
    | start call =>
        obtain rfl := Pool.step_start.mp hstep
        exact iff_of_true hhierarchy trivial
    | resume i x =>
        obtain ⟨task, op, next, hasks, rfl⟩ := Pool.step_resume.mp hstep
        rw [Pool.onStatement_of_asks hasks]
        have hiff := acyclic_answer ranking x (hp.allowed hasks)
          hhierarchy.acyclic
        exact ⟨fun h' => hiff.mp h'.acyclic, fun hop => ⟨hiff.mpr hop, hsame⟩⟩

theorem hierarchy_oneBoard : Hierarchy oneBoard := by
  have hnone : ∀ c p, ¬ ParentOf oneBoard c p := by
    rintro c p ⟨card, hcard, -⟩
    cases hcard
  refine ⟨fun c hc => ?_, fun c p hp => absurd hp (hnone c p)⟩
  obtain ⟨p, hp, -⟩ := TransGen.head'_iff.mp hc
  exact hnone c p hp

/-- The id of a new row, at time 0. -/
def withId (newId : Uuid) : Outside := ⟨newId, 0⟩

/-- Cards 40 and 41 are created; then each is attached to the other, and both calls
make their checks before either of them updates its card. -/
def crossAttach : List (Move SubcardCall Outside) :=
  List.flatten [
    [.start (.create 20 1 30 { title := js "Ship" } 7),
      .start (.create 20 1 30 { title := js "Test" } 7)],
    List.replicate 4 (.resume 0 (withId 40)),
    List.replicate 4 (.resume 1 (withId 41)),
    [.start (.attachSubcard 20 1 40 41 7), .start (.attachSubcard 20 1 41 40 7)],
    List.replicate 4 (.resume 2 (withId 0)),
    List.replicate 5 (.resume 3 (withId 0)),
    [.resume 2 (withId 0)]]

theorem exists_crossAttach : ∃ p : SubcardPool,
    Run (Pool.step (answer firstRanks) (SubcardCall.program firstRanks))
      { store := { db := oneBoard } } crossAttach p ∧
        ParentOf p.store.db 40 41 ∧ ParentOf p.store.db 41 40 := by
  obtain ⟨p, hp⟩ : ∃ p : SubcardPool,
      exec (Pool.step (answer firstRanks) (SubcardCall.program firstRanks))
        { store := { db := oneBoard } } crossAttach = some p :=
    Option.isSome_iff_exists.mp (by decide +kernel)
  refine ⟨p, run_of_exec hp, ?_, ?_⟩
  · cases hp
    exact ⟨_, rfl, rfl⟩
  · cases hp
    exact ⟨_, rfl, rfl⟩

theorem hierarchyKept_iff_crossAttach :
    AllStates (Pool.step (answer firstRanks) (SubcardCall.program firstRanks))
        (fun p => Hierarchy p.store.db) { store := { db := oneBoard } } crossAttach ↔
      AllSteps (Pool.step (answer firstRanks) (SubcardCall.program firstRanks))
        (Pool.OnStatement fun _ _ w _ op => op.ClosesNoCycle w.db)
        { store := { db := oneBoard } } crossAttach := by
  obtain ⟨p, run, -⟩ := exists_crossAttach
  exact hierarchyKept_iff firstRanks hierarchy_oneBoard run

/-- Two cards can become subcards of each other. -/
theorem crossAttach_closes_cycle :
    ¬ ∀ (ranking : Ranking) (w : World), Hierarchy w.db →
      ∀ (ms : List (Move SubcardCall Outside)) (p : SubcardPool),
        Run (Pool.step (answer ranking) (SubcardCall.program ranking)) { store := w } ms p →
          Hierarchy p.store.db := by
  intro hall
  obtain ⟨p, run, hdown, hup⟩ := exists_crossAttach
  have h := hall firstRanks { db := oneBoard } hierarchy_oneBoard crossAttach p run
  exact h.acyclic 40 ((TransGen.single hdown).tail hup)

end SyncBoard.Board
