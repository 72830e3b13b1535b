import SyncBoard.Board.CardPrograms
import SyncBoard.Board.ChecklistIsolation
import SyncBoard.Board.SubcardDepth
import SyncBoard.Lib.Rejections
import Mathlib.Data.Finset.Card

/-!
# Promotions that fail half-way

`promoteItemToSubcard` creates the subcard first and marks the item afterwards, each
with a statement of its own, and nothing undoes the first where the second fails. The
call says so with an error of its own, `PROMOTE_FAILED`: it leaves a subcard behind,
and every other error leaves everything as it was. A client that tries again until a
call succeeds gets one subcard for each `PROMOTE_FAILED` besides the last one.

## Implementation notes

Every statement on the database may be rejected, without effect; an event cannot be.
Between two attempts anything may happen to the world.
-/

namespace SyncBoard.Board

open Relational Interleaved Interleaved.Program

/-- The statements of `createSubcard`, and those on the item. -/
inductive PromoteStatement
  | card (op : Statement)
  | findItem (itemId : Uuid)
  | updateItem (itemId : Uuid) (dto : UpdateChecklistItemDto)
  | emitChecklist (event : ChecklistEvent)

abbrev PromoteAnswer : PromoteStatement → Type
  | .card op => Answer op
  | .findItem _ => Option ItemWithChecklist
  | .updateItem _ _ => Except DbError (Loaded ChecklistItemRow)
  | .emitChecklist _ => Unit

def promoteAnswer (ranking : Ranking) (x : Outside) :
    (op : PromoteStatement) → World → PromoteAnswer op × World
  | .card op, w => answer ranking x op w
  | .findItem itemId, w => (ChecklistRepository.findItem w.db itemId, w)
  | .updateItem itemId dto, w =>
      w.write (ChecklistRepository.updateItem w.db itemId (ChecklistService.patchItem dto) x.now)
  | .emitChecklist event, w => ((), { w with checklistEvents := w.checklistEvents ++ [event] })

/-- Every statement on the database may be rejected. -/
def PromoteStatement.mayReject : PromoteStatement → Bool
  | .card (.emit _) | .emitChecklist _ => false
  | _ => true

abbrev PromoteProgram :=
  Program PromoteStatement (Attempted DbError PromoteAnswer) AppError

/-- A program that expects no rejection. -/
abbrev unguarded {α : Type} (p : Program PromoteStatement PromoteAnswer AppError α) :
    PromoteProgram α :=
  p.rejectable .database

/-- A program of `CardService`, among these statements. -/
abbrev onCards {α : Type} (p : Procedure α) : Program PromoteStatement PromoteAnswer AppError α :=
  p.via PromoteStatement.card fun _ a => a

def promoteFailed : AppError :=
  .appException "PROMOTE_FAILED"
    "Subcard was created but the source item could not be archived" 500

namespace PromoteProgram
variable (ranking : Ranking)

def getItemInChecklist (itemId checklistId : Uuid) :
    Program PromoteStatement PromoteAnswer AppError ItemWithChecklist := do
  let item ← ask (PromoteStatement.findItem itemId)
  demand (item.filter fun item => item.row.checklistId == checklistId)
    (.entityNotFound "ChecklistItem" itemId)

/-- The update and its `catch`, for which an update that is rejected and one that the
table refuses are the same. -/
def markDone (itemId : Uuid) : PromoteProgram Unit := do
  let updated ← ask (PromoteStatement.updateItem itemId { isDone := some true })
  let _ ← Program.orThrow (fun _ => promoteFailed) (updated.bind id)

def promoteItemToSubcard (workspaceId boardId cardId checklistId itemId userId : Uuid) :
    PromoteProgram CardWithDetails := do
  unguarded (onCards (CardProgram.verifyBoardInWorkspace boardId workspaceId))
  let _ ← unguarded (onCards (CardProgram.findCard cardId boardId))
  let item ← unguarded (getItemInChecklist itemId checklistId)
  let subcard ← unguarded (onCards (CardProgram.createSubcard ranking boardId workspaceId cardId
    { title := item.row.content } userId))
  markDone itemId
  unguarded (ask (PromoteStatement.emitChecklist (.updated checklistId cardId boardId userId)))
  return subcard

end PromoteProgram

section Alone
variable {ranking : Ranking} {x : Outside}

theorem action_onCards {α : Type} (p : Procedure α) :
    (onCards p).action (promoteAnswer ranking x) = p.action (answer ranking x) := by
  apply action_via
  intro op w
  exact ⟨rfl, rfl⟩

theorem action_getItemInChecklist (itemId checklistId : Uuid) :
    (PromoteProgram.getItemInChecklist itemId checklistId).action (promoteAnswer ranking x) =
      ChecklistService.getItemInChecklist itemId checklistId := by
  rw [PromoteProgram.getItemInChecklist, action_ask_bind fun _ => rfl]
  simp only [action_demand]
  exact Fallible.query_bind_demand _ _

theorem action_markDone (itemId : Uuid) :
    (PromoteProgram.markDone itemId).action
      (rejecting (promoteAnswer ranking) PromoteStatement.mayReject (none, x)) = (do
        let _ ← write (ChecklistRepository.updateItem · itemId
          (ChecklistService.patchItem { isDone := some true }) x.now) fun _ => promoteFailed) := by
  rw [PromoteProgram.markDone, ← Program.bind_assoc, action_bind]
  congr 1
  exact action_written (fun _ => rfl) fun _ => rfl

/-- A promotion of which no statement is rejected is the call of `ChecklistService`. -/
theorem action_promoteItemToSubcard (workspaceId boardId cardId checklistId itemId userId : Uuid) :
    (PromoteProgram.promoteItemToSubcard ranking workspaceId boardId cardId checklistId itemId
      userId).action (rejecting (promoteAnswer ranking) PromoteStatement.mayReject (none, x)) =
      ChecklistService.promoteItemToSubcard (x.env ranking) workspaceId boardId cardId checklistId
        itemId userId := by
  simp only [PromoteProgram.promoteItemToSubcard, ChecklistService.promoteItemToSubcard,
    ChecklistService.verifyCardInBoard, LawfulMonad.bind_assoc, LawfulMonad.pure_bind,
    action_bind, action_rejectable, action_onCards, action_verifyBoardInWorkspace,
    action_getItemInChecklist, action_markDone, action_findCard, action_createSubcard, action_pure]
  rfl

end Alone

/-- The one new card is a subcard with a title. -/
structure CreatesSubcard (db db' : Database) (parentId : Uuid) (title : JsString) (id : Uuid) :
    Prop where
  fresh : db.cards.get? id = none
  only : OnlyCard db db' id
  card : ∃ row, db'.cards.get? id = some row ∧ row.parentCardId = some parentId ∧ row.title = title

/-- Nothing but the item and what hangs on the new card has changed between the databases. -/
theorem CreatesSubcard.congr {db db₁ db₂ : Database} {parentId id : Uuid} {title : JsString}
    (h : CreatesSubcard db db₁ parentId title id) (hcards : SameCards db₁ db₂) :
    CreatesSubcard db db₂ parentId title id where
  fresh := h.fresh
  only := h.only.trans (hcards.onlyCard id)
  card := hcards.cards ▸ h.card

/-- An error that is no `AppException`. -/
def AppError.Ordinary : AppError → Prop
  | .appException _ _ _ => False
  | _ => True

theorem AppError.Ordinary.ne {e : AppError} (h : e.Ordinary) : e ≠ promoteFailed := by
  rintro rfl
  exact h

namespace CardProgram
variable {ranking : Ranking}

theorem fails_verifyBoardInWorkspace (boardId workspaceId : Uuid) :
    (verifyBoardInWorkspace boardId workspaceId).FailsWith AppError.Ordinary :=
  (FailsWith.ask _).bind fun _ => (FailsWith.demand _ trivial).bind fun _ => FailsWith.pure _

theorem fails_findCard (cardId boardId : Uuid) :
    (findCard cardId boardId).FailsWith AppError.Ordinary :=
  (FailsWith.ask _).bind fun _ => FailsWith.demand _ trivial

theorem fails_validateAssignees (workspaceId : Uuid) (assigneeIds : List Uuid) :
    (validateAssignees workspaceId assigneeIds).FailsWith AppError.Ordinary :=
  FailsWith.forM fun _ => (FailsWith.ask _).bind fun _ => FailsWith.refuseIf _ trivial

theorem fails_validateLabels (workspaceId : Uuid) (labelIds : List Uuid) :
    (validateLabels workspaceId labelIds).FailsWith AppError.Ordinary :=
  FailsWith.forM fun _ => (FailsWith.ask _).bind fun _ => FailsWith.refuseIf _ trivial

theorem fails_rankAfterLast (listId : Uuid) :
    (rankAfterLast ranking listId).FailsWith AppError.Ordinary :=
  (FailsWith.ask _).bind fun _ => FailsWith.pure _

end CardProgram

section Outcomes
variable {ranking : Ranking} {α β : Type} {w : World}

/-- Whatever is given from outside, rejections included, an outcome is as required. -/
abbrev Ends (ranking : Ranking) (p : PromoteProgram α) (w : World)
    (post : Except AppError α → World → Prop) : Prop :=
  p.Yields (rejecting (promoteAnswer ranking) PromoteStatement.mayReject) w post

/-- Queries in front of a program, which may be rejected. -/
theorem ends_reads_bind {p : Procedure α} {f : α → PromoteProgram β}
    {post : Except AppError β → World → Prop} (hreads : p.Only Statement.Reads)
    (hfails : p.FailsWith AppError.Ordinary) (herror : ∀ e, e.Ordinary → post (.error e) w)
    (hf : ∀ a, Ends ranking (f a) w post) :
    Ends ranking (unguarded (onCards p) >>= f) w post := by
  have hcards : (onCards p).Only fun op => ∃ q, op = .card q ∧ q.Reads :=
    hreads.via fun q hq => ⟨q, rfl, hq⟩
  apply yields_bind.mpr
  apply yields_rejectable_of_reads _ (fun _ => trivial) hcards hfails.via hf herror
  rintro x _ w ⟨q, rfl, hq⟩
  cases q with
  | createCard | updateCard | emit => cases hq
  | _ => rfl

theorem onCards_bind (p : Procedure α) (f : α → Procedure β) :
    unguarded (onCards (p >>= f)) =
      unguarded (onCards p) >>= fun a => unguarded (onCards (f a)) := by
  rw [onCards, via_bind, unguarded, rejectable_bind]

/-- A subcard is created by a call that returns, and nothing is done by one that throws. -/
def CreatesOrThrows (w : World) (parentId : Uuid) (title : JsString) :
    Except AppError CardWithDetails → World → Prop
  | .ok card, w' => CreatesSubcard w.db w'.db parentId title card.id ∧
      w'.db.checklistItems = w.db.checklistItems
  | .error e, w' => e.Ordinary ∧ w' = w

/-- The write of `createSubcard`, and the event behind it. -/
theorem ends_insertSubcard (listId parentId userId : Uuid) (dto : CreateCardDto) (rank : JsString)
    (event : CardWithDetails → CardEvent) :
    Ends ranking (unguarded (onCards (do
      let card ← CardProgram.insertCard dto listId rank (some parentId) userId
      CardProgram.announce (event card)
      return card))) w (CreatesOrThrows w parentId dto.title) := by
  apply yields_rejectable_await
  · intro _ e
    exact ⟨trivial, rfl⟩
  intro x
  simp only [promoteAnswer, answer]
  cases hcreate : CardRepository.create w.db x.newId
      (CardService.newCard (x.env ranking) dto listId rank (some parentId) userId)
      dto.assigneeIds dto.labelIds x.now with
  | error e => exact ⟨trivial, rfl⟩
  | ok created =>
      obtain ⟨card, db⟩ := created
      obtain ⟨db₁, hinsert, hlinks, hcard⟩ := CardRepository.create_inserts hcreate
      obtain ⟨hfresh, -, -, honly, hget, -, -⟩ := Database.insertCard_ok hinsert
      have hid : card.id = x.newId := congrArg Card.id hcard
      have hcreates : CreatesSubcard w.db db parentId dto.title card.id := by
        rw [hid]
        exact ⟨hfresh, honly.trans hlinks.toOnlyCard, _, hlinks.allCards ▸ hget, rfl, rfl⟩
      -- the event is not rejected
      apply yields_rejectable_await
      · intro hmay
        cases hmay
      intro _
      exact ⟨hcreates, CardRepository.create_keepsItems hcreate⟩

theorem ends_createSubcard (boardId workspaceId parentId userId : Uuid) (dto : CreateCardDto) :
    Ends ranking (unguarded (onCards
      (CardProgram.createSubcard ranking boardId workspaceId parentId dto userId))) w
        (CreatesOrThrows w parentId dto.title) := by
  have herror : ∀ e : AppError, e.Ordinary → CreatesOrThrows w parentId dto.title (.error e) w :=
    fun e he => ⟨he, rfl⟩
  rw [CardProgram.createSubcard, onCards_bind]
  apply ends_reads_bind (CardProgram.reads_verifyBoardInWorkspace _ _)
    (CardProgram.fails_verifyBoardInWorkspace _ _) herror
  intro _
  rw [onCards_bind]
  apply ends_reads_bind (CardProgram.reads_findCard _ _) (CardProgram.fails_findCard _ _) herror
  intro parent
  rw [onCards_bind]
  refine ends_reads_bind (Only.refuseIf _ _) (FailsWith.refuseIf _ ?_) herror ?_
  · trivial
  intro _
  rw [onCards_bind]
  apply ends_reads_bind (CardProgram.reads_validateAssignees _ _)
    (CardProgram.fails_validateAssignees _ _) herror
  intro _
  rw [onCards_bind]
  apply ends_reads_bind (CardProgram.reads_validateLabels _ _)
    (CardProgram.fails_validateLabels _ _) herror
  intro _
  rw [onCards_bind]
  apply ends_reads_bind (CardProgram.reads_rankAfterLast _) (CardProgram.fails_rankAfterLast _)
    herror
  intro rank
  exact ends_insertSubcard _ _ _ _ _ _

theorem ends_getItemInChecklist (itemId checklistId : Uuid) :
    Ends ranking (unguarded (PromoteProgram.getItemInChecklist itemId checklistId)) w fun r w' =>
      match r with
      | .ok item => w.db.checklistItems.get? itemId = some item.row ∧ w' = w
      | .error e => e.Ordinary ∧ w' = w := by
  apply yields_rejectable_await
  · intro _ e
    exact ⟨trivial, rfl⟩
  intro x
  simp only [promoteAnswer]
  change Ends ranking (unguarded (demand _ _)) w _
  cases hitem : (ChecklistRepository.findItem w.db itemId).filter
      fun item => item.row.checklistId == checklistId with
  | none => exact ⟨trivial, rfl⟩
  | some item =>
      obtain ⟨hfind, -⟩ := Option.filter_eq_some_iff.mp hitem
      exact ⟨ChecklistRepository.findItem_iff.mp ⟨item, hfind, rfl⟩, rfl⟩

theorem ChecklistRepository.updateItem_ok {db db' : Database} {id : Uuid} {now : Timestamp}
    {data : ChecklistItemRow → ChecklistItemRow} {item : Loaded ChecklistItemRow}
    (h : updateItem db id data now = .ok (item, db')) :
    ∃ row, db'.checklistItems.get? id = some { data row with updatedAt := now } ∧
      SameCards db db' := by
  obtain ⟨row, hrow, -, hput⟩ := updateRow_ok h
  rw [Database.updateChecklistItem] at hput
  split at hput
  · cases hput
    refine ⟨row, ?_, ⟨rfl, rfl, rfl, rfl, rfl⟩⟩
    rw [Table.get?_modify, if_pos rfl, hrow]
    rfl
  · cases hput

/-- The item is marked, or the call fails with its own error and writes nothing. -/
theorem ends_markDone (itemId : Uuid) :
    Ends ranking (PromoteProgram.markDone itemId) w fun r w' =>
      match r with
      | .ok _ => SameCards w.db w'.db ∧
          ∃ item, w'.db.checklistItems.get? itemId = some item ∧ item.isDone = true
      | .error e => e = promoteFailed ∧ w' = w := by
  rintro ⟨error, x⟩
  cases error with
  | some e => exact ⟨rfl, rfl⟩
  | none =>
      simp only [rejecting, PromoteStatement.mayReject, promoteAnswer, ite_self]
      cases hupdate : ChecklistRepository.updateItem w.db itemId
          (ChecklistService.patchItem { isDone := some true }) x.now with
      | error e => exact ⟨rfl, rfl⟩
      | ok written =>
          obtain ⟨updated, db⟩ := written
          obtain ⟨row, hmarked, hcards⟩ := ChecklistRepository.updateItem_ok hupdate
          exact ⟨hcards, _, hmarked, rfl⟩

end Outcomes

/-- The arguments of the call. -/
structure Promotion where
  workspaceId : Uuid
  boardId : Uuid
  cardId : Uuid
  checklistId : Uuid
  itemId : Uuid
  userId : Uuid

def Promotion.program (p : Promotion) (ranking : Ranking) : PromoteProgram CardWithDetails :=
  PromoteProgram.promoteItemToSubcard ranking p.workspaceId p.boardId p.cardId p.checklistId p.itemId
    p.userId

/-- How a promotion ends, from a world to another one. -/
inductive PromoteOutcome (p : Promotion) (w : World) :
    Except AppError CardWithDetails → World → Prop
  | refused {e : AppError} (h : e ≠ promoteFailed) : PromoteOutcome p w (.error e) w
  | unmarked {w' : World} {item : ChecklistItemRow} {id : Uuid}
      (hitem : w.db.checklistItems.get? p.itemId = some item)
      (hcreates : CreatesSubcard w.db w'.db p.cardId item.content id)
      (hitems : w'.db.checklistItems = w.db.checklistItems) :
      PromoteOutcome p w (.error promoteFailed) w'
  | promoted {w' : World} {item done : ChecklistItemRow} {card : CardWithDetails}
      (hitem : w.db.checklistItems.get? p.itemId = some item)
      (hcreates : CreatesSubcard w.db w'.db p.cardId item.content card.id)
      (hmarked : w'.db.checklistItems.get? p.itemId = some done) (hdone : done.isDone = true) :
      PromoteOutcome p w (.ok card) w'

/-- Whatever is rejected, a promotion ends in one of the three ways. -/
theorem ends_promote (ranking : Ranking) (p : Promotion) (w : World) :
    Ends ranking (p.program ranking) w (PromoteOutcome p w) := by
  have herror : ∀ e : AppError, e.Ordinary → PromoteOutcome p w (.error e) w :=
    fun e he => .refused he.ne
  apply ends_reads_bind (CardProgram.reads_verifyBoardInWorkspace _ _)
    (CardProgram.fails_verifyBoardInWorkspace _ _) herror
  intro _
  apply ends_reads_bind (CardProgram.reads_findCard _ _) (CardProgram.fails_findCard _ _) herror
  intro _
  apply yields_bind.mpr
  apply (ends_getItemInChecklist p.itemId p.checklistId).imp
  rintro (e | item) w' hfound
  · obtain ⟨he, rfl⟩ := hfound
    exact herror e he
  obtain ⟨hitem, rfl⟩ := hfound
  apply yields_bind.mpr
  apply (ends_createSubcard p.boardId p.workspaceId p.cardId p.userId _).imp
  rintro (e | subcard) w' hcreated
  · obtain ⟨he, rfl⟩ := hcreated
    exact herror e he
  obtain ⟨hcreates, hitems⟩ := hcreated
  apply yields_bind.mpr
  apply (ends_markDone p.itemId).imp
  rintro (e | _) w'' hmark
  · obtain ⟨rfl, rfl⟩ := hmark
    exact .unmarked hitem hcreates hitems
  obtain ⟨hcards, done, hmarked, hdone⟩ := hmark
  -- the event is not rejected
  apply yields_bind.mpr
  apply yields_rejectable_await
  · intro hmay
    cases hmay
  intro _
  exact .promoted hitem (hcreates.congr hcards) hmarked hdone

def cardIds (db : Database) : Finset Uuid :=
  (db.cards.rows.map Prod.fst).toFinset

theorem mem_cardIds {db : Database} {id : Uuid} : id ∈ cardIds db ↔ db.cards.get? id ≠ none := by
  rw [cardIds, List.mem_toFinset, ne_eq, Table.get?_eq_none_iff, not_not]

theorem CreatesSubcard.created {db db' : Database} {parentId id : Uuid} {title : JsString}
    (h : CreatesSubcard db db' parentId title id) : cardIds db' \ cardIds db = {id} := by
  ext j
  rw [Finset.mem_sdiff, mem_cardIds, mem_cardIds, not_not, Finset.mem_singleton]
  constructor
  · rintro ⟨hafter, hbefore⟩
    by_contra hj
    rw [h.only.cards j hj] at hafter
    exact hafter hbefore
  · rintro rfl
    obtain ⟨row, hrow, -⟩ := h.card
    exact ⟨by rw [hrow]; exact Option.some_ne_none row, h.fresh⟩

/-- A call, the world that it finds, and what its statements are given from outside, the
rejections among it. -/
structure Attempt where
  promotion : Promotion
  before : World
  supply : Nat → Option DbError × Outside

namespace Attempt
variable (ranking : Ranking) (a : Attempt)

/-- The outcome and the world that the attempt leaves. -/
def run : Except AppError CardWithDetails × World :=
  let ended := (a.promotion.program ranking).exec
    (supplied (rejecting (promoteAnswer ranking) PromoteStatement.mayReject)) (a.before, a.supply)
  (ended.1, ended.2.1)

/-- The cards that are there after the attempt and were not before. -/
def created : Finset Uuid :=
  cardIds (a.run ranking).2.db \ cardIds a.before.db

def succeeds : Bool :=
  (a.run ranking).1.isOk

def failsUnmarked : Bool :=
  match (a.run ranking).1 with
  | .ok _ => false
  | .error e => e == promoteFailed

theorem outcome : PromoteOutcome a.promotion a.before (a.run ranking).1 (a.run ranking).2 :=
  (ends_promote ranking a.promotion a.before).exec a.supply

/-- One card where the attempt succeeds or fails after the first write, none elsewhere. -/
theorem card_created : (a.created ranking).card =
    if a.succeeds ranking = true ∨ a.failsUnmarked ranking = true then 1 else 0 := by
  have houtcome := a.outcome ranking
  rw [created, succeeds, failsUnmarked]
  generalize a.run ranking = ended at houtcome
  obtain ⟨result, after⟩ := ended
  cases houtcome with
  | refused h =>
      rw [sdiff_self]
      simp [Except.isOk, Except.toBool, h]
  | unmarked hitem hcreates hitems =>
      rw [hcreates.created]
      simp
  | promoted hitem hcreates hmarked hdone =>
      rw [hcreates.created]
      simp [Except.isOk, Except.toBool]

end Attempt

/-- Over attempts up to the first that succeeds, one card is created by each that fails
after the first write, and one by the last. -/
theorem sum_created (ranking : Ranking) {failed : List Attempt} {last : Attempt}
    (hfailed : ∀ a ∈ failed, a.succeeds ranking = false) (hlast : last.succeeds ranking = true) :
    ((failed ++ [last]).map fun a => (a.created ranking).card).sum =
      failed.countP (fun a => a.failsUnmarked ranking) + 1 := by
  induction failed with
  | nil =>
      simp [Attempt.card_created, hlast]
  | cons a failed ih =>
      have hrest := ih fun b hb => hfailed b (List.mem_cons_of_mem a hb)
      rw [List.cons_append, List.map_cons, List.sum_cons, hrest, Attempt.card_created,
        hfailed a List.mem_cons_self, List.countP_cons]
      cases a.failsUnmarked ranking with
      | false => simp
      | true =>
          simp
          omega

/-- A promotion that throws anything but `PROMOTE_FAILED` changes nothing, and one that
throws `PROMOTE_FAILED` has created one subcard from the item and left the item as it was.
So over attempts up to the first that succeeds, one subcard is created for each
`PROMOTE_FAILED` and one by the last attempt. -/
theorem promoteItemToSubcard_leaves (ranking : Ranking) :
    (∀ (a : Attempt) (e : AppError), (a.run ranking).1 = .error e → e ≠ promoteFailed →
      (a.run ranking).2 = a.before) ∧
    (∀ a : Attempt, (a.run ranking).1 = .error promoteFailed →
      (∃ item id, a.before.db.checklistItems.get? a.promotion.itemId = some item ∧
        CreatesSubcard a.before.db (a.run ranking).2.db a.promotion.cardId item.content id ∧
        a.created ranking = {id}) ∧
      (a.run ranking).2.db.checklistItems = a.before.db.checklistItems) ∧
    ∀ (failed : List Attempt) (last : Attempt),
      (∀ a ∈ failed, a.succeeds ranking = false) → last.succeeds ranking = true →
        ((failed ++ [last]).map fun a => (a.created ranking).card).sum =
          failed.countP (fun a => a.failsUnmarked ranking) + 1 := by
  refine ⟨fun a e hthrows hother => ?_, fun a hthrows => ?_, fun _ _ => sum_created ranking⟩
  · have houtcome := a.outcome ranking
    generalize a.run ranking = ended at houtcome hthrows
    obtain ⟨result, after⟩ := ended
    cases houtcome with
    | refused => rfl
    | unmarked => exact absurd (Except.error.inj hthrows).symm hother
    | promoted => cases hthrows
  · have houtcome := a.outcome ranking
    rw [Attempt.created]
    generalize a.run ranking = ended at houtcome hthrows
    obtain ⟨result, after⟩ := ended
    cases houtcome with
    | refused h => exact absurd (Except.error.inj hthrows) h
    | unmarked hitem hcreates hitems =>
        exact ⟨⟨_, _, hitem, hcreates, hcreates.created⟩, hitems⟩
    | promoted => cases hthrows

/-- Board 20 with card 40, whose checklist 51 has the item 61. -/
def oneItem : Database where
  workspaces := oneBoard.workspaces
  users := oneBoard.users
  members := oneBoard.members
  boards := oneBoard.boards
  lists := oneBoard.lists
  cards := .single 40
    { listId := 30, title := js "Ship", rank := js "0|hzzzzz:", createdBy := 7, updatedAt := 0 }
  checklists := .single 51
    { cardId := 40, title := js "Steps", rank := js "0|hzzzzz:", updatedAt := 0 }
  checklistItems := .single 61
    { checklistId := 51, content := js "Call", rank := js "0|hzzzzz:", updatedAt := 0 }
  wellFormed :=
    { members := Table.All.of_rows (by decide)
      boards := Table.All.of_rows (by decide)
      starredBoards := Table.All.of_rows (by decide)
      lists := Table.All.of_rows (by decide)
      cards := Table.All.of_rows (by decide)
      cardAssignees := Table.All.of_rows (by decide)
      cardLabels := Table.All.of_rows (by decide)
      labels := Table.All.of_rows (by decide)
      checklists := Table.All.of_rows (by decide)
      checklistItems := Table.All.of_rows (by decide) }

/-- The update of the item, which is the ninth statement, is rejected. -/
def markRejected : Attempt where
  promotion := ⟨1, 20, 40, 51, 61, 7⟩
  before := { db := oneItem }
  supply n := (if n = 8 then some .recordNotFound else none, ⟨70, 1⟩)

/-- The next attempt succeeds. -/
def markRetried : Attempt where
  promotion := markRejected.promotion
  before := (markRejected.run firstRanks).2
  supply _ := (none, ⟨71, 2⟩)

/-- The attempt that throws leaves a subcard, and the retry another one. -/
theorem markRejected_leaves_subcard :
    markRejected.failsUnmarked firstRanks = true ∧ markRejected.created firstRanks = {70} ∧
      markRetried.succeeds firstRanks = true ∧ markRetried.created firstRanks = {71} := by
  decide +kernel

end SyncBoard.Board
