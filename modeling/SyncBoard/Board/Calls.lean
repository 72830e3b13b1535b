import SyncBoard.Board.CardService
import SyncBoard.Board.Footprint

/-!
# The mutating calls and their scope

A call of one of the card and label mutations, the board and workspace it is
given, and what it means that it keeps tenants apart: every card it touches is
on a board of that workspace (the board in the path, where there is one), and a
call that fails changes nothing. The second half holds of every call: the write
comes after all reads and checks, and nothing that can throw comes after it.
-/

namespace SyncBoard.Board

open Relational Fallible

/-- A call of one of the mutations, with its arguments. -/
inductive Call
  | create (boardId workspaceId listId : Uuid) (dto : CreateCardDto) (userId : Uuid)
  | update (boardId workspaceId cardId : Uuid) (dto : UpdateCardDto) (userId : Uuid)
  | updatePriority (boardId workspaceId cardId : Uuid) (priority : CardPriority) (userId : Uuid)
  | updateStatus (boardId workspaceId cardId : Uuid) (status : CardStatus) (userId : Uuid)
  | createSubcard (boardId workspaceId parentId : Uuid) (dto : CreateCardDto) (userId : Uuid)
  | attachSubcard (boardId workspaceId : Uuid) (parentId : UuidText) (subcardId userId : Uuid)
  | detachSubcard (boardId workspaceId subcardId userId : Uuid)
  | move (boardId workspaceId cardId : Uuid) (dto : MoveCardDto) (userId : Uuid)
  | archive (boardId workspaceId cardId userId : Uuid)
  | unarchive (boardId workspaceId cardId userId : Uuid)
  | deletePermanently (boardId workspaceId cardId userId : Uuid)
  | addAssignee (boardId workspaceId cardId assigneeUserId addedBy : Uuid)
  | removeAssignee (boardId workspaceId cardId assigneeUserId removedBy : Uuid)
  | addLabel (boardId workspaceId cardId labelId : Uuid)
  | removeLabel (boardId workspaceId cardId labelId : Uuid)
  | createLabel (boardId workspaceId : Uuid) (dto : CreateLabelDto)
  | createWorkspaceLabel (workspaceId : Uuid) (dto : CreateLabelDto)

namespace Call

/-- The service call; what it returns is dropped. -/
def run (env : Env) : Call → Service Unit
  | .create b w l dto u => do let _ ← CardService.create env b w l dto u
  | .update b w c dto u => do let _ ← CardService.update env b w c dto u
  | .updatePriority b w c p u => do let _ ← CardService.updatePriority env b w c p u
  | .updateStatus b w c s u => do let _ ← CardService.updateStatus env b w c s u
  | .createSubcard b w p dto u => do let _ ← CardService.createSubcard env b w p dto u
  | .attachSubcard b w p c u => do let _ ← CardService.attachSubcard env b w p c u
  | .detachSubcard b w c u => do let _ ← CardService.detachSubcard env b w c u
  | .move b w c dto u => do let _ ← CardService.move env b w c dto u
  | .archive b w c u => CardService.archive env b w c u
  | .unarchive b w c u => do let _ ← CardService.unarchive env b w c u
  | .deletePermanently b w c u => CardService.deletePermanently env b w c u
  | .addAssignee b w c a u => CardService.addAssignee env b w c a u
  | .removeAssignee b w c a u => CardService.removeAssignee b w c a u
  | .addLabel b w c l => CardService.addLabel b w c l
  | .removeLabel b w c l => CardService.removeLabel b w c l
  | .createLabel b w dto => do let _ ← LabelService.createLabel env b w dto
  | .createWorkspaceLabel w dto => do let _ ← LabelService.createWorkspaceLabel env w dto

/-- The board, where one is given, and the workspace of a call. -/
def scope : Call → Option Uuid × Uuid
  | .create b w _ _ _ | .update b w _ _ _ | .updatePriority b w _ _ _ | .updateStatus b w _ _ _
  | .createSubcard b w _ _ _ | .attachSubcard b w _ _ _ | .detachSubcard b w _ _
  | .move b w _ _ _ | .archive b w _ _ | .unarchive b w _ _ | .deletePermanently b w _ _
  | .addAssignee b w _ _ _ | .removeAssignee b w _ _ _ | .addLabel b w _ _
  | .removeLabel b w _ _ | .createLabel b w _ => (some b, w)
  | .createWorkspaceLabel w _ => (none, w)

end Call

/-- The card's list is on a board of the workspace, and on the board given. -/
def InScope (db : Database) (scope : Option Uuid × Uuid) (cardId : Uuid) : Prop :=
  ∃ b, boardOf db cardId = some b ∧ workspaceOf db b = some scope.2 ∧ ∀ b' ∈ scope.1, b = b'

/-- The card's row, or one of its assignee or label rows, was created, changed
or removed. -/
def Touched (db db' : Database) (cardId : Uuid) : Prop :=
  db'.cards.get? cardId ≠ db.cards.get? cardId ∨
    (∃ u, db'.cardAssignees.get? (cardId, u) ≠ db.cardAssignees.get? (cardId, u)) ∨
      ∃ l, db'.cardLabels.get? (cardId, l) ≠ db.cardLabels.get? (cardId, l)

/-- A call that fails leaves the database as it was; one that returns touches
cards of its scope only, judged before it and after it. -/
structure KeepsTenantsApart (env : Env) (call : Call) (w : World) : Prop where
  failed : ∀ e w', Throws (call.run env) w e w' → w'.db = w.db
  returned : ∀ w', Returns (call.run env) w () w' → ∀ c, Touched w.db w'.db c →
    InScope w'.db call.scope c ∧ (w.db.cards.contains c = true → InScope w.db call.scope c)

/-- One card of the scope, and nothing else, may have been touched. -/
structure Confined (db db' : Database) (scope : Option Uuid × Uuid) (cardId : Uuid) : Prop where
  footprint : OnlyCard db db' cardId
  after : InScope db' scope cardId
  before : db.cards.contains cardId = true → InScope db scope cardId

theorem OnlyCard.eq_of_touched {db db' : Database} {cardId c : Uuid}
    (h : OnlyCard db db' cardId) (ht : Touched db db' c) : c = cardId := by
  by_contra hne
  rcases ht with ht | ⟨u, ht⟩ | ⟨l, ht⟩
  · exact ht (h.cards c hne)
  · exact ht (h.cardAssignees c hne u)
  · exact ht (h.cardLabels c hne l)

theorem SameCards.not_touched {db db' : Database} (h : SameCards db db') (c : Uuid) :
    ¬ Touched db db' c := by
  simp [Touched, h.cards, h.cardAssignees, h.cardLabels]

theorem Confined.touched {db db' : Database} {scope : Option Uuid × Uuid} {cardId : Uuid}
    (h : Confined db db' scope cardId) {c : Uuid} (ht : Touched db db' c) :
    InScope db' scope c ∧ (db.cards.contains c = true → InScope db scope c) := by
  obtain rfl := h.footprint.eq_of_touched ht
  exact ⟨h.after, h.before⟩

/-- A write to a card of the scope that keeps it on its board. -/
theorem Confined.of_footprint {db db' : Database} {scope : Option Uuid × Uuid} {cardId : Uuid}
    (hscope : InScope db scope cardId) (h : OnlyCard db db' cardId)
    (hboard : boardOf db' cardId = boardOf db cardId) : Confined db db' scope cardId := by
  refine ⟨h, ?_, fun _ => hscope⟩
  obtain ⟨b, hb, hw, hb'⟩ := hscope
  exact ⟨b, hboard.trans hb, (h.workspaceOf_eq b).trans hw, hb'⟩

section Failures
variable {α : Type} {boardId workspaceId cardId : Uuid}

theorem reads_verifyBoardInWorkspace :
    Reads (CardService.verifyBoardInWorkspace boardId workspaceId) :=
  Reads.bind (reads_find _ _) fun _ => Reads.pure _

theorem reads_validateAssignees (assigneeIds : List Uuid) :
    Reads (CardService.validateAssignees workspaceId assigneeIds) :=
  Reads.forM assigneeIds fun _ => Reads.check _ _

theorem reads_validateLabels (labelIds : List Uuid) :
    Reads (CardService.validateLabels workspaceId labelIds) :=
  Reads.forM labelIds fun _ => Reads.check _ _

theorem reads_parentFor (parentCardId : Option Uuid) :
    Reads (CardService.parentFor boardId parentCardId) := by
  cases parentCardId with
  | none =>
      exact Reads.pure none
  | some parentCardId =>
      apply Reads.bind (reads_find _ _)
      intro parent
      exact Reads.bind (reads_refuseIf _ _) fun _ => Reads.pure _

theorem clean_onCard {f : CardWithDetails → Service α} (hf : ∀ card, Clean (f card)) :
    Clean (do
      CardService.verifyBoardInWorkspace boardId workspaceId
      let card ← CardService.findCard cardId boardId
      f card) :=
  Clean.after_reads reads_verifyBoardInWorkspace fun _ => Clean.after_reads (reads_find _ _) hf

theorem total_emit_return (event : CardEvent) (a : α) : Total (do emit event; return a) :=
  Total.bind (total_emit event) fun _ => Total.pure a

/-- A write is the last step that can fail. -/
theorem clean_writing {β : Type} {f : Database → Except DbError (α × Database)}
    {rejected : DbError → AppError} {rest : α → Service β} (hrest : ∀ a, Total (rest a)) :
    Clean (write f rejected >>= rest) :=
  Clean.before_total (clean_write f rejected) hrest

/-- Whatever a call throws, it throws before anything is written. -/
theorem clean_run (env : Env) (call : Call) : Clean (call.run env) := by
  cases call with
  | create =>
      apply Clean.before_total _ fun _ => Total.pure _
      apply Clean.after_reads (reads_find _ _)
      intro _
      apply Clean.after_reads (reads_validateAssignees _)
      intro _
      apply Clean.after_reads (reads_validateLabels _)
      intro _
      apply Clean.after_reads (reads_parentFor _)
      intro _
      apply Clean.after_reads (Reads.query _)
      intro _
      exact clean_writing fun _ => total_emit_return _ _
  | update =>
      apply Clean.before_total _ fun _ => Total.pure _
      exact clean_onCard fun _ => clean_writing fun _ => total_emit_return _ _
  | updatePriority =>
      apply Clean.before_total _ fun _ => Total.pure _
      apply clean_onCard
      intro existing
      split
      · exact (Total.pure _).clean
      · exact clean_writing fun _ => total_emit_return _ _
  | updateStatus =>
      apply Clean.before_total _ fun _ => Total.pure _
      apply clean_onCard
      intro existing
      split
      · exact (Total.pure _).clean
      · exact clean_writing fun _ => total_emit_return _ _
  | createSubcard =>
      apply Clean.before_total _ fun _ => Total.pure _
      apply clean_onCard
      intro parent
      apply Clean.after_reads (reads_refuseIf _ _)
      intro _
      apply Clean.after_reads (reads_validateAssignees _)
      intro _
      apply Clean.after_reads (reads_validateLabels _)
      intro _
      apply Clean.after_reads (Reads.query _)
      intro _
      exact clean_writing fun _ => total_emit_return _ _
  | attachSubcard =>
      apply Clean.before_total _ fun _ => Total.pure _
      apply clean_onCard
      intro parent
      apply Clean.after_reads (reads_refuseIf _ _)
      intro _
      apply Clean.after_reads (reads_find _ _)
      intro child
      apply Clean.after_reads (reads_refuseIf _ _)
      intro _
      apply Clean.after_reads (reads_refuseIf _ _)
      intro _
      apply Clean.after_reads (Reads.query _)
      intro _
      apply Clean.after_reads (reads_refuseIf _ _)
      intro _
      exact clean_writing fun _ => total_emit_return _ _
  | detachSubcard =>
      apply Clean.before_total _ fun _ => Total.pure _
      apply clean_onCard
      intro child
      apply Clean.after_reads (reads_refuseIf _ _)
      intro _
      exact clean_writing fun _ => total_emit_return _ _
  | move =>
      apply Clean.before_total _ fun _ => Total.pure _
      apply clean_onCard
      intro card
      apply Clean.after_reads (reads_find _ _)
      intro _
      exact clean_writing fun _ => total_emit_return _ _
  | archive =>
      exact clean_onCard fun _ => clean_writing fun _ => total_emit _
  | unarchive =>
      apply Clean.before_total _ fun _ => Total.pure _
      apply Clean.after_reads reads_verifyBoardInWorkspace
      intro _
      apply Clean.after_reads (reads_find _ _)
      intro _
      exact clean_writing fun _ => total_emit_return _ _
  | deletePermanently =>
      apply Clean.after_reads reads_verifyBoardInWorkspace
      intro _
      apply Clean.after_reads (reads_find _ _)
      intro _
      apply Clean.after_reads (reads_refuseIf _ _)
      intro _
      exact clean_writing fun _ => total_emit _
  | addAssignee =>
      apply Clean.after_reads (reads_find _ _)
      intro _
      apply Clean.after_reads (Reads.check _ _)
      intro _
      exact clean_writing fun _ => total_emit _
  | removeAssignee =>
      exact clean_onCard fun _ => clean_writing fun _ => total_emit _
  | addLabel =>
      apply Clean.after_reads (reads_find _ _)
      intro _
      apply Clean.after_reads (Reads.check _ _)
      intro _
      exact clean_write _ _
  | removeLabel =>
      exact clean_onCard fun _ => clean_write _ _
  | createLabel =>
      apply Clean.before_total _ fun _ => Total.pure _
      exact Clean.after_reads (reads_find _ _) fun _ => clean_write _ _
  | createWorkspaceLabel =>
      exact Clean.before_total (clean_write _ _) fun _ => Total.pure _

end Failures

end SyncBoard.Board
