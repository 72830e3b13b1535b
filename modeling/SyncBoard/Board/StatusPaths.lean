import SyncBoard.Board.StatusCompletion

/-!
# The two paths to a status

`update` gives a card a status by its name or by the flag, `updateStatus` by its name.
Where the flags of the table are derived, both leave the card with the same status and
flag, also where the card has that status already and `updateStatus` writes nothing.
-/

namespace SyncBoard.Board

open Relational Fallible

/-- The status and the flag of a card. -/
def statusOf (w : World) (cardId : Uuid) : Option (CardStatus × Bool) :=
  (w.db.cards.get? cardId).map fun card => (card.status, card.isComplete)

/-- A payload that gives a card a status, by name or by the flag, leaves the card as
`updateStatus` does with that status. -/
def PathsAgree (w : World) : Prop :=
  ∀ (env : Env) (boardId workspaceId cardId userId : Uuid) (dto : UpdateCardDto)
    (existing : CardRow) (status : CardStatus), w.db.cards.get? cardId = some existing →
      (CardService.statusPatch existing dto).1 = some status →
        statusOf (exec (CardService.update env boardId workspaceId cardId dto userId) w).2 cardId =
          statusOf
            (exec (CardService.updateStatus env boardId workspaceId cardId status userId) w).2 cardId

section Paths
variable {α β : Type} {env : Env} {w : World} {boardId workspaceId cardId userId : Uuid}
variable {existing : CardRow} {status : CardStatus}

/-- A call ends where it does not find what it looks for. -/
theorem exec_find (f : Database → Option α) (e : AppError) (rest : α → Service β) (w : World) :
    exec (find f e >>= rest) w =
      match f w.db with
      | some a => exec (rest a) w
      | none => (.error e, w) := by
  cases h : f w.db with
  | some a =>
      have hfind : exec (find f e) w = (.ok a, w) := returns_find.mpr ⟨h, rfl⟩
      rw [exec_bind, hfind]
  | none =>
      have hfind : exec (find f e) w = (.error e, w) := by
        change (match f w.db with
          | some a => (Except.ok a, w)
          | none => (Except.error e, w)) = _
        rw [h]
      rw [exec_bind, hfind]

/-- The status that a call leaves which does something with an active card of a board. -/
def statusAfter (w : World) (boardId workspaceId cardId : Uuid)
    (after : CardRow → Option (CardStatus × Bool)) : Option (CardStatus × Bool) :=
  match BoardRepository.findById w.db boardId (some workspaceId),
    CardRepository.findActiveById w.db cardId (some boardId) with
  | some _, some card => after card.row
  | _, _ => statusOf w cardId

/-- Both paths look up the board and the card. -/
theorem statusOf_onCard {rest : CardWithDetails → Service α}
    {after : CardRow → Option (CardStatus × Bool)}
    (hrest : ∀ card, w.db.cards.get? cardId = some card.row →
      statusOf (exec (rest card) w).2 cardId = after card.row) :
    statusOf (exec (CardService.verifyBoardInWorkspace boardId workspaceId >>= fun _ =>
        CardService.findCard cardId boardId >>= rest) w).2 cardId =
      statusAfter w boardId workspaceId cardId after := by
  have hverify : (CardService.verifyBoardInWorkspace boardId workspaceId >>= fun _ =>
      CardService.findCard cardId boardId >>= rest) =
        find (BoardRepository.findById · boardId (some workspaceId))
          (.entityNotFound "Board" boardId) >>= fun _ =>
            CardService.findCard cardId boardId >>= rest := by
    rw [CardService.verifyBoardInWorkspace]
    simp only [bind_assoc, pure_bind]
  rw [hverify, exec_find, statusAfter]
  cases BoardRepository.findById w.db boardId (some workspaceId) with
  | none => rfl
  | some board =>
      dsimp only
      rw [CardService.findCard, exec_find]
      cases hcard : CardRepository.findActiveById w.db cardId (some boardId) with
      | none => rfl
      | some card => exact hrest card (CardRepository.findActiveById_eq_some hcard).1

/-- The write of either path, after which it only emits. -/
theorem statusOf_saved {data : CardRow → CardRow} {now : Timestamp} {rejected : DbError → AppError}
    {rest : Card → Service α} (hold : w.db.cards.get? cardId = some existing)
    (hlist : (data existing).listId = existing.listId)
    (hcreator : (data existing).createdBy = existing.createdBy)
    (hrank : (data existing).rank = existing.rank)
    (hparent : (data existing).parentCardId = existing.parentCardId)
    (hrest : ∀ card u, (exec (rest card) u).2.db = u.db) :
    statusOf (exec (write (CardRepository.update · cardId data now) rejected >>= rest) w).2 cardId =
      some ((data existing).status, (data existing).isComplete) := by
  obtain ⟨card, db, hupdate⟩ :=
    CardRepository.exists_update data hold hlist hcreator hrank (.inl hparent) now
  have hwrite : exec (write (CardRepository.update · cardId data now) rejected) w =
      (.ok card, { w with db := db }) := by
    apply returns_write.mpr
    exact ⟨db, hupdate, rfl⟩
  obtain ⟨old, hold', -, hwrote, -, -⟩ := CardRepository.update_wrote hupdate
  obtain rfl := Option.some.inj (hold.symm.trans hold')
  rw [exec_bind, hwrite]
  change ((exec (rest card) { w with db := db }).2.db.cards.get? cardId).map _ = _
  rw [hrest, hwrote.self]
  rfl

theorem statusOf_update {dto : UpdateCardDto} (hold : w.db.cards.get? cardId = some existing)
    (hstatus : (CardService.statusPatch existing dto).1 = some status) :
    statusOf (exec (CardService.update env boardId workspaceId cardId dto userId) w).2 cardId =
      statusAfter w boardId workspaceId cardId
        fun _ => some (status, isCompleteFromStatus status) := by
  have hflag : (CardService.statusPatch existing dto).2 = some (isCompleteFromStatus status) := by
    rw [statusPatch_derived, hstatus]
    rfl
  apply statusOf_onCard
  intro card hcard
  obtain rfl := Option.some.inj (hold.symm.trans hcard)
  rw [statusOf_saved hcard rfl rfl rfl rfl fun _ _ => rfl]
  simp only [CardService.patch, hstatus, hflag, Option.getD_some]

theorem statusOf_updateStatus (hw : FlagsDerived w) :
    statusOf (exec (CardService.updateStatus env boardId workspaceId cardId status userId) w).2
        cardId =
      statusAfter w boardId workspaceId cardId
        fun _ => some (status, isCompleteFromStatus status) := by
  apply statusOf_onCard
  intro card hcard
  split
  · next hsame =>
      -- the card has the status already, and the flag with it
      have hstatus : card.row.status = status := by
        simpa [isStatusTransitionAllowed] using hsame
      have hflag : card.row.isComplete = isCompleteFromStatus card.row.status :=
        hw cardId card.row hcard
      change (w.db.cards.get? cardId).map _ = _
      rw [hcard, Option.map_some, hflag, hstatus]
  · exact statusOf_saved hcard rfl rfl rfl rfl fun _ _ => rfl

/-- The two paths leave the same status and flag. -/
theorem pathsAgree (hw : FlagsDerived w) : PathsAgree w := by
  intro env boardId workspaceId cardId userId dto existing status hold hstatus
  rw [statusOf_update hold hstatus, statusOf_updateStatus hw]

end Paths

end SyncBoard.Board
