import SyncBoard.Board.CallEffects

/-!
# Tenant isolation of card and label mutations

Whoever calls is known to be a member of the workspace in the path; the ids of
board, list, card, label and user are whatever the client sends. The calls that
look the board up in the workspace keep tenants apart in every database.
`create`, `addAssignee` and `addLabel` take the board from the path unchecked,
and the two label calls the card from the body: they keep tenants apart exactly
where the unchecked id happens to be the workspace's own.
-/

namespace SyncBoard.Board

open Relational Fallible

/-- The ids that a call does not verify are the workspace's own, or the call
does not get as far as writing with them. -/
def Call.UnverifiedInScope (env : Env) (db : Database) : Call → Prop
  | .create boardId workspaceId listId dto userId =>
      CreateAccepted env db boardId workspaceId listId dto userId →
        workspaceOf db boardId = some workspaceId
  | .addAssignee boardId workspaceId cardId assigneeUserId _ =>
      (CardRepository.findActiveById db cardId (some boardId)).isSome = true →
        WorkspaceService.isUserMember db workspaceId assigneeUserId = true →
          db.cardAssignees.contains (cardId, assigneeUserId) = false →
            workspaceOf db boardId = some workspaceId
  | .addLabel boardId workspaceId cardId labelId =>
      (CardRepository.findActiveById db cardId (some boardId)).isSome = true →
        CardService.labelAvailable db workspaceId labelId = true →
          db.cardLabels.contains (cardId, labelId) = false →
            workspaceOf db boardId = some workspaceId
  | .createLabel boardId workspaceId dto =>
      (BoardRepository.findById db boardId (some workspaceId)).isSome = true →
        db.labels.get? env.newId = none → ∀ cardId ∈ dto.cardId,
          db.cards.contains cardId = true → InScope db (some boardId, workspaceId) cardId
  | .createWorkspaceLabel workspaceId dto =>
      db.workspaces.contains workspaceId = true →
        db.labels.get? env.newId = none → ∀ cardId ∈ dto.cardId,
          db.cards.contains cardId = true → InScope db (none, workspaceId) cardId
  | _ => True

section Exactly
variable {env : Env} {w : World} {boardId workspaceId : Uuid}

theorem KeepsTenantsApart.of_returned {call : Call}
    (h : ∀ w', Returns (call.run env) w () w' →
      SameCards w.db w'.db ∨ ∃ c, Confined w.db w'.db call.scope c) :
    KeepsTenantsApart env call w where
  failed e w' ht := by rw [clean_run env call w e w' ht]
  returned w' hr c ht := by
    rcases h w' hr with hsame | ⟨cardId, hconfined⟩
    · exact absurd ht (hsame.not_touched c)
    · exact hconfined.touched ht

/-- A call that writes to a card of its scope wherever it returns. -/
theorem KeepsTenantsApart.of_confined {call : Call} {cardId : Uuid}
    (h : ∀ w', Returns (call.run env) w () w' → Confined w.db w'.db call.scope cardId) :
    KeepsTenantsApart env call w :=
  KeepsTenantsApart.of_returned fun w' hr => .inr ⟨cardId, h w' hr⟩

theorem KeepsTenantsApart.of_confined_result {α : Type} {call : Call} {x : Service α}
    {cardId : Uuid} (hrun : call.run env = do let _ ← x)
    (h : ∀ a w', Returns x w a w' → Confined w.db w'.db call.scope cardId) :
    KeepsTenantsApart env call w := by
  apply KeepsTenantsApart.of_confined
  intro w' hr
  rw [hrun] at hr
  obtain ⟨a, hr⟩ := returns_discard.mp hr
  exact h a w' hr

/-- A call that takes the board from the path unverified. It returns exactly
where it is accepted, and then writes to one card of that board, unless what it
writes is present already. -/
theorem keepsTenantsApart_unverified {call : Call} (cardId : Uuid) (present : Prop)
    {accepted : Prop} (hscope : call.scope = (some boardId, workspaceId))
    (hreturns : accepted → ∃ w', Returns (call.run env) w () w')
    (heffect : ∀ w', Returns (call.run env) w () w' → accepted ∧ OnlyCard w.db w'.db cardId ∧
      boardOf w'.db cardId = some boardId ∧
      (w.db.cards.contains cardId = true → boardOf w.db cardId = some boardId) ∧
      (present → SameCards w.db w'.db) ∧ (¬ present → Touched w.db w'.db cardId)) :
    KeepsTenantsApart env call w ↔
      (accepted → ¬ present → workspaceOf w.db boardId = some workspaceId) := by
  constructor
  · intro h haccepted habsent
    obtain ⟨w', hr⟩ := hreturns haccepted
    obtain ⟨-, honly, -, -, -, htouched⟩ := heffect w' hr
    obtain ⟨⟨b, -, hw, hb⟩, -⟩ := h.returned w' hr cardId (htouched habsent)
    rw [hscope] at hw hb
    obtain rfl := hb boardId rfl
    calc workspaceOf w.db b
        = workspaceOf w'.db b := (honly.workspaceOf_eq b).symm
      _ = some workspaceId := hw
  · intro h
    apply KeepsTenantsApart.of_returned
    intro w' hr
    obtain ⟨haccepted, honly, hafter, hbefore, hsame, -⟩ := heffect w' hr
    by_cases hpresent : present
    · exact .inl (hsame hpresent)
    · have hw := h haccepted hpresent
      rw [hscope]
      refine .inr ⟨cardId, honly, ?_, fun hcontains => ?_⟩
      · exact ⟨boardId, hafter, (honly.workspaceOf_eq boardId).trans hw, by simp⟩
      · exact ⟨boardId, hbefore hcontains, hw, by simp⟩

theorem keepsTenantsApart_create (listId : Uuid) (dto : CreateCardDto) (userId : Uuid) :
    KeepsTenantsApart env (.create boardId workspaceId listId dto userId) w ↔
      (Call.create boardId workspaceId listId dto userId).UnverifiedInScope env w.db := by
  have hreturns (haccepted : CreateAccepted env w.db boardId workspaceId listId dto userId) :
      ∃ w', Returns ((Call.create boardId workspaceId listId dto userId).run env) w () w' := by
    obtain ⟨card, w', hr⟩ := exists_create haccepted
    exact ⟨w', returns_discard.mpr ⟨card, hr⟩⟩
  rw [keepsTenantsApart_unverified env.newId False rfl hreturns]
  · simp [Call.UnverifiedInScope]
  · intro w' hr
    obtain ⟨card, hr⟩ := returns_discard.mp hr
    obtain ⟨haccepted, honly, hboard⟩ := returns_create hr
    obtain ⟨row, -, hrow, -⟩ := boardOf_eq_some.mp hboard
    refine ⟨haccepted, honly, hboard, fun hcontains => ?_, False.elim, fun _ => .inl ?_⟩
    · simp [Table.contains, haccepted.fresh] at hcontains
    · simp [hrow, haccepted.fresh]

theorem keepsTenantsApart_addAssignee (cardId assigneeUserId addedBy : Uuid) :
    KeepsTenantsApart env (.addAssignee boardId workspaceId cardId assigneeUserId addedBy) w ↔
      (Call.addAssignee boardId workspaceId cardId assigneeUserId addedBy).UnverifiedInScope
        env w.db := by
  have hreturns (haccepted :
      (∃ card, CardRepository.findActiveById w.db cardId (some boardId) = some card) ∧
        WorkspaceService.isUserMember w.db workspaceId assigneeUserId = true) :
      ∃ w', Returns ((Call.addAssignee boardId workspaceId cardId assigneeUserId addedBy).run env)
        w () w' := by
    obtain ⟨⟨card, hcard⟩, hmember⟩ := haccepted
    exact exists_addAssignee hcard hmember
  rw [keepsTenantsApart_unverified cardId
    (w.db.cardAssignees.contains (cardId, assigneeUserId) = true) rfl hreturns]
  · simp [Call.UnverifiedInScope, Option.isSome_iff_exists]
  · intro w' hr
    obtain ⟨⟨card, hcard⟩, hmember, hlinks, hafter, hpresent⟩ := returns_addAssignee hr
    obtain ⟨-, -, hboard⟩ := CardRepository.findActiveById_eq_some hcard
    refine ⟨⟨⟨card, hcard⟩, hmember⟩, hlinks.toOnlyCard, (hlinks.boardOf_eq cardId).trans hboard,
      fun _ => hboard, fun h => ?_, fun habsent => .inr (.inl ⟨assigneeUserId, fun hsame => ?_⟩)⟩
    · rw [hpresent h]
      exact SameCards.refl w.db
    · rw [Table.contains, hsame] at hafter
      exact habsent hafter

theorem keepsTenantsApart_addLabel (cardId labelId : Uuid) :
    KeepsTenantsApart env (.addLabel boardId workspaceId cardId labelId) w ↔
      (Call.addLabel boardId workspaceId cardId labelId).UnverifiedInScope env w.db := by
  have hreturns (haccepted :
      (∃ card, CardRepository.findActiveById w.db cardId (some boardId) = some card) ∧
        CardService.labelAvailable w.db workspaceId labelId = true) :
      ∃ w', Returns ((Call.addLabel boardId workspaceId cardId labelId).run env) w () w' := by
    obtain ⟨⟨card, hcard⟩, hlabel⟩ := haccepted
    exact exists_addLabel hcard hlabel
  rw [keepsTenantsApart_unverified cardId
    (w.db.cardLabels.contains (cardId, labelId) = true) rfl hreturns]
  · simp [Call.UnverifiedInScope, Option.isSome_iff_exists]
  · intro w' hr
    obtain ⟨⟨card, hcard⟩, hlabel, hlinks, hafter, hpresent⟩ := returns_addLabel hr
    obtain ⟨-, -, hboard⟩ := CardRepository.findActiveById_eq_some hcard
    refine ⟨⟨⟨card, hcard⟩, hlabel⟩, hlinks.toOnlyCard, (hlinks.boardOf_eq cardId).trans hboard,
      fun _ => hboard, fun h => ?_, fun habsent => .inr (.inr ⟨labelId, fun hsame => ?_⟩)⟩
    · rw [hpresent h]
      exact SameCards.refl w.db
    · rw [Table.contains, hsame] at hafter
      exact habsent hafter

/-- The two label calls, past what they check: where the new label comes to a
card, that card must be in the scope. -/
theorem keepsTenantsApart_createWithCard {call : Call} {data : LabelRow} {cardId : Option Uuid}
    {checked : Prop}
    (hrun : ∀ w', Returns (call.run env) w () w' ↔ checked ∧ ∃ label db,
      LabelRepository.createWithCard w.db env.newId data cardId = .ok (label, db) ∧
        { w with db := db } = w') :
    KeepsTenantsApart env call w ↔
      (checked → w.db.workspaces.contains data.workspaceId = true →
        w.db.labels.get? env.newId = none → ∀ c ∈ cardId, w.db.cards.contains c = true →
          InScope w.db call.scope c) := by
  constructor
  · intro h hchecked hkey hfresh c hc hcard
    obtain rfl : cardId = some c := hc
    obtain ⟨label, db, hcreate⟩ :=
      LabelRepository.createWithCard_of_accepted hfresh hkey hcard
    obtain ⟨-, -, -, -, -, hafter⟩ := LabelRepository.createWithCard_some hcreate
    apply (h.returned _ ((hrun _).mpr ⟨hchecked, label, db, hcreate, rfl⟩) c ?_).2 hcard
    refine .inr (.inr ⟨env.newId, ?_⟩)
    rw [cardLabel_fresh hfresh c]
    exact Option.isSome_iff_ne_none.mp hafter
  · intro h
    apply KeepsTenantsApart.of_returned
    intro w' hr
    obtain ⟨hchecked, label, db, hcreate, rfl⟩ := (hrun w').mp hr
    cases cardId with
    | none =>
        exact .inl (LabelRepository.createWithCard_none hcreate)
    | some c =>
        obtain ⟨hfresh, hkey, hcard, honly, hcards, -⟩ :=
          LabelRepository.createWithCard_some hcreate
        refine .inr ⟨c, Confined.of_footprint (h hchecked hkey hfresh c rfl hcard) honly ?_⟩
        rw [boardOf, boardOf, hcards, honly.lists]

theorem keepsTenantsApart_createLabel (dto : CreateLabelDto) :
    KeepsTenantsApart env (.createLabel boardId workspaceId dto) w ↔
      (Call.createLabel boardId workspaceId dto).UnverifiedInScope env w.db := by
  have hrun : ∀ w', Returns ((Call.createLabel boardId workspaceId dto).run env) w () w' ↔
      (∃ board, BoardRepository.findById w.db boardId (some workspaceId) = some board) ∧
        ∃ label db, LabelRepository.createWithCard w.db env.newId
          (LabelService.newLabel workspaceId dto) dto.cardId = .ok (label, db) ∧
            { w with db := db } = w' := by
    intro w'
    simp only [Call.run, returns_discard, LabelService.createLabel, returns_find_bind,
      returns_write]
    constructor
    · rintro ⟨label, board, hfind, db, hcreate, rfl⟩
      exact ⟨⟨board, hfind⟩, label, db, hcreate, rfl⟩
    · rintro ⟨⟨board, hfind⟩, label, db, hcreate, rfl⟩
      exact ⟨label, board, hfind, db, hcreate, rfl⟩
  rw [keepsTenantsApart_createWithCard hrun]
  constructor
  · intro h hboard hfresh c hc hcard
    obtain ⟨board, hfind⟩ := Option.isSome_iff_exists.mp hboard
    exact h ⟨board, hfind⟩ (BoardRepository.findById_eq_some hfind).2 hfresh c hc hcard
  · rintro h ⟨board, hfind⟩ - hfresh c hc hcard
    exact h (Option.isSome_iff_exists.mpr ⟨board, hfind⟩) hfresh c hc hcard

theorem keepsTenantsApart_createWorkspaceLabel (dto : CreateLabelDto) :
    KeepsTenantsApart env (.createWorkspaceLabel workspaceId dto) w ↔
      (Call.createWorkspaceLabel workspaceId dto).UnverifiedInScope env w.db := by
  have hrun : ∀ w', Returns ((Call.createWorkspaceLabel workspaceId dto).run env) w () w' ↔
      True ∧ ∃ label db, LabelRepository.createWithCard w.db env.newId
        (LabelService.newLabel workspaceId dto) dto.cardId = .ok (label, db) ∧
          { w with db := db } = w' := by
    intro w'
    simp only [Call.run, returns_discard, LabelService.createWorkspaceLabel, returns_write,
      true_and]
  rw [keepsTenantsApart_createWithCard hrun]
  constructor
  · intro h
    exact h trivial
  · intro h _
    exact h

/-- A call keeps tenants apart exactly where the ids it does not verify are in
the scope of the caller, or it does not get as far as writing with them. -/
theorem keepsTenantsApart_iff (env : Env) (call : Call) (w : World) :
    KeepsTenantsApart env call w ↔ call.UnverifiedInScope env w.db := by
  cases call with
  | create b ws listId dto userId =>
      exact keepsTenantsApart_create listId dto userId
  | addAssignee b ws c a addedBy =>
      exact keepsTenantsApart_addAssignee c a addedBy
  | addLabel b ws c l =>
      exact keepsTenantsApart_addLabel c l
  | createLabel b ws dto =>
      exact keepsTenantsApart_createLabel dto
  | createWorkspaceLabel ws dto =>
      exact keepsTenantsApart_createWorkspaceLabel dto
  | update =>
      exact iff_of_true (.of_confined_result rfl fun _ _ => confined_update) trivial
  | updatePriority =>
      exact iff_of_true (.of_confined_result rfl fun _ _ => confined_updatePriority) trivial
  | updateStatus =>
      exact iff_of_true (.of_confined_result rfl fun _ _ => confined_updateStatus) trivial
  | createSubcard =>
      exact iff_of_true (.of_confined_result rfl fun _ _ => confined_createSubcard) trivial
  | attachSubcard =>
      exact iff_of_true (.of_confined_result rfl fun _ _ => confined_attachSubcard) trivial
  | detachSubcard =>
      exact iff_of_true (.of_confined_result rfl fun _ _ => confined_detachSubcard) trivial
  | move =>
      exact iff_of_true (.of_confined_result rfl fun _ _ => confined_move) trivial
  | archive =>
      exact iff_of_true (.of_confined fun _ => confined_archive) trivial
  | unarchive =>
      exact iff_of_true (.of_confined_result rfl fun _ _ => confined_unarchive) trivial
  | deletePermanently =>
      exact iff_of_true (.of_confined fun _ => confined_deletePermanently) trivial
  | removeAssignee =>
      exact iff_of_true (.of_confined fun _ => confined_removeAssignee) trivial
  | removeLabel =>
      exact iff_of_true (.of_confined fun _ => confined_removeLabel) trivial

end Exactly

/-- User 7 is a member of workspace 1 only; board 20 with list 30 is in
workspace 2. -/
def twoWorkspaces : Database where
  workspaces := ⟨[(1, ()), (2, ())], by decide⟩
  users := .single 7 ()
  members := .single (1, 7) ()
  boards := .single 20 { workspaceId := 2, title := js "Plans", createdBy := 7, updatedAt := 0 }
  lists := .single 30 { boardId := 20, title := js "Open", rank := js "0|hzzzzz:", updatedAt := 0 }
  wellFormed :=
    { members := Table.All.of_rows (by decide)
      boards := Table.All.of_rows (by decide)
      starredBoards := Table.All.of_rows (by decide)
      lists := Table.All.of_rows (by decide)
      cards := Table.All.of_rows (by decide)
      cardAssignees := Table.All.of_rows (by decide)
      cardLabels := Table.All.of_rows (by decide)
      labels := Table.All.of_rows (by decide)
      checklists := Table.All.of_rows (by decide)
      checklistItems := Table.All.of_rows (by decide) }

/-- The rank of a first card is the middle rank; the other functions of the
package are not reached. -/
def firstCardEnv : Env where
  lexorank :=
    { middle := js "0|hzzzzz:"
      genPrev := fun _ => none
      genNext := fun _ => none
      between := fun _ _ => none }
  rankLe := fun _ _ => true
  newId := 40
  now := 1000

/-- A member of workspace 1 names workspace 1 in the path and a list of
workspace 2's board: the card is created there. -/
theorem create_crosses_tenants :
    ¬ KeepsTenantsApart firstCardEnv (.create 20 1 30 { title := js "Hello" } 7)
      { db := twoWorkspaces } := by
  rw [keepsTenantsApart_create]
  intro h
  have haccepted : CreateAccepted firstCardEnv twoWorkspaces 20 1 30 { title := js "Hello" } 7 :=
    { list := by decide
      assignees := by decide
      labels := by decide
      parent := by simp
      creator := by decide
      fresh := by decide
      rank := by decide }
  exact absurd (h haccepted) (by decide)

end SyncBoard.Board
