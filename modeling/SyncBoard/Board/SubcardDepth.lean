import Mathlib.Data.List.Lex
import SyncBoard.Board.Operations

/-!
# The depth of subcards

A subcard is not to have subcards of its own. `create` and `createSubcard` put a new
card below one that has no parent, and `attachSubcard` puts a card without parent and
without active subcards below another such card. A subcard that is archived at that
moment is not counted, and stays below the card that becomes a subcard. That a card
is not put below itself is asked of two strings, of which one is spelled by the client.
The depth stays at two exactly where no attach that passes its checks names a card with
a subcard that is archived but not deleted, or the parent itself.
-/

namespace SyncBoard.Board

open Relational Fallible Labelled

/-- No card that is not deleted has a parent that itself has a parent. -/
def DepthAtMostTwo (db : Database) : Prop :=
  ∀ cardId parentId card parent, db.cards.get? cardId = some card → card.deletedAt = none →
    card.parentCardId = some parentId → db.cards.get? parentId = some parent →
      parent.parentCardId = none

/-- No card that is not deleted has the card as its parent. -/
def Childless (db : Database) (cardId : Uuid) : Prop :=
  ∀ id card, db.cards.get? id = some card → card.deletedAt = none →
    card.parentCardId ≠ some cardId

/-- A call that attaches a card, where its checks pass, attaches one without any subcard to
another one. -/
def Operation.AttachesChildless (db : Database) : Operation → Prop
  | .card (.attachSubcard boardId workspaceId parentId subcardId _) =>
      AttachAccepted db boardId workspaceId parentId subcardId →
        subcardId ≠ parentId.id ∧ Childless db subcardId
  | _ => True

section Writes
variable {db db' : Database} {cardId : Uuid} {old new : CardRow}

/-- A write that gives a card no other parent, and does not bring it back. -/
theorem DepthAtMostTwo.rewrite (h : DepthAtMostTwo db) (hold : db.cards.get? cardId = some old)
    (hwrote : db.cards.Wrote db'.cards cardId new)
    (hdeleted : new.deletedAt = none → old.deletedAt = none)
    (hparent : new.parentCardId = old.parentCardId ∨ new.parentCardId = none) :
    DepthAtMostTwo db' := by
  have hlink : ∀ p, new.parentCardId = some p → old.parentCardId = some p := by
    intro p hp
    rcases hparent with hparent | hparent
    · exact hparent.symm.trans hp
    · rw [hparent] at hp
      cases hp
  -- a parent row of the new table stands for one of the old table
  have hback : ∀ p parent, db'.cards.get? p = some parent →
      ∃ before, db.cards.get? p = some before ∧
        (before.parentCardId = none → parent.parentCardId = none) := by
    intro p parent hp
    rcases hwrote.eq_or_old hp with ⟨rfl, rfl⟩ | ⟨-, hp⟩
    · refine ⟨old, hold, fun hnone => ?_⟩
      rcases hparent with hparent | hparent
      · exact hparent.trans hnone
      · exact hparent
    · exact ⟨parent, hp, id⟩
  intro c p card parent hcard hlive hp hparentRow
  obtain ⟨before, hbefore, hnone⟩ := hback p parent hparentRow
  apply hnone
  rcases hwrote.eq_or_old hcard with ⟨rfl, rfl⟩ | ⟨-, hcard⟩
  · exact h c p old before hold (hdeleted hlive) (hlink p hp) hbefore
  · exact h c p card before hcard hlive hp hbefore

/-- A new card below one that has no parent. -/
theorem DepthAtMostTwo.insert (h : DepthAtMostTwo db) (hfresh : db.cards.get? cardId = none)
    (hwrote : db.cards.Wrote db'.cards cardId new)
    (hparent : ∀ p ∈ new.parentCardId, ∃ parent, db.cards.get? p = some parent ∧
      parent.parentCardId = none) :
    DepthAtMostTwo db' := by
  intro c p card parent hcard hlive hp hparentRow
  have hexists : (∃ before, db.cards.get? p = some before) ∧
      ∀ before, db.cards.get? p = some before → before.parentCardId = none := by
    rcases hwrote.eq_or_old hcard with ⟨rfl, rfl⟩ | ⟨-, hcard⟩
    · obtain ⟨row, hrow, hnone⟩ := hparent p hp
      refine ⟨⟨row, hrow⟩, fun before hbefore => ?_⟩
      rwa [← Option.some.inj (hrow.symm.trans hbefore)]
    · have hkey := (db.wellFormed.cards c card hcard).2.2.1
      rw [hp, Option.all_some] at hkey
      exact ⟨(db.cards.contains_iff p).mp hkey, fun before => h c p card before hcard hlive hp⟩
  obtain ⟨⟨before, hbefore⟩, hnone⟩ := hexists
  rcases hwrote.eq_or_old hparentRow with ⟨rfl, rfl⟩ | ⟨-, hparentRow⟩
  · rw [hfresh] at hbefore
    cases hbefore
  · exact hnone parent hparentRow

/-- A card without parent that comes below a card without parent: the depth stays exactly
where they are two cards and the first has no subcard. -/
theorem depthAtMostTwo_attach {parentId : Uuid} {parent : CardRow} (h : DepthAtMostTwo db)
    (hold : db.cards.get? cardId = some old) (hfree : old.parentCardId = none)
    (hwrote : db.cards.Wrote db'.cards cardId new) (hnew : new.parentCardId = some parentId)
    (hlive : new.deletedAt = none)
    (hparent : db.cards.get? parentId = some parent) (hparentFree : parent.parentCardId = none) :
    DepthAtMostTwo db' ↔ cardId ≠ parentId ∧ Childless db cardId := by
  constructor
  · intro hdepth
    have hdistinct : cardId ≠ parentId := by
      rintro rfl
      have hnone := hdepth cardId cardId new new hwrote.self hlive hnew hwrote.self
      rw [hnew] at hnone
      cases hnone
    refine ⟨hdistinct, fun id card hcard hlive hchild => ?_⟩
    have hother : id ≠ cardId := by
      rintro rfl
      rw [← Option.some.inj (hold.symm.trans hcard), hfree] at hchild
      cases hchild
    have hnone := hdepth id cardId card new ((hwrote.other hother).trans hcard) hlive hchild
      hwrote.self
    rw [hnew] at hnone
    cases hnone
  · rintro ⟨hdistinct, hchildless⟩ c p card row hcard hlive hp hrow
    rcases hwrote.eq_or_old hcard with ⟨rfl, rfl⟩ | ⟨-, hcard⟩
    · obtain rfl : parentId = p := Option.some.inj (hnew.symm.trans hp)
      rw [hwrote.other hdistinct.symm, hparent] at hrow
      cases hrow
      exact hparentFree
    · have hother : p ≠ cardId := by
        rintro rfl
        exact hchildless c card hcard hlive hp
      rw [hwrote.other hother] at hrow
      exact h c p card row hcard hlive hp hrow

end Writes

section Steps
variable {env : Env} {w w' : World} {b ws c u : Uuid} {p : UuidText}

theorem FreeCard.row {db : Database} (h : FreeCard db b c) :
    ∃ row, db.cards.get? c = some row ∧ row.parentCardId = none := by
  obtain ⟨card, hcard, hfree⟩ := h
  exact ⟨card.row, (CardRepository.findActiveById_eq_some hcard).1, hfree⟩

/-- What an attach that passes its checks leaves is decided by the two cards and the subcards
of the card attached. -/
theorem depthAtMostTwo_attachSubcard (h : DepthAtMostTwo w.db)
    (haccepted : AttachAccepted w.db b ws p c)
    (hreturns : Returns ((Call.attachSubcard b ws p c u).run env) w () w') :
    DepthAtMostTwo w'.db ↔ c ≠ p.id ∧ Childless w.db c := by
  obtain ⟨child, hchild, hfree⟩ := haccepted.child
  obtain ⟨hrow, -, -⟩ := CardRepository.findActiveById_eq_some hchild
  obtain ⟨-, hlive⟩ := CardRepository.findActiveById_active hchild
  obtain ⟨parent, hparent, hparentFree⟩ := haccepted.parent.row
  obtain ⟨-, heffect⟩ := callEffect hreturns
  cases heffect with
  | kept hkept =>
      cases hkept
  | wrote hwrite hold hcards =>
      cases hwrite with
      | attachSubcard hnew =>
          obtain rfl := Option.some.inj (hrow.symm.trans hold)
          subst hnew
          exact depthAtMostTwo_attach h hrow hfree hcards rfl hlive hparent hparentFree

/-- Every other call keeps the depth. -/
theorem DepthAtMostTwo.call {call : Call} (h : DepthAtMostTwo w.db)
    (hother : ∀ b ws p c u, call ≠ .attachSubcard b ws p c u)
    (hreturns : Returns (call.run env) w () w') : DepthAtMostTwo w'.db := by
  obtain ⟨-, heffect⟩ := callEffect hreturns
  cases heffect with
  | kept _ hcards =>
      rw [DepthAtMostTwo, hcards]
      exact h
  | wrote hwrite hold hcards =>
      cases hwrite with
      | create hrow haccepted =>
          apply h.insert hold hcards
          subst hrow
          intro p hp
          obtain ⟨parent, hparent, hfree⟩ := haccepted.parent p hp
          exact FreeCard.row ⟨parent, hparent, hfree⟩
      | createSubcard hrow haccepted =>
          apply h.insert hold hcards
          subst hrow
          intro p hp
          obtain rfl := Option.some.inj hp
          obtain ⟨parent, hparent, hfree, -⟩ := haccepted.parent
          exact FreeCard.row ⟨parent, hparent, hfree⟩
      | attachSubcard =>
          exact absurd rfl (hother _ _ _ _ _)
      | detachSubcard hnew =>
          subst hnew
          exact h.rewrite hold hcards id (.inr rfl)
      | deletePermanently hnew _ hopen =>
          exact h.rewrite hold hcards (fun _ => hopen) (.inl (by rw [hnew]))
      | update hnew | updatePriority hnew | updateStatus hnew | move _ hnew | archive hnew
      | unarchive hnew =>
          subst hnew
          exact h.rewrite hold hcards id (.inl rfl)

/-- A request other than an attach keeps the depth. -/
theorem DepthAtMostTwo.request {ranking : Ranking} {r : Request} (h : DepthAtMostTwo w.db)
    (hother : ∀ b ws p c u, r.operation ≠ .card (.attachSubcard b ws p c u))
    (hstep : step ranking w r = some w') : DepthAtMostTwo w'.db := by
  rcases step_cases hstep with hreturns | rfl
  · obtain ⟨op, newId, now⟩ := r
    cases op with
    | card call =>
        exact h.call (fun b ws p c u heq => hother b ws p c u (congrArg Operation.card heq))
          hreturns
    | list call =>
        rw [DepthAtMostTwo, (listEffect hreturns).cards]
        exact h
    | board call =>
        rw [DepthAtMostTwo, (boardEffect hreturns).cards]
        exact h
  · exact h

/-- An attach keeps the depth exactly where it is refused, or the card attached is another one
than the parent and has no subcard. -/
theorem depthAtMostTwo_attachRequest {ranking : Ranking} {newId : Uuid} {now : Timestamp}
    (h : DepthAtMostTwo w.db)
    (hstep : step ranking w ⟨.card (.attachSubcard b ws p c u), newId, now⟩ = some w') :
    DepthAtMostTwo w'.db ↔ (AttachAccepted w.db b ws p c → c ≠ p.id ∧ Childless w.db c) := by
  by_cases haccepted : AttachAccepted w.db b ws p c
  · obtain ⟨card, w₁, hattached⟩ := exists_attachSubcard haccepted
    have hreturns : Returns ((Call.attachSubcard b ws p c u).run
        ⟨ranking.lexorank, ranking.rankLe, newId, now⟩) w () w₁ :=
      returns_discard.mpr ⟨card, hattached⟩
    have hstep₁ : step ranking w ⟨.card (.attachSubcard b ws p c u), newId, now⟩ = some w₁ :=
      step_of_returns hreturns
    obtain rfl := Option.some.inj (hstep₁.symm.trans hstep)
    rw [depthAtMostTwo_attachSubcard h haccepted hreturns]
    exact ⟨fun hapart _ => hapart, fun hapart => hapart haccepted⟩
  · refine iff_of_true ?_ fun h => absurd h haccepted
    rcases step_cases hstep with hreturns | rfl
    · -- the call returned, so its checks have passed
      have hreturns : Returns ((Call.attachSubcard b ws p c u).run
        ⟨ranking.lexorank, ranking.rankLe, newId, now⟩) w () w' := hreturns
      obtain ⟨-, heffect⟩ := callEffect hreturns
      cases heffect with
      | kept hkept => cases hkept
      | wrote hwrite =>
          cases hwrite with
          | attachSubcard _ h => exact absurd h haccepted
    · exact h

/-- One request keeps the depth exactly where it attaches no card with a subcard and none to
itself. -/
theorem depthAtMostTwo_step {ranking : Ranking} {r : Request} (h : DepthAtMostTwo w.db)
    (hstep : step ranking w r = some w') :
    DepthAtMostTwo w'.db ↔ r.operation.AttachesChildless w.db := by
  obtain ⟨op, newId, now⟩ := r
  by_cases hattach : ∃ b ws p c u, op = .card (.attachSubcard b ws p c u)
  · obtain ⟨b, ws, p, c, u, rfl⟩ := hattach
    exact depthAtMostTwo_attachRequest h hstep
  · simp only [not_exists] at hattach
    refine iff_of_true (h.request hattach hstep) ?_
    cases op with
    | card call =>
        cases call with
        | attachSubcard b ws p c u => exact absurd rfl (hattach b ws p c u)
        | _ => trivial
    | list call => trivial
    | board call => trivial

end Steps

/-- In a run of requests no card that is not deleted comes to have a parent with a
parent exactly when no attach that passes its checks names a card with a subcard
that is not deleted, or the parent itself. -/
theorem depthKept_iff (ranking : Ranking) {w w' : World} {rs : List Request}
    (run : Run (step ranking) w rs w') (h : DepthAtMostTwo w.db) :
    AllStates (step ranking) (fun w => DepthAtMostTwo w.db) w rs ↔
      AllSteps (step ranking) (fun w r => r.operation.AttachesChildless w.db) w rs :=
  allStates_iff_allSteps (I := fun _ => True) (fun _ _ _ _ _ => trivial)
    (fun _ _ _ _ hdepth hstep => depthAtMostTwo_step hdepth hstep) run trivial h

/-- Board 20 of workspace 1 with list 30; user 7 is a member. -/
def oneBoard : Database where
  workspaces := ⟨[(1, ())], by decide⟩
  users := ⟨[(7, ())], by decide⟩
  members := ⟨[((1, 7), ())], by decide⟩
  boards := ⟨[(20, { workspaceId := 1, title := js "Plans", createdBy := 7, updatedAt := 0 })],
    by decide⟩
  lists := ⟨[(30, { boardId := 20, title := js "Open", rank := js "0|hzzzzz:", updatedAt := 0 })],
    by decide⟩
  wellFormed :=
    { members := Table.All.of_rows (by decide)
      boards := Table.All.of_rows (by decide)
      starredBoards := Table.All.of_rows (by decide)
      lists := Table.All.of_rows (by decide)
      cards := Table.All.of_rows (by decide)
      cardAssignees := Table.All.of_rows (by decide)
      cardLabels := Table.All.of_rows (by decide)
      labels := Table.All.of_rows (by decide)
      checklists := Table.All.of_rows (by decide)
      checklistItems := Table.All.of_rows (by decide) }

/-- The first ranks of a list; the other functions of the package are not reached. -/
def firstRanks : Ranking where
  lexorank :=
    { middle := js "0|hzzzzz:"
      genPrev := fun _ => none
      genNext := fun rank =>
        if rank = js "0|hzzzzz:" then some (js "0|i00007:")
        else if rank = js "0|i00007:" then some (js "0|i0000f:")
        else none
      between := fun _ _ => none }
  rankLe := fun a b => decide (a ≤ b)

/-- Cards 40 and 41, and 42 below 41; then 42 is archived and 41 attached to 40. -/
def attachAfterArchive : List Request :=
  [⟨.card (.create 20 1 30 { title := js "Ship" } 7), 40, 1⟩,
    ⟨.card (.create 20 1 30 { title := js "Test" } 7), 41, 2⟩,
    ⟨.card (.createSubcard 20 1 41 { title := js "Write tests" } 7), 42, 3⟩,
    ⟨.card (.archive 20 1 42 7), 0, 4⟩,
    ⟨.card (.attachSubcard 20 1 40 41 7), 0, 5⟩]

/-- The archived card 42 is left with a parent that has the parent 40. -/
theorem attachAfterArchive_deepens : ¬ AllStates (step firstRanks)
    (fun w => DepthAtMostTwo w.db) { db := oneBoard } attachAfterArchive := by
  intro h
  have hlast := h attachAfterArchive _ (List.prefix_refl _) (run_of_exec rfl)
  have hnone := hlast 42 41 _ _ rfl rfl rfl rfl
  cases hnone

/-- A card without subcards is attached, and the depth stays at two. -/
theorem attach_keeps_depth : AllStates (step firstRanks) (fun w => DepthAtMostTwo w.db)
    { db := oneBoard }
    [⟨.card (.create 20 1 30 { title := js "Ship" } 7), 40, 1⟩,
      ⟨.card (.create 20 1 30 { title := js "Test" } 7), 41, 2⟩,
      ⟨.card (.attachSubcard 20 1 40 41 7), 0, 3⟩] := by
  have hstart : DepthAtMostTwo oneBoard := by
    intro c p card parent hcard
    cases hcard
  apply (depthKept_iff firstRanks (run_of_exec rfl) hstart).mpr
  refine allSteps_cons.mpr ⟨trivial, fun w₁ h₁ => allSteps_cons.mpr ⟨trivial, fun w₂ h₂ => ?_⟩⟩
  obtain rfl := Option.some.inj h₁
  obtain rfl := Option.some.inj h₂
  refine allSteps_cons.mpr ⟨fun _ => ⟨by decide, ?_⟩, fun _ _ => allSteps_nil⟩
  exact Table.all_iff_rows.mpr (by decide)

end SyncBoard.Board
