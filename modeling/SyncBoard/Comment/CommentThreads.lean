import SyncBoard.Comment.CommentService

/-!
# Flat comment threads

`create` checks that the parent of a reply is a comment on the card and no reply itself,
and by the time of the insert that comment may have been edited or deleted. No statement
takes a row away or changes its card or its parent, so what was checked still holds, and
a thread has one level of replies in every interleaving.
-/

namespace SyncBoard.Comment

open Relational Relational.Table Interleaved Interleaved.Program Labelled

/-- A comment on the card that is no reply. -/
def StartsThread (comments : Comments) (cardId id : Uuid) : Prop :=
  ∃ row, comments.get? id = some row ∧ row.cardId = cardId ∧ row.parentCommentId = none

/-- The parent of every comment is on the same card and has no parent. -/
def ThreadsFlat (comments : Comments) : Prop :=
  comments.All fun _ row => ∀ parentId, row.parentCommentId = some parentId →
    StartsThread comments row.cardId parentId

/-- Every comment is still there, on its card and with its parent. -/
def Placed (comments comments' : Comments) : Prop :=
  ∀ id row, comments.get? id = some row → ∃ row', comments'.get? id = some row' ∧
    row'.cardId = row.cardId ∧ row'.parentCommentId = row.parentCommentId

/-- The parent of a comment that is inserted is on the card and no reply. -/
def ParentStands (comments : Comments) : CommentStatement → Prop
  | .create data => ∀ parentId, data.parentCommentId = some parentId →
      StartsThread comments data.cardId parentId
  | _ => True

/-- The statement inserts no comment. -/
def CommentStatement.InsertsNone : CommentStatement → Prop
  | .create _ => False
  | _ => True

section Statements
variable {comments comments' comments'' : Comments} {cardId id : Uuid}

theorem Placed.refl (comments : Comments) : Placed comments comments :=
  fun _ row h => ⟨row, h, rfl, rfl⟩

theorem Placed.trans (h : Placed comments comments') (h' : Placed comments' comments'') :
    Placed comments comments'' := by
  intro id row hrow
  obtain ⟨row', hrow', hcard, hparent⟩ := h id row hrow
  obtain ⟨row'', hrow'', hcard', hparent'⟩ := h' id row' hrow'
  exact ⟨row'', hrow'', hcard'.trans hcard, hparent'.trans hparent⟩

theorem StartsThread.placed (h : StartsThread comments cardId id)
    (hplaced : Placed comments comments') : StartsThread comments' cardId id := by
  obtain ⟨row, hrow, hcard, hparent⟩ := h
  obtain ⟨row', hrow', hcard', hparent'⟩ := hplaced id row hrow
  exact ⟨row', hrow', hcard'.trans hcard, hparent'.trans hparent⟩

theorem placed_insert {row : CardCommentRow} (hid : comments.get? id = none) :
    Placed comments (comments.insert id row hid) := by
  intro j old hold
  refine ⟨old, ?_, rfl, rfl⟩
  rw [get?_insert, if_neg, hold]
  rintro rfl
  cases hid.symm.trans hold

theorem ThreadsFlat.insert {row : CardCommentRow} (h : ThreadsFlat comments)
    (hid : comments.get? id = none)
    (hrow : ∀ parentId, row.parentCommentId = some parentId →
      StartsThread comments row.cardId parentId) :
    ThreadsFlat (comments.insert id row hid) := by
  apply All.insert (p := fun _ row => ∀ parentId, row.parentCommentId = some parentId →
    StartsThread (comments.insert id _ hid) row.cardId parentId) _ hid
  · exact fun parentId hparent => (hrow parentId hparent).placed (placed_insert hid)
  · intro j old hold parentId hparent
    exact (h j old hold parentId hparent).placed (placed_insert hid)

/-- A rewrite that leaves cards and parents alone. -/
theorem placed_modify {f : CardCommentRow → CardCommentRow}
    (hf : ∀ row, (f row).cardId = row.cardId ∧ (f row).parentCommentId = row.parentCommentId) :
    Placed comments (comments.modify id f) := by
  intro j old hold
  rw [get?_modify]
  split
  · exact ⟨f old, by rw [hold, Option.map_some], hf old⟩
  · exact ⟨old, hold, rfl, rfl⟩

theorem ThreadsFlat.modify {f : CardCommentRow → CardCommentRow} (h : ThreadsFlat comments)
    (hf : ∀ row, (f row).cardId = row.cardId ∧ (f row).parentCommentId = row.parentCommentId) :
    ThreadsFlat (comments.modify id f) := by
  have hplaced : Placed comments (comments.modify id f) := placed_modify hf
  intro j row hrow parentId hparent
  rw [get?_modify] at hrow
  split at hrow
  · obtain ⟨old, hold, rfl⟩ := Option.map_eq_some_iff.mp hrow
    rw [(hf old).2] at hparent
    rw [(hf old).1]
    exact (h j old hold parentId hparent).placed hplaced
  · exact (h j row hrow parentId hparent).placed hplaced

/-- Where the parent of an insert stands, a statement keeps every comment in its place
and the threads flat. -/
theorem placed_answer {x : Outside} {op : CommentStatement} {s : CommentStore}
    (hflat : ThreadsFlat s.comments) (hop : ParentStands s.comments op) :
    Placed s.comments (commentAnswer x op s).2.comments ∧
      ThreadsFlat (commentAnswer x op s).2.comments := by
  have hupdate : ∀ id (data : CardCommentRow → CardCommentRow),
      (∀ row, (data row).cardId = row.cardId ∧
        (data row).parentCommentId = row.parentCommentId) →
      Placed s.comments (CardCommentRepository.updateRow s.comments id data x.now).2 ∧
        ThreadsFlat (CardCommentRepository.updateRow s.comments id data x.now).2 := by
    intro id data hdata
    rw [CardCommentRepository.updateRow]
    split
    · exact ⟨placed_modify hdata, hflat.modify hdata⟩
    · exact ⟨.refl _, hflat⟩
  cases op with
  | create data =>
      change Placed s.comments (CardCommentRepository.create _ _ _ _ _).2 ∧
        ThreadsFlat (CardCommentRepository.create _ _ _ _ _).2
      rw [CardCommentRepository.create]
      split
      · split
        · next inserted hinserted =>
            obtain ⟨hid, rfl⟩ := insert?_eq_some hinserted
            exact ⟨placed_insert hid, hflat.insert hid hop⟩
        · exact ⟨.refl _, hflat⟩
      · exact ⟨.refl _, hflat⟩
  | update id content => exact hupdate id _ fun _ => ⟨rfl, rfl⟩
  | softDelete id => exact hupdate id _ fun _ => ⟨rfl, rfl⟩
  | findBoard | findCard | findActiveById | findUniqueOrThrow | findRepliesByParentId | emit =>
      exact ⟨.refl _, hflat⟩

theorem startsThread_of_findActiveById {comment : CardComment}
    (h : CardCommentRepository.findActiveById comments id cardId = some comment)
    (hparent : comment.row.parentCommentId.isSome = false) : StartsThread comments cardId id := by
  obtain ⟨row, hrow, rfl⟩ := Option.map_eq_some_iff.mp h
  obtain ⟨hget, hactive⟩ := Option.filter_eq_some_iff.mp hrow
  rw [Bool.and_eq_true, beq_iff_eq] at hactive
  exact ⟨row, hget, hactive.2, by simpa using hparent⟩

end Statements

section Calls
variable {log : Log CommentAnswer} {s : CommentStore}

/-- A program of which each insert finds the parent standing, whatever the other calls
do. -/
abbrev InsertsFlat {α : Type} (p : CommentProcedure α) (log : Log CommentAnswer)
    (s : CommentStore) (post : α → Log CommentAnswer → CommentStore → Prop) : Prop :=
  p.Safe commentAnswer (fun s t => Placed s.comments t.comments)
    (fun s => ThreadsFlat s.comments) (fun s _ op => ParentStands s.comments op) log s post

theorem CommentStatement.InsertsNone.parentStands {op : CommentStatement} (h : op.InsertsNone)
    (comments : Comments) : ParentStands comments op := by
  cases op with
  | create data => exact h.elim
  | _ => trivial

/-- What inserts nothing may come first. -/
theorem insertsFlat_bind_of_only {α β : Type} {p : CommentProcedure α}
    {f : α → CommentProcedure β} {post : β → Log CommentAnswer → CommentStore → Prop}
    (hp : p.Only CommentStatement.InsertsNone)
    (hf : ∀ a log s, InsertsFlat (f a) log s post) : InsertsFlat (p >>= f) log s post := by
  apply safe_bind.mpr
  exact Safe.of_only (fun t _ _ hop => hop.parentStands t.comments) hp
    fun a log' t _ => hf a log' t

theorem insertsFlat_of_only {α : Type} {p : CommentProcedure α}
    (hp : p.Only CommentStatement.InsertsNone) :
    InsertsFlat p log s fun _ _ _ => True :=
  Safe.of_only (fun t _ _ hop => hop.parentStands t.comments) hp fun _ _ _ _ => trivial

theorem only_verifyBoardInWorkspace (boardId workspaceId : Uuid) :
    (CardCommentService.verifyBoardInWorkspace boardId workspaceId).Only
      CommentStatement.InsertsNone :=
  (Only.ask trivial).bind fun _ => (Only.demand _ _).bind fun _ => Only.pure ()

theorem only_verifyCardInBoard (boardId cardId : Uuid) :
    (CardCommentService.verifyCardInBoard boardId cardId).Only CommentStatement.InsertsNone :=
  (Only.ask trivial).bind fun _ => (Only.demand _ _).bind fun _ => Only.pure ()

theorem only_findComment (commentId cardId : Uuid) :
    (CardCommentService.findComment commentId cardId).Only CommentStatement.InsertsNone :=
  (Only.ask trivial).bind fun _ => Only.demand _ _

theorem only_findUniqueOrThrow (id : Uuid) :
    (ask (CommentStatement.findUniqueOrThrow id) >>= fun comment =>
      orThrow CommentError.database comment : CommentProcedure CardComment).Only
        CommentStatement.InsertsNone :=
  (Only.ask trivial).bind fun _ => Only.orThrow _ _

/-- A parent that has been checked is on the card and no reply. -/
theorem insertsFlat_validateParent (cardId : Uuid) (parentCommentId : Option Uuid) :
    InsertsFlat (CardCommentService.validateParent cardId parentCommentId) log s
      fun _ _ t => ∀ parentId, parentCommentId = some parentId →
        StartsThread t.comments cardId parentId := by
  cases parentCommentId with
  | none =>
      apply safe_pure _ |>.mpr
      intro parentId h
      cases h
  | some parentId =>
      apply safe_bind.mpr
      refine safe_ask_bind.mpr fun t _ _ => ⟨trivial, fun x => ?_⟩
      refine safe_demand.mpr fun comment hcomment => safe_refuseIf.mpr fun hparent => ?_
      rintro _ ⟨⟩
      exact startsThread_of_findActiveById hcomment hparent

theorem insertsFlat_create (boardId workspaceId cardId : Uuid) (dto : CreateCommentDto)
    (userId : Uuid) :
    InsertsFlat (CardCommentService.create boardId workspaceId cardId dto userId) log s
      fun _ _ _ => True := by
  refine insertsFlat_bind_of_only (only_verifyBoardInWorkspace _ _) fun _ log₁ s₁ => ?_
  refine insertsFlat_bind_of_only (only_verifyCardInBoard _ _) fun _ log₂ s₂ => ?_
  refine safe_bind.mpr ((insertsFlat_validateParent _ _).imp fun _ log₃ s₃ hchecked => ?_)
  refine safe_bind.mpr (safe_ask_bind.mpr fun t hplaced _ => ⟨?_, fun x => ?_⟩)
  · -- the parent stands at the insert as it stood when it was read
    exact fun parentId hparent => (hchecked parentId hparent).placed hplaced
  · apply safe_bind.mp
    apply insertsFlat_of_only
    refine ((Only.orThrow _ _).bind fun id => only_findUniqueOrThrow id).bind fun comment => ?_
    exact (Only.ask trivial).bind fun _ => Only.pure comment

theorem only_update (boardId workspaceId cardId commentId : Uuid) (dto : UpdateCommentDto)
    (userId : Uuid) :
    (CardCommentService.update boardId workspaceId cardId commentId dto userId).Only
      CommentStatement.InsertsNone := by
  refine (only_verifyBoardInWorkspace _ _).bind fun _ => ?_
  refine (only_verifyCardInBoard _ _).bind fun _ => ?_
  refine (only_findComment _ _).bind fun comment => (Only.refuseIf _ _).bind fun _ => ?_
  refine Only.bind ?_ fun updated => (Only.ask trivial).bind fun _ => Only.pure updated
  exact (Only.ask trivial).bind fun _ => (Only.orThrow _ _).bind fun _ =>
    only_findUniqueOrThrow commentId

theorem only_delete (boardId workspaceId cardId commentId userId : Uuid) :
    (CardCommentService.delete boardId workspaceId cardId commentId userId).Only
      CommentStatement.InsertsNone := by
  refine (only_verifyBoardInWorkspace _ _).bind fun _ => ?_
  refine (only_verifyCardInBoard _ _).bind fun _ => ?_
  refine (only_findComment _ _).bind fun comment => (Only.refuseIf _ _).bind fun _ => ?_
  exact (Only.ask trivial).bind fun _ => (Only.orThrow _ _).bind fun _ => Only.ask trivial

theorem only_listThread (boardId workspaceId cardId commentId : Uuid) :
    (CardCommentService.listThread boardId workspaceId cardId commentId).Only
      CommentStatement.InsertsNone := by
  refine (only_verifyBoardInWorkspace _ _).bind fun _ => ?_
  refine (only_verifyCardInBoard _ _).bind fun _ => ?_
  refine (only_findComment _ _).bind fun parentComment => ?_
  exact (Only.ask trivial).bind fun replies => Only.pure (parentComment, replies)

end Calls

/-- What the calls rely on: comments stay on their cards and below their parents. -/
def threadDiscipline : Discipline commentAnswer CommentCall.program where
  later s t := Placed s.comments t.comments
  inv s := ThreadsFlat s.comments
  allowed _ s _ op := ParentStands s.comments op
  post _ _ := True
  later_refl s := .refl s.comments
  later_trans _ _ _ := .trans
  post_later _ _ _ _ _ := trivial
  kept _ _ _ _ _ hflat hop := placed_answer hflat hop
  safe call s _ := by
    cases call with
    | create boardId workspaceId cardId dto userId =>
        apply safe_bind.mpr
        exact (insertsFlat_create boardId workspaceId cardId dto userId).imp
          fun _ _ _ _ => trivial
    | update boardId workspaceId cardId commentId dto userId =>
        exact insertsFlat_of_only ((only_update _ _ _ _ _ _).bind fun _ => Only.pure ())
    | delete boardId workspaceId cardId commentId userId =>
        exact insertsFlat_of_only (only_delete _ _ _ _ _)
    | listThread boardId workspaceId cardId commentId =>
        exact insertsFlat_of_only ((only_listThread _ _ _ _).bind fun _ => Only.pure ())

/-- However the calls interleave, every parent of a comment is on the same card and has no
parent itself. -/
theorem threadsFlat_allStates (s : CommentStore) (hflat : ThreadsFlat s.comments)
    (ms : List (Move CommentCall Outside)) :
    AllStates CommentPool.step (fun p => ThreadsFlat p.store.comments) { store := s } ms := by
  intro bs p _ run
  have hdisciplined : Disciplined threadDiscipline p :=
    run.invariant (fun _ _ _ hp hstep => hp.step hstep) (Disciplined.initial hflat)
  exact hdisciplined.inv

/-- Board 20 with card 40, on which user 7 has written comment 50. -/
def boardOfThread : Board.Database where
  workspaces := .single 1 ()
  users := .single 7 ()
  boards := .single 20 { workspaceId := 1, title := js "Plans", createdBy := 7, updatedAt := 3 }
  lists := .single 30 { boardId := 20, title := js "Open", rank := js "0|i00000:", updatedAt := 3 }
  cards := .single 40
    { listId := 30, title := js "Ship", rank := js "0|i00000:", createdBy := 7, updatedAt := 3 }
  wellFormed :=
    { members := Table.All.of_rows (by decide)
      boards := Table.All.of_rows (by decide)
      starredBoards := Table.All.of_rows (by decide)
      lists := Table.All.of_rows (by decide)
      cards := Table.All.of_rows (by decide)
      cardAssignees := Table.All.of_rows (by decide)
      cardLabels := Table.All.of_rows (by decide)
      labels := Table.All.of_rows (by decide)
      checklists := Table.All.of_rows (by decide)
      checklistItems := Table.All.of_rows (by decide) }

def oneComment : Comments :=
  .single 50 { cardId := 40, authorId := 7, content := js "Done?", createdAt := 3, updatedAt := 3 }

theorem threadsFlat_oneComment : ThreadsFlat oneComment := by
  apply All.of_rows
  intro q hq parentId hparent
  obtain rfl := List.mem_singleton.mp hq
  cases hparent

/-- A reply to comment 50 that has been checked, the deletion of the comment, and then
the insert of the reply. -/
def replyToDeleted : List (Move CommentCall Outside) :=
  [.start (.create 20 1 40 { content := js "Yes", parentCommentId := some 50 } 7),
    .start (.delete 20 1 40 50 7)] ++
    List.replicate 3 (.resume 0 ⟨4, 51, boardOfThread⟩) ++
    List.replicate 4 (.resume 1 ⟨5, 52, boardOfThread⟩) ++
    [.resume 0 ⟨6, 51, boardOfThread⟩]

theorem threadsFlat_replyToDeleted :
    AllStates CommentPool.step (fun p => ThreadsFlat p.store.comments)
        { store := { comments := oneComment } } replyToDeleted ∧
      (exec CommentPool.step { store := { comments := oneComment } } replyToDeleted).map
        (fun p => p.store.comments.rows.map fun q => (q.1, q.2.parentCommentId, q.2.deletedAt)) =
        some [(51, some 50, none), (50, none, some 5)] :=
  ⟨threadsFlat_allStates _ threadsFlat_oneComment replyToDeleted, rfl⟩

end SyncBoard.Comment
