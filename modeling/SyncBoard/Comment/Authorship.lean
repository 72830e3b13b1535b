import SyncBoard.Comment.CommentThreads
import SyncBoard.Lib.Traces

/-!
# Who writes a comment

`update` and `delete` read the comment, compare its author with the user and then write it by
id, and between the two other calls may write it. No statement gives a comment another author
or another card, so what was compared still holds at the write: the words of a comment are its
author's, and only its author takes it away.
-/

namespace SyncBoard.Comment

open Relational Relational.Table Interleaved Interleaved.Program

abbrev CommentLog := Log CommentAnswer

/-- The call by the user has found the comment on the card, and the user is its author. -/
structure FoundOwn (log : CommentLog) (commentId cardId userId : Uuid)
    (comment : CardComment) : Prop where
  found : Told log (.findActiveById commentId cardId) (some comment)
  author : comment.row.authorId = userId

/-- Why a call asks a statement. -/
inductive Entitled : CommentCall → CommentLog → CommentStatement → Prop
  | findBoard {call log boardId workspaceId} : Entitled call log (.findBoard boardId workspaceId)
  | findCard {call log cardId boardId} : Entitled call log (.findCard cardId boardId)
  | findActiveById {call log id cardId} : Entitled call log (.findActiveById id cardId)
  | findUniqueOrThrow {call log id} : Entitled call log (.findUniqueOrThrow id)
  | findReplies {call log id} : Entitled call log (.findRepliesByParentId id)
  | create {boardId workspaceId cardId dto userId log} :
      Entitled (.create boardId workspaceId cardId dto userId) log
        (.create ⟨cardId, userId, dto.content, dto.parentCommentId⟩)
  | created {boardId workspaceId cardId dto userId log id comment}
      (inserted : Told log (.create ⟨cardId, userId, dto.content, dto.parentCommentId⟩) (.ok id))
      (read : Told log (.findUniqueOrThrow id) (.ok comment)) :
      Entitled (.create boardId workspaceId cardId dto userId) log
        (.emit (.created comment boardId userId))
  | update {boardId workspaceId cardId commentId dto userId log comment}
      (own : FoundOwn log commentId cardId userId comment) :
      Entitled (.update boardId workspaceId cardId commentId dto userId) log
        (.update commentId (dto.content.getD comment.row.content))
  | updated {boardId workspaceId cardId commentId dto userId log comment updated}
      (own : FoundOwn log commentId cardId userId comment)
      (read : Told log (.findUniqueOrThrow commentId) (.ok updated)) :
      Entitled (.update boardId workspaceId cardId commentId dto userId) log
        (.emit (.updated updated boardId userId))
  | softDelete {boardId workspaceId cardId commentId userId log comment}
      (own : FoundOwn log commentId cardId userId comment) :
      Entitled (.delete boardId workspaceId cardId commentId userId) log (.softDelete commentId)
  | deleted {boardId workspaceId cardId commentId userId log comment}
      (own : FoundOwn log commentId cardId userId comment)
      (written : Told log (.softDelete commentId) (.ok ())) :
      Entitled (.delete boardId workspaceId cardId commentId userId) log
        (.emit (.deleted commentId cardId boardId userId))

section Programs
variable {call : CommentCall} {log : CommentLog}

/-- The program asks what the call is entitled to, whatever it is answered. -/
abbrev Runs {α : Type} (call : CommentCall) (p : CommentProcedure α) (log : CommentLog)
    (returns : α → CommentLog → Prop) : Prop :=
  p.Traces (Entitled call) (fun _ _ => True) log returns

theorem runs_verifyBoardInWorkspace (boardId workspaceId : Uuid) :
    Runs call (CardCommentService.verifyBoardInWorkspace boardId workspaceId) log
      fun _ _ => True := by
  refine traces_ask_bind.mpr ⟨.findBoard, fun board => ?_⟩
  rw [traces_bind, traces_demand]
  exact ⟨fun _ => trivial, fun _ _ => trivial⟩

theorem runs_verifyCardInBoard (boardId cardId : Uuid) :
    Runs call (CardCommentService.verifyCardInBoard boardId cardId) log fun _ _ => True := by
  refine traces_ask_bind.mpr ⟨.findCard, fun card => ?_⟩
  rw [traces_bind, traces_demand]
  exact ⟨fun _ => trivial, fun _ _ => trivial⟩

theorem runs_findComment (commentId cardId : Uuid) :
    Runs call (CardCommentService.findComment commentId cardId) log fun comment log' =>
      Told log' (.findActiveById commentId cardId) (some comment) := by
  refine traces_ask_bind.mpr ⟨.findActiveById, fun found => ?_⟩
  refine traces_demand.mpr ⟨fun _ => trivial, ?_⟩
  rintro comment rfl
  exact told_last _ _ _

theorem runs_validateParent (cardId : Uuid) (parentCommentId : Option Uuid) :
    Runs call (CardCommentService.validateParent cardId parentCommentId) log fun _ _ => True := by
  cases parentCommentId with
  | none => exact traces_pure.mpr trivial
  | some parentId =>
      apply traces_bind.mpr
      apply (runs_findComment _ _).imp (fun _ _ h => h) (fun _ _ h => h)
      intro comment log' _
      exact traces_refuseIf.mpr ⟨fun _ => trivial, fun _ => trivial⟩

/-- The row is read again after it has been written. -/
theorem runs_findUniqueOrThrow (id : Uuid) :
    Runs call (ask (CommentStatement.findUniqueOrThrow id) >>= fun comment =>
        orThrow CommentError.database comment) log fun comment log' =>
      log <+: log' ∧ Told log' (.findUniqueOrThrow id) (.ok comment) := by
  refine traces_ask_bind.mpr ⟨.findUniqueOrThrow, fun read => ?_⟩
  refine traces_orThrow.mpr ⟨fun _ _ => trivial, ?_⟩
  rintro comment rfl
  exact ⟨List.prefix_append _ _, told_last _ _ _⟩

/-- The checks that every call begins with say nothing of the comment. -/
theorem runs_verified {α : Type} {p : CommentProcedure α} {returns : α → CommentLog → Prop}
    (boardId workspaceId cardId : Uuid) (h : ∀ log, Runs call p log returns) :
    Runs call (do
      CardCommentService.verifyBoardInWorkspace boardId workspaceId
      CardCommentService.verifyCardInBoard boardId cardId
      p) log returns := by
  apply traces_bind.mpr
  apply (runs_verifyBoardInWorkspace _ _).imp (fun _ _ h => h) (fun _ _ h => h)
  intro _ log₁ _
  apply traces_bind.mpr
  apply (runs_verifyCardInBoard _ _).imp (fun _ _ h => h) (fun _ _ h => h)
  intro _ log₂ _
  exact h log₂

/-- The comment is found, and refused to anybody but its author. -/
theorem runs_own {α : Type} {f : CardComment → CommentProcedure α}
    {returns : α → CommentLog → Prop} (commentId cardId userId : Uuid)
    (h : ∀ comment log, FoundOwn log commentId cardId userId comment →
      Runs call (f comment) log returns) :
    Runs call (do
      let comment ← CardCommentService.findComment commentId cardId
      refuseIf (comment.row.authorId != userId) (.forbidden "FORBIDDEN")
      f comment) log returns := by
  apply traces_bind.mpr
  apply (runs_findComment _ _).imp (fun _ _ h => h) (fun _ _ h => h)
  intro comment log' found
  refine traces_bind.mpr (traces_refuseIf.mpr ⟨fun _ => trivial, fun hsame => ?_⟩)
  exact h comment log' ⟨found, by simpa using hsame⟩

theorem FoundOwn.extend {log' : CommentLog} {commentId cardId userId : Uuid}
    {comment : CardComment} (h : FoundOwn log commentId cardId userId comment)
    (hlog : log <+: log') : FoundOwn log' commentId cardId userId comment :=
  ⟨h.found.extend hlog, h.author⟩

theorem runs_create (boardId workspaceId cardId : Uuid) (dto : CreateCommentDto)
    (userId : Uuid) :
    Runs (.create boardId workspaceId cardId dto userId)
      (CardCommentService.create boardId workspaceId cardId dto userId) [] fun _ _ => True := by
  apply runs_verified
  intro log
  apply traces_bind.mpr
  apply (runs_validateParent _ _).imp (fun _ _ h => h) (fun _ _ h => h)
  intro _ log' _
  apply traces_bind.mpr
  refine traces_ask_bind.mpr ⟨.create, fun inserted => ?_⟩
  refine traces_bind.mpr (traces_orThrow.mpr ⟨fun _ _ => trivial, ?_⟩)
  rintro id rfl
  apply (runs_findUniqueOrThrow id).imp (fun _ _ h => h) (fun _ _ h => h)
  rintro comment log'' ⟨hlog, read⟩
  exact traces_ask_bind.mpr ⟨.created ((told_last _ _ _).extend hlog) read, fun _ => trivial⟩

theorem runs_update (boardId workspaceId cardId commentId : Uuid) (dto : UpdateCommentDto)
    (userId : Uuid) :
    Runs (.update boardId workspaceId cardId commentId dto userId)
      (CardCommentService.update boardId workspaceId cardId commentId dto userId) []
      fun _ _ => True := by
  apply runs_verified
  intro log
  apply runs_own
  intro comment log' own
  apply traces_bind.mpr
  refine traces_ask_bind.mpr ⟨.update own, fun written => ?_⟩
  refine traces_bind.mpr (traces_orThrow.mpr ⟨fun _ _ => trivial, fun _ _ => ?_⟩)
  apply (runs_findUniqueOrThrow commentId).imp (fun _ _ h => h) (fun _ _ h => h)
  rintro updated log'' ⟨hlog, read⟩
  have hextends : log' <+: log'' := (List.prefix_append _ _).trans hlog
  exact traces_ask_bind.mpr ⟨.updated (own.extend hextends) read, fun _ => trivial⟩

theorem runs_delete (boardId workspaceId cardId commentId userId : Uuid) :
    Runs (.delete boardId workspaceId cardId commentId userId)
      (CardCommentService.delete boardId workspaceId cardId commentId userId) []
      fun _ _ => True := by
  apply runs_verified
  intro log
  apply runs_own
  intro comment log' own
  refine traces_ask_bind.mpr ⟨.softDelete own, fun written => ?_⟩
  refine traces_bind.mpr (traces_orThrow.mpr ⟨fun _ _ => trivial, ?_⟩)
  rintro ⟨⟩ rfl
  have hextends := List.prefix_append log' [⟨CommentStatement.softDelete commentId, .ok ()⟩]
  exact traces_ask.mpr ⟨.deleted (own.extend hextends) (told_last _ _ _), fun _ => trivial⟩

theorem runs_listThread (boardId workspaceId cardId commentId : Uuid) :
    Runs call (CardCommentService.listThread boardId workspaceId cardId commentId) log
      fun _ _ => True := by
  apply runs_verified
  intro log'
  apply traces_bind.mpr
  apply (runs_findComment _ _).imp (fun _ _ h => h) (fun _ _ h => h)
  intro comment log'' _
  exact traces_ask_bind.mpr ⟨.findReplies, fun _ => trivial⟩

theorem runs_program (call : CommentCall) : Runs call call.program [] fun _ _ => True := by
  cases call with
  | create => exact traces_bind.mpr (runs_create _ _ _ _ _)
  | update => exact traces_bind.mpr (runs_update _ _ _ _ _ _)
  | delete => exact runs_delete _ _ _ _ _
  | listThread => exact traces_bind.mpr (runs_listThread _ _ _ _)

end Programs

/-- The comment is still there, with its author, its card and its parent, and deleted if it
was. -/
def Stands (comments : Comments) (id : Uuid) (row : CardCommentRow) : Prop :=
  ∃ row', comments.get? id = some row' ∧ row'.authorId = row.authorId ∧
    row'.cardId = row.cardId ∧ row'.parentCommentId = row.parentCommentId ∧
      (row.deletedAt.isSome → row'.deletedAt.isSome)

/-- Every comment still stands. -/
def Later (comments comments' : Comments) : Prop :=
  ∀ id row, comments.get? id = some row → Stands comments' id row

/-- Where a row comes from that is there after an answer. -/
inductive Origin (comments : Comments) (now : Timestamp) (id : Uuid) :
    CardCommentRow → (Σ op, CommentAnswer op) → Prop
  | kept {row entry} (old : comments.get? id = some row) : Origin comments now id row entry
  | created {data : CommentData} (fresh : comments.get? id = none) :
      Origin comments now id
        { cardId := data.cardId
          authorId := data.authorId
          content := data.content
          parentCommentId := data.parentCommentId
          createdAt := now
          updatedAt := now } ⟨.create data, .ok id⟩
  | updated {row content} (old : comments.get? id = some row) :
      Origin comments now id { row with content := content, updatedAt := now }
        ⟨.update id content, .ok ()⟩
  | deleted {row} (old : comments.get? id = some row) :
      Origin comments now id { row with deletedAt := some now, updatedAt := now }
        ⟨.softDelete id, .ok ()⟩

section Statements
variable {comments comments' comments'' : Comments} {id : Uuid}

theorem stands_self {row : CardCommentRow} (h : comments.get? id = some row) :
    Stands comments id row :=
  ⟨row, h, rfl, rfl, rfl, fun hdeleted => hdeleted⟩

theorem Stands.later {row : CardCommentRow} (h : Stands comments id row)
    (hlater : Later comments comments') : Stands comments' id row := by
  obtain ⟨row', hrow', hauthor, hcard, hparent, hdeleted⟩ := h
  obtain ⟨row'', hrow'', hauthor', hcard', hparent', hdeleted'⟩ := hlater id row' hrow'
  exact ⟨row'', hrow'', hauthor'.trans hauthor, hcard'.trans hcard, hparent'.trans hparent,
    hdeleted' ∘ hdeleted⟩

theorem later_insert {row : CardCommentRow} (hid : comments.get? id = none) :
    Later comments (comments.insert id row hid) := by
  intro j old hold
  apply stands_self
  rw [get?_insert, if_neg, hold]
  rintro rfl
  cases hid.symm.trans hold

/-- A rewrite of one row that changes the content, or deletes. -/
theorem later_modify {f : CardCommentRow → CardCommentRow}
    (hf : ∀ row, (f row).authorId = row.authorId ∧ (f row).cardId = row.cardId ∧
      (f row).parentCommentId = row.parentCommentId ∧
        (row.deletedAt.isSome → (f row).deletedAt.isSome)) :
    Later comments (comments.modify id f) := by
  intro j old hold
  by_cases hj : j = id
  · refine ⟨f old, ?_, hf old⟩
    rw [get?_modify, if_pos hj, hold, Option.map_some]
  · apply stands_self
    rw [get?_modify, if_neg hj, hold]

theorem later_answer (x : Outside) (op : CommentStatement) (s : CommentStore) :
    Later s.comments (commentAnswer x op s).2.comments := by
  have hupdate : ∀ id (data : CardCommentRow → CardCommentRow),
      (∀ row, (data row).authorId = row.authorId ∧ (data row).cardId = row.cardId ∧
        (data row).parentCommentId = row.parentCommentId ∧
          (row.deletedAt.isSome → (data row).deletedAt.isSome)) →
      Later s.comments (CardCommentRepository.updateRow s.comments id data x.now).2 := by
    intro id data hdata
    rw [CardCommentRepository.updateRow]
    split
    · exact later_modify hdata
    · exact fun _ _ => stands_self
  cases op with
  | create data =>
      change Later s.comments (CardCommentRepository.create _ _ _ _ _).2
      rw [CardCommentRepository.create]
      split
      · split
        · next inserted hinserted =>
            obtain ⟨hid, rfl⟩ := insert?_eq_some hinserted
            exact later_insert hid
        · exact fun _ _ => stands_self
      · exact fun _ _ => stands_self
  | update id content => exact hupdate id _ fun _ => ⟨rfl, rfl, rfl, fun h => h⟩
  | softDelete id => exact hupdate id _ fun _ => ⟨rfl, rfl, rfl, fun _ => rfl⟩
  | findBoard | findCard | findActiveById | findUniqueOrThrow | findRepliesByParentId | emit =>
      exact fun _ _ => stands_self

/-- A row after `updateRow` was there before, or it is the rewritten one. -/
theorem updateRow_row {data : CardCommentRow → CardCommentRow} {now : Timestamp} {j : Uuid}
    {row : CardCommentRow}
    (h : (CardCommentRepository.updateRow comments id data now).2.get? j = some row) :
    comments.get? j = some row ∨
      j = id ∧ (CardCommentRepository.updateRow comments id data now).1 = .ok () ∧
        ∃ old, comments.get? id = some old ∧ row = { data old with updatedAt := now } := by
  rw [CardCommentRepository.updateRow] at h ⊢
  split at h
  · next hcontains =>
      rw [get?_modify] at h
      split at h
      · next hj =>
          subst hj
          obtain ⟨old, hold, rfl⟩ := Option.map_eq_some_iff.mp h
          exact .inr ⟨rfl, by rw [if_pos hcontains], old, hold, rfl⟩
      · exact .inl h
  · exact .inl h

/-- Every row after an answer was there, or the answer tells what happened to it. -/
theorem origin_answer (x : Outside) (op : CommentStatement) (s : CommentStore)
    {row : CardCommentRow} (h : (commentAnswer x op s).2.comments.get? id = some row) :
    Origin s.comments x.now id row ⟨op, (commentAnswer x op s).1⟩ := by
  cases op with
  | create data =>
      change (CardCommentRepository.create _ _ _ _ _).2.get? id = some row at h
      change Origin s.comments x.now id row
        ⟨.create data, (CardCommentRepository.create _ _ _ _ _).1⟩
      rw [CardCommentRepository.create] at h ⊢
      split at h
      · next hkeys =>
          rw [if_pos hkeys]
          split at h
          · next inserted hinserted =>
              obtain ⟨hid, rfl⟩ := insert?_eq_some hinserted
              rw [get?_insert] at h
              split at h
              · next hnew =>
                  subst hnew
                  obtain rfl := Option.some.inj h
                  exact .created hid
              · exact .kept h
          · exact .kept h
      · exact .kept h
  | update commentId content =>
      rcases updateRow_row h with hold | ⟨rfl, hok, old, hold, rfl⟩
      · exact .kept hold
      · have hanswer : (commentAnswer x (.update id content) s).1 = .ok () := hok
        rw [hanswer]
        exact @Origin.updated s.comments x.now id old content hold
  | softDelete commentId =>
      rcases updateRow_row h with hold | ⟨rfl, hok, old, hold, rfl⟩
      · exact .kept hold
      · have hanswer : (commentAnswer x (.softDelete id) s).1 = .ok () := hok
        rw [hanswer]
        exact @Origin.deleted s.comments x.now id old hold
  | findBoard | findCard | findActiveById | findUniqueOrThrow | findRepliesByParentId | emit =>
      exact .kept h

end Statements

/-- The call has inserted the comment, on its card and below its parent. -/
def Inserts (id : Uuid) (row : CardCommentRow) : CommentCall → CommentLog → Prop
  | .create _ _ cardId dto userId, log =>
      Told log (.create ⟨cardId, userId, dto.content, dto.parentCommentId⟩) (.ok id) ∧
        cardId = row.cardId ∧ userId = row.authorId ∧ dto.parentCommentId = row.parentCommentId
  | _, _ => False

/-- The user has sent the content for the comment on the card. -/
def Sends (id authorId cardId : Uuid) (content : JsString) : CommentCall → CommentLog → Prop
  | .create _ _ cardId' dto userId, log =>
      Told log (.create ⟨cardId', userId, dto.content, dto.parentCommentId⟩) (.ok id) ∧
        cardId' = cardId ∧ userId = authorId ∧ dto.content = content
  | .update _ _ cardId' commentId dto userId, log =>
      Told log (.update commentId content) (.ok ()) ∧
        commentId = id ∧ cardId' = cardId ∧ userId = authorId ∧ dto.content = some content
  | _, _ => False

/-- The user has deleted the comment on the card. -/
def Removes (id authorId cardId : Uuid) : CommentCall → CommentLog → Prop
  | .delete _ _ cardId' commentId userId, log =>
      Told log (.softDelete commentId) (.ok ()) ∧
        commentId = id ∧ cardId' = cardId ∧ userId = authorId
  | _, _ => False

/-- An event tells of a stored comment, and names its author. -/
def Attributed (comments : Comments) : CommentEvent → Prop
  | .created comment _ authorId =>
      Stands comments comment.id comment.row ∧ comment.row.authorId = authorId
  | .updated comment _ updatedBy =>
      Stands comments comment.id comment.row ∧ comment.row.authorId = updatedBy
  | .deleted commentId cardId _ deletedBy =>
      ∃ row, comments.get? commentId = some row ∧ row.cardId = cardId ∧
        row.authorId = deletedBy ∧ row.deletedAt.isSome

/-- What an answer goes on saying of the comments and of who has sent them. -/
def Recalled (p : CommentPool) : (op : CommentStatement) → CommentAnswer op → Prop
  | .findActiveById id cardId, found => ∀ comment, found = some comment →
      Stands p.store.comments id comment.row ∧ comment.row.cardId = cardId ∧
        p.Evidence (Sends id comment.row.authorId comment.row.cardId comment.row.content)
  | .create data, inserted => ∀ id, inserted = .ok id →
      ∃ row, p.store.comments.get? id = some row ∧ row.authorId = data.authorId
  | .findUniqueOrThrow id, read => ∀ comment, read = .ok comment →
      comment.id = id ∧ Stands p.store.comments id comment.row
  | .softDelete id, written => written = .ok () →
      ∃ row, p.store.comments.get? id = some row ∧ row.deletedAt.isSome
  | _, _ => True

/-- Every comment comes of calls by its author, every answer still holds and every event tells
of an author's call. -/
structure Authored (p : CommentPool) : Prop where
  inserted : p.store.comments.All fun id row => p.Evidence (Inserts id row)
  sent : p.store.comments.All fun id row =>
    p.Evidence (Sends id row.authorId row.cardId row.content)
  removed : p.store.comments.All fun id row =>
    row.deletedAt.isSome → p.Evidence (Removes id row.authorId row.cardId)
  recalled : p.AnswersHold (Recalled p)
  attributed : ∀ event ∈ p.store.events, Attributed p.store.comments event

section Steps
variable {p p' : CommentPool} {id authorId cardId : Uuid}

theorem Inserts.snoc {row : CardCommentRow} (call : CommentCall) (log : CommentLog)
    (entry : Σ op, CommentAnswer op) (h : Inserts id row call log) :
    Inserts id row call (log ++ [entry]) := by
  cases call with
  | create => exact ⟨h.1.append _, h.2⟩
  | update | delete | listThread => exact h

theorem Sends.snoc {content : JsString} (call : CommentCall) (log : CommentLog)
    (entry : Σ op, CommentAnswer op) (h : Sends id authorId cardId content call log) :
    Sends id authorId cardId content call (log ++ [entry]) := by
  cases call with
  | create | update => exact ⟨h.1.append _, h.2⟩
  | delete | listThread => exact h

theorem Removes.snoc (call : CommentCall) (log : CommentLog) (entry : Σ op, CommentAnswer op)
    (h : Removes id authorId cardId call log) :
    Removes id authorId cardId call (log ++ [entry]) := by
  cases call with
  | delete => exact ⟨h.1.append _, h.2⟩
  | create | update | listThread => exact h

theorem Attributed.later {comments comments' : Comments} {event : CommentEvent}
    (h : Attributed comments event) (hlater : Later comments comments') :
    Attributed comments' event := by
  cases event with
  | created | updated => exact ⟨h.1.later hlater, h.2⟩
  | deleted =>
      obtain ⟨row, hrow, hcard, hauthor, hdeleted⟩ := h
      obtain ⟨row', hrow', hauthor', hcard', -, hdeleted'⟩ := hlater _ row hrow
      exact ⟨row', hrow', hcard'.trans hcard, hauthor'.trans hauthor, hdeleted' hdeleted⟩

theorem Recalled.later {op : CommentStatement} {a : CommentAnswer op} (h : Recalled p op a)
    (hlater : Later p.store.comments p'.store.comments)
    (hsent : ∀ id authorId cardId content, p.Evidence (Sends id authorId cardId content) →
      p'.Evidence (Sends id authorId cardId content)) : Recalled p' op a := by
  cases op with
  | findActiveById id cardId =>
      intro comment hfound
      obtain ⟨hstands, hcard, hcontent⟩ := h comment hfound
      exact ⟨hstands.later hlater, hcard, hsent _ _ _ _ hcontent⟩
  | create data =>
      intro id hinserted
      obtain ⟨row, hrow, hauthor⟩ := h id hinserted
      obtain ⟨row', hrow', hauthor', -⟩ := hlater id row hrow
      exact ⟨row', hrow', hauthor'.trans hauthor⟩
  | findUniqueOrThrow id =>
      intro comment hread
      obtain ⟨hid, hstands⟩ := h comment hread
      exact ⟨hid, hstands.later hlater⟩
  | softDelete id =>
      intro hwritten
      obtain ⟨row, hrow, hdeleted⟩ := h hwritten
      obtain ⟨row', hrow', -, -, -, hdeleted'⟩ := hlater id row hrow
      exact ⟨row', hrow', hdeleted' hdeleted⟩
  | findBoard | findCard | update | findRepliesByParentId | emit => trivial

theorem create_ok {comments : Comments} {board : Board.Database} {data : CommentData}
    {now : Timestamp} {newId : Uuid}
    (h : (CardCommentRepository.create comments board newId data now).1 = .ok id) :
    ∃ row, (CardCommentRepository.create comments board newId data now).2.get? id = some row ∧
      row.authorId = data.authorId := by
  rw [CardCommentRepository.create] at h ⊢
  split at h
  · next hkeys =>
      rw [if_pos hkeys]
      split at h
      · next inserted hinserted =>
          obtain ⟨hid, rfl⟩ := insert?_eq_some hinserted
          obtain rfl := Except.ok.inj h
          exact ⟨_, by rw [get?_insert, if_pos rfl], rfl⟩
      · cases h
  · cases h

/-- What an answer says holds when it is given. -/
theorem Authored.recalled_answer (h : Authored p) (x : Outside) {op : CommentStatement}
    (hstore : p'.store = (commentAnswer x op p.store).2)
    (hsent : ∀ id authorId cardId content, p.Evidence (Sends id authorId cardId content) →
      p'.Evidence (Sends id authorId cardId content)) :
    Recalled p' op (commentAnswer x op p.store).1 := by
  cases op with
  | findActiveById id cardId =>
      intro comment hfound
      obtain ⟨row, hrow, rfl⟩ := Option.map_eq_some_iff.mp hfound
      obtain ⟨hget, hactive⟩ := Option.filter_eq_some_iff.mp hrow
      rw [Bool.and_eq_true, beq_iff_eq] at hactive
      refine ⟨?_, hactive.2, hsent _ _ _ _ (h.sent id row hget)⟩
      rw [hstore]
      exact stands_self hget
  | create data =>
      intro id hinserted
      rw [hstore]
      exact create_ok hinserted
  | findUniqueOrThrow id =>
      intro comment hread
      change CardCommentRepository.findUniqueOrThrow _ _ = _ at hread
      rw [CardCommentRepository.findUniqueOrThrow] at hread
      split at hread
      · next row hrow =>
          obtain rfl := Except.ok.inj hread
          refine ⟨rfl, ?_⟩
          rw [hstore]
          exact stands_self hrow
      · cases hread
  | softDelete id =>
      intro hwritten
      rw [hstore]
      change (CardCommentRepository.updateRow _ _ _ _).1 = .ok () at hwritten
      change ∃ row, (CardCommentRepository.updateRow _ _ _ _).2.get? id = some row ∧ _
      rw [CardCommentRepository.updateRow] at hwritten ⊢
      split at hwritten
      · next hcontains =>
          obtain ⟨row, hrow⟩ := (contains_iff _ _).mp hcontains
          rw [if_pos hcontains]
          refine ⟨{ row with deletedAt := some x.now, updatedAt := x.now }, ?_, rfl⟩
          rw [get?_modify_self, hrow, Option.map_some]
      · cases hwritten
  | findBoard | findCard | update | findRepliesByParentId | emit => trivial

/-- An own comment that was found is still the user's, on the card. -/
theorem Authored.own (h : Authored p)
    {task : Task CommentStatement CommentAnswer CommentError CommentCall} (htask : task ∈ p.tasks)
    {userId : Uuid} {comment : CardComment} (own : FoundOwn task.log id cardId userId comment) :
    ∃ row, p.store.comments.get? id = some row ∧ row.authorId = userId ∧ row.cardId = cardId := by
  obtain ⟨⟨row, hrow, hauthor, hcard, -⟩, hcomment, -⟩ :=
    h.recalled task htask _ _ own.found comment rfl
  exact ⟨row, hrow, hauthor.trans own.author, hcard.trans hcomment⟩

theorem mem_events_answer {x : Outside} {op : CommentStatement} {s : CommentStore}
    {event : CommentEvent} (h : event ∈ (commentAnswer x op s).2.events) :
    event ∈ s.events ∨ op = .emit event := by
  cases op with
  | emit event' =>
      rcases List.mem_append.mp h with hold | hnew
      · exact .inl hold
      · exact .inr (congrArg _ (List.mem_singleton.mp hnew).symm)
  | findBoard | findCard | findActiveById | create | findUniqueOrThrow | update | softDelete
  | findRepliesByParentId => exact .inl h

/-- A comment that has been read has the author that it has now. -/
theorem Authored.read (h : Authored p)
    {task : Task CommentStatement CommentAnswer CommentError CommentCall} (htask : task ∈ p.tasks)
    {comment : CardComment} (read : Told task.log (.findUniqueOrThrow id) (.ok comment))
    {row : CardCommentRow} (hrow : p.store.comments.get? id = some row) :
    Stands p.store.comments comment.id comment.row ∧ comment.row.authorId = row.authorId := by
  obtain ⟨rfl, hstands⟩ := h.recalled task htask _ _ read comment rfl
  obtain ⟨row', hrow', hauthor, -⟩ := id hstands
  obtain rfl := Option.some.inj (hrow.symm.trans hrow')
  exact ⟨hstands, hauthor.symm⟩

/-- What is emitted tells of a stored comment, and names its author. -/
theorem Authored.emits (h : Authored p)
    {task : Task CommentStatement CommentAnswer CommentError CommentCall} (htask : task ∈ p.tasks)
    {event : CommentEvent} (hop : Entitled task.call task.log (.emit event)) :
    Attributed p.store.comments event := by
  obtain ⟨call, log, rest⟩ := task
  cases hop with
  | created inserted read =>
      obtain ⟨row, hrow, hauthor⟩ := h.recalled _ htask _ _ inserted _ rfl
      obtain ⟨hstands, hsame⟩ := h.read htask read hrow
      exact ⟨hstands, hsame.trans hauthor⟩
  | updated own read =>
      obtain ⟨row, hrow, hauthor, -⟩ := h.own htask own
      obtain ⟨hstands, hsame⟩ := h.read htask read hrow
      exact ⟨hstands, hsame.trans hauthor⟩
  | deleted own written =>
      obtain ⟨row, hrow, hauthor, hcard⟩ := h.own htask own
      obtain ⟨row', hrow', hdeleted⟩ := h.recalled _ htask _ _ written rfl
      obtain rfl := Option.some.inj (hrow.symm.trans hrow')
      exact ⟨row, hrow, hcard, hauthor, hdeleted⟩

theorem Authored.answered (h : Authored p) {i : Nat} {x : Outside}
    {task : Task CommentStatement CommentAnswer CommentError CommentCall}
    {op : CommentStatement} {next : CommentAnswer op → CommentProcedure Unit}
    (ha : p.Asks i task op next) (hop : Entitled task.call task.log op) :
    Authored (p.answered commentAnswer i x task op next) := by
  have hlater := later_answer x op p.store
  have hsent : ∀ id authorId cardId content, p.Evidence (Sends id authorId cardId content) →
      (p.answered commentAnswer i x task op next).Evidence
        (Sends id authorId cardId content) :=
    fun _ _ _ _ hevidence => hevidence.answered Sends.snoc ha
  have hrows : ∀ id row,
      (commentAnswer x op p.store).2.comments.get? id = some row →
        (p.answered commentAnswer i x task op next).Evidence (Inserts id row) ∧
        (p.answered commentAnswer i x task op next).Evidence
          (Sends id row.authorId row.cardId row.content) ∧
        (row.deletedAt.isSome → (p.answered commentAnswer i x task op next).Evidence
          (Removes id row.authorId row.cardId)) := by
    intro id row hrow
    have horigin := origin_answer x op p.store hrow
    generalize hentry : (⟨op, (commentAnswer x op p.store).1⟩ : Σ op, CommentAnswer op) = entry
      at horigin
    have htold : Told (task.log ++ [⟨op, (commentAnswer x op p.store).1⟩]) entry.1 entry.2 := by
      rw [hentry]
      exact told_last _ _ _
    have hmem := ha.mem
    obtain ⟨call, log, rest⟩ := task
    cases horigin with
    | kept hold =>
        exact ⟨(h.inserted id row hold).answered Inserts.snoc ha,
          hsent _ _ _ _ (h.sent id row hold),
          fun hdeleted => (h.removed id row hold hdeleted).answered Removes.snoc ha⟩
    | @created data hfresh =>
        obtain rfl : op = .create data := congrArg Sigma.fst hentry
        cases hop with
        | create =>
            exact ⟨.of_asks ha ⟨htold, rfl, rfl, rfl⟩, .of_asks ha ⟨htold, rfl, rfl, rfl⟩, nofun⟩
    | @updated old content hold =>
        obtain rfl : op = .update id content := congrArg Sigma.fst hentry
        refine ⟨(h.inserted id old hold).answered Inserts.snoc ha, ?_,
          fun hdeleted => (h.removed id old hold hdeleted).answered Removes.snoc ha⟩
        cases hop with
        | @update _ _ cardId _ dto userId _ comment own =>
            obtain ⟨row, hrow, hauthor, hcard⟩ := h.own hmem own
            obtain rfl := Option.some.inj (hold.symm.trans hrow)
            by_cases hgiven : dto.content = none
            · -- what the call has read is written once more
              obtain ⟨-, hon, hread⟩ := h.recalled _ hmem _ _ own.found comment rfl
              rw [own.author, ← hauthor, hon, ← hcard] at hread
              have hsame : dto.content.getD comment.row.content = comment.row.content := by
                rw [hgiven, Option.getD_none]
              rw [← hsame] at hread
              exact hsent _ _ _ _ hread
            · refine .of_asks ha ⟨htold, rfl, hcard.symm, hauthor.symm, ?_⟩
              obtain ⟨content, hcontent⟩ := Option.ne_none_iff_exists'.mp hgiven
              rw [hcontent, Option.getD_some]
    | @deleted old hold =>
        obtain rfl : op = .softDelete id := congrArg Sigma.fst hentry
        refine ⟨(h.inserted id old hold).answered Inserts.snoc ha,
          hsent _ _ _ _ (h.sent id old hold), fun _ => ?_⟩
        cases hop with
        | softDelete own =>
            obtain ⟨row, hrow, hauthor, hcard⟩ := h.own hmem own
            obtain rfl := Option.some.inj (hold.symm.trans hrow)
            exact .of_asks ha ⟨htold, rfl, hcard.symm, hauthor.symm⟩
  refine ⟨fun id row hrow => (hrows id row hrow).1, fun id row hrow => (hrows id row hrow).2.1,
    fun id row hrow => (hrows id row hrow).2.2, ?_, ?_⟩
  · exact h.recalled.answered ha (fun _ _ _ _ _ hholds => hholds.later hlater hsent)
      (h.recalled_answer x rfl hsent)
  · intro event hevent
    rcases mem_events_answer hevent with hold | rfl
    · exact (h.attributed event hold).later hlater
    · exact (h.emits ha.mem hop).later hlater

theorem Authored.initial : Authored { store := {} } := by
  have hnone : ∀ {P : Uuid → CardCommentRow → Prop}, (Table.empty : Comments).All P := nofun
  exact ⟨hnone, hnone, hnone, nofun, nofun⟩

theorem Authored.start (h : Authored p) (call : CommentCall) :
    Authored { p with tasks := p.tasks ++ [⟨call, [], call.program⟩] } := by
  refine ⟨fun id row hrow => (h.inserted id row hrow).start call,
    fun id row hrow => (h.sent id row hrow).start call,
    fun id row hrow hdeleted => (h.removed id row hrow hdeleted).start call, ?_, h.attributed⟩
  intro task htask op a htold
  refine (h.recalled.start call task htask op a htold).later (fun _ _ => stands_self) ?_
  exact fun _ _ _ _ hevidence => hevidence.start call

end Steps

/-- The pools that calls in any order lead to where there is no comment at first. -/
def Reachable (p : CommentPool) : Prop :=
  ∃ ms, Labelled.Run CommentPool.step { store := {} } ms p

theorem authored_of_reachable {p : CommentPool} (h : Reachable p) : Authored p := by
  obtain ⟨ms, run⟩ := h
  exact (Pool.invariant_of_traces runs_program (fun _ call hp => hp.start call)
    (fun _ _ _ _ _ _ hp ha hop => hp.answered ha hop) .initial run).1

/-- In every state that the calls lead to, in any order of their awaits: a comment was inserted
by a call of its author on its card; its content was sent by its author, with that call or with
an update of the comment; and if it is deleted, its author has deleted it. -/
theorem comment_of_author {p : CommentPool} (h : Reachable p) {id : Uuid} {row : CardCommentRow}
    (hrow : p.store.comments.get? id = some row) :
    (∃ task ∈ p.tasks, ∃ boardId workspaceId content,
      task.call = .create boardId workspaceId row.cardId ⟨content, row.parentCommentId⟩
          row.authorId ∧
        Told task.log (.create ⟨row.cardId, row.authorId, content, row.parentCommentId⟩)
          (.ok id)) ∧
    (∃ task ∈ p.tasks, ∃ boardId workspaceId,
      (∃ parentId, task.call = .create boardId workspaceId row.cardId ⟨row.content, parentId⟩
          row.authorId ∧
        Told task.log (.create ⟨row.cardId, row.authorId, row.content, parentId⟩) (.ok id)) ∨
      task.call = .update boardId workspaceId row.cardId id ⟨some row.content⟩ row.authorId ∧
        Told task.log (.update id row.content) (.ok ())) ∧
    (row.deletedAt.isSome → ∃ task ∈ p.tasks, ∃ boardId workspaceId,
      task.call = .delete boardId workspaceId row.cardId id row.authorId ∧
        Told task.log (.softDelete id) (.ok ())) := by
  have hauthored := authored_of_reachable h
  refine ⟨?_, ?_, fun hdeleted => ?_⟩
  · obtain ⟨⟨call, log, rest⟩, htask, hinserts⟩ := hauthored.inserted id row hrow
    cases call with
    | create boardId workspaceId cardId dto userId =>
        obtain ⟨told, rfl, rfl, hparent⟩ := hinserts
        refine ⟨_, htask, boardId, workspaceId, dto.content, ?_, ?_⟩
        · rw [← hparent]
        · rwa [← hparent]
    | update | delete | listThread => cases hinserts
  · obtain ⟨⟨call, log, rest⟩, htask, hsends⟩ := hauthored.sent id row hrow
    cases call with
    | create boardId workspaceId cardId dto userId =>
        obtain ⟨told, rfl, rfl, hcontent⟩ := hsends
        refine ⟨_, htask, boardId, workspaceId, .inl ⟨dto.parentCommentId, ?_, ?_⟩⟩
        · rw [← hcontent]
        · rwa [← hcontent]
    | update boardId workspaceId cardId commentId dto userId =>
        obtain ⟨told, rfl, rfl, rfl, hcontent⟩ := hsends
        refine ⟨_, htask, boardId, workspaceId, .inr ⟨?_, told⟩⟩
        rw [← hcontent]
    | delete | listThread => cases hsends
  · obtain ⟨⟨call, log, rest⟩, htask, hremoves⟩ := hauthored.removed id row hrow hdeleted
    cases call with
    | delete boardId workspaceId cardId commentId userId =>
        obtain ⟨told, rfl, rfl, rfl⟩ := hremoves
        exact ⟨_, htask, boardId, workspaceId, rfl, told⟩
    | create | update | listThread => cases hremoves

/-- User 7 writes comment 51 and changes it; while the change is on its way, the comment is
deleted. -/
def changeOfDeleted : List (Move CommentCall Outside) :=
  [.start (.create 20 1 40 { content := js "Done?" } 7)] ++
    List.replicate 5 (.resume 0 ⟨4, 51, boardOfThread⟩) ++
    [.start (.update 20 1 40 51 { content := some (js "Done.") } 7),
      .start (.delete 20 1 40 51 7)] ++
    List.replicate 3 (.resume 1 ⟨5, 52, boardOfThread⟩) ++
    List.replicate 5 (.resume 2 ⟨6, 53, boardOfThread⟩) ++
    List.replicate 3 (.resume 1 ⟨7, 54, boardOfThread⟩)

theorem comment_of_changeOfDeleted : ∃ p row, Reachable p ∧
    p.store.comments.get? 51 = some row ∧ row.content = js "Done." ∧ row.deletedAt = some 6 ∧
      ∃ task ∈ p.tasks, ∃ boardId workspaceId,
        task.call = .delete boardId workspaceId row.cardId 51 row.authorId := by
  obtain ⟨p, row, hexec, hrow, hcontent, hdeleted⟩ : ∃ p row,
      Labelled.exec CommentPool.step { store := {} } changeOfDeleted = some p ∧
        p.store.comments.get? 51 = some row ∧ row.content = js "Done." ∧
          row.deletedAt = some 6 :=
    ⟨_, _, rfl, rfl, rfl, rfl⟩
  have hreach : Reachable p := ⟨_, Labelled.run_of_exec hexec⟩
  have hisSome : row.deletedAt.isSome := by rw [hdeleted, Option.isSome_some]
  obtain ⟨task, htask, boardId, workspaceId, hcall, -⟩ :=
    (comment_of_author hreach hrow).2.2 hisSome
  exact ⟨p, row, hreach, hrow, hcontent, hdeleted, task, htask, boardId, workspaceId, hcall⟩

/-- Every event of a reachable state tells of a comment that is stored, names its author, and
tells of a deletion only where the comment is deleted for good. -/
theorem event_of_author {p : CommentPool} (h : Reachable p) {event : CommentEvent}
    (hevent : event ∈ p.store.events) : Attributed p.store.comments event :=
  (authored_of_reachable h).attributed event hevent

theorem event_of_changeOfDeleted : ∃ p, Reachable p ∧ p.store.events.length = 3 ∧
    ∀ event ∈ p.store.events, Attributed p.store.comments event := by
  obtain ⟨p, hexec, hlength⟩ : ∃ p,
      Labelled.exec CommentPool.step { store := {} } changeOfDeleted = some p ∧
        p.store.events.length = 3 :=
    ⟨_, rfl, rfl⟩
  have hreach : Reachable p := ⟨_, Labelled.run_of_exec hexec⟩
  exact ⟨p, hreach, hlength, fun event hevent => event_of_author hreach hevent⟩

end SyncBoard.Comment
