import SyncBoard.Board.CardWrites
import SyncBoard.Board.ListService

/-!
# What the calls write to the lists and boards

As for the cards: a call of `ListService` or `BoardService` that returns writes the
row of at most one list or board and announces it. `ListWrite` and `BoardWrite` list
the writes with the checks passed, the row before and after, and the event. Whatever
such a call throws, it throws before anything is written.
-/

namespace SyncBoard.Board

open Relational Fallible

/-- The board is an active one of the workspace and the list an active one of it. -/
structure OnActiveList (db : Database) (boardId workspaceId listId : Uuid) : Prop where
  board : (BoardRepository.findById db boardId (some workspaceId)).isSome = true
  list : (ListRepository.findActiveById db listId (some boardId)).isSome = true

theorem OnActiveList.active {db : Database} {boardId workspaceId listId : Uuid} {row : ListRow}
    (h : OnActiveList db boardId workspaceId listId) (hrow : db.lists.get? listId = some row) :
    row.boardId = boardId ∧ row.archivedAt = none ∧ row.deletedAt = none := by
  obtain ⟨list, hlist⟩ := Option.isSome_iff_exists.mp h.list
  obtain ⟨hget, hboard⟩ := ListRepository.findActiveById_eq_some hlist
  have hactive := ListRepository.findActiveById_active hlist
  obtain rfl := Option.some.inj (hget.symm.trans hrow)
  exact ⟨hboard, hactive⟩

/-- The board is an active one of the workspace and the list any one of it. -/
structure OnAnyList (db : Database) (boardId workspaceId listId : Uuid) : Prop where
  board : (BoardRepository.findById db boardId (some workspaceId)).isSome = true
  list : (ListRepository.findByIdIncludingArchived db listId (some boardId)).isSome = true

/-- The row that a call writes, under which id, over which row, and its event. -/
inductive ListWrite (env : Env) (db : Database) :
    ListCall → Uuid → Option ListRow → ListRow → ListEvent → Prop
  | create {b w u : Uuid} {dto : CreateListDto} {rank : JsString} {row : ListRow}
      (hrank : ListService.rankAfterLast env db b = .ok rank)
      (hrow : row = ListService.newList env b dto rank)
      (h : (BoardRepository.findById db b (some w)).isSome = true) :
      ListWrite env db (.create b w dto u) env.newId none row (.created ⟨env.newId, row⟩ u)
  | update {b w l u : Uuid} {dto : UpdateListDto} {old new : ListRow}
      (hnew : new = { ListService.patch dto old with updatedAt := env.now })
      (h : OnActiveList db b w l) :
      ListWrite env db (.update b w l dto u) l (some old) new (.updated ⟨l, new⟩ u)
  | move {b w l u : Uuid} {dto : MoveListDto} {rank : JsString} {old new : ListRow}
      (hrank : LexorankService.getRankBetween env.lexorank dto.prevRank dto.nextRank = .ok rank)
      (hnew : new = { old with rank := rank, updatedAt := env.now })
      (h : OnActiveList db b w l) :
      ListWrite env db (.move b w l dto u) l (some old) new (.moved l b rank u)
  | archive {b w l u : Uuid} {old new : ListRow}
      (hnew : new = { old with archivedAt := some env.now, updatedAt := env.now })
      (h : OnActiveList db b w l) :
      ListWrite env db (.archive b w l u) l (some old) new (.archived l b u)
  | unarchive {b w l u : Uuid} {old new : ListRow}
      (hnew : new = { old with archivedAt := none, updatedAt := env.now })
      (h : OnAnyList db b w l) :
      ListWrite env db (.unarchive b w l u) l (some old) new (.unarchived ⟨l, new⟩ u)
  | deletePermanently {b w l u : Uuid} {old new : ListRow}
      (hnew : new = { old with deletedAt := some env.now, updatedAt := env.now })
      (h : OnAnyList db b w l) (hopen : old.deletedAt = none) :
      ListWrite env db (.deletePermanently b w l u) l (some old) new (.deleted l b u)

/-- The row that a call writes, under which id, over which row, and its event. -/
inductive BoardWrite (env : Env) (db : Database) :
    BoardCall → Uuid → Option BoardRow → BoardRow → BoardEvent → Prop
  | create {w u : Uuid} {dto : CreateBoardDto} {row : BoardRow}
      (hrow : row = BoardService.newBoard env w dto u) :
      BoardWrite env db (.create w dto u) env.newId none row (.created ⟨env.newId, row⟩ u)
  | update {b w u : Uuid} {dto : UpdateBoardDto} {old new : BoardRow}
      (hnew : new = { BoardService.patch dto old with updatedAt := env.now })
      (h : (BoardRepository.findById db b (some w)).isSome = true) :
      BoardWrite env db (.update b w dto u) b (some old) new (.updated ⟨b, new⟩ u)
  | archive {b w u : Uuid} {old new : BoardRow}
      (hnew : new = { old with archivedAt := some env.now, updatedAt := env.now })
      (h : (BoardRepository.findById db b (some w)).isSome = true) :
      BoardWrite env db (.archive b w u) b (some old) new (.archived b w u)
  | unarchive {b w u : Uuid} {old new : BoardRow}
      (hnew : new = { old with archivedAt := none, updatedAt := env.now })
      (h : (BoardRepository.findByIdIncludingArchived db b (some w)).isSome = true) :
      BoardWrite env db (.unarchive b w u) b (some old) new (.unarchived ⟨b, new⟩ u)
  | deletePermanently {b w u : Uuid} {old new : BoardRow}
      (hnew : new = { old with deletedAt := some env.now, updatedAt := env.now })
      (h : (BoardRepository.findByIdIncludingArchived db b (some w)).isSome = true)
      (hopen : old.deletedAt = none) :
      BoardWrite env db (.deletePermanently b w u) b (some old) new (.deleted b w u)

/-- What a call that returns has done to the lists; boards, cards and their events are
as they were. -/
structure ListEffect (env : Env) (w w' : World) (call : ListCall) : Prop where
  boards : w'.db.boards = w.db.boards
  cards : w'.db.cards = w.db.cards
  events : w'.events = w.events
  boardEvents : w'.boardEvents = w.boardEvents
  wrote : ∃ listId old new event, ListWrite env w.db call listId old new event ∧
    w.db.lists.get? listId = old ∧ w.db.lists.Wrote w'.db.lists listId new ∧
      w'.listEvents = w.listEvents ++ [event]

/-- A call that writes no board row: it stars or unstars an active board. -/
def BoardCall.KeepsBoards (db : Database) : BoardCall → Prop
  | .starBoard _ b w | .unstarBoard _ b w =>
      (BoardRepository.findById db b (some w)).isSome = true
  | _ => False

/-- What a call that returns has done to the boards; lists, cards and their events are
as they were. -/
structure BoardEffect (env : Env) (w w' : World) (call : BoardCall) : Prop where
  lists : w'.db.lists = w.db.lists
  cards : w'.db.cards = w.db.cards
  events : w'.events = w.events
  listEvents : w'.listEvents = w.listEvents
  wrote : (call.KeepsBoards w.db ∧ w'.db.boards = w.db.boards ∧
      w'.boardEvents = w.boardEvents) ∨
    ∃ boardId old new event, BoardWrite env w.db call boardId old new event ∧
      w.db.boards.get? boardId = old ∧ w.db.boards.Wrote w'.db.boards boardId new ∧
        w'.boardEvents = w.boardEvents ++ [event]

section Statements
variable {db db' : Database} {id : Uuid} {now : Timestamp}

/-- A statement that rewrites a row has found it. -/
theorem updateRow_ok {ρ : Type} {found : Option ρ} {put : ρ → Except DbError Database}
    {data : ρ → ρ} {loaded : Loaded ρ} (h : updateRow found put id data = .ok (loaded, db')) :
    ∃ row, found = some row ∧ loaded = ⟨id, data row⟩ ∧ put (data row) = .ok db' := by
  cases found with
  | none =>
      cases h
  | some row =>
      rw [updateRow] at h
      cases hput : put (data row) with
      | error e =>
          rw [hput] at h
          cases h
      | ok db₁ =>
          rw [hput] at h
          cases h
          exact ⟨row, rfl, rfl, hput⟩

theorem updateRow_of_put {ρ : Type} {row : ρ} {put : ρ → Except DbError Database} {data : ρ → ρ}
    (h : put (data row) = .ok db') :
    updateRow (some row) put id data = .ok (⟨id, data row⟩, db') := by
  rw [updateRow, h]
  rfl

theorem ListRepository.update_wrote {data : ListRow → ListRow} {list : Loaded ListRow}
    (h : update db id data now = .ok (list, db')) :
    ∃ old, db.lists.get? id = some old ∧ list = ⟨id, { data old with updatedAt := now }⟩ ∧
      db.lists.Wrote db'.lists id { data old with updatedAt := now } ∧
        db'.boards = db.boards ∧ db'.cards = db.cards := by
  obtain ⟨old, hold, hlist, hput⟩ := updateRow_ok h
  rw [Database.updateList] at hput
  split at hput
  · cases hput
    exact ⟨old, hold, hlist, Table.wrote_modify hold _, rfl, rfl⟩
  · cases hput

theorem BoardRepository.update_wrote {data : BoardRow → BoardRow} {board : Loaded BoardRow}
    (h : update db id data now = .ok (board, db')) :
    ∃ old, db.boards.get? id = some old ∧ board = ⟨id, { data old with updatedAt := now }⟩ ∧
      db.boards.Wrote db'.boards id { data old with updatedAt := now } ∧
        db'.lists = db.lists ∧ db'.cards = db.cards := by
  obtain ⟨old, hold, hboard, hput⟩ := updateRow_ok h
  rw [Database.updateBoard] at hput
  split at hput
  · cases hput
    exact ⟨old, hold, hboard, Table.wrote_modify hold _, rfl, rfl⟩
  · cases hput

theorem ListRepository.exists_update_of_accepted {row : ListRow} (data : ListRow → ListRow)
    (now : Timestamp) (hrow : db.lists.get? id = some row)
    (haccepted : ListRow.Accepted db.toTables { data row with updatedAt := now }) :
    ∃ list db', update db id data now = .ok (list, db') := by
  rw [update, hrow]
  exact ⟨_, _, updateRow_of_put (by rw [Database.updateList, dif_pos haccepted])⟩

/-- An update that keeps the board and the rank of a list is never refused. -/
theorem ListRepository.exists_update {row : ListRow} (data : ListRow → ListRow)
    (hrow : db.lists.get? id = some row) (hboard : (data row).boardId = row.boardId)
    (hrank : (data row).rank = row.rank) (now : Timestamp) :
    ∃ list db', update db id data now = .ok (list, db') := by
  obtain ⟨hb, hr⟩ := db.wellFormed.lists id row hrow
  exact exists_update_of_accepted data now hrow ⟨hboard.symm ▸ hb, hrank.symm ▸ hr⟩

/-- An update that keeps the workspace and the creator of a board is never refused. -/
theorem BoardRepository.exists_update {row : BoardRow} (data : BoardRow → BoardRow)
    (hrow : db.boards.get? id = some row)
    (hworkspace : (data row).workspaceId = row.workspaceId)
    (hcreator : (data row).createdBy = row.createdBy) (now : Timestamp) :
    ∃ board db', update db id data now = .ok (board, db') := by
  obtain ⟨hw, hu⟩ := db.wellFormed.boards id row hrow
  have haccepted : BoardRow.Accepted db.toTables { data row with updatedAt := now } :=
    ⟨hworkspace.symm ▸ hw, hcreator.symm ▸ hu⟩
  rw [update, hrow]
  exact ⟨_, _, updateRow_of_put (by rw [Database.updateBoard, dif_pos haccepted])⟩

theorem ListRepository.create_wrote {data : ListRow} {list : Loaded ListRow}
    (h : create db id data = .ok (list, db')) :
    db.lists.get? id = none ∧ list = ⟨id, data⟩ ∧ db.lists.Wrote db'.lists id data ∧
      db'.boards = db.boards ∧ db'.cards = db.cards := by
  rw [create, Database.insertList] at h
  split at h
  · next hfresh =>
      split at h
      · cases h
        exact ⟨hfresh, rfl, Table.wrote_insert _ hfresh, rfl, rfl⟩
      · cases h
  · cases h

theorem BoardRepository.create_wrote {data : BoardRow} {board : Loaded BoardRow}
    (h : create db id data = .ok (board, db')) :
    db.boards.get? id = none ∧ board = ⟨id, data⟩ ∧ db.boards.Wrote db'.boards id data ∧
      db'.lists = db.lists ∧ db'.cards = db.cards := by
  rw [create, Database.insertBoard] at h
  split at h
  · next hfresh =>
      split at h
      · cases h
        exact ⟨hfresh, rfl, Table.wrote_insert _ hfresh, rfl, rfl⟩
      · cases h
  · cases h

end Statements

section Lists
variable {α : Type} {env : Env} {w w' : World} {boardId workspaceId listId : Uuid}

theorem returns_onActiveList {f : ListRow → Service α} {a : α}
    (h : Returns (do
      ListService.verifyBoardInWorkspace boardId workspaceId
      let list ← ListService.findList listId boardId
      f list) w a w') :
    OnActiveList w.db boardId workspaceId listId ∧ ∃ list, Returns (f list) w a w' := by
  obtain ⟨hboard, h⟩ := returns_verifyBoardInWorkspace_bind.mp h
  obtain ⟨list, hlist, h⟩ := returns_find_bind.mp h
  exact ⟨⟨hboard, by rw [hlist]; rfl⟩, list, h⟩

/-- The last steps of the calls on a list: one update, then one event. -/
theorem listEffect_of_updating {data : ListRow → ListRow} {rest : Loaded ListRow → Service α}
    {a : α} {call : ListCall} {event : Loaded ListRow → ListEvent}
    (h : Returns (write (ListRepository.update · listId data env.now) >>= rest) w a w')
    (hrest : ∀ list u a v, Returns (rest list) u a v →
      v = { u with listEvents := u.listEvents ++ [event list] })
    (hwrite : ∀ old new, w.db.lists.get? listId = some old →
      new = { data old with updatedAt := env.now } →
        ListWrite env w.db call listId (some old) new (event ⟨listId, new⟩)) :
    ListEffect env w w' call := by
  simp only [returns_bind, returns_write] at h
  obtain ⟨list, _, ⟨db, hupdate, rfl⟩, h⟩ := h
  obtain ⟨old, hold, rfl, hwrote, hboards, hcards⟩ := ListRepository.update_wrote hupdate
  obtain rfl := hrest _ _ _ _ h
  exact ⟨hboards, hcards, rfl, rfl, _, _, _, _, hwrite old _ hold rfl, hold, hwrote, rfl⟩

theorem returns_emitList_return {event : ListEvent} {a b : α}
    (h : Returns (do emitList event; return a) w b w') :
    w' = { w with listEvents := w.listEvents ++ [event] } := by
  simp only [returns_bind, returns_emitList, returns_pure] at h
  obtain ⟨_, _, rfl, -, rfl⟩ := h
  rfl

theorem returns_orThrow_bind {β : Type} {r : Except AppError α} {rest : α → Service β} {b : β} :
    Returns (orThrow r >>= rest) w b w' ↔ ∃ a, r = .ok a ∧ Returns (rest a) w b w' := by
  simp [and_assoc]

theorem listEffect_create {dto : CreateListDto} {userId : Uuid} {list : Loaded ListRow}
    (h : Returns (ListService.create env boardId workspaceId dto userId) w list w') :
    ListEffect env w w' (.create boardId workspaceId dto userId) := by
  obtain ⟨hboard, h⟩ := returns_verifyBoardInWorkspace_bind.mp h
  have h := returns_query_bind.mp h
  obtain ⟨rank, hrank, h⟩ := returns_orThrow_bind.mp h
  simp only [returns_bind, returns_write] at h
  obtain ⟨created, _, ⟨db, hcreate, rfl⟩, h⟩ := h
  obtain rfl := returns_emitList_return (returns_bind.mpr h)
  obtain ⟨hfresh, rfl, hwrote, hboards, hcards⟩ := ListRepository.create_wrote hcreate
  exact ⟨hboards, hcards, rfl, rfl, _, _, _, _, .create hrank rfl hboard, hfresh, hwrote, rfl⟩

/-- A call of `ListService` that returns has written what `ListWrite` says. -/
theorem listEffect {call : ListCall} (h : Returns (call.run env) w () w') :
    ListEffect env w w' call := by
  cases call with
  | create =>
      obtain ⟨list, h⟩ := returns_discard.mp h
      exact listEffect_create h
  | update =>
      obtain ⟨list, h⟩ := returns_discard.mp h
      obtain ⟨hactive, -, h⟩ := returns_onActiveList h
      exact listEffect_of_updating h (fun _ _ _ _ => returns_emitList_return)
        fun _ _ _ hnew => .update hnew hactive
  | move =>
      obtain ⟨list, h⟩ := returns_discard.mp h
      obtain ⟨hactive, -, h⟩ := returns_onActiveList h
      obtain ⟨rank, hrank, h⟩ := returns_orThrow_bind.mp h
      exact listEffect_of_updating h (fun _ _ _ _ => returns_emitList_return)
        fun _ _ _ hnew => .move hrank hnew hactive
  | archive =>
      obtain ⟨hactive, -, h⟩ := returns_onActiveList h
      exact listEffect_of_updating h (fun _ _ _ _ h => (returns_emitList.mp h).symm)
        fun _ _ _ hnew => .archive hnew hactive
  | unarchive =>
      obtain ⟨list, h⟩ := returns_discard.mp h
      obtain ⟨hboard, h⟩ := returns_verifyBoardInWorkspace_bind.mp h
      obtain ⟨found, hfound, h⟩ := returns_find_bind.mp h
      exact listEffect_of_updating h (fun _ _ _ _ => returns_emitList_return)
        fun _ _ _ hnew => .unarchive hnew ⟨hboard, by rw [hfound]; rfl⟩
  | deletePermanently =>
      obtain ⟨hboard, h⟩ := returns_verifyBoardInWorkspace_bind.mp h
      obtain ⟨found, hfound, h⟩ := returns_find_bind.mp h
      obtain ⟨hopen, h⟩ := returns_refuseIf_bind.mp h
      have hrow := (Option.filter_eq_some_iff.mp hfound).1
      apply listEffect_of_updating h fun _ _ _ _ h => (returns_emitList.mp h).symm
      intro old new hold hnew
      obtain rfl : found = old := Option.some.inj (hrow.symm.trans hold)
      exact .deletePermanently hnew ⟨hboard, by rw [hfound]; rfl⟩ (by simpa using hopen)

theorem clean_onActiveList {f : ListRow → Service α} (hf : ∀ list, Clean (f list)) :
    Clean (do
      ListService.verifyBoardInWorkspace boardId workspaceId
      let list ← ListService.findList listId boardId
      f list) :=
  Clean.after_reads reads_verifyBoardInWorkspace fun _ => Clean.after_reads (reads_find _ _) hf

theorem total_emitList_return (event : ListEvent) (a : α) :
    Total (do emitList event; return a) :=
  Total.bind (total_emitList event) fun _ => Total.pure a

/-- Whatever a call of `ListService` throws, it throws before anything is written. -/
theorem clean_listCall (env : Env) (call : ListCall) : Clean (call.run env) := by
  cases call with
  | create =>
      apply Clean.before_total _ fun _ => Total.pure _
      apply Clean.after_reads reads_verifyBoardInWorkspace
      intro _
      apply Clean.after_reads (Reads.query _)
      intro _
      apply Clean.after_reads (reads_orThrow _)
      intro _
      exact clean_writing fun _ => total_emitList_return _ _
  | update =>
      apply Clean.before_total _ fun _ => Total.pure _
      exact clean_onActiveList fun _ => clean_writing fun _ => total_emitList_return _ _
  | move =>
      apply Clean.before_total _ fun _ => Total.pure _
      apply clean_onActiveList
      intro _
      apply Clean.after_reads (reads_orThrow _)
      intro _
      exact clean_writing fun _ => total_emitList_return _ _
  | archive =>
      exact clean_onActiveList fun _ => clean_writing fun _ => total_emitList _
  | unarchive =>
      apply Clean.before_total _ fun _ => Total.pure _
      apply Clean.after_reads reads_verifyBoardInWorkspace
      intro _
      apply Clean.after_reads (reads_find _ _)
      intro _
      exact clean_writing fun _ => total_emitList_return _ _
  | deletePermanently =>
      apply Clean.after_reads reads_verifyBoardInWorkspace
      intro _
      apply Clean.after_reads (reads_find _ _)
      intro _
      apply Clean.after_reads (reads_refuseIf _ _)
      intro _
      exact clean_writing fun _ => total_emitList _

/-- `unarchive` returns for every list of an active board. -/
theorem exists_unarchiveList {userId : Uuid} (h : OnAnyList w.db boardId workspaceId listId) :
    ∃ list w', Returns (ListService.unarchive env boardId workspaceId listId userId)
      w list w' := by
  obtain ⟨found, hfound⟩ := Option.isSome_iff_exists.mp h.list
  have hrow := (Option.filter_eq_some_iff.mp hfound).1
  obtain ⟨list, db, hupdate⟩ := ListRepository.exists_update
    (fun list => { list with archivedAt := none }) hrow rfl rfl env.now
  refine ⟨list, { w with
    db := db, listEvents := w.listEvents ++ [.unarchived list userId] }, ?_⟩
  refine returns_verifyBoardInWorkspace_bind.mpr ⟨h.board, ?_⟩
  refine returns_find_bind.mpr ⟨found, hfound, ?_⟩
  apply returns_bind.mpr
  refine ⟨list, { w with db := db }, returns_write.mpr ⟨db, hupdate, rfl⟩, ?_⟩
  exact returns_bind.mpr ⟨(), _, returns_emitList.mpr rfl, returns_pure.mpr ⟨rfl, rfl⟩⟩

end Lists

section Boards
variable {α : Type} {env : Env} {w w' : World} {boardId workspaceId : Uuid}

/-- The last steps of the calls on a board: one update, then one event. -/
theorem boardEffect_of_updating {data : BoardRow → BoardRow}
    {rest : Loaded BoardRow → Service α} {a : α} {call : BoardCall}
    {event : Loaded BoardRow → BoardEvent}
    (h : Returns (write (BoardRepository.update · boardId data env.now) >>= rest) w a w')
    (hrest : ∀ board u a v, Returns (rest board) u a v →
      v = { u with boardEvents := u.boardEvents ++ [event board] })
    (hwrite : ∀ old new, w.db.boards.get? boardId = some old →
      new = { data old with updatedAt := env.now } →
        BoardWrite env w.db call boardId (some old) new (event ⟨boardId, new⟩)) :
    BoardEffect env w w' call := by
  simp only [returns_bind, returns_write] at h
  obtain ⟨board, _, ⟨db, hupdate, rfl⟩, h⟩ := h
  obtain ⟨old, hold, rfl, hwrote, hlists, hcards⟩ := BoardRepository.update_wrote hupdate
  obtain rfl := hrest _ _ _ _ h
  exact ⟨hlists, hcards, rfl, rfl,
    .inr ⟨_, _, _, _, hwrite old _ hold rfl, hold, hwrote, rfl⟩⟩

theorem returns_emitBoard_return {event : BoardEvent} {a b : α}
    (h : Returns (do emitBoard event; return a) w b w') :
    w' = { w with boardEvents := w.boardEvents ++ [event] } := by
  simp only [returns_bind, returns_emitBoard, returns_pure] at h
  obtain ⟨_, _, rfl, -, rfl⟩ := h
  rfl

theorem boardEffect_create {dto : CreateBoardDto} {userId : Uuid} {board : Loaded BoardRow}
    (h : Returns (BoardService.create env workspaceId dto userId) w board w') :
    BoardEffect env w w' (.create workspaceId dto userId) := by
  rw [BoardService.create] at h
  simp only [returns_bind, returns_write] at h
  obtain ⟨created, _, ⟨db, hcreate, rfl⟩, h⟩ := h
  obtain rfl := returns_emitBoard_return (returns_bind.mpr h)
  obtain ⟨hfresh, rfl, hwrote, hlists, hcards⟩ := BoardRepository.create_wrote hcreate
  exact ⟨hlists, hcards, rfl, rfl, .inr ⟨_, _, _, _, .create rfl, hfresh, hwrote, rfl⟩⟩

theorem boardEffect_star {userId : Uuid} {u : Unit}
    (h : Returns (BoardService.starBoard userId boardId workspaceId) w u w') :
    BoardEffect env w w' (.starBoard userId boardId workspaceId) := by
  obtain ⟨board, hboard, h⟩ := returns_find_bind.mp h
  obtain ⟨db, hstar, rfl⟩ := returns_write.mp h
  have hactive : (BoardRepository.findById w.db boardId (some workspaceId)).isSome = true := by
    rw [hboard]
    rfl
  have hsame : db.lists = w.db.lists ∧ db.cards = w.db.cards ∧ db.boards = w.db.boards := by
    rw [BoardRepository.starBoard, Database.upsertStar] at hstar
    split at hstar
    · split at hstar
      · cases hstar
        exact ⟨rfl, rfl, rfl⟩
      · cases hstar
    · cases hstar
      exact ⟨rfl, rfl, rfl⟩
  exact ⟨hsame.1, hsame.2.1, rfl, rfl, .inl ⟨hactive, hsame.2.2, rfl⟩⟩

theorem boardEffect_unstar {userId : Uuid} {u : Unit}
    (h : Returns (BoardService.unstarBoard userId boardId workspaceId) w u w') :
    BoardEffect env w w' (.unstarBoard userId boardId workspaceId) := by
  obtain ⟨board, hboard, h⟩ := returns_find_bind.mp h
  obtain ⟨db, hunstar, rfl⟩ := returns_write.mp h
  have hactive : (BoardRepository.findById w.db boardId (some workspaceId)).isSome = true := by
    rw [hboard]
    rfl
  cases hunstar
  exact ⟨rfl, rfl, rfl, rfl, .inl ⟨hactive, rfl, rfl⟩⟩

/-- A call of `BoardService` that returns has written what `BoardWrite` says, or no
board row. -/
theorem boardEffect {call : BoardCall} (h : Returns (call.run env) w () w') :
    BoardEffect env w w' call := by
  cases call with
  | create =>
      obtain ⟨board, h⟩ := returns_discard.mp h
      exact boardEffect_create h
  | update =>
      obtain ⟨board, h⟩ := returns_discard.mp h
      obtain ⟨found, hfound, h⟩ := returns_find_bind.mp h
      exact boardEffect_of_updating h (fun _ _ _ _ => returns_emitBoard_return)
        fun _ _ _ hnew => .update hnew (by rw [hfound]; rfl)
  | archive =>
      obtain ⟨found, hfound, h⟩ := returns_find_bind.mp h
      exact boardEffect_of_updating h (fun _ _ _ _ h => (returns_emitBoard.mp h).symm)
        fun _ _ _ hnew => .archive hnew (by rw [hfound]; rfl)
  | unarchive =>
      obtain ⟨board, h⟩ := returns_discard.mp h
      obtain ⟨found, hfound, h⟩ := returns_find_bind.mp h
      exact boardEffect_of_updating h (fun _ _ _ _ => returns_emitBoard_return)
        fun _ _ _ hnew => .unarchive hnew (by rw [hfound]; rfl)
  | deletePermanently b ws u =>
      obtain ⟨found, hfound, h⟩ := returns_find_bind.mp h
      obtain ⟨hopen, h⟩ := returns_refuseIf_bind.mp h
      have hrow := (Option.filter_eq_some_iff.mp hfound).1
      have hany : BoardRepository.findByIdIncludingArchived w.db b (some ws) = some found := hfound
      apply boardEffect_of_updating h fun _ _ _ _ h => (returns_emitBoard.mp h).symm
      intro old new hold hnew
      obtain rfl : found = old := Option.some.inj (hrow.symm.trans hold)
      exact .deletePermanently hnew (by rw [hany]; rfl) (by simpa using hopen)
  | starBoard =>
      exact boardEffect_star h
  | unstarBoard =>
      exact boardEffect_unstar h

theorem total_emitBoard_return (event : BoardEvent) (a : α) :
    Total (do emitBoard event; return a) :=
  Total.bind (total_emitBoard event) fun _ => Total.pure a

/-- Whatever a call of `BoardService` throws, it throws before anything is written. -/
theorem clean_boardCall (env : Env) (call : BoardCall) : Clean (call.run env) := by
  cases call with
  | create =>
      apply Clean.before_total _ fun _ => Total.pure _
      exact clean_writing fun _ => total_emitBoard_return _ _
  | update =>
      apply Clean.before_total _ fun _ => Total.pure _
      apply Clean.after_reads (reads_find _ _)
      intro _
      exact clean_writing fun _ => total_emitBoard_return _ _
  | archive =>
      apply Clean.after_reads (reads_find _ _)
      intro _
      exact clean_writing fun _ => total_emitBoard _
  | unarchive =>
      apply Clean.before_total _ fun _ => Total.pure _
      apply Clean.after_reads (reads_find _ _)
      intro _
      exact clean_writing fun _ => total_emitBoard_return _ _
  | deletePermanently =>
      apply Clean.after_reads (reads_find _ _)
      intro _
      apply Clean.after_reads (reads_refuseIf _ _)
      intro _
      exact clean_writing fun _ => total_emitBoard _
  | starBoard | unstarBoard =>
      exact Clean.after_reads (reads_find _ _) fun _ => clean_write _ _

/-- `unarchive` returns for every board of the workspace. -/
theorem exists_unarchiveBoard {userId : Uuid}
    (h : (BoardRepository.findByIdIncludingArchived w.db boardId (some workspaceId)).isSome = true) :
    ∃ board w', Returns (BoardService.unarchive env boardId workspaceId userId) w board w' := by
  obtain ⟨found, hfound⟩ := Option.isSome_iff_exists.mp h
  have hrow := (Option.filter_eq_some_iff.mp hfound).1
  obtain ⟨board, db, hupdate⟩ := BoardRepository.exists_update
    (fun board => { board with archivedAt := none }) hrow rfl rfl env.now
  refine ⟨board, { w with
    db := db, boardEvents := w.boardEvents ++ [.unarchived board userId] }, ?_⟩
  refine returns_find_bind.mpr ⟨found, hfound, ?_⟩
  apply returns_bind.mpr
  refine ⟨board, { w with db := db }, returns_write.mpr ⟨db, hupdate, rfl⟩, ?_⟩
  exact returns_bind.mpr ⟨(), _, returns_emitBoard.mpr rfl, returns_pure.mpr ⟨rfl, rfl⟩⟩

end Boards

end SyncBoard.Board
