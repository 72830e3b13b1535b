import Mathlib.Data.List.Pairwise
import SyncBoard.Document.Hub
import SyncBoard.Lib.Run
import SyncBoard.Lib.Table
import SyncBoard.Pagination

/-!
# The listing of documents

`findPage` and `searchPage`, in the order of `updatedAt`, which every save and every
rename raises. The cursor is an id, and a page starts where its row is found by then. The
row can only have moved to the front, so no document is skipped; one comes again if it
lies between where the row is and where it was.

## Implementation notes

The search in the preview text is a parameter. A request reads the row of the cursor and
the rows of the page at two moments, except for `findMany`, which reads both in one query
and is followed by another one only where it fails, which it
does not for a cursor without a row. What is returned of the parent card,
and who created a document and when, is left out.
-/

namespace SyncBoard.Document

open Relational Relational.Table Labelled Paging

/-- A row of `documents`, as far as the listing reads it. -/
structure ListedDocument where
  workspaceId : Uuid
  title : JsString := []
  previewText : Option JsString := none
  status : DocumentStatus := .active
  updatedAt : Timestamp
  deriving DecidableEq, Repr

abbrev Documents := Table Uuid ListedDocument

/-- A document under its id. -/
abbrev StoredDocument := Uuid × ListedDocument

/-- `orderBy: [{ updatedAt: 'desc' }, { id: 'desc' }]`. -/
def documentOrder (document : StoredDocument) : Newest Timestamp Uuid :=
  newest document.2.updatedAt document.1

/-- `where: { workspaceId, status: DocumentStatus.active }`. -/
def activeRows (workspaceId : Uuid) (documents : Documents) : List StoredDocument :=
  documents.rows.filter fun document =>
    document.2.workspaceId == workspaceId && document.2.status == .active

def findPage (atCursor atFallback : Documents) (workspaceId : Uuid) (cursor : Option Uuid)
    (limit : Nat) : Except DbError (List StoredDocument) :=
  let find (documents : Documents) (cursor : Option Uuid) : Except DbError (List StoredDocument) :=
    .ok (findManyPage documentOrder (activeRows workspaceId documents)
      (fun id => (documents.get? id).map (Prod.mk id)) false (limit + 1) cursor)
  match find atCursor cursor with
  | .error .recordNotFound =>
      if cursor.isSome then find atFallback none else .error .recordNotFound
  | rows => rows

section Search
variable (matchesTerm : JsString → JsString → Bool)

/-- The rows of the query of `searchPage` without a cursor. -/
def searchRows (workspaceId : Uuid) (term : JsString) (documents : Documents) :
    List StoredDocument :=
  (activeRows workspaceId documents).filter fun document =>
    matchesTerm (document.2.previewText.getD []) term

/-- `(updated_at, id) < (cursorDoc.updatedAt, cursorDoc.id)`. -/
def isBeforeCursor (cursorDoc document : StoredDocument) : Bool :=
  decide (document.2.updatedAt < cursorDoc.2.updatedAt) ||
    (document.2.updatedAt == cursorDoc.2.updatedAt && decide (document.1 < cursorDoc.1))

def searchPage (atCursor atRows : Documents) (workspaceId : Uuid) (term : JsString)
    (cursor : Option Uuid) (limit : Nat) : List StoredDocument :=
  let rows := searchRows matchesTerm workspaceId term atRows
  let firstPage := (after documentOrder none rows).take (limit + 1)
  match cursor with
  | none => firstPage
  | some cursor =>
      match atCursor.get? cursor with
      | none => firstPage
      | some cursorDoc =>
          if cursorDoc.workspaceId ≠ workspaceId ∨ cursorDoc.status ≠ .active then firstPage
          else
            (after documentOrder none (rows.filter (isBeforeCursor (cursor, cursorDoc)))).take
              (limit + 1)

/-- A page of the listing without a search term. -/
def listPage (workspaceId : Uuid) (limit : Nat) (request : Documents × Documents)
    (cursor : Option Uuid) : Except DbError (PaginatedResult StoredDocument Uuid) :=
  (findPage request.1 request.2 workspaceId cursor limit).map fun rows =>
    buildCursorPagination rows limit Prod.fst

/-- A page of the listing with a search term. -/
def searchedPage (workspaceId : Uuid) (term : JsString) (limit : Nat)
    (request : Documents × Documents) (cursor : Option Uuid) :
    Except DbError (PaginatedResult StoredDocument Uuid) :=
  .ok (buildCursorPagination
    (searchPage matchesTerm request.1 request.2 workspaceId term cursor limit) limit Prod.fst)

end Search

inductive DocumentChange
  | create (id : Uuid) (document : ListedDocument)
  | rename (id : Uuid) (title : JsString) (now : Timestamp)
  | saveState (id : Uuid) (preview : JsString) (now : Timestamp)

namespace Documents

/-- `update` of the row of an id, with `@updatedAt`; clocks do not go back. -/
def update (documents : Documents) (id : Uuid) (now : Timestamp)
    (f : ListedDocument → ListedDocument) : Option Documents :=
  match documents.get? id with
  | none => none
  | some document =>
      if document.updatedAt ≤ now then
        some (documents.modify id fun document => { f document with updatedAt := now })
      else none

def step (documents : Documents) : DocumentChange → Option Documents
  | .create id document => documents.insert? id document
  | .rename id title now => documents.update id now fun document => { document with title }
  | .saveState id preview now =>
      documents.update id now fun document => { document with previewText := some preview }

/-- Any changes lead from one moment to another. -/
def Becomes (documents documents' : Documents) : Prop :=
  ∃ changes, Run step documents changes documents'

/-- Rows stay in their workspace and active, and their `updatedAt` is only raised. -/
def Evolves (documents documents' : Documents) : Prop :=
  ∀ id row, documents.get? id = some row → ∃ row', documents'.get? id = some row' ∧
    row'.workspaceId = row.workspaceId ∧ row'.status = row.status ∧
      row.updatedAt ≤ row'.updatedAt

variable {documents documents' documents'' : Documents}

theorem Evolves.refl (documents : Documents) : Evolves documents documents :=
  fun _ row h => ⟨row, h, rfl, rfl, le_refl _⟩

theorem Evolves.trans (h : Evolves documents documents') (h' : Evolves documents' documents'') :
    Evolves documents documents'' := by
  intro id row hrow
  obtain ⟨row', hrow', hworkspace, hstatus, hle⟩ := h id row hrow
  obtain ⟨row'', hrow'', hworkspace', hstatus', hle'⟩ := h' id row' hrow'
  exact ⟨row'', hrow'', hworkspace'.trans hworkspace, hstatus'.trans hstatus, hle.trans hle'⟩

theorem evolves_update {id : Uuid} {now : Timestamp} {f : ListedDocument → ListedDocument}
    (hf : ∀ row, (f row).workspaceId = row.workspaceId ∧ (f row).status = row.status)
    (h : documents.update id now f = some documents') : Evolves documents documents' := by
  simp only [update] at h
  split at h
  · cases h
  next written hwritten =>
    split at h
    next hle =>
      obtain rfl := Option.some.inj h
      intro j row hrow
      by_cases hj : j = id
      · subst hj
        obtain rfl := Option.some.inj (hwritten.symm.trans hrow)
        refine ⟨_, by rw [get?_modify_self, hrow, Option.map_some], ?_⟩
        exact ⟨(hf written).1, (hf written).2, hle⟩
      · refine ⟨row, ?_, rfl, rfl, le_refl _⟩
        rw [get?_modify, if_neg hj]
        exact hrow
    · cases h

theorem evolves_step {change : DocumentChange} (h : step documents change = some documents') :
    Evolves documents documents' := by
  cases change with
  | create id document =>
      intro j row hrow
      have hne : j ≠ id := by
        rintro rfl
        rw [insert?_fresh h] at hrow
        cases hrow
      refine ⟨row, ?_, rfl, rfl, le_refl _⟩
      rw [get?_insert? h, if_neg hne]
      exact hrow
  | rename id title now =>
      refine evolves_update ?_ h
      exact fun _ => ⟨rfl, rfl⟩
  | saveState id preview now =>
      refine evolves_update ?_ h
      exact fun _ => ⟨rfl, rfl⟩

theorem pairwise_evolves {requests : List (Documents × Documents)}
    (h : (moments requests).IsChain Becomes) : (moments requests).Pairwise Evolves :=
  pairwise_of_isChain Evolves.refl Evolves.trans (fun _ _ _ => evolves_step) h

end Documents

/-- One document comes before another in the listing. -/
def IsNewer (a b : StoredDocument) : Prop :=
  b.2.updatedAt < a.2.updatedAt ∨ b.2.updatedAt = a.2.updatedAt ∧ b.1 < a.1

/-- Where the page of a cursor starts. -/
def documentStart (documents : Documents) (cursor : Option Uuid) :
    Option (Newest Timestamp Uuid) :=
  (cursor.bind fun id => (documents.get? id).map (Prod.mk id)).map documentOrder

/-- The cursor is a document that the listing shows. -/
def IsShown (workspaceId : Uuid) (documents : Documents) (cursor : Uuid) : Prop :=
  ∃ row, documents.get? cursor = some row ∧ row.workspaceId = workspaceId ∧ row.status = .active

/-- The document does not come to lie between where the row of a cursor was on the page
before and where it is. -/
def KeepsPlace (cursor : Uuid) (before now : Documents) (document : StoredDocument) : Prop :=
  ∀ row row', before.get? cursor = some row → now.get? cursor = some row' →
    IsNewer (cursor, row') document → IsNewer (cursor, row) document

section Walks
variable {workspaceId : Uuid} {limit : Nat} {cursor : Option Uuid} {documents : Documents}
variable {request : Documents × Documents} {page : PaginatedResult StoredDocument Uuid}
variable {document : StoredDocument} {id : Uuid} {row row' : ListedDocument}

theorem documentOrder_lt {a b : StoredDocument} :
    documentOrder a < documentOrder b ↔ IsNewer a b :=
  newest_lt

theorem documentOrder_inj {a b : StoredDocument} :
    documentOrder a = documentOrder b ↔ a.2.updatedAt = b.2.updatedAt ∧ a.1 = b.1 :=
  newest_inj

theorem documentOrder_le (h : row.updatedAt ≤ row'.updatedAt) :
    documentOrder (id, row') ≤ documentOrder (id, row) := by
  rcases Nat.lt_or_eq_of_le h with hlt | heq
  · exact (documentOrder_lt.mpr (.inl hlt)).le
  · have hsame : documentOrder (id, row') = documentOrder (id, row) :=
      documentOrder_inj.mpr ⟨heq.symm, rfl⟩
    exact hsame.le

theorem documentStart_of_get? (h : documents.get? id = some row) :
    documentStart documents (some id) = some (documentOrder (id, row)) := by
  simp [documentStart, h]

theorem keyed_filter (documents : Documents) (p : StoredDocument → Bool) :
    ((documents.rows.filter p).map documentOrder).Nodup :=
  nodup_map_filter_rows (fun _ _ h => (documentOrder_inj.mp h).2) p

theorem mem_activeRows :
    document ∈ activeRows workspaceId documents ↔ documents.get? document.1 = some document.2 ∧
      document.2.workspaceId = workspaceId ∧ document.2.status = .active := by
  rw [activeRows, mem_filter_rows_iff, Bool.and_eq_true, beq_iff_eq, beq_iff_eq]

theorem isPage_listPage (hcursor : ∀ id ∈ cursor, IsShown workspaceId request.1 id)
    (h : listPage workspaceId limit request cursor = .ok page) :
    IsPage Prod.fst limit (after documentOrder (documentStart request.1 cursor)
      (activeRows workspaceId request.1)) page := by
  have hfound : ∀ id ∈ cursor, ∃ document ∈ activeRows workspaceId request.1,
      (request.1.get? id).map (Prod.mk id) = some document := by
    intro id hid
    obtain ⟨row, hrow, hshown⟩ := hcursor id hid
    exact ⟨(id, row), mem_activeRows.mpr ⟨hrow, hshown⟩, by rw [hrow, Option.map_some]⟩
  have hfind : findManyPage documentOrder (activeRows workspaceId request.1)
      (fun id => (request.1.get? id).map (Prod.mk id)) false (limit + 1) cursor =
        (after documentOrder (documentStart request.1 cursor)
          (activeRows workspaceId request.1)).take (limit + 1) :=
    findManyPage_of_found (keyed_filter request.1 _) hfound false (limit + 1)
  have hrows : findPage request.1 request.2 workspaceId cursor limit =
      .ok ((after documentOrder (documentStart request.1 cursor)
        (activeRows workspaceId request.1)).take (limit + 1)) := by
    simp only [findPage, hfind]
  rw [listPage, hrows] at h
  obtain rfl := Except.ok.inj h
  exact isPage_buildCursorPagination _ limit Prod.fst

theorem isBeforeCursor_eq (cursorDoc document : StoredDocument) :
    isBeforeCursor cursorDoc document =
      decide (Beyond (some (documentOrder cursorDoc)) (documentOrder document)) := by
  have hlt : isBeforeCursor cursorDoc document =
      decide (documentOrder cursorDoc < documentOrder document) := newest_lt_eq_or _ _ _ _
  simp only [hlt, beyond_some]

theorem isPage_searchedPage {matchesTerm : JsString → JsString → Bool} {term : JsString}
    (hcursor : ∀ id ∈ cursor, IsShown workspaceId request.1 id)
    (h : searchedPage matchesTerm workspaceId term limit request cursor = .ok page) :
    IsPage Prod.fst limit (after documentOrder (documentStart request.1 cursor)
      (searchRows matchesTerm workspaceId term request.2)) page := by
  have hrows : searchPage matchesTerm request.1 request.2 workspaceId term cursor limit =
      (after documentOrder (documentStart request.1 cursor)
        (searchRows matchesTerm workspaceId term request.2)).take (limit + 1) := by
    cases cursor with
    | none => rfl
    | some id =>
        obtain ⟨row, hrow, hworkspace, hstatus⟩ := hcursor id rfl
        have hshown : ¬ (row.workspaceId ≠ workspaceId ∨ row.status ≠ .active) := by
          simp [hworkspace, hstatus]
        have hbefore : after documentOrder none ((searchRows matchesTerm workspaceId term
            request.2).filter (isBeforeCursor (id, row))) =
              after documentOrder (some (documentOrder (id, row)))
                ((searchRows matchesTerm workspaceId term request.2).filter fun _ => true) :=
          after_none_filter fun document _ => by rw [isBeforeCursor_eq, Bool.and_true]
        simp only [searchPage, hrow, if_neg hshown, hbefore, List.filter_true,
          documentStart_of_get? hrow]
  rw [searchedPage, hrows] at h
  obtain rfl := Except.ok.inj h
  exact isPage_buildCursorPagination _ limit Prod.fst

section Once
variable {requests : List (Documents × Documents)} {l : List StoredDocument}
variable {pageOf : Documents × Documents → Option Uuid →
  Except DbError (PaginatedResult StoredDocument Uuid)}
variable (moment : Documents × Documents → Documents) (p : StoredDocument → Bool)

/-- A document that does not change comes exactly once if and only if no cursor passes it
on its way to the front. The rows of a page are read at one of the two moments. -/
theorem once_iff_keepsPlace (h : Follows pageOf none requests l)
    (hp : ∀ document, p document = true →
      document.2.workspaceId = workspaceId ∧ document.2.status = .active)
    (hpage : ∀ request ∈ requests, ∀ cursor page,
      (∀ id ∈ cursor, IsShown workspaceId request.1 id) → pageOf request cursor = .ok page →
      IsPage Prod.fst limit (after documentOrder (documentStart request.1 cursor)
        ((moment request).rows.filter p)) page)
    (hevolves : requests.Pairwise fun request request' =>
      Documents.Evolves (moment request) request'.1)
    (hrow : ∀ request ∈ requests, (moment request).get? id = some row) (hid : p (id, row) = true) :
    (l.map Prod.fst).count id = 1 ↔ ∀ q ∈ resumptions pageOf none requests,
      KeepsPlace q.cursor (moment q.before) q.now.1 (id, row) := by
  have hnext : requests.Pairwise fun request request' =>
      ∀ document ∈ (moment request).rows.filter p, IsShown workspaceId request'.1 document.1 := by
    refine hevolves.imp fun hevolves document hmem => ?_
    obtain ⟨hget, hdocument⟩ := mem_filter_rows_iff.mp hmem
    obtain ⟨hworkspace, hstatus⟩ := hp document hdocument
    obtain ⟨row', hrow', hworkspace', hstatus', -⟩ := hevolves _ _ hget
    exact ⟨row', hrow', hworkspace'.trans hworkspace, hstatus'.trans hstatus⟩
  have hback : ∀ q ∈ resumptions pageOf none requests,
      ∀ document ∈ (moment q.before).rows.filter p, document.1 = q.cursor →
        documentOrder document < documentOrder (id, row) →
          Beyond (documentStart q.now.1 (some q.cursor)) (documentOrder (id, row)) := by
    intro q hq document hmem hcursor hlt
    obtain ⟨hget, -⟩ := mem_filter_rows_iff.mp hmem
    obtain ⟨now, hnow, -, -, hle⟩ := resumptions_of_pairwise hevolves q hq _ _ hget
    rw [← hcursor, documentStart_of_get? hnow, beyond_some]
    exact (documentOrder_le hle).trans_lt hlt
  have hcursor : ∀ request ∈ requests, ∀ a ∈ (moment request).rows.filter p,
      ∀ b ∈ (moment request).rows.filter p, a.1 = b.1 → a = b := by
    intro request _ a ha b hb heq
    exact List.inj_on_of_nodup_map (moment request).nodup (List.mem_filter.mp ha).1
      (List.mem_filter.mp hb).1 heq
  have hholds : ∀ request ∈ requests, Holds documentOrder
      (fun request => (moment request).rows.filter p) (fun document => document.1 == id)
      (documentOrder (id, row)) request :=
    fun request hrequest => ⟨(id, row), filter_rows_key (hrow request hrequest) hid, rfl⟩
  obtain ⟨ts, -, -, hto, -⟩ := h.walk_none hpage hnext fun _ _ => rfl
  rw [List.count_eq_countP, List.countP_map]
  apply (h.countP_eq_one_iff hpage hnext (fun _ _ => rfl)
    (fun request _ => keyed_filter (moment request) p) hcursor hback hholds).trans
  constructor
  · intro hqs q hq was now hwas hnow hnewer
    obtain ⟨document, hmem, hcur, hstop⟩ := hqs q hq
    obtain ⟨hget, -⟩ := mem_filter_rows_iff.mp hmem
    rw [hcur] at hget
    obtain rfl := Option.some.inj (hget.symm.trans hwas)
    rw [documentStart_of_get? hnow, beyond_some] at hstop
    rw [← hcur]
    exact documentOrder_lt.mp (hstop (documentOrder_lt.mpr hnewer))
  · intro hqs q hq
    obtain ⟨t, -, hcur, -, hmem⟩ := hto q hq
    refine ⟨t.1, hmem, hcur, fun hbeyond => ?_⟩
    obtain ⟨hget, -⟩ := mem_filter_rows_iff.mp hmem
    obtain ⟨now, hnow, -⟩ := resumptions_of_pairwise hevolves q hq _ _ hget
    rw [hcur] at hget hnow
    rw [documentStart_of_get? hnow, beyond_some] at hbeyond
    have hnewer := hqs q hq t.1.2 now hget hnow (documentOrder_lt.mp hbeyond)
    rw [← hcur] at hnewer
    exact documentOrder_lt.mpr hnewer

end Once

end Walks

end SyncBoard.Document
