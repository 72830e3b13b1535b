import SyncBoard.CardField.CardFieldService
import SyncBoard.Lib.Run

/-!
# Stored values of custom fields

A value is stored where it passes the validation against the definition as it is then.
The type of a definition never changes and its values are deleted with it, so a stored
value passes against the current definition as well, except where an update has replaced
the options of a select field.
-/

namespace SyncBoard.CardField

open Relational Fallible Labelled
open Board (Loaded boardOf workspaceOf)

variable {platform : Platform} {env : Env} {w w' : World}

/-- The value passes the validation against the definition. -/
def CardFieldDefRow.Passes (platform : Platform) (row : CardFieldDefRow) (value : Json) : Prop :=
  validateFieldValue platform row.fieldType row.options (some value) = .ok ()

theorem validateFieldValue_eq_ok {fieldType : CardFieldType} {options : Option Json}
    {value : Json} : validateFieldValue platform fieldType options (some value) = .ok () ↔
      value = .null ∨ FitsType platform options fieldType value = true := by
  cases value <;> simp [validateFieldValue]

/-- Only select fields have their options read. -/
theorem fitsType_of_ne_select {fieldType : CardFieldType} (h : fieldType ≠ .select)
    (options options' : Option Json) (value : Json) :
    FitsType platform options fieldType value = FitsType platform options' fieldType value := by
  cases fieldType with
  | select => exact absurd rfl h
  | number => cases value <;> rfl
  | text => cases value <;> rfl
  | date => cases value <;> rfl
  | user => cases value <;> rfl

theorem fitsType_select {options : Option Json} {value : Json} :
    FitsType platform options .select value = true ↔
      ∃ s ∈ allowedOptions options, value = .string s := by
  cases value <;> simp [FitsType]

/-- A definition of the same type that reads the same options, or none, accepts the same. -/
theorem CardFieldDefRow.Passes.retyped {row row' : CardFieldDefRow} {value : Json}
    (h : row.Passes platform value) (htype : row'.fieldType = row.fieldType)
    (hoptions : row.fieldType = .select → row'.options = row.options) :
    row'.Passes platform value := by
  rw [Passes, htype]
  by_cases hselect : row.fieldType = .select
  · rw [hoptions hselect]
    exact h
  · rw [validateFieldValue_eq_ok, fitsType_of_ne_select hselect row'.options row.options,
      ← validateFieldValue_eq_ok]
    exact h

theorem insertDef_eq_ok {id : Uuid} {row : CardFieldDefRow} (h : w.insertDef id row = .ok w') :
    w.defs.get? id = none ∧ w.defs.Wrote w'.defs id row ∧ w'.values = w.values ∧
      w'.board = w.board := by
  unfold World.insertDef at h
  split at h
  · next hfresh =>
      split at h
      · cases h
        exact ⟨hfresh.1, w.defs.wrote_insert hfresh.1, rfl, rfl⟩
      · cases h
  · cases h

theorem updateDef_eq_ok {id : Uuid} {old row : CardFieldDefRow} (hold : w.defs.get? id = some old)
    (h : w.updateDef id row = .ok w') :
    w.defs.Wrote w'.defs id row ∧ w'.values = w.values ∧ w'.board = w.board := by
  unfold World.updateDef at h
  split at h
  · split at h
    · cases h
      exact ⟨Table.wrote_modify hold row, rfl, rfl⟩
    · cases h
  · cases h

theorem upsertValue_eq_ok {k : Uuid × Uuid} {value : Json} (h : w.upsertValue k value = .ok w') :
    w.values.Wrote w'.values k value ∧ w'.defs = w.defs ∧ w'.board = w.board := by
  unfold World.upsertValue at h
  split at h
  · split at h
    · next hfresh =>
        cases h
        exact ⟨w.values.wrote_insert hfresh, rfl, rfl⟩
    · next hused =>
        obtain ⟨old, hold⟩ := Option.ne_none_iff_exists'.mp hused
        cases h
        exact ⟨Table.wrote_modify hold value, rfl, rfl⟩
  · cases h

theorem returns_findDef {workspaceId fieldId : Uuid} {field : Loaded CardFieldDefRow} :
    Returns (CardFieldService.findDef workspaceId fieldId) w field w' ↔
      w.defs.get? fieldId = some field.row ∧ field.id = fieldId ∧
        field.row.workspaceId = workspaceId ∧ w = w' := by
  rw [CardFieldService.findDef, returns_demand, CardFieldRepository.findDefById,
    Option.filter_eq_some_iff, Option.map_eq_some_iff, beq_iff_eq]
  constructor
  · rintro ⟨⟨⟨row, hrow, rfl⟩, hworkspace⟩, rfl⟩
    exact ⟨hrow, rfl, hworkspace, rfl⟩
  · rintro ⟨hrow, rfl, hworkspace, rfl⟩
    exact ⟨⟨⟨field.row, hrow, rfl⟩, hworkspace⟩, rfl⟩

theorem returns_orThrow {α : Type} {r : Except FieldError α} {a : α} :
    Returns (orThrow r) w a w' ↔ r = .ok a ∧ w = w' :=
  returns_commit_map

theorem reads_findDef (workspaceId fieldId : Uuid) :
    Reads (CardFieldService.findDef workspaceId fieldId) :=
  Reads.demand _ _

theorem reads_orThrow {α : Type} (r : Except FieldError α) : Reads (orThrow r) :=
  Reads.commit_map r

theorem reads_verifyBoardInWorkspace (boardId workspaceId : Uuid) :
    Reads (CardFieldService.verifyBoardInWorkspace boardId workspaceId) :=
  Reads.bind (Reads.demand _ _) fun _ => Reads.pure _

theorem clean_updateDef (workspaceId fieldId : Uuid) (dto : UpdateFieldDefDto) :
    Clean (CardFieldService.updateDef env workspaceId fieldId dto) :=
  Clean.after_reads (reads_findDef _ _) fun _ => Clean.commit _

/-- A call that throws has written nothing. -/
theorem clean_run (platform : Platform) (env : Env) (call : FieldCall) :
    Clean (call.run platform env) := by
  cases call with
  | createDef workspaceId dto =>
      exact Clean.before_total (Clean.commit _) fun _ => Total.pure _
  | updateDef workspaceId fieldId dto =>
      exact Clean.before_total (clean_updateDef _ _ _) fun _ => Total.pure _
  | deleteDef workspaceId fieldId =>
      exact Clean.after_reads (reads_findDef _ _) fun _ => Clean.commit _
  | setValue boardId workspaceId cardId fieldId value =>
      apply Clean.before_total _ fun _ => Total.pure _
      apply Clean.after_reads (reads_verifyBoardInWorkspace _ _)
      intro _
      apply Clean.after_reads (reads_findDef _ _)
      intro field
      apply Clean.after_reads (Reads.demand _ _)
      intro _
      apply Clean.after_reads (reads_orThrow _)
      intro _
      apply Clean.after_reads (Reads.check _ _)
      intro _
      exact Clean.commit _

/-- An update that goes through keeps the workspace and the type of the definition, and
the options where it names none. -/
theorem returns_updateDef {workspaceId fieldId : Uuid} {dto : UpdateFieldDefDto}
    {field : Loaded CardFieldDefRow}
    (h : Returns (CardFieldService.updateDef env workspaceId fieldId dto) w field w') :
    ∃ old, w.defs.get? fieldId = some old ∧ field.row.workspaceId = old.workspaceId ∧
      field.row.fieldType = old.fieldType ∧ field.row.options = dto.options.or old.options ∧
      w.defs.Wrote w'.defs fieldId field.row ∧ w'.values = w.values ∧ w'.board = w.board := by
  obtain ⟨found, _, hfind, hwrite⟩ := returns_bind.mp h
  obtain ⟨hold, -, -, rfl⟩ := returns_findDef.mp hfind
  rw [returns_commit, CardFieldRepository.updateDef] at hwrite
  split at hwrite
  · cases hwrite
  · rw [hold] at hwrite
    dsimp only at hwrite
    split at hwrite
    · next hupdated =>
        cases hwrite
        obtain ⟨hwrote, hvalues, hboard⟩ := updateDef_eq_ok hold hupdated
        exact ⟨found.row, hold, rfl, rfl, rfl, hwrote, hvalues, hboard⟩
    · cases hwrite

/-- A card is on a board of the workspace. -/
def OfWorkspace (board : Board.Database) (cardId workspaceId : Uuid) : Prop :=
  ∃ boardId, boardOf board cardId = some boardId ∧ workspaceOf board boardId = some workspaceId

/-- What a call may change. -/
inductive Effect (platform : Platform) (w : World) (a : Env × FieldCall) (w' : World) : Prop
  | same (h : w' = w)
  | created (id : Uuid) (row : CardFieldDefRow) (hfresh : w.defs.get? id = none)
      (hdefs : w.defs.Wrote w'.defs id row) (hvalues : w'.values = w.values)
      (hboard : w'.board = w.board)
  | updated (workspaceId fieldId : Uuid) (dto : UpdateFieldDefDto) (old : CardFieldDefRow)
      (field : Loaded CardFieldDefRow) (hcall : a.2 = .updateDef workspaceId fieldId dto)
      (hreturns : Returns (CardFieldService.updateDef a.1 workspaceId fieldId dto) w field w')
  | deleted (id : Uuid) (h : w' = w.deleteDef id)
  | stored (boardId workspaceId cardId fieldId : Uuid) (value : Json) (row : CardFieldDefRow)
      (hcall : a.2 = .setValue boardId workspaceId cardId fieldId (some value))
      (hdef : w.defs.get? fieldId = some row) (hpasses : row.Passes platform value)
      (hcard : OfWorkspace w.board cardId row.workspaceId)
      (hvalues : w.values.Wrote w'.values (fieldId, cardId) value) (hdefs : w'.defs = w.defs)
      (hboard : w'.board = w.board)

theorem effect_createDef {workspaceId : Uuid} {dto : CreateFieldDefDto}
    {field : Loaded CardFieldDefRow} {a : Env × FieldCall}
    (h : Returns (CardFieldService.createDef env workspaceId dto) w field w') :
    Effect platform w a w' := by
  rw [CardFieldService.createDef, returns_commit, CardFieldRepository.createDef] at h
  split at h
  · cases h
  · split at h
    · next hinserted =>
        cases h
        obtain ⟨hfresh, hdefs, hvalues, hboard⟩ := insertDef_eq_ok hinserted
        exact .created _ _ hfresh hdefs hvalues hboard
    · cases h
    · cases h

theorem effect_deleteDef {workspaceId fieldId : Uuid} {u : Unit} {a : Env × FieldCall}
    (h : Returns (CardFieldService.deleteDef workspaceId fieldId) w u w') :
    Effect platform w a w' := by
  obtain ⟨found, _, hfind, hwrite⟩ := returns_bind.mp h
  obtain ⟨-, -, -, rfl⟩ := returns_findDef.mp hfind
  rw [returns_commit, CardFieldRepository.deleteDef] at hwrite
  split at hwrite
  · cases hwrite
    exact .deleted fieldId rfl
  · cases hwrite

theorem effect_setValue {boardId workspaceId cardId fieldId : Uuid} {value : Option Json}
    {written : CardFieldValue}
    (h : Returns (CardFieldService.setValue platform env boardId workspaceId cardId fieldId value)
      w written w') :
    Effect platform w (env, .setValue boardId workspaceId cardId fieldId value) w' := by
  obtain ⟨_, _, hverify, h⟩ := returns_bind.mp h
  obtain ⟨board, _, hfind, -, rfl⟩ := returns_bind.mp hverify
  obtain ⟨hboard, rfl⟩ := returns_demand.mp hfind
  obtain ⟨field, _, hfind, h⟩ := returns_bind.mp h
  obtain ⟨hdef, -, hworkspace, rfl⟩ := returns_findDef.mp hfind
  obtain ⟨card, _, hfind, h⟩ := returns_bind.mp h
  obtain ⟨hcard, rfl⟩ := returns_demand.mp hfind
  obtain ⟨_, _, hcheck, h⟩ := returns_bind.mp h
  obtain ⟨hvalid, rfl⟩ := returns_orThrow.mp hcheck
  obtain ⟨_, _, hcheck, h⟩ := returns_bind.mp h
  obtain ⟨-, rfl⟩ := returns_check.mp hcheck
  cases value with
  | none => cases returns_commit.mp h
  | some value =>
      rw [returns_commit, CardFieldRepository.setValue] at h
      split at h
      · cases h
      · split at h
        · next hupserted =>
            cases h
            obtain ⟨hvalues, hdefs, hkept⟩ := upsertValue_eq_ok hupserted
            obtain ⟨-, -, hon⟩ := Board.CardRepository.findActiveById_eq_some hcard
            have hof := (Board.BoardRepository.findById_eq_some hboard).1
            rw [← hworkspace] at hof
            exact .stored boardId workspaceId cardId fieldId value field.row rfl hdef hvalid
              ⟨boardId, hon, hof⟩ hvalues hdefs hkept
        · cases h

theorem effect_of_step {a : Env × FieldCall} (h : fieldStep platform w a = some w') :
    Effect platform w a w' := by
  obtain ⟨env, call⟩ := a
  have hleft : (exec (call.run platform env) w).2 = w' := Option.some.inj h
  rcases hexec : exec (call.run platform env) w with ⟨e | u, t⟩
  · rw [hexec] at hleft
    obtain rfl : t = w' := hleft
    exact .same (clean_run platform env call w e t hexec)
  · rw [hexec] at hleft
    obtain rfl : t = w' := hleft
    cases call with
    | createDef workspaceId dto =>
        obtain ⟨field, _, hcreate, hend⟩ := returns_bind.mp hexec
        obtain ⟨-, rfl⟩ := returns_pure.mp hend
        exact effect_createDef hcreate
    | updateDef workspaceId fieldId dto =>
        obtain ⟨field, _, hupdate, hend⟩ := returns_bind.mp hexec
        obtain ⟨-, rfl⟩ := returns_pure.mp hend
        obtain ⟨old, -⟩ := returns_updateDef hupdate
        exact .updated workspaceId fieldId dto old field rfl hupdate
    | deleteDef workspaceId fieldId =>
        exact effect_deleteDef hexec
    | setValue boardId workspaceId cardId fieldId value =>
        obtain ⟨written, _, hset, hend⟩ := returns_bind.mp hexec
        obtain ⟨-, rfl⟩ := returns_pure.mp hend
        exact effect_setValue hset

/-- The definition is as it was, but for options that an update has replaced. -/
inductive Retained (w : World) (a : Env × FieldCall) (w' : World) (fieldId : Uuid)
    (old row : CardFieldDefRow) : Prop
  | same (hoptions : row.options = old.options)
  | replaced (workspaceId : Uuid) (dto : UpdateFieldDefDto) (field : Loaded CardFieldDefRow)
      (options : Json) (hcall : a.2 = .updateDef workspaceId fieldId dto)
      (hreturns : Returns (CardFieldService.updateDef a.1 workspaceId fieldId dto) w field w')
      (hrow : field.row = row) (hdto : dto.options = some options)
      (hoptions : row.options = some options)

/-- A definition stays with its values. -/
theorem Effect.retained {a : Env × FieldCall} (h : Effect platform w a w') {k : Uuid × Uuid}
    {value : Json} {old : CardFieldDefRow} (hvalue : w'.values.get? k = some value)
    (hold : w.defs.get? k.1 = some old) : w'.board = w.board ∧
      ∃ row, w'.defs.get? k.1 = some row ∧ row.workspaceId = old.workspaceId ∧
        row.fieldType = old.fieldType ∧ Retained w a w' k.1 old row := by
  cases h with
  | same h =>
      subst h
      exact ⟨rfl, old, hold, rfl, rfl, .same rfl⟩
  | created id row hfresh hdefs hvalues hboard =>
      have hother : k.1 ≠ id := by
        rintro rfl
        rw [hfresh] at hold
        cases hold
      exact ⟨hboard, old, (hdefs.other hother).trans hold, rfl, rfl, .same rfl⟩
  | updated workspaceId fieldId dto before field hcall hreturns =>
      obtain ⟨found, hfound, hworkspace, htype, hoptions, hdefs, -, hboard⟩ :=
        returns_updateDef hreturns
      by_cases hk : k.1 = fieldId
      · subst hk
        obtain rfl : found = old := Option.some.inj (hfound.symm.trans hold)
        refine ⟨hboard, field.row, hdefs.self, hworkspace, htype, ?_⟩
        cases hdto : dto.options with
        | none =>
            rw [hdto] at hoptions
            exact .same hoptions
        | some options =>
            rw [hdto] at hoptions
            exact .replaced workspaceId dto field options hcall hreturns rfl hdto hoptions
      · exact ⟨hboard, old, (hdefs.other hk).trans hold, rfl, rfl, .same rfl⟩
  | deleted id h =>
      subst h
      have hkept := (Table.get?_deleteWhere_eq_some.mp hvalue).2
      have hother : k.1 ≠ id := by simpa using hkept
      refine ⟨rfl, old, ?_, rfl, rfl, .same rfl⟩
      rw [World.deleteDef, Table.get?_delete, if_neg hother]
      exact hold
  | stored boardId workspaceId cardId fieldId value row hcall hdef hpasses hcard hvalues hdefs
      hboard =>
      rw [hdefs]
      exact ⟨hboard, old, hold, rfl, rfl, .same rfl⟩

/-- A stored value was there before, or the call has just written it. -/
theorem Effect.stored_or_old {a : Env × FieldCall} (h : Effect platform w a w') {k : Uuid × Uuid}
    {value : Json} (hvalue : w'.values.get? k = some value) :
    w.values.get? k = some value ∨ ∃ boardId workspaceId row,
      a.2 = .setValue boardId workspaceId k.2 k.1 (some value) ∧ w.defs.get? k.1 = some row ∧
        row.Passes platform value ∧ OfWorkspace w.board k.2 row.workspaceId ∧
          w.values.Wrote w'.values k value ∧ w'.defs = w.defs ∧ w'.board = w.board := by
  cases h with
  | same h =>
      subst h
      exact .inl hvalue
  | created id row hfresh hdefs hvalues hboard =>
      rw [hvalues] at hvalue
      exact .inl hvalue
  | updated workspaceId fieldId dto old field hcall hreturns =>
      obtain ⟨-, -, -, -, -, -, hvalues, -⟩ := returns_updateDef hreturns
      rw [hvalues] at hvalue
      exact .inl hvalue
  | deleted id h =>
      subst h
      exact .inl (Table.get?_deleteWhere_eq_some.mp hvalue).1
  | stored boardId workspaceId cardId fieldId written row hcall hdef hpasses hcard hvalues hdefs
      hboard =>
      rcases hvalues.eq_or_old hvalue with ⟨rfl, rfl⟩ | ⟨-, hold⟩
      · refine .inr ⟨boardId, workspaceId, row, hcall, hdef, hpasses, hcard, ?_⟩
        exact ⟨hvalues, hdefs, hboard⟩
      · exact .inl hold

/-- Every stored value passes the validation against its definition, which is of the
workspace of the card. -/
def World.ValuesValid (platform : Platform) (w : World) : Prop :=
  w.values.All fun k value => ∃ row, w.defs.get? k.1 = some row ∧ row.Passes platform value ∧
    OfWorkspace w.board k.2 row.workspaceId

/-- The call that stored the value, and the definition that it passed against then. -/
def PassedWhenWritten (platform : Platform) (start : World) (as : List (Env × FieldCall))
    (k : Uuid × Uuid) (value : Json) (row : CardFieldDefRow) : Prop :=
  ∃ bs u v env boardId workspaceId old,
    bs ++ [(env, .setValue boardId workspaceId k.2 k.1 (some value))] <+: as ∧
      Run (fieldStep platform) start bs u ∧
      fieldStep platform u (env, .setValue boardId workspaceId k.2 k.1 (some value)) = some v ∧
      u.values.Wrote v.values k value ∧ u.defs.get? k.1 = some old ∧
        old.fieldType = row.fieldType ∧ old.workspaceId = row.workspaceId ∧
          old.Passes platform value

/-- Every stored value has passed the validation, and the definition is still of the type
and the workspace that it was of then. -/
def World.ValuesPassed (platform : Platform) (w start : World) (as : List (Env × FieldCall)) :
    Prop :=
  w.values.All fun k value => ∃ row, w.defs.get? k.1 = some row ∧
    OfWorkspace w.board k.2 row.workspaceId ∧
      (row.fieldType ≠ .select → row.Passes platform value) ∧
        PassedWhenWritten platform start as k value row

/-- An update that goes through and replaces the options of a select field still offers
every value that is stored for the field. -/
def OffersStored (w : World) (a : Env × FieldCall) : Prop :=
  ∀ workspaceId fieldId dto field t options, a.2 = .updateDef workspaceId fieldId dto →
    Returns (CardFieldService.updateDef a.1 workspaceId fieldId dto) w field t →
      field.row.fieldType = .select → dto.options = some options →
        ∀ cardId value, w.values.get? (fieldId, cardId) = some value →
          value = .null ∨ ∃ s ∈ allowedOptions (some options), value = .string s

theorem PassedWhenWritten.later {start : World} {as : List (Env × FieldCall)} {k : Uuid × Uuid}
    {value : Json} {old row : CardFieldDefRow} (h : PassedWhenWritten platform start as k value old)
    (htype : row.fieldType = old.fieldType) (hworkspace : row.workspaceId = old.workspaceId)
    (a : Env × FieldCall) : PassedWhenWritten platform start (as ++ [a]) k value row := by
  obtain ⟨bs, u, v, env, boardId, workspaceId, first, hcall, run, hstep, hwrote, hfirst, htype',
    hworkspace', hpasses⟩ := h
  exact ⟨bs, u, v, env, boardId, workspaceId, first, hcall.trans (List.prefix_append as [a]), run,
    hstep, hwrote, hfirst, htype'.trans htype.symm, hworkspace'.trans hworkspace.symm, hpasses⟩

theorem valuesPassed_of_run {start : World} (hstart : start.values = Table.empty)
    {as : List (Env × FieldCall)} (run : Run (fieldStep platform) start as w) :
    w.ValuesPassed platform start as := by
  induction run with
  | nil =>
      intro k value hvalue
      rw [hstart] at hvalue
      cases hvalue
  | @snoc t u as a run hstep ih =>
      have heffect := effect_of_step hstep
      intro k value hvalue
      rcases heffect.stored_or_old hvalue with hold |
          ⟨boardId, workspaceId, row, hcall, hdef, hpasses, hcard, hwrote, hdefs, hboard⟩
      · obtain ⟨old, hdef, hcard, hpasses, hwritten⟩ := ih k value hold
        obtain ⟨hboard, row, hrow, hworkspace, htype, -⟩ := heffect.retained hvalue hdef
        refine ⟨row, hrow, ?_, fun hselect => ?_, hwritten.later htype hworkspace a⟩
        · rw [hboard, hworkspace]
          exact hcard
        · rw [htype] at hselect
          exact (hpasses hselect).retyped htype fun h => absurd h hselect
      · have hwrite : a = (a.1, .setValue boardId workspaceId k.2 k.1 (some value)) :=
          Prod.ext rfl hcall
        rw [hdefs, hboard]
        refine ⟨row, hdef, hcard, fun _ => hpasses, as, t, u, a.1, boardId, workspaceId, row, ?_,
          run, ?_, hwrote, hdef, rfl, rfl, hpasses⟩
        · rw [← hwrite]
        · rw [← hwrite]
          exact hstep

theorem passes_select_iff {row : CardFieldDefRow} {value : Json} (h : row.fieldType = .select) :
    row.Passes platform value ↔
      value = .null ∨ ∃ s ∈ allowedOptions row.options, value = .string s := by
  rw [CardFieldDefRow.Passes, h, validateFieldValue_eq_ok, fitsType_select]

/-- An update of a definition leaves the state that its call leaves. -/
theorem left_of_updateDef {a : Env × FieldCall} {workspaceId fieldId : Uuid}
    {dto : UpdateFieldDefDto} {field : Loaded CardFieldDefRow} {t : World}
    (h : fieldStep platform w a = some w') (hcall : a.2 = .updateDef workspaceId fieldId dto)
    (hreturns : Returns (CardFieldService.updateDef a.1 workspaceId fieldId dto) w field t) :
    t = w' := by
  have hrun : Returns (a.2.run platform a.1) w () t := by
    rw [hcall]
    exact returns_bind.mpr ⟨field, t, hreturns, returns_pure.mpr ⟨rfl, rfl⟩⟩
  have hleft : (exec (a.2.run platform a.1) w).2 = w' := Option.some.inj h
  rw [← hleft, hrun]

/-- Where all stored values pass after a step, it has offered those that were stored. -/
theorem offersStored_of_valid {a : Env × FieldCall} (h : fieldStep platform w a = some w')
    (hafter : w'.ValuesValid platform) : OffersStored w a := by
  intro workspaceId fieldId dto field t options hcall hreturns hselect hdto cardId value hstored
  obtain rfl : t = w' := left_of_updateDef h hcall hreturns
  obtain ⟨old, -, -, -, hoptions, hdefs, hvalues, -⟩ := returns_updateDef hreturns
  rw [← hvalues] at hstored
  obtain ⟨row, hrow, hpasses, -⟩ := hafter (fieldId, cardId) value hstored
  obtain rfl : field.row = row := Option.some.inj (hdefs.self.symm.trans hrow)
  rw [passes_select_iff hselect, hoptions, hdto] at hpasses
  exact hpasses

/-- A step that offers what is stored keeps the stored values valid. -/
theorem valid_of_offersStored {a : Env × FieldCall} (hvalid : w.ValuesValid platform)
    (h : fieldStep platform w a = some w') (hoffers : OffersStored w a) :
    w'.ValuesValid platform := by
  have heffect := effect_of_step h
  intro k value hstored
  rcases heffect.stored_or_old hstored with hold |
      ⟨boardId, workspaceId, row, hcall, hdef, hpasses, hcard, -, hdefs, hboard⟩
  · obtain ⟨old, hdef, hpasses, hcard⟩ := hvalid k value hold
    obtain ⟨hboard, row, hrow, hworkspace, htype, hretained⟩ := heffect.retained hstored hdef
    refine ⟨row, hrow, ?_, ?_⟩
    · cases hretained with
      | same hoptions => exact hpasses.retyped htype fun _ => hoptions
      | replaced workspaceId dto field options hcall hreturns hfield hdto hoptions =>
          subst hfield
          by_cases hselect : field.row.fieldType = .select
          · have hoffered := hoffers workspaceId k.1 dto field w' options hcall hreturns hselect
              hdto k.2 value hold
            rw [passes_select_iff hselect, hoptions]
            exact hoffered
          · rw [htype] at hselect
            exact hpasses.retyped htype fun h => absurd h hselect
    · rw [hboard, hworkspace]
      exact hcard
  · rw [hdefs, hboard]
    exact ⟨row, hdef, hpasses, hcard⟩

/-- A step keeps the stored values valid exactly where it offers them. -/
theorem valuesValid_step_iff {a : Env × FieldCall} (hvalid : w.ValuesValid platform)
    (h : fieldStep platform w a = some w') : w'.ValuesValid platform ↔ OffersStored w a :=
  ⟨offersStored_of_valid h, valid_of_offersStored hvalid h⟩

/-- In every run every stored value belongs to a card and a definition of one workspace and
passed the validation when it was written, and passes it still where its field is no select
field. All stored values pass it in every state exactly where every update that replaces
options offers what is stored. -/
theorem storedValues_valid (platform : Platform) (board : Board.Database)
    {as : List (Env × FieldCall)}
    (run : Run (fieldStep platform) (.initial board) as w) :
    w.ValuesPassed platform (.initial board) as ∧
      (AllStates (fieldStep platform) (World.ValuesValid platform) (.initial board) as ↔
        AllSteps (fieldStep platform) OffersStored (.initial board) as) := by
  have hstart : (World.initial board).ValuesValid platform := by
    intro k value hvalue
    cases hvalue
  constructor
  · exact valuesPassed_of_run rfl run
  · apply allStates_iff_allSteps (I := fun _ => True) (fun _ _ _ _ _ => trivial) _ run trivial
      hstart
    intro t a u _ hvalid hstep
    exact valuesValid_step_iff hvalid hstep

/-- Workspace 1 with board 20, on which card 40 is. -/
def oneCard : Board.Database where
  workspaces := .single 1 ()
  users := .single 7 ()
  boards := .single 20 { workspaceId := 1, title := js "Plans", createdBy := 7, updatedAt := 0 }
  lists := .single 30 { boardId := 20, title := js "Open", rank := js "0|hzzzzz:", updatedAt := 0 }
  cards := .single 40
    { listId := 30, title := js "Ship", rank := js "0|hzzzzz:", createdBy := 7, updatedAt := 0 }
  wellFormed :=
    { members := Table.All.of_rows (by decide)
      boards := Table.All.of_rows (by decide)
      starredBoards := Table.All.of_rows (by decide)
      lists := Table.All.of_rows (by decide)
      cards := Table.All.of_rows (by decide)
      cardAssignees := Table.All.of_rows (by decide)
      cardLabels := Table.All.of_rows (by decide)
      labels := Table.All.of_rows (by decide)
      checklists := Table.All.of_rows (by decide)
      checklistItems := Table.All.of_rows (by decide) }

/-- A platform that parses no date and maps every text to one identifier; no field here
is of either type. -/
def noDates : Platform where
  dateParses _ := false
  uuidOf _ := 0

/-- A select field gets an option, which is stored for the card. -/
def optionStored : List (Env × FieldCall) :=
  [(⟨50, false⟩, .createDef 1
      { name := js "Priority"
        fieldType := .select
        options := some (.array [.string (js "Low")]) }),
    (⟨51, false⟩, .setValue 20 1 40 50 (some (.string (js "Low"))))]

/-- Then another option is added. -/
def optionAdded : List (Env × FieldCall) :=
  optionStored ++
    [(⟨52, false⟩, .updateDef 1 50
      { options := some (.array [.string (js "Low"), .string (js "High")]) })]

theorem storedValues_valid_optionAdded : ∃ w,
    Run (fieldStep noDates) (.initial oneCard) optionAdded w ∧
      w.ValuesPassed noDates (.initial oneCard) optionAdded ∧
        AllStates (fieldStep noDates) (World.ValuesValid noDates) (.initial oneCard)
          optionAdded := by
  obtain ⟨w, hw⟩ : ∃ w, exec (fieldStep noDates) (.initial oneCard) optionAdded = some w :=
    ⟨_, rfl⟩
  have run := run_of_exec hw
  obtain ⟨hpassed, hvalid⟩ := storedValues_valid noDates oneCard run
  refine ⟨w, run, hpassed, hvalid.mpr ?_⟩
  refine allSteps_cons.mpr ⟨by rintro _ _ _ _ _ _ ⟨⟩, fun t ht => ?_⟩
  obtain rfl := Option.some.inj ht
  refine allSteps_cons.mpr ⟨by rintro _ _ _ _ _ _ ⟨⟩, fun t ht => ?_⟩
  obtain rfl := Option.some.inj ht
  refine allSteps_cons.mpr ⟨?_, fun _ _ => allSteps_nil⟩
  rintro _ _ _ field t options ⟨⟩ - - ⟨⟩ cardId value hvalue
  have hmem := (Table.mem_rows_iff _ _ _).mpr hvalue
  obtain ⟨-, rfl⟩ := Prod.mk.inj (List.mem_singleton.mp hmem)
  exact .inr ⟨js "Low", by decide, rfl⟩

/-- Instead another option replaces it. -/
def optionReplaced : List (Env × FieldCall) :=
  optionStored ++
    [(⟨52, false⟩, .updateDef 1 50 { options := some (.array [.string (js "High")]) })]

/-- The value that is still stored is not an option any more. -/
theorem optionReplaced_invalid : ¬ ∀ (platform : Platform) (board : Board.Database)
    (as : List (Env × FieldCall)) (w : World),
    Run (fieldStep platform) (.initial board) as w → w.ValuesValid platform := by
  intro hall
  obtain ⟨w, hw⟩ : ∃ w, exec (fieldStep noDates) (.initial oneCard) optionReplaced = some w :=
    ⟨_, rfl⟩
  have hvalid := hall noDates oneCard optionReplaced w (run_of_exec hw)
  have hstored : w.values.get? (50, 40) = some (.string (js "Low")) := by
    cases hw
    rfl
  obtain ⟨row, hrow, hpasses, -⟩ := hvalid (50, 40) _ hstored
  have hdef : w.defs.get? 50 = some
      { workspaceId := 1
        name := js "Priority"
        fieldType := .select
        options := some (.array [.string (js "High")]) } := by
    cases hw
    rfl
  obtain rfl := Option.some.inj (hrow.symm.trans hdef)
  rw [CardFieldDefRow.Passes, validateFieldValue_eq_ok] at hpasses
  rcases hpasses with hnull | hfits
  · cases hnull
  · exact absurd hfits (by decide)

end SyncBoard.CardField
