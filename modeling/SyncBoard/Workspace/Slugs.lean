import SyncBoard.Workspace.Updates

/-!
# Slugs

`create` and `update` derive the slug of a workspace from its name: the slug
characters of the name, and behind them a hyphen and three random bytes in
hexadecimal for as long as the slug is taken. The column takes 100 characters, and
seven of them go to a suffix; nothing shortens the name for it. So a name of 94 to
100 slug characters gets a slug only while nobody has the same one.

## Implementation notes

The call runs alone here: the existing slugs are those of the table when it starts.
-/

namespace SyncBoard.Workspace

open Relational Interleaved Interleaved.Program

/-- `[a-z0-9-]`. -/
def isSlugLetter (c : Nat) : Bool :=
  (97 ≤ c && c ≤ 122) || (48 ≤ c && c ≤ 57) || c == 45

/-- A digit of `toString('hex')`. -/
def isLowerHexDigit (c : Nat) : Bool :=
  (48 ≤ c && c ≤ 57) || (97 ≤ c && c ≤ 102)

/-- `randomBytes(3).toString('hex')`. -/
structure IsSuffix (s : JsString) : Prop where
  length : s.length = 6
  digits : ∀ c ∈ s, isLowerHexDigit c = true

instance (s : JsString) : Decidable (IsSuffix s) :=
  decidable_of_iff (s.length = 6 ∧ ∀ c ∈ s, isLowerHexDigit c = true)
    ⟨fun h => ⟨h.1, h.2⟩, fun h => ⟨h.length, h.digits⟩⟩

theorem isSlugLetter_of_isLowerHexDigit {c : Nat} (h : isLowerHexDigit c = true) :
    isSlugLetter c = true := by
  simp only [isLowerHexDigit, isSlugLetter, Bool.or_eq_true, Bool.and_eq_true, decide_eq_true_eq,
    beq_iff_eq] at h ⊢
  omega

theorem isSlugLetter_of_isSlugChar {c : Nat} (h : isSlugChar c = true) (hspace : isSpace c = false) :
    isSlugLetter c = true := by
  simpa [isSlugChar, isSlugLetter, hspace] using h

/-- What `hyphenate` leaves are hyphens and characters that are no white space. -/
theorem mem_hyphenate {s : JsString} {c : Nat} (h : c ∈ hyphenate s) :
    c = 45 ∨ c ∈ s ∧ isSpace c = false := by
  fun_induction hyphenate s with
  | case1 => cases h
  | case2 => exact .inl (List.mem_singleton.mp h)
  | case3 d hd e rest he ih =>
      exact (ih h).imp_right fun hc => ⟨List.mem_cons_of_mem _ hc.1, hc.2⟩
  | case4 d hd e rest he ih =>
      rcases List.mem_cons.mp h with rfl | h
      · exact .inl rfl
      · exact (ih h).imp_right fun hc => ⟨List.mem_cons_of_mem _ hc.1, hc.2⟩
  | case5 d rest hd ih =>
      rcases List.mem_cons.mp h with rfl | h
      · exact .inr ⟨List.mem_cons_self, by simpa using hd⟩
      · exact (ih h).imp_right fun hc => ⟨List.mem_cons_of_mem _ hc.1, hc.2⟩

theorem length_hyphenate_le (s : JsString) : (hyphenate s).length ≤ s.length := by
  fun_induction hyphenate s with
  | case1 => exact le_rfl
  | case2 => exact le_rfl
  | case3 d hd e rest he ih => exact ih.trans (Nat.le_succ _)
  | case4 d hd e rest he ih => exact Nat.succ_le_succ ih
  | case5 d rest hd ih => exact Nat.succ_le_succ ih

theorem trim_sublist (s : JsString) : (trim s).Sublist s := by
  have hback : ((s.dropWhile isSpace).reverse.dropWhile isSpace).Sublist
      (s.dropWhile isSpace).reverse := List.dropWhile_sublist isSpace
  rw [List.sublist_reverse_iff] at hback
  exact hback.trans (List.dropWhile_sublist isSpace)

namespace WorkspaceService
variable {platform : Platform} {name : JsString}

theorem baseSlug_cases (platform : Platform) (name : JsString) :
    baseSlug platform name = js "workspace" ∨ baseSlug platform name =
      hyphenate ((trim (platform.toLowerCase name)).filter isSlugChar) := by
  simp only [baseSlug]
  split
  · exact .inl rfl
  · exact .inr rfl

theorem baseSlug_letters : ∀ c ∈ baseSlug platform name, isSlugLetter c = true := by
  rcases baseSlug_cases platform name with h | h <;> rw [h]
  · decide
  · intro c hc
    rcases mem_hyphenate hc with rfl | ⟨hc, hspace⟩
    · rfl
    · exact isSlugLetter_of_isSlugChar (List.mem_filter.mp hc).2 hspace

/-- A base slug is no longer than the slug characters of the name in lower case, or it
is the one for names without any. -/
theorem length_baseSlug_le : (baseSlug platform name).length ≤
    max 9 ((platform.toLowerCase name).filter isSlugChar).length := by
  rcases baseSlug_cases platform name with h | h <;> rw [h]
  · exact Nat.le_max_left _ _
  · calc
      (hyphenate ((trim (platform.toLowerCase name)).filter isSlugChar)).length ≤
          ((trim (platform.toLowerCase name)).filter isSlugChar).length := length_hyphenate_le _
      _ ≤ ((platform.toLowerCase name).filter isSlugChar).length :=
          ((trim_sublist _).filter isSlugChar).length_le
      _ ≤ max 9 ((platform.toLowerCase name).filter isSlugChar).length := Nat.le_max_right _ _

end WorkspaceService

/-- A hyphen and six digits. -/
def suffixWidth : Nat := 7

structure IsStorable (db : Database) (slug : JsString) : Prop where
  free : WorkspaceRepository.existsBySlug db slug = false
  letters : ∀ c ∈ slug, isSlugLetter c = true
  width : slug.length ≤ slugWidth

/-- The base slug of a name leaves room for a suffix, or needs none. -/
def SlugFits (platform : Platform) (db : Database) (name : JsString) : Prop :=
  (WorkspaceService.baseSlug platform name).length + suffixWidth ≤ slugWidth ∨
    (WorkspaceService.baseSlug platform name).length ≤ slugWidth ∧
      WorkspaceRepository.existsBySlug db (WorkspaceService.baseSlug platform name) = false

/-- What the search for a free slug may come to: the base slug, or that with a suffix
where it is taken. -/
def IsCandidate (db : Database) (base slug : JsString) : Prop :=
  slug = base ∨ WorkspaceRepository.existsBySlug db base = true ∧
    ∃ suffix, IsSuffix suffix ∧ slug = base ++ js "-" ++ suffix

section Candidates
variable {platform : Platform} {db : Database} {name base slug : JsString}

theorem length_append_suffix {suffix : JsString} (h : IsSuffix suffix) :
    (base ++ js "-" ++ suffix).length = base.length + suffixWidth := by
  have hhyphen : (js "-").length = 1 := rfl
  rw [List.length_append, List.length_append, h.length, hhyphen, suffixWidth]

/-- No row has a slug that is too wide. -/
theorem existsBySlug_of_wide (h : slugWidth < slug.length) :
    WorkspaceRepository.existsBySlug db slug = false := by
  cases hfind : db.workspaces.find? fun _ workspace => workspace.slug == slug with
  | none => rw [WorkspaceRepository.existsBySlug, hfind, Option.isSome_none]
  | some found =>
      obtain ⟨id, workspace⟩ := found
      obtain ⟨hget, hslug⟩ := Table.find?_eq_some hfind
      have hwidth := (db.wellFormed.workspaces id workspace hget).2
      rw [beq_iff_eq.mp hslug] at hwidth
      exact absurd hwidth (Nat.not_le.mpr h)

/-- For an accepted name, whose slug characters are at most 100, only a base slug that is
taken has no room. -/
theorem slugFits_iff (h : ((platform.toLowerCase name).filter isSlugChar).length ≤ slugWidth) :
    SlugFits platform db name ↔
      (WorkspaceService.baseSlug platform name).length + suffixWidth ≤ slugWidth ∨
        WorkspaceRepository.existsBySlug db (WorkspaceService.baseSlug platform name) = false := by
  have hbase : (WorkspaceService.baseSlug platform name).length ≤ slugWidth :=
    WorkspaceService.length_baseSlug_le.trans (max_le (by decide) h)
  rw [SlugFits, and_iff_right hbase]

/-- A candidate that is free can be stored, where the base slug fits. -/
theorem IsCandidate.storable (hfits : SlugFits platform db name)
    (h : IsCandidate db (WorkspaceService.baseSlug platform name) slug)
    (hfree : WorkspaceRepository.existsBySlug db slug = false) : IsStorable db slug := by
  rcases h with rfl | ⟨htaken, suffix, hsuffix, rfl⟩
  · refine ⟨hfree, WorkspaceService.baseSlug_letters, ?_⟩
    rcases hfits with hroom | ⟨hwidth, -⟩
    · exact (Nat.le_add_right _ _).trans hroom
    · exact hwidth
  · refine ⟨hfree, ?_, ?_⟩
    · intro c hc
      rw [List.append_assoc, List.mem_append, List.mem_append] at hc
      rcases hc with hc | hc | hc
      · exact WorkspaceService.baseSlug_letters c hc
      · rw [List.mem_singleton.mp hc]
        rfl
      · exact isSlugLetter_of_isLowerHexDigit (hsuffix.digits c hc)
    · rw [length_append_suffix hsuffix]
      rcases hfits with hroom | ⟨-, hbase⟩
      · exact hroom
      · rw [htaken] at hbase
        cases hbase

end Candidates

/-- The slug that a statement writes. -/
def WorkspaceStatement.slug? : WorkspaceStatement → Option JsString
  | .shared (.createWorkspaceWithOwner data) => some data.slug
  | .update _ data => data.slug
  | _ => none

/-- Most statements write no slug. -/
theorem WorkspaceStatement.storable_of_none {op : WorkspaceStatement} {db : Database}
    (h : op.slug? = none) (slug : JsString) (hslug : op.slug? = some slug) : IsStorable db slug := by
  rw [h] at hslug
  cases hslug

/-- What is given from outside to a call that draws suffixes. -/
abbrev Drawn := {x : Outside // IsSuffix x.bytes}

/-- Every slug that a program writes, which runs alone, can be stored. -/
abbrev Stores {α : Type} (p : WorkspaceProgram α) (log : Log WorkspaceAnswer) (w : World)
    (post : α → World → Prop) : Prop :=
  p.Safe (fun x : Drawn => workspaceAnswer x.1) Eq (fun _ => True)
    (fun t _ op => ∀ slug, op.slug? = some slug → IsStorable t.db slug) log w fun a _ => post a

/-- The calls that derive a slug from a name. -/
inductive SlugCall
  | create (dto : CreateWorkspaceDto) (userId : Uuid)
  | update (workspaceId : Uuid) (dto : UpdateWorkspaceDto)

namespace SlugCall

/-- The call, which tries so many slugs at most before each write. -/
def program (platform : Platform) (tries : Nat) : SlugCall → WorkspaceProgram WorkspaceRecord
  | create dto userId => shared (WorkspaceService.create platform tries dto userId)
  | update workspaceId dto => WorkspaceService.update platform tries workspaceId dto

/-- The name from which the call derives a slug, if any. -/
def name? (db : Database) : SlugCall → Option JsString
  | create dto _ => some dto.name
  | update workspaceId dto =>
      (WorkspaceRepository.findById db workspaceId).bind dto.newName

/-- Whatever the suffixes are, and however many it tries, the call writes only slugs that
can be stored. -/
def WritesStorable (platform : Platform) (call : SlugCall) (w : World) : Prop :=
  ∀ tries, Stores (call.program platform tries) [] w fun _ _ => True

end SlugCall

section Calls
variable {platform : Platform} {w : World} {log : Log WorkspaceAnswer} {tries : Nat}

/-- A program of statements that the other calls share. -/
theorem stores_shared {α : Type} {p : Service α} (log' : Log Answer) {post : α → World → Prop} :
    Stores (shared p) log w post ↔
      p.Safe (fun x : Drawn => answer x.1) Eq (fun _ => True)
        (fun t _ op => ∀ slug, (WorkspaceStatement.shared op).slug? = some slug →
          IsStorable t.db slug) log' w fun a _ => post a :=
  safe_via (fun _ _ _ => ⟨rfl, rfl⟩)

/-- The search ends at a candidate that is free. -/
theorem stores_findFreeSlug {base slug : JsString} (h : IsCandidate w.db base slug) :
    Stores (shared (WorkspaceService.findFreeSlug base tries slug)) log w fun slug w' =>
      w' = w ∧ IsCandidate w.db base slug ∧
        WorkspaceRepository.existsBySlug w.db slug = false := by
  rw [stores_shared []]
  generalize ([] : Log Answer) = log'
  induction tries generalizing slug log' with
  | zero => exact (safe_fail _).mpr trivial
  | succ tries ih =>
      apply safe_ask_bind.mpr
      rintro _ rfl -
      refine ⟨WorkspaceStatement.storable_of_none rfl, fun x => ?_⟩
      change (if WorkspaceRepository.existsBySlug w.db slug then _ else _ : Service _).Safe _ _ _ _ _
        w _
      split
      · next htaken =>
          apply safe_ask_bind.mpr
          rintro _ rfl -
          refine ⟨WorkspaceStatement.storable_of_none rfl, fun y => ?_⟩
          apply ih
          refine .inr ⟨?_, y.1.bytes, y.2, rfl⟩
          -- the base slug is taken already where this one has a suffix
          rcases h with rfl | ⟨hbase, -⟩
          · exact htaken
          · exact hbase
      · next hfree =>
          exact (safe_pure _).mpr ⟨rfl, h, by simpa using hfree⟩

/-- Where the base slug fits, the search ends at a slug that can be stored. -/
theorem stores_generateUniqueSlug {name : JsString} (hfits : SlugFits platform w.db name) :
    Stores (shared (WorkspaceService.generateUniqueSlug platform tries name)) log w
      fun slug w' => w' = w ∧ IsStorable w.db slug :=
  (stores_findFreeSlug (.inl rfl)).imp fun _ _ _ h => ⟨h.1, h.2.1.storable hfits h.2.2⟩

/-- What comes behind the search has a slug that can be stored. -/
theorem stores_slug_bind {α : Type} {name : JsString} {f : JsString → WorkspaceProgram α}
    {post : α → World → Prop} (hfits : SlugFits platform w.db name)
    (hf : ∀ slug log, IsStorable w.db slug → Stores (f slug) log w post) :
    Stores (shared (WorkspaceService.generateUniqueSlug platform tries name) >>= f) log w post := by
  apply safe_bind.mpr
  apply (stores_generateUniqueSlug hfits).imp
  rintro slug log _ ⟨rfl, hslug⟩
  exact hf slug log hslug

/-- A slug that is written is not too wide. -/
theorem width_of_stores {α : Type} {op : WorkspaceStatement}
    {next : WorkspaceAnswer op → WorkspaceProgram α} {post : α → World → Prop} {slug : JsString}
    (h : Stores (.await op next) log w post) (hslug : op.slug? = some slug) :
    slug.length ≤ slugWidth :=
  ((safe_await.mp h w rfl trivial).1 slug hslug).width

theorem shared_bind {α β : Type} (p : Service α) (f : α → Service β) :
    shared (p >>= f) = shared p >>= fun a => shared (f a) :=
  via_bind p f

/-- Every attempt of `create` writes a slug that can be stored; one that fails leaves the
table as it is. -/
theorem stores_createAttempts {dto : CreateWorkspaceDto} {userId : Uuid} {attempts : Nat}
    {slug : JsString} (hfits : SlugFits platform w.db dto.name) (hslug : IsStorable w.db slug) :
    Stores (shared (WorkspaceService.createAttempts platform tries dto userId attempts slug)) log w
      fun _ _ => True := by
  induction attempts generalizing slug log with
  | zero => exact (safe_fail _).mpr trivial
  | succ attempts ih =>
      apply safe_await.mpr
      rintro _ rfl -
      refine ⟨fun slug' h => Option.some.inj h ▸ hslug, fun x => ?_⟩
      simp only [workspaceAnswer, answer]
      cases WorkspaceRepository.createWorkspaceWithOwner w.db x.1.newId x.1.newMemberId
          { name := dto.name
            slug := slug
            description := dto.description
            avatarUrl := dto.avatarUrl
            ownerId := userId } x.1.now with
      | ok written =>
          apply safe_await.mpr
          intro t _ _
          exact ⟨WorkspaceStatement.storable_of_none rfl, fun _ => trivial⟩
      | error e =>
          cases e with
          | uniqueViolation =>
              change Stores (shared (WorkspaceService.generateUniqueSlug platform tries dto.name >>=
                fun slug => WorkspaceService.createAttempts platform tries dto userId attempts slug))
                _ w _
              rw [shared_bind]
              exact stores_slug_bind hfits fun slug log hslug => ih hslug
          | foreignKeyViolation | valueTooLong | recordNotFound => trivial

/-- The same for the attempts of `update`. -/
theorem stores_updateAttempts {workspaceId : Uuid} {dto : UpdateWorkspaceDto} {name : JsString}
    {attempts : Nat} {slug : JsString} (hfits : SlugFits platform w.db name)
    (hslug : IsStorable w.db slug) :
    Stores (WorkspaceService.updateAttempts platform tries workspaceId dto name attempts slug) log w
      fun _ _ => True := by
  induction attempts generalizing slug log with
  | zero => exact (safe_fail _).mpr trivial
  | succ attempts ih =>
      apply safe_ask_bind.mpr
      rintro _ rfl -
      refine ⟨fun slug' h => Option.some.inj h ▸ hslug, fun x => ?_⟩
      simp only [workspaceAnswer]
      cases WorkspaceRepository.update w.db workspaceId
          { toUpdateWorkspaceDto := dto, slug := some slug } with
      | ok written => trivial
      | error e =>
          cases e with
          | uniqueViolation => exact stores_slug_bind hfits fun slug log hslug => ih hslug
          | foreignKeyViolation | valueTooLong | recordNotFound => trivial

/-- Three zero bytes. -/
def drawnZeros : Drawn := ⟨{ newId := 0, now := 0, bytes := js "000000" }, by decide⟩

/-- Where the base slug does not fit, two tries may end at a slug that is too wide. -/
theorem exists_wide_slug (log : Log WorkspaceAnswer) {name : JsString}
    (h : ¬ SlugFits platform w.db name) :
    ∃ slug, slugWidth < slug.length ∧ ∀ {α : Type} {f : JsString → WorkspaceProgram α}
      {post : α → World → Prop},
        Stores (shared (WorkspaceService.generateUniqueSlug platform 2 name) >>= f) log w post →
          ∃ log', Stores (f slug) log' w post := by
  have hroom : slugWidth < (WorkspaceService.baseSlug platform name).length + suffixWidth :=
    Nat.lt_of_not_le fun hle => h (.inl hle)
  cases htaken : WorkspaceRepository.existsBySlug w.db
      (WorkspaceService.baseSlug platform name) with
  | false =>
      have hwide : slugWidth < (WorkspaceService.baseSlug platform name).length :=
        Nat.lt_of_not_le fun hle => h (.inr ⟨hle, htaken⟩)
      refine ⟨_, hwide, fun hstores => ?_⟩
      have hsearch := (safe_await.mp hstores w rfl trivial).2 drawnZeros
      simp only [workspaceAnswer, answer, htaken] at hsearch
      exact ⟨_, hsearch⟩
  | true =>
      have hwide : slugWidth <
          (WorkspaceService.baseSlug platform name ++ js "-" ++ drawnZeros.1.bytes).length := by
        rw [length_append_suffix drawnZeros.2]
        exact hroom
      refine ⟨_, hwide, fun hstores => ?_⟩
      have hsearch := (safe_await.mp hstores w rfl trivial).2 drawnZeros
      simp only [workspaceAnswer, answer, htaken] at hsearch
      have hdraw := (safe_await.mp hsearch w rfl trivial).2 drawnZeros
      have hsecond := (safe_await.mp hdraw w rfl trivial).2 drawnZeros
      simp only [workspaceAnswer, answer, existsBySlug_of_wide hwide] at hsecond
      exact ⟨_, hsecond⟩

theorem writesStorable_create_iff {dto : CreateWorkspaceDto} {userId : Uuid} :
    (SlugCall.create dto userId).WritesStorable platform w ↔ SlugFits platform w.db dto.name := by
  constructor
  · intro hstores
    by_contra hfits
    obtain ⟨slug, hwide, hreached⟩ := exists_wide_slug [] hfits
    have hcall := hstores 2
    simp only [SlugCall.program, WorkspaceService.create, shared_bind] at hcall
    obtain ⟨log, hwrite⟩ := hreached hcall
    exact absurd (width_of_stores hwrite rfl) (Nat.not_le.mpr hwide)
  · intro hfits tries
    simp only [SlugCall.program, WorkspaceService.create, shared_bind]
    exact stores_slug_bind hfits fun slug log hslug => stores_createAttempts hfits hslug

/-- A new slug is written where there is a new name only. -/
theorem stores_updateExisting {workspaceId : Uuid} {dto : UpdateWorkspaceDto}
    {existing : WorkspaceRecord}
    (hfits : ∀ name, dto.newName existing = some name → SlugFits platform w.db name) :
    Stores (WorkspaceService.updateExisting platform tries workspaceId dto existing) log w
      fun _ _ => True := by
  unfold WorkspaceService.updateExisting
  split
  · next name hnew =>
      exact stores_slug_bind (hfits name hnew) fun slug log hslug =>
        stores_updateAttempts (hfits name hnew) hslug
  · apply safe_ask_bind.mpr
    rintro _ rfl -
    refine ⟨WorkspaceStatement.storable_of_none rfl, fun x => ?_⟩
    exact safe_orThrow.mpr fun _ _ => trivial

theorem writesStorable_update_iff {workspaceId : Uuid} {dto : UpdateWorkspaceDto} :
    (SlugCall.update workspaceId dto).WritesStorable platform w ↔
      ∀ name, (SlugCall.update workspaceId dto).name? w.db = some name →
        SlugFits platform w.db name := by
  constructor
  · intro hstores name hname
    obtain ⟨existing, hfind, hnew⟩ := Option.bind_eq_some_iff.mp hname
    by_contra hfits
    have hread := (safe_await.mp (hstores 2) w rfl trivial).2 drawnZeros
    have hupdate := safe_demand_bind.mp hread existing hfind
    simp only [WorkspaceService.updateExisting, hnew] at hupdate
    obtain ⟨slug, hwide, hreached⟩ := exists_wide_slug _ hfits
    obtain ⟨log, hwrite⟩ := hreached hupdate
    exact absurd (width_of_stores hwrite rfl) (Nat.not_le.mpr hwide)
  · intro hfits tries
    apply safe_await.mpr
    rintro _ rfl -
    refine ⟨WorkspaceStatement.storable_of_none rfl, fun x => ?_⟩
    apply safe_demand_bind.mpr
    intro existing hfind
    apply stores_updateExisting
    intro name hnew
    exact hfits name (Option.bind_eq_some_iff.mpr ⟨existing, hfind, hnew⟩)

end Calls

/-- A call writes only slugs that can be stored exactly if the base slug of the name leaves
room for a suffix or is not taken. -/
theorem writesStorable_iff (platform : Platform) (call : SlugCall) (w : World) :
    call.WritesStorable platform w ↔
      ∀ name, call.name? w.db = some name → SlugFits platform w.db name := by
  cases call with
  | create dto userId =>
      rw [writesStorable_create_iff]
      constructor
      · rintro hfits name hname
        exact Option.some.inj hname ▸ hfits
      · intro hfits
        exact hfits dto.name rfl
  | update workspaceId dto => exact writesStorable_update_iff

/-- The platform on ASCII texts. -/
def asciiPlatform : Platform where
  toLowerCase s := s.map fun c => if 65 ≤ c ∧ c ≤ 90 then c + 32 else c
  hashToken s := s

/-- A name of 100 letters. -/
def longName : JsString := List.replicate 100 97

/-- The name is that of a workspace already. -/
def longNameTaken : World where
  db :=
    { users := .single 1 { email := js "a@b.io", displayName := js "A" }
      workspaces := .single 5 { name := longName, slug := longName, ownerId := 1 }
      wellFormed :=
        { emails := Table.Unique.of_rows (by decide)
          workspaces := Table.All.of_rows (by decide +kernel)
          slugs := Table.Unique.of_rows (by decide)
          members := Table.All.of_rows (by decide)
          memberKeys := Table.Unique.of_rows (by decide)
          invitations := Table.All.of_rows (by decide)
          tokens := Table.Unique.of_rows (by decide) } }

/-- A second workspace with the name would get a slug of 107 characters, which the table
refuses. -/
theorem longName_unstorable : charCount longName = 100 ∧
    ¬ (SlugCall.create { name := longName } 1).WritesStorable asciiPlatform longNameTaken ∧
    (((SlugCall.create { name := longName } 1).program asciiPlatform 2).exec
      (workspaceAnswer drawnZeros.1) longNameTaken).1 = .error (.database .valueTooLong) := by
  refine ⟨by decide +kernel, ?_, by decide +kernel⟩
  rw [writesStorable_create_iff]
  unfold SlugFits
  decide +kernel

end SyncBoard.Workspace
