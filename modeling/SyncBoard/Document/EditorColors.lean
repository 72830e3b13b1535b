import SyncBoard.CollaboratorColor
import SyncBoard.Document.Hub
import SyncBoard.Lib.Entries
import SyncBoard.Lib.Run

/-!
# The colours of the editors of a document

`EditorPresenceService` over the joins and leaves of one document, each handled at a time. Two
users can get the same colour only at a join for which no colour of the palette is left.

## Implementation notes

The editors of a document are the entries of their map by socket; a document without editors
has no map.
-/

namespace SyncBoard.Document

open Labelled

structure EditorInfo where
  userId : JsString
  displayName : JsString
  avatarUrl : Option JsString
  color : JsString
  deriving DecidableEq, Repr

abbrev DocumentEditors := List (SocketId × EditorInfo)

namespace EditorPresenceService

def addEditor (editors : DocumentEditors) (socketId : SocketId) (info : EditorInfo) :
    DocumentEditors :=
  Entries.set socketId info editors

/-- What is returned, and the editors that are left. -/
def removeEditor (editors : DocumentEditors) (socketId : SocketId) :
    Option EditorInfo × DocumentEditors :=
  (editors.lookup socketId, editors.filter fun entry => entry.1 != socketId)

def getEditors (editors : DocumentEditors) : List EditorInfo :=
  editors.map Prod.snd

def assignColor (editors : DocumentEditors) (userId : JsString) : JsString :=
  match (getEditors editors).find? fun info => info.userId == userId with
  | some info => info.color
  | none => assignCollaboratorColor userId ((getEditors editors).map EditorInfo.color)

end EditorPresenceService

open EditorPresenceService

/-- The user of a token. -/
structure EditorUser where
  sub : JsString
  displayName : JsString
  avatarUrl : Option JsString := none
  deriving DecidableEq, Repr

inductive EditorAction
  | join (socketId : SocketId) (user : EditorUser)
  | leave (socketId : SocketId)
  deriving DecidableEq, Repr

/-- A join assigns a colour and adds the editor. -/
def editorStep (editors : DocumentEditors) : EditorAction → Option DocumentEditors
  | .join socketId user =>
      some (addEditor editors socketId
        { userId := user.sub, displayName := user.displayName, avatarUrl := user.avatarUrl,
          color := assignColor editors user.sub })
  | .leave socketId => some (removeEditor editors socketId).2

/-- Different users have different colours. -/
def DistinctColors (editors : DocumentEditors) : Prop :=
  ∀ a ∈ getEditors editors, ∀ b ∈ getEditors editors, a.userId ≠ b.userId → a.color ≠ b.color

instance (editors : DocumentEditors) : Decidable (DistinctColors editors) :=
  inferInstanceAs (Decidable (∀ a ∈ _, ∀ b ∈ _, _))

/-- A user who joins is there already, or some colour of the palette is free, or the hash of
nobody who is off the palette on another socket points to the same degree as theirs. -/
def ColorIsFree (editors : DocumentEditors) : EditorAction → Prop
  | .join socketId user =>
      (∃ info ∈ getEditors editors, info.userId = user.sub) ∨
      (∃ color ∈ collaboratorColors, ∀ info ∈ getEditors editors, info.color ≠ color) ∨
      ∀ entry ∈ editors, entry.1 ≠ socketId → entry.2.color ∉ collaboratorColors →
        ¬SameHue entry.2.userId user.sub
  | .leave _ => True

/-- Every socket has one entry. -/
def OneEntry (editors : DocumentEditors) : Prop :=
  (editors.map Prod.fst).Nodup

/-- Every socket has one entry, in a colour that its user can be assigned. -/
structure Colored (editors : DocumentEditors) : Prop where
  oneEntry : OneEntry editors
  ownColor : ∀ info ∈ getEditors editors, OwnColor info.userId info.color

section Join
variable {editors : DocumentEditors} {socketId : SocketId} {info : EditorInfo} {userId : JsString}

theorem mem_getEditors : info ∈ getEditors editors ↔ ∃ k, (k, info) ∈ editors := by
  simp [getEditors]

theorem OneEntry.addEditor (h : OneEntry editors) :
    OneEntry (addEditor editors socketId info) :=
  Entries.nodup_keys_set h

theorem OneEntry.removeEditor (h : OneEntry editors) : OneEntry (removeEditor editors socketId).2 :=
  h.sublist (List.filter_sublist.map Prod.fst)

/-- After a join the editors are the new one and those on other sockets. -/
theorem mem_getEditors_addEditor (h : OneEntry editors) {a : EditorInfo} :
    a ∈ getEditors (addEditor editors socketId info) ↔
      a = info ∨ ∃ k, k ≠ socketId ∧ (k, a) ∈ editors := by
  rw [mem_getEditors]
  constructor
  · rintro ⟨k, hk⟩
    rw [EditorPresenceService.addEditor, Entries.mem_set h] at hk
    split at hk
    · exact .inl hk
    next hother => exact .inr ⟨k, hother, hk⟩
  · rintro (rfl | ⟨k, hother, hk⟩)
    · exact ⟨socketId, (Entries.mem_set h).mpr (if_pos rfl ▸ rfl)⟩
    · exact ⟨k, (Entries.mem_set h).mpr (if_neg hother ▸ hk)⟩

/-- Where no editor has the assigned colour or the same user does, no two users share it. -/
theorem distinctColors_addEditor_iff (h : OneEntry editors) (hd : DistinctColors editors) :
    DistinctColors (addEditor editors socketId info) ↔
      ∀ k a, (k, a) ∈ editors → k ≠ socketId → a.userId ≠ info.userId → a.color ≠ info.color := by
  constructor
  · intro hnew k a hk hother huser
    exact hnew a ((mem_getEditors_addEditor h).mpr (.inr ⟨k, hother, hk⟩)) info
      ((mem_getEditors_addEditor h).mpr (.inl rfl)) huser
  · intro hall a ha b hb huser
    rcases (mem_getEditors_addEditor h).mp ha with rfl | ⟨k, hk, hka⟩
    · rcases (mem_getEditors_addEditor h).mp hb with rfl | ⟨j, hj, hjb⟩
      · exact absurd rfl huser
      · exact (hall j b hjb hj huser.symm).symm
    · rcases (mem_getEditors_addEditor h).mp hb with rfl | ⟨j, hj, hjb⟩
      · exact hall k a hka hk huser
      · exact hd a (mem_getEditors.mpr ⟨k, hka⟩) b (mem_getEditors.mpr ⟨j, hjb⟩) huser

theorem assignColor_of_present (hd : DistinctColors editors)
    (h : ∃ info ∈ getEditors editors, info.userId = userId) :
    ∀ a ∈ getEditors editors, a.userId ≠ userId → a.color ≠ assignColor editors userId := by
  intro a ha huser
  rw [assignColor]
  split
  next info hfound =>
    have hsame : info.userId = userId := by simpa using List.find?_some hfound
    exact hd a ha info (List.mem_of_find?_eq_some hfound) (hsame ▸ huser)
  next hnone =>
    obtain ⟨info, hinfo, hsame⟩ := h
    exact absurd (beq_iff_eq.mpr hsame) (List.find?_eq_none.mp hnone info hinfo)

theorem assignColor_of_absent (h : ∀ info ∈ getEditors editors, info.userId ≠ userId) :
    assignColor editors userId =
      assignCollaboratorColor userId ((getEditors editors).map EditorInfo.color) := by
  have hnone : (getEditors editors).find? (fun info => info.userId == userId) = none :=
    List.find?_eq_none.mpr fun info hinfo hsame => h info hinfo (beq_iff_eq.mp hsame)
  rw [assignColor, hnone]

theorem ownColor_assignColor (h : Colored editors) :
    OwnColor userId (assignColor editors userId) := by
  rw [assignColor]
  split
  next info hfound =>
    have hsame : info.userId = userId := by simpa using List.find?_some hfound
    exact hsame ▸ h.ownColor info (List.mem_of_find?_eq_some hfound)
  next => exact ownColor_assignCollaboratorColor userId _

/-- A join keeps the colours of different users apart exactly where the colour is free. -/
theorem distinctColors_join_iff (h : Colored editors) (hd : DistinctColors editors)
    (user : EditorUser) :
    DistinctColors (addEditor editors socketId
      { userId := user.sub, displayName := user.displayName, avatarUrl := user.avatarUrl,
        color := assignColor editors user.sub }) ↔ ColorIsFree editors (.join socketId user) := by
  rw [distinctColors_addEditor_iff h.oneEntry hd, ColorIsFree]
  by_cases hpresent : ∃ info ∈ getEditors editors, info.userId = user.sub
  · refine iff_of_true (fun k a hk _ huser => ?_) (.inl hpresent)
    exact assignColor_of_present hd hpresent a (mem_getEditors.mpr ⟨k, hk⟩) huser
  · have habsent : ∀ info ∈ getEditors editors, info.userId ≠ user.sub :=
      fun info hinfo hsame => hpresent ⟨info, hinfo, hsame⟩
    rw [or_iff_right hpresent]
    dsimp only
    rw [assignColor_of_absent habsent]
    rcases assignCollaboratorColor_cases user.sub ((getEditors editors).map EditorInfo.color) with
      ⟨⟨color, hcolor, hfree⟩, hnew⟩ | ⟨hall, hfallback⟩
    · refine iff_of_true (fun k a hk _ _ heq => ?_) (.inl ⟨color, hcolor, fun info hinfo heq => ?_⟩)
      · exact hnew (heq ▸ List.mem_map_of_mem (mem_getEditors.mpr ⟨k, hk⟩))
      · exact hfree (heq ▸ List.mem_map_of_mem hinfo)
    · rw [hfallback]
      constructor
      · intro hother
        refine .inr fun entry hentry hsocket hmem hhue => ?_
        have hinfo : entry.2 ∈ getEditors editors := mem_getEditors.mpr ⟨entry.1, hentry⟩
        exact hother entry.1 entry.2 hentry hsocket (habsent entry.2 hinfo)
          ((h.ownColor entry.2 hinfo).eq_fallbackColor_iff.mpr ⟨hmem, hhue⟩)
      · rintro (⟨color, hcolor, hfree⟩ | hother) k a hk hsocket -
        · obtain ⟨info, hinfo, heq⟩ := List.mem_map.mp (hall color hcolor)
          exact absurd heq (hfree info hinfo)
        · intro heq
          have hown := h.ownColor a (mem_getEditors.mpr ⟨k, hk⟩)
          obtain ⟨hmem, hhue⟩ := hown.eq_fallbackColor_iff.mp heq
          exact hother (k, a) hk hsocket hmem hhue

end Join

theorem getEditors_removeEditor_subset (editors : DocumentEditors) (socketId : SocketId) :
    getEditors (removeEditor editors socketId).2 ⊆ getEditors editors :=
  (List.filter_sublist.map Prod.snd).subset

theorem colored_step {editors next : DocumentEditors} {action : EditorAction}
    (h : Colored editors) (hstep : editorStep editors action = some next) : Colored next := by
  cases action with
  | join socketId user =>
      obtain rfl := Option.some.inj hstep
      refine ⟨h.oneEntry.addEditor, fun info hinfo => ?_⟩
      rcases (mem_getEditors_addEditor h.oneEntry).mp hinfo with rfl | ⟨k, -, hk⟩
      · exact ownColor_assignColor h
      · exact h.ownColor info (mem_getEditors.mpr ⟨k, hk⟩)
  | leave socketId =>
      obtain rfl := Option.some.inj hstep
      exact ⟨h.oneEntry.removeEditor, fun info hinfo =>
        h.ownColor info (getEditors_removeEditor_subset editors socketId hinfo)⟩

theorem distinctColors_step_iff {editors next : DocumentEditors} {action : EditorAction}
    (h : Colored editors) (hd : DistinctColors editors)
    (hstep : editorStep editors action = some next) :
    DistinctColors next ↔ ColorIsFree editors action := by
  cases action with
  | join socketId user =>
      obtain rfl := Option.some.inj hstep
      exact distinctColors_join_iff h hd user
  | leave socketId =>
      obtain rfl := Option.some.inj hstep
      refine iff_of_true (fun a ha b hb huser => ?_) trivial
      have hsub := getEditors_removeEditor_subset editors socketId
      exact hd a (hsub ha) b (hsub hb) huser

/-- In every run of joins and leaves, all rosters have distinct colours if and only if every
join finds a free colour. -/
theorem allStates_distinctColors_iff {editors : DocumentEditors} {actions : List EditorAction}
    (run : Run editorStep [] actions editors) :
    AllStates editorStep DistinctColors [] actions ↔ AllSteps editorStep ColorIsFree [] actions := by
  have hempty : Colored [] := ⟨List.nodup_nil, by rintro info ⟨⟩⟩
  apply allStates_iff_allSteps (I := Colored) _ _ run hempty
  · intro a ha
    cases ha
  · exact fun _ _ _ ht hstep => colored_step ht hstep
  · exact fun _ _ _ ht hd hstep => distinctColors_step_iff ht hd hstep

/-- A user with a number for an id. -/
def testUser (n : Nat) : EditorUser where
  sub := Decimal.padded 8 n ++ js "-0000-4000-8000-000000000000"
  displayName := js "Jane"

/-- The palette is used up by sixteen users; the two after them have the same hue. -/
def eighteenJoins : List EditorAction :=
  ((List.range 16).map fun n => .join n (testUser (n + 11))) ++
    [.join 16 (testUser 3), .join 17 (testUser 47)]

theorem not_distinctColors_eighteenJoins :
    ∃ editors, Run editorStep [] eighteenJoins editors ∧ ¬DistinctColors editors := by
  have hexec : ∃ editors, exec editorStep [] eighteenJoins = some editors ∧
      ¬DistinctColors editors := by
    refine ⟨(exec editorStep [] eighteenJoins).getD [], ?_, ?_⟩
    · rfl
    · decide +kernel
  obtain ⟨editors, hrun, hcolors⟩ := hexec
  exact ⟨editors, run_of_exec hrun, hcolors⟩

end SyncBoard.Document
