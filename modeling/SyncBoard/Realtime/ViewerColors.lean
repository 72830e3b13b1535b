import SyncBoard.Document.EditorColors
import SyncBoard.Realtime.Presence
import Mathlib.Data.List.Sort

/-!
# The colours of the viewers of a board

`PresenceService` over the presence of one board: joins, each with its `getCollaboratorColor`
and `addPresence` one after the other, leaves, heartbeats and the cleanup. The roster shows the
users of the sockets that are not stale, each once. Two of them get the same colour only at a
join for which no colour of the palette is left, or when a heartbeat brings back a socket whose
colour has been given away.

## Implementation notes

A step takes the times at which it reads the clock, which does not go back. `getCollaboratorColor`
goes through the same steps as `assignCollaboratorColor`, which it does not call.
-/

namespace SyncBoard.ViewerColors

open Labelled
open Document (SocketId DocumentEditors EditorAction editorStep DistinctColors ColorIsFree
  allStates_distinctColors_iff testUser)
open Realtime (staleThresholdMs)

/-- What the roster shows of a user. -/
structure PresenceUser where
  userId : JsString
  displayName : JsString
  avatarUrl : Option JsString
  color : JsString
  connectedAt : Timestamp
  deriving DecidableEq, Repr

structure PresenceEntry extends PresenceUser where
  socketId : SocketId
  deriving DecidableEq, Repr

/-- The two keys of a board, and the latest time at which the clock was read. -/
structure BoardPresence where
  active : List (SocketId × Timestamp) := []
  entries : SocketId → Option PresenceEntry := fun _ => none
  clock : Timestamp := 0

/-- A score is not below the threshold at a time. -/
def IsFresh (now score : Timestamp) : Prop :=
  (now : Int) - staleThresholdMs ≤ score

instance (now score : Timestamp) : Decidable (IsFresh now score) :=
  inferInstanceAs (Decidable (_ ≤ _))

/-- `ZADD` on the active set. -/
def zadd (active : List (SocketId × Timestamp)) (now : Timestamp) (socketId : SocketId) :
    List (SocketId × Timestamp) :=
  active.filter (fun member => member.1 != socketId) ++ [(socketId, now)]

/-- `ZRANGEBYSCORE` from the threshold on, in the order of the set. -/
def activeSocketIds (active : List (SocketId × Timestamp)) (now : Timestamp) : List SocketId :=
  ((active.filter fun member => decide (IsFresh now member.2)).insertionSort fun a b =>
    a.2 < b.2 ∨ (a.2 = b.2 ∧ a.1 ≤ b.1)).map Prod.fst

namespace PresenceService

def addPresence (s : BoardPresence) (now : Timestamp) (entry : PresenceEntry) : BoardPresence where
  active := zadd s.active now entry.socketId
  entries := Function.update s.entries entry.socketId (some entry)
  clock := now

/-- `ZREM` and `HDEL`. -/
def removePresence (s : BoardPresence) (gone : SocketId → Bool) : BoardPresence :=
  { s with
    active := s.active.filter fun member => !gone member.1
    entries := fun k => if gone k then none else s.entries k }

def updateHeartbeat (s : BoardPresence) (now : Timestamp) (socketId : SocketId) : BoardPresence :=
  { s with active := zadd s.active now socketId, clock := now }

/-- The users of some entries, each where it comes first; those in `seenUserIds` are left out. -/
def uniqueUsers (seenUserIds : List JsString) : List PresenceEntry → List PresenceUser
  | [] => []
  | entry :: rest =>
      if entry.userId ∈ seenUserIds then uniqueUsers seenUserIds rest
      else entry.toPresenceUser :: uniqueUsers (entry.userId :: seenUserIds) rest

def getBoardViewers (s : BoardPresence) (now : Timestamp) : List PresenceUser :=
  uniqueUsers [] ((activeSocketIds s.active now).filterMap s.entries)

def getCollaboratorColor (s : BoardPresence) (now : Timestamp) (userId : JsString) : JsString :=
  let currentViewers := getBoardViewers s now
  match currentViewers.find? fun v => v.userId == userId with
  | some existingViewer => existingViewer.color
  | none => assignCollaboratorColor userId (currentViewers.map PresenceUser.color)

/-- The sockets of a cleanup: those with a score up to the threshold, itself included. -/
def isStale (s : BoardPresence) (now : Timestamp) (socketId : SocketId) : Bool :=
  s.active.any fun member =>
    member.1 == socketId && decide ((member.2 : Int) ≤ (now : Int) - staleThresholdMs)

def cleanupStaleEntries (s : BoardPresence) (now : Timestamp) : BoardPresence :=
  { removePresence s (isStale s now) with clock := now }

end PresenceService

open PresenceService

/-- A join reads the clock for the viewers and again for the score. -/
inductive PresenceAction
  | join (viewedAt addedAt : Timestamp) (socketId : SocketId) (user : Document.EditorUser)
  | leave (socketId : SocketId)
  | heartbeat (now : Timestamp) (socketId : SocketId)
  | cleanup (now : Timestamp)
  deriving DecidableEq, Repr

/-- The entry with which a user joins. -/
def joinEntry (s : BoardPresence) (viewedAt addedAt : Timestamp) (socketId : SocketId)
    (user : Document.EditorUser) : PresenceEntry where
  userId := user.sub
  displayName := user.displayName
  avatarUrl := user.avatarUrl
  color := getCollaboratorColor s viewedAt user.sub
  connectedAt := addedAt
  socketId := socketId

def presenceStep (s : BoardPresence) : PresenceAction → Option BoardPresence
  | .join viewedAt addedAt socketId user =>
      if s.clock ≤ viewedAt ∧ viewedAt ≤ addedAt then
        some (addPresence s addedAt (joinEntry s viewedAt addedAt socketId user))
      else none
  | .leave socketId => some (removePresence s fun k => k == socketId)
  | .heartbeat now socketId =>
      if s.clock ≤ now then some (updateHeartbeat s now socketId) else none
  | .cleanup now => if s.clock ≤ now then some (cleanupStaleEntries s now) else none

/-- The entry of a socket that is not stale. -/
def Seen (s : BoardPresence) (now : Timestamp) (socketId : SocketId) (entry : PresenceEntry) :
    Prop :=
  (∃ score, (socketId, score) ∈ s.active ∧ IsFresh now score) ∧ s.entries socketId = some entry

section Viewers
variable {s : BoardPresence} {now later : Timestamp} {k socketId : SocketId}
  {entry : PresenceEntry}

/-- What is seen at a time was seen before, if nothing has happened since. -/
theorem Seen.earlier (h : Seen s later k entry) (hle : now ≤ later) : Seen s now k entry := by
  obtain ⟨⟨score, hmem, hfresh⟩, hentry⟩ := h
  refine ⟨⟨score, hmem, ?_⟩, hentry⟩
  have hcast : (now : Int) ≤ later := Int.ofNat_le.mpr hle
  unfold IsFresh at hfresh ⊢
  omega

theorem mem_activeSocketIds :
    k ∈ activeSocketIds s.active now ↔ ∃ score, (k, score) ∈ s.active ∧ IsFresh now score := by
  simp [activeSocketIds, List.mem_insertionSort]

theorem mem_seen : entry ∈ (activeSocketIds s.active now).filterMap s.entries ↔
    ∃ k, Seen s now k entry := by
  rw [List.mem_filterMap]
  exact exists_congr fun k => and_congr_left' mem_activeSocketIds

theorem exists_of_mem_uniqueUsers {seen : List JsString} {l : List PresenceEntry}
    {viewer : PresenceUser} (h : viewer ∈ uniqueUsers seen l) :
    ∃ entry ∈ l, entry.toPresenceUser = viewer := by
  induction l generalizing seen with
  | nil => cases h
  | cons entry rest ih =>
      rw [uniqueUsers] at h
      split at h
      · obtain ⟨other, hmem, heq⟩ := ih h
        exact ⟨other, List.mem_cons_of_mem _ hmem, heq⟩
      · rcases List.mem_cons.mp h with rfl | h
        · exact ⟨entry, List.mem_cons_self, rfl⟩
        · obtain ⟨other, hmem, heq⟩ := ih h
          exact ⟨other, List.mem_cons_of_mem _ hmem, heq⟩

theorem exists_mem_uniqueUsers {seen : List JsString} {l : List PresenceEntry} (h : entry ∈ l)
    (hseen : entry.userId ∉ seen) : ∃ viewer ∈ uniqueUsers seen l, viewer.userId = entry.userId := by
  induction l generalizing seen with
  | nil => cases h
  | cons first rest ih =>
      rw [uniqueUsers]
      by_cases hfirst : first.userId = entry.userId
      · rw [hfirst, if_neg hseen]
        exact ⟨first.toPresenceUser, List.mem_cons_self, hfirst⟩
      · have hrest : entry ∈ rest := by
          rcases List.mem_cons.mp h with rfl | h
          · exact absurd rfl hfirst
          · exact h
        split
        · exact ih hrest hseen
        · have hseen' : entry.userId ∉ first.userId :: seen := by
            rw [List.mem_cons, not_or]
            exact ⟨Ne.symm hfirst, hseen⟩
          obtain ⟨viewer, hmem, heq⟩ := ih hrest hseen'
          exact ⟨viewer, List.mem_cons_of_mem _ hmem, heq⟩

/-- A viewer on the roster is the user of an entry that is seen. -/
theorem seen_of_mem_getBoardViewers {viewer : PresenceUser} (h : viewer ∈ getBoardViewers s now) :
    ∃ k entry, Seen s now k entry ∧ entry.toPresenceUser = viewer := by
  obtain ⟨entry, hmem, heq⟩ := exists_of_mem_uniqueUsers h
  obtain ⟨k, hseen⟩ := mem_seen.mp hmem
  exact ⟨k, entry, hseen, heq⟩

/-- The user of an entry that is seen is on the roster. -/
theorem Seen.exists_viewer (h : Seen s now k entry) :
    ∃ viewer ∈ getBoardViewers s now, viewer.userId = entry.userId :=
  exists_mem_uniqueUsers (mem_seen.mpr ⟨k, h⟩) List.not_mem_nil

end Viewers

/-- The roster shows different users in different colours, from now on if nothing happens. -/
def RosterDistinct (s : BoardPresence) : Prop :=
  ∀ now, s.clock ≤ now → ∀ a ∈ getBoardViewers s now, ∀ b ∈ getBoardViewers s now,
    a.userId ≠ b.userId → a.color ≠ b.color

/-- A user is seen in one colour only. -/
def OneColor (s : BoardPresence) : Prop :=
  ∀ j a k b, Seen s s.clock j a → Seen s s.clock k b → a.userId = b.userId → a.color = b.color

/-- A user is seen in one colour only, and every entry has a colour that its user can be
assigned. -/
structure Colored (s : BoardPresence) : Prop where
  oneColor : OneColor s
  ownColor : ∀ k entry, s.entries k = some entry → OwnColor entry.userId entry.color

/-- Different users are seen in different colours. -/
def EntriesDistinct (s : BoardPresence) : Prop :=
  ∀ j a k b, Seen s s.clock j a → Seen s s.clock k b → a.userId ≠ b.userId → a.color ≠ b.color

/-- A heartbeat does not bring back a socket with another colour than its user is seen in. -/
def KeepsColor (s : BoardPresence) : PresenceAction → Prop
  | .heartbeat now socketId => ∀ entry, s.entries socketId = some entry →
      ∀ k b, k ≠ socketId → Seen s now k b → b.userId = entry.userId → b.color = entry.color
  | _ => True

/-- The user who joins is seen already, or some colour of the palette is free, or the hash of
nobody who is seen off the palette on another socket points to the same degree as theirs. A
heartbeat comes from a socket in whose colour no other user is seen. -/
def ViewerColorIsFree (s : BoardPresence) : PresenceAction → Prop
  | .join viewedAt addedAt socketId user =>
      (∃ k entry, Seen s viewedAt k entry ∧ entry.userId = user.sub) ∨
      (∃ color ∈ collaboratorColors, ∀ k entry, Seen s viewedAt k entry → entry.color ≠ color) ∨
      ∀ k entry, k ≠ socketId → Seen s addedAt k entry → entry.color ∉ collaboratorColors →
        ¬SameHue entry.userId user.sub
  | .heartbeat now socketId => ∀ entry, s.entries socketId = some entry →
      ∀ k b, k ≠ socketId → Seen s now k b → b.userId ≠ entry.userId → b.color ≠ entry.color
  | .leave _ | .cleanup _ => True

section Colors
variable {s t : BoardPresence} {now viewedAt : Timestamp} {socketId : SocketId}
  {entry : PresenceEntry} {userId : JsString}

/-- A viewer has the colour in which the user is seen. -/
theorem OneColor.viewer_color (h : OneColor s) (hle : s.clock ≤ now) {k : SocketId}
    (hseen : Seen s now k entry) {viewer : PresenceUser} (hviewer : viewer ∈ getBoardViewers s now)
    (huser : viewer.userId = entry.userId) : viewer.color = entry.color := by
  obtain ⟨j, shown, hshown, rfl⟩ := seen_of_mem_getBoardViewers hviewer
  exact h j shown k entry (hshown.earlier hle) (hseen.earlier hle) huser

/-- Where users have one colour each, the roster is distinct if what is seen is. -/
theorem rosterDistinct_iff (h : OneColor s) : RosterDistinct s ↔ EntriesDistinct s := by
  constructor
  · intro hroster j a k b ha hb huser
    obtain ⟨u, hu, hua⟩ := ha.exists_viewer
    obtain ⟨v, hv, hvb⟩ := hb.exists_viewer
    rw [← h.viewer_color le_rfl ha hu hua, ← h.viewer_color le_rfl hb hv hvb]
    exact hroster s.clock le_rfl u hu v hv (hua.symm ▸ hvb.symm ▸ huser)
  · intro hentries now hle u hu v hv huser
    obtain ⟨j, a, ha, rfl⟩ := seen_of_mem_getBoardViewers hu
    obtain ⟨k, b, hb, rfl⟩ := seen_of_mem_getBoardViewers hv
    exact hentries j a k b (ha.earlier hle) (hb.earlier hle) huser

/-- A step after which nothing new is seen. -/
def Hides (s t : BoardPresence) : Prop :=
  ∀ k entry, Seen t t.clock k entry → Seen s s.clock k entry

/-- A step after which a socket is seen, and on the others what was seen there. -/
def Shows (s t : BoardPresence) (socketId : SocketId) (entry : PresenceEntry) : Prop :=
  s.clock ≤ t.clock ∧ ∀ k e, Seen t t.clock k e ↔
    (k = socketId ∧ e = entry) ∨ (k ≠ socketId ∧ Seen s t.clock k e)

theorem OneColor.hides (h : OneColor s) (hst : Hides s t) : OneColor t :=
  fun j a k b ha hb => h j a k b (hst j a ha) (hst k b hb)

theorem EntriesDistinct.hides (h : EntriesDistinct s) (hst : Hides s t) : EntriesDistinct t :=
  fun j a k b ha hb => h j a k b (hst j a ha) (hst k b hb)

/-- A relation between the entries that are seen goes on if it relates the new entry to the
others. -/
theorem Shows.pairs {R : PresenceEntry → PresenceEntry → Prop} (hst : Shows s t socketId entry)
    (hsymm : ∀ a b, R a b → R b a) (hself : R entry entry)
    (h : ∀ j a k b, Seen s s.clock j a → Seen s s.clock k b → R a b)
    (hentry : ∀ k b, k ≠ socketId → Seen s t.clock k b → R b entry) :
    ∀ j a k b, Seen t t.clock j a → Seen t t.clock k b → R a b := by
  intro j a k b ha hb
  rcases (hst.2 j a).mp ha with ⟨rfl, rfl⟩ | ⟨hj, ha⟩
  · rcases (hst.2 k b).mp hb with ⟨rfl, rfl⟩ | ⟨hk, hb⟩
    · exact hself
    · exact hsymm b a (hentry k b hk hb)
  · rcases (hst.2 k b).mp hb with ⟨rfl, rfl⟩ | ⟨hk, hb⟩
    · exact hentry j a hj ha
    · exact h j a k b (ha.earlier hst.1) (hb.earlier hst.1)

theorem OneColor.shows (h : OneColor s) (hst : Shows s t socketId entry)
    (hentry : ∀ k b, k ≠ socketId → Seen s t.clock k b → b.userId = entry.userId →
      b.color = entry.color) : OneColor t := by
  apply hst.pairs _ _ h hentry
  · exact fun a b hab huser => (hab huser.symm).symm
  · exact fun _ => rfl

theorem EntriesDistinct.shows_iff (h : EntriesDistinct s) (hst : Shows s t socketId entry) :
    EntriesDistinct t ↔ ∀ k b, k ≠ socketId → Seen s t.clock k b → b.userId ≠ entry.userId →
      b.color ≠ entry.color := by
  constructor
  · intro ht k b hk hb huser
    exact ht k b socketId entry ((hst.2 k b).mpr (.inr ⟨hk, hb⟩))
      ((hst.2 socketId entry).mpr (.inl ⟨rfl, rfl⟩)) huser
  · intro hentry
    apply hst.pairs _ _ h hentry
    · exact fun a b hab huser => (hab huser.symm).symm
    · exact fun huser => absurd rfl huser

end Colors

section Steps
variable {s t : BoardPresence} {now viewedAt addedAt : Timestamp} {k socketId : SocketId}
  {entry e : PresenceEntry} {userId : JsString}

theorem mem_zadd {active : List (SocketId × Timestamp)} {score : Timestamp} :
    (k, score) ∈ zadd active now socketId ↔
      (k = socketId ∧ score = now) ∨ (k ≠ socketId ∧ (k, score) ∈ active) := by
  rw [zadd, List.mem_append, List.mem_filter, List.mem_singleton, Prod.mk.injEq, bne_iff_ne,
    or_comm, and_comm (b := k ≠ socketId)]

theorem isFresh_self (now : Timestamp) : IsFresh now now := by
  simp only [IsFresh, staleThresholdMs]
  omega

theorem entries_addPresence (h : (addPresence s now entry).entries k = some e) :
    (k = entry.socketId ∧ e = entry) ∨ s.entries k = some e := by
  rw [addPresence] at h
  dsimp only at h
  rw [Function.update_apply] at h
  split at h
  next hk => exact .inl ⟨hk, (Option.some.inj h).symm⟩
  next => exact .inr h

/-- A socket with a new score is seen with its entry, the others are seen as before. -/
theorem exists_mem_zadd {active : List (SocketId × Timestamp)} :
    (∃ score, (k, score) ∈ zadd active now socketId ∧ IsFresh now score) ↔
      k = socketId ∨ (k ≠ socketId ∧ ∃ score, (k, score) ∈ active ∧ IsFresh now score) := by
  constructor
  · rintro ⟨score, hmem, hfresh⟩
    rcases mem_zadd.mp hmem with ⟨rfl, -⟩ | ⟨hk, hmem⟩
    · exact .inl rfl
    · exact .inr ⟨hk, score, hmem, hfresh⟩
  · rintro (rfl | ⟨hk, score, hmem, hfresh⟩)
    · exact ⟨now, mem_zadd.mpr (.inl ⟨rfl, rfl⟩), isFresh_self now⟩
    · exact ⟨score, mem_zadd.mpr (.inr ⟨hk, hmem⟩), hfresh⟩

theorem shows_addPresence (hle : s.clock ≤ now) :
    Shows s (addPresence s now entry) entry.socketId entry := by
  refine ⟨hle, fun k e => ?_⟩
  rw [Seen, addPresence, exists_mem_zadd]
  dsimp only
  by_cases hk : k = entry.socketId
  · subst hk
    simp [eq_comm]
  · simp [hk, Seen]

theorem shows_updateHeartbeat (hle : s.clock ≤ now) (hentry : s.entries socketId = some entry) :
    Shows s (updateHeartbeat s now socketId) socketId entry := by
  refine ⟨hle, fun k e => ?_⟩
  rw [Seen, updateHeartbeat, exists_mem_zadd]
  dsimp only
  by_cases hk : k = socketId
  · subst hk
    simp [hentry, eq_comm]
  · simp [hk, Seen]

/-- A socket without an entry is not seen, whatever its score. -/
theorem hides_updateHeartbeat (hle : s.clock ≤ now) (hentry : s.entries socketId = none) :
    Hides s (updateHeartbeat s now socketId) := by
  intro k e he
  rw [Seen, updateHeartbeat, exists_mem_zadd] at he
  obtain ⟨rfl | ⟨-, hactive⟩, hsome⟩ := he
  · dsimp only at hsome
    rw [hentry] at hsome
    cases hsome
  · exact Seen.earlier ⟨hactive, hsome⟩ hle

theorem seen_of_removePresence {gone : SocketId → Bool}
    (h : Seen (removePresence s gone) now k e) : Seen s now k e := by
  obtain ⟨⟨score, hmem, hfresh⟩, hentry⟩ := h
  refine ⟨⟨score, List.mem_of_mem_filter hmem, hfresh⟩, ?_⟩
  simp only [removePresence] at hentry
  split at hentry
  · cases hentry
  · exact hentry

theorem hides_removePresence (gone : SocketId → Bool) : Hides s (removePresence s gone) :=
  fun _ _ h => seen_of_removePresence h

theorem hides_cleanupStaleEntries (hle : s.clock ≤ now) : Hides s (cleanupStaleEntries s now) := by
  intro k e h
  have hseen : Seen (removePresence s (isStale s now)) now k e := h
  exact (seen_of_removePresence hseen).earlier hle

theorem getCollaboratorColor_of_seen (h : OneColor s) (hle : s.clock ≤ viewedAt)
    (hseen : Seen s viewedAt k entry) :
    getCollaboratorColor s viewedAt entry.userId = entry.color := by
  rw [getCollaboratorColor]
  split
  next viewer hfound =>
    have huser : viewer.userId = entry.userId := by simpa using List.find?_some hfound
    exact h.viewer_color hle hseen (List.mem_of_find?_eq_some hfound) huser
  next hnone =>
    obtain ⟨viewer, hviewer, huser⟩ := hseen.exists_viewer
    exact absurd (beq_iff_eq.mpr huser) (List.find?_eq_none.mp hnone viewer hviewer)

/-- A user who is not seen gets a colour that is not seen, or the one of the hash. -/
theorem getCollaboratorColor_of_unseen (h : OneColor s) (hle : s.clock ≤ viewedAt)
    (hunseen : ∀ k entry, Seen s viewedAt k entry → entry.userId ≠ userId) :
    ((∃ color ∈ collaboratorColors, ∀ k entry, Seen s viewedAt k entry → entry.color ≠ color) ∧
      ∀ k entry, Seen s viewedAt k entry → entry.color ≠ getCollaboratorColor s viewedAt userId) ∨
    ((∀ color ∈ collaboratorColors, ∃ k entry, Seen s viewedAt k entry ∧ entry.color = color) ∧
      getCollaboratorColor s viewedAt userId = fallbackColor userId) := by
  have hnone : (getBoardViewers s viewedAt).find? (fun v => v.userId == userId) = none := by
    apply List.find?_eq_none.mpr
    intro viewer hviewer huser
    obtain ⟨k, entry, hseen, rfl⟩ := seen_of_mem_getBoardViewers hviewer
    exact hunseen k entry hseen (beq_iff_eq.mp huser)
  have htaken {color : JsString} : color ∈ (getBoardViewers s viewedAt).map PresenceUser.color ↔
      ∃ k entry, Seen s viewedAt k entry ∧ entry.color = color := by
    rw [List.mem_map]
    constructor
    · rintro ⟨viewer, hviewer, rfl⟩
      obtain ⟨k, entry, hseen, rfl⟩ := seen_of_mem_getBoardViewers hviewer
      exact ⟨k, entry, hseen, rfl⟩
    · rintro ⟨k, entry, hseen, rfl⟩
      obtain ⟨viewer, hviewer, huser⟩ := hseen.exists_viewer
      exact ⟨viewer, hviewer, h.viewer_color hle hseen hviewer huser⟩
  have hcolor : getCollaboratorColor s viewedAt userId = assignCollaboratorColor userId
      ((getBoardViewers s viewedAt).map PresenceUser.color) := by
    simp only [getCollaboratorColor, hnone]
  rw [hcolor]
  rcases assignCollaboratorColor_cases userId
    ((getBoardViewers s viewedAt).map PresenceUser.color) with ⟨⟨color, hmem, hfree⟩, hnew⟩ | ⟨hall, heq⟩
  · refine .inl ⟨⟨color, hmem, fun k entry hseen heq => ?_⟩, fun k entry hseen heq => ?_⟩
    · exact hfree (htaken.mpr ⟨k, entry, hseen, heq⟩)
    · exact hnew (htaken.mpr ⟨k, entry, hseen, heq⟩)
  · exact .inr ⟨fun color hmem => htaken.mp (hall color hmem), heq⟩

theorem ownColor_getCollaboratorColor (h : Colored s) :
    OwnColor userId (getCollaboratorColor s now userId) := by
  simp only [getCollaboratorColor]
  split
  next viewer hfound =>
    obtain ⟨k, entry, hseen, rfl⟩ := seen_of_mem_getBoardViewers (List.mem_of_find?_eq_some hfound)
    have huser : entry.userId = userId := by simpa using List.find?_some hfound
    exact huser ▸ h.ownColor k entry hseen.2
  next => exact ownColor_assignCollaboratorColor userId _

/-- Who joins gets the one colour that they are seen in. -/
theorem OneColor.join (h : OneColor s) (hle : s.clock ≤ viewedAt) (hle' : viewedAt ≤ addedAt)
    (user : Document.EditorUser) :
    OneColor (addPresence s addedAt (joinEntry s viewedAt addedAt socketId user)) := by
  refine h.shows (shows_addPresence (hle.trans hle')) fun k b _ hb huser => ?_
  have hseen : Seen s viewedAt k b := hb.earlier hle'
  have hcolor := getCollaboratorColor_of_seen h hle hseen
  rw [huser] at hcolor
  exact hcolor.symm

/-- A join keeps the colours of different users apart exactly where the colour is free. -/
theorem entriesDistinct_join_iff (h : Colored s) (hd : EntriesDistinct s)
    (hle : s.clock ≤ viewedAt) (hle' : viewedAt ≤ addedAt) (user : Document.EditorUser) :
    EntriesDistinct (addPresence s addedAt (joinEntry s viewedAt addedAt socketId user)) ↔
      ViewerColorIsFree s (.join viewedAt addedAt socketId user) := by
  rw [hd.shows_iff (shows_addPresence (hle.trans hle')), ViewerColorIsFree]
  by_cases hpresent : ∃ k entry, Seen s viewedAt k entry ∧ entry.userId = user.sub
  · refine iff_of_true (fun k b _ hb huser heq => ?_) (.inl hpresent)
    obtain ⟨j, entry, hseen, hsame⟩ := hpresent
    have hcolor := getCollaboratorColor_of_seen h.oneColor hle hseen
    rw [hsame] at hcolor
    refine hd k b j entry ((hb.earlier hle').earlier hle) (hseen.earlier hle) ?_
      (heq.trans hcolor)
    exact hsame.symm ▸ huser
  · have hunseen : ∀ k entry, Seen s viewedAt k entry → entry.userId ≠ user.sub :=
      fun k entry hseen hsame => hpresent ⟨k, entry, hseen, hsame⟩
    rw [or_iff_right hpresent]
    rcases getCollaboratorColor_of_unseen h.oneColor hle hunseen with
      ⟨hfree, hnew⟩ | ⟨hall, hfallback⟩
    · exact iff_of_true (fun k b _ hb _ => hnew k b (hb.earlier hle')) (.inl hfree)
    · have hentry : (joinEntry s viewedAt addedAt socketId user).color = fallbackColor user.sub :=
        hfallback
      rw [hentry]
      constructor
      · intro hother
        refine .inr fun k b hk hb hmem hhue => ?_
        exact hother k b hk hb (hunseen k b (hb.earlier hle'))
          ((h.ownColor k b hb.2).eq_fallbackColor_iff.mpr ⟨hmem, hhue⟩)
      · rintro (⟨color, hmem, hfree⟩ | hother) k b hk hb -
        · obtain ⟨j, entry, hseen, heq⟩ := hall color hmem
          exact absurd heq (hfree j entry hseen)
        · intro heq
          obtain ⟨hmem, hhue⟩ := (h.ownColor k b hb.2).eq_fallbackColor_iff.mp heq
          exact hother k b hk hb hmem hhue

theorem oneColor_step {action : PresenceAction} (h : OneColor s) (hkeeps : KeepsColor s action)
    (hstep : presenceStep s action = some t) : OneColor t := by
  cases action with
  | join viewedAt addedAt socketId user =>
      obtain ⟨⟨hle, hle'⟩, rfl⟩ := Option.ite_some_none_eq_some.mp hstep
      exact h.join hle hle' user
  | leave socketId =>
      obtain rfl := Option.some.inj hstep
      exact h.hides (hides_removePresence _)
  | heartbeat now socketId =>
      obtain ⟨hle, rfl⟩ := Option.ite_some_none_eq_some.mp hstep
      cases hentry : s.entries socketId with
      | none => exact h.hides (hides_updateHeartbeat hle hentry)
      | some entry => exact h.shows (shows_updateHeartbeat hle hentry) (hkeeps entry hentry)
  | cleanup now =>
      obtain ⟨hle, rfl⟩ := Option.ite_some_none_eq_some.mp hstep
      exact h.hides (hides_cleanupStaleEntries hle)

/-- Entries come from joins only. -/
theorem colored_step {action : PresenceAction} (h : Colored s) (hkeeps : KeepsColor s action)
    (hstep : presenceStep s action = some t) : Colored t := by
  have hremoved : ∀ (gone : SocketId → Bool) k entry,
      (removePresence s gone).entries k = some entry → OwnColor entry.userId entry.color := by
    intro gone k entry hentry
    simp only [removePresence] at hentry
    split at hentry
    · cases hentry
    · exact h.ownColor k entry hentry
  refine ⟨oneColor_step h.oneColor hkeeps hstep, fun k entry hentry => ?_⟩
  cases action with
  | join viewedAt addedAt socketId user =>
      obtain ⟨-, rfl⟩ := Option.ite_some_none_eq_some.mp hstep
      rcases entries_addPresence hentry with ⟨-, rfl⟩ | hentry
      · exact ownColor_getCollaboratorColor h
      · exact h.ownColor k entry hentry
  | leave socketId =>
      obtain rfl := Option.some.inj hstep
      exact hremoved _ k entry hentry
  | heartbeat now socketId =>
      obtain ⟨-, rfl⟩ := Option.ite_some_none_eq_some.mp hstep
      exact h.ownColor k entry hentry
  | cleanup now =>
      obtain ⟨-, rfl⟩ := Option.ite_some_none_eq_some.mp hstep
      exact hremoved _ k entry hentry

theorem entriesDistinct_step_iff {action : PresenceAction} (h : Colored s)
    (hd : EntriesDistinct s) (hstep : presenceStep s action = some t) :
    EntriesDistinct t ↔ ViewerColorIsFree s action := by
  cases action with
  | join viewedAt addedAt socketId user =>
      obtain ⟨⟨hle, hle'⟩, rfl⟩ := Option.ite_some_none_eq_some.mp hstep
      exact entriesDistinct_join_iff h hd hle hle' user
  | leave socketId =>
      obtain rfl := Option.some.inj hstep
      exact iff_of_true (hd.hides (hides_removePresence _)) trivial
  | heartbeat now socketId =>
      obtain ⟨hle, rfl⟩ := Option.ite_some_none_eq_some.mp hstep
      cases hentry : s.entries socketId with
      | none =>
          refine iff_of_true (hd.hides (hides_updateHeartbeat hle hentry)) fun entry hsome => ?_
          rw [hentry] at hsome
          cases hsome
      | some entry =>
          rw [hd.shows_iff (shows_updateHeartbeat hle hentry)]
          constructor
          · intro hall other hsome
            obtain rfl := Option.some.inj (hentry.symm.trans hsome)
            exact hall
          · exact fun hall => hall entry hentry
  | cleanup now =>
      obtain ⟨hle, rfl⟩ := Option.ite_some_none_eq_some.mp hstep
      exact iff_of_true (hd.hides (hides_cleanupStaleEntries hle)) trivial

end Steps

/-- In every run in which heartbeats keep to the colour of their user, all rosters have distinct
colours if and only if every join and every heartbeat finds a free colour. -/
theorem allStates_rosterDistinct_iff {s : BoardPresence} {actions : List PresenceAction}
    (run : Run presenceStep {} actions s) (hkeeps : AllSteps presenceStep KeepsColor {} actions) :
    AllStates presenceStep RosterDistinct {} actions ↔
      AllSteps presenceStep ViewerColorIsFree {} actions := by
  have hempty : ∀ k entry, ¬Seen ({} : BoardPresence) 0 k entry :=
    fun k entry h => by cases h.2
  have hone : OneColor {} := fun j a k b ha => absurd ha (hempty j a)
  have hcolored : Colored {} := ⟨hone, by rintro k entry ⟨⟩⟩
  have hdistinct : EntriesDistinct {} := fun j a k b ha => absurd ha (hempty j a)
  apply allStates_iff_allSteps_of (I := Colored) _ _ run hkeeps hcolored
    ((rosterDistinct_iff hone).mpr hdistinct)
  · exact fun _ _ _ ht hk hstep => colored_step ht hk hstep
  · intro t a u ht hk hd hstep
    rw [rosterDistinct_iff (colored_step ht hk hstep).oneColor]
    exact entriesDistinct_step_iff ht ((rosterDistinct_iff ht.oneColor).mp hd) hstep

/-- The runs of one document and the runs of one board. -/
theorem collaboratorColors_distinct_iff (editorActions : List EditorAction)
    (presenceActions : List PresenceAction) :
    (∀ editors : DocumentEditors, Run editorStep [] editorActions editors →
      (AllStates editorStep DistinctColors [] editorActions ↔
        AllSteps editorStep ColorIsFree [] editorActions)) ∧
    ∀ s : BoardPresence, Run presenceStep {} presenceActions s →
      AllSteps presenceStep KeepsColor {} presenceActions →
        (AllStates presenceStep RosterDistinct {} presenceActions ↔
          AllSteps presenceStep ViewerColorIsFree {} presenceActions) :=
  ⟨fun _ run => allStates_distinctColors_iff run,
    fun _ run hkeeps => allStates_rosterDistinct_iff run hkeeps⟩

/-- Two users come to a document. -/
def twoJoins : List EditorAction :=
  [.join 1 (testUser 1), .join 2 (testUser 2)]

/-- They come to a board, and then there is a heartbeat of the first. -/
def joinsAndHeartbeat : List PresenceAction :=
  [.join 5 6 1 (testUser 1), .join 7 8 2 (testUser 2), .heartbeat 9 1]

/-- Of two entries, the second is on the socket that is not the first one's. -/
theorem entries_of_twoJoins {now later : Timestamp} {k : SocketId}
    {first second a b : PresenceEntry} (hne : first.socketId ≠ second.socketId)
    (ha : (addPresence (addPresence {} now first) later second).entries first.socketId = some a)
    (hk : k ≠ first.socketId)
    (hb : (addPresence (addPresence {} now first) later second).entries k = some b) :
    a = first ∧ b = second := by
  constructor
  · rcases entries_addPresence ha with ⟨heq, -⟩ | ha
    · exact absurd heq hne
    · rcases entries_addPresence ha with ⟨-, rfl⟩ | ⟨⟨⟩⟩
      rfl
  · rcases entries_addPresence hb with ⟨-, rfl⟩ | hb
    · rfl
    · rcases entries_addPresence hb with ⟨heq, -⟩ | ⟨⟨⟩⟩
      exact absurd heq hk

theorem collaboratorColors_of_twoUsers :
    AllStates editorStep DistinctColors [] twoJoins ∧
      AllStates presenceStep RosterDistinct {} joinsAndHeartbeat := by
  obtain ⟨hdocument, hboard⟩ := collaboratorColors_distinct_iff twoJoins joinsAndHeartbeat
  -- the first colour of the palette is taken by neither
  have hfree : js "#E11D48" ∈ collaboratorColors := List.mem_map_of_mem List.mem_cons_self
  have hsockets : (1 : SocketId) ≠ 2 := by decide
  constructor
  · apply (hdocument _ (run_of_exec rfl)).mpr
    refine allSteps_cons.mpr ⟨.inr (.inl ⟨_, hfree, by rintro info ⟨⟩⟩), fun t ht => ?_⟩
    obtain rfl := Option.some.inj ht
    exact allSteps_cons.mpr ⟨.inr (.inl ⟨_, hfree, by decide +kernel⟩), fun _ _ => allSteps_nil⟩
  · apply (hboard _ (run_of_exec rfl) ?_).mpr
    · refine allSteps_cons.mpr ⟨.inr (.inl ⟨_, hfree, by rintro k e ⟨-, ⟨⟩⟩⟩), fun t ht => ?_⟩
      obtain rfl := Option.some.inj ht
      refine allSteps_cons.mpr ⟨.inr (.inl ⟨_, hfree, fun k e he => ?_⟩), fun t ht => ?_⟩
      · rcases entries_addPresence he.2 with ⟨-, rfl⟩ | ⟨⟨⟩⟩
        decide +kernel
      obtain rfl := Option.some.inj ht
      refine allSteps_cons.mpr ⟨fun a ha k b hk hb _ => ?_, fun _ _ => allSteps_nil⟩
      obtain ⟨rfl, rfl⟩ := entries_of_twoJoins hsockets ha hk hb.2
      decide +kernel
    · refine allSteps_cons.mpr ⟨trivial, fun t ht => ?_⟩
      obtain rfl := Option.some.inj ht
      refine allSteps_cons.mpr ⟨trivial, fun t ht => ?_⟩
      obtain rfl := Option.some.inj ht
      refine allSteps_cons.mpr ⟨fun a ha k b hk hb huser => ?_, fun _ _ => allSteps_nil⟩
      obtain ⟨rfl, rfl⟩ := entries_of_twoJoins hsockets ha hk hb.2
      exact absurd huser (by decide +kernel)

end SyncBoard.ViewerColors
