import SyncBoard.Notification.Service
import SyncBoard.Lib.Run

/-!
# The cached unread count

A missing counter means that the table has to be asked. The consumer takes it for 0,
and so does `markRead`: both then write a counter that is wrong as long as the user has
other unread notifications. Where a message spells its user with a capital the consumer
increments a counter that nobody reads.
-/

namespace SyncBoard.Notification

open Relational Interleaved Interleaved.Program Labelled

namespace Store
variable {s t : Store} {userId : Uuid}

/-- `getUnreadCount` returns the number of unread rows, whichever keys go meanwhile. -/
def CountsUnread (s : Store) : Prop :=
  ∀ userId supply, ((getUnreadCount userId).exec (supplied answer) (s, supply)).1 =
    .ok (s.countUnread userId : Int)

/-- What a call meets under a counter when keys may go before each of `n` calls. -/
def unreadAt (s : Store) (supply : Nat → Outside) : Nat → UuidText → Option Int
  | 0, key => s.unread key
  | n + 1, key => if (supply n).unread key then none else s.unreadAt supply n key

/-- The message is consumed for the first time, and its row is new. -/
def Stores (s : Store) (id messageId : Uuid) (userId : UuidText) (createdAt : Timestamp)
    (supply : Nat → Outside) : Prop :=
  (s.without (supply 0)).processed messageId = false ∧ (supply 1).refused = false ∧
    (s.createOnce id { messageId, userId := userId.id, createdAt }).1.isSome = true

/-- The user has this notification, unread. -/
def HasUnread (s : Store) (userId id : Uuid) : Prop :=
  ∃ row, s.notifications.get? id = some row ∧ isUnreadOf userId id row = true

/-- `INCR` takes a missing counter for 0, and makes -1 a counter that is returned. -/
def MayIncr : Option Int → Nat → Prop
  | some cached, _ => cached ≠ -1
  | none, count => count = 0

/-- A counter that is missing is not incremented where the user has other unread rows, nor
one at -1, unless it goes again at once; another counter is incremented only where the user's
own is missing or negative in the end; and a counter is set to 0 only where no unread row
remains. -/
def KeepsCount (s : Store) : Turn → Prop
  | .handle id messageId userId createdAt supply =>
      s.Stores id messageId userId createdAt supply →
        if userId = .canonical userId.id then
          (supply 3).unread userId = false →
            MayIncr (s.unreadAt supply 3 userId) (s.countUnread userId.id)
        else ∀ cached ∈ s.unreadAt supply 4 (.canonical userId.id), cached < 0
  | .markRead userId id supply =>
      s.HasUnread userId id →
        0 < (s.unreadAt supply 3 (.canonical userId)).getD 0 ∨ s.countUnread userId = 1
  | _ => True

/-- A counter that is returned is the count. -/
def Agrees (cached : Option Int) (count : Nat) : Prop :=
  ∀ parsed, cached = some parsed → 0 ≤ parsed → parsed = count

theorem agrees_none (count : Nat) : Agrees none count := nofun

theorem agrees_some {parsed : Int} {count : Nat} :
    Agrees (some parsed) count ↔ (0 ≤ parsed → parsed = count) := by
  constructor
  · exact fun h => h parsed rfl
  · intro h cached hcached
    obtain rfl := Option.some.inj hcached
    exact h

theorem agrees_incr {cached : Option Int} {count : Nat} (h : Agrees cached count) :
    Agrees (some (cached.getD 0 + 1)) (count + 1) ↔ MayIncr cached count := by
  rw [agrees_some]
  cases cached with
  | none =>
      simp only [Option.getD_none, MayIncr]
      omega
  | some cached =>
      have hcached := agrees_some.mp h
      simp only [Option.getD_some, MayIncr]
      omega

/-- Another row of the user, whose counter stays as it is. -/
theorem agrees_succ {cached : Option Int} {count : Nat} (h : Agrees cached count) :
    Agrees cached (count + 1) ↔ ∀ parsed ∈ cached, parsed < 0 := by
  constructor
  · intro h' parsed hparsed
    by_contra hpos
    have hcount := h parsed hparsed (by omega)
    have hnext := h' parsed hparsed (by omega)
    omega
  · intro hneg parsed hparsed hpos
    have hbelow := hneg parsed hparsed
    omega

/-- `DECR` of a counter that may have gone since it was read. -/
theorem agrees_decr {cached : Int} {count : Nat} (h : Agrees (some cached) (count + 1))
    (hpos : 0 < cached) (gone : Bool) :
    Agrees (some ((if gone then none else some cached).getD 0 - 1)) count := by
  have hcached := agrees_some.mp h
  rw [agrees_some]
  cases gone with
  | false =>
      simp only [Bool.false_eq_true, if_false, Option.getD_some]
      omega
  | true =>
      simp only [if_true, Option.getD_none]
      omega

@[simp] theorem countUnread_without (s : Store) (x : Outside) (userId : Uuid) :
    (s.without x).countUnread userId = s.countUnread userId := rfl

theorem unread_without (s : Store) (x : Outside) (key : UuidText) :
    (s.without x).unread key = if x.unread key then none else s.unread key := rfl

/-- What is returned, by what the read finds under the counter. -/
theorem returned (s : Store) (userId : Uuid) (supply : Nat → Outside) :
    ((getUnreadCount userId).exec (supplied answer) (s, supply)).1 =
      .ok (((s.without (supply 0)).unread (.canonical userId)).elim (s.countUnread userId : Int)
        fun parsed => if 0 ≤ parsed then parsed else s.countUnread userId) := by
  have hcached : (supplied answer (.get (.canonical userId)) (s, supply)).1 =
      (s.without (supply 0)).unread (.canonical userId) := rfl
  rw [getUnreadCount, ask_bind, exec_await, hcached]
  cases (s.without (supply 0)).unread (.canonical userId) with
  | none => rfl
  | some parsed =>
      dsimp only [Option.elim_some]
      split <;> rfl

theorem countsUnread_iff :
    s.CountsUnread ↔ ∀ userId, Agrees (s.unread (.canonical userId)) (s.countUnread userId) := by
  constructor
  · intro hs userId parsed hparsed hpos
    have hreturned := (s.returned userId fun _ => {}).symm.trans (hs userId fun _ => {})
    simpa [unread_without, hparsed, hpos] using hreturned
  · intro hs userId supply
    rw [returned, unread_without]
    split
    · rfl
    · cases hcached : s.unread (.canonical userId) with
      | none => rfl
      | some parsed =>
          dsimp only [Option.elim_some]
          split
          · rw [hs userId parsed hcached ‹_›]
          · rfl

/-- Counters go at most, and no count changes. -/
structure Forgets (s t : Store) : Prop where
  unread : ∀ key, t.unread key = none ∨ t.unread key = s.unread key
  countUnread : ∀ userId, t.countUnread userId = s.countUnread userId

theorem Forgets.refl (s : Store) : Forgets s s :=
  ⟨fun _ => .inr rfl, fun _ => rfl⟩

theorem Forgets.trans {r : Store} (h : Forgets r s) (h' : Forgets s t) : Forgets r t where
  unread key := by
    rcases h'.unread key with hnone | hsame
    · exact .inl hnone
    · rw [hsame]
      exact h.unread key
  countUnread userId := (h'.countUnread userId).trans (h.countUnread userId)

theorem forgets_without (s : Store) (x : Outside) : Forgets s (s.without x) where
  unread key := by
    rw [unread_without]
    split
    · exact .inl rfl
    · exact .inr rfl
  countUnread _ := rfl

theorem Forgets.countsUnread (h : Forgets s t) (hs : s.CountsUnread) : t.CountsUnread := by
  rw [countsUnread_iff] at hs ⊢
  intro userId
  rw [h.countUnread userId]
  rcases h.unread (.canonical userId) with hnone | hsame
  · exact hnone ▸ agrees_none _
  · exact hsame ▸ hs userId

/-- Besides counters that go, only one user is concerned. -/
structure Concerns (userId : Uuid) (s t : Store) : Prop where
  unread : ∀ key : UuidText, key.id ≠ userId → t.unread key = none ∨ t.unread key = s.unread key
  countUnread : ∀ u, u ≠ userId → t.countUnread u = s.countUnread u

theorem Forgets.concerns (h : Forgets s t) (userId : Uuid) : Concerns userId s t :=
  ⟨fun u _ => h.unread u, fun u _ => h.countUnread u⟩

theorem Concerns.trans {r : Store} (h : Concerns userId r s) (h' : Concerns userId s t) :
    Concerns userId r t where
  unread key hkey := by
    rcases h'.unread key hkey with hnone | hsame
    · exact .inl hnone
    · rw [hsame]
      exact h.unread key hkey
  countUnread u hu := (h'.countUnread u hu).trans (h.countUnread u hu)

@[simp] theorem unread_setUnread (s : Store) (key : UuidText) (value : Option Int) :
    (s.setUnread key value).unread key = value :=
  Function.update_self _ _ _

theorem unread_setUnread_other (s : Store) {key key' : UuidText} (h : key' ≠ key)
    (value : Option Int) : (s.setUnread key value).unread key' = s.unread key' :=
  Function.update_of_ne h _ _

@[simp] theorem countUnread_setUnread (s : Store) (key : UuidText) (value : Option Int) (u : Uuid) :
    (s.setUnread key value).countUnread u = s.countUnread u := rfl

theorem concerns_setUnread (s : Store) (key : UuidText) (value : Option Int) :
    Concerns key.id s (s.setUnread key value) where
  unread _ hother :=
    .inr (unread_setUnread_other s (fun h => hother (congrArg UuidText.id h)) value)
  countUnread _ _ := rfl

/-- The counter of the user decides. -/
theorem Concerns.countsUnread_iff (h : Concerns userId s t) (hs : s.CountsUnread) :
    t.CountsUnread ↔ Agrees (t.unread (.canonical userId)) (t.countUnread userId) := by
  rw [Store.countsUnread_iff] at hs ⊢
  refine ⟨fun ht => ht userId, fun ht u => ?_⟩
  by_cases hu : u = userId
  · exact hu ▸ ht
  · rw [h.countUnread u hu]
    rcases h.unread (.canonical u) hu with hnone | hsame
    · exact hnone ▸ agrees_none _
    · exact hsame ▸ hs u

/-- What is met was there before. -/
theorem unread_of_unreadAt {supply : Nat → Outside} {n : Nat} {key : UuidText} {cached : Int}
    (h : s.unreadAt supply n key = some cached) : s.unread key = some cached := by
  induction n with
  | zero => exact h
  | succ n ih =>
      rw [unreadAt] at h
      split at h
      · cases h
      · exact ih h

theorem CountsUnread.agrees_unreadAt (hs : s.CountsUnread) (supply : Nat → Outside) (n : Nat)
    (userId : Uuid) : Agrees (s.unreadAt supply n (.canonical userId)) (s.countUnread userId) :=
  fun cached h => countsUnread_iff.mp hs userId cached (unread_of_unreadAt h)

/-- A row is skipped, or inserted. -/
theorem createOnce_cases (s : Store) (id : Uuid) (row : NotificationRow) :
    s.createOnce id row = (none, s) ∨ ∃ table, s.notifications.insert? id row = some table ∧
      s.createOnce id row = (some row, { s with notifications := table }) := by
  unfold createOnce
  split
  · exact .inl rfl
  · split
    · exact .inr ⟨_, ‹_›, rfl⟩
    · exact .inl rfl

@[simp] theorem unread_createOnce (s : Store) (id : Uuid) (row : NotificationRow) :
    (s.createOnce id row).2.unread = s.unread := by
  rcases s.createOnce_cases id row with h | ⟨table, -, h⟩ <;> rw [h]

/-- Only the table decides. -/
theorem createOnce_congr (s t : Store) (h : t.notifications = s.notifications) (id : Uuid)
    (row : NotificationRow) : (t.createOnce id row).1 = (s.createOnce id row).1 := by
  unfold createOnce isTaken
  rw [h]
  split
  · rfl
  · split <;> rfl

theorem createOnce_skipped {id : Uuid} {row : NotificationRow} (h : (s.createOnce id row).1 = none) :
    (s.createOnce id row).2 = s := by
  rcases s.createOnce_cases id row with hskip | ⟨table, -, hstored⟩
  · rw [hskip]
  · rw [hstored] at h
    cases h

theorem countUnread_createOnce {id : Uuid} {row : NotificationRow} (hread : row.isRead = false)
    (h : (s.createOnce id row).1.isSome = true) (u : Uuid) :
    (s.createOnce id row).2.countUnread u = s.countUnread u + if u = row.userId then 1 else 0 := by
  rcases s.createOnce_cases id row with hskip | ⟨table, htable, hstored⟩
  · rw [hskip] at h
    cases h
  · rw [hstored, countUnread, Table.count_insert? htable]
    simp [isUnreadOf, hread, countUnread, eq_comm]

theorem concerns_createOnce (s : Store) (id : Uuid) (row : NotificationRow) :
    Concerns row.userId s (s.createOnce id row).2 where
  unread _ _ := .inr (by rw [unread_createOnce])
  countUnread u hu := by
    rcases s.createOnce_cases id row with h | ⟨table, htable, h⟩
    · rw [h]
    · rw [h, countUnread, Table.count_insert? htable]
      simp [isUnreadOf, countUnread, Ne.symm hu]

/-- Reading a notification of the user. -/
theorem countUnread_update {id : Uuid} (h : s.HasUnread userId id) (u : Uuid) :
    (s.notifications.modify id fun row => { row with isRead := true }).count (isUnreadOf u) +
      (if u = userId then 1 else 0) = s.countUnread u := by
  obtain ⟨row, hrow, hunread⟩ := h
  by_cases hu : u = userId
  · subst hu
    rw [if_pos rfl]
    exact Table.count_modify hrow hunread (by simp [isUnreadOf])
  · rw [if_neg hu]
    refine Table.count_modify_other fun other hother => ?_
    obtain rfl := Option.some.inj (hrow.symm.trans hother)
    simp only [isUnreadOf, Bool.and_eq_true, decide_eq_true_eq] at hunread
    simp [isUnreadOf, hunread.1, Ne.symm hu]

end Store

/-- The calls that change no counter and no count. -/
def Statement.Forgets : Statement → Prop
  | .setProcessed _ | .delProcessed _ | .findFirst _ _ | .deleteReadOlderThan _ | .countUnread _
  | .get _ | .expire _ => True
  | _ => False

theorem forgets_answer (x : Outside) (op : Statement) (s : Store) (hop : op.Forgets) :
    s.Forgets (answer x op s).2 := by
  refine (s.forgets_without x).trans ?_
  cases op with
  | deleteReadOlderThan cutoff =>
      refine ⟨fun _ => .inr rfl, fun userId => Table.count_deleteWhere fun id row hgone => ?_⟩
      simp only [Bool.and_eq_true] at hgone
      simp [Store.isUnreadOf, hgone.1]
  | setProcessed => exact ⟨fun _ => .inr rfl, fun _ => rfl⟩
  | delProcessed => exact ⟨fun _ => .inr rfl, fun _ => rfl⟩
  | findFirst => exact .refl _
  | countUnread => exact .refl _
  | get => exact .refl _
  | expire => exact .refl _
  | _ => exact hop.elim

/-- A program of such calls. -/
theorem forgets_leaves {α : Type} {p : Procedure α} (hp : p.Only Statement.Forgets) (s : Store)
    (supply : Nat → Outside) : s.Forgets (p.leaves answer supply s) := by
  have hends : p.Ends answer (fun _ => True) s.Forgets s fun _ t => s.Forgets t :=
    .of_only Store.Forgets.refl (fun _ _ _ => .trans) forgets_answer hp (fun _ => id) fun _ _ => id
  exact hends.leaves_any

theorem only_getUnreadCount (userId : Uuid) : (getUnreadCount userId).Only Statement.Forgets := by
  refine .bind (.ask trivial) fun cached => ?_
  have htable : (countFromTable userId).Only Statement.Forgets :=
    .bind (.ask trivial) fun _ => .pure _
  split
  · split
    · exact .pure _
    · exact htable
  · exact htable

namespace Store
variable {s : Store} {supply : Nat → Outside}

theorem answer_createOnce {x : Outside} (hx : x.refused = false) (s t : Store)
    (h : t.notifications = s.notifications) (id : Uuid) (row : NotificationRow) :
    (answer x (.createOnce id row) t).1 = .ok (s.createOnce id row).1 := by
  simp only [answer, respond, hx, Bool.false_eq_true, if_false]
  have hsame : (t.without x).notifications = s.notifications := h
  exact congrArg Except.ok (createOnce_congr s _ hsame id row)

/-- A refused row, and a row that is skipped, leave the table. -/
theorem forgets_createOnce {x : Outside} {id : Uuid} {row : NotificationRow}
    (h : x.refused = true ∨ (s.createOnce id row).1 = none) :
    s.Forgets (answer x (.createOnce id row) s).2 := by
  refine (s.forgets_without x).trans ?_
  simp only [answer, respond]
  split
  · exact .refl _
  · rename_i haccepted
    have hnone : ((s.without x).createOnce id row).1 = none :=
      (createOnce_congr s _ (by rfl) id row).trans (h.resolve_left haccepted)
    rw [createOnce_skipped hnone]
    exact .refl _

section Handle
variable {id messageId : Uuid} {userId : UuidText} {createdAt : Timestamp}

/-- A stored notification is counted, and then a counter goes up. -/
theorem leaves_handle_stored (h : s.Stores id messageId userId createdAt supply) :
    ∃ t, Concerns userId.id s t ∧ t.countUnread userId.id = s.countUnread userId.id + 1 ∧
      (∀ key, t.unread key = s.unreadAt supply 3 key) ∧
      (handle id messageId userId createdAt).leaves answer supply s =
        (t.setUnread userId (some ((s.unreadAt supply 3 userId).getD 0 + 1))).without
          (supply 3) := by
  obtain ⟨hprocessed, hrefused, hstored⟩ := h
  let row : NotificationRow := { messageId, userId := userId.id, createdAt }
  let begun := (answer (supply 0) (.setProcessed messageId) s).2
  let created := ((begun.without (supply 1)).createOnce id row).2
  have hcreated : (answer (supply 1) (.createOnce id row) begun).2 = created := by
    simp [answer, respond, hrefused, created]
  have hnew : ((begun.without (supply 1)).createOnce id row).1.isSome = true := by
    rw [createOnce_congr s _ (by rfl)]
    exact hstored
  have hmet : ∀ key, (created.without (supply 2)).unread key = s.unreadAt supply 3 key := by
    intro key
    rw [unread_without, unread_createOnce]
    rfl
  refine ⟨created.without (supply 2), ?_, ?_, hmet, ?_⟩
  · have hbegun : s.Forgets begun := forgets_answer (supply 0) (.setProcessed messageId) s trivial
    have hrow : Concerns userId.id begun created :=
      ((begun.forgets_without (supply 1)).concerns userId.id).trans (concerns_createOnce _ id row)
    exact (hbegun.concerns userId.id).trans
      (hrow.trans ((created.forgets_without (supply 2)).concerns userId.id))
  · have hread : row.isRead = false := rfl
    have hcount := countUnread_createOnce hread hnew userId.id
    rw [if_pos rfl] at hcount
    exact hcount
  · have hfirst : (answer (supply 0) (.setProcessed messageId) s).1 = true := by
      simp [answer, respond, hprocessed]
    have hrow : (answer (supply 1) (.createOnce id row) begun).1 = .ok (s.createOnce id row).1 :=
      answer_createOnce hrefused s _ (by rfl) id row
    rw [handle, leaves_ask_bind, hfirst, if_pos rfl, persistOrScheduleRetry, Program.bind_assoc,
      leaves_ask_bind, hrow, ← hmet userId, ← hcreated]
    simp only [pure_bind, hstored, row]
    rfl

/-- A message that stores nothing is not counted. -/
theorem forgets_handle (h : ¬ s.Stores id messageId userId createdAt supply) :
    s.Forgets ((handle id messageId userId createdAt).leaves answer supply s) := by
  have hbegun := forgets_answer (supply 0) (.setProcessed messageId) s trivial
  rw [handle, leaves_ask_bind]
  cases hfirst : (answer (supply 0) (.setProcessed messageId) s).1 with
  | false => exact hbegun
  | true =>
      have hprocessed : (s.without (supply 0)).processed messageId = false := by
        simpa [answer, respond] using hfirst
      have hkept : (supply 1).refused = true ∨
          (s.createOnce id { messageId, userId := userId.id, createdAt }).1 = none := by
        by_contra hstored
        rw [not_or, Bool.not_eq_true, ← ne_eq, ← Option.isSome_iff_ne_none] at hstored
        exact h ⟨hprocessed, hstored⟩
      rw [if_pos rfl, persistOrScheduleRetry, Program.bind_assoc, leaves_ask_bind]
      have hcreation := forgets_createOnce (s := (answer (supply 0) (.setProcessed messageId) s).2)
        (hkept.imp_right ((createOnce_congr s _ (by rfl) id _).trans ·))
      refine hbegun.trans (hcreation.trans ?_)
      cases hrefused : (supply 1).refused with
      | true =>
          have hcreated : (answer (supply 1)
              (.createOnce id { messageId, userId := userId.id, createdAt })
              (answer (supply 0) (.setProcessed messageId) s).2).1 =
                .error .foreignKeyViolation := by
            simp [answer, respond, hrefused]
          rw [hcreated]
          exact forgets_answer (supply 2) (.delProcessed messageId) _ trivial
      | false =>
          have hnone := hkept.resolve_left (by simp [hrefused])
          have hcreated : (answer (supply 1)
              (.createOnce id { messageId, userId := userId.id, createdAt })
              (answer (supply 0) (.setProcessed messageId) s).2).1 = .ok none :=
            hnone ▸ answer_createOnce hrefused s _ (by rfl) id _
          rw [hcreated]
          exact .refl _

theorem countsUnread_handle (hs : s.CountsUnread) :
    ((handle id messageId userId createdAt).leaves answer supply s).CountsUnread ↔
      s.KeepsCount (.handle id messageId userId createdAt supply) := by
  by_cases h : s.Stores id messageId userId createdAt supply
  · obtain ⟨t, hconcerns, hcount, hmet, hleaves⟩ := leaves_handle_stored h
    have hend : ∀ value, Concerns userId.id s ((t.setUnread userId value).without (supply 3)) :=
      fun value => hconcerns.trans ((concerns_setUnread t userId value).trans
        ((forgets_without _ (supply 3)).concerns userId.id))
    rw [hleaves, (hend _).countsUnread_iff hs, unread_without, countUnread_without,
      countUnread_setUnread, hcount, KeepsCount]
    by_cases hkey : userId = .canonical userId.id
    · rw [if_pos hkey, ← hkey, unread_setUnread]
      cases hgone : (supply 3).unread userId with
      | true =>
          refine iff_of_true (agrees_none _) fun _ hkept => ?_
          cases hkept
      | false =>
          have hagrees := hs.agrees_unreadAt supply 3 userId.id
          rw [← hkey] at hagrees
          rw [if_neg Bool.false_ne_true, agrees_incr hagrees]
          exact ⟨fun hincr _ _ => hincr, fun hkept => hkept h rfl⟩
    · -- the counter that is read is another one
      have hother : ∀ value, (t.setUnread userId value).unread (.canonical userId.id) =
          s.unreadAt supply 3 (.canonical userId.id) :=
        fun value => (unread_setUnread_other t (Ne.symm hkey) value).trans (hmet _)
      rw [if_neg hkey, hother]
      have hagrees := agrees_succ (hs.agrees_unreadAt supply 4 userId.id)
      refine hagrees.trans ?_
      exact ⟨fun hneg _ => hneg, fun hkept => hkept h⟩
  · refine iff_of_true ((forgets_handle h).countsUnread hs) ?_
    exact fun hstores => absurd hstores h

end Handle

/-- A notification that was unread is read, and then the counter goes down, or to 0. -/
theorem leaves_markRead_unread {userId id : Uuid} (h : s.HasUnread userId id) :
    ∃ t, Concerns userId s t ∧ t.countUnread userId + 1 = s.countUnread userId ∧
      t.unread (.canonical userId) = s.unreadAt supply 3 (.canonical userId) ∧
      (markRead userId id).leaves answer supply s =
        (t.without (supply 3)).setUnread (.canonical userId)
          (if 0 < (s.unreadAt supply 3 (.canonical userId)).getD 0 then
            some (((t.without (supply 3)).unread (.canonical userId)).getD 0 - 1)
          else some 0) := by
  obtain ⟨row, hrow, hunread⟩ := h
  have hcount := countUnread_update ⟨row, hrow, hunread⟩
  simp only [isUnreadOf, Bool.and_eq_true, decide_eq_true_eq, Bool.not_eq_true'] at hunread
  let updated := (answer (supply 1) (.update id) (s.without (supply 0))).2
  refine ⟨updated.without (supply 2), ⟨fun u _ => ?_, fun u hu => ?_⟩, ?_, rfl, ?_⟩
  · have hsame := ((s.forgets_without (supply 0)).trans (forgets_without _ (supply 1))).trans
      (forgets_without _ (supply 2))
    exact hsame.unread u
  · have hother := hcount u
    rw [if_neg hu] at hother
    exact hother
  · have hown := hcount userId
    rw [if_pos rfl] at hown
    exact hown
  · have hfound : (answer (supply 0) (.findFirst id userId) s).1 = some row := by
      change (s.notifications.get? id).filter _ = some row
      rw [hrow, Option.filter_some, if_pos (by simp [hunread.1])]
    rw [markRead, markReadRow, Program.bind_assoc, leaves_ask_bind, hfound]
    simp only [hunread.2, Bool.not_false]
    change Program.leaves answer
      (if 0 < (s.unreadAt supply 3 (.canonical userId)).getD 0 then
          ask (Statement.decr (.canonical userId))
        else ask (Statement.set (.canonical userId) 0) : Procedure Unit)
      (fun n => supply (n + 3)) (updated.without (supply 2)) = _
    split <;> rfl

theorem forgets_markRead {userId id : Uuid} (h : ¬ s.HasUnread userId id) :
    s.Forgets ((markRead userId id).leaves answer supply s) := by
  have hbegun := forgets_answer (supply 0) (.findFirst id userId) s trivial
  rw [markRead, markReadRow, Program.bind_assoc, leaves_ask_bind]
  cases hfound : (answer (supply 0) (.findFirst id userId) s).1 with
  | none => exact hbegun
  | some row =>
      obtain ⟨hrow, hown⟩ := Option.filter_eq_some_iff.mp hfound
      have hread : row.isRead = true := by
        by_contra hunread
        exact h ⟨row, hrow, by simpa [isUnreadOf, hunread] using hown⟩
      simp only [hread, Bool.not_true]
      exact hbegun

theorem countsUnread_markRead (hs : s.CountsUnread) (userId id : Uuid) :
    ((markRead userId id).leaves answer supply s).CountsUnread ↔
      s.KeepsCount (.markRead userId id supply) := by
  by_cases h : s.HasUnread userId id
  · obtain ⟨t, hconcerns, hcount, hmet, hleaves⟩ := @leaves_markRead_unread s supply userId id h
    have hend : ∀ value,
        Concerns userId s ((t.without (supply 3)).setUnread (.canonical userId) value) :=
      fun value => hconcerns.trans (((forgets_without _ (supply 3)).concerns userId).trans
        (concerns_setUnread _ (.canonical userId) value))
    rw [hleaves, (hend _).countsUnread_iff hs, unread_setUnread, countUnread_setUnread,
      countUnread_without, unread_without, hmet]
    have hcached := hs.agrees_unreadAt supply 3 userId
    rw [← hcount] at hcached
    split
    · rename_i hpos
      refine iff_of_true ?_ fun _ => .inl hpos
      cases hread : s.unreadAt supply 3 (.canonical userId) with
      | none =>
          rw [hread] at hpos
          exact absurd hpos (by simp)
      | some cached =>
          rw [hread] at hpos hcached
          exact agrees_decr hcached hpos _
    · rename_i hzero
      rw [agrees_some]
      constructor
      · intro hnone _
        right
        omega
      · intro hkept _
        have hlast := (hkept h).resolve_left hzero
        omega
  · refine iff_of_true ((forgets_markRead h).countsUnread hs) ?_
    exact fun hunread => absurd hunread h

theorem countsUnread_markAllRead (hs : s.CountsUnread) (userId : Uuid) :
    ((markAllRead userId).leaves answer supply s).CountsUnread := by
  have hupdated : Concerns userId s (answer (supply 0) (.updateMany userId) s).2 := by
    refine ((s.forgets_without (supply 0)).concerns userId).trans ⟨fun _ _ => .inr rfl, ?_⟩
    intro u hu
    refine Table.count_mapRows fun id row => ?_
    split
    · rename_i hunread
      simp only [isUnreadOf, Bool.and_eq_true, decide_eq_true_eq] at hunread
      simp [isUnreadOf, hunread.1, Ne.symm hu]
    · rfl
  have hconcerns : Concerns userId s ((markAllRead userId).leaves answer supply s) :=
    hupdated.trans (((forgets_without _ (supply 1)).concerns userId).trans
      (concerns_setUnread _ (.canonical userId) none))
  refine (hconcerns.countsUnread_iff hs).mpr ?_
  have hgone : ((markAllRead userId).leaves answer supply s).unread (.canonical userId) = none :=
    unread_setUnread _ (.canonical userId) none
  rw [hgone]
  exact agrees_none _

/-- A turn keeps the count right exactly if it takes no missing counter for 0 wrongly. -/
theorem countsUnread_turn {s' : Store} {a : Turn} (hs : s.CountsUnread) (h : s.turn a = some s') :
    s'.CountsUnread ↔ s.KeepsCount a := by
  cases a with
  | handle id messageId userId createdAt supply =>
      cases h
      exact countsUnread_handle hs
  | markRead userId id supply =>
      cases h
      exact countsUnread_markRead hs userId id
  | markAllRead userId supply =>
      cases h
      exact iff_of_true (countsUnread_markAllRead hs userId) trivial
  | getUnreadCount userId supply =>
      cases h
      exact iff_of_true
        ((forgets_leaves (only_getUnreadCount userId) s supply).countsUnread hs) trivial
  | purgeOldRead now supply =>
      cases h
      have hforgets := forgets_leaves (p := purgeOldRead now) (.ask trivial) s supply
      exact iff_of_true (hforgets.countsUnread hs) trivial
  | vanish x =>
      cases h
      exact iff_of_true ((s.forgets_without x).countsUnread hs) trivial

end Store

/-- In every sequential run, `getUnreadCount` returns the number of unread rows in every
state exactly if no missing counter is taken for 0 while the user has other unread rows. -/
theorem countsUnread_iff_keepsCount (notifications : Table Uuid NotificationRow)
    (processed : Uuid → Bool) {as : List Turn} {s : Store}
    (run : Run Store.turn { notifications, processed } as s) :
    AllStates Store.turn Store.CountsUnread { notifications, processed } as ↔
      AllSteps Store.turn Store.KeepsCount { notifications, processed } as := by
  apply allStates_iff_allSteps (I := fun _ => True) (fun _ _ _ _ _ => trivial) _ run trivial
  · exact Store.countsUnread_iff.mpr fun _ => Store.agrees_none _
  · exact fun _ _ _ _ hs hturn => Store.countsUnread_turn hs hturn

/-- User 7 receives two notifications and reads one; no key goes. -/
def readOneOfTwo : List Turn :=
  [.handle 1 10 7 0 fun _ => {}, .handle 2 11 7 0 fun _ => {}, .markRead 7 1 fun _ => {}]

theorem countsUnread_readOneOfTwo :
    AllStates Store.turn Store.CountsUnread {} readOneOfTwo := by
  obtain ⟨s, hs⟩ : ∃ s, exec Store.turn {} readOneOfTwo = some s := ⟨_, rfl⟩
  refine (countsUnread_iff_keepsCount .empty (fun _ => false) (run_of_exec hs)).mpr ?_
  refine allSteps_cons.mpr ⟨fun _ _ => rfl, fun t ht => ?_⟩
  cases ht
  refine allSteps_cons.mpr ⟨fun _ _ => (by decide : (1 : Int) ≠ -1), fun t ht => ?_⟩
  cases ht
  refine allSteps_cons.mpr ⟨fun _ => .inl (by decide), fun t ht => ?_⟩
  cases ht
  exact allSteps_nil

/-- The counter expires after two notifications, and then a third one arrives. -/
def expiredBeforeThird : List Turn :=
  [.handle 1 10 7 0 fun _ => {}, .handle 2 11 7 0 fun _ => {},
    .vanish { unread := fun key => key == 7 }, .handle 3 12 7 0 fun _ => {}]

theorem expiredBeforeThird_miscounts :
    ¬ ∀ (notifications : Table Uuid NotificationRow) (processed : Uuid → Bool) (as : List Turn)
      (s : Store), Run Store.turn { notifications, processed } as s → s.CountsUnread := by
  intro hall
  obtain ⟨s, hs⟩ : ∃ s, exec Store.turn {} expiredBeforeThird = some s := ⟨_, rfl⟩
  have hcounts := hall _ _ expiredBeforeThird s (run_of_exec hs)
  cases hs
  have hreturned := Store.countsUnread_iff.mp hcounts 7 1 rfl (by decide)
  exact absurd hreturned (by decide)

end SyncBoard.Notification
