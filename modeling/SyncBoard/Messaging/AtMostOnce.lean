import SyncBoard.Lib.Positions
import SyncBoard.Messaging.Delivery

/-!
# The effects of duplicate deliveries

A notification message may be delivered any number of times: published again, requeued,
retried, and handled by several processes at once. Its Redis key goes at any moment, so
several handlers of one message may pass `consumeOnce`; what lets one of them through is the
unique key of the row. Only the handler whose insert stored the row goes on to increment the
unread counter and to push.
-/

namespace SyncBoard.Messaging

open Labelled Positional

/-- A notification, as the unique key of `notifications` tells them apart. -/
abbrev NotificationKey := JsString × JsString

def NotificationRow.key (row : NotificationRow) : NotificationKey :=
  (row.messageId, row.userId)

def Job.key (job : Job NotificationMessagePayload) : NotificationKey :=
  (job.messageId, job.payload.userId)

/-- Record for which notification an unread counter is incremented. -/
def recordIncrements (log : List NotificationKey)
    (s : QueueState RawNotification NotificationMessagePayload NotificationStore) :
    QueueAction RawNotification → List NotificationKey
  | .resume i o =>
      match s.handlers[i]? with
      | some h => if h.phase = .incr ∧ o.applied then log ++ [h.job.key] else log
      | none => log
  | _ => log

/-- The steps of the notification queue with the history of the increments. -/
def incrementStep (call : Invocation RawNotification) :
    QueueState RawNotification NotificationMessagePayload NotificationStore ×
      List NotificationKey →
    QueueAction RawNotification →
    Option (QueueState RawNotification NotificationMessagePayload NotificationStore ×
      List NotificationKey) :=
  track (QueueState.step notificationConsumer call) recordIncrements

namespace NotificationStore

def rowsOf (store : NotificationStore) (k : NotificationKey) : Nat :=
  (store.rows.map NotificationRow.key).count k

def pushesOf (store : NotificationStore) (k : NotificationKey) : Nat :=
  (store.pushed.map NotificationRow.key).count k

end NotificationStore

/-- The handler still has to increment the counter. -/
def Phase.beforeIncr : Phase → Bool
  | .incr => true
  | _ => false

/-- The handler still has to push. -/
def Phase.beforePush : Phase → Bool
  | .incr | .expire => true
  | _ => false

/-- The handlers of a notification in certain phases. -/
def handlersOf {R : Type} (s : QueueState RawNotification NotificationMessagePayload R)
    (k : NotificationKey) (phases : Phase → Bool) : Nat :=
  s.handlers.countP fun h => decide (h.job.key = k) && phases h.phase

/-- How many handlers of a certain kind a resumption leaves for the one it resumed. -/
def Progress.handlersOf (job : Job NotificationMessagePayload) (k : NotificationKey)
    (phases : Phase → Bool) : Progress → Nat
  | .await phase => if decide (job.key = k) && phases phase then 1 else 0
  | .settled _ => 0

section Resume
variable {s : QueueState RawNotification NotificationMessagePayload NotificationStore}
  {h : Handler RawNotification NotificationMessagePayload} {i : Nat}

theorem settle_keeps (s : QueueState RawNotification NotificationMessagePayload NotificationStore)
    (h : Handler RawNotification NotificationMessagePayload) (how : Settlement) :
    (s.settle h how).handlers = s.handlers ∧ (s.settle h how).store = s.store := by
  unfold QueueState.settle
  split
  · cases how <;> exact ⟨rfl, rfl⟩
  · exact ⟨rfl, rfl⟩

theorem store_progress (p : Progress) : (s.progress i h p).store = s.store := by
  cases p with
  | await phase => rfl
  | settled how => exact (settle_keeps (s.endHandler i) h how).2

theorem handlersOf_progress (hi : s.handlers[i]? = some h) (p : Progress) (k : NotificationKey)
    (phases : Phase → Bool) :
    handlersOf (s.progress i h p) k phases +
        (if decide (h.job.key = k) && phases h.phase then 1 else 0) =
      handlersOf s k phases + p.handlersOf h.job k phases := by
  obtain ⟨l₁, l₂, hl, he, hs⟩ := exists_split hi
  cases p with
  | await phase =>
      have hset : (s.progress i h (.await phase)).handlers = l₁ ++ { h with phase := phase } :: l₂ :=
        hs _
      rw [handlersOf, handlersOf, hset, hl]
      simp only [Progress.handlersOf, List.countP_append, List.countP_cons]
      omega
  | settled how =>
      have herase : (s.progress i h (.settled how)).handlers = l₁ ++ l₂ :=
        (settle_keeps (s.endHandler i) h how).1.trans he
      rw [handlersOf, handlersOf, herase, hl]
      simp only [Progress.handlersOf, List.countP_append, List.countP_cons]
      omega

/-- An insert that is skipped leaves the table; one that is not was the first of its
notification. -/
theorem createOnce_cases (store : NotificationStore) (job : Job NotificationMessagePayload) :
    (store.createOnce (notificationRow job) = (store, false) ∧ 0 < store.rowsOf job.key) ∨
    (store.createOnce (notificationRow job) =
        ({ store with rows := store.rows ++ [notificationRow job] }, true) ∧
      store.rowsOf job.key = 0) := by
  unfold NotificationStore.createOnce
  have hany : store.rows.any (notificationRow job).conflicts = true ↔
      job.key ∈ store.rows.map NotificationRow.key := by
    rw [List.any_eq_true, List.mem_map]
    constructor
    · rintro ⟨row, hrow, hconflicts⟩
      refine ⟨row, hrow, ?_⟩
      simp only [NotificationRow.conflicts, decide_eq_true_iff] at hconflicts
      exact Prod.ext hconflicts.1.symm hconflicts.2.symm
    · rintro ⟨row, hrow, hkey⟩
      refine ⟨row, hrow, ?_⟩
      simp only [NotificationRow.conflicts, decide_eq_true_iff]
      exact ⟨(congrArg Prod.fst hkey).symm, (congrArg Prod.snd hkey).symm⟩
  split
  · next htaken => exact .inl ⟨rfl, List.count_pos_iff.mpr (hany.mp htaken)⟩
  · next hfree =>
      refine .inr ⟨rfl, List.count_eq_zero.mpr ?_⟩
      exact fun hmem => hfree (hany.mpr hmem)

theorem count_append_key (ks : List NotificationKey) (key k : NotificationKey) :
    (ks ++ [key]).count k = ks.count k + if key = k then 1 else 0 := by
  rw [List.count_append, List.count_singleton]
  simp only [beq_iff_eq]

theorem rowsOf_append (store : NotificationStore) (job : Job NotificationMessagePayload)
    (k : NotificationKey) :
    ({ store with rows := store.rows ++ [notificationRow job] } : NotificationStore).rowsOf k =
      store.rowsOf k + if job.key = k then 1 else 0 := by
  rw [NotificationStore.rowsOf, List.map_append]
  exact count_append_key _ job.key k

/-- The balance of a resumption: the increments and pushes that it makes, or leaves its
handler to make, are those that the handler had to make before, and one for the row that the
resumption stored. A notification has one row at most. -/
structure Balanced (h : Handler RawNotification NotificationMessagePayload) (k : NotificationKey)
    (store : NotificationStore) (log : List NotificationKey) (store' : NotificationStore)
    (p : Progress) (log' : List NotificationKey) : Prop where
  rows : store'.rowsOf k = store.rowsOf k ∨ store.rowsOf k = 0 ∧ store'.rowsOf k = 1
  increments : p.handlersOf h.job k Phase.beforeIncr + log'.count k + store.rowsOf k ≤
    (if decide (h.job.key = k) && h.phase.beforeIncr then 1 else 0) + log.count k +
      store'.rowsOf k
  pushes : p.handlersOf h.job k Phase.beforePush + store'.pushesOf k + store.rowsOf k ≤
    (if decide (h.job.key = k) && h.phase.beforePush then 1 else 0) + store.pushesOf k +
      store'.rowsOf k

variable {k : NotificationKey} {log : List NotificationKey} {o : Outcome}

/-- Nothing is written, and the handler goes on to no effect. -/
theorem balanced_quiet {store store' : NotificationStore} {p : Progress} (hstore : store' = store)
    (hincr : p ≠ .await .incr) (hexpire : p ≠ .await .expire) :
    Balanced h k store log store' p log := by
  subst hstore
  have hnone : p.handlersOf h.job k Phase.beforeIncr = 0 ∧
      p.handlersOf h.job k Phase.beforePush = 0 := by
    cases p with
    | settled how => exact ⟨rfl, rfl⟩
    | await phase => cases phase <;> simp_all [Progress.handlersOf, Phase.beforeIncr, Phase.beforePush]
  refine ⟨.inl rfl, ?_, ?_⟩ <;> omega

theorem handlersOf_le (p : Progress) (job : Job NotificationMessagePayload) (phases : Phase → Bool) :
    p.handlersOf job k phases ≤ if job.key = k then 1 else 0 := by
  cases p with
  | settled how => exact Nat.zero_le _
  | await phase =>
      by_cases hk : job.key = k <;> simp only [Progress.handlersOf, hk]
      · split <;> simp
      · simp

/-- The row is stored: its handler may go on to one increment and to one push. -/
theorem balanced_stored {store : NotificationStore} (hfirst : store.rowsOf h.job.key = 0)
    (p : Progress) : Balanced h k store log
      { store with rows := store.rows ++ [notificationRow h.job] } p log := by
  have hrows := rowsOf_append store h.job k
  have hincr := handlersOf_le (k := k) p h.job Phase.beforeIncr
  have hpush := handlersOf_le (k := k) p h.job Phase.beforePush
  constructor
  · by_cases hk : h.job.key = k
    · subst hk
      rw [if_pos rfl, hfirst] at hrows
      exact .inr ⟨hfirst, hrows⟩
    · rw [if_neg hk] at hrows
      exact .inl hrows
  · omega
  · change p.handlersOf h.job k Phase.beforePush + store.pushesOf k + store.rowsOf k ≤ _
    omega

theorem balanced_incremented {store : NotificationStore} (hphase : h.phase = .incr) :
    Balanced h k store log (notificationConsumer.bumpUnreadCounter h.job store) (.await .expire)
      (log ++ [h.job.key]) := by
  have hcount := count_append_key log h.job.key k
  refine ⟨.inl rfl, ?_, ?_⟩
  · change _ + store.rowsOf k ≤ _ + store.rowsOf k
    simp [Progress.handlersOf, Phase.beforeIncr, hphase, hcount]
    omega
  · change _ + store.pushesOf k + store.rowsOf k ≤ _ + store.pushesOf k + store.rowsOf k
    simp [Progress.handlersOf, Phase.beforePush, hphase]

/-- The handler ends with its push, whether or not the increment before it took effect. -/
theorem balanced_pushed {store store' : NotificationStore} {how : Settlement}
    {log' : List NotificationKey} (hrows : store'.rows = store.rows)
    (hpushed : store'.pushed = store.pushed ++ [notificationRow h.job])
    (hphase : h.phase.beforePush = true)
    (hlog : log'.count k ≤ log.count k +
      if decide (h.job.key = k) && h.phase.beforeIncr then 1 else 0) :
    Balanced h k store log store' (.settled how) log' := by
  have hrowsOf : store'.rowsOf k = store.rowsOf k := by
    rw [NotificationStore.rowsOf, hrows, NotificationStore.rowsOf]
  have hpushesOf : store'.pushesOf k = store.pushesOf k + if h.job.key = k then 1 else 0 := by
    rw [NotificationStore.pushesOf, hpushed, List.map_append]
    exact count_append_key _ h.job.key k
  refine ⟨.inl hrowsOf, ?_, ?_⟩
  · change 0 + _ + _ ≤ _
    omega
  · change 0 + _ + _ ≤ _
    simp only [hphase, Bool.and_true, decide_eq_true_iff]
    omega

theorem balance_resume (hi : s.handlers[i]? = some h) :
    Balanced h k s.store log (notificationConsumer.resume s h o).1.store
      (notificationConsumer.resume s h o).2 (recordIncrements log s (.resume i o)) := by
  have hlog : recordIncrements log s (.resume i o) =
      if h.phase = .incr ∧ o.applied then log ++ [h.job.key] else log := by
    simp only [recordIncrements, hi]
  rw [hlog]
  cases hphase : h.phase with
  | consumeOnce =>
      rw [if_neg (by simp)]
      simp only [Consumer.resume, hphase]
      apply balanced_quiet
      · split
        · unfold QueueState.claimKey
          split <;> rfl
        · rfl
      all_goals
        unfold Consumer.claimed
        split <;> simp
        split <;> simp
  | releaseKey =>
      rw [if_neg (by simp)]
      simp only [Consumer.resume, hphase]
      apply balanced_quiet
      · split <;> rfl
      all_goals
        rcases notificationConsumer.retryOrDeadLetter_cases h.raw (s.connected h.process) with
          ⟨retry, hr⟩ | ⟨hr, -⟩ | hr <;> simp [hr]
  | assertQueue retry =>
      rw [if_neg (by simp)]
      simp only [Consumer.resume, hphase]
      apply balanced_quiet rfl <;> split <;> simp
  | sendToQueue retry =>
      rw [if_neg (by simp)]
      simp only [Consumer.resume, hphase]
      apply balanced_quiet
      · split <;> rfl
      all_goals simp
  | work =>
      rw [if_neg (by simp)]
      simp only [Consumer.resume, hphase]
      change Balanced h k s.store log
        ((if o.applied = true then
          s.mapStore fun r => (r.createOnce (notificationRow h.job)).1 else s).store)
        (if o = .resolved then
          if (s.store.createOnce (notificationRow h.job)).2 then .await .incr else .settled .ack
        else .await .releaseKey) log
      rcases createOnce_cases s.store h.job with ⟨hskipped, -⟩ | ⟨hstored, hfirst⟩
      · apply balanced_quiet
        · cases o <;> simp [Outcome.applied, QueueState.mapStore, hskipped]
        all_goals
          rw [hskipped]
          cases o <;> simp
      · cases o with
        | rejected => exact balanced_quiet rfl (by simp) (by simp)
        | resolved | unanswered =>
            simp only [Outcome.applied, if_true, QueueState.mapStore, hstored]
            exact balanced_stored hfirst _
  | incr =>
      simp only [Consumer.resume, hphase]
      cases o with
      | resolved => exact balanced_incremented hphase
      | rejected =>
          exact balanced_pushed rfl rfl (by rw [hphase]; rfl) (Nat.le_add_right _ _)
      | unanswered =>
          refine balanced_pushed ?_ ?_ (by rw [hphase]; rfl) ?_
          · rfl
          · rfl
          rw [if_pos (by simp [Outcome.applied]), count_append_key]
          simp [hphase, Phase.beforeIncr]
  | expire =>
      rw [if_neg (by simp)]
      simp only [Consumer.resume, hphase]
      exact balanced_pushed rfl rfl (by rw [hphase]; rfl) (Nat.le_add_right _ _)

theorem increments_resume :
    (notificationConsumer.resume s h o).1.store.increments = s.store.increments ++
      if h.phase = .incr ∧ o.applied then [h.job.payload.userId] else [] := by
  cases hphase : h.phase with
  | incr =>
      simp only [Consumer.resume, hphase]
      cases o
      · rfl
      · exact (List.append_nil _).symm
      · rfl
  | work =>
      rw [if_neg (by simp), List.append_nil]
      simp only [Consumer.resume, hphase]
      split
      · change (s.store.createOnce (notificationRow h.job)).1.increments = _
        rcases createOnce_cases s.store h.job with ⟨hskipped, -⟩ | ⟨hstored, -⟩
        · rw [hskipped]
        · rw [hstored]
      · rfl
  | consumeOnce =>
      rw [if_neg (by simp), List.append_nil]
      simp only [Consumer.resume, hphase]
      split
      · unfold QueueState.claimKey
        split <;> rfl
      · rfl
  | releaseKey | sendToQueue =>
      rw [if_neg (by simp), List.append_nil]
      simp only [Consumer.resume, hphase]
      split <;> rfl
  | assertQueue =>
      rw [if_neg (by simp), List.append_nil]
      simp only [Consumer.resume, hphase]
  | expire =>
      rw [if_neg (by simp), List.append_nil]
      simp only [Consumer.resume, hphase]
      rfl

end Resume

/-- The increments and pushes made for a notification, and those that handlers still have to
make, are as many as it has rows at most, and that is one. -/
structure EffectsBacked (k : NotificationKey)
    (p : QueueState RawNotification NotificationMessagePayload NotificationStore ×
      List NotificationKey) : Prop where
  rows : p.1.store.rowsOf k ≤ 1
  increments : handlersOf p.1 k Phase.beforeIncr + p.2.count k ≤ p.1.store.rowsOf k
  pushes : handlersOf p.1 k Phase.beforePush + p.1.store.pushesOf k ≤ p.1.store.rowsOf k

section Runs
variable {call : Invocation RawNotification}
  {s s' : QueueState RawNotification NotificationMessagePayload NotificationStore}
  {log log' : List NotificationKey} {k : NotificationKey}

/-- The store is left alone, and no handler reaches an effect. -/
theorem EffectsBacked.of_fewer (he : EffectsBacked k (s, log)) (hstore : s'.store = s.store)
    (hhandlers : ∀ phases : Phase → Bool, phases .consumeOnce = false →
      handlersOf s' k phases ≤ handlersOf s k phases) : EffectsBacked k (s', log) := by
  obtain ⟨hrows, hincrements, hpushes⟩ := he
  have hincr := hhandlers Phase.beforeIncr rfl
  have hpush := hhandlers Phase.beforePush rfl
  constructor
  · rw [hstore]
    exact hrows
  · rw [hstore]
    exact (Nat.add_le_add_right hincr _).trans hincrements
  · rw [hstore]
    exact (Nat.add_le_add_right hpush _).trans hpushes

theorem EffectsBacked.resume (he : EffectsBacked k (s, log)) {i : Nat}
    {h : Handler RawNotification NotificationMessagePayload} (hi : s.handlers[i]? = some h)
    (o : Outcome) :
    EffectsBacked k ((notificationConsumer.resume s h o).1.progress i h
      (notificationConsumer.resume s h o).2, recordIncrements log s (.resume i o)) := by
  obtain ⟨hrows, hincrements, hpushes⟩ := he
  have hbalance : Balanced h k s.store log (notificationConsumer.resume s h o).1.store
      (notificationConsumer.resume s h o).2 (recordIncrements log s (.resume i o)) :=
    balance_resume hi
  obtain ⟨hrows', hincr, hpush⟩ := hbalance
  have hsame : (notificationConsumer.resume s h o).1.handlers = s.handlers := advance_resume.handlers
  have hi' : (notificationConsumer.resume s h o).1.handlers[i]? = some h := hsame.symm ▸ hi
  have hcount : ∀ phases, handlersOf (notificationConsumer.resume s h o).1 k phases =
      handlersOf s k phases := by
    intro phases
    rw [handlersOf, handlersOf, hsame]
  have hbefore := handlersOf_progress hi' (notificationConsumer.resume s h o).2 k Phase.beforeIncr
  have hafter := handlersOf_progress hi' (notificationConsumer.resume s h o).2 k Phase.beforePush
  rw [hcount] at hbefore hafter
  simp only at hrows hincrements hpushes
  constructor
  · simp only [store_progress]
    omega
  · simp only [store_progress]
    omega
  · simp only [store_progress]
    omega

theorem EffectsBacked.step
    {p p' : QueueState RawNotification NotificationMessagePayload NotificationStore ×
      List NotificationKey} {a : QueueAction RawNotification} (he : EffectsBacked k p)
    (h : incrementStep call p a = some p') : EffectsBacked k p' := by
  obtain ⟨s, log⟩ := p
  obtain ⟨s', log'⟩ := p'
  obtain ⟨hstep, rfl⟩ := track_eq_some.mp h
  cases a with
  | publish e =>
      cases hstep
      exact he.of_fewer rfl fun _ _ => le_refl _
  | deliver i process =>
      simp only [QueueState.step] at hstep
      split at hstep
      · obtain ⟨e, -, rfl⟩ := Option.map_eq_some_iff.mp hstep
        apply he.of_fewer
        · unfold QueueState.deliver
          split <;> rfl
        · intro phases hphases
          unfold QueueState.deliver
          split
          · exact le_refl _
          · -- a new handler is at its first await
            simp [handlersOf, QueueState.takeReady, hphases]
      · cases hstep
  | resume i o =>
      obtain ⟨h, hi, rfl⟩ := Option.map_eq_some_iff.mp hstep
      exact he.resume hi o
  | retryDelayOver i =>
      obtain ⟨w, -, rfl⟩ := Option.map_eq_some_iff.mp hstep
      exact he.of_fewer rfl fun _ _ => le_refl _
  | keyExpires messageId =>
      cases hstep
      exact he.of_fewer rfl fun _ _ => le_refl _
  | connect process =>
      cases hstep
      exact he.of_fewer rfl fun _ _ => le_refl _
  | disconnect process =>
      cases hstep
      refine he.of_fewer (by rfl) fun phases _ => ?_
      change List.countP _ (s.handlers.map _) ≤ List.countP _ s.handlers
      rw [List.countP_map]
      apply le_of_eq
      apply List.countP_congr
      intro h _
      simp only [Function.comp_apply]
      split <;> rfl
  | crash process =>
      cases hstep
      exact he.of_fewer rfl fun _ _ => List.filter_sublist.countP_le

/-- The history names the users whose counters the store has seen incremented. -/
theorem increments_eq_log {actions : List (QueueAction RawNotification)}
    (run : Run (incrementStep call) ({ store := {} }, []) actions (s, log)) :
    s.store.increments = log.map Prod.snd := by
  refine run.invariant (I := fun p => p.1.store.increments = p.2.map Prod.snd) ?_ rfl
  rintro ⟨s, log⟩ a ⟨s', log'⟩ he h
  obtain ⟨hstep, rfl⟩ := track_eq_some.mp h
  simp only at he hstep ⊢
  cases a with
  | deliver i process =>
      simp only [QueueState.step] at hstep
      split at hstep
      · obtain ⟨e, -, rfl⟩ := Option.map_eq_some_iff.mp hstep
        change _ = log.map Prod.snd
        rw [← he]
        unfold QueueState.deliver
        split <;> rfl
      · cases hstep
  | resume i o =>
      obtain ⟨h, hi, rfl⟩ := Option.map_eq_some_iff.mp hstep
      simp only [store_progress, recordIncrements, hi, increments_resume, he]
      split
      · rw [List.map_append]
        rfl
      · rw [List.append_nil]
  | retryDelayOver i =>
      obtain ⟨w, -, rfl⟩ := Option.map_eq_some_iff.mp hstep
      exact he
  | publish | keyExpires | connect | disconnect | crash =>
      cases hstep
      exact he

/-- However often a notification message is delivered, and whatever becomes of its Redis key
in the meantime, there is at most one row of it, its unread counter is incremented at most
once and it is pushed at most once. -/
theorem atMostOnce {actions : List (QueueAction RawNotification)}
    (run : Run (incrementStep call) ({ store := {} }, []) actions (s, log)) :
    s.store.increments = log.map Prod.snd ∧ ∀ messageId userId : JsString,
      s.store.rowsOf (messageId, userId) ≤ 1 ∧ log.count (messageId, userId) ≤ 1 ∧
        s.store.pushesOf (messageId, userId) ≤ 1 := by
  refine ⟨increments_eq_log run, fun messageId userId => ?_⟩
  have he : EffectsBacked (messageId, userId) (s, log) := by
    apply run.invariant (fun _ _ _ ht h => ht.step h)
    exact ⟨Nat.zero_le _, Nat.zero_le _, Nat.zero_le _⟩
  obtain ⟨hrows, hincrements, hpushes⟩ := he
  simp only at hrows hincrements hpushes
  omega

end Runs

/-- The labels of a message that is published twice; its key goes after the first handler has
passed `consumeOnce`, and a second process takes the other copy. -/
def deliveredTwice (e : Envelope RawNotification) : List (QueueAction RawNotification) :=
  [.publish e, .publish e, .connect 0, .connect 1, .deliver 0 0, .resume 0 .resolved,
    .keyExpires (js "m1"), .deliver 0 1, .resume 1 .resolved, .resume 0 .resolved,
    .resume 1 .resolved, .resume 0 .resolved, .resume 0 .resolved]

theorem atMostOnce_deliveredTwice :
    ∃ s log, Run (incrementStep (subscriberCall _)) ({ store := {} }, [])
        (deliveredTwice sampleNotification) (s, log) ∧
      s.handlers.length = 0 ∧ s.store.pushed.length = 1 ∧
      ∀ messageId userId : JsString, s.store.rowsOf (messageId, userId) ≤ 1 ∧
        log.count (messageId, userId) ≤ 1 ∧ s.store.pushesOf (messageId, userId) ≤ 1 := by
  obtain ⟨⟨s, log⟩, hs⟩ : ∃ p, exec (incrementStep (subscriberCall _)) ({ store := {} }, [])
      (deliveredTwice sampleNotification) = some p := ⟨_, rfl⟩
  refine ⟨s, log, run_of_exec hs, ?_, ?_, (atMostOnce (run_of_exec hs)).2⟩
  · cases hs
    rfl
  · cases hs
    rfl

end SyncBoard.Messaging
