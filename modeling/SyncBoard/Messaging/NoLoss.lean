import SyncBoard.Messaging.Delivery
import SyncBoard.Lib.Positions

/-!
# Messages that disappear

A message that the broker accepted is in the queue, in a wait queue or in the
dead-letter queue until its work is done. A handler claims the idempotency key
of its message before the work. Where the key outlives a handler that did not
do the work, the next delivery is taken for a duplicate and acknowledged.
`messagesKept_iff` says that messages disappear in this way only, apart from
consumers that are switched off and templates that do not exist.
-/

namespace SyncBoard.Messaging

open Labelled Positional

variable {Q P R : Type}

/-- The queue holds the message: for delivery, or delivered and not settled. -/
def Queued (s : QueueState Q P R) (msg : Option (DomainMessage Q)) : Prop :=
  (∃ e ∈ s.ready, e.message = msg) ∨ ∃ h ∈ s.handlers, h.unacked ∧ h.delivery.message = msg

def Kept (c : Consumer Q P R) (s : QueueState Q P R) (msg : Option (DomainMessage Q))
    (job : Job P) : Prop :=
  Queued s msg ∨ c.done job s.store ∨ Parked s msg

/-- Once the queue holds a well-formed message no more, its work is done or the
message is parked. -/
def MessagesKept (c : Consumer Q P R) (s : QueueState Q P R) : Prop :=
  ∀ msg ∈ s.accepted, ∀ job, c.validate msg = some job → ¬ Queued s msg →
    c.done job s.store ∨ Parked s msg

/-- A delivery that is acknowledged without work, because its handler returns
early or its consumer is disabled, is not the last that is left of its message. -/
def SkipsCopiesOnly (c : Consumer Q P R) (s : QueueState Q P R) : QueueAction Q → Prop
  | .deliver i _ =>
      c.isEnabled = false → ∀ e job, s.ready[i]? = some e → c.validate e.message = some job →
        Kept c (s.takeReady i) e.message job
  | .resume i o =>
      ∀ h, s.handlers[i]? = some h → h.unacked → ReturnsEarly c s h o →
        Kept c (s.endHandler i) h.delivery.message h.job
  | _ => True

variable {c : Consumer Q P R} {call : Invocation Q} {s s' t : QueueState Q P R}
variable {msg : Option (DomainMessage Q)} {job : Job P} {h : Handler Q P} {o : Outcome} {i : Nat}

theorem messagesKept_iff_kept :
    MessagesKept c s ↔ ∀ msg ∈ s.accepted, ∀ job, c.validate msg = some job → Kept c s msg job := by
  unfold MessagesKept Kept
  refine forall₂_congr fun msg _ => forall₂_congr fun job _ => ?_
  exact or_iff_not_imp_left.symm

theorem Kept.advance (hk : Kept c s msg job) (ha : Advance c s h s') : Kept c s' msg job := by
  rcases hk with hq | hd | hw | hx
  · left
    unfold Queued
    rwa [ha.ready, ha.handlers]
  · exact .inr (.inl (ha.done job hd))
  · obtain ⟨w, hw, hmsg⟩ := hw
    obtain ⟨ws, hws, -⟩ := ha.waiting
    exact .inr (.inr (.inl ⟨w, hws ▸ List.mem_append_left _ hw, hmsg⟩))
  · right; right; right
    rwa [ha.dlx]

/-- Only an acknowledgement takes the last copy of a message out of the queue. -/
theorem Kept.progress (hk : Kept c s msg job) (hi : s.handlers[i]? = some h) {p : Progress}
    (hp : p = .settled .ack → h.unacked → h.delivery.message = msg →
      Kept c (s.endHandler i) msg job) :
    Kept c (s.progress i h p) msg job := by
  cases p with
  | await phase =>
      rcases hk with (hr | ⟨h', hh', hu, hmsg⟩) | hrest
      · exact .inl (.inl hr)
      · left; right
        rcases eq_or_mem_set hi hh' { h with phase := phase } with rfl | hh'
        · exact ⟨_, List.mem_set (List.getElem?_eq_some_iff.mp hi).1 _, hu, hmsg⟩
        · exact ⟨h', hh', hu, hmsg⟩
      · exact .inr hrest
  | settled how =>
      have hrest : h.unacked → h.delivery.message = msg ∨ Kept c (s.endHandler i) msg job := by
        intro _
        rcases hk with (hr | ⟨h', hh', hu, hmsg⟩) | hrest
        · exact .inr (.inl (.inl hr))
        · rcases eq_or_mem_eraseIdx hi hh' with rfl | hh'
          · exact .inl hmsg
          · exact .inr (.inl (.inr ⟨h', hh', hu, hmsg⟩))
        · exact .inr (.inr hrest)
      simp only [QueueState.progress, QueueState.settle]
      split
      · next hu =>
          cases how with
          | ack =>
              rcases hrest hu with hmsg | hk
              · exact hp rfl hu hmsg
              · exact hk
          | nack =>
              rcases hrest hu with hmsg | hq | hd | hw | ⟨e, he, hx⟩
              · exact .inr (.inr (.inr ⟨_, List.mem_append_right _ (List.mem_singleton_self _), hmsg⟩))
              · exact .inl hq
              · exact .inr (.inl hd)
              · exact .inr (.inr (.inl hw))
              · exact .inr (.inr (.inr ⟨e, List.mem_append_left _ he, hx⟩))
          | requeue =>
              rcases hrest hu with hmsg | (⟨e, he, hr⟩ | hh) | hrest
              · exact .inl (.inl ⟨_, List.mem_append_right _ (List.mem_singleton_self _), hmsg⟩)
              · exact .inl (.inl ⟨e, List.mem_append_left _ he, hr⟩)
              · exact .inl (.inr hh)
              · exact .inr hrest
      · next hu =>
          rcases hk with (hr | ⟨h', hh', hu', hmsg⟩) | hrest
          · exact .inl (.inl hr)
          · rcases eq_or_mem_eraseIdx hi hh' with rfl | hh'
            · exact absurd hu' hu
            · exact .inl (.inr ⟨h', hh', hu', hmsg⟩)
          · exact .inr hrest

theorem Kept.deliver (hk : Kept c s msg job) (hjob : c.validate msg = some job)
    {process : Nat} {e : Envelope Q} (hi : s.ready[i]? = some e)
    (hskip : c.isEnabled = false → e.message = msg → Kept c (s.takeReady i) msg job) :
    Kept c ((s.takeReady i).deliver c call process e) msg job := by
  have htake : e.message = msg ∨ Kept c (s.takeReady i) msg job := by
    rcases hk with (⟨e', he', hmsg⟩ | hh) | hrest
    · rcases eq_or_mem_eraseIdx hi he' with rfl | he'
      · exact .inl hmsg
      · exact .inr (.inl (.inl ⟨e', he', hmsg⟩))
    · exact .inr (.inl (.inr hh))
    · exact .inr (.inr hrest)
  unfold QueueState.deliver
  cases hstart : c.start (call.args e) with
  | none =>
      rcases htake with hmsg | hk
      · exact hskip (start_eq_none hstart (by rwa [hmsg])) hmsg
      · exact hk
  | some job' =>
      rcases htake with hmsg | (hr | ⟨h, hh, hu, hmsg⟩) | hrest
      · exact .inl (.inr ⟨_, List.mem_append_right _ (List.mem_singleton_self _), rfl, hmsg⟩)
      · exact .inl (.inl hr)
      · exact .inl (.inr ⟨h, List.mem_append_left _ hh, hu, hmsg⟩)
      · exact .inr hrest

/-- Messages of a process that goes are back in the queue. -/
theorem Queued.of_requeue (hq : Queued s msg) {process : Nat}
    (hready : s'.ready = s.ready ++ s.requeueOf process)
    (hstay : ∀ h ∈ s.handlers, h.process ≠ process → h ∈ s'.handlers) : Queued s' msg := by
  rcases hq with ⟨e, he, hmsg⟩ | ⟨h, hh, hu, hmsg⟩
  · exact .inl ⟨e, hready ▸ List.mem_append_left _ he, hmsg⟩
  · by_cases hp : h.process = process
    · refine .inl ⟨h.delivery, ?_, hmsg⟩
      rw [hready]
      exact List.mem_append_right _ (mem_requeueOf.mpr ⟨h, hh, ⟨hp, hu⟩, rfl⟩)
    · exact .inr ⟨h, hstay h hh hp, hu, hmsg⟩

theorem Kept.crash (hk : Kept c s msg job) (process : Nat) : Kept c (s.crash process) msg job := by
  apply hk.imp_left
  intro hq
  apply hq.of_requeue rfl
  intro h hh hp
  simpa [QueueState.crash, hp] using hh

theorem Kept.disconnect (hk : Kept c s msg job) (process : Nat) :
    Kept c (s.disconnect process) msg job := by
  apply hk.imp_left
  intro hq
  apply hq.of_requeue rfl
  intro h hh hp
  exact List.mem_map.mpr ⟨h, hh, if_neg hp⟩

/-- The resumed handler keeps the message, unless it acknowledges it unkept. -/
theorem Kept.resume (hs : Sound c s) (hk : Kept c s msg job) (hjob : c.validate msg = some job)
    (hi : s.handlers[i]? = some h)
    (hskip : h.unacked → ReturnsEarly c s h o → h.delivery.message = msg →
      Kept c (s.endHandler i) msg job) :
    Kept c ((c.resume s h o).1.progress i h (c.resume s h o).2) msg job := by
  have hh := List.mem_of_getElem? hi
  have ha : Advance c s h (c.resume s h o).1 := advance_resume
  apply (hk.advance ha).progress (by rwa [ha.handlers])
  intro hack hu hmsg
  have hj : h.job = job := by
    have := hs.job h hh
    rw [hmsg, hjob] at this
    exact (Option.some.inj this).symm
  rcases resume_ack (hs.phase h hh) hack with he | hd | hpark | hconn
  · obtain ⟨-, hw, hst⟩ := resume_returnsEarly he
    rcases hskip hu he hmsg with hq | hd | hpark
    · left
      unfold Queued QueueState.endHandler
      rwa [ha.ready, ha.handlers]
    · right; left
      unfold QueueState.endHandler
      rwa [hst]
    · right; right
      unfold Parked QueueState.endHandler
      rwa [hw, ha.dlx]
  · exact .inr (.inl (hj ▸ hd))
  · exact .inr (.inr (hmsg ▸ hpark))
  · rw [hs.linked h hh hu] at hconn
    cases hconn

/-- An early return leaves of a message what there is besides its delivery. -/
theorem kept_endHandler_of_returnsEarly (hu : h.unacked = true) (he : ReturnsEarly c s h o)
    (hk : Kept c ((c.resume s h o).1.progress i h (c.resume s h o).2) msg job) :
    Kept c (s.endHandler i) msg job := by
  have ha : Advance c s h (c.resume s h o).1 := advance_resume
  obtain ⟨hack, hw, hst⟩ := resume_returnsEarly he
  rw [hack] at hk
  simp only [QueueState.progress, QueueState.settle, hu, if_true] at hk
  unfold Kept Queued Parked QueueState.endHandler at hk ⊢
  rwa [ha.ready, ha.handlers, ha.dlx, hw, hst] at hk

/-- One step loses no message exactly when it skips copies only. -/
theorem messagesKept_step (hs : Sound c s) (hn : MessagesKept c s) {a : QueueAction Q}
    (h : s.step c call a = some t) : MessagesKept c t ↔ SkipsCopiesOnly c s a := by
  rw [messagesKept_iff_kept] at hn ⊢
  cases a with
  | publish e =>
      cases h
      refine iff_of_true (fun msg hmsg job hjob => ?_) trivial
      rcases List.mem_append.mp hmsg with hmsg | hmsg
      · rcases hn msg hmsg job hjob with (⟨e', he', heq⟩ | hh) | hrest
        · exact .inl (.inl ⟨e', List.mem_append_left _ he', heq⟩)
        · exact .inl (.inr hh)
        · exact .inr hrest
      · rw [List.mem_singleton.mp hmsg]
        exact .inl (.inl ⟨e, List.mem_append_right _ (List.mem_singleton_self _), rfl⟩)
  | deliver i process =>
      simp only [QueueState.step] at h
      split at h
      · obtain ⟨e, hi, rfl⟩ := Option.map_eq_some_iff.mp h
        constructor
        · intro hk hoff e' job he' hjob
          obtain rfl : e = e' := Option.some.inj (hi.symm.trans he')
          have hstart : c.start (call.args e) = none := by simp [Consumer.start, hoff]
          simp only [QueueState.deliver, hstart] at hk
          exact hk e.message (hs.ready e (List.mem_of_getElem? hi)) job hjob
        · intro hg msg hmsg job hjob
          have hmsg' : msg ∈ s.accepted := by
            unfold QueueState.deliver at hmsg
            split at hmsg <;> exact hmsg
          apply (hn msg hmsg' job hjob).deliver hjob hi
          rintro hoff rfl
          exact hg hoff e job hi hjob
      · cases h
  | resume i o =>
      obtain ⟨h', hi, rfl⟩ := Option.map_eq_some_iff.mp h
      have hh := List.mem_of_getElem? hi
      have ha : Advance c s h' (c.resume s h' o).1 := advance_resume
      have haccepted : ((c.resume s h' o).1.progress i h' (c.resume s h' o).2).accepted =
          s.accepted := by
        rw [← ha.accepted]
        unfold QueueState.progress QueueState.settle
        split
        · rfl
        · split
          · split <;> rfl
          · rfl
      constructor
      · intro hk h'' hi' hu he
        obtain rfl : h' = h'' := Option.some.inj (hi.symm.trans hi')
        apply kept_endHandler_of_returnsEarly hu he
        exact hk _ (haccepted ▸ hs.delivered h' hh) _ (hs.job h' hh)
      · intro hg msg hmsg job hjob
        apply (hn msg (haccepted ▸ hmsg) job hjob).resume hs hjob hi
        rintro hu he rfl
        have hj : h'.job = job := Option.some.inj ((hs.job h' hh).symm.trans hjob)
        exact hj ▸ hg h' hi hu he
  | retryDelayOver i =>
      obtain ⟨w, hi, rfl⟩ := Option.map_eq_some_iff.mp h
      refine iff_of_true (fun msg hmsg job hjob => ?_) trivial
      rcases hn msg hmsg job hjob with (⟨e, he, heq⟩ | hh) | hd | ⟨w', hw', heq⟩ | hx
      · exact .inl (.inl ⟨e, List.mem_append_left _ he, heq⟩)
      · exact .inl (.inr hh)
      · exact .inr (.inl hd)
      · rcases eq_or_mem_eraseIdx hi hw' with rfl | hw'
        · exact .inl (.inl ⟨_, List.mem_append_right _ (List.mem_singleton_self _), heq⟩)
        · exact .inr (.inr (.inl ⟨w', hw', heq⟩))
      · exact .inr (.inr (.inr hx))
  | keyExpires id =>
      cases h
      exact iff_of_true hn trivial
  | connect process =>
      cases h
      exact iff_of_true hn trivial
  | disconnect process =>
      cases h
      exact iff_of_true (fun msg hmsg job hjob => (hn msg hmsg job hjob).disconnect process) trivial
  | crash process =>
      cases h
      exact iff_of_true (fun msg hmsg job hjob => (hn msg hmsg job hjob).crash process) trivial

/-- Over every run, from an empty queue, well-formed messages disappear exactly
through deliveries that are skipped although no copy is left. -/
theorem messagesKept_iff (c : Consumer Q P R) (call : Invocation Q) (store : R)
    {labels : List (QueueAction Q)} (run : Run (QueueState.step c call) { store } labels t) :
    AllStates (QueueState.step c call) (MessagesKept c) { store } labels ↔
      AllSteps (QueueState.step c call) (SkipsCopiesOnly c) { store } labels := by
  apply allStates_iff_allSteps (I := Sound c) _ _ run (sound_empty store)
  · intro msg hmsg
    simp at hmsg
  · exact fun _ _ _ hs h => hs.step h
  · exact fun _ _ _ hs hn h => messagesKept_step hs hn h

/-- The labels of a message that is delivered and worked off. -/
def workedOff (e : Envelope Q) : List (QueueAction Q) :=
  [.publish e, .connect 0, .deliver 0 0, .resume 0 .resolved, .resume 0 .resolved]

theorem messagesKept_iff_workedOff :
    (AllStates (QueueState.step notificationConsumer (subscriberCall _))
        (MessagesKept notificationConsumer) { store := {} } (workedOff sampleNotification) ↔
      AllSteps (QueueState.step notificationConsumer (subscriberCall _))
        (SkipsCopiesOnly notificationConsumer) { store := {} } (workedOff sampleNotification)) ∧
    (AllStates (QueueState.step (emailConsumer {}) (subscriberCall _))
        (MessagesKept (emailConsumer {})) { store := [] } (workedOff sampleEmail) ↔
      AllSteps (QueueState.step (emailConsumer {}) (subscriberCall _))
        (SkipsCopiesOnly (emailConsumer {})) { store := [] } (workedOff sampleEmail)) :=
  ⟨messagesKept_iff notificationConsumer _ {} (run_of_exec rfl),
    messagesKept_iff (emailConsumer {}) _ [] (run_of_exec rfl)⟩

/-- The labels of a process that crashes after it claimed the key of a message. -/
def crashAfterClaim (e : Envelope Q) : List (QueueAction Q) :=
  [.publish e, .connect 0, .deliver 0 0, .resume 0 .resolved, .crash 0, .connect 0,
    .deliver 0 0, .resume 0 .resolved]

/-- The crash of a process after `consumeOnce` loses every message whose handler makes a call. -/
theorem exec_crashAfterClaim (c : Consumer Q P R) (call : Invocation Q) (store : R)
    {e : Envelope Q} (henabled : c.isEnabled = true) (hjob : c.validate e.message = some job)
    (hworks : c.works job = true) :
    exec (QueueState.step c call) { store } (crashAfterClaim e) =
      some
        { accepted := [e.message]
          keys := [job.messageId]
          store
          connected := Function.update (fun _ => false) 0 true } := by
  have hstart : c.start (call.args e) = some job := (start_of_enabled henabled e).trans hjob
  simp [exec, crashAfterClaim, QueueState.step, QueueState.takeReady, QueueState.deliver, hstart,
    Consumer.resume, Consumer.claimed, hworks, Outcome.applied, QueueState.claimKey,
    QueueState.progress, QueueState.crash, QueueState.requeueOf, QueueState.endHandler,
    QueueState.settle]

/-- So the two consumers lose messages. -/
theorem crashAfterClaim_loses :
    (¬ ∀ labels t, Run (QueueState.step notificationConsumer (subscriberCall _)) { store := {} }
      labels t → MessagesKept notificationConsumer t) ∧
    (¬ ∀ labels t, Run (QueueState.step (emailConsumer {}) (subscriberCall _)) { store := [] }
      labels t → MessagesKept (emailConsumer {}) t) := by
  constructor
  · intro hall
    obtain ⟨job, hjob⟩ : ∃ job, notificationConsumer.validate sampleNotification.message =
        some job := ⟨_, rfl⟩
    have hrun := exec_crashAfterClaim notificationConsumer (subscriberCall _) {} rfl hjob rfl
    rcases hall _ _ (run_of_exec hrun) _ (List.mem_singleton_self _) job hjob (by simp [Queued])
      with hd | hpark
    · cases hd
    · simp [Parked] at hpark
  · intro hall
    obtain ⟨job, hjob⟩ : ∃ job, (emailConsumer {}).validate sampleEmail.message = some job ∧
        (emailConsumer {}).works job = true := ⟨_, rfl, rfl⟩
    have hrun := exec_crashAfterClaim (emailConsumer {}) (subscriberCall _) [] rfl hjob.1 hjob.2
    rcases hall _ _ (run_of_exec hrun) _ (List.mem_singleton_self _) job hjob.1 (by simp [Queued])
      with ⟨m, hm, -⟩ | hpark
    · cases hm
    · simp [Parked] at hpark

end SyncBoard.Messaging
