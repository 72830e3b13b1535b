import SyncBoard.Messaging.RetryStages

/-!
# The retry counter and the subscriber call

A handler takes the number of retries so far from the headers in its fourth
argument. The library passes the headers third and nothing fourth, so every
handler counts from zero: a message whose work keeps failing is retried after
the base delay for ever. With the arguments as the unit tests pass them, the
retries are bounded and the delays double.
-/

namespace SyncBoard.Messaging

open Labelled

variable {Q P R : Type}

section Results
variable [DecidableEq Q]
variable {c : Consumer Q P R} {call : Invocation Q} {store : R} {e : Envelope Q} {job : Job P}

theorem tracked_start : Tracked c call e job { store } {} where
  sound := sound_empty store
  distinct := by simp
  stage := .inl
    { accepted := by simp
      copies := rfl
      key := by simp
      log := rfl }

theorem tracked_of_run (henabled : c.isEnabled = true) (hjob : c.validate e.message = some job)
    (hworks : c.works job = true) {labels : List (QueueAction Q)} {p : QueueState Q P R × RetryLog}
    (run : Run (retryStep c call e.message) ({ store }, {}) labels p)
    (hg : AllSteps (retryStep c call e.message) (fun q => KeepsFailing c e job q.1) ({ store }, {})
      labels) : Tracked c call e job p.1 p.2 := by
  refine run.guarded (P := fun q => Tracked c call e job q.1 q.2) ?_ tracked_start hg
  intro q a r ht hfail hstep
  obtain ⟨hstep, hlog⟩ := track_eq_some.mp hstep
  rw [hlog]
  exact ht.step henabled hjob hworks hfail hstep

omit [DecidableEq Q] in
theorem logAt_delays {n : Nat}
    (hcount : ∀ k < n, countOf call (redelivery c call e k) = k) (attempts : Nat) :
    (logAt c call e attempts n).delays =
      (List.range (logAt c call e attempts n).delays.length).map
        (computeBackoff · c.retryBaseMs) := by
  simp only [logAt, List.length_map, List.length_range]
  apply List.map_congr_left
  intro k hk
  simp only [retryOf, hcount k (List.mem_range.mp hk)]

/-- Handlers that read the number of the retries so far bound the retries. -/
theorem boundedRetries_of_count (henabled : c.isEnabled = true)
    (hjob : c.validate e.message = some job) (hworks : c.works job = true)
    (hcount : ∀ n, (∀ k < n, Retries c call (redelivery c call e k)) →
      countOf call (redelivery c call e n) = n) :
    BoundedRetries c call store e job := by
  intro labels p run hg
  have ht := tracked_of_run henabled hjob hworks run hg
  have hbelow : ∀ {n}, (∀ k < n, Retries c call (redelivery c call e k)) →
      ∀ k < n, countOf call (redelivery c call e k) = k := fun hr k hk =>
    hcount k fun j hj => hr j (hj.trans hk)
  have hle : ∀ {n}, (∀ k < n, Retries c call (redelivery c call e k)) → n ≤ c.maxRetries := by
    intro n hr
    cases n with
    | zero => exact Nat.zero_le _
    | succ n =>
        have hlt := (hr n (Nat.lt_succ_self n)).1
        rwa [hbelow hr n (Nat.lt_succ_self n)] at hlt
  rcases ht.stage with hs | ⟨-, hs⟩
  · rw [hs.log]
    exact ⟨Nat.zero_le _, rfl, fun h => by simp at h, fun hacc => absurd hacc hs.accepted⟩
  · cases hs with
    | ready n hc hkey hlog hr =>
        have hn := hle hr
        have hmem : redelivery c call e n ∈ (p.1.copies e.message).ready := by
          rw [hc]
          exact List.mem_singleton_self _
        rw [hlog]
        refine ⟨?_, logAt_delays (hbelow hr) n, fun hmax => ?_, fun _ hnone => ?_⟩
        · simp only [logAt]
          omega
        · simp only [logAt] at hmax
          omega
        · exact absurd (redelivery_message c call e n) (hnone _ (List.mem_of_mem_filter hmem))
    | running n process attempts phase hc hphase hlog hr =>
        have hn := hle hr
        have hattempts : attempts ≤ n + 1 := by
          rcases hphase with ⟨-, ha, -⟩ | ⟨-, ha⟩ | ⟨-, ha⟩ | ⟨-, ha, -⟩ <;> omega
        have hmem : handlerOf call job (redelivery c call e n) process phase ∈
            (p.1.copies e.message).handlers := by
          rw [hc]
          exact List.mem_singleton_self _
        have hhandled : ¬ ∀ h ∈ p.1.handlers, h.delivery.message ≠ e.message := fun hnone =>
          hnone _ (List.mem_of_mem_filter hmem) (redelivery_message c call e n)
        rw [hlog]
        refine ⟨?_, logAt_delays (hbelow hr) attempts, fun _ hnone => absurd hnone hhandled,
          fun _ _ hnone => absurd hnone hhandled⟩
        simp only [logAt]
        omega
    | waiting n hc hkey hlog hr =>
        have hn := hle hr
        let w : Waiting Q :=
          { envelope := redelivery c call e (n + 1)
            delayMs := (retryOf c call (redelivery c call e n)).delayMs }
        have hmem : w ∈ (p.1.copies e.message).waiting := by
          rw [hc]
          exact List.mem_singleton_self _
        rw [hlog]
        refine ⟨?_, logAt_delays (hbelow hr) (n + 1), fun hmax => ?_, fun _ _ _ hnone => ?_⟩
        · simp only [logAt]
          omega
        · simp only [logAt] at hmax
          omega
        · exact absurd (redelivery_message c call e (n + 1))
            (hnone _ (List.mem_of_mem_filter hmem))
    | dead n hc hlog hr =>
        have hn := hle hr
        have hmem : redelivery c call e n ∈ (p.1.copies e.message).dlx := by
          rw [hc]
          exact List.mem_singleton_self _
        have hdead : ∃ d ∈ p.1.dlx, d.message = e.message :=
          ⟨_, List.mem_of_mem_filter hmem, redelivery_message c call e n⟩
        rw [hlog]
        refine ⟨?_, logAt_delays (hbelow hr) (n + 1), fun _ _ => hdead, fun _ _ _ _ => hdead⟩
        simp only [logAt]
        omega

/-- With the arguments of the unit tests the counter reaches the handler. -/
theorem boundedRetries_unitTestCall (henabled : c.isEnabled = true)
    (hjob : c.validate e.message = some job) (hworks : c.works job = true)
    (hfirst : retryCountFrom (some e.headers) = 0) :
    BoundedRetries c (unitTestCall Q) store e job := by
  apply boundedRetries_of_count henabled hjob hworks
  rintro n -
  induction n with
  | zero => exact hfirst
  | succ n ih =>
      calc countOf (unitTestCall Q) (redelivery c (unitTestCall Q) e (n + 1))
          = countOf (unitTestCall Q) (redelivery c (unitTestCall Q) e n) + 1 := rfl
        _ = n + 1 := by rw [ih]

omit [DecidableEq Q] in
/-- With the arguments of the library every handler counts from zero. -/
theorem countOf_subscriberCall (e : Envelope Q) : countOf (subscriberCall Q) e = 0 :=
  rfl

omit [DecidableEq Q] in
theorem retries_subscriberCall (hmax : 0 < c.maxRetries) (hpublisher : c.hasPublisher = true) :
    Retries c (subscriberCall Q) e :=
  ⟨hmax, hpublisher⟩

/-- With a publisher the attempts go on for ever, each after the base delay. -/
theorem retriesForever (henabled : c.isEnabled = true)
    (hjob : c.validate e.message = some job) (hworks : c.works job = true)
    (hmax : 0 < c.maxRetries) (hpublisher : c.hasPublisher = true) (n : Nat) :
    FailsTo c (subscriberCall Q) store e job
      (queuedAlone c (subscriberCall Q) store e n,
        { attempts := n, delays := List.replicate n c.retryBaseMs }) := by
  have hreaches : FailsTo c (subscriberCall Q) store e job
      (queuedAlone c (subscriberCall Q) store e n, logAt c (subscriberCall Q) e n n) :=
    reaches_queuedAlone henabled hjob hworks n fun k _ => retries_subscriberCall hmax hpublisher
  have hlog : logAt c (subscriberCall Q) e n n =
      { attempts := n, delays := List.replicate n c.retryBaseMs } := by
    simp [logAt, retryOf, countOf_subscriberCall, computeBackoff]
  rwa [hlog] at hreaches

/-- The library's arguments bound the retries exactly where there are none. -/
theorem boundedRetries_subscriberCall_iff (henabled : c.isEnabled = true)
    (hjob : c.validate e.message = some job) (hworks : c.works job = true) :
    BoundedRetries c (subscriberCall Q) store e job ↔
      c.maxRetries = 0 ∨ c.hasPublisher = false := by
  constructor
  · intro hbounded
    by_contra hboth
    obtain ⟨hmax, hpublisher⟩ := not_or.mp hboth
    have hforever : FailsTo c (subscriberCall Q) store e job _ :=
      retriesForever henabled hjob hworks (Nat.pos_of_ne_zero hmax) (by simpa using hpublisher)
        (c.maxRetries + 2)
    obtain ⟨labels, run, hg⟩ := hforever
    have hle := (hbounded labels _ run hg).attempts
    simp only at hle
    omega
  · intro hnone
    apply boundedRetries_of_count henabled hjob hworks
    intro n hr
    cases n with
    | zero => rfl
    | succ n =>
        obtain ⟨hmax, hpublisher⟩ := hr 0 (Nat.zero_lt_succ n)
        rcases hnone with hzero | hoff
        · omega
        · rw [hoff] at hpublisher
          cases hpublisher

end Results

/-- The retries of a notification are never bounded, and those of an email only
where its consumer has no publisher, and so publishes none. -/
theorem boundedRetries_iff (config : EmailConfig) :
    (∀ store e job, notificationConsumer.validate e.message = some job →
      ¬ BoundedRetries notificationConsumer (subscriberCall RawNotification) store e job) ∧
    ∀ store e job, (emailConsumer config).validate e.message = some job →
      config.isEnabled = true → (mailOf job.payload).isSome = true →
        (BoundedRetries (emailConsumer config) (subscriberCall RawEmail) store e job ↔
          config.hasPublisher = false) := by
  constructor
  · intro store e job hjob
    rw [boundedRetries_subscriberCall_iff rfl hjob rfl]
    simp [notificationConsumer, defaultMaxRetries]
  · intro store e job hjob henabled hsome
    rw [boundedRetries_subscriberCall_iff henabled hjob hsome]
    simp [emailConsumer, defaultMaxRetries]

theorem boundedRetries_iff_samples :
    (∃ job, ¬ BoundedRetries notificationConsumer (subscriberCall _) {} sampleNotification job) ∧
    ∃ job, BoundedRetries (emailConsumer { hasPublisher := false }) (subscriberCall _) []
      sampleEmail job :=
  ⟨⟨_, (boundedRetries_iff {}).1 {} sampleNotification _ rfl⟩,
    ⟨_, ((boundedRetries_iff { hasPublisher := false }).2 [] sampleEmail _ rfl rfl rfl).mpr rfl⟩⟩

/-- Neither of the consumers bounds the retries of every message. -/
theorem retries_unbounded :
    (¬ ∀ job, notificationConsumer.validate sampleNotification.message = some job →
      BoundedRetries notificationConsumer (subscriberCall _) {} sampleNotification job) ∧
    ¬ ∀ job, (emailConsumer {}).validate sampleEmail.message = some job →
      BoundedRetries (emailConsumer {}) (subscriberCall _) [] sampleEmail job := by
  constructor
  · intro hall
    have hiff := (boundedRetries_subscriberCall_iff rfl rfl rfl).mp (hall _ rfl)
    simp [notificationConsumer, defaultMaxRetries] at hiff
  · intro hall
    have hiff := (boundedRetries_subscriberCall_iff rfl rfl rfl).mp (hall _ rfl)
    simp [emailConsumer, defaultMaxRetries] at hiff

end SyncBoard.Messaging
