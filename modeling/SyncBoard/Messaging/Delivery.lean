import SyncBoard.Messaging.Consumer

/-!
# Steps of a handler

What a handler may do between two awaits, and what every reachable queue
satisfies. `Advance` bounds the effect of a handler on the rest of the state,
`resume_await` and `resume_ack` say when it goes on and when it acknowledges
its delivery, and `Sound` is the invariant of the runs of a queue.
-/

namespace SyncBoard.Messaging

open Labelled

variable {Q P R : Type}

/-- A wait queue or the dead-letter queue holds the message. -/
def Parked (s : QueueState Q P R) (msg : Option (DomainMessage Q)) : Prop :=
  (∃ w ∈ s.waiting, w.envelope.message = msg) ∨ ∃ e ∈ s.dlx, e.message = msg

/-- The handler returns without a call: the key of its message exists, or there
is no template to send. -/
def ReturnsEarly (c : Consumer Q P R) (s : QueueState Q P R) (h : Handler Q P) (o : Outcome) :
    Prop :=
  h.phase = .consumeOnce ∧ o = .resolved ∧
    (h.job.messageId ∈ s.keys ∨ c.works h.job = false)

variable {c : Consumer Q P R} {call : Invocation Q} {s s' t : QueueState Q P R}
variable {msg : Option (DomainMessage Q)} {job : Job P} {h : Handler Q P} {o : Outcome} {i : Nat}

/-- What the handler knows at an await. -/
def PhaseOk (c : Consumer Q P R) (store : R) (job : Job P) : Phase → Prop
  | .work => c.works job
  | .incr | .expire => c.done job store
  | _ => True

theorem PhaseOk.mono {phase : Phase} {store store' : R} (hp : PhaseOk c store job phase)
    (hd : c.done job store → c.done job store') : PhaseOk c store' job phase := by
  cases phase with
  | incr | expire => exact hd hp
  | _ => exact hp

/-- What the call of one handler does to the rest of the state. -/
structure Advance (c : Consumer Q P R) (s : QueueState Q P R) (h : Handler Q P)
    (s' : QueueState Q P R) : Prop where
  accepted : s'.accepted = s.accepted
  ready : s'.ready = s.ready
  handlers : s'.handlers = s.handlers
  dlx : s'.dlx = s.dlx
  connected : s'.connected = s.connected
  waiting : ∃ ws, s'.waiting = s.waiting ++ ws ∧ ∀ w ∈ ws, w.envelope.message = h.delivery.message
  keys : ∀ id, id ≠ h.job.messageId → (id ∈ s'.keys ↔ id ∈ s.keys)
  done : ∀ job, c.done job s.store → c.done job s'.store

theorem Advance.refl : Advance c s h s where
  accepted := rfl
  ready := rfl
  handlers := rfl
  dlx := rfl
  connected := rfl
  waiting := ⟨[], by simp⟩
  keys _ _ := Iff.rfl
  done _ hd := hd

theorem advance_claimKey : Advance c s h (s.claimKey h.job.messageId) := by
  unfold QueueState.claimKey
  split
  · exact .refl
  · exact
      { (Advance.refl : Advance c s h s) with
        keys := fun id hid => by simp [hid] }

theorem advance_releaseKey : Advance c s h (s.releaseKey h.job.messageId) :=
  { (Advance.refl : Advance c s h s) with
    keys := fun id hid => by simp [QueueState.releaseKey, hid] }

theorem advance_sendToQueue (retry : Retry) : Advance c s h (s.sendToQueue h retry) :=
  { (Advance.refl : Advance c s h s) with
    waiting := ⟨_, rfl, fun w hw => by rw [List.mem_singleton.mp hw]⟩ }

theorem advance_mapStore {f : R → R} (hf : ∀ job, c.done job s.store → c.done job (f s.store)) :
    Advance c s h (s.mapStore f) :=
  { (Advance.refl : Advance c s h s) with done := hf }

theorem Advance.ite {p : Prop} [Decidable p] (ha : Advance c s h s') :
    Advance c s h (if p then s' else s) := by
  split
  · exact ha
  · exact .refl

theorem advance_push (ha : Advance c s h s') :
    Advance c s h (s'.mapStore (c.pushToUser h.job)) :=
  { ha with done := fun job hd => c.done_of_push h.job job _ (ha.done job hd) }

theorem advance_resume : Advance c s h (c.resume s h o).1 := by
  cases hphase : h.phase with
  | consumeOnce =>
      simp only [Consumer.resume, hphase]
      exact advance_claimKey.ite
  | work =>
      simp only [Consumer.resume, hphase]
      exact (advance_mapStore fun job => c.done_of_work h.job job _).ite
  | releaseKey =>
      simp only [Consumer.resume, hphase]
      exact advance_releaseKey.ite
  | assertQueue retry =>
      simp only [Consumer.resume, hphase]
      exact .refl
  | sendToQueue retry =>
      simp only [Consumer.resume, hphase]
      exact (advance_sendToQueue retry).ite
  | incr =>
      have hbump : Advance c s h (s.mapStore (c.bumpUnreadCounter h.job)) :=
        advance_mapStore fun job => c.done_of_bump h.job job _
      simp only [Consumer.resume, hphase]
      split
      · exact hbump.ite
      · exact advance_push hbump.ite
  | expire =>
      simp only [Consumer.resume, hphase]
      exact advance_push .refl

/-- After the key was released a retry is published, unless there is no
connection, or the delivery is dead-lettered. -/
theorem Consumer.retryOrDeadLetter_cases (c : Consumer Q P R) (raw : Option ConsumeContext)
    (connected : Bool) :
    (∃ retry, c.retryOrDeadLetter raw connected = .await (.assertQueue retry)) ∨
      c.retryOrDeadLetter raw connected = .settled .ack ∧ connected = false ∨
      c.retryOrDeadLetter raw connected = .settled .nack := by
  simp only [Consumer.retryOrDeadLetter, Consumer.publishRetry]
  split
  · cases connected with
    | true => exact .inl ⟨_, rfl⟩
    | false => exact .inr (.inl ⟨rfl, rfl⟩)
  · exact .inr (.inr rfl)

/-- A handler that goes on to another await knows what that await needs. -/
theorem resume_await {phase : Phase} (hp : PhaseOk c s.store h.job h.phase)
    (hr : (c.resume s h o).2 = .await phase) :
    PhaseOk c (c.resume s h o).1.store h.job phase := by
  cases hphase : h.phase with
  | consumeOnce =>
      simp only [Consumer.resume, hphase] at hr
      split at hr
      · unfold Consumer.claimed at hr
        split at hr
        · next hfirst =>
            cases hr
            exact hfirst.2
        · cases hr
      · cases hr
  | work =>
      have hworks : c.works h.job = true := by
        rw [hphase] at hp
        exact hp
      simp only [Consumer.resume, hphase] at hr ⊢
      by_cases ho : o = .resolved
      · subst ho
        simp only [if_true] at hr
        split at hr
        · cases hr
          exact c.done_work h.job s.store hworks
        · cases hr
      · rw [if_neg ho] at hr
        cases hr
        trivial
  | releaseKey =>
      simp only [Consumer.resume, hphase] at hr
      rcases c.retryOrDeadLetter_cases h.raw (s.connected h.process) with
        ⟨retry, heq⟩ | ⟨heq, -⟩ | heq
      · cases heq.symm.trans hr
        trivial
      · cases heq.symm.trans hr
      · cases heq.symm.trans hr
  | assertQueue retry =>
      simp only [Consumer.resume, hphase] at hr
      split at hr
      · cases hr
        trivial
      · cases hr
  | sendToQueue retry =>
      simp only [Consumer.resume, hphase] at hr
      cases hr
  | incr =>
      have hdone : c.done h.job s.store := by
        rw [hphase] at hp
        exact hp
      have hadvance := advance_resume (c := c) (s := s) (h := h) (o := o)
      simp only [Consumer.resume, hphase] at hr
      split at hr
      · cases hr
        exact hadvance.done _ hdone
      · cases hr
  | expire =>
      simp only [Consumer.resume, hphase] at hr
      cases hr

/-- A handler returns early, or after the work, or after it parked the message,
or because its process has no connection. -/
theorem resume_ack (hp : PhaseOk c s.store h.job h.phase)
    (hr : (c.resume s h o).2 = .settled .ack) :
    ReturnsEarly c s h o ∨ c.done h.job (c.resume s h o).1.store ∨
      Parked (c.resume s h o).1 h.delivery.message ∨ s.connected h.process = false := by
  cases hphase : h.phase with
  | consumeOnce =>
      left
      simp only [Consumer.resume, hphase] at hr
      split at hr
      · next ho =>
          refine ⟨hphase, ho, ?_⟩
          unfold Consumer.claimed at hr
          split at hr
          · cases hr
          · next hfirst =>
              simp only [decide_eq_true_eq, not_and_or, not_not] at hfirst
              exact hfirst.imp_right Bool.eq_false_iff.mpr
      · cases hr
  | work =>
      have hworks : c.works h.job = true := by
        rw [hphase] at hp
        exact hp
      right; left
      simp only [Consumer.resume, hphase] at hr ⊢
      split at hr
      · next ho =>
          subst ho
          exact c.done_work h.job s.store hworks
      · cases hr
  | releaseKey =>
      simp only [Consumer.resume, hphase] at hr
      rcases c.retryOrDeadLetter_cases h.raw (s.connected h.process) with
        ⟨retry, heq⟩ | ⟨-, hconn⟩ | heq
      · cases heq.symm.trans hr
      · exact .inr (.inr (.inr hconn))
      · cases heq.symm.trans hr
  | assertQueue retry =>
      simp only [Consumer.resume, hphase] at hr
      split at hr <;> cases hr
  | sendToQueue retry =>
      right; right; left
      simp only [Consumer.resume, hphase] at hr ⊢
      by_cases ho : o = .resolved
      · subst ho
        exact .inl ⟨_, List.mem_append_right _ (List.mem_singleton_self _), rfl⟩
      · rw [if_neg ho] at hr
        cases hr
  | incr | expire =>
      have hdone : c.done h.job s.store := by
        rw [hphase] at hp
        exact hp
      exact .inr (.inl (advance_resume.done _ hdone))

/-- An early return writes nothing but, at most, the key. -/
theorem resume_returnsEarly (he : ReturnsEarly c s h o) :
    (c.resume s h o).2 = .settled .ack ∧ (c.resume s h o).1.waiting = s.waiting ∧
      (c.resume s h o).1.store = s.store := by
  obtain ⟨hphase, rfl, hskip⟩ := he
  have hclaimed : ¬ (h.job.messageId ∉ s.keys ∧ c.works h.job = true) := by
    rcases hskip with hkey | hworks
    · exact fun hf => hf.1 hkey
    · exact fun hf => by simp [hworks] at hf
  simp only [Consumer.resume, hphase, Consumer.claimed, decide_eq_true_eq, if_neg hclaimed,
    if_true, Outcome.applied]
  refine ⟨trivial, ?_⟩
  unfold QueueState.claimKey
  split <;> exact ⟨rfl, rfl⟩

/-- The handlers have the job of their message and what their await needs, the
broker waits for connected processes only, and every message was accepted. -/
structure Sound (c : Consumer Q P R) (s : QueueState Q P R) : Prop where
  job : ∀ h ∈ s.handlers, c.validate h.delivery.message = some h.job
  phase : ∀ h ∈ s.handlers, PhaseOk c s.store h.job h.phase
  linked : ∀ h ∈ s.handlers, h.unacked → s.connected h.process = true
  ready : ∀ e ∈ s.ready, e.message ∈ s.accepted
  delivered : ∀ h ∈ s.handlers, h.delivery.message ∈ s.accepted
  waiting : ∀ w ∈ s.waiting, w.envelope.message ∈ s.accepted

theorem sound_empty (store : R) : Sound c ({ store } : QueueState Q P R) where
  job := by simp
  phase := by simp
  linked := by simp
  ready := by simp
  delivered := by simp
  waiting := by simp

theorem Sound.advance (hs : Sound c s) (hh : h ∈ s.handlers) (ha : Advance c s h s') :
    Sound c s' where
  job := ha.handlers ▸ hs.job
  phase h' hh' := (hs.phase h' (ha.handlers ▸ hh')).mono (ha.done h'.job)
  linked := by
    rw [ha.handlers, ha.connected]
    exact hs.linked
  ready := by
    rw [ha.ready, ha.accepted]
    exact hs.ready
  delivered := by
    rw [ha.handlers, ha.accepted]
    exact hs.delivered
  waiting w hw := by
    obtain ⟨ws, hws, hmsg⟩ := ha.waiting
    rw [ha.accepted]
    rcases List.mem_append.mp (hws ▸ hw) with hw | hw
    · exact hs.waiting w hw
    · exact hmsg w hw ▸ hs.delivered h hh

theorem Sound.endHandler (hs : Sound c s) (i : Nat) : Sound c (s.endHandler i) where
  job h hh := hs.job h (List.mem_of_mem_eraseIdx hh)
  phase h hh := hs.phase h (List.mem_of_mem_eraseIdx hh)
  linked h hh := hs.linked h (List.mem_of_mem_eraseIdx hh)
  ready := hs.ready
  delivered h hh := hs.delivered h (List.mem_of_mem_eraseIdx hh)
  waiting := hs.waiting

theorem Sound.addReady (hs : Sound c s) {es : List (Envelope Q)}
    (hes : ∀ e ∈ es, e.message ∈ s.accepted) : Sound c { s with ready := s.ready ++ es } :=
  { hs with
    ready := by
      intro e he
      rcases List.mem_append.mp he with he | he
      · exact hs.ready e he
      · exact hes e he }

theorem Sound.progress (hs : Sound c s) (hi : s.handlers[i]? = some h) {p : Progress}
    (hp : ∀ phase, p = .await phase → PhaseOk c s.store h.job phase) :
    Sound c (s.progress i h p) := by
  have hh : h ∈ s.handlers := List.mem_of_getElem? hi
  cases p with
  | await phase =>
      constructor
      · intro h' hh'
        rcases List.mem_or_eq_of_mem_set hh' with hh' | rfl
        · exact hs.job h' hh'
        · exact hs.job h hh
      · intro h' hh'
        rcases List.mem_or_eq_of_mem_set hh' with hh' | rfl
        · exact hs.phase h' hh'
        · exact hp phase rfl
      · intro h' hh'
        rcases List.mem_or_eq_of_mem_set hh' with hh' | rfl
        · exact hs.linked h' hh'
        · exact hs.linked h hh
      · exact hs.ready
      · intro h' hh'
        rcases List.mem_or_eq_of_mem_set hh' with hh' | rfl
        · exact hs.delivered h' hh'
        · exact hs.delivered h hh
      · exact hs.waiting
  | settled how =>
      have hend := hs.endHandler i
      simp only [QueueState.progress, QueueState.settle]
      split
      · cases how with
        | ack => exact hend
        | nack => exact { hend with }
        | requeue =>
            apply hend.addReady
            intro e he
            rw [List.mem_singleton.mp he]
            exact hs.delivered h hh
      · exact hend

theorem start_of_enabled (henabled : c.isEnabled = true) (e : Envelope Q) :
    c.start (call.args e) = c.validate e.message := by
  rw [Consumer.start, if_pos henabled, call.args_msg]

theorem start_eq_some {e : Envelope Q} (hstart : c.start (call.args e) = some job) :
    c.validate e.message = some job := by
  unfold Consumer.start at hstart
  split at hstart
  · rwa [call.args_msg] at hstart
  · cases hstart

theorem start_eq_none {e : Envelope Q} (hstart : c.start (call.args e) = none)
    (hjob : c.validate e.message = some job) : c.isEnabled = false := by
  unfold Consumer.start at hstart
  split at hstart
  · rw [call.args_msg, hjob] at hstart
    cases hstart
  · simpa using ‹¬ c.isEnabled = true›

theorem Sound.deliver (hs : Sound c s) {process : Nat} (hp : s.connected process = true)
    {e : Envelope Q} (he : e ∈ s.ready) :
    Sound c ((s.takeReady i).deliver c call process e) := by
  have htake : Sound c (s.takeReady i) :=
    { hs with ready := fun e' he' => hs.ready e' (List.mem_of_mem_eraseIdx he') }
  unfold QueueState.deliver
  cases hstart : c.start (call.args e) with
  | none => exact htake
  | some job =>
      constructor
      · intro h hh
        rcases List.mem_append.mp hh with hh | hh
        · exact hs.job h hh
        · rw [List.mem_singleton.mp hh]
          exact start_eq_some hstart
      · intro h hh
        rcases List.mem_append.mp hh with hh | hh
        · exact hs.phase h hh
        · rw [List.mem_singleton.mp hh]
          trivial
      · intro h hh
        rcases List.mem_append.mp hh with hh | hh
        · exact hs.linked h hh
        · rw [List.mem_singleton.mp hh]
          exact fun _ => hp
      · exact htake.ready
      · intro h hh
        rcases List.mem_append.mp hh with hh | hh
        · exact hs.delivered h hh
        · rw [List.mem_singleton.mp hh]
          exact hs.ready e he
      · exact hs.waiting

theorem mem_requeueOf {process : Nat} {e : Envelope Q} :
    e ∈ s.requeueOf process ↔
      ∃ h ∈ s.handlers, (h.process = process ∧ h.unacked) ∧ h.delivery = e := by
  simp [QueueState.requeueOf, and_assoc]

theorem Sound.requeue (hs : Sound c s) (process : Nat) :
    Sound c { s with ready := s.ready ++ s.requeueOf process } := by
  apply hs.addReady
  intro e he
  obtain ⟨h, hh, -, rfl⟩ := mem_requeueOf.mp he
  exact hs.delivered h hh

theorem Sound.crash (hs : Sound c s) (process : Nat) : Sound c (s.crash process) where
  job h hh := hs.job h (List.mem_of_mem_filter hh)
  phase h hh := hs.phase h (List.mem_of_mem_filter hh)
  linked h hh hu := by
    have hne : h.process ≠ process := by simpa using (List.mem_filter.mp hh).2
    simp only [QueueState.crash, Function.update_of_ne hne]
    exact hs.linked h (List.mem_of_mem_filter hh) hu
  ready := (hs.requeue process).ready
  delivered h hh := hs.delivered h (List.mem_of_mem_filter hh)
  waiting := hs.waiting

theorem Sound.disconnect (hs : Sound c s) (process : Nat) : Sound c (s.disconnect process) where
  job h hh := by
    obtain ⟨h', hh', rfl⟩ := List.mem_map.mp hh
    split <;> exact hs.job h' hh'
  phase h hh := by
    obtain ⟨h', hh', rfl⟩ := List.mem_map.mp hh
    split <;> exact hs.phase h' hh'
  linked h hh hu := by
    obtain ⟨h', hh', rfl⟩ := List.mem_map.mp hh
    split at hu
    · cases hu
    · next hne =>
        rw [if_neg hne]
        simp only [QueueState.disconnect, Function.update_of_ne hne]
        exact hs.linked h' hh' hu
  ready := (hs.requeue process).ready
  delivered h hh := by
    obtain ⟨h', hh', rfl⟩ := List.mem_map.mp hh
    split <;> exact hs.delivered h' hh'
  waiting := hs.waiting

theorem Sound.step (hs : Sound c s) {a : QueueAction Q}
    (h : s.step c call a = some t) : Sound c t := by
  cases a with
  | publish e =>
      cases h
      exact
        { job := hs.job
          phase := hs.phase
          linked := hs.linked
          ready := by
            intro e' he'
            rcases List.mem_append.mp he' with he' | he'
            · exact List.mem_append_left _ (hs.ready e' he')
            · rw [List.mem_singleton.mp he']
              exact List.mem_append_right _ (List.mem_singleton_self _)
          delivered := fun h' hh' => List.mem_append_left _ (hs.delivered h' hh')
          waiting := fun w hw => List.mem_append_left _ (hs.waiting w hw) }
  | deliver i process =>
      simp only [QueueState.step] at h
      split at h
      · next hp =>
          obtain ⟨e, he, rfl⟩ := Option.map_eq_some_iff.mp h
          exact hs.deliver hp (List.mem_of_getElem? he)
      · cases h
  | resume i o =>
      obtain ⟨h', hi, rfl⟩ := Option.map_eq_some_iff.mp h
      have hh := List.mem_of_getElem? hi
      have ha : Advance c s h' (c.resume s h' o).1 := advance_resume
      apply (hs.advance hh ha).progress (by rwa [ha.handlers])
      intro phase hphase
      exact resume_await (hs.phase h' hh) hphase
  | retryDelayOver i =>
      obtain ⟨w, hw, rfl⟩ := Option.map_eq_some_iff.mp h
      refine
        { hs with
          ready := ?_
          waiting := fun w' hw' => hs.waiting w' (List.mem_of_mem_eraseIdx hw') }
      intro e he
      rcases List.mem_append.mp he with he | he
      · exact hs.ready e he
      · rw [List.mem_singleton.mp he]
        exact hs.waiting w (List.mem_of_getElem? hw)
  | keyExpires id =>
      cases h
      exact { hs with }
  | connect process =>
      cases h
      refine { hs with linked := fun h' hh' hu => ?_ }
      by_cases hp : h'.process = process
      · simp [hp]
      · simp only [Function.update_of_ne hp]
        exact hs.linked h' hh' hu
  | disconnect process =>
      cases h
      exact hs.disconnect process
  | crash process =>
      cases h
      exact hs.crash process

end SyncBoard.Messaging
