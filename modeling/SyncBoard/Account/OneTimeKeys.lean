import SyncBoard.Account.Recall

/-!
# One-time keys

The key of a reset token or of a verification token holds the user that it was made for, and
is read by deleting it. So it is handed out at most as often as it was stored, whoever presents
the token, however often and at whatever time; and the token itself goes only into mails to the
address of that user.
-/

namespace SyncBoard.Account

open Interleaved Interleaved.Program Relational

/-- The call sets the key, or tries to: where no reply comes, the key may have been set. -/
def stores (key : RedisKey) : (Σ op, Statement.Reply op) → Bool
  | ⟨.setKey key' _ _, _⟩ => decide (key' = key)
  | _ => false

/-- The call is given what the key holds, which is deleted. -/
def handsOut (key : RedisKey) : (Σ op, Statement.Reply op) → Bool
  | ⟨.getdelKey key', .ok (some _)⟩ => decide (key' = key)
  | _ => false

/-- The call has presented the token of the key, and has returned. -/
def redeems (prims : Primitives) (key : RedisKey)
    (task : Task Statement Statement.Reply AccountError AccountCall) : Bool :=
  match task.call, task.rest with
  | .resetPassword _ token _, .done (.ok ()) =>
      decide (key = .passwordReset (prims.hashToken token))
  | .verifyEmail token, .done (.ok ()) =>
      decide (key = .emailVerification (prims.hashToken token))
  | _, _ => false

section Counting
variable {prims : Primitives} {p : AccountPool} {key : RedisKey}

/-- What has been handed out, and what is there to be handed out, has been stored. -/
def Accounted (key : RedisKey) (p : AccountPool) : Prop :=
  p.times (handsOut key) + (if (p.store.keys.entries key).isSome then 1 else 0) ≤
    p.times (stores key)

/-- What is handed out was there, and is gone. -/
theorem entries_of_handsOut {x : Outside} {op : Statement} {s : Store}
    (h : handsOut key ⟨op, (answer prims x op s).1⟩ = true) :
    (s.keys.entries key).isSome = true ∧ (answer prims x op s).2.keys.entries key = none := by
  cases op with
  | getdelKey key' =>
      generalize hreply : (answer prims x (.getdelKey key') s).1 = reply at h
      match reply, h with
      | .ok (some value), h =>
          obtain rfl := of_decide_eq_true h
          obtain ⟨-, hstore⟩ := answer_eq_ok hreply
          obtain ⟨deadline, hentry⟩ := truthful_answer hreply value rfl
          rw [hentry, hstore]
          exact ⟨rfl, Function.update_self _ _ _⟩
  | createUser | findUser | updateUser | createToken | findToken | rotateToken | revokeTokens
  | setKey | getKey | existsKey | delKey | now | randomToken | randomId | hashPassword
  | comparePassword | signToken | verifyToken | emit => cases h

theorem Accounted.answered (h : Accounted key p) {i : Nat} {x : Outside}
    {task : Task Statement Statement.Reply AccountError AccountCall} {op : Statement}
    {next : op.Reply → AccountProgram Unit} (ha : p.Asks i task op next) :
    Accounted key (p.answered (answer prims) i x task op next) := by
  have heffect := @effect_answer prims x op p.store
  unfold Accounted at h ⊢
  rw [Pool.times_answered ha, Pool.times_answered ha]
  change _ + _ + (if ((answer prims x op p.store).2.keys.entries key).isSome then 1 else 0) ≤ _
  by_cases hhands : handsOut key ⟨op, (answer prims x op p.store).1⟩ = true
  · obtain ⟨hthere, hgone⟩ := entries_of_handsOut hhands
    rw [if_pos hthere] at h
    rw [if_pos hhands, hgone]
    simp only [Option.isSome_none, Bool.false_eq_true, if_false]
    omega
  · rw [if_neg hhands]
    cases hentry : (answer prims x op p.store).2.keys.entries key with
    | none =>
        simp only [Option.isSome_none, Bool.false_eq_true, if_false]
        omega
    | some entry =>
        rcases heffect.entries hentry with hold | ⟨value, seconds, rfl, -⟩
        · have hthere : (p.store.keys.entries key).isSome = true := by
            rw [show p.store.keys.entries key = some entry from hold]
            rfl
          rw [if_pos hthere] at h
          simp only [Option.isSome_some, if_true]
          omega
        · have hstores : stores key ⟨.setKey key value seconds,
              (answer prims x (.setKey key value seconds) p.store).1⟩ = true :=
            decide_eq_true rfl
          rw [hstores]
          simp only [Option.isSome_some, if_true]
          split at h <;> omega

/-- A call that has redeemed a token has been handed the user of its key. -/
theorem any_handsOut_of_redeems {task : Task Statement Statement.Reply AccountError AccountCall}
    (hspec : task.rest = .done (.ok ()) → Passed prims task.log task.call)
    (h : redeems prims key task = true) : task.log.any (handsOut key) = true := by
  obtain ⟨call, log, rest⟩ := task
  have hany : ∀ id, Answered log (.getdelKey key) (some (.userId id)) →
      log.any (handsOut key) = true :=
    fun id htold => List.any_eq_true.mpr ⟨_, htold, decide_eq_true rfl⟩
  unfold redeems at h
  split at h
  · next hcall hrest =>
      dsimp only at hcall hrest
      subst hcall
      obtain rfl := of_decide_eq_true h
      obtain ⟨id, htold⟩ := hspec hrest
      exact hany id htold
  · next hcall hrest =>
      dsimp only at hcall hrest
      subst hcall
      obtain rfl := of_decide_eq_true h
      obtain ⟨id, htold⟩ := hspec hrest
      exact hany id htold
  · cases h

end Counting

/-- In every state that calls in any order lead to, the calls that have succeeded with the token
of a one-time key are at most as many as the times that the key was stored. -/
theorem redeemed_le_stored {prims : Primitives} {p : AccountPool} (h : Reachable prims p)
    (key : RedisKey) : p.tasks.countP (redeems prims key) ≤ p.times (stores key) := by
  obtain ⟨⟨haccounted, -⟩, hspec⟩ := h.invariant (I := Accounted key) (Nat.le_refl 0)
    (fun p call hp => by
      rw [Accounted, Pool.times_start, Pool.times_start]
      exact hp)
    (fun p i x task op next hp _ ha _ => hp.answered ha)
  calc p.tasks.countP (redeems prims key)
      ≤ p.tasks.countP fun task => task.log.any (handsOut key) := by
        apply List.countP_mono_left
        intro task htask hredeems
        exact any_handsOut_of_redeems (hspec.returned htask) hredeems
    _ ≤ p.times (handsOut key) := p.countP_any_le_times
    _ ≤ p.times (stores key) := (Nat.le_add_right _ _).trans haccounted

/-- A reset token is requested and presented twice. -/
def resetTwice : List (Move AccountCall Outside) :=
  registration ++ alone 1 (.forgotPassword {} (js "a@b.c")) 4 2 200 ++
    alone 2 (.resetPassword {} [201] (js "Better-1")) 10 3 300 ++
    alone 3 (.resetPassword {} [201] (js "Another-1")) 1 4 400

theorem redeemed_of_resetTwice : ∃ p, Reachable plainPrimitives p ∧
    p.tasks.countP (redeems plainPrimitives (.passwordReset 201)) = 1 ∧
      p.tasks.countP (redeems plainPrimitives (.passwordReset 201)) ≤
        p.times (stores (.passwordReset 201)) := by
  obtain ⟨p, hexec, hone⟩ : ∃ p, Labelled.exec (AccountPool.step plainPrimitives)
      { store := {} } resetTwice = some p ∧
        p.tasks.countP (redeems plainPrimitives (.passwordReset 201)) = 1 := ⟨_, rfl, rfl⟩
  have hreach : Reachable plainPrimitives p := ⟨_, Labelled.run_of_exec hexec⟩
  exact ⟨p, hreach, hone, redeemed_le_stored hreach _⟩

/-- The key holds the user of a token. -/
def RedisKey.isOneTime : RedisKey → Bool
  | passwordReset _ | emailVerification _ => true
  | _ => false

/-- The call has drawn a token of the key for the user: one for a reset, at the request of
somebody who gave the address, or one to verify the address. -/
def MadeFor (prims : Primitives) (key : RedisKey) (id : Uuid) (call : AccountCall)
    (log : AccountLog) : Prop :=
  ∃ token user, Answered log .randomToken token ∧ user.id = id ∧
    ((key = .passwordReset (prims.hashToken token) ∧ ∃ visitor email,
        call = .forgotPassword visitor email ∧
          Answered log (.findUser (.email email)) (some user)) ∨
      (key = .emailVerification (prims.hashToken token) ∧
        ((∃ data, Answered log (.createUser data) user) ∨
          ∃ id', Answered log (.findUser (.id id')) (some user))))

/-- A mail goes to the address of the user that the key in it was stored for. -/
def Mailed (p : AccountPool) (id : Uuid) (email : JsString) (key : RedisKey) : Prop :=
  (∃ row, p.store.users.get? id = some row ∧ row.email = email) ∧
    p.Evidence fun _ log => ∃ seconds, Answered log (.setKey key (.userId id) seconds) ()

/-- What holds of an event that brings a token. -/
def Addressed (prims : Primitives) (p : AccountPool) : AuthEvent → Prop
  | .registered id email _ token => Mailed p id email (.emailVerification (prims.hashToken token))
  | .passwordResetRequested id email token =>
      Mailed p id email (.passwordReset (prims.hashToken token))
  | .emailVerificationRequested id email token =>
      Mailed p id email (.emailVerification (prims.hashToken token))
  | _ => True

/-- The one-time keys that are there or have been read are made for their users, and the mails
are addressed to them. -/
structure Issued (prims : Primitives) (p : AccountPool) : Prop where
  entries : ∀ key id deadline, key.isOneTime = true →
    p.store.keys.entries key = some (.userId id, deadline) → p.Evidence (MadeFor prims key id)
  told : ∀ task ∈ p.tasks, ∀ key id, key.isOneTime = true →
    Answered task.log (.getdelKey key) (some (.userId id)) → p.Evidence (MadeFor prims key id)
  mails : ∀ event ∈ p.store.events, Addressed prims p event

section Issuing
variable {prims : Primitives} {p : AccountPool}

theorem MadeFor.snoc {key : RedisKey} {id : Uuid} (call : AccountCall) (log : AccountLog)
    (entry : Σ op, Statement.Reply op) (h : MadeFor prims key id call log) :
    MadeFor prims key id call (log ++ [entry]) := by
  obtain ⟨token, user, drawn, hid, ⟨hkey, visitor, email, hcall, found⟩ | ⟨hkey, known⟩⟩ := h
  · exact ⟨token, user, drawn.append _, hid, .inl ⟨hkey, visitor, email, hcall, found.append _⟩⟩
  · refine ⟨token, user, drawn.append _, hid, .inr ⟨hkey, ?_⟩⟩
    rcases known with ⟨data, created⟩ | ⟨id', found⟩
    · exact .inl ⟨data, created.append _⟩
    · exact .inr ⟨id', found.append _⟩

/-- A one-time key is set by a call that has made it for the user. -/
theorem Justified.madeFor {call : AccountCall} {log : AccountLog} {key : RedisKey} {id : Uuid}
    {seconds : Nat} (h : Justified prims call log (.setKey key (.userId id) seconds))
    (hkey : key.isOneTime = true) : MadeFor prims key id call log := by
  cases h with
  | harmless hop =>
      cases key with
      | passwordReset | emailVerification | emailVerified => cases hop
      | blacklist | oauthState => cases hkey
  | setVerification drawn known => exact ⟨_, _, drawn, rfl, .inr ⟨rfl, known⟩⟩
  | setReset drawn found => exact ⟨_, _, drawn, rfl, .inl ⟨rfl, _, _, rfl, found⟩⟩

/-- What a mail says is so when it is asked for. -/
theorem Justified.addressed {i : Nat}
    {task : Task Statement Statement.Reply AccountError AccountCall} {event : AuthEvent}
    {next : (Statement.emit event).Reply → AccountProgram Unit}
    (h : Justified prims task.call task.log (.emit event)) (ha : p.Asks i task (.emit event) next)
    (hfaithful : Faithful prims p) : Addressed prims p event := by
  have hmailed : ∀ {user : User} {key : RedisKey} {seconds : Nat},
      p.store.Remembers user.id user.toUserRow →
        Answered task.log (.setKey key (.userId user.id) seconds) () →
          Mailed p user.id user.email key := by
    rintro user key seconds ⟨row, hrow, hemail, -⟩ stored
    exact ⟨⟨row, hrow, hemail⟩, task, ha.mem, seconds, stored⟩
  obtain ⟨call, log, rest⟩ := task
  cases h with
  | harmless hop =>
      cases event with
      | loggedIn | emailVerified => trivial
      | registered | passwordResetRequested | emailVerificationRequested => cases hop
  | mailRegistered created stored => exact hmailed (hfaithful _ ha.mem _ _ created).1 stored
  | mailReset found stored => exact hmailed (hfaithful _ ha.mem _ _ found _ rfl).1 stored
  | mailVerification found stored => exact hmailed (hfaithful _ ha.mem _ _ found _ rfl).1 stored

theorem Addressed.step {q : AccountPool} {event : AuthEvent} (h : Addressed prims p event)
    (hstep : ∀ id email key, Mailed p id email key → Mailed q id email key) :
    Addressed prims q event := by
  cases event with
  | registered | passwordResetRequested | emailVerificationRequested => exact hstep _ _ _ h
  | loggedIn | emailVerified => trivial

theorem Issued.initial : Issued prims { store := {} } := by
  refine ⟨fun key id deadline _ hentry => ?_, fun task htask => ?_, fun event hevent => ?_⟩
  · cases hentry
  · cases htask
  · cases hevent

theorem Issued.start (h : Issued prims p) (call : AccountCall) :
    Issued prims { p with tasks := p.tasks ++ [⟨call, [], call.program prims⟩] } := by
  refine ⟨fun key id deadline hkey hentry => (h.entries key id deadline hkey hentry).start call,
    fun task htask key id hkey htold => ?_, fun event hevent => ?_⟩
  · rcases List.mem_append.mp htask with hold | hnew
    · exact (h.told task hold key id hkey htold).start call
    · obtain rfl := List.mem_singleton.mp hnew
      cases htold
  · exact (h.mails event hevent).step fun id email key hmailed => ⟨hmailed.1, hmailed.2.start call⟩

theorem Issued.answered (h : Issued prims p) (hfaithful : Faithful prims p) {i : Nat}
    {x : Outside} {task : Task Statement Statement.Reply AccountError AccountCall}
    {op : Statement} {next : op.Reply → AccountProgram Unit} (ha : p.Asks i task op next)
    (hop : Justified prims task.call task.log op) :
    Issued prims (p.answered (answer prims) i x task op next) := by
  have heffect := @effect_answer prims x op p.store
  have hlater : Later p.store (answer prims x op p.store).2 := later_answer x hop
  have stays : ∀ {key id}, p.Evidence (MadeFor prims key id) →
      (p.answered (answer prims) i x task op next).Evidence (MadeFor prims key id) :=
    fun hmade => hmade.answered MadeFor.snoc ha
  have hmailed : ∀ id email key, Mailed p id email key →
      Mailed (p.answered (answer prims) i x task op next) id email key := by
    rintro id email key ⟨⟨row, hrow, hemail⟩, hevidence⟩
    obtain ⟨row', hrow', hemail', -⟩ := hlater.users id row hrow
    refine ⟨⟨row', hrow', hemail'.trans hemail⟩, hevidence.answered ?_ ha⟩
    rintro call log entry ⟨seconds, stored⟩
    exact ⟨seconds, stored.append _⟩
  refine ⟨fun key id deadline hkey hentry => stays ?_, ?_, fun event hevent => ?_⟩
  · rcases heffect.entries hentry with hold | ⟨value, seconds, rfl, hvalue⟩
    · exact h.entries key id deadline hkey hold
    · obtain rfl : RedisValue.userId id = value := hvalue
      exact ⟨task, ha.mem, hop.madeFor hkey⟩
  · intro task' htask' key id hkey htold
    rcases List.mem_or_eq_of_mem_set htask' with hold | rfl
    · exact stays (h.told task' hold key id hkey htold)
    · rcases List.mem_append.mp htold with hold | hnew
      · exact stays (h.told task ha.mem key id hkey hold)
      · -- the key was there when it was read
        obtain ⟨rfl, hvalue⟩ := Sigma.mk.inj (List.mem_singleton.mp hnew)
        obtain ⟨deadline, hentry⟩ := truthful_answer (eq_of_heq hvalue).symm (.userId id) rfl
        exact stays (h.entries key id deadline hkey hentry)
  · rcases heffect.events hevent with hold | rfl
    · exact (h.mails event hold).step hmailed
    · exact (hop.addressed ha hfaithful).step hmailed

end Issuing

theorem issued_of_reachable {prims : Primitives} {p : AccountPool} (h : Reachable prims p) :
    Issued prims p := by
  refine (h.invariant .initial (fun p call hp => hp.start call) ?_).1.1
  intro p i x task op next hp hfaithful ha hop
  exact hp.answered hfaithful ha hop

end SyncBoard.Account
