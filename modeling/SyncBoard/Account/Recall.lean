import SyncBoard.Account.CallTraces
import SyncBoard.Account.Effects

/-!
# What was answered goes on being true

No statement that a call asks removes a user, gives it another address or takes a verification
back. So what a call has been told of a user holds of the user's row from then on, and what it
has been told of a signed token stays true (`Recalled`). `Reachable.invariant` is the
induction over runs that the results of the account package are proved by.
-/

namespace SyncBoard.Account

open Interleaved Interleaved.Program Relational

variable {prims : Primitives} {s t u : Store}

/-- The row of the user is there, under its address, and as verified as it was. -/
def Store.Remembers (t : Store) (id : Uuid) (row : UserRow) : Prop :=
  ∃ row', t.users.get? id = some row' ∧ row'.email = row.email ∧
    (row.isEmailVerified = true → row'.isEmailVerified = true)

/-- The one store comes after the other. -/
structure Later (s t : Store) : Prop where
  users : ∀ id row, s.users.get? id = some row → t.Remembers id row
  signed : ∀ payload ∈ s.signed, payload ∈ t.signed

theorem Store.Remembers.later {id : Uuid} {row : UserRow} (h : s.Remembers id row)
    (hst : Later s t) : t.Remembers id row := by
  obtain ⟨row', hrow', hemail, hverified⟩ := h
  obtain ⟨row'', hrow'', hemail', hverified'⟩ := hst.users id row' hrow'
  exact ⟨row'', hrow'', hemail'.trans hemail, hverified' ∘ hverified⟩

theorem Later.trans (hst : Later s t) (htu : Later t u) : Later s u :=
  ⟨fun id row hrow => (hst.users id row hrow).later htu,
    fun payload hpayload => htu.signed payload (hst.signed payload hpayload)⟩

/-- The statement takes no verification back. -/
def Statement.KeepsVerified : Statement → Prop
  | updateUser _ data => data.isEmailVerified ≠ some false
  | _ => True

theorem Justified.keepsVerified {call : AccountCall} {log : AccountLog} {op : Statement}
    (h : Justified prims call log op) : op.KeepsVerified := by
  cases h with
  | harmless hop =>
      cases op with
      | updateUser => cases hop
      | _ => trivial
  | cosmetic hdata =>
      intro hverified
      rw [hdata.2.2] at hverified
      cases hverified
  | linkGoogle hemail unknown byAddress hdata =>
      intro hverified
      rw [hdata.2.2] at hverified
      cases hverified
  | resetPassword | changePassword | verifyEmail => nofun
  | register | createGoogleUser | createToken | rotateToken | signToken | setVerification
  | setReset | setVerified | mailRegistered | mailReset | mailVerification => trivial

theorem Effect.later {op : Statement} (h : Effect s op t) (hop : op.KeepsVerified) :
    Later s t := by
  refine ⟨fun id row hrow => ?_, fun payload => h.signed_kept⟩
  rcases h.user_kept hrow with hsame | ⟨data, rfl, hupdated⟩
  · exact ⟨row, hsame, rfl, fun h => h⟩
  · refine ⟨_, hupdated, rfl, fun hverified => ?_⟩
    change data.isEmailVerified.getD row.isEmailVerified = true
    rcases hdata : data.isEmailVerified with _ | _ | _
    · exact hverified
    · exact absurd hdata hop
    · rfl

theorem later_advance (elapsed : Nat) : Later s (s.advance elapsed) :=
  ⟨fun _ row hrow => ⟨row, hrow, rfl, fun h => h⟩, fun _ h => h⟩

theorem later_answer {call : AccountCall} {log : AccountLog} {op : Statement} (x : Outside)
    (h : Justified prims call log op) : Later s (answer prims x op s).2 :=
  (later_advance x.elapsed).trans ((effect_answer x op s).later h.keepsVerified)

/-- What a value goes on saying of the store. -/
def Recalled (prims : Primitives) (t : Store) : (op : Statement) → op.Value → Prop
  | .createUser data, user => t.Remembers user.id user.toUserRow ∧ user.email = data.email
  | .findUser key, found => ∀ user, found = some user →
      t.Remembers user.id user.toUserRow ∧ key.selects user.id user.toUserRow = true
  | .updateUser id _, user => t.Remembers user.id user.toUserRow ∧ user.id = id
  | .findToken tokenHash, found => ∀ existing, found = some existing →
      t.Remembers existing.user.id existing.user.toUserRow ∧
        existing.user.id = existing.token.userId ∧ existing.token.tokenHash = tokenHash
  | .hashPassword password, hash => ∃ salt, hash = prims.bcryptHash salt password
  | .comparePassword password hash, same => same = prims.bcryptCompare password hash
  | .verifyToken token, verified => ∀ payload, verified = .ok payload →
      payload = token ∧ payload ∈ t.signed
  | _, _ => True

theorem Recalled.later {op : Statement} {value : op.Value} (h : Recalled prims s op value)
    (hst : Later s t) : Recalled prims t op value := by
  cases op with
  | createUser data => exact ⟨h.1.later hst, h.2⟩
  | findUser key => exact fun user huser => ⟨(h user huser).1.later hst, (h user huser).2⟩
  | updateUser id data => exact ⟨h.1.later hst, h.2⟩
  | findToken tokenHash =>
      intro existing hexisting
      obtain ⟨hremembers, hrest⟩ := h existing hexisting
      exact ⟨hremembers.later hst, hrest⟩
  | hashPassword | comparePassword => exact h
  | verifyToken token =>
      intro payload hpayload
      obtain ⟨heq, hsigned⟩ := h payload hpayload
      exact ⟨heq, hst.signed payload hsigned⟩
  | createToken | rotateToken | revokeTokens | setKey | getKey | getdelKey | existsKey | delKey
  | now | randomToken | randomId | signToken | emit => trivial

theorem Store.remembers_self {id : Uuid} {row : UserRow} (h : t.users.get? id = some row) :
    t.Remembers id row :=
  ⟨row, h, rfl, fun h => h⟩

theorem Truthful.recalled {op : Statement} {value : op.Value}
    (h : Truthful prims s t op value) : Recalled prims t op value := by
  cases op with
  | createUser data => exact ⟨Store.remembers_self h.1, h.2.1⟩
  | findUser key =>
      exact fun user huser => ⟨Store.remembers_self (h user huser).1, (h user huser).2⟩
  | updateUser id data => exact ⟨Store.remembers_self h.1, h.2.1⟩
  | findToken tokenHash =>
      intro existing hexisting
      obtain ⟨-, hhash, hrow, hid⟩ := h existing hexisting
      exact ⟨Store.remembers_self hrow, hid, hhash⟩
  | hashPassword | comparePassword => exact h
  | verifyToken token => exact h
  | createToken | rotateToken | revokeTokens | setKey | getKey | getdelKey | existsKey | delKey
  | now | randomToken | randomId | signToken | emit => trivial

/-- Whatever any call has been told holds still. -/
def Faithful (prims : Primitives) (p : AccountPool) : Prop :=
  ∀ task ∈ p.tasks, ∀ op value, Answered task.log op value → Recalled prims p.store op value

theorem Faithful.start {p : AccountPool} (h : Faithful prims p) (call : AccountCall) :
    Faithful prims { p with tasks := p.tasks ++ [⟨call, [], call.program prims⟩] } := by
  intro task htask op value htold
  rcases List.mem_append.mp htask with hold | hnew
  · exact h task hold op value htold
  · obtain rfl := List.mem_singleton.mp hnew
    cases htold

theorem Faithful.answered {p : AccountPool} (h : Faithful prims p) {i : Nat} {x : Outside}
    {task : Task Statement Statement.Reply AccountError AccountCall} {op : Statement}
    {next : op.Reply → AccountProgram Unit} (ha : p.Asks i task op next)
    (hop : Justified prims task.call task.log op) :
    Faithful prims (p.answered (answer prims) i x task op next) := by
  intro task' htask' op' value htold
  rcases List.mem_or_eq_of_mem_set htask' with hold | rfl
  · exact (h task' hold op' value htold).later (later_answer x hop)
  · rcases List.mem_append.mp htold with hold | hnew
    · exact (h task ha.mem op' value hold).later (later_answer x hop)
    · obtain ⟨rfl, hvalue⟩ := Sigma.mk.inj (List.mem_singleton.mp hnew)
      exact (truthful_answer (eq_of_heq hvalue).symm).recalled

/-- An invariant of the runs: it holds where nothing is stored, and is kept by the start of a
call and by the answer to a statement that is justified by what its call has been told. -/
theorem Reachable.invariant {I : AccountPool → Prop} (hinit : I { store := {} })
    (hstart : ∀ p call, I p →
      I { p with tasks := p.tasks ++ [⟨call, [], call.program prims⟩] })
    (hanswer : ∀ (p : AccountPool) i x task op next, I p → Faithful prims p →
      p.Asks i task op next → Justified prims task.call task.log op →
        I (p.answered (answer prims) i x task op next))
    {p : AccountPool} (h : Reachable prims p) :
    (I p ∧ Faithful prims p) ∧
      p.Specified (Justified prims) (fun call log => Refused log call)
        fun call log => Passed prims log call := by
  obtain ⟨ms, run⟩ := h
  refine Pool.invariant_of_traces (I := fun p => I p ∧ Faithful prims p) traces_program
    (fun p call hp => ⟨hstart p call hp.1, hp.2.start call⟩) ?_ ⟨hinit, ?_⟩ run
  · intro p i x task op next hp ha hop
    exact ⟨hanswer p i x task op next hp.1 hp.2 ha hop, hp.2.answered ha hop⟩
  · intro task htask
    cases htask

section Reachable
variable {p : AccountPool} (h : Reachable prims p)
include h

theorem Reachable.faithful : Faithful prims p :=
  (h.invariant (I := fun _ => True) trivial (fun _ _ _ => trivial)
    fun _ _ _ _ _ _ _ _ _ _ => trivial).1.2

theorem Reachable.specified : p.Specified (Justified prims) (fun call log => Refused log call)
    fun call log => Passed prims log call :=
  (h.invariant (I := fun _ => True) trivial (fun _ _ _ => trivial)
    fun _ _ _ _ _ _ _ _ _ _ => trivial).2

/-- Every statement in a log was justified by what was told before it. -/
theorem Reachable.justly : p.Justly (Justified prims) := by
  refine (h.invariant (I := fun p => p.Justly (Justified prims)) ?_
    (fun p call hp => hp.start call) fun p i x task op next hp _ ha hop => hp.answered ha hop).1.1
  intro task htask
  cases htask

end Reachable

/-- Functions that are simple enough to compute with: a password is hashed behind its salt. -/
def plainPrimitives : Primitives where
  hashToken := List.sum
  bcryptHash salt password := salt ++ password
  bcryptCompare password hash := decide (password <:+ hash)
  toLowerCase := List.map fun u => if 65 ≤ u ∧ u ≤ 90 then u + 32 else u

/-- A call that is answered a number of times, a second after another, and nothing else. -/
def alone (i : Nat) (call : AccountCall) (statements newId seed : Nat) :
    List (Move AccountCall Outside) :=
  .start call :: (List.range statements).map fun n =>
    .resume i { elapsed := 1000, newId, random := [seed + n] }

/-- A user registers: the verification token is `[102]`. -/
def registration : List (Move AccountCall Outside) :=
  alone 0 (.register {} ⟨js "a@b.c", js "Pa55word!", js "Ann"⟩) 10 1 100

end SyncBoard.Account
