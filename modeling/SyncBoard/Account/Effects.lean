import SyncBoard.Account.Store

/-!
# What a statement does to the store

One inversion for each part of the store: which statement changes the users, the sessions, the
signed payloads, the events and the keys, and how. A statement whose reply is lost does the
same as one that is answered. What is answered was there (`Truthful`).
-/

namespace SyncBoard.Account

open Interleaved Relational

variable {prims : Primitives} {x : Outside} {s : Store}

/-- What a statement makes of the store at its instant: nothing, or one write. -/
inductive Effect (s : Store) : Statement → Store → Prop
  | unchanged {op : Statement} : Effect s op s
  | createUser {data : UserRow} {newId : Uuid} {users : Table Uuid UserRow}
      (hfresh : s.users.get? newId = none)
      (hfree : s.clashes newId { data with createdAt := s.keys.now } = false)
      (hwrote : s.users.Wrote users newId { data with createdAt := s.keys.now }) :
      Effect s (.createUser data) { s with users }
  | updateUser {id : Uuid} {data : UserData} {row : UserRow} {users : Table Uuid UserRow}
      (hrow : s.users.get? id = some row) (hfree : s.clashes id (data.apply row) = false)
      (hwrote : s.users.Wrote users id (data.apply row)) :
      Effect s (.updateUser id data) { s with users }
  | createToken {data : Auth.RefreshToken} {newId : Uuid} {tokens : Auth.TokenTable}
      (h : Auth.create s.tokens newId data = some tokens) :
      Effect s (.createToken data) { s with tokens }
  | rotateToken {previous newId : Uuid} {data : Auth.RefreshToken} {tokens : Auth.TokenTable}
      (h : Auth.rotate s.tokens previous newId data s.keys.now = some tokens) :
      Effect s (.rotateToken previous data) { s with tokens }
  | revokeTokens {sessions : Sessions} :
      Effect s (.revokeTokens sessions) (s.revokeTokens sessions)
  | setKey {key : RedisKey} {value : RedisValue} {seconds : Nat} :
      Effect s (.setKey key value seconds) { s with keys := s.keys.set key value seconds }
  | getdelKey {key : RedisKey} : Effect s (.getdelKey key) { s with keys := s.keys.del key }
  | delKey {key : RedisKey} : Effect s (.delKey key) { s with keys := s.keys.del key }
  | signToken {user : User} {jti : Uuid} :
      Effect s (.signToken user) { s with signed := s.payloadFor jti user :: s.signed }
  | emit {event : AuthEvent} : Effect s (.emit event) { s with events := event :: s.events }

namespace Store

/-- Time passes. -/
def advance (s : Store) (elapsed : Nat) : Store :=
  { s with keys := s.keys.advance elapsed }

theorem createUser_eq_ok {newId : Uuid} {data : UserRow} {user : User} {t : Store}
    (h : s.createUser newId data = .ok (user, t)) :
    user = { { data with createdAt := s.keys.now } with id := newId } ∧
      s.users.get? newId = none ∧
      s.clashes newId { data with createdAt := s.keys.now } = false ∧
      s.users.Wrote t.users newId { data with createdAt := s.keys.now } ∧
      t = { s with users := t.users } := by
  unfold createUser at h
  dsimp only at h
  split at h
  · cases h
  · next hfree =>
      split at h
      · cases h
      · next users hinsert =>
          cases h
          rw [Bool.not_eq_true] at hfree
          exact ⟨rfl, Table.insert?_fresh hinsert, hfree,
            fun j => Table.get?_insert? hinsert j, rfl⟩

theorem updateUser_eq_ok {id : Uuid} {data : UserData} {user : User} {t : Store}
    (h : s.updateUser id data = .ok (user, t)) :
    ∃ row, s.users.get? id = some row ∧ user = { data.apply row with id := id } ∧
      s.clashes id (data.apply row) = false ∧ s.users.Wrote t.users id (data.apply row) ∧
      t = { s with users := t.users } := by
  unfold updateUser at h
  split at h
  · cases h
  · next row hrow =>
      dsimp only at h
      split at h
      · cases h
      · next hfree =>
          cases h
          rw [Bool.not_eq_true] at hfree
          exact ⟨row, hrow, rfl, hfree, Table.wrote_modify hrow _, rfl⟩

theorem createToken_eq_ok {newId : Uuid} {data : Auth.RefreshToken} {t : Store}
    (h : s.createToken newId data = .ok ((), t)) :
    ∃ tokens, Auth.create s.tokens newId data = some tokens ∧ t = { s with tokens } := by
  unfold createToken at h
  split at h
  · split at h
    · cases h
    · next tokens hcreate =>
        cases h
        exact ⟨tokens, hcreate, rfl⟩
  · cases h

theorem rotateToken_eq_ok {newId previous : Uuid} {data : Auth.RefreshToken} {t : Store}
    (h : s.rotateToken newId previous data = .ok ((), t)) :
    ∃ tokens, Auth.rotate s.tokens previous newId data s.keys.now = some tokens ∧
      t = { s with tokens } := by
  unfold rotateToken at h
  split at h
  · split at h
    · cases h
    · next tokens hrotate =>
        cases h
        exact ⟨tokens, hrotate, rfl⟩
  · cases h

/-- A write is turned down, or it returns and leaves what it computes. -/
theorem written_cases {α : Type} (r : Except StoreError (α × Store)) :
    (∃ e, s.written r = (.error e, s)) ∨ ∃ a t, r = .ok (a, t) ∧ s.written r = (.ok a, t) := by
  cases r with
  | error e => exact .inl ⟨e, rfl⟩
  | ok r => exact .inr ⟨r.1, r.2, rfl, rfl⟩

theorem findUser_eq_some {key : UserKey} {user : User} (h : s.findUser key = some user) :
    s.users.get? user.id = some user.toUserRow ∧ key.selects user.id user.toUserRow = true := by
  obtain ⟨⟨id, row⟩, hfind, rfl⟩ := Option.map_eq_some_iff.mp h
  exact Table.find?_eq_some hfind

theorem findUser_eq_none {key : UserKey} (h : s.findUser key = none) {id : Uuid} {row : UserRow}
    (hrow : s.users.get? id = some row) : key.selects id row = false :=
  Table.find?_eq_none (Option.map_eq_none_iff.mp h) hrow

theorem findToken_eq_some {tokenHash : Auth.TokenHash} {existing : TokenWithUser}
    (h : s.findToken tokenHash = some existing) :
    s.tokens.get? existing.id = some existing.token ∧ existing.token.tokenHash = tokenHash ∧
      s.findUser (.id existing.token.userId) = some existing.user := by
  obtain ⟨⟨id, token⟩, hfind, hrest⟩ := Option.bind_eq_some_iff.mp h
  obtain ⟨user, huser, heq⟩ := Option.bind_eq_some_iff.mp hrest
  obtain rfl := Option.some.inj heq
  obtain ⟨htoken, hhash⟩ := Table.find?_eq_some hfind
  exact ⟨htoken, of_decide_eq_true hhash, huser⟩

end Store

theorem effect_perform (op : Statement) : Effect s op (perform prims x op s).2 := by
  cases op with
  | createUser data =>
      rw [perform]
      rcases s.written_cases (s.createUser x.newId data) with ⟨e, h⟩ | ⟨user, t, hok, h⟩
      · rw [h]
        exact .unchanged
      · obtain ⟨-, hfresh, hfree, hwrote, ht⟩ := Store.createUser_eq_ok hok
        rw [h, ht]
        exact .createUser hfresh hfree hwrote
  | updateUser id data =>
      rw [perform]
      rcases s.written_cases (s.updateUser id data) with ⟨e, h⟩ | ⟨user, t, hok, h⟩
      · rw [h]
        exact .unchanged
      · obtain ⟨row, hrow, -, hfree, hwrote, ht⟩ := Store.updateUser_eq_ok hok
        rw [h, ht]
        exact .updateUser hrow hfree hwrote
  | createToken data =>
      rw [perform]
      rcases s.written_cases (s.createToken x.newId data) with ⟨e, h⟩ | ⟨_, t, hok, h⟩
      · rw [h]
        exact .unchanged
      · obtain ⟨tokens, hcreate, rfl⟩ := Store.createToken_eq_ok hok
        rw [h]
        exact .createToken hcreate
  | rotateToken previous data =>
      rw [perform]
      rcases s.written_cases (s.rotateToken x.newId previous data) with ⟨e, h⟩ | ⟨_, t, hok, h⟩
      · rw [h]
        exact .unchanged
      · obtain ⟨tokens, hrotate, rfl⟩ := Store.rotateToken_eq_ok hok
        rw [h]
        exact .rotateToken hrotate
  | revokeTokens sessions => exact .revokeTokens
  | setKey key value seconds => exact .setKey
  | getdelKey key => exact .getdelKey
  | delKey key => exact .delKey
  | signToken user => exact .signToken
  | emit event => exact .emit
  | findUser | findToken | getKey | existsKey | now | randomToken | randomId | hashPassword
  | comparePassword | verifyToken => exact .unchanged

/-- A user that a statement leaves was there before, is the one that it creates, or the one that
it updates. -/
theorem Effect.user {t : Store} {op : Statement} (h : Effect s op t) {id : Uuid} {row : UserRow}
    (hrow : t.users.get? id = some row) :
    s.users.get? id = some row ∨
      (∃ data, op = .createUser data ∧ s.users.get? id = none ∧
        row = { data with createdAt := s.keys.now }) ∨
      ∃ data old, op = .updateUser id data ∧ s.users.get? id = some old ∧ row = data.apply old := by
  cases h with
  | createUser hfresh hfree hwrote =>
      rcases hwrote.eq_or_old hrow with ⟨rfl, rfl⟩ | ⟨-, hold⟩
      · exact .inr (.inl ⟨_, rfl, hfresh, rfl⟩)
      · exact .inl hold
  | updateUser hold hfree hwrote =>
      rcases hwrote.eq_or_old hrow with ⟨rfl, rfl⟩ | ⟨-, hsame⟩
      · exact .inr (.inr ⟨_, _, rfl, hold, rfl⟩)
      · exact .inl hsame
  | @revokeTokens sessions =>
      cases sessions with
      | family | token | user => exact .inl hrow
  | unchanged | createToken | rotateToken | setKey | getdelKey | delKey | signToken | emit =>
      exact .inl hrow

/-- A user that was there is still there, as it was or as the statement updates it. -/
theorem Effect.user_kept {t : Store} {op : Statement} (h : Effect s op t) {id : Uuid}
    {row : UserRow} (hrow : s.users.get? id = some row) :
    t.users.get? id = some row ∨
      ∃ data, op = .updateUser id data ∧ t.users.get? id = some (data.apply row) := by
  cases h with
  | @createUser data newId users hfresh hfree hwrote =>
      have hne : id ≠ newId := by
        rintro rfl
        rw [hfresh] at hrow
        cases hrow
      exact .inl ((hwrote.other hne).trans hrow)
  | @updateUser j data old users hold hfree hwrote =>
      rcases eq_or_ne id j with rfl | hne
      · obtain rfl := Option.some.inj (hold.symm.trans hrow)
        exact .inr ⟨data, rfl, hwrote.self⟩
      · exact .inl ((hwrote.other hne).trans hrow)
  | @revokeTokens sessions =>
      cases sessions with
      | family | token | user => exact .inl hrow
  | unchanged | createToken | rotateToken | setKey | getdelKey | delKey | signToken | emit =>
      exact .inl hrow

/-- What was signed stays signed. -/
theorem Effect.signed_kept {t : Store} {op : Statement} (h : Effect s op t) {payload : JwtPayload}
    (hpayload : payload ∈ s.signed) : payload ∈ t.signed := by
  cases h with
  | signToken => exact List.mem_cons_of_mem _ hpayload
  | @revokeTokens sessions =>
      cases sessions with
      | family | token | user => exact hpayload
  | unchanged | createUser | updateUser | createToken | rotateToken | setKey | getdelKey | delKey
  | emit => exact hpayload

/-- A payload that a statement leaves was signed before, or is signed now for a user, with the
claim that the user is verified or not. -/
theorem Effect.signed {t : Store} {op : Statement} (h : Effect s op t) {payload : JwtPayload}
    (hpayload : payload ∈ t.signed) : payload ∈ s.signed ∨ ∃ user : User, op = .signToken user ∧
      payload.sub = user.id ∧ payload.isEmailVerified = user.isEmailVerified := by
  cases h with
  | signToken =>
      rcases List.mem_cons.mp hpayload with rfl | hold
      · exact .inr ⟨_, rfl, rfl, rfl⟩
      · exact .inl hold
  | @revokeTokens sessions =>
      cases sessions with
      | family | token | user => exact .inl hpayload
  | unchanged | createUser | updateUser | createToken | rotateToken | setKey | getdelKey | delKey
  | emit => exact .inl hpayload

/-- What a statement leaves under a key was there, or is what the statement sets. -/
theorem Effect.entries {t : Store} {op : Statement} (h : Effect s op t) {key : RedisKey}
    {entry : RedisValue × Nat} (hentry : t.keys.entries key = some entry) :
    s.keys.entries key = some entry ∨
      ∃ value seconds, op = .setKey key value seconds ∧ entry.1 = value := by
  cases h with
  | @setKey key' value seconds =>
      rcases eq_or_ne key key' with rfl | hne
      · have hset : (s.keys.set key value seconds).entries key =
            some (value, s.keys.now + 1000 * seconds) := Function.update_self _ _ _
        obtain rfl := Option.some.inj (hset.symm.trans hentry)
        exact .inr ⟨value, seconds, rfl, rfl⟩
      · have hset : (s.keys.set key' value seconds).entries key = s.keys.entries key :=
          Function.update_of_ne hne _ _
        exact .inl (hset.symm.trans hentry)
  | @getdelKey key' | @delKey key' =>
      rcases eq_or_ne key key' with rfl | hne
      · have hdel : (s.keys.del key).entries key = none := Function.update_self _ _ _
        have hnone := hdel.symm.trans hentry
        cases hnone
      · have hdel : (s.keys.del key').entries key = s.keys.entries key :=
          Function.update_of_ne hne _ _
        exact .inl (hdel.symm.trans hentry)
  | @revokeTokens sessions =>
      cases sessions with
      | family | token | user => exact .inl hentry
  | unchanged | createUser | updateUser | createToken | rotateToken | signToken | emit =>
      exact .inl hentry

/-- An event that a statement leaves was emitted before, or is emitted now. -/
theorem Effect.events {t : Store} {op : Statement} (h : Effect s op t) {event : AuthEvent}
    (hevent : event ∈ t.events) : event ∈ s.events ∨ op = .emit event := by
  cases h with
  | emit =>
      rcases List.mem_cons.mp hevent with rfl | hold
      · exact .inr rfl
      · exact .inl hold
  | @revokeTokens sessions =>
      cases sessions with
      | family | token | user => exact .inl hevent
  | unchanged | createUser | updateUser | createToken | rotateToken | setKey | getdelKey | delKey
  | signToken => exact .inl hevent

/-- Whatever becomes of the reply, time passes and the statement has its effect or none. -/
theorem effect_answer (x : Outside) (op : Statement) (s : Store) :
    Effect (s.advance x.elapsed) op (answer prims x op s).2 := by
  unfold answer
  dsimp only
  split
  · exact effect_perform op
  · exact .unchanged
  · exact effect_perform op

/-- A value is what the statement finds at its instant, and the store what it leaves. -/
theorem answer_eq_ok {op : Statement} {value : op.Value}
    (h : (answer prims x op s).1 = .ok value) :
    (perform prims x op (s.advance x.elapsed)).1 = .ok value ∧
      (answer prims x op s).2 = (perform prims x op (s.advance x.elapsed)).2 := by
  unfold answer at h ⊢
  dsimp only at h ⊢
  split at h
  · exact ⟨h, rfl⟩
  · cases h
  · cases h

/-- What a value says of the stores before and after its statement. -/
def Truthful (prims : Primitives) (s t : Store) : (op : Statement) → op.Value → Prop
  | .createUser data, user => t.users.get? user.id = some user.toUserRow ∧
      user.email = data.email ∧ user.googleId = data.googleId
  | .findUser key, found => ∀ user, found = some user →
      t.users.get? user.id = some user.toUserRow ∧ key.selects user.id user.toUserRow = true
  | .updateUser id data, user => t.users.get? user.id = some user.toUserRow ∧ user.id = id ∧
      user.googleId = data.googleId.or user.googleId
  | .findToken tokenHash, found => ∀ existing, found = some existing →
      t.tokens.get? existing.id = some existing.token ∧ existing.token.tokenHash = tokenHash ∧
        t.users.get? existing.user.id = some existing.user.toUserRow ∧
        existing.user.id = existing.token.userId
  | .getKey key, found => ∀ value, found = some value →
      ∃ deadline, s.keys.entries key = some (value, deadline)
  | .getdelKey key, found => ∀ value, found = some value →
      ∃ deadline, s.keys.entries key = some (value, deadline)
  | .hashPassword password, hash => ∃ salt, hash = prims.bcryptHash salt password
  | .comparePassword password hash, same => same = prims.bcryptCompare password hash
  | .verifyToken token, verified => ∀ payload, verified = .ok payload →
      payload = token ∧ payload ∈ t.signed
  | _, _ => True

theorem truthful_answer {op : Statement} {value : op.Value}
    (h : (answer prims x op s).1 = .ok value) :
    Truthful prims s (answer prims x op s).2 op value := by
  obtain ⟨hvalue, hstore⟩ := answer_eq_ok h
  rw [hstore]
  clear h hstore
  cases op with
  | createUser data =>
      rw [perform] at hvalue ⊢
      rcases (s.advance x.elapsed).written_cases ((s.advance x.elapsed).createUser x.newId data)
        with ⟨e, h⟩ | ⟨user, t, hok, h⟩
      · rw [h] at hvalue
        cases hvalue
      · rw [h] at hvalue ⊢
        cases hvalue
        obtain ⟨huser, -, -, hwrote, -⟩ := Store.createUser_eq_ok hok
        rw [huser]
        exact ⟨hwrote.self, rfl, rfl⟩
  | updateUser id data =>
      rw [perform] at hvalue ⊢
      rcases (s.advance x.elapsed).written_cases ((s.advance x.elapsed).updateUser id data)
        with ⟨e, h⟩ | ⟨user, t, hok, h⟩
      · rw [h] at hvalue
        cases hvalue
      · rw [h] at hvalue ⊢
        cases hvalue
        obtain ⟨row, -, huser, -, hwrote, -⟩ := Store.updateUser_eq_ok hok
        rw [huser]
        refine ⟨hwrote.self, rfl, ?_⟩
        cases hdata : data.googleId with
        | none => rfl
        | some googleId => simp [UserData.apply, hdata]
  | findUser key =>
      cases hvalue
      intro user hfound
      exact Store.findUser_eq_some hfound
  | findToken tokenHash =>
      cases hvalue
      intro existing hfound
      obtain ⟨htoken, hhash, huser⟩ := Store.findToken_eq_some hfound
      obtain ⟨hrow, hid⟩ := Store.findUser_eq_some huser
      exact ⟨htoken, hhash, hrow, of_decide_eq_true hid⟩
  | getKey key | getdelKey key =>
      cases hvalue
      intro value hget
      obtain ⟨deadline, hentry, -⟩ := (KeyStore.Store.get_eq_some _).mp hget
      exact ⟨deadline, hentry⟩
  | hashPassword password =>
      cases hvalue
      exact ⟨x.random, rfl⟩
  | comparePassword password hash =>
      cases hvalue
      rfl
  | verifyToken token =>
      cases hvalue
      intro payload hverified
      unfold Store.verifyToken at hverified
      split at hverified
      · next hmem =>
          split at hverified
          · cases hverified
          · cases hverified
            exact ⟨rfl, hmem⟩
      · cases hverified
  | createToken | rotateToken | revokeTokens | setKey | existsKey | delKey | now | randomToken
  | randomId | signToken | emit => trivial

end SyncBoard.Account
