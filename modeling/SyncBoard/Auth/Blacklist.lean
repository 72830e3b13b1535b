import SyncBoard.Basic
import SyncBoard.Lib.KeyStore

/-!
# The blacklist of access tokens

`TokenBlacklistService` keeps the id of a revoked token until the token expires. The service
rounds the rest of its life up to seconds and sets the key some time later; `jsonwebtoken`
rounds the clock down to the second. The two leave no instant at which the key is gone and
the token is still good.

## Implementation notes

Of a payload only `jti` and `exp` are modelled. The service and the store read one clock, in
milliseconds. The results are about one instant: a guard that verifies a token before its
expiry and looks it up afterwards can find no key.
-/

namespace SyncBoard.Auth

open Interleaved Interleaved.Program Labelled KeyStore

structure JwtPayload where
  jti : Uuid
  exp : Nat
  deriving DecidableEq, Repr

/-- What `jsonwebtoken` finds in a token whose signature and issuer are good. A token has an
id of its own. -/
structure JsonWebToken where
  payload : JsString → Option JwtPayload
  unique : ∀ a b p q, payload a = some p → payload b = some q → p.jti = q.jti → p = q

inductive AuthError
  | tokenInvalid
  | tokenExpired
  | tokenRevoked
  | invalidOAuthState
  deriving DecidableEq, Repr

abbrev AuthProgram := StoreProgram Uuid JsString AuthError

/-- `JwtTokenService.verifyAccessToken`. -/
def verifyAccessToken (jwt : JsonWebToken) (token : JsString) (now : Timestamp) :
    Except AuthError JwtPayload :=
  match jwt.payload token with
  | none => .error .tokenInvalid
  | some payload => if payload.exp ≤ now / 1000 then .error .tokenExpired else .ok payload

namespace TokenBlacklistService

def blacklist (jti : Uuid) (expiresAt : Timestamp) : AuthProgram Unit := do
  let now ← time
  let ttl := ceilSeconds ((expiresAt : Int) - now)
  doIf (decide (0 < ttl)) (set jti (js "1") ttl.toNat)

def isBlacklisted (jti : Uuid) : AuthProgram Bool := do
  let result ← existsKey jti
  return result == 1

end TokenBlacklistService

/-- The token of an `Authorization` header. -/
def bearerToken (authHeader : Option JsString) : Option JsString :=
  authHeader.bind fun header =>
    if js "Bearer " <+: header then some ((header.drop 7).takeWhile fun u => u != 32) else none

/-- `JwtAuthGuard.canActivate`. -/
def canActivate (jwt : JsonWebToken) (authHeader : Option JsString) : AuthProgram Unit := do
  let token ← demand (bearerToken authHeader) .tokenInvalid
  let now ← time
  let payload ← orThrow id (verifyAccessToken jwt token now)
  let revoked ← TokenBlacklistService.isBlacklisted payload.jti
  refuseIf revoked .tokenRevoked

/-- A logout blacklists the token that it comes with; a request passes the guard. -/
inductive AccessCall
  | blacklist (token : JsString)
  | canActivate (authHeader : Option JsString)
  deriving DecidableEq, Repr

def AccessCall.program (jwt : JsonWebToken) : AccessCall → AuthProgram Unit
  | .blacklist token =>
      match jwt.payload token with
      | none => pure ()
      | some payload => TokenBlacklistService.blacklist payload.jti (payload.exp * 1000)
  | .canActivate authHeader => Auth.canActivate jwt authHeader

abbrev AccessPool :=
  Pool (Command Uuid JsString) Command.Answer AuthError AccessCall (Store Uuid JsString)

/-- The key of the token is kept until the token expires, or it has expired. -/
def Blocked (payload : JwtPayload) (s : Store Uuid JsString) : Prop :=
  s.KeptUntil payload.jti (payload.exp * 1000) ∨ payload.exp * 1000 ≤ s.now

/-- A write gives the key of a token a deadline that is not before its expiry. -/
def SetsInTime (jwt : JsonWebToken) (s : Store Uuid JsString) : Command Uuid JsString → Prop
  | .set jti _ seconds => ∃ token payload, jwt.payload token = some payload ∧ payload.jti = jti ∧
      payload.exp * 1000 ≤ s.now + 1000 * seconds
  | .del _ => False
  | _ => True

section Calls
variable {jwt : JsonWebToken} {s t : Store Uuid JsString} {payload : JwtPayload}

/-- The time goes on, and what is blocked stays so. -/
def StaysBlocked (jwt : JsonWebToken) (s t : Store Uuid JsString) : Prop :=
  s.now ≤ t.now ∧
    ∀ token payload, jwt.payload token = some payload → Blocked payload s → Blocked payload t

theorem Blocked.advance (h : Blocked payload s) (elapsed : Nat) :
    Blocked payload (s.advance elapsed) := by
  rcases h with hkept | hexpired
  · exact .inl (Store.keptUntil_advance.mpr hkept)
  · exact .inr (hexpired.trans (Nat.le_add_right _ _))

theorem staysBlocked_answer {op : Command Uuid JsString} (h : SetsInTime jwt s op) (x : Outside) :
    StaysBlocked jwt s (answer x op s).2 := by
  refine ⟨now_le_answer x op s, fun token payload hpayload hblocked => ?_⟩
  cases op with
  | time => exact hblocked.advance x.elapsed
  | existsKey jti => exact hblocked.advance x.elapsed
  | del jti => exact h.elim
  | set jti value seconds =>
      rcases hblocked.advance x.elapsed with hkept | hexpired
      · left
        by_cases hjti : payload.jti = jti
        · -- the new deadline is that of the same token
          obtain ⟨token', payload', hpayload', hjti', htime⟩ := h
          obtain rfl := jwt.unique token token' payload payload' hpayload hpayload'
            (hjti.trans hjti'.symm)
          subst hjti
          exact keptUntil_answer_set x htime
        · exact (Store.keptUntil_set_other hjti).mpr hkept
      · exact .inr hexpired

/-- What a call has done when it returns. -/
def AccessCall.Done (jwt : JsonWebToken) (s : Store Uuid JsString) : AccessCall → Prop
  | .blacklist token => ∀ payload, jwt.payload token = some payload → Blocked payload s
  | .canActivate _ => True

/-- However late the key is set, its deadline is not before the expiry of the token. -/
theorem safe_blacklist {token : JsString} (hpayload : jwt.payload token = some payload)
    (s : Store Uuid JsString) :
    (TokenBlacklistService.blacklist payload.jti (payload.exp * 1000)).Safe answer
      (StaysBlocked jwt) (fun _ => True) (fun s _ op => SetsInTime jwt s op) [] s
      fun _ _ t => Blocked payload t := by
  refine safe_ask_bind.mpr fun t _ _ => ⟨trivial, fun x => ?_⟩
  have hread : (answer x (Command.time : Command Uuid JsString) t).1 = t.now + x.elapsed := rfl
  have hnow : (answer x (Command.time : Command Uuid JsString) t).2.now = t.now + x.elapsed := rfl
  simp only [hread]
  generalize (answer x (Command.time : Command Uuid JsString) t).2 = r at hnow
  generalize t.now + x.elapsed = readAt at hnow
  have hreaches : ∀ now, readAt ≤ now → payload.exp * 1000 ≤ now +
      1000 * (ceilSeconds (((payload.exp * 1000 : Nat) : Int) - readAt)).toNat :=
    fun now hle => le_add_ceilSeconds hle
  by_cases hpos : 0 < ceilSeconds (((payload.exp * 1000 : Nat) : Int) - readAt)
  · rw [decide_eq_true hpos]
    rintro u ⟨hlater, -⟩ -
    have htime := hreaches u.now (hnow ▸ hlater)
    exact ⟨⟨token, payload, hpayload, rfl, htime⟩, fun y => .inl (keptUntil_answer_set y htime)⟩
  · rw [decide_eq_false hpos]
    have hexpired := hreaches r.now hnow.ge
    rw [Int.toNat_of_nonpos (Int.not_lt.mp hpos)] at hexpired
    exact .inr hexpired

theorem safe_blacklistCall (token : JsString) (s : Store Uuid JsString) :
    (AccessCall.program jwt (.blacklist token)).Safe answer (StaysBlocked jwt) (fun _ => True)
      (fun s _ op => SetsInTime jwt s op) [] s
      fun _ _ t => AccessCall.Done jwt t (.blacklist token) := by
  simp only [AccessCall.program]
  cases hpayload : jwt.payload token with
  | none =>
      rw [safe_pure]
      intro payload hsome
      cases hpayload.symm.trans hsome
  | some payload =>
      apply (safe_blacklist hpayload s).imp
      intro _ _ t hblocked payload' hsome
      obtain rfl := Option.some.inj (hpayload.symm.trans hsome)
      exact hblocked

theorem only_canActivate (jwt : JsonWebToken) (authHeader : Option JsString) :
    (Auth.canActivate jwt authHeader).Only Command.Reads := by
  refine (Only.demand _ _).bind fun token => (Only.ask trivial).bind fun now => ?_
  refine (Only.orThrow _ _).bind fun payload => ?_
  exact ((Only.ask trivial).bind fun _ => Only.pure _).bind fun _ => Only.refuseIf _ _

theorem setsInTime_of_reads {op : Command Uuid JsString} (h : op.Reads) :
    SetsInTime jwt s op := by
  cases op with
  | time | existsKey => trivial
  | set | del => exact h.elim

end Calls

/-- What a call of either kind relies on. -/
def blacklistDiscipline (jwt : JsonWebToken) : Discipline answer (AccessCall.program jwt) where
  later := StaysBlocked jwt
  inv _ := True
  allowed _ s _ op := SetsInTime jwt s op
  post call s := call.Done jwt s
  later_refl s := ⟨Nat.le_refl _, fun _ _ _ h => h⟩
  later_trans _ _ _ h h' := ⟨h.1.trans h'.1, fun token payload hpayload hblocked =>
    h'.2 token payload hpayload (h.2 token payload hpayload hblocked)⟩
  post_later call _ _ hlater hdone := by
    cases call with
    | blacklist token =>
        intro payload hpayload
        exact hlater.2 token payload hpayload (hdone payload hpayload)
    | canActivate authHeader => trivial
  kept _ x _ _ _ _ hop := ⟨staysBlocked_answer hop x, trivial⟩
  safe call s _ := by
    cases call with
    | blacklist token =>
        exact safe_blacklistCall token s
    | canActivate authHeader =>
        exact Safe.of_only (fun _ _ _ => setsInTime_of_reads) (only_canActivate jwt authHeader)
          fun _ _ _ _ => trivial

/-- At one instant, a blocked token has its key, or does not verify any more. -/
theorem Blocked.rejected {jwt : JsonWebToken} {s : Store Uuid JsString} {token : JsString}
    {payload : JwtPayload} (h : Blocked payload s) (hpayload : jwt.payload token = some payload)
    (lingers : Bool) : s.count lingers payload.jti = 1 ∨
      verifyAccessToken jwt token s.now = .error .tokenExpired := by
  by_cases hnow : s.now < payload.exp * 1000
  · rcases h with hkept | hexpired
    · exact .inl (hkept.count_eq hnow lingers)
    · omega
  · right
    have hexp : payload.exp ≤ s.now / 1000 := by omega
    simp only [verifyAccessToken, hpayload, if_pos hexp]

/-- A guard that verifies a blocked token and looks it up in one instant throws. -/
theorem Blocked.guarded {jwt : JsonWebToken} {s : Store Uuid JsString} {token : JsString}
    {payload : JwtPayload} (h : Blocked payload s) (hpayload : jwt.payload token = some payload)
    (lingers : Bool) {authHeader : Option JsString} (htoken : bearerToken authHeader = some token) :
    ∃ e, ((canActivate jwt authHeader).exec (perform lingers) s).1 = .error e := by
  have hstart : (canActivate jwt authHeader).exec (perform lingers) s =
      ((orThrow id (verifyAccessToken jwt token s.now) : AuthProgram JwtPayload) >>= fun payload =>
        TokenBlacklistService.isBlacklisted payload.jti >>= fun revoked =>
          refuseIf revoked .tokenRevoked).exec (perform lingers) s := by
    rw [canActivate, htoken]
    rfl
  rw [hstart]
  cases hverify : verifyAccessToken jwt token s.now with
  | error e => exact ⟨e, rfl⟩
  | ok verified =>
      have hcount := (h.rejected hpayload lingers).resolve_right (by simp [hverify])
      obtain rfl : payload = verified := by
        rw [verifyAccessToken, hpayload] at hverify
        dsimp only at hverify
        split at hverify
        · cases hverify
        · exact Except.ok.inj hverify
      refine ⟨.tokenRevoked, ?_⟩
      change ((refuseIf (s.count lingers payload.jti == 1) .tokenRevoked : AuthProgram Unit).exec
        (perform lingers) s).1 = _
      rw [hcount]
      rfl

/-- After a call has blacklisted a token, the token is rejected at every instant: its key is
there, or it does not verify any more, and a guard that runs in that instant throws. -/
theorem blacklisted_rejected {jwt : JsonWebToken} {s : Store Uuid JsString}
    {ms : List (Move AccessCall Outside)} {p : AccessPool}
    (run : Run (Pool.step answer (AccessCall.program jwt)) { store := s } ms p)
    {token : JsString} {payload : JwtPayload} (hpayload : jwt.payload token = some payload)
    (hdone : ∃ task ∈ p.tasks, task.call = .blacklist token ∧ task.rest = .done (.ok ()))
    (elapsed : Nat) (lingers : Bool) :
    ((p.store.advance elapsed).count lingers payload.jti = 1 ∨
      verifyAccessToken jwt token (p.store.now + elapsed) = .error .tokenExpired) ∧
    ∀ authHeader, bearerToken authHeader = some token →
      ∃ e, ((canActivate jwt authHeader).exec (perform lingers) (p.store.advance elapsed)).1 =
        .error e := by
  obtain ⟨task, htask, hcall, hrest⟩ := hdone
  have hdisciplined : Disciplined (blacklistDiscipline jwt) p :=
    run.invariant (fun _ _ _ hp hstep => hp.step hstep) (Disciplined.initial trivial)
  have hreturned : task.call.Done jwt p.store := hdisciplined.post htask hrest
  rw [hcall] at hreturned
  have hblocked : Blocked payload (p.store.advance elapsed) :=
    (hreturned payload hpayload).advance elapsed
  exact ⟨hblocked.rejected hpayload lingers, fun _ => hblocked.guarded hpayload lingers⟩

/-- One token, which expires in the second 60. -/
def oneToken60 : JsonWebToken where
  payload token := if token = js "a" then some ⟨7, 60⟩ else none
  unique a b p q ha hb _ := by
    have hp := (Option.ite_none_right_eq_some.mp ha).2
    exact Option.some.inj (hp.symm.trans (Option.ite_none_right_eq_some.mp hb).2)

/-- The rest of its life is read 1.5 seconds before the expiry, and the key set 1.4 seconds
later. -/
def lateBlacklist : List (Move AccessCall Outside) :=
  [.start (.blacklist (js "a")), .resume 0 { elapsed := 58500 }, .resume 0 { elapsed := 1400 }]

theorem blacklisted_rejected_late : ∃ p : AccessPool,
    exec (Pool.step answer (AccessCall.program oneToken60)) { store := {} } lateBlacklist =
      some p ∧ p.store.now = 59900 ∧
    ((p.store.advance 99).count false 7 = 1 ∨
      verifyAccessToken oneToken60 (js "a") (p.store.now + 99) = .error .tokenExpired) := by
  obtain ⟨p, hp⟩ : ∃ p : AccessPool, exec (Pool.step answer (AccessCall.program oneToken60))
      { store := {} } lateBlacklist = some p := ⟨_, rfl⟩
  have hpayload : oneToken60.payload (js "a") = some ⟨7, 60⟩ := by decide
  refine ⟨p, hp, ?_, (blacklisted_rejected (run_of_exec hp) hpayload ?_ 99 false).1⟩
  · obtain rfl := Option.some.inj hp
    rfl
  · obtain rfl := Option.some.inj hp
    exact ⟨_, List.mem_singleton_self _, rfl, rfl⟩

end SyncBoard.Auth
