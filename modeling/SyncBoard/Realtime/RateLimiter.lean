import Mathlib.Logic.Function.Basic
import SyncBoard.Basic
import SyncBoard.Lib.Decimal
import SyncBoard.Lib.KeyStore
import SyncBoard.Lib.SortedSet

/-!
# The limit on events

`checkRateLimit` records every call of a user in a sorted set, the rejected ones too, and
counts what is left of the set once the calls that are a window old have been removed. A
call that can still count is therefore in the set of every later call, until it is a whole
window old; the set stays under its key for as long. So rejected calls use up the limit:
a call is rejected exactly where the window before it has `limit` calls, rejected or not.

## Implementation notes

A call reads the clock and runs its pipeline in one instant. Limits and windows are whole
numbers. A pipeline that fails lets its call through, and the runs have none. The suffix of
a member is given with the call. Of `WsRateLimitGuard` the lookup of its configuration and
of the user is an argument.
-/

namespace SyncBoard.Realtime

open Decimal KeyStore

/-- The sorted sets by their keys. -/
abbrev RedisSets := JsString → SortedSet JsString Int

/-- When a call is made, in milliseconds, and what it takes from outside. -/
structure RateLimitCall where
  now : Nat
  suffix : JsString
  lingers : Bool := false
  deriving DecidableEq, Repr

/-- The entry of a call in its set. -/
def RateLimitCall.member (c : RateLimitCall) : JsString :=
  decimal c.now ++ js "-" ++ c.suffix

def rateLimitKey (userId eventCategory : JsString) : JsString :=
  js "ratelimit:ws:" ++ userId ++ js ":" ++ eventCategory

/-- The seconds that a set stays under its key. -/
def rateLimitTtl (windowMs : Nat) : Nat :=
  (max (ceilSeconds windowMs) 1).toNat

/-- The commands of a call. -/
def rateLimitPipeline (windowMs : Nat) (c : RateLimitCall) :
    List (SortedSet.Command JsString Int) :=
  let windowStart : Int := c.now - windowMs
  [.zremrangebyscore 0 windowStart, .zadd c.now c.member, .zcard,
    .expire (rateLimitTtl windowMs)]

/-- The decision on the results of the pipeline; without any the call is let through. -/
def withinLimit (limit : Nat) : Option (List Nat) → Bool
  | none => true
  | some results =>
      match results[2]? with
      | some count => !decide (limit < count)
      | none => true

section Limiter
variable (userId eventCategory : JsString) (limit windowMs : Nat)

def checkRateLimit (c : RateLimitCall) (s : RedisSets) : Bool × RedisSets :=
  let key := rateLimitKey userId eventCategory
  let r := SortedSet.pipeline c.now (rateLimitPipeline windowMs c) ((s key).seen c.now c.lingers)
  (withinLimit limit (some r.1), Function.update s key r.2)

end Limiter

/-- `WsRateLimitOptions`. -/
structure WsRateLimitOptions where
  category : JsString
  limit : Nat
  windowMs : Nat
  silent : Bool := false
  deriving DecidableEq, Repr

structure WsException where
  code : String
  message : String
  deriving DecidableEq, Repr

/-- `WsRateLimitGuard.canActivate`. An empty id is no user. -/
def canActivate (config : Option WsRateLimitOptions) (userId : Option JsString)
    (c : RateLimitCall) (s : RedisSets) : Except WsException Bool × RedisSets :=
  match config with
  | none => (.ok true, s)
  | some config =>
      match userId.filter (· ≠ []) with
      | none =>
          (if config.silent then .ok false
            else .error ⟨"TOKEN_INVALID", "Authentication required"⟩, s)
      | some userId =>
          let r := checkRateLimit userId config.category config.limit config.windowMs c s
          (if r.1 then .ok true
            else if config.silent then .ok false
            else .error ⟨"RATE_LIMIT_EXCEEDED", "Too many requests"⟩, r.2)

/-- What the gateway makes of the guard's answer. -/
def reachesHandler : Except WsException Bool → Bool
  | .ok allowed => allowed
  | .error _ => false

/-- The set of a call when it is counted. -/
def countedSet (windowMs : Nat) (c : RateLimitCall) (z : SortedSet JsString Int) :
    SortedSet JsString Int :=
  ((z.seen c.now c.lingers).zremrangebyscore 0 (c.now - windowMs)).zadd c.now c.member

/-- Each call that can still count at an instant is in the set, which stays as long. -/
def Recorded (windowMs : Nat) (calls : List RateLimitCall) (now : Nat)
    (z : SortedSet JsString Int) : Prop :=
  ∀ a ∈ calls, now < a.now + windowMs →
    z.scores.get? a.member = some (a.now : Int) ∧
      ∀ deadline ∈ z.expiresAt, a.now + windowMs ≤ deadline

section Calls
variable {userId eventCategory : JsString} {limit windowMs : Nat} {c : RateLimitCall}
  {s : RedisSets} {z : SortedSet JsString Int} {calls : List RateLimitCall}

theorem checkRateLimit_allowed :
    (checkRateLimit userId eventCategory limit windowMs c s).1 = true ↔
      (countedSet windowMs c (s (rateLimitKey userId eventCategory))).zcard ≤ limit := by
  have hcount : (checkRateLimit userId eventCategory limit windowMs c s).1 =
      !decide (limit < (countedSet windowMs c (s (rateLimitKey userId eventCategory))).zcard) := rfl
  rw [hcount, Bool.not_eq_true', decide_eq_false_iff_not, Nat.not_lt]

theorem checkRateLimit_key :
    (checkRateLimit userId eventCategory limit windowMs c s).2
        (rateLimitKey userId eventCategory) =
      (countedSet windowMs c (s (rateLimitKey userId eventCategory))).expire c.now
        (rateLimitTtl windowMs) :=
  Function.update_self ..

/-- The time to live covers the window. -/
theorem le_rateLimitTtl (windowMs : Nat) : windowMs ≤ 1000 * rateLimitTtl windowMs := by
  have hceil := le_ceilSeconds windowMs
  unfold rateLimitTtl
  omega

theorem Recorded.later (h : Recorded windowMs calls c.now z) {now : Nat}
    (hle : c.now ≤ now) : Recorded windowMs calls now z :=
  fun a ha hlt => h a ha (hle.trans_lt hlt)

/-- What can still count is counted. -/
theorem Recorded.counted (h : Recorded windowMs calls c.now z)
    (hdistinct : ∀ a ∈ calls, a.member ≠ c.member) {a : RateLimitCall} (ha : a ∈ calls ++ [c])
    (hlt : c.now < a.now + windowMs) :
    (countedSet windowMs c z).scores.get? a.member = some (a.now : Int) := by
  rw [countedSet, SortedSet.get?_zadd]
  rcases List.mem_append.mp ha with ha | ha
  · obtain ⟨hscore, hdeadline⟩ := h a ha hlt
    have hseen : z.seen c.now c.lingers = z := by
      apply SortedSet.seen_of_lt
      intro deadline hsome
      exact hlt.trans_le (hdeadline deadline hsome)
    rw [if_neg (hdistinct a ha), hseen]
    apply SortedSet.get?_zremrangebyscore.mpr
    exact ⟨hscore, by omega⟩
  · obtain rfl := List.mem_singleton.mp ha
    rw [if_pos rfl]

/-- A call records itself and keeps what can still count. -/
theorem Recorded.check (h : Recorded windowMs calls c.now z)
    (hsorted : ∀ a ∈ calls, a.now ≤ c.now) (hdistinct : ∀ a ∈ calls, a.member ≠ c.member) :
    Recorded windowMs (calls ++ [c]) c.now
      ((countedSet windowMs c z).expire c.now (rateLimitTtl windowMs)) := by
  have hself : (countedSet windowMs c z).scores.get? c.member = some (c.now : Int) := by
    rw [countedSet, SortedSet.get?_zadd, if_pos rfl]
  rw [SortedSet.expire_of_mem hself]
  intro a ha hlt
  refine ⟨h.counted hdistinct ha hlt, fun deadline hsome => ?_⟩
  obtain rfl : c.now + 1000 * rateLimitTtl windowMs = deadline := Option.some.inj hsome
  have hle : a.now ≤ c.now := by
    rcases List.mem_append.mp ha with ha | ha
    · exact hsorted a ha
    · exact (List.mem_singleton.mp ha) ▸ Nat.le_refl _
  have httl := le_rateLimitTtl windowMs
  omega

end Calls

section Sequences
variable {α β γ σ : Type}

/-- The calls with their answers, one after the other. -/
def served (f : α → σ → β × σ) : σ → List α → List (α × β)
  | _, [] => []
  | s, a :: as => (a, (f a s).1) :: served f (f a s).2 as

/-- What a sequence of calls leaves. -/
def leaves (f : α → σ → β × σ) : σ → List α → σ
  | s, [] => s
  | s, a :: as => leaves f (f a s).2 as

variable {f : α → σ → β × σ}

theorem served_concat (s : σ) (as : List α) (a : α) :
    served f s (as ++ [a]) = served f s as ++ [(a, (f a (leaves f s as)).1)] := by
  induction as generalizing s with
  | nil => rfl
  | cons b as ih => rw [List.cons_append, served, ih, served, leaves, List.cons_append]

theorem leaves_concat (s : σ) (as : List α) (a : α) :
    leaves f s (as ++ [a]) = (f a (leaves f s as)).2 := by
  induction as generalizing s with
  | nil => rfl
  | cons b as ih => rw [List.cons_append, leaves, ih, leaves]

theorem served_map_fst (s : σ) (as : List α) : (served f s as).map Prod.fst = as := by
  induction as generalizing s with
  | nil => rfl
  | cons a as ih => rw [served, List.map_cons, ih]

/-- Two ways to serve that leave the same give the same answers, as far as those agree. -/
theorem served_map {g : α → σ → γ × σ} {h : γ → β} (hleaves : ∀ a s, (g a s).2 = (f a s).2)
    (hanswer : ∀ a s, h (g a s).1 = (f a s).1) (s : σ) (as : List α) :
    (served g s as).map (fun p => (p.1, h p.2)) = served f s as := by
  induction as generalizing s with
  | nil => rfl
  | cons a as ih => rw [served, List.map_cons, ih, served, hanswer, hleaves]

end Sequences

/-- The calls come at times that do not decrease, each with a member of its own. -/
structure Orderly (calls : List RateLimitCall) : Prop where
  sorted : calls.Pairwise fun a b => a.now ≤ b.now
  distinct : (calls.map RateLimitCall.member).Nodup

/-- The call was let through, at a time within a window. -/
def passedWithin (start : Int) (windowMs : Nat) (a : RateLimitCall × Bool) : Bool :=
  a.2 && decide (start ≤ a.1.now ∧ (a.1.now : Int) < start + windowMs)

section Windows
variable {userId eventCategory : JsString} {limit windowMs : Nat} {calls : List RateLimitCall}
  {c : RateLimitCall}

theorem orderly_concat : Orderly (calls ++ [c]) ↔
    Orderly calls ∧ ∀ a ∈ calls, a.now ≤ c.now ∧ a.member ≠ c.member := by
  constructor
  · rintro ⟨hsorted, hdistinct⟩
    obtain ⟨hbefore, -, hlast⟩ := List.pairwise_append.mp hsorted
    rw [List.map_append, List.nodup_append] at hdistinct
    obtain ⟨hmembers, -, hfresh⟩ := hdistinct
    refine ⟨⟨hbefore, hmembers⟩, fun a ha => ⟨?_, ?_⟩⟩
    · exact hlast a ha c (List.mem_singleton_self c)
    · exact hfresh a.member (List.mem_map_of_mem ha) c.member (List.mem_singleton_self _)
  · rintro ⟨⟨hbefore, hmembers⟩, hlast⟩
    constructor
    · refine List.pairwise_append.mpr ⟨hbefore, List.pairwise_singleton _ _, ?_⟩
      intro a ha b hb
      obtain rfl := List.mem_singleton.mp hb
      exact (hlast a ha).1
    · rw [List.map_append, List.nodup_append]
      refine ⟨hmembers, List.nodup_singleton _, fun m hm n hn => ?_⟩
      obtain ⟨a, ha, rfl⟩ := List.mem_map.mp hm
      obtain rfl := List.mem_singleton.mp hn
      exact (hlast a ha).2

/-- After a sequence of calls, all that can still count is in the set. -/
theorem recorded_leaves (s : RedisSets) (h : Orderly calls) {now : Nat}
    (hnow : ∀ a ∈ calls, a.now ≤ now) :
    Recorded windowMs calls now
      (leaves (checkRateLimit userId eventCategory limit windowMs) s calls
        (rateLimitKey userId eventCategory)) := by
  induction calls using List.reverseRecOn generalizing now with
  | nil =>
      intro a ha
      cases ha
  | append_singleton calls c ih =>
      obtain ⟨hbefore, hlast⟩ := orderly_concat.mp h
      have hrecorded := ih hbefore fun a ha => (hlast a ha).1
      rw [leaves_concat, checkRateLimit_key]
      apply (hrecorded.check (fun a ha => (hlast a ha).1) fun a ha => (hlast a ha).2).later
      exact hnow c (List.mem_append_right calls (List.mem_singleton_self c))

/-- The last call counts itself and every call within the window that precedes it. -/
theorem within_lt_counted (s : RedisSets) (h : Orderly (calls ++ [c])) :
    calls.countP (fun a => decide (c.now < a.now + windowMs)) <
      (countedSet windowMs c (leaves (checkRateLimit userId eventCategory limit windowMs) s calls
        (rateLimitKey userId eventCategory))).zcard := by
  obtain ⟨hbefore, hlast⟩ := orderly_concat.mp h
  have hrecorded : Recorded windowMs calls c.now (leaves
      (checkRateLimit userId eventCategory limit windowMs) s calls
        (rateLimitKey userId eventCategory)) :=
    recorded_leaves s hbefore fun a ha => (hlast a ha).1
  let within := calls.filter fun a => decide (c.now < a.now + windowMs)
  have hmembers : (c.member :: within.map RateLimitCall.member).Nodup := by
    refine List.nodup_cons.mpr ⟨fun hmem => ?_, ?_⟩
    · obtain ⟨a, ha, hmember⟩ := List.mem_map.mp hmem
      exact (hlast a (List.mem_of_mem_filter ha)).2 hmember
    · exact hbefore.distinct.sublist (List.filter_sublist.map _)
  rw [List.countP_eq_length_filter, ← List.length_map (f := RateLimitCall.member)]
  apply SortedSet.length_le_zcard hmembers
  intro m hm
  apply (Relational.Table.contains_iff _ _).mpr
  rcases List.mem_cons.mp hm with rfl | hm
  · exact ⟨c.now, by rw [countedSet, SortedSet.get?_zadd, if_pos rfl]⟩
  · obtain ⟨a, ha, rfl⟩ := List.mem_map.mp hm
    obtain ⟨hcall, hwithin⟩ := List.mem_filter.mp ha
    exact ⟨_, hrecorded.counted (fun b hb => (hlast b hb).2) (List.mem_append_left [c] hcall)
      (of_decide_eq_true hwithin)⟩

/-- The last call counts everything that was let through in a window that is not over. -/
theorem passed_le_counted (s : RedisSets) (h : Orderly (calls ++ [c])) {start : Int}
    (hwindow : (c.now : Int) < start + windowMs) :
    (served (checkRateLimit userId eventCategory limit windowMs) s (calls ++ [c])).countP
        (passedWithin start windowMs) ≤
      (countedSet windowMs c (leaves (checkRateLimit userId eventCategory limit windowMs) s calls
        (rateLimitKey userId eventCategory))).zcard := by
  refine le_trans ?_ (within_lt_counted s h)
  have hbefore : (served (checkRateLimit userId eventCategory limit windowMs) s calls).countP
      (passedWithin start windowMs) ≤
        calls.countP (fun a => decide (c.now < a.now + windowMs)) := by
    conv_rhs => rw [← served_map_fst (f := checkRateLimit userId eventCategory limit windowMs) s
      calls, List.countP_map]
    apply List.countP_mono_left
    intro a _ hpassed
    simp only [passedWithin, Bool.and_eq_true, decide_eq_true_eq] at hpassed
    simp only [Function.comp_apply, decide_eq_true_eq]
    omega
  rw [served_concat, List.countP_append]
  exact Nat.add_le_add hbefore List.countP_le_length

/-- One call more keeps a window within the limit. -/
theorem passed_concat_le (s : RedisSets) (h : Orderly (calls ++ [c])) {start : Int}
    (hle : (served (checkRateLimit userId eventCategory limit windowMs) s calls).countP
      (passedWithin start windowMs) ≤ limit) :
    (served (checkRateLimit userId eventCategory limit windowMs) s (calls ++ [c])).countP
      (passedWithin start windowMs) ≤ limit := by
  by_cases hpassed : passedWithin start windowMs
      (c, (checkRateLimit userId eventCategory limit windowMs c
        (leaves (checkRateLimit userId eventCategory limit windowMs) s calls)).1) = true
  · -- the call has counted all of the window, itself included
    have hcall := hpassed
    simp only [passedWithin, Bool.and_eq_true, decide_eq_true_eq] at hcall
    obtain ⟨hallowed, -, hlt⟩ := hcall
    exact (passed_le_counted s h hlt).trans (checkRateLimit_allowed.mp hallowed)
  · rw [served_concat, List.countP_append, List.countP_singleton, if_neg hpassed]
    exact hle

end Windows

/-- In every window of `windowMs`, at most `limit` calls of a user in a category are let
through. -/
theorem checkRateLimit_le_limit (userId eventCategory : JsString) (limit windowMs : Nat)
    (s : RedisSets) {calls : List RateLimitCall} (h : Orderly calls) (start : Int) :
    (served (checkRateLimit userId eventCategory limit windowMs) s calls).countP
      (passedWithin start windowMs) ≤ limit := by
  induction calls using List.reverseRecOn with
  | nil => exact Nat.zero_le limit
  | append_singleton calls c ih =>
      apply passed_concat_le s h
      exact ih (orderly_concat.mp h).1

/-- Four calls of a limit of two: two at once, one that is rejected, and one at the
instant at which the first two are a window old. -/
def fourCalls : List RateLimitCall :=
  [⟨1000, js "a", false⟩, ⟨1000, js "b", false⟩, ⟨60999, js "a", false⟩, ⟨61000, js "a", false⟩]

theorem checkRateLimit_le_limit_four :
    served (checkRateLimit (js "u") (js "join") 2 60000) (fun _ => {}) fourCalls =
        fourCalls.zip [true, true, false, true] ∧
      (served (checkRateLimit (js "u") (js "join") 2 60000) (fun _ => {}) fourCalls).countP
        (passedWithin 1001 60000) ≤ 2 := by
  constructor
  · decide +kernel
  · apply checkRateLimit_le_limit
    exact ⟨by decide, by decide +kernel⟩

/-- The call got this answer, within the window that precedes an instant. -/
def answeredWithin (answer : Bool) (windowMs now : Nat) (a : RateLimitCall × Bool) : Bool :=
  a.2 == answer && decide (now < a.1.now + windowMs)

/-- All that a set holds are calls, with the times at which they were made. -/
def Sourced (calls : List RateLimitCall) (z : SortedSet JsString Int) : Prop :=
  ∀ member score, z.scores.get? member = some score →
    ∃ a ∈ calls, a.member = member ∧ (a.now : Int) = score

section Rejected
variable {userId eventCategory : JsString} {limit windowMs : Nat} {c : RateLimitCall}
  {z : SortedSet JsString Int} {calls : List RateLimitCall}

theorem sourced_empty : Sourced calls {} := by
  intro member score h
  cases h

/-- What is counted is the call itself and calls within the window that precedes it. -/
theorem Sourced.counted (h : Sourced calls z) {member : JsString} {score : Int}
    (hscore : (countedSet windowMs c z).scores.get? member = some score) :
    (member = c.member ∧ score = c.now) ∨
      ∃ a ∈ calls, c.now < a.now + windowMs ∧ a.member = member ∧ (a.now : Int) = score := by
  rw [countedSet, SortedSet.get?_zadd] at hscore
  split at hscore
  next hself => exact .inl ⟨hself, (Option.some.inj hscore).symm⟩
  · obtain ⟨hseen, hbounds⟩ := SortedSet.get?_zremrangebyscore.mp hscore
    have hfound : z.scores.get? member = some score := by
      unfold SortedSet.seen at hseen
      split at hseen
      · exact hseen
      · cases hseen
    obtain ⟨a, ha, hmember, rfl⟩ := h member score hfound
    exact .inr ⟨a, ha, by omega, hmember, rfl⟩

theorem Sourced.check (h : Sourced calls z) :
    Sourced (calls ++ [c]) ((countedSet windowMs c z).expire c.now (rateLimitTtl windowMs)) := by
  intro member score hscore
  have hcounted : (countedSet windowMs c z).scores.get? member = some score := by
    unfold SortedSet.expire at hscore
    split at hscore
    · exact hscore
    · exact hscore
  rcases h.counted hcounted with ⟨rfl, rfl⟩ | ⟨a, ha, -, hmember, hnow⟩
  · exact ⟨c, List.mem_append_right calls (List.mem_singleton_self c), rfl, rfl⟩
  · exact ⟨a, List.mem_append_left [c] ha, hmember, hnow⟩

theorem sourced_leaves {s : RedisSets} (hs : s (rateLimitKey userId eventCategory) = {}) :
    Sourced calls (leaves (checkRateLimit userId eventCategory limit windowMs) s calls
      (rateLimitKey userId eventCategory)) := by
  induction calls using List.reverseRecOn with
  | nil =>
      rw [leaves, hs]
      exact sourced_empty
  | append_singleton calls c ih =>
      rw [leaves_concat, checkRateLimit_key]
      exact ih.check

/-- No more is counted than the calls within the window and the call itself. -/
theorem Sourced.zcard_le (h : Sourced calls z) :
    (countedSet windowMs c z).zcard ≤
      calls.countP (fun a => decide (c.now < a.now + windowMs)) + 1 := by
  let counted := c :: calls.filter fun a => decide (c.now < a.now + windowMs)
  have hsubset : (countedSet windowMs c z).scores.rows ⊆
      counted.map fun a => (a.member, (a.now : Int)) := by
    rintro ⟨member, score⟩ hrow
    apply List.mem_map.mpr
    rcases h.counted ((Relational.Table.mem_rows_iff _ _ _).mp hrow) with
      ⟨rfl, rfl⟩ | ⟨a, ha, hwithin, rfl, rfl⟩
    · exact ⟨c, List.mem_cons_self, rfl⟩
    · refine ⟨a, List.mem_cons_of_mem c (List.mem_filter.mpr ⟨ha, ?_⟩), rfl⟩
      exact decide_eq_true hwithin
  have hnodup : (countedSet windowMs c z).scores.rows.Nodup :=
    List.Nodup.of_map Prod.fst (countedSet windowMs c z).scores.nodup
  calc (countedSet windowMs c z).zcard
      ≤ (counted.map fun a => (a.member, (a.now : Int))).length := hnodup.length_le_of_subset hsubset
    _ = calls.countP (fun a => decide (c.now < a.now + windowMs)) + 1 := by
        rw [List.length_map, List.length_cons, List.countP_eq_length_filter]

/-- The calls within a window are those that were let through and those that were rejected. -/
theorem countP_within (answers : List (RateLimitCall × Bool)) (now : Nat) :
    answers.countP (fun a => decide (now < a.1.now + windowMs)) =
      answers.countP (answeredWithin true windowMs now) +
        answers.countP (answeredWithin false windowMs now) := by
  induction answers with
  | nil => rfl
  | cons a answers ih =>
      rw [List.countP_cons, List.countP_cons, List.countP_cons, ih]
      obtain ⟨call, answer⟩ := a
      cases answer with
      | true => simp [answeredWithin, Nat.add_right_comm]
      | false => simp [answeredWithin, Nat.add_assoc]

end Rejected

/-- A call is rejected only if within the window that precedes it at least `limit` calls were
made, let through or rejected; and if their members differ, then it is. -/
theorem checkRateLimit_rejected (userId eventCategory : JsString) (limit windowMs : Nat)
    {s : RedisSets} (hs : s (rateLimitKey userId eventCategory) = {})
    (calls : List RateLimitCall) (c : RateLimitCall) :
    let limiter := checkRateLimit userId eventCategory limit windowMs
    let answers := served limiter s calls
    let within := answers.countP (answeredWithin true windowMs c.now) +
      answers.countP (answeredWithin false windowMs c.now)
    ((limiter c (leaves limiter s calls)).1 = false → limit ≤ within) ∧
      (Orderly (calls ++ [c]) → limit ≤ within → (limiter c (leaves limiter s calls)).1 = false) := by
  intro limiter answers within
  have hwithin : within = calls.countP (fun a => decide (c.now < a.now + windowMs)) := by
    rw [← served_map_fst (f := limiter) s calls, List.countP_map]
    exact (countP_within answers c.now).symm
  rw [hwithin, ← Bool.not_eq_true, checkRateLimit_allowed, Nat.not_le]
  constructor
  · intro hrejected
    exact Nat.le_of_lt_succ (hrejected.trans_le (sourced_leaves hs).zcard_le)
  · intro horderly hlimit
    exact hlimit.trans_lt (within_lt_counted s horderly)

/-- A limit of one: the second call is rejected, and so is the third, a window after the
first, though within it no call was let through. -/
theorem checkRateLimit_starves :
    let limiter := checkRateLimit (js "u") (js "join") 1 60000
    let calls : List RateLimitCall := [⟨1000, js "a", false⟩, ⟨60999, js "b", false⟩]
    let answers := served limiter (fun _ => {}) calls
    (limiter ⟨61000, js "c", false⟩ (leaves limiter (fun _ => {}) calls)).1 = false ∧
      answers.countP (answeredWithin true 60000 61000) = 0 := by
  decide +kernel

/-- Of three calls two are let through, and the fourth is rejected: both directions. -/
theorem checkRateLimit_rejected_fourth :
    let limiter := checkRateLimit (js "u") (js "join") 2 60000
    let calls : List RateLimitCall :=
      [⟨1000, js "a", false⟩, ⟨1500, js "b", false⟩, ⟨2000, js "c", false⟩]
    (limiter ⟨60999, js "d", false⟩ (leaves limiter (fun _ => {}) calls)).1 = false ∧
      2 ≤ (served limiter (fun _ => {}) calls).countP (answeredWithin true 60000 60999) +
        (served limiter (fun _ => {}) calls).countP (answeredWithin false 60000 60999) := by
  intro limiter calls
  obtain ⟨hwithin, hrejected⟩ := checkRateLimit_rejected (s := fun _ => {}) (js "u") (js "join") 2
    60000 rfl calls ⟨60999, js "d", false⟩
  have horderly : Orderly (calls ++ [⟨60999, js "d", false⟩]) :=
    ⟨by decide +kernel, by decide +kernel⟩
  have hfourth := hrejected horderly (by decide +kernel)
  exact ⟨hfourth, hwithin hfourth⟩

/-- The guard of a known user is the limiter. -/
theorem canActivate_of_user {config : WsRateLimitOptions} {userId : JsString}
    (huser : userId ≠ []) (c : RateLimitCall) (s : RedisSets) :
    let r := checkRateLimit userId config.category config.limit config.windowMs c s
    reachesHandler (canActivate (some config) (some userId) c s).1 = r.1 ∧
      (canActivate (some config) (some userId) c s).2 = r.2 := by
  have hknown : (some userId).filter (· ≠ []) = some userId :=
    Option.filter_eq_some_iff.mpr ⟨rfl, decide_eq_true huser⟩
  unfold canActivate
  simp only [hknown]
  generalize checkRateLimit userId config.category config.limit config.windowMs c s = r
  obtain ⟨allowed, t⟩ := r
  cases allowed with
  | true => simp [reachesHandler]
  | false => cases config.silent <;> simp [reachesHandler]

/-- In every window of a configuration, at most its limit of events of a user reach a
handler. -/
theorem canActivate_le_limit (config : WsRateLimitOptions) {userId : JsString}
    (huser : userId ≠ []) (s : RedisSets) {calls : List RateLimitCall} (h : Orderly calls)
    (start : Int) :
    (served (canActivate (some config) (some userId)) s calls).countP
      (fun a => passedWithin start config.windowMs (a.1, reachesHandler a.2)) ≤ config.limit := by
  have hserved : (served (canActivate (some config) (some userId)) s calls).map
      (fun a => (a.1, reachesHandler a.2)) =
        served (checkRateLimit userId config.category config.limit config.windowMs) s calls :=
    served_map (fun c s => (canActivate_of_user huser c s).2)
      (fun c s => (canActivate_of_user huser c s).1) s calls
  have hlimited : (served (checkRateLimit userId config.category config.limit config.windowMs)
      s calls).countP (passedWithin start config.windowMs) ≤ config.limit := by
    clear hserved
    induction calls using List.reverseRecOn with
    | nil => exact Nat.zero_le config.limit
    | append_singleton calls c ih =>
        apply passed_concat_le s h
        exact ih (orderly_concat.mp h).1
  rw [← hserved, List.countP_map] at hlimited
  exact hlimited

end SyncBoard.Realtime
