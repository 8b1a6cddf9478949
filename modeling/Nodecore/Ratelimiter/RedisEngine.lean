/-
# The Redis rate-limit engine

The engine keeps one counter per rule in Redis.  A request increments the
counter of every rule it matches and sets the counter to expire a period later;
it is denied if a counter then exceeds its rule's limit.  Since every request
sets the expiry anew, a counter counts the requests of the current burst, in
which no two neighbours are further apart than the counter's life.

Redis is modelled by its documented commands; times are nanoseconds.  A pipeline may fail,
and then Redis has counted nothing of it.
-/

import Mathlib.Data.List.Induction
import Nodecore.Lib.Burst
import Nodecore.Lib.Run
import Nodecore.Ratelimiter.Budget

namespace Nodecore.Ratelimiter

open Lib

structure RedisCounter where
  count : ℕ
  expireAt : Option ℕ
  deriving DecidableEq, Repr

abbrev Redis := String → Option RedisCounter

def second : ℕ := 1000000000

namespace Redis

/-- The counter under a key that has not expired. -/
def live (redis : Redis) (now : ℕ) (key : String) : Option RedisCounter :=
  (redis key).filter fun counter => counter.expireAt.all (now ≤ ·)

def set (redis : Redis) (key : String) (counter : Option RedisCounter) : Redis :=
  fun other => if other = key then counter else redis other

/-- `INCR`: a missing counter starts at zero and has no expiry; a live one keeps
its own. -/
def incr (redis : Redis) (now : ℕ) (key : String) : Redis × ℕ :=
  let counter := (redis.live now key).getD { count := 0, expireAt := none }
  (redis.set key (some { counter with count := counter.count + 1 }), counter.count + 1)

/-- `EXPIRE`: no time at all deletes the key. -/
def expire (redis : Redis) (now : ℕ) (key : String) (seconds : ℕ) : Redis :=
  match redis.live now key with
  | none => redis
  | some counter =>
    if seconds = 0 then redis.set key none
    else redis.set key (some { counter with expireAt := some (now + seconds * second) })

end Redis

/-- The whole seconds the client sends for a duration: a fraction is dropped,
but less than a second becomes one. -/
def formatSec (duration : ℕ) : ℕ :=
  if 0 < duration ∧ duration < second then 1 else duration / second

structure RateLimitRedisEngine where
  name : String

namespace RateLimitRedisEngine

variable (engine : RateLimitRedisEngine)

def redisKey (command : RateLimitCommand) : String :=
  "ratelimit:" ++ engine.name ++ ":" ++ command.name

/-- The pipeline of one request, with what each increment returned. -/
def pipeline (now : ℕ) : Redis → List RateLimitCommand → Redis × List ℕ
  | redis, [] => (redis, [])
  | redis, command :: commands =>
    let incremented := redis.incr now (engine.redisKey command)
    let expiring :=
      incremented.1.expire now (engine.redisKey command) (formatSec command.type.period)
    let rest := pipeline now expiring commands
    (rest.1, incremented.2 :: rest.2)

/-- The answer for a request, or the error that its pipeline ends with. -/
def execute (redis : Redis) (now : ℕ) (failure : Option String) (commands : List RateLimitCommand) :
    Except String Bool × Redis :=
  match failure with
  | some err => (.error err, redis)
  | none =>
    let executed := engine.pipeline now redis commands
    (.ok ((commands.zip executed.2).all fun (command, count) =>
      decide (count ≤ command.type.requests)), executed.1)

end RateLimitRedisEngine

/-- One request against the budget, at its time, and whether its pipeline fails. -/
structure Request where
  time : ℕ
  method : String
  failure : Option String := none
  deriving DecidableEq, Repr

/-- A budget with a Redis engine behind it, and the regular expressions of its
rules. -/
structure Limiter where
  regexp : Regexp
  budget : RateLimitBudget
  engine : RateLimitRedisEngine

namespace Limiter

variable (limiter : Limiter)

def allow (redis : Redis) (request : Request) : Except String Bool × Redis :=
  limiter.engine.execute redis request.time request.failure
    (limiter.budget.commands limiter.regexp request.method)

def handle (redis : Redis) (request : Request) : Redis := (limiter.allow redis request).2

def after (requests : List Request) : Redis := run limiter.handle (fun _ => none) requests

end Limiter

/-- The value of a counter that has not expired, zero if there is none. -/
def Redis.value (redis : Redis) (now : ℕ) (key : String) : ℕ :=
  ((redis.live now key).map RedisCounter.count).getD 0

/-- How long a counter lives after a request. -/
def FixedRateLimiterType.life (type : FixedRateLimiterType) : ℕ := formatSec type.period * second

theorem formatSec_pos {duration : ℕ} (positive : 0 < duration) : formatSec duration ≠ 0 := by
  unfold formatSec second
  split
  · exact Nat.one_ne_zero
  · have : 1 ≤ duration / 1000000000 := by omega
    omega

variable {commands : List RateLimitCommand} {key : String} {rule : Rule} {index : ℕ}
  {command : RateLimitCommand}

section Pipeline

variable {redis other : Redis} {now : ℕ}

@[simp]
theorem Redis.set_self (redis : Redis) (key : String) (counter : Option RedisCounter) :
    redis.set key counter key = counter := if_pos rfl

theorem Redis.set_of_ne (redis : Redis) {distinct : String} (ne : distinct ≠ key)
    (counter : Option RedisCounter) : redis.set key counter distinct = redis distinct := if_neg ne

theorem Redis.value_congr (same : redis key = other key) :
    redis.value now key = other.value now key := by
  rw [value, value, live, live, same]

theorem Redis.incr_snd (redis : Redis) (now : ℕ) (key : String) :
    (redis.incr now key).2 = redis.value now key + 1 := by
  rw [incr, value]
  cases redis.live now key <;> rfl

theorem Redis.incr_fst (redis : Redis) (now : ℕ) (key : String) :
    (redis.incr now key).1 = redis.set key
      (some ⟨redis.value now key + 1, (redis.live now key).bind RedisCounter.expireAt⟩) := by
  rw [incr, value]
  cases redis.live now key <;> rfl

theorem Redis.live_incr (redis : Redis) (now : ℕ) (key : String) :
    (redis.incr now key).1.live now key =
      some ⟨redis.value now key + 1, (redis.live now key).bind RedisCounter.expireAt⟩ := by
  rw [incr_fst, live, set_self]
  refine Option.filter_eq_some_iff.mpr ⟨rfl, ?_⟩
  cases found : redis.live now key with
  | none => rfl
  | some counter => exact (Option.filter_eq_some_iff.mp found).2

theorem Redis.expire_incr (redis : Redis) (now : ℕ) (key : String) (type : FixedRateLimiterType) :
    (redis.incr now key).1.expire now key (formatSec type.period) =
      redis.set key (some ⟨redis.value now key + 1, some (now + type.life)⟩) := by
  have positive := formatSec_pos type.period_pos
  simp only [expire, live_incr, if_neg positive]
  funext name
  by_cases same : name = key
  · subst same
    rw [set_self, set_self]
    rfl
  · rw [set_of_ne _ same, set_of_ne _ same, incr_fst, set_of_ne _ same]

namespace RateLimitRedisEngine

variable {engine : RateLimitRedisEngine}

theorem pipeline_cons (command : RateLimitCommand) (commands : List RateLimitCommand) :
    engine.pipeline now redis (command :: commands) =
      let rest := engine.pipeline now (redis.set (engine.redisKey command)
        (some ⟨redis.value now (engine.redisKey command) + 1, some (now + command.type.life)⟩))
        commands
      (rest.1, (redis.value now (engine.redisKey command) + 1) :: rest.2) := by
  rw [pipeline, Redis.expire_incr, Redis.incr_snd]

theorem redisKey_inj {first second : RateLimitCommand}
    (same : engine.redisKey first = engine.redisKey second) : first.name = second.name := by
  have texts := congrArg String.toList same
  simp only [redisKey, String.toList_append, List.append_assoc, List.append_cancel_left_eq]
    at texts
  exact String.toList_injective texts

theorem pipeline_of_forall_ne (absent : ∀ command ∈ commands, key ≠ engine.redisKey command) :
    (engine.pipeline now redis commands).1 key = redis key := by
  induction commands generalizing redis with
  | nil => rfl
  | cons command commands ih =>
    rw [pipeline_cons]
    exact (ih fun later mem => absent later (List.mem_cons_of_mem _ mem)).trans
      (redis.set_of_ne (absent command List.mem_cons_self) _)

theorem pipeline_of_mem (distinct : (commands.map RateLimitCommand.name).Nodup)
    (mem : command ∈ commands) :
    (engine.pipeline now redis commands).1 (engine.redisKey command) =
      some ⟨redis.value now (engine.redisKey command) + 1, some (now + command.type.life)⟩ := by
  induction commands generalizing redis with
  | nil => cases mem
  | cons first commands ih =>
    rw [List.map_cons, List.nodup_cons] at distinct
    rw [pipeline_cons]
    have apart : ∀ later ∈ commands, engine.redisKey first ≠ engine.redisKey later := by
      intro later isLater same
      exact distinct.1 (redisKey_inj same ▸ List.mem_map_of_mem isLater)
    rcases List.mem_cons.mp mem with rfl | isLater
    · exact (pipeline_of_forall_ne apart).trans (redis.set_self _ _)
    · have untouched := redis.set_of_ne (apart command isLater).symm
        (some ⟨redis.value now (engine.redisKey first) + 1, some (now + first.type.life)⟩)
      refine (ih distinct.2 isLater).trans ?_
      rw [Redis.value_congr untouched]

theorem pipeline_counts (distinct : (commands.map RateLimitCommand.name).Nodup) :
    (engine.pipeline now redis commands).2 =
      commands.map fun command => redis.value now (engine.redisKey command) + 1 := by
  induction commands generalizing redis with
  | nil => rfl
  | cons first commands ih =>
    rw [List.map_cons, List.nodup_cons] at distinct
    rw [pipeline_cons, List.map_cons]
    refine congrArg (_ :: ·) ((ih distinct.2).trans ?_)
    apply List.map_congr_left
    intro later isLater
    have apart : engine.redisKey later ≠ engine.redisKey first := by
      intro same
      exact distinct.1 (redisKey_inj same ▸ List.mem_map_of_mem isLater)
    rw [Redis.value_congr (redis.set_of_ne apart _)]

end RateLimitRedisEngine

end Pipeline

/-- The counter after requests at the given times, newest first. -/
def counterAfter (type : FixedRateLimiterType) : List ℕ → Option RedisCounter
  | [] => none
  | last :: earlier => some ⟨(burst type.life last earlier).length, some (last + type.life)⟩

theorem value_of_counterAfter {redis : Redis} {type : FixedRateLimiterType} {times : List ℕ}
    (counts : redis key = counterAfter type times) (now : ℕ) :
    redis.value now key + 1 = (burst type.life now times).length := by
  rw [Redis.value, Redis.live, counts]
  cases times with
  | nil => rfl
  | cons last earlier =>
    rw [counterAfter, burst]
    by_cases unexpired : now ≤ last + type.life
    · simp [Option.filter, unexpired]
    · simp [Option.filter, unexpired]

namespace Limiter

variable (limiter : Limiter)

/-- A rule matches a request whose pipeline is executed. -/
def counts (rule : Rule) (request : Request) : Bool :=
  request.failure.isNone && rule.check.matches limiter.regexp request.method

/-- The times of the requests counted for a rule, newest first. -/
def matchedTimes (rule : Rule) (requests : List Request) : List ℕ :=
  ((requests.filter (limiter.counts rule)).map Request.time).reverse

theorem matchedTimes_append (rule : Rule) (earlier : List Request) (request : Request) :
    limiter.matchedTimes rule (earlier ++ [request]) =
      if limiter.counts rule request then request.time :: limiter.matchedTimes rule earlier
      else limiter.matchedTimes rule earlier := by
  unfold matchedTimes
  split
  · rename_i counted
    simp [List.filter_append, counted]
  · rename_i uncounted
    simp [List.filter_append, uncounted]

theorem counts_iff {request : Request} : limiter.counts rule request = true ↔
    request.failure = none ∧ rule.check.matches limiter.regexp request.method = true := by
  rw [counts, Bool.and_eq_true, Option.isNone_iff_eq_none]

def ruleKey (index : ℕ) (rule : Rule) : String :=
  limiter.engine.redisKey ⟨rule.type, limiter.budget.commandName index rule⟩

theorem ruleKey_ne_of_not_matches {method : String}
    (isRule : limiter.budget.rules[index]? = some rule)
    (unmatched : ¬ rule.check.matches limiter.regexp method = true)
    (mem : command ∈ limiter.budget.commands limiter.regexp method) :
    limiter.ruleKey index rule ≠ limiter.engine.redisKey command := by
  intro same
  obtain ⟨other, otherRule, isOther, matched, rfl⟩ := limiter.budget.mem_commands.mp mem
  obtain rfl := limiter.budget.commandName_inj (RateLimitRedisEngine.redisKey_inj same)
  obtain rfl := Option.some.inj (isRule.symm.trans isOther)
  exact unmatched matched

theorem after_ruleKey (isRule : limiter.budget.rules[index]? = some rule) (requests : List Request) :
    limiter.after requests (limiter.ruleKey index rule) =
      counterAfter rule.type (limiter.matchedTimes rule requests) := by
  induction requests using List.reverseRecOn with
  | nil => rfl
  | append_singleton earlier request ih =>
    rw [after, run_append, matchedTimes_append]
    show limiter.handle (limiter.after earlier) request _ = _
    have distinct := limiter.budget.nodup_commands limiter.regexp request.method
    rw [handle, allow, counts]
    cases request.failure with
    | some err => exact ih
    | none =>
      rw [RateLimitRedisEngine.execute, Option.isNone_none, Bool.true_and]
      split
      · rename_i matched
        have mem := limiter.budget.mem_commands.mpr ⟨index, rule, isRule, matched, rfl⟩
        refine (RateLimitRedisEngine.pipeline_of_mem distinct mem).trans ?_
        rw [counterAfter, ← value_of_counterAfter ih request.time]
        rfl
      · rename_i unmatched
        refine (RateLimitRedisEngine.pipeline_of_forall_ne fun command mem => ?_).trans ih
        exact limiter.ruleKey_ne_of_not_matches isRule unmatched mem

/-- The burst of requests matched by a rule that this request ends. -/
def burstOf (rule : Rule) (earlier : List Request) (request : Request) : List ℕ :=
  burst rule.type.life request.time (limiter.matchedTimes rule earlier)

/-- A request is denied exactly if its pipeline is executed and it ends a burst larger than the
limit of a rule it matches. -/
theorem allow_eq_false_iff (earlier : List Request) (request : Request) :
    (limiter.allow (limiter.after earlier) request).1 = .ok false ↔
      request.failure = none ∧ ∃ (index : ℕ) (rule : Rule), limiter.budget.rules[index]? = some rule ∧
        rule.check.matches limiter.regexp request.method = true ∧
        rule.type.requests < (limiter.burstOf rule earlier request).length := by
  have counts : (limiter.engine.pipeline request.time (limiter.after earlier)
      (limiter.budget.commands limiter.regexp request.method)).2 = _ :=
    RateLimitRedisEngine.pipeline_counts
      (limiter.budget.nodup_commands limiter.regexp request.method)
  -- the count of a matching rule is the size of its burst
  have size : ∀ (index : ℕ) (rule : Rule), limiter.budget.rules[index]? = some rule →
      (limiter.after earlier).value request.time (limiter.ruleKey index rule) + 1 =
        (limiter.burstOf rule earlier request).length :=
    fun index rule isRule =>
      value_of_counterAfter (limiter.after_ruleKey isRule earlier) request.time
  rw [allow]
  cases request.failure with
  | some err => simp [RateLimitRedisEngine.execute]
  | none =>
    rw [RateLimitRedisEngine.execute, counts, ← List.map_prod_left_eq_zip]
    simp only [Except.ok.injEq, true_and, List.all_map, List.all_eq_false, Function.comp_apply,
      decide_eq_true_iff, not_le]
    constructor
    · rintro ⟨command, mem, exceeds⟩
      obtain ⟨index, rule, isRule, matched, rfl⟩ := limiter.budget.mem_commands.mp mem
      exact ⟨index, rule, isRule, matched, size index rule isRule ▸ exceeds⟩
    · rintro ⟨index, rule, isRule, matched, exceeds⟩
      refine ⟨_, limiter.budget.mem_commands.mpr ⟨index, rule, isRule, matched, rfl⟩, ?_⟩
      exact (size index rule isRule).symm ▸ exceeds

/-- Some rule the request matches has had more requests within its last period,
this one included, than it allows. -/
def OverLimit (earlier : List Request) (request : Request) : Prop :=
  ∃ (index : ℕ) (rule : Rule), limiter.budget.rules[index]? = some rule ∧
    rule.check.matches limiter.regexp request.method = true ∧
    rule.type.requests < (window rule.type.period request.time
      (limiter.matchedTimes rule (earlier ++ [request]))).length

/-- For every rule the request matches, the burst it ends is within the limit or
began within the last period. -/
def Paused (earlier : List Request) (request : Request) : Prop :=
  ∀ (index : ℕ) (rule : Rule), limiter.budget.rules[index]? = some rule →
    rule.check.matches limiter.regexp request.method = true →
    (limiter.burstOf rule earlier request).length ≤ rule.type.requests ∨
      ∀ time ∈ limiter.burstOf rule earlier request, request.time ≤ time + rule.type.period

/-- A request, after any run of earlier ones, is denied only over a limit if
traffic has paused: if no burst it belongs to is both larger than its rule's
limit and longer than its rule's period. -/
theorem overLimit_of_denied {earlier : List Request} {request : Request}
    (paused : limiter.Paused earlier request)
    (denied : (limiter.allow (limiter.after earlier) request).1 = .ok false) :
    limiter.OverLimit earlier request := by
  obtain ⟨executed, index, rule, isRule, matched, exceeds⟩ :=
    (limiter.allow_eq_false_iff earlier request).mp denied
  refine ⟨index, rule, isRule, matched, ?_⟩
  rcases paused index rule isRule matched with small | within
  · omega
  · rw [matchedTimes_append, if_pos (limiter.counts_iff.mpr ⟨executed, matched⟩)]
    calc
      rule.type.requests < (limiter.burstOf rule earlier request).length := exceeds
      _ ≤ (window rule.type.period request.time
            (request.time :: limiter.matchedTimes rule earlier)).length :=
          length_burst_le_length_window within

/-- While the clock does not go back, a request is let through only if its pipeline is executed and
no rule it matches has had more requests, let through or not, than its limit within the life of its
counter, those apart whose pipelines failed. -/
theorem within_limit_of_allowed (earlier : List Request) (request : Request)
    (ordered : (earlier ++ [request]).Pairwise (·.time ≤ ·.time))
    (allowed : (limiter.allow (limiter.after earlier) request).1 = .ok true)
    (isRule : limiter.budget.rules[index]? = some rule)
    (matched : rule.check.matches limiter.regexp request.method = true) :
    request.failure = none ∧ (window rule.type.life request.time
      (limiter.matchedTimes rule (earlier ++ [request]))).length ≤ rule.type.requests := by
  have executed : request.failure = none := by
    rw [allow] at allowed
    cases failure : request.failure with
    | none => rfl
    | some err => simp [failure, RateLimitRedisEngine.execute] at allowed
  have newestFirst : (limiter.matchedTimes rule (earlier ++ [request])).Pairwise (· ≥ ·) := by
    rw [matchedTimes, List.pairwise_reverse, List.pairwise_map]
    exact ordered.filter _
  rw [matchedTimes_append, if_pos (limiter.counts_iff.mpr ⟨executed, matched⟩)] at newestFirst ⊢
  refine ⟨executed,
    (length_window_le_length_burst newestFirst).trans (not_lt.mp fun exceeds => ?_)⟩
  have denied := (limiter.allow_eq_false_iff earlier request).mpr
    ⟨executed, _, _, isRule, matched, exceeds⟩
  simp [denied] at allowed

def twoCalls : Rule where
  type := ⟨2, 10 * second, by decide, by decide⟩
  check := .ruleCheckMethod "eth_call"

def twoCallsLimiter : Limiter where
  regexp _ _ := false
  budget := ⟨"calls", [twoCalls]⟩
  engine := ⟨"redis"⟩

def callAt (seconds : ℕ) : Request := ⟨seconds * second, "eth_call", none⟩

theorem eq_twoCalls (isRule : twoCallsLimiter.budget.rules[index]? = some rule) :
    rule = twoCalls := by
  have mem : rule ∈ [twoCalls] := List.mem_of_getElem? isRule
  exact List.mem_singleton.mp mem

/-- Three calls in two seconds: the third is denied, and is over the limit. -/
theorem overLimit_of_denied_burst :
    (twoCallsLimiter.allow (twoCallsLimiter.after [callAt 0, callAt 1]) (callAt 2)).1 =
        .ok false ∧
      twoCallsLimiter.OverLimit [callAt 0, callAt 1] (callAt 2) := by
  have denied : (twoCallsLimiter.allow (twoCallsLimiter.after [callAt 0, callAt 1])
      (callAt 2)).1 = .ok false := by decide
  refine ⟨denied, twoCallsLimiter.overLimit_of_denied ?_ denied⟩
  intro index rule isRule _
  rw [eq_twoCalls isRule]
  exact .inr (by decide)

/-- The first call is not counted, so two later ones are let through. -/
theorem within_limit_of_allowed_second :
    let failed : Request := { callAt 0 with failure := some "connection refused" }
    (twoCallsLimiter.allow (twoCallsLimiter.after [failed, callAt 1]) (callAt 2)).1 = .ok true ∧
      (window twoCalls.type.life (2 * second)
        (twoCallsLimiter.matchedTimes twoCalls [failed, callAt 1, callAt 2])).length ≤ 2 := by
  intro failed
  have allowed : (twoCallsLimiter.allow (twoCallsLimiter.after [failed, callAt 1])
      (callAt 2)).1 = .ok true := by decide
  exact ⟨allowed, (twoCallsLimiter.within_limit_of_allowed [failed, callAt 1] (callAt 2)
    (by decide) allowed (show twoCallsLimiter.budget.rules[0]? = some twoCalls from rfl)
    (by decide)).2⟩

/-- A call every six seconds never exceeds two in ten seconds, yet the third is
denied: each one has prolonged the life of the counter. -/
theorem steady_calls_are_denied :
    (twoCallsLimiter.allow (twoCallsLimiter.after [callAt 0, callAt 6]) (callAt 12)).1 =
        .ok false ∧
      ¬ twoCallsLimiter.OverLimit [callAt 0, callAt 6] (callAt 12) := by
  refine ⟨by decide, ?_⟩
  rintro ⟨index, rule, isRule, _, exceeds⟩
  rw [eq_twoCalls isRule] at exceeds
  exact absurd exceeds (by decide)

end Limiter

end Nodecore.Ratelimiter
