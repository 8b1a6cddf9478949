/-
# The auto-tuned rate limit of an upstream

Every call of an upstream asks `allow`, which counts the call under a key made
of the time.  From time to time the limit is recalculated from the counts since the
last recalculation: the share of refused calls, the share of errors and the peak, which
is the greatest count under one key.

The peak is meant as the number of calls in the busiest slot of the rate-limit
period.  The key divides milliseconds by a period in nanoseconds, so that one
key spans a million slots; the second half says when the peak is still the right one.

The limit itself is computed with floating-point numbers; nothing is proved about its
value.
-/

import Mathlib.Algebra.Group.Nat.Defs
import Nodecore.Lib.Run
import Nodecore.Lib.Tally

namespace Nodecore.Ratelimiter

open Lib

/-- The configuration of the limiter.  Its check refuses a period or a limit that is not
positive. -/
structure RateLimitAutoTuneConfig where
  errorRateThreshold : Float
  initRateLimit : ℕ
  /-- In nanoseconds. -/
  initRateLimitPeriod : ℕ
  period_pos : 0 < initRateLimitPeriod

/-- Where the last change of the limit went. -/
inductive Direction
  | directionStable
  | directionIncrease
  | directionDecrease
  deriving DecidableEq, Repr

structure UpstreamAutoTune where
  rateLimitPeriod : ℕ
  ratelimit : Int32
  errorRateThreshold : Float
  accumErrors : Int32
  accumRateLimited : Int32
  /-- The calls since the last recalculation, counted under the key of their time. -/
  attemptCounts : GoMap ℕ Int32
  lastDirection : Direction
  stepPercent : Float

def newUpstreamAutoTune (config : RateLimitAutoTuneConfig) : UpstreamAutoTune where
  rateLimitPeriod := config.initRateLimitPeriod
  ratelimit := Int32.ofNat config.initRateLimit
  errorRateThreshold := config.errorRateThreshold
  accumErrors := 0
  accumRateLimited := 0
  attemptCounts := ∅
  lastDirection := .directionStable
  stepPercent := 10.0

def unixMilli (now : ℕ) : ℕ := now / 1000000

/-- The key a call is counted under: milliseconds over a period in nanoseconds. -/
def timeKey (rateLimitPeriod now : ℕ) : ℕ := unixMilli now / rateLimitPeriod

/-- One more call under a key, which is new with count zero. -/
def countAttempt (counts : GoMap ℕ Int32) (key : ℕ) : GoMap ℕ Int32 :=
  counts.insert key ((counts.lookup key).getD 0 + 1)

variable (tune : UpstreamAutoTune)

namespace UpstreamAutoTune

/-- A call at time `now`; `available` says whether the token bucket had a token left. -/
def allow (tune : UpstreamAutoTune) (now : ℕ) (available : Bool) : UpstreamAutoTune :=
  { tune with
    attemptCounts := countAttempt tune.attemptCounts (timeKey tune.rateLimitPeriod now)
    accumRateLimited :=
      if available then tune.accumRateLimited else tune.accumRateLimited + 1 }

def incErrors (tune : UpstreamAutoTune) : UpstreamAutoTune :=
  { tune with accumErrors := tune.accumErrors + 1 }

/-- The next limit in a direction, with a step that grows while the direction stays and
shrinks when it turns. -/
def applyAdaptiveStep (tune : UpstreamAutoTune) (currentLimit : ℤ) (newDirection : Direction) :
    UpstreamAutoTune × ℤ :=
  let newStepPercent : Float :=
    if newDirection = tune.lastDirection ∧ tune.lastDirection ≠ .directionStable then
      min (tune.stepPercent * 2.0) 50.0
    else if newDirection ≠ tune.lastDirection ∧ tune.lastDirection ≠ .directionStable then
      max (tune.stepPercent / 2.0) 2.5
    else 10.0
  let factor : Float :=
    if newDirection = .directionDecrease then 1.0 - newStepPercent / 100.0
    else 1.0 + newStepPercent / 100.0
  ({ tune with stepPercent := newStepPercent, lastDirection := newDirection },
    (Float.ofInt currentLimit * factor).ceil.toInt64.toInt)

/-- The limit after a step in a direction, or as it was. -/
def retune (tune : UpstreamAutoTune) (oldLimit : ℤ) :
    Option Direction → UpstreamAutoTune × ℤ
  | some newDirection => tune.applyAdaptiveStep oldLimit newDirection
  | none => (tune, oldLimit)

variable (newDirection : Option Direction)

@[simp]
theorem rateLimitPeriod_retune (oldLimit : ℤ) :
    (tune.retune oldLimit newDirection).1.rateLimitPeriod = tune.rateLimitPeriod := by
  cases newDirection with
  | none => rfl
  | some newDirection => rfl

@[simp]
theorem attemptCounts_retune (oldLimit : ℤ) :
    (tune.retune oldLimit newDirection).1.attemptCounts = tune.attemptCounts := by
  cases newDirection with
  | none => rfl
  | some newDirection => rfl

end UpstreamAutoTune

/-- All calls counted, in the order the map is visited. -/
def totalAttempts (order : RangeOrder (Entry ℕ Int32)) (counts : GoMap ℕ Int32) : ℤ :=
  (order.visit counts.entries).foldl (fun total entry => total + entry.2.toInt) 0

/-- The greatest count, in the order the map is visited. -/
def peakRequests (order : RangeOrder (Entry ℕ Int32)) (counts : GoMap ℕ Int32) : ℤ :=
  (order.visit counts.entries).foldl
    (fun peak entry => if entry.2.toInt > peak then entry.2.toInt else peak) 0

namespace UpstreamAutoTune

/-- The limit is recalculated from the counts, and the counts start afresh.  The map is
visited twice, each time in an order of its own. -/
def recalculateRateLimit (tune : UpstreamAutoTune)
    (orders : RangeOrder (Entry ℕ Int32) × RangeOrder (Entry ℕ Int32)) : UpstreamAutoTune :=
  let fresh := { tune with accumErrors := 0, accumRateLimited := 0, attemptCounts := ∅ }
  let errors := tune.accumErrors
  let rateLimited := tune.accumRateLimited.toInt
  let total := totalAttempts orders.1 tune.attemptCounts
  let oldLimit := tune.ratelimit.toInt
  let rateLimitedRate := Float.ofInt rateLimited / Float.ofInt total
  let peak := peakRequests orders.2 tune.attemptCounts
  let peakUtilization := Float.ofInt peak / Float.ofInt oldLimit
  let allowed := total - rateLimited
  let errorRate := if 0 < allowed then Float.ofInt errors.toInt / Float.ofInt allowed else 0.0
  let newDirection : Option Direction :=
    if errorRate ≥ tune.errorRateThreshold ∧ 0 < allowed then some .directionDecrease
    else if errors = 0 ∧
        (peakUtilization > 0.95 ∨ rateLimitedRate > tune.errorRateThreshold) then
      some .directionIncrease
    else none
  let next := fresh.retune oldLimit newDirection
  -- The limit never falls below one.
  { next.1 with ratelimit := Int32.ofInt (max next.2 1) }

end UpstreamAutoTune

/-- What happens to the limiter. -/
inductive TuneEvent
  | allow (now : ℕ) (available : Bool)
  | incErrors
  | recalculate (orders : RangeOrder (Entry ℕ Int32) × RangeOrder (Entry ℕ Int32))

def UpstreamAutoTune.step (tune : UpstreamAutoTune) : TuneEvent → UpstreamAutoTune
  | .allow now available => tune.allow now available
  | .incErrors => tune.incErrors
  | .recalculate orders => tune.recalculateRateLimit orders

def tuned (config : RateLimitAutoTuneConfig) (events : List TuneEvent) : UpstreamAutoTune :=
  run UpstreamAutoTune.step (newUpstreamAutoTune config) events

/-- One event seen by the clock alone: the times of the calls since the last
recalculation. -/
def noteCall (calls : List ℕ) : TuneEvent → List ℕ
  | .allow now _ => calls ++ [now]
  | .incErrors => calls
  | .recalculate _ => []

/-- The times of the calls since the last recalculation. -/
def callsSince (events : List TuneEvent) : List ℕ := run noteCall [] events

/-- The map holds the number of calls of each key, and no key without calls. -/
def Counts (key : ℕ → ℕ) (calls : List ℕ) (counts : GoMap ℕ Int32) : Prop :=
  ∀ k, counts.lookup k =
    if tallied key calls k = 0 then none else some (Int32.ofNat (tallied key calls k))

section Counting

variable {key : ℕ → ℕ} {calls : List ℕ} {counts : GoMap ℕ Int32}

theorem Counts.getD (counted : Counts key calls counts) (k : ℕ) :
    (counts.lookup k).getD 0 = Int32.ofNat (tallied key calls k) := by
  rw [counted k]
  split
  · rename_i none
    rw [none]
    rfl
  · rfl

theorem Counts.countAttempt (counted : Counts key calls counts) (now : ℕ) :
    Counts key (calls ++ [now]) (countAttempt counts (key now)) := by
  intro k
  rw [Ratelimiter.countAttempt, counted.getD]
  by_cases same : key now = k
  · subst same
    rw [AList.lookup_insert, tallied_append_singleton, if_pos rfl, if_neg (Nat.succ_ne_zero _),
      Int32.ofNat_add]
    rfl
  · rw [AList.lookup_insert_ne (Ne.symm same), tallied_append_singleton, if_neg same, counted k,
      Nat.add_zero]

theorem peakRequests_le_iff (order : RangeOrder (Entry ℕ Int32)) {bound : ℤ} :
    peakRequests order counts ≤ bound ↔
      0 ≤ bound ∧ ∀ k count, counts.lookup k = some count → count.toInt ≤ bound := by
  have loop : ∀ (entries : List (Entry ℕ Int32)) (start : ℤ),
      entries.foldl
          (fun peak entry => if entry.2.toInt > peak then entry.2.toInt else peak) start ≤ bound ↔
        start ≤ bound ∧ ∀ entry ∈ entries, entry.2.toInt ≤ bound := by
    intro entries
    induction entries with
    | nil => intro start; simp
    | cons entry entries ih =>
      intro start
      rw [List.foldl_cons, ih, List.forall_mem_cons]
      split
      · constructor
        · rintro ⟨top, rest⟩
          exact ⟨by omega, top, rest⟩
        · rintro ⟨-, top, rest⟩
          exact ⟨top, rest⟩
      · constructor
        · rintro ⟨top, rest⟩
          exact ⟨top, by omega, rest⟩
        · rintro ⟨top, -, rest⟩
          exact ⟨top, rest⟩
  rw [peakRequests, loop]
  apply and_congr_right
  intro _
  constructor
  · intro bounded k count found
    exact bounded ⟨k, count⟩ ((order.mem_visit _ _).mpr (AList.mem_lookup_iff.mp found))
  · intro bounded entry visited
    exact bounded entry.1 entry.2
      (AList.mem_lookup_iff.mpr ((order.mem_visit _ _).mp visited))

/-- The peak of the counts is the count of the busiest key, as long as no count wraps
around. -/
theorem Counts.peakRequests_eq (counted : Counts key calls counts) (few : calls.length < 2 ^ 31)
    (order : RangeOrder (Entry ℕ Int32)) : peakRequests order counts = busiest key calls := by
  have small : ∀ k, (Int32.ofNat (tallied key calls k)).toInt = tallied key calls k := fun k =>
    Int32.toInt_ofNat_of_lt (List.countP_le_length.trans_lt few)
  apply eq_of_forall_ge_iff
  intro bound
  rw [peakRequests_le_iff]
  constructor
  · rintro ⟨nonneg, bounded⟩
    obtain ⟨bound, rfl⟩ := Int.eq_ofNat_of_zero_le nonneg
    rw [Int.ofNat_le, busiest_le_iff]
    intro k
    by_cases none : tallied key calls k = 0
    · exact none ▸ Nat.zero_le _
    · have found := counted k
      rw [if_neg none] at found
      exact Int.ofNat_le.mp (small k ▸ bounded k _ found)
  · intro bounded
    refine ⟨(Int.natCast_nonneg _).trans bounded, ?_⟩
    intro k count found
    rw [counted k] at found
    split at found
    · cases found
    · rw [← Option.some.inj found, small k]
      exact (Int.ofNat_le.mpr (tallied_le_busiest key calls k)).trans bounded

end Counting

theorem rateLimitPeriod_step (event : TuneEvent) :
    (tune.step event).rateLimitPeriod = tune.rateLimitPeriod := by
  cases event with
  | allow => rfl
  | incErrors => rfl
  | recalculate orders => simp [UpstreamAutoTune.step, UpstreamAutoTune.recalculateRateLimit]

theorem counts_tuned (config : RateLimitAutoTuneConfig) (events : List TuneEvent) :
    Counts (timeKey config.initRateLimitPeriod) (callsSince events)
      (tuned config events).attemptCounts := by
  have empty : Counts (timeKey config.initRateLimitPeriod) [] ∅ := fun _ => rfl
  induction events using List.reverseRecOn with
  | nil => exact empty
  | append_singleton events event ih =>
    simp only [tuned, callsSince, run_append, run_cons, run_nil] at ih ⊢
    cases event with
    | allow now available =>
      have key :
    (run UpstreamAutoTune.step _ events).rateLimitPeriod = config.initRateLimitPeriod :=
        run_frame rateLimitPeriod_step (newUpstreamAutoTune config) events
      simpa only [UpstreamAutoTune.step, UpstreamAutoTune.allow, noteCall, key]
        using ih.countAttempt now
    | incErrors => exact ih
    | recalculate orders =>
      -- a recalculation leaves no counts
      simpa [UpstreamAutoTune.step, UpstreamAutoTune.recalculateRateLimit, noteCall] using empty

/-- The slot of the period that a time is in. -/
def slot (rateLimitPeriod now : ℕ) : ℕ := now / rateLimitPeriod

theorem timeKey_eq_slot_div (rateLimitPeriod now : ℕ) :
    timeKey rateLimitPeriod now = slot rateLimitPeriod now / 1000000 := by
  rw [timeKey, unixMilli, slot, Nat.div_div_eq_div_mul, Nat.div_div_eq_div_mul, Nat.mul_comm]

/-- The peak that a recalculation uses is the number of calls in the busiest slot of the
period exactly when, under some key with the most calls, all calls are in one slot. -/
theorem peak_is_busiest_slot_iff (config : RateLimitAutoTuneConfig) (events : List TuneEvent)
    (order : RangeOrder (Entry ℕ Int32)) (few : (callsSince events).length < 2 ^ 31) :
    peakRequests order (tuned config events).attemptCounts =
        busiest (slot config.initRateLimitPeriod) (callsSince events) ↔
      ∃ k, tallied (timeKey config.initRateLimitPeriod) (callsSince events) k =
          busiest (timeKey config.initRateLimitPeriod) (callsSince events) ∧
        ∀ call ∈ callsSince events, ∀ other ∈ callsSince events,
          timeKey config.initRateLimitPeriod call = k →
          timeKey config.initRateLimitPeriod other = k →
          slot config.initRateLimitPeriod other = slot config.initRateLimitPeriod call := by
  rw [(counts_tuned config events).peakRequests_eq few order, Int.natCast_inj]
  apply busiest_coarse_eq_iff
  intro call other same
  rw [timeKey_eq_slot_div, timeKey_eq_slot_div, same]

def secondly : RateLimitAutoTuneConfig := ⟨0.1, 100, 1000000000, by decide⟩

/-- Two calls of one second: the peak is two, as it should be. -/
theorem peak_of_one_second :
    peakRequests (.stored _)
        (tuned secondly [.allow 0 true, .allow 500000000 true]).attemptCounts =
      busiest (slot 1000000000) [0, 500000000] :=
  (peak_is_busiest_slot_iff secondly [.allow 0 true, .allow 500000000 true] (.stored _)
    (by decide)).mpr ⟨0, by decide +kernel, by decide +kernel⟩

/-- Two calls half a minute apart are one key: the peak is two calls in a second, where no
second has more than one. -/
theorem half_minute_counts_as_one_second :
    peakRequests (.stored _)
        (tuned secondly [.allow 0 true, .allow 30000000000 true]).attemptCounts = 2 ∧
      busiest (slot 1000000000) [0, 30000000000] = 1 := by
  decide +kernel

end Nodecore.Ratelimiter
