/-
# The retry policy of the flow

A request is tried again while the upstreams answer with errors that another upstream may
not have.  An attempt that finds no upstream any more says so by a stop error, and the
caller is then given the result of the attempt before.

The executor is generic in what an attempt returns.  A context that is cancelled ends it at
one of three points, with a result that is not its own.  An unlimited policy may go on for
ever, so the rounds are counted; a limited one needs no more than its attempts.
-/

import Nodecore.Resilience.ParallelHedge

namespace Nodecore.Resilience

universe u v

variable {ρ : Type u} {ε : Type v}

/-- What an attempt returns. -/
structure Attempt (ρ : Type u) (ε : Type v) where
  result : Option ρ
  error : Option ε
  deriving DecidableEq

inductive RetryError (ρ : Type u) (ε : Type v)
  | inner (err : ε)
  | exceededError (last : Attempt ρ ε)
  deriving DecidableEq

/-- The result of a policy; one that is not done is tried again. -/
structure RetryResult (ρ : Type u) (ε : Type v) where
  result : Option ρ
  error : Option (RetryError ρ ε)
  done : Bool
  deriving DecidableEq

def Attempt.withDone (attempt : Attempt ρ ε) (done : Bool) : RetryResult ρ ε where
  result := attempt.result
  error := attempt.error.map .inner
  done := done

@[simp]
theorem Attempt.done_withDone (attempt : Attempt ρ ε) (done : Bool) :
    (attempt.withDone done).done = done := rfl

structure RetryPolicy (ρ : Type u) (ε : Type v) where
  failureConditions : List (Attempt ρ ε → Bool) := []
  abortConditions : List (Attempt ρ ε → Bool) := []
  returnLastFailure : Bool := false
  maxDuration : ℕ := 0
  maxRetries : ℤ := 2
  returnPreviousResultErrors : List ε := []

/-- Where the executor asks whether the execution was cancelled. -/
inductive Checkpoint
  | isCanceledWithResult
  | recordResult
  | initializeRetry

/-- What surrounds the executor, for each number of retries made so far: the inner function,
the clock and the context. -/
structure Execution (ρ : Type u) (ε : Type v) where
  innerFn : ℕ → Attempt ρ ε
  elapsedTime : ℕ → ℕ := fun _ => 0
  cancelResult : ℕ → Checkpoint → Option (RetryResult ρ ε) := fun _ _ => none

structure RetryExecutor (ρ : Type u) (ε : Type v) where
  retries : ℕ := 0
  failedAttempts : ℕ := 0
  retriesExceeded : Bool := false
  result : Option (RetryResult ρ ε) := none

/-- What the executor returned, after how many calls of the inner function. -/
structure Executed (ρ : Type u) (ε : Type v) where
  result : RetryResult ρ ε
  calls : ℕ

namespace RetryPolicy

variable (policy : RetryPolicy ρ ε)

def isFailure (attempt : Attempt ρ ε) : Bool :=
  if policy.failureConditions.isEmpty then attempt.error.isSome
  else policy.failureConditions.any (· attempt)

def isAbortable (attempt : Attempt ρ ε) : Bool := policy.abortConditions.any (· attempt)

def allowsRetries : Bool := policy.maxRetries = -1 ∨ 0 < policy.maxRetries

def onFailure (executor : RetryExecutor ρ ε) (elapsedTime : ℕ) (attempt : Attempt ρ ε) :
    RetryExecutor ρ ε × RetryResult ρ ε :=
  let failedAttempts := executor.failedAttempts + 1
  let maxRetriesExceeded := policy.maxRetries ≠ -1 ∧ policy.maxRetries < failedAttempts
  let maxDurationExceeded := policy.maxDuration ≠ 0 ∧ policy.maxDuration < elapsedTime
  let retriesExceeded := maxRetriesExceeded ∨ maxDurationExceeded
  let isAbortable := policy.isAbortable attempt
  let shouldRetry := !isAbortable && !retriesExceeded && policy.allowsRetries
  ({ executor with failedAttempts, retriesExceeded },
    if retriesExceeded ∧ policy.returnLastFailure = false then
      { result := none, error := some (.exceededError attempt), done := true }
    else attempt.withDone (isAbortable || !shouldRetry))

def postExecute (executor : RetryExecutor ρ ε) (elapsedTime : ℕ) (attempt : Attempt ρ ε) :
    RetryExecutor ρ ε × RetryResult ρ ε :=
  if policy.isFailure attempt then policy.onFailure executor elapsedTime attempt
  else (executor, attempt.withDone true)

/-- The result of the attempt before is handed out in place of an error that asks for it. -/
def previousResult [DecidableEq ε] (executor : RetryExecutor ρ ε) (result : RetryResult ρ ε) :
    Option (RetryResult ρ ε) :=
  match result.error with
  | some (.inner err) =>
    if err ∈ policy.returnPreviousResultErrors then
      executor.result.map fun prevResult => { prevResult with done := true }
    else none
  | _ => none

def round [DecidableEq ε] (exec : Execution ρ ε) (executor : RetryExecutor ρ ε) :
    RetryExecutor ρ ε ⊕ Executed ρ ε :=
  let retries := executor.retries
  let attempt := exec.innerFn retries
  let leave (result : RetryResult ρ ε) : RetryExecutor ρ ε ⊕ Executed ρ ε :=
    .inr ⟨result, retries + 1⟩
  match exec.cancelResult retries .isCanceledWithResult with
  | some cancelResult => leave cancelResult
  | none =>
    if executor.retriesExceeded then leave (attempt.withDone true)
    else
      let (after, result) := policy.postExecute executor (exec.elapsedTime retries) attempt
      if result.done then leave ((policy.previousResult executor result).getD result)
      else
        match exec.cancelResult retries .recordResult, exec.cancelResult retries .initializeRetry with
        | some cancelResult, _ | none, some cancelResult => leave cancelResult
        | none, none => .inl { after with retries := retries + 1, result := some result }

def apply [DecidableEq ε] (exec : Execution ρ ε) : ℕ → RetryExecutor ρ ε → Option (Executed ρ ε)
  | 0, _ => none
  | fuel + 1, executor =>
    match policy.round exec executor with
    | .inl next => apply exec fuel next
    | .inr executed => some executed

end RetryPolicy

/-- A wrapped response as the policy reads it, with the text of its error. -/
structure UpstreamAnswer where
  upstreamId : String
  response : ResponseHolder
  message : String := ""
  deriving DecidableEq

/-- The texts are matched against the configured errors. -/
def isRetryable (retryableText : String → Bool) (answer : UpstreamAnswer) : Bool :=
  match answer.response with
  | .genericUpstreamResponse hasError => hasError && retryableText answer.message
  | .replyError errorKind => errorKind = .partialFailure
  | .other _ => false

/-- The error of an attempt, which is replaced after the first one. -/
inductive FlowError (ε : Type v)
  | stopRetryErr
  | cause (err : ε)
  deriving DecidableEq

def handleErrors (retries : ℕ) (err : ε) : FlowError ε :=
  if 0 < retries then .stopRetryErr else .cause err

def createFlowRetryPolicy (retryableText : String → Bool) (attempts : ℤ) :
    RetryPolicy UpstreamAnswer (FlowError ε) where
  failureConditions := [fun attempt =>
    (attempt.error matches some .stopRetryErr) = false ∧
      attempt.result.any (isRetryable retryableText)]
  returnLastFailure := true
  maxRetries := if 0 < attempts then attempts - 1 else 2
  returnPreviousResultErrors := [.stopRetryErr]

/-- What an attempt of the flow returns, from what selecting an upstream and sending to it
comes to. -/
def flowAttempt (retries : ℕ) : Except ε UpstreamAnswer → Attempt UpstreamAnswer (FlowError ε)
  | .ok answer => ⟨some answer, none⟩
  | .error err => ⟨none, some (handleErrors retries err)⟩

/-- The execution of a request. -/
def flowExecution (outcome : ℕ → Except ε UpstreamAnswer) (elapsedTime : ℕ → ℕ)
    (cancelResult : ℕ → Checkpoint → Option (RetryResult UpstreamAnswer (FlowError ε))) :
    Execution UpstreamAnswer (FlowError ε) where
  innerFn := fun retries => flowAttempt retries (outcome retries)
  elapsedTime := elapsedTime
  cancelResult := cancelResult

def executeUnaryRequest [DecidableEq ε] (retryableText : String → Bool) (attempts : ℤ)
    (exec : Execution UpstreamAnswer (FlowError ε)) (fuel : ℕ) :
    Option (Executed UpstreamAnswer (FlowError ε)) :=
  (createFlowRetryPolicy retryableText attempts).apply exec fuel {}

namespace RetryPolicy

variable [DecidableEq ε] {policy : RetryPolicy ρ ε} {exec : Execution ρ ε}
  {executor next : RetryExecutor ρ ε} {executed : Executed ρ ε}

theorem calls_of_round (left : policy.round exec executor = .inr executed) :
    executed.calls = executor.retries + 1 := by
  simp only [round] at left
  split at left
  · cases left
    rfl
  · split_ifs at left
    · cases left
      rfl
    · cases left
      rfl
    · split at left <;> cases left
      rfl
      rfl

theorem next_of_round (goes : policy.round exec executor = .inl next) :
    next.retries = executor.retries + 1 ∧ next.failedAttempts = executor.failedAttempts + 1 ∧
      (policy.maxRetries = -1 ∨ (next.failedAttempts : ℤ) ≤ policy.maxRetries) := by
  simp only [round] at goes
  split at goes
  · cases goes
  · split_ifs at goes with exceeded done
    split at goes <;> cases goes
    by_cases fails : policy.isFailure (exec.innerFn executor.retries)
    · simp only [postExecute, if_pos fails] at done ⊢
      refine ⟨trivial, rfl, ?_⟩
      by_contra beyond
      have isOver : policy.maxRetries ≠ -1 ∧ policy.maxRetries < executor.failedAttempts + 1 := by
        simpa [onFailure] using beyond
      simp [onFailure, Attempt.withDone, isOver, apply_ite RetryResult.done] at done
    · simp [postExecute, fails, Attempt.withDone] at done

theorem exists_apply {attempts fuel : ℕ} (limit : policy.maxRetries = attempts - 1)
    (counted : executor.failedAttempts = executor.retries) (within : executor.retries < attempts)
    (enough : attempts ≤ executor.retries + fuel) :
    ∃ executed, policy.apply exec fuel executor = some executed ∧ executed.calls ≤ attempts := by
  induction fuel generalizing executor with
  | zero => omega
  | succ fuel ih =>
    rw [apply]
    cases round : policy.round exec executor with
    | inr executed =>
      have calls := calls_of_round round
      exact ⟨executed, rfl, by omega⟩
    | inl next =>
      obtain ⟨retries, failed, allowed⟩ := next_of_round round
      change ∃ executed, policy.apply exec fuel next = some executed ∧ _
      exact ih (by omega) (by omega) (by omega)

end RetryPolicy

section Flow

variable {retryableText : String → Bool} {outcome : ℕ → Except ε UpstreamAnswer}
  {elapsedTime : ℕ → ℕ} {attempts k fuel : ℕ}

/-- The attempt is answered with an error that is worth another attempt. -/
def TriesAgain (retryableText : String → Bool) : Except ε UpstreamAnswer → Prop
  | .ok answer => isRetryable retryableText answer = true
  | .error _ => False

/-- The executor after so many attempts that were worth another one. -/
def afterRetries (outcome : ℕ → Except ε UpstreamAnswer) :
    ℕ → RetryExecutor UpstreamAnswer (FlowError ε)
  | 0 => {}
  | k + 1 =>
    { retries := k + 1
      failedAttempts := k + 1
      result := some ((flowAttempt k (outcome k)).withDone false) }

@[simp]
theorem retries_afterRetries : (afterRetries outcome k).retries = k := by
  cases k <;> rfl

@[simp]
theorem failedAttempts_afterRetries : (afterRetries outcome k).failedAttempts = k := by
  cases k <;> rfl

@[simp]
theorem retriesExceeded_afterRetries : (afterRetries outcome k).retriesExceeded = false := by
  cases k <;> rfl

theorem isFailure_flowAttempt :
    (createFlowRetryPolicy retryableText attempts).isFailure (flowAttempt k (outcome k)) = true ↔
      TriesAgain retryableText (outcome k) := by
  cases outcome k <;> simp [createFlowRetryPolicy, RetryPolicy.isFailure, flowAttempt, TriesAgain]

theorem onFailure_afterRetries {attempt : Attempt UpstreamAnswer (FlowError ε)} {elapsed : ℕ}
    (within : k < attempts) :
    (createFlowRetryPolicy retryableText attempts).onFailure (afterRetries outcome k) elapsed
        attempt =
      ({ afterRetries outcome k with
          failedAttempts := k + 1, retriesExceeded := decide (k + 1 = attempts) },
        attempt.withDone (decide (k + 1 = attempts))) := by
  have positive : 0 < attempts := by omega
  have limited : (attempts : ℤ) - 1 ≠ -1 := by omega
  by_cases last : k + 1 = attempts
  · have exceeded : (attempts : ℤ) - 1 < attempts := by omega
    simp [RetryPolicy.onFailure, RetryPolicy.isAbortable, createFlowRetryPolicy, positive,
      limited, last, exceeded]
  · have within : (k : ℤ) + 1 ≤ attempts - 1 := by omega
    have allowed : (1 : ℤ) < attempts := by omega
    simp [RetryPolicy.onFailure, RetryPolicy.isAbortable, RetryPolicy.allowsRetries,
      createFlowRetryPolicy, positive, limited, last, allowed, Int.not_lt.mpr within]

variable [DecidableEq ε]

/-- An attempt that is worth another one is followed by it, as long as there may be one. -/
theorem round_of_triesAgain (again : TriesAgain retryableText (outcome k)) (within : k < attempts) :
    (createFlowRetryPolicy retryableText attempts).round
        (flowExecution outcome elapsedTime fun _ _ => none) (afterRetries outcome k) =
      if k + 1 = attempts then .inr ⟨(flowAttempt k (outcome k)).withDone true, k + 1⟩
      else .inl (afterRetries outcome (k + 1)) := by
  have kept : (createFlowRetryPolicy retryableText attempts).previousResult
      (afterRetries outcome k) ((flowAttempt k (outcome k)).withDone true) = none := by
    cases answered : outcome k with
    | ok answer => rfl
    | error err =>
      rw [answered] at again
      cases again
  simp only [RetryPolicy.round, flowExecution, RetryPolicy.postExecute, retries_afterRetries,
    retriesExceeded_afterRetries, isFailure_flowAttempt.mpr again, onFailure_afterRetries within]
  by_cases last : k + 1 = attempts
  · simp [last, kept]
  · simp [last, afterRetries]

theorem round_of_not_triesAgain (ends : ¬ TriesAgain retryableText (outcome k)) :
    (createFlowRetryPolicy retryableText attempts).round
        (flowExecution outcome elapsedTime fun _ _ => none) (afterRetries outcome k) =
      .inr ⟨((createFlowRetryPolicy retryableText attempts).previousResult (afterRetries outcome k)
        ((flowAttempt k (outcome k)).withDone true)).getD
          ((flowAttempt k (outcome k)).withDone true), k + 1⟩ := by
  have succeeds : (createFlowRetryPolicy retryableText attempts).isFailure
      (flowAttempt k (outcome k)) = false := by
    simpa using mt isFailure_flowAttempt.mp ends
  simp [RetryPolicy.round, flowExecution, RetryPolicy.postExecute, succeeds]

theorem apply_of_triesAgain (again : ∀ i < k, TriesAgain retryableText (outcome i))
    (within : k < attempts) :
    (createFlowRetryPolicy retryableText attempts).apply
        (flowExecution outcome elapsedTime fun _ _ => none) (k + fuel) {} =
      (createFlowRetryPolicy retryableText attempts).apply
        (flowExecution outcome elapsedTime fun _ _ => none) fuel (afterRetries outcome k) := by
  induction k generalizing fuel with
  | zero => rw [Nat.zero_add, afterRetries]
  | succ k ih =>
    rw [Nat.add_assoc, ih (fun i before => again i (by omega)) (by omega), Nat.add_comm 1,
      RetryPolicy.apply, round_of_triesAgain (again k (Nat.lt_succ_self k)) (by omega),
      if_neg (by omega)]

theorem executeUnaryRequest_of_round (again : ∀ i < k, TriesAgain retryableText (outcome i))
    (within : k < attempts) (enough : attempts ≤ fuel)
    {executed : Executed UpstreamAnswer (FlowError ε)}
    (ends : (createFlowRetryPolicy retryableText attempts).round
      (flowExecution outcome elapsedTime fun _ _ => none) (afterRetries outcome k) = .inr executed) :
    executeUnaryRequest retryableText attempts (flowExecution outcome elapsedTime fun _ _ => none)
      fuel = some executed := by
  obtain ⟨rest, rfl⟩ : ∃ rest, fuel = k + (rest + 1) := ⟨fuel - k - 1, by omega⟩
  rw [executeUnaryRequest, apply_of_triesAgain again within, RetryPolicy.apply, ends]

/-- The inner function is called at most as often as the policy has attempts, also by a
request that is cancelled.  One that is not returns the first answer that is not worth another
attempt, or the last answer.  Without an upstream the first attempt returns the error, and a
later one the answer of the attempt before. -/
theorem executeUnaryRequest_returns (retryableText : String → Bool)
    (outcome : ℕ → Except ε UpstreamAnswer) (elapsedTime : ℕ → ℕ) {attempts fuel : ℕ}
    (positive : 0 < attempts) (enough : attempts ≤ fuel) :
    (∀ cancelResult, ∃ executed,
      executeUnaryRequest retryableText attempts (flowExecution outcome elapsedTime cancelResult)
        fuel = some executed ∧ executed.calls ≤ attempts) ∧
    ∀ k < attempts, (∀ i < k, TriesAgain retryableText (outcome i)) →
      let returned := executeUnaryRequest retryableText attempts
        (flowExecution outcome elapsedTime fun _ _ => none) fuel
      (∀ answer, outcome k = .ok answer →
        isRetryable retryableText answer = false ∨ k + 1 = attempts →
          returned = some ⟨⟨some answer, none, true⟩, k + 1⟩) ∧
      (∀ err, outcome k = .error err → k = 0 →
        returned = some ⟨⟨none, some (.inner (.cause err)), true⟩, 1⟩) ∧
      ∀ err j answer, outcome k = .error err → k = j + 1 → outcome j = .ok answer →
        returned = some ⟨⟨some answer, none, true⟩, k + 1⟩ := by
  refine ⟨fun cancelResult => ?_, fun k within again => ⟨?_, ?_, ?_⟩⟩
  · have limit : (createFlowRetryPolicy (ε := ε) retryableText attempts).maxRetries =
        attempts - 1 := if_pos (by omega)
    exact RetryPolicy.exists_apply limit rfl positive (by simpa using enough)
  · intro answer answered ends
    apply executeUnaryRequest_of_round again within enough
    by_cases worth : TriesAgain retryableText (outcome k)
    · have last : k + 1 = attempts := by
        refine ends.resolve_left fun plain => ?_
        rw [answered, TriesAgain, plain] at worth
        cases worth
      rw [round_of_triesAgain worth within, if_pos last, answered]
      rfl
    · rw [round_of_not_triesAgain worth, answered]
      rfl
  · rintro err failed rfl
    apply executeUnaryRequest_of_round again within enough
    rw [round_of_not_triesAgain (by simp [failed, TriesAgain]), failed]
    rfl
  · rintro err j answer failed rfl answered
    apply executeUnaryRequest_of_round again within enough
    rw [round_of_not_triesAgain (by simp [failed, TriesAgain]), failed]
    simp [flowAttempt, handleErrors, Attempt.withDone, RetryPolicy.previousResult, afterRetries,
      createFlowRetryPolicy, answered]

def busyOnce (attempt : ℕ) : Except String UpstreamAnswer :=
  if attempt = 0 then .ok ⟨"a", .genericUpstreamResponse true, "busy"⟩
  else .error "no available upstreams"

theorem executeUnaryRequest_of_busyOnce :
    executeUnaryRequest (fun _ => true) 3
        (flowExecution busyOnce (fun _ => 0) fun _ _ => none) 3 =
      some ⟨⟨some ⟨"a", .genericUpstreamResponse true, "busy"⟩, none, true⟩, 2⟩ := by
  have returned := (executeUnaryRequest_returns (fun _ => true) busyOnce (fun _ => 0)
    (Nat.succ_pos 2) (Nat.le_refl 3)).2 1 (by decide)
  refine (returned ?_).2.2 _ 0 _ rfl rfl rfl
  intro i first
  rw [Nat.lt_one_iff.mp first]
  rfl

end Flow

end Nodecore.Resilience
