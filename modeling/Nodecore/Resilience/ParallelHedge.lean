/-
# Parallel hedging

A request is sent once and, when that takes too long, some more times in parallel.
The first attempt that may end the matter hands its result over; if none does, the
last one to come back picks the best of the results that the others have put down.
An attempt counts itself and puts its result down in two steps, and the last one
may look in between.  The model takes the atomic steps of the attempts and of the
caller one at a time, in any interleaving.
-/

import Mathlib.Data.List.MinMax
import Nodecore.Lib.Run
import Nodecore.Lib.Totals

namespace Nodecore.Resilience

open Lib

inductive ResultType
  | resultOk
  | resultOkWithError
  | resultPartialFailure
  | resultTotalFailure
  | resultStop
  deriving DecidableEq

/-- The number of a class; the best has the least. -/
def ResultType.toNat : ResultType → ℕ
  | resultOk => 0
  | resultOkWithError => 1
  | resultPartialFailure => 2
  | resultTotalFailure => 3
  | resultStop => 4

inductive ResponseErrorKind
  | partialFailure
  | totalFailure
  deriving DecidableEq

inductive ResponseHolder
  | replyError (errorKind : ResponseErrorKind)
  | genericUpstreamResponse (hasError : Bool)
  | other (hasError : Bool)
  deriving DecidableEq

def ResponseHolder.hasError : ResponseHolder → Bool
  | replyError _ => true
  | genericUpstreamResponse hasError => hasError
  | other hasError => hasError

inductive AttemptError
  | stopRetryErr
  | other
  deriving DecidableEq

/-- What an attempt returns: a wrapped response or none, and an error or none. -/
structure PolicyResult where
  result : Option ResponseHolder
  error : Option AttemptError
  deriving DecidableEq

def getErrorType : Option AttemptError → ResultType
  | some .stopRetryErr => .resultStop
  | some .other => .resultTotalFailure
  | none => .resultOk

def getResponseType (outcome : PolicyResult) : ResultType :=
  match outcome.result with
  | some (.replyError .partialFailure) => .resultPartialFailure
  | some (.replyError .totalFailure) => .resultTotalFailure
  | some (.genericUpstreamResponse true) => .resultOkWithError
  | _ => getErrorType outcome.error

structure HedgePolicy (ρ : Type*) where
  maxHedges : ℕ
  isAbortable : ρ → Bool
  resultTypeFunc : ρ → ResultType

def createFlowParallelHedgePolicy (count : ℕ) : HedgePolicy PolicyResult where
  maxHedges := count
  isAbortable outcome := outcome.result.any fun response => !response.hasError
  resultTypeFunc := getResponseType

structure ExecResult (n : ℕ) (ρ : Type*) where
  result : ρ
  index : Fin n
  resultType : ResultType
  deriving DecidableEq

/-- What an inner call returned, and whether that took less than the delay. -/
structure Outcome (ρ : Type*) where
  result : ρ
  inTime : Bool
  deriving DecidableEq

/-- Where an attempt is. -/
inductive Phase (n : ℕ) (ρ : Type*)
  | unlaunched
  | running
  | returned (outcome : Outcome ρ)
  | counted (outcome : Outcome ρ) (isFinalResult : Bool)
  | storing (outcome : Outcome ρ) (isFinalResult : Bool)
  /-- The possible results are visited one by one. -/
  | ranging (looked : Finset (Fin n)) (possibleResults : List (ExecResult n ρ))
  | picked (finalResult : Option (ExecResult n ρ))
  | sending (result : ExecResult n ρ)
  | crashed
  | finished
  deriving DecidableEq

def Phase.launch {n : ℕ} {ρ : Type*} : Phase n ρ → Phase n ρ
  | unlaunched => running
  | phase => phase

/-- Where the caller is: it waits, before or after the timer fired, or it has received a
result and returned it, or else the result it was cancelled with. -/
inductive Caller (n : ℕ) (ρ : Type*)
  | waiting (fired : Bool)
  | returned (received : ExecResult n ρ) (cancelResult : Option ρ)
  deriving DecidableEq

/-- The attempts with what they share.  Next to it are what the inner calls returned and which
results were handed over. -/
structure HedgeSystem (n : ℕ) (ρ : Type*) where
  phase : Fin n → Phase n ρ
  resultSent : Bool
  resultCount : ℕ
  resultChan : Option (ExecResult n ρ)
  possibleResults : Fin n → Option (ExecResult n ρ)
  caller : Caller n ρ
  outcome : Fin n → Option (Outcome ρ)
  sent : List (ExecResult n ρ)

inductive HedgeEvent (n : ℕ) (ρ : Type*)
  /-- The delay is over. -/
  | timer
  /-- The caller takes the result. -/
  | receive (cancelResult : Option ρ)
  /-- An inner call returns. -/
  | innerFn (i : Fin n) (outcome : Outcome ρ)
  /-- The next atomic step of an attempt. -/
  | advance (i : Fin n)
  /-- The last attempt looks for the result of another. -/
  | look (i j : Fin n)

/-- A count as the counter shows it. -/
def asInt32 (count : ℕ) : ℤ := (BitVec.ofNat 32 count).toInt

theorem asInt32_of_lt {count : ℕ} (small : count < 2 ^ 31) : asInt32 count = count := by
  have value : (BitVec.ofNat 32 count).toNat = count := by
    rw [BitVec.toNat_ofNat]
    omega
  rw [asInt32, BitVec.toInt_eq_toNat_of_lt (by omega), value]

namespace HedgePolicy

variable {ρ : Type*} (policy : HedgePolicy ρ)

abbrev System : Type _ := HedgeSystem (policy.maxHedges + 1) ρ

abbrev Event : Type _ := HedgeEvent (policy.maxHedges + 1) ρ

def start : policy.System where
  phase i := if i = 0 then .running else .unlaunched
  resultSent := false
  resultCount := 0
  resultChan := none
  possibleResults _ := none
  caller := .waiting false
  outcome _ := none
  sent := []

variable (system : policy.System)

/-- An attempt goes on to a phase. -/
def enter (i : Fin (policy.maxHedges + 1)) (phase : Phase (policy.maxHedges + 1) ρ) :
    policy.System :=
  { system with phase := Function.update system.phase i phase }

/-- A result that is handed over at once. -/
def endsMatter (i : Fin (policy.maxHedges + 1)) (outcome : Outcome ρ) : Bool :=
  policy.isAbortable outcome.result || (i = 0 && outcome.inTime)

/-- The atomic steps of an attempt after its inner call. -/
def advance (i : Fin (policy.maxHedges + 1)) : policy.System :=
  match system.phase i with
  | .returned outcome =>
    { policy.enter system i (.counted outcome
        (asInt32 (system.resultCount + 1) = policy.maxHedges + 1)) with
      resultCount := system.resultCount + 1 }
  | .counted outcome isFinalResult =>
    if policy.endsMatter i outcome && !system.resultSent then
      { policy.enter system i (.sending ⟨outcome.result, i, .resultOk⟩) with
        resultSent := true }
    else policy.enter system i (.storing outcome isFinalResult)
  | .storing outcome isFinalResult =>
    { policy.enter system i (if isFinalResult then .ranging ∅ [] else .finished) with
      possibleResults := Function.update system.possibleResults i
        (some ⟨outcome.result, i, policy.resultTypeFunc outcome.result⟩) }
  | .ranging looked possibleResults =>
    if looked = Finset.univ then
      policy.enter system i
        (.picked (possibleResults.argmin fun result => result.resultType.toNat))
    else system
  | .picked finalResult =>
    if system.resultSent then policy.enter system i .finished
    else
      { policy.enter system i (finalResult.elim .crashed .sending) with resultSent := true }
  | .sending result =>
    -- The channel takes one result.
    match system.resultChan with
    | none =>
      { policy.enter system i .finished with
        resultChan := some result
        sent := system.sent ++ [result] }
    | some _ => system
  | .unlaunched | .running | .crashed | .finished => system

/-- A map may be visited while others store in it: each result is found or not as it is there
or not when its turn comes. -/
def look (i j : Fin (policy.maxHedges + 1)) : policy.System :=
  match system.phase i with
  | .ranging looked possibleResults =>
    if j ∈ looked then system
    else
      policy.enter system i
        (.ranging (insert j looked) (possibleResults ++ (system.possibleResults j).toList))
  | _ => system

/-- An attempt that is launched may be held up before its first step, so it makes no difference
that all are launched at once. -/
def timer : policy.System :=
  match system.caller with
  | .waiting false =>
    { system with
      phase := fun i => (system.phase i).launch
      caller := .waiting true }
  | _ => system

def receive (cancelResult : Option ρ) : policy.System :=
  match system.caller, system.resultChan with
  | .waiting _, some result =>
    { system with caller := .returned result cancelResult, resultChan := none }
  | _, _ => system

def innerFn (i : Fin (policy.maxHedges + 1)) (outcome : Outcome ρ) : policy.System :=
  match system.phase i with
  | .running =>
    { policy.enter system i (.returned outcome) with
      outcome := Function.update system.outcome i (some outcome) }
  | _ => system

def step : policy.Event → policy.System
  | .timer => policy.timer system
  | .receive cancelResult => policy.receive system cancelResult
  | .innerFn i outcome => policy.innerFn system i outcome
  | .advance i => policy.advance system i
  | .look i j => policy.look system i j

end HedgePolicy

end Nodecore.Resilience
