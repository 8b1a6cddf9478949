/-
# Matchers

A matcher decides whether an upstream may serve a request and says why not.  The
reasons are ranked: of several failing matchers the one with the lowest type
speaks for all of them.
-/

import Nodecore.Protocol.RequestSelector
import Nodecore.Protocol.UpstreamState

namespace Nodecore.Flow

open Lib Protocol

/-- The kinds of responses, in the order of their ranks. -/
inductive MatchResponseType
  | methodType | availabilityType | rateLimiterType | upstreamIndexType | selectorType
  | successType
  deriving DecidableEq, Repr

def MatchResponseType.rank : MatchResponseType → ℕ
  | .methodType => 0
  | .availabilityType => 1
  | .rateLimiterType => 2
  | .upstreamIndexType => 3
  | .selectorType => 4
  | .successType => 5

inductive MatchResponse
  | success
  | rateLimiter
  | upstreamIndex (upstreamIndex : String)
  | method (method : String)
  | availability
  | label (name : String) (values : List String)
  | existsLabel (name : String)
  | height (height currentHeight : Int64)
  | slotHeight (slot currentSlotHeight : Int64)
  | lowerHeight (lowerHeight predictedHeight : Int64) (boundType : LowerBoundType)
  | selectorUnsupported (reason : String)
  | notMatched (response : MatchResponse)
  | multi (responses : List MatchResponse)

namespace MatchResponse

def type : MatchResponse → MatchResponseType
  | success => .successType
  | rateLimiter => .rateLimiterType
  | upstreamIndex _ => .upstreamIndexType
  | method _ => .methodType
  | availability => .availabilityType
  | _ => .selectorType

def isSuccess (response : MatchResponse) : Bool := response.type == .successType

variable (response : MatchResponse)

theorem isSuccess_iff_type : response.isSuccess = true ↔ response.type = .successType := beq_iff_eq

theorem isSuccess_iff : response.isSuccess = true ↔ 5 ≤ response.type.rank := by
  rw [isSuccess]
  cases response.type <;> decide

theorem rank_type_le : response.type.rank ≤ 5 := by
  cases response.type <;> decide

def joinCauses (parts : List String) : String := "; ".intercalate parts

mutual

def cause : MatchResponse → String
  | success => ""
  | rateLimiter => "too many requests"
  | upstreamIndex index => "no upstream with index " ++ index
  | method name => "method " ++ name ++ " is not supported"
  | availability => "upstream is not available"
  | label name values =>
    "No label `" ++ name ++ "` with values [" ++ " ".intercalate values ++ "]"
  | existsLabel name => "Label " ++ name ++ " does not exist"
  | height wanted current =>
    "Upstream height " ++ toString current ++ " is less than " ++ toString wanted
  | slotHeight wanted current =>
    "Upstream slot height " ++ toString current ++ " is less than " ++ toString wanted
  | lowerHeight wanted predicted boundType =>
    if predicted = 0 then
      "Upstream lower height of type " ++ boundType.toString ++ " cannot be predicted"
    else
      "Upstream lower height " ++ toString predicted ++ " of type " ++ boundType.toString ++
        " is greater than " ++ toString wanted
  | selectorUnsupported reason => reason
  | notMatched response => "Not matched - " ++ cause response
  | multi responses => joinCauses (causes responses)

/-- The causes of the failures among some responses, nested groups flattened. -/
def causes : List MatchResponse → List String
  | [] => []
  | success :: rest => causes rest
  | multi responses :: rest => causes responses ++ causes rest
  | response :: rest => cause response :: causes rest

end

end MatchResponse

/-- What is predicted for a lower bound of an upstream after some time; zero if
nothing can be predicted. -/
abbrev LowerHeightPredictor := String → LowerBoundType → Int64 → Int64

inductive Matcher
  | status
  | method (method : String)
  | wsCap (method : String)
  | upstreamIndex (upstreamIndex : String)
  | label (name : String) (values : List String)
  | labelExists (name : String)
  | height (height : Int64)
  | slotHeight (slotHeight : Int64)
  | lowerHeight (height : Int64) (boundType : LowerBoundType) (timeOffset delta : Int64)
      (predict : LowerHeightPredictor)
  | selectorAnd (matchers : List Matcher)
  | selectorOr (matchers : List Matcher)
  | selectorNot (matcher : Matcher)
  | unsupportedSelector (reason : String)

variable (matchers : List Matcher)

namespace Matcher

mutual

/-- The response of a matcher for an upstream and its state. -/
def respond (upId : String) (state : UpstreamState) : Matcher → MatchResponse
  | status => if state.status = .available then .success else .availability
  | method name => if state.upstreamMethods.hasMethod name then .success else .method name
  | wsCap name => if state.caps.contains .wsCap then .success else .method name
  | upstreamIndex index =>
    if state.upstreamIndex = index then .success else .upstreamIndex index
  | label name values =>
    match state.getLabel name with
    | none => .label name values
    | some value =>
      if values.isEmpty || values.contains value then .success else .label name values
  | labelExists name => if (state.getLabel name).isSome then .success else .existsLabel name
  | height wanted =>
    let current := state.headData.height.toInt64
    if wanted ≤ current then .success else .height wanted current
  | slotHeight wanted =>
    let current := state.headData.slot.toInt64
    if wanted ≤ current then .success else .slotHeight wanted current
  | lowerHeight wanted boundType timeOffset delta predict =>
    let predicted := predict upId boundType timeOffset
    if predicted ≠ 0 ∧ predicted - delta ≤ wanted then .success
    else .lowerHeight wanted predicted boundType
  | selectorAnd matchers =>
    match (respondAll upId state matchers).filter (!·.isSuccess) with
    | [] => .success
    | responses => .multi responses
  | selectorOr matchers =>
    let responses := respondAll upId state matchers
    if responses.any (·.isSuccess) then .success else .multi responses
  | selectorNot matcher =>
    let response := respond upId state matcher
    if response.isSuccess then .notMatched response else .success
  | unsupportedSelector reason => .selectorUnsupported reason

def respondAll (upId : String) (state : UpstreamState) : List Matcher → List MatchResponse
  | [] => []
  | matcher :: rest => respond upId state matcher :: respondAll upId state rest

end

def accepts (upId : String) (state : UpstreamState) (matcher : Matcher) : Bool :=
  (matcher.respond upId state).isSuccess

section

variable (upId : String) (state : UpstreamState)

theorem respondAll_eq_map : respondAll upId state matchers = matchers.map (respond upId state) := by
  induction matchers with
  | nil => rfl
  | cons matcher rest ih => rw [respondAll, ih, List.map_cons]

theorem accepts_selectorAnd :
    accepts upId state (.selectorAnd matchers) = matchers.all (accepts upId state) := by
  rw [Bool.eq_iff_iff, accepts, respond, respondAll_eq_map, List.all_eq_true]
  cases failing : (matchers.map (respond upId state)).filter (!·.isSuccess) with
  | nil =>
    rw [List.filter_eq_nil_iff] at failing
    refine iff_of_true rfl ?_
    intro matcher member
    rw [accepts]
    simpa using failing _ (List.mem_map_of_mem member)
  | cons response rest =>
    have failed : response ∈ (matchers.map (respond upId state)).filter (!·.isSuccess) := by
      rw [failing]
      exact List.mem_cons_self
    obtain ⟨isResponse, fails⟩ := List.mem_filter.mp failed
    obtain ⟨matcher, member, rfl⟩ := List.mem_map.mp isResponse
    refine iff_of_false (by simp [MatchResponse.isSuccess, MatchResponse.type]) ?_
    intro accepted
    have := accepted matcher member
    rw [accepts] at this
    simp [this] at fails

theorem accepts_selectorOr :
    accepts upId state (.selectorOr matchers) = matchers.any (accepts upId state) := by
  rw [accepts, respond, respondAll_eq_map, List.any_map]
  cases found : matchers.any ((·.isSuccess) ∘ respond upId state) with
  | true | false =>
    exact found.symm

theorem accepts_selectorNot (matcher : Matcher) :
    accepts upId state (.selectorNot matcher) = !accepts upId state matcher := by
  rw [accepts, respond, accepts]
  cases (respond upId state matcher).isSuccess with
  | true => rfl
  | false => rfl

variable {upId state} in
theorem accepts_status : accepts upId state .status = true ↔ state.status = .available := by
  rw [accepts, respond]
  split_ifs with available
  · exact iff_of_true rfl available
  · exact iff_of_false Bool.false_ne_true available

variable {upId state} in
theorem accepts_method {name : String} :
    accepts upId state (.method name) = true ↔ state.upstreamMethods.hasMethod name = true := by
  rw [accepts, respond]
  split_ifs with serves
  · exact iff_of_true rfl serves
  · exact iff_of_false Bool.false_ne_true serves

variable {upId state} in
theorem accepts_wsCap {name : String} :
    accepts upId state (.wsCap name) = true ↔ state.caps.contains .wsCap = true := by
  rw [accepts, respond]
  split_ifs with capable
  · exact iff_of_true rfl capable
  · exact iff_of_false Bool.false_ne_true capable

@[simp]
theorem accepts_unsupportedSelector (reason : String) :
    accepts upId state (.unsupportedSelector reason) = false := rfl

end

end Matcher

/-- Of two responses the one of the lower type speaks for both. -/
def MatchResponse.lower (response matched : MatchResponse) : MatchResponse :=
  if matched.type.rank < response.type.rank then matched else response

theorem MatchResponse.isSuccess_lower (response matched : MatchResponse) :
    (response.lower matched).isSuccess = (response.isSuccess && matched.isSuccess) := by
  have bound := response.rank_type_le
  rw [Bool.eq_iff_iff, Bool.and_eq_true, response.isSuccess_iff, matched.isSuccess_iff, lower]
  split
  · rw [matched.isSuccess_iff]
    omega
  · rw [response.isSuccess_iff]
    omega

def multiMatch (matchers : List Matcher) (upId : String) (state : UpstreamState) : MatchResponse :=
  matchers.foldl (fun response matcher => response.lower (matcher.respond upId state)) .success

theorem isSuccess_multiMatch (upId : String) (state : UpstreamState) :
    (multiMatch matchers upId state).isSuccess = matchers.all (Matcher.accepts upId state) := by
  have fold (response : MatchResponse) :
      (matchers.foldl (fun response matcher => response.lower (matcher.respond upId state))
        response).isSuccess =
        (response.isSuccess && matchers.all (Matcher.accepts upId state)) := by
    induction matchers generalizing response with
    | nil => exact (Bool.and_true _).symm
    | cons matcher rest ih =>
      rw [List.foldl_cons, ih, MatchResponse.isSuccess_lower, List.all_cons, Bool.and_assoc]
      rfl
  exact fold .success

end Nodecore.Flow
