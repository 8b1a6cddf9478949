/-
# From the upstream's response to the client

Two processors work on the result of a successful response.  The integrity processor
reads a block number out of it and, if the chain is known to be further, asks once more
and hands on the second response.  The sticky processor writes the index of the
upstream into the identifier that a create method returned.

Both cut the result by position and take it for a quoted string.  The results
below say for which results that is harmless, and when a second response is no
step back from the first.  What the executor comes back with is a parameter; a panic
is an error.
-/

import Mathlib.Data.Nat.Digits.Lemmas
import Nodecore.Flow.ExecutionFlow
import Nodecore.Lib.Json.Strings

namespace Nodecore.Flow

open Lib Lib.Json Protocol Specs Upstreams Regions

abbrev Answer := Except ResponseError UpstreamResponse

/-- The parameters are read before the executor starts. -/
def executeUnaryRequest (decoders : ResponseDecoders) (request : RequestHolder) (answer : Answer) :
    Except String Answer :=
  (request.parseParams decoders.gojq decoders.rpc).map fun _ => answer

/-- The chain as it is when a response is looked at. -/
structure ChainView where
  order : RangeOrder (Entry String UpstreamState)
  supervisor : ChainSupervisor

/-- What the client is handed, and the blocks recorded for upstreams on the way. -/
structure Processed where
  answer : Answer
  updates : List (String × IntegrityBlock) := []

/-- What surrounds one request: the chain when the first and when the second response
is looked at (`none` for an unknown chain), and the answer of the executor for each
list of upstreams a second request can go to. -/
structure IntegrityCall where
  flow : ExecutionFlow
  request : RequestHolder
  views : Option (ChainView × ChainView)
  second : List String → Answer

namespace IntegrityCall

variable (call : IntegrityCall)

def integrityHandler : Option IntegrityHandler :=
  call.flow.integrityHandler call.request (.integrity .unary)

def handle (handler : IntegrityHandler) (view : ChainView) (response : UpstreamResponse) :
    Except String HandledResponse :=
  handler.handleResponse call.flow.decoders view.order view.supervisor call.request response

def updateBlocks (upstreamId : String) (block : Option IntegrityBlock) :
    List (String × IntegrityBlock) :=
  match call.flow.getUpstream upstreamId, block with
  | some _, some block => [(upstreamId, block)]
  | _, _ => []

def handleResponse (handler : IntegrityHandler) (response : UpstreamResponse) :
    Except String Processed :=
  match call.views with
  | none => .ok ⟨.ok response, []⟩
  | some (view, later) => do
      let handled ← call.handle handler view response
      let updates := call.updateBlocks response.upstreamId handled.integrityBlock
      if !handled.shouldSendRequest || handled.sortedUpstreams.isEmpty then
        return ⟨.ok response, updates⟩
      match ← executeUnaryRequest call.flow.decoders call.request
          (call.second handled.sortedUpstreams) with
      | .error _ => return ⟨.ok response, updates⟩
      | .ok newResponse =>
        let again ← call.handle handler later newResponse
        return ⟨.ok newResponse,
          updates ++ call.updateBlocks newResponse.upstreamId again.integrityBlock⟩

/-- The processing of a request whose first answer is given.  A request that is not
checked is left to the unary processor. -/
def processRequest (first : Answer) : Except String Processed := do
  match ← executeUnaryRequest call.flow.decoders call.request first, call.integrityHandler with
  | .error err, _ => return ⟨.error err, []⟩
  | .ok response, none => return ⟨.ok response, []⟩
  | .ok response, some handler =>
    if response.hasError then return ⟨.ok response, []⟩
    else call.handleResponse handler response

end IntegrityCall

def hexByte (digit : ℕ) : UInt8 :=
  if digit < 10 then (48 + digit).toUInt8 else (87 + digit).toUInt8

/-- The index as it is printed: hexadecimal, with at least `maxBytes` digits. -/
def upstreamIndexHex (upstreamIndex : ℕ) : List UInt8 :=
  let digits := (Nat.digits 16 upstreamIndex).reverse.map hexByte
  List.replicate (maxBytes - digits.length) zero ++ digits

/-- The last byte of the result makes room for the index of the upstream. -/
def appendUpstreamIndex (upstreamIndex : String → Option ℕ) (response : UpstreamResponse) :
    Except String Answer :=
  if response.responseResult = [] then .error "slice bounds out of range"
  else
    match upstreamIndex response.upstreamId with
    | none => .error "nil pointer dereference"
    | some index =>
      .ok (.ok { response with
        responseResult := insertBeforeLast response.responseResult (upstreamIndexHex index) })

def processStickyRequest (decoders : ResponseDecoders) (upstreamIndex : String → Option ℕ)
    (request : RequestHolder) (specMethod : Method) (first : Answer) : Except String Answer :=
  if specMethod.isStickySend then executeUnaryRequest decoders request first
  else if specMethod.isStickyCreate then do
    match ← executeUnaryRequest decoders request first with
    | .error err => return .error err
    | .ok response =>
      if response.hasError then return .ok response
      else appendUpstreamIndex upstreamIndex response
  else .ok (.error .serverError)

section

variable {decoders : ResponseDecoders} {order : RangeOrder (Entry String UpstreamState)}
  {supervisor : ChainSupervisor} {request : RequestHolder} {response : UpstreamResponse}
  {param : Option MethodParam}

/-- The handler finds two quotes to cut off where it cuts. -/
def IntegrityHandler.CanCut (handler : IntegrityHandler) (response : UpstreamResponse) : Prop :=
  handler = .ethBlockNumber → response.hasError = false → 2 ≤ response.responseResult.length

theorem IntegrityHandler.exists_handleResponse_iff {handler : IntegrityHandler}
    (parsed : request.parseParams decoders.gojq decoders.rpc = .ok param) :
    (∃ handled, handler.handleResponse decoders order supervisor request response = .ok handled) ↔
      handler.CanCut response := by
  cases handler with
  | noop => simp [handleResponse, CanCut]
  | ethBlockNumber =>
    rw [handleResponse, CanCut]
    by_cases failed : response.hasError = true
    · simp [failed]
    · by_cases short : response.responseResult.length < 2
      · simp [failed, withoutQuotes, short, Except.map]
      · simp [failed, withoutQuotes, short, Except.map, Nat.not_lt.mp short]
  | ethGetBlockByNumber =>
    rw [handleResponse, parsed]
    simp only [CanCut, reduceCtorEq, false_implies, iff_true]
    split_ifs with failed
    · exact ⟨_, rfl⟩
    · split
      · exact ⟨_, rfl⟩
      · exact ⟨_, rfl⟩
      · split
        · exact ⟨_, rfl⟩
        · exact ⟨_, rfl⟩

end

namespace IntegrityCall

variable (call : IntegrityCall)

/-- The response to the second request, if one is sent and answered. -/
def secondResponse (first : UpstreamResponse) : Option UpstreamResponse := do
  let handler ← call.integrityHandler
  let (view, _) ← call.views
  let handled ← (call.handle handler view first).toOption
  guard (handled.shouldSendRequest && !handled.sortedUpstreams.isEmpty)
  (call.second handled.sortedUpstreams).toOption

/-- The parameters of the request can be read, as they were before the first response
came in. -/
def Received (first : UpstreamResponse) : Prop :=
  executeUnaryRequest call.flow.decoders call.request (.ok first) = .ok (.ok first)

/-- The handler that gets to see a response, on a chain that is known. -/
def CanCut (response : UpstreamResponse) : Prop :=
  ∀ handler, call.integrityHandler = some handler → call.views.isSome → handler.CanCut response

/-- The ways a first response that is no error can go through the processor. -/
inductive Outcome (first : UpstreamResponse) : Except String Processed → Prop
  | kept (updates : List (String × IntegrityBlock)) (alone : call.secondResponse first = none)
      (cuts : call.CanCut first) : Outcome first (.ok ⟨.ok first, updates⟩)
  | replaced (updates : List (String × IntegrityBlock)) {second : UpstreamResponse}
      (answered : call.secondResponse first = some second) (cuts : call.CanCut first)
      (cuts' : call.CanCut second) : Outcome first (.ok ⟨.ok second, updates⟩)
  | panics (panic : String) (uncut : ¬ call.CanCut first) : Outcome first (.error panic)
  | panicsAgain (panic : String) {second : UpstreamResponse}
      (answered : call.secondResponse first = some second) (cuts : call.CanCut first)
      (uncut : ¬ call.CanCut second) : Outcome first (.error panic)

variable {call} {first : UpstreamResponse}

section

variable (received : call.Received first)
include received

theorem exists_parseParams :
    ∃ param, call.request.parseParams call.flow.decoders.gojq call.flow.decoders.rpc =
      .ok param := by
  rw [Received, executeUnaryRequest] at received
  cases parsed : call.request.parseParams call.flow.decoders.gojq call.flow.decoders.rpc with
  | error panic =>
    rw [parsed] at received
    cases received
  | ok param => exact ⟨param, rfl⟩

theorem executeUnaryRequest_of_received (answer : Answer) :
    executeUnaryRequest call.flow.decoders call.request answer = .ok answer := by
  obtain ⟨param, parsed⟩ := exists_parseParams received
  rw [executeUnaryRequest, parsed]
  rfl

theorem outcome_handleResponse {handler : IntegrityHandler}
    (checked : call.integrityHandler = some handler) :
    call.Outcome first (call.handleResponse handler first) := by
  obtain ⟨param, parsed⟩ := exists_parseParams received
  cases views : call.views with
  | none =>
    rw [handleResponse, views]
    refine .kept [] ?_ ?_
    · simp [secondResponse, checked, views]
    · intro _ _ known
      simp [views] at known
  | some view =>
    obtain ⟨view, later⟩ := view
    have cuts_iff : ∀ response : UpstreamResponse, ∀ looked : ChainView,
        (∃ handled, call.handle handler looked response = .ok handled) ↔
          call.CanCut response := by
      intro response looked
      rw [handle, IntegrityHandler.exists_handleResponse_iff parsed]
      simp [CanCut, checked, views]
    rw [handleResponse, views]
    dsimp only
    cases handles : call.handle handler view first with
    | error panic =>
      apply Outcome.panics
      rw [← cuts_iff first view]
      rintro ⟨handled, handles'⟩
      rw [handles] at handles'
      cases handles'
    | ok handled =>
      have cuts : call.CanCut first := (cuts_iff first view).mp ⟨handled, handles⟩
      have isSecond : call.secondResponse first =
          if !handled.shouldSendRequest || handled.sortedUpstreams.isEmpty then none
          else (call.second handled.sortedUpstreams).toOption := by
        simp only [secondResponse, checked, views, handles, Except.toOption,
          Option.bind_eq_bind, Option.bind_some]
        cases handled.shouldSendRequest <;> cases handled.sortedUpstreams.isEmpty <;> rfl
      simp only [bind, Except.bind, executeUnaryRequest_of_received received]
      split_ifs with stays
      · exact .kept _ (by rw [isSecond, if_pos stays]) cuts
      · rw [if_neg stays] at isSecond
        cases answered : call.second handled.sortedUpstreams with
        | error err => exact .kept _ (by rw [isSecond, answered]; rfl) cuts
        | ok second =>
          rw [answered] at isSecond
          dsimp only
          cases again : call.handle handler later second with
          | error panic =>
            refine .panicsAgain panic isSecond cuts ?_
            rw [← cuts_iff second later]
            rintro ⟨handled', handles'⟩
            rw [again] at handles'
            cases handles'
          | ok handled' =>
            exact .replaced _ isSecond cuts ((cuts_iff second later).mp ⟨handled', again⟩)

theorem outcome_processRequest (success : first.hasError = false) :
    call.Outcome first (call.processRequest (.ok first)) := by
  rw [processRequest, executeUnaryRequest_of_received received]
  simp only [bind, Except.bind]
  cases checked : call.integrityHandler with
  | none =>
    refine .kept [] ?_ ?_
    · simp [secondResponse, checked]
    · intro handler checked'
      rw [checked] at checked'
      cases checked'
  | some handler =>
    simp only [success, Bool.false_eq_true, if_false]
    exact outcome_handleResponse received checked

end

end IntegrityCall

/-- The result of a response: one JSON text, or nothing. -/
def IsResult (result : List UInt8) : Prop := result = [] ∨ IsDocument result

theorem IsResult.isDocument_iff {result : List UInt8} (isResult : IsResult result) :
    IsDocument result ↔ result ≠ [] := by
  constructor
  · exact IsDocument.ne_nil
  · exact isResult.resolve_left

/-- A response without an error carries a JSON text. -/
def Answer.WellFormed (answer : Answer) : Prop :=
  ∀ response, answer = .ok response → response.hasError = false →
    IsDocument response.responseResult

/-- The client is handed something, and what it is handed is well formed. -/
def IntegrityCall.HandsOut (call : IntegrityCall) (first : UpstreamResponse) : Prop :=
  ∃ processed, call.processRequest (.ok first) = .ok processed ∧ processed.answer.WellFormed

/-- Every result that is looked at is long enough to be cut, and the one handed on is
not empty. -/
structure IntegrityCall.ResultsFit (call : IntegrityCall) (first : UpstreamResponse) : Prop where
  cuts : call.CanCut first
  alone : call.secondResponse first = none → first.responseResult ≠ []
  cutsSecond : ∀ second, call.secondResponse first = some second → call.CanCut second
  second : ∀ second, call.secondResponse first = some second → second.hasError = false →
    second.responseResult ≠ []

section

variable {call : IntegrityCall} {first : UpstreamResponse}

theorem wellFormed_ok_iff {response : UpstreamResponse} (success : response.hasError = false)
    (isResult : IsResult response.responseResult) :
    Answer.WellFormed (.ok response) ↔ response.responseResult ≠ [] := by
  rw [← isResult.isDocument_iff]
  constructor
  · intro wellFormed
    exact wellFormed response rfl success
  · rintro isDocument _ ⟨⟩ _
    exact isDocument

theorem exists_second_of_secondResponse {second : UpstreamResponse}
    (answered : call.secondResponse first = some second) :
    ∃ upstreamIds, call.second upstreamIds = .ok second := by
  simp only [IntegrityCall.secondResponse, Option.bind_eq_bind, Option.bind_eq_some_iff] at answered
  obtain ⟨_, _, _, _, handled, _, _, _, answer⟩ := answered
  refine ⟨handled.sortedUpstreams, ?_⟩
  cases isAnswer : call.second handled.sortedUpstreams with
  | error err =>
    rw [isAnswer] at answer
    cases answer
  | ok response =>
    rw [isAnswer] at answer
    cases answer
    rfl

theorem handsOut_iff (received : call.Received first) (success : first.hasError = false)
    (isResult : IsResult first.responseResult)
    (areResults : ∀ upstreamIds second, call.second upstreamIds = .ok second →
      second.hasError = false → IsResult second.responseResult) :
    call.HandsOut first ↔ call.ResultsFit first := by
  have outcome := IntegrityCall.outcome_processRequest received success
  rw [IntegrityCall.HandsOut]
  generalize call.processRequest (.ok first) = processed at outcome
  cases outcome with
  | kept updates alone cuts =>
    simp only [Except.ok.injEq, exists_eq_left', wellFormed_ok_iff success isResult]
    constructor
    · intro nonempty
      exact ⟨cuts, fun _ => nonempty, by simp [alone], by simp [alone]⟩
    · exact fun fit => fit.alone alone
  | @replaced updates second answered cuts cuts' =>
    simp only [Except.ok.injEq, exists_eq_left']
    obtain ⟨upstreamIds, isAnswer⟩ := exists_second_of_secondResponse answered
    constructor
    · intro wellFormed
      refine ⟨cuts, by simp [answered], ?_, ?_⟩
      · rintro _ answered'
        cases answered.symm.trans answered'
        exact cuts'
      · intro _ answered' success'
        cases answered.symm.trans answered'
        exact (wellFormed second rfl success').ne_nil
    · rintro fit _ ⟨⟩ success'
      have isResult' := areResults upstreamIds second isAnswer success'
      exact isResult'.isDocument_iff.mpr (fit.second second answered success')
  | panics panic uncut =>
    simp only [reduceCtorEq, false_and, exists_false, false_iff]
    exact fun fit => uncut fit.cuts
  | panicsAgain panic answered _ uncut =>
    simp only [reduceCtorEq, false_and, exists_false, false_iff]
    exact fun fit => uncut (fit.cutsSecond _ answered)

theorem isLetter_hexByte : ∀ digit < 16, isLetter (hexByte digit) := by
  decide

theorem isLetter_of_mem_upstreamIndexHex {index : ℕ} :
    ∀ b ∈ upstreamIndexHex index, isLetter b := by
  intro b member
  rcases List.mem_append.mp member with padding | printed
  · rw [List.eq_of_mem_replicate padding]
    rfl
  · simp only [List.mem_map, List.mem_reverse] at printed
    obtain ⟨digit, isDigit, rfl⟩ := printed
    exact isLetter_hexByte digit (Nat.digits_lt_base (by decide) isDigit)

theorem appendUpstreamIndex_wellFormed_iff {upstreamIndex : String → Option ℕ}
    (success : first.hasError = false) (isResult : IsResult first.responseResult) :
    (∃ answer, appendUpstreamIndex upstreamIndex first = .ok answer ∧ answer.WellFormed) ↔
      (upstreamIndex first.upstreamId).isSome ∧ first.responseResult.getLast? = some quote := by
  rw [appendUpstreamIndex]
  rcases isResult with empty | isDocument
  · simp [empty]
  · rw [if_neg isDocument.ne_nil]
    cases upstreamIndex first.upstreamId with
    | none => simp
    | some index =>
      simp only [Except.ok.injEq, exists_eq_left', Option.isSome_some, true_and]
      constructor
      · intro wellFormed
        exact getLast_of_isDocument_insertBeforeLast isDocument
          isLetter_of_mem_upstreamIndexHex (wellFormed _ rfl success)
      · rintro closes _ ⟨⟩ _
        exact isDocument_insertBeforeLast isDocument isLetter_of_mem_upstreamIndexHex closes

end

/-- The client is handed a well-formed result, with no panic on the way, exactly when
the integrity processor finds two bytes to cut off and the sticky processor a closing
quote, and knows the upstream. -/
theorem results_wellFormed_iff (call : IntegrityCall) (upstreamIndex : String → Option ℕ)
    (specMethod : Method) (creates : specMethod.isStickyCreate = true)
    (sendsNot : specMethod.isStickySend = false) (first : UpstreamResponse)
    (received : call.Received first) (success : first.hasError = false)
    (isResult : IsResult first.responseResult)
    (areResults : ∀ upstreamIds second, call.second upstreamIds = .ok second →
      second.hasError = false → IsResult second.responseResult) :
    (call.HandsOut first ↔ call.ResultsFit first) ∧
      ((∃ answer, processStickyRequest call.flow.decoders upstreamIndex call.request specMethod
          (.ok first) = .ok answer ∧ answer.WellFormed) ↔
        (upstreamIndex first.upstreamId).isSome ∧
          first.responseResult.getLast? = some quote) := by
  constructor
  · exact handsOut_iff received success isResult areResults
  · rw [← appendUpstreamIndex_wellFormed_iff success isResult, processStickyRequest,
      IntegrityCall.executeUnaryRequest_of_received received]
    simp [sendsNot, creates, success, bind, Except.bind]

namespace Regions

def view : ChainView := ⟨.stored _, supervisor⟩

/-- The chain is known to be at block 100, and a second request is answered with
`again`. -/
def integrityCall (again : Answer) : IntegrityCall where
  flow := { flow with
    decoders := { flow.decoders with
      decodeUint64 := fun text =>
        if text = ResponseError.bytes "0x50" then some 80 else flow.decoders.decodeUint64 text } }
  request := request
  views := some (view, view)
  second := fun _ => again

def response (result : String) : UpstreamResponse := ⟨"eu", false, ResponseError.bytes result⟩

def createFilter : Method where
  name := "eth_newFilter"
  sticky := some { createSticky := true, sendSticky := false }

def upstreamIndex (upstreamId : String) : Option ℕ := if upstreamId = "eu" then some 18 else none

theorem isDocument_quantity : IsDocument (ResponseError.bytes "\"0x64\"") := by
  have isBody : IsStringBody (ResponseError.bytes "0x64") :=
    isStringBody_of_letters (List.all_eq_true.mp rfl)
  exact isDocument_string isSpaces_nil isBody

theorem isDocument_digit : IsDocument (ResponseError.bytes "5") := by
  have isInteger : IsInteger [53] := .digits (by decide) (by decide) (by simp)
  have isNumber : IsNumber ([53] ++ [] ++ []) := .positive isInteger .absent .absent
  exact ⟨[], [53], [], rfl, isSpaces_nil, .scalar (.number isNumber), isSpaces_nil⟩

theorem isDocument_null : IsDocument (ResponseError.bytes "null") :=
  ⟨[], ResponseError.bytes "null", [], rfl, isSpaces_nil, .scalar .nullText, isSpaces_nil⟩

end Regions

theorem results_wellFormed_of_quantity :
    IsDocument (Regions.response "\"0x64\"").responseResult ∧
      (Regions.integrityCall (.error .noAvailableUpstreamsError)).HandsOut
        (Regions.response "\"0x64\"") ∧
      ∃ answer, processStickyRequest Regions.flow.decoders Regions.upstreamIndex Regions.request
        Regions.createFilter (.ok (Regions.response "\"0x64\"")) = .ok answer ∧
          answer.WellFormed := by
  have isDocument := isDocument_quantity
  have both := results_wellFormed_iff (integrityCall (.error .noAvailableUpstreamsError))
    upstreamIndex createFilter rfl rfl (response "\"0x64\"") rfl rfl
    (.inr isDocument) (by simp [integrityCall])
  have alone : (integrityCall (.error .noAvailableUpstreamsError)).secondResponse
      (response "\"0x64\"") = none := rfl
  refine ⟨isDocument, both.1.mpr ?_, both.2.mpr ⟨rfl, by decide⟩⟩
  exact ⟨fun _ _ _ _ _ => by decide, fun _ => isDocument.ne_nil, by simp [alone],
    by simp [alone]⟩

/-- A number of one digit makes the integrity processor panic, and a filter that is
called `null` leaves the sticky processor as something that is no JSON text. -/
theorem unquoted_results_break :
    IsDocument (Regions.response "5").responseResult ∧
      IsDocument (Regions.response "null").responseResult ∧
      (Regions.integrityCall (.error .noAvailableUpstreamsError)).processRequest
        (.ok (Regions.response "5")) = .error "slice bounds out of range" ∧
      ∃ response, processStickyRequest Regions.flow.decoders Regions.upstreamIndex Regions.request
          Regions.createFilter (.ok (Regions.response "null")) = .ok (.ok response) ∧
        response.responseResult = ResponseError.bytes "nul00012\"" ∧
        ¬ IsDocument response.responseResult := by
  refine ⟨isDocument_digit, isDocument_null, rfl, _, rfl, by decide, ?_⟩
  intro isDocument
  have closes := getLast_of_isDocument_insertBeforeLast isDocument_null
    isLetter_of_mem_upstreamIndexHex isDocument
  exact absurd closes (by decide)

/-- The block number a response yields, if it is a success that yields one. -/
def IntegrityHandler.blockNumber (decoders : ResponseDecoders) (response : UpstreamResponse) :
    IntegrityHandler → Option UInt64
  | .noop => none
  | .ethBlockNumber =>
    if response.hasError then none
    else (withoutQuotes response.responseResult).toOption.bind decoders.decodeUint64
  | .ethGetBlockByNumber =>
    if response.hasError || response.responseResult == "null".toUTF8.data.toList then none
    else
      match decoders.getNumber response.responseResult with
      | .missing | .otherType => none
      | .text text => decoders.decodeUint64 text

/-- A response is at least as far as `number`. -/
def IntegrityCall.ReachesBlock (call : IntegrityCall) (handler : IntegrityHandler)
    (number : UInt64) (response : UpstreamResponse) : Prop :=
  ∃ reached, handler.blockNumber call.flow.decoders response = some reached ∧ number ≤ reached

section

variable {call : IntegrityCall} {handler : IntegrityHandler} {number : UInt64}
  {response : UpstreamResponse}

section

variable {decoders : ResponseDecoders}
  (yields : handler.blockNumber decoders response = some number)
include yields

theorem IntegrityHandler.success_of_blockNumber : response.hasError = false := by
  cases handler with
  | noop => cases yields
  | ethBlockNumber | ethGetBlockByNumber =>
    by_contra failed
    simp [blockNumber, failed] at yields

theorem IntegrityHandler.canCut_of_blockNumber : handler.CanCut response := by
  rintro rfl success
  by_contra short
  simp [blockNumber, success, withoutQuotes, Nat.not_le.mp short, Except.toOption] at yields

end

theorem canCut_of_blockNumber (checked : call.integrityHandler = some handler)
    (yields : handler.blockNumber call.flow.decoders response = some number) :
    call.CanCut response := by
  intro handler' checked' _
  cases checked.symm.trans checked'
  exact IntegrityHandler.canCut_of_blockNumber yields

end

/-- The answer is as far as the first response exactly when the second response, if
there is one, is. -/
theorem answer_reaches_first_iff (call : IntegrityCall) (handler : IntegrityHandler)
    (checked : call.integrityHandler = some handler) (first : UpstreamResponse)
    (received : call.Received first) (number : UInt64)
    (yields : handler.blockNumber call.flow.decoders first = some number) :
    (∃ processed response, call.processRequest (.ok first) = .ok processed ∧
        processed.answer = .ok response ∧ call.ReachesBlock handler number response) ↔
      ∀ second, call.secondResponse first = some second →
        call.ReachesBlock handler number second := by
  have success := IntegrityHandler.success_of_blockNumber yields
  have outcome := IntegrityCall.outcome_processRequest received success
  generalize call.processRequest (.ok first) = processed at outcome
  cases outcome with
  | kept updates alone _ =>
    have reaches : call.ReachesBlock handler number first :=
      ⟨number, yields, UInt64.le_refl number⟩
    simp [alone, reaches]
  | replaced updates answered _ _ => simp [answered]
  | panics panic uncut => exact absurd (canCut_of_blockNumber checked yields) uncut
  | panicsAgain panic answered _ uncut =>
    simp only [reduceCtorEq, false_and, exists_false, false_iff, answered, Option.some.injEq,
      forall_eq']
    rintro ⟨reached, yields', _⟩
    exact uncut (canCut_of_blockNumber checked yields')

/-- The first response is ten blocks behind, and the second one is not. -/
theorem answer_reaches_first_of_fresh_second :
    (Regions.integrityCall (.ok (Regions.response "\"0x64\""))).secondResponse
        (Regions.response "\"0x5a\"") = some (Regions.response "\"0x64\"") ∧
      ∃ processed response,
        (Regions.integrityCall (.ok (Regions.response "\"0x64\""))).processRequest
            (.ok (Regions.response "\"0x5a\"")) = .ok processed ∧
          processed.answer = .ok response ∧
          (Regions.integrityCall (.ok (Regions.response "\"0x64\""))).ReachesBlock
            .ethBlockNumber 90 response := by
  have answered : (integrityCall (.ok (response "\"0x64\""))).secondResponse
      (response "\"0x5a\"") = some (response "\"0x64\"") := rfl
  refine ⟨answered, ?_⟩
  apply (answer_reaches_first_iff (integrityCall (.ok (response "\"0x64\"")))
    .ethBlockNumber rfl (response "\"0x5a\"") rfl 90 (by decide)).mpr
  intro second answered'
  cases answered.symm.trans answered'
  exact ⟨100, by decide, by decide⟩

/-- The first response yields block 90, and the client is handed the second one,
which does not reach that block. -/
def Regions.FallsBackTo (second : UpstreamResponse) : Prop :=
  IntegrityHandler.ethBlockNumber.blockNumber
      (integrityCall (.ok second)).flow.decoders
      (response "\"0x5a\"") = some 90 ∧
    ∃ processed, (integrityCall (.ok second)).processRequest
        (.ok (response "\"0x5a\"")) = .ok processed ∧
      processed.answer = .ok second ∧
      ¬ (integrityCall (.ok second)).ReachesBlock .ethBlockNumber 90 second

/-- The second response is an error, a `null`, or a lower number. -/
theorem second_answer_replaces_first :
    Regions.FallsBackTo ⟨"us", true, []⟩ ∧
      Regions.FallsBackTo ⟨"us", false, ResponseError.bytes "null"⟩ ∧
      Regions.FallsBackTo ⟨"us", false, ResponseError.bytes "\"0x50\""⟩ := by
  refine ⟨⟨by decide, _, rfl, rfl, ?_⟩, ⟨by decide, _, rfl, rfl, ?_⟩, by decide, _, rfl, rfl, ?_⟩
  · rintro ⟨reached, ⟨⟩, _⟩
  · rintro ⟨reached, ⟨⟩, _⟩
  · rintro ⟨reached, ⟨⟩, reaches⟩
    exact absurd reaches (by decide)

end Nodecore.Flow
