/-
# The execution flow of a request

For each request the flow builds one strategy and one processor.  The processor
asks the strategy for upstreams and sends the request to what it gets.  When and how
often it asks is up to the retry and hedge policies, the dispatch mode and the
upstreams; a run may ask at any time and any number of times.

The integrity processor does more.  If the first good response lags behind the chain,
it sends the request again, with a strategy of its own that knows nothing about the
selectors of the request.  What is sent therefore meets the selectors as long as no
such second request is made or the selectors demand nothing.
-/

import Nodecore.Flow.Integrity
import Nodecore.Flow.Strategy

namespace Nodecore.Flow

open Lib Protocol Specs Upstreams

/-- What the flow reads of an upstream beside its state. -/
structure Upstream where
  isDrpc : Bool
  connectors : List ApiConnectorType
  groupLabels : GoSet String

inductive BalancingStrategy
  | ratingBalancingStrategy | baseBalancingStrategy
  deriving DecidableEq, Repr

structure LabelBalancingConfig where
  order : List String
  passOnError : Bool
  includeDefault : Option Bool

structure DispatchOptions where
  broadcast : Bool
  maximumValue : Bool
  notNull : Bool

/-- The flow of a chain for one client call: the settings of the chain, what the
registry and the supervisor answer, and whether the client asked for a quorum. -/
structure ExecutionFlow where
  chain : String
  getSortedUpstreams : String → List String
  getUpstream : String → Option Upstream
  labelBalancing : Option LabelBalancingConfig := none
  balancingStrategy : BalancingStrategy := .ratingBalancingStrategy
  dispatchOptions : DispatchOptions := ⟨false, false, false⟩
  integrityEnabled : Bool := false
  supportFinalizedBlockTag : Option Bool := none
  supportSafeBlockTag : Option Bool := none
  quorumRequested : Bool := false
  decoders : ResponseDecoders

/-- The groups of the ordered labels, each in the given order, and a last group of
those that carry none of the labels. -/
def partitionLabelGroups (sortedIds order : List String) (includeDefault : Bool)
    (labelsOf : String → GoSet String) : List (List String) :=
  let groups := order.map fun label => sortedIds.filter fun id => (labelsOf id).contains label
  let defaultGroup := sortedIds.filter fun id =>
    !order.any fun label => (labelsOf id).contains label
  if includeDefault && !defaultGroup.isEmpty then groups ++ [defaultGroup] else groups

def maxBytes : ℕ := 5

/-- The upstream index at the end of a sticky payload.  A cut inside a character
leaves no text; it is read as the replacement character. -/
def stickyIndex : Option MethodParam → String
  | some (.string value) =>
    let bytes := value.toUTF8
    if maxBytes < bytes.size then
      (String.fromUTF8? (bytes.extract (bytes.size - maxBytes) bytes.size)).getD "�"
    else ""
  | _ => ""

def selectorOptions (request : RequestHolder) : StrategyOptions where
  additionalMatchers := fun sources => (sources.buildSelectorRouting request.selectors).1
  order := fun sources => (sources.buildSelectorRouting request.selectors).2

def StrategyOptions.withUpstreamIndex (options : StrategyOptions) (index : String) :
    StrategyOptions :=
  { options with
    additionalMatchers := fun sources => options.additionalMatchers sources ++
      [.upstreamIndex index] }

namespace ExecutionFlow

variable (flow : ExecutionFlow) (request : RequestHolder)

def hasHttpConnector (upstream : Upstream) : Bool :=
  match request.holderType with
  | .upstreamRestRequest => upstream.connectors.contains .restConnector
  | .upstreamJsonRpcRequest => upstream.connectors.contains .jsonRpcConnector

def filterQuorumCapableUpstreams (upstreamIds : List String) : List String :=
  upstreamIds.filter fun id =>
    match flow.getUpstream id with
    | none => false
    | some upstream => upstream.isDrpc && hasHttpConnector request upstream

def newLabelGroupStrategy (config : LabelBalancingConfig) (options : StrategyOptions) :
    UpstreamStrategy :=
  let groups := partitionLabelGroups (flow.getSortedUpstreams request.method) config.order
    (config.includeDefault.getD true) fun id => (flow.getUpstream id).elim ∅ (·.groupLabels)
  .labelGroup groups config.passOnError options

/-- The strategy for a request that is neither a subscription nor refused. -/
def balancedStrategy (options : StrategyOptions) : UpstreamStrategy :=
  if flow.quorumRequested then
    let drpcIds := flow.filterQuorumCapableUpstreams request
      (flow.getSortedUpstreams request.method)
    if drpcIds.isEmpty then
      .failing (.quorumNotSupportedError
        "no DRPC upstream with an HTTP connector available for this chain")
    else .specificOrder drpcIds options
  else
    match flow.labelBalancing with
    | some config => flow.newLabelGroupStrategy request config options
    | none =>
      match flow.balancingStrategy with
      | .baseBalancingStrategy => .generic options
      | .ratingBalancingStrategy => .rating (flow.getSortedUpstreams request.method) options

/-- The strategy of a request; the error is a panic of the parameter parser. -/
def createStrategy : Except String UpstreamStrategy :=
  let options := selectorOptions request
  let stickySend := request.specMethod.any (·.isStickySend)
  let dispatchPolicy := request.specMethod.elim .dispatchDefault (·.dispatch)
  if request.isSubscribe then .ok (.generic options)
  else if flow.quorumRequested && stickySend then
    .ok (.failing (.quorumNotSupportedError "sticky-send methods"))
  else if flow.quorumRequested && dispatchPolicy != .dispatchDefault then
    .ok (.failing (.quorumNotSupportedError "dispatch methods"))
  else if stickySend then
    (request.parseParams flow.decoders.gojq flow.decoders.rpc).map fun param =>
      flow.balancedStrategy request (options.withUpstreamIndex (stickyIndex param))
  else .ok (flow.balancedStrategy request options)

end ExecutionFlow

inductive RequestProcessor
  | subscription
  | localProcessor
  | sticky
  | notNull
  | fanout (dispatch : DispatchPolicy)
  | unary
  | cache (delegate : RequestProcessor)
  | integrity (requestProcessor : RequestProcessor)
  deriving DecidableEq

namespace ExecutionFlow

variable (flow : ExecutionFlow) (request : RequestHolder)

def dispatchEnabled : DispatchPolicy → Bool
  | .dispatchBroadcast => flow.dispatchOptions.broadcast
  | .dispatchMaximumValue => flow.dispatchOptions.maximumValue
  | .dispatchNotNull => flow.dispatchOptions.notNull
  | .dispatchDefault => false

def createRequestProcessor (specMethod : Method) : RequestProcessor :=
  if request.isSubscribe then .subscription
  else if specMethod.isLocal then .localProcessor
  else if specMethod.isStickyCreate || specMethod.isStickySend then .sticky
  else if specMethod.dispatch ≠ .dispatchDefault then
    if flow.dispatchEnabled specMethod.dispatch then
      if specMethod.dispatch = .dispatchNotNull then .cache .notNull
      else .fanout specMethod.dispatch
    else .cache .unary
  else if flow.integrityEnabled && specMethod.enforceIntegrity then .integrity .unary
  else .cache .unary

def unsupportedBlockTag (number : Int64) : Option ResponseError :=
  if number = flow.decoders.rpc.finalizedBlockNumber then
    if flow.supportFinalizedBlockTag = some false then
      some (.unsupportedBlockTagError flow.chain "finalized")
    else none
  else if number = flow.decoders.rpc.safeBlockNumber then
    if flow.supportSafeBlockTag = some false then
      some (.unsupportedBlockTagError flow.chain "safe")
    else none
  else none

def unsupportedBlockTagError : Option MethodParam → Option ResponseError
  | some (.blockNumber number) => flow.unsupportedBlockTag number
  | some (.blockRange fromBlock toBlock) =>
    (fromBlock.bind flow.unsupportedBlockTag).or (toBlock.bind flow.unsupportedBlockTag)
  | _ => none

/-- The processor a request is handed to, or the error it is answered with; the
outer error is a panic of the parameter parser. -/
def processRequest : Except String (Except ResponseError RequestProcessor) :=
  match request.specMethod with
  | none => .ok (.error (.notSupportedMethodError request.method))
  | some specMethod =>
    (request.parseParams flow.decoders.gojq flow.decoders.rpc).map fun param =>
      match flow.unsupportedBlockTagError param with
      | some err => .error err
      | none => .ok (flow.createRequestProcessor request specMethod)

/-- The handler of an integrity processor that does not leave the request to the
processor inside it. -/
def integrityHandler : RequestProcessor → Option IntegrityHandler
  | .integrity _ =>
    let handler := IntegrityHandler.newIntegrityHandler request.method
    if !flow.quorumRequested && handler.canBeProcessed request then some handler else none
  | _ => none

end ExecutionFlow

/-- Every processor but the local one asks the strategy it is given. -/
def RequestProcessor.asks : RequestProcessor → Bool
  | .localProcessor => false
  | _ => true

/-- The requests to the strategy of the flow, and those to the strategy an integrity
processor builds. -/
inductive Round
  | first | second
  deriving DecidableEq, Repr

/-- A request on its way to the upstream that a call returned. -/
structure Sent where
  round : Round
  call : ℕ
  selection : Selection

/-- A request being processed.  The second strategy is given by its upstreams. -/
structure Execution where
  first : StrategyRun := {}
  second : Option (List String × StrategyRun) := none
  sent : List Sent := []

/-- A call moves on, the request is sent to what a call returned, or the response
the processor goes on with arrives. -/
inductive FlowEvent
  | call (round : Round) (event : StrategyEvent)
  | send (round : Round) (call : ℕ)
  | receive (order : RangeOrder (Entry String UpstreamState)) (supervisor : ChainSupervisor)
      (response : UpstreamResponse)

namespace Execution

variable (execution : Execution)

def returned (call : ℕ) : Round → Option Selection
  | .first => execution.first.returned call
  | .second => execution.second.bind (·.2.returned call)

/-- A request goes out once for each call. -/
def isSent (round : Round) (call : ℕ) : Bool :=
  execution.sent.any fun sent => sent.round == round && sent.call == call

end Execution

namespace ExecutionFlow

variable (flow : ExecutionFlow) (request : RequestHolder)

/-- The upstreams of the second request that an event sets off, if it does. -/
def secondUpstreams (processor : RequestProcessor) (execution : Execution) :
    FlowEvent → Option (List String)
  | .receive order supervisor response => do
      let handler ← flow.integrityHandler request processor
      guard (execution.second.isNone && !response.hasError)
      guard (execution.sent.any fun sent => sent.selection.upstreamId == response.upstreamId)
      let handled ←
        (handler.handleResponse flow.decoders order supervisor request response).toOption
      guard (handled.shouldSendRequest && !handled.sortedUpstreams.isEmpty)
      return handled.sortedUpstreams
  | _ => none

def step (strategy : UpstreamStrategy) (processor : RequestProcessor) (execution : Execution)
    (event : FlowEvent) : Execution :=
  match event with
  | .call .first event =>
    if processor.asks then { execution with first := strategy.step request execution.first event }
    else execution
  | .call .second event =>
    { execution with
      second := execution.second.map fun second =>
        (second.1, (newSpecificOrderUpstreamStrategy second.1).step request second.2 event) }
  | .send round call =>
    match execution.returned call round with
    | none => execution
    | some selection =>
      if execution.isSent round call then execution
      else { execution with sent := execution.sent ++ [⟨round, call, selection⟩] }
  | .receive _ _ _ =>
    match flow.secondUpstreams request processor execution event with
    | none => execution
    | some upstreamIds => { execution with second := some (upstreamIds, {}) }

end ExecutionFlow

section

variable (request : RequestHolder)

/-- The upstream passed the matchers of the selectors, the status matcher and the
method matcher in the state read when it was picked. -/
def MeetsSelectors (selection : Selection) : Prop :=
  ∃ state, selection.sources.getUpstreamState selection.upstreamId = some state ∧
    ∀ matcher ∈ (selection.sources.buildSelectorRouting request.selectors).1 ++
        [.status, .method request.method],
      matcher.accepts selection.upstreamId state = true

def Unselective : Prop :=
  ∀ sources : RoutingSources, (sources.buildSelectorRouting request.selectors).1 = []

end

section

variable {flow : ExecutionFlow} {request : RequestHolder} {strategy : UpstreamStrategy}
  {processor : RequestProcessor}

theorem meetsSelectors_of_accepted
    (includes : ∀ sources : RoutingSources,
      (sources.buildSelectorRouting request.selectors).1 ⊆
        strategy.options.additionalMatchers sources) {selection : Selection}
    (accepted : strategy.Accepted request selection) : MeetsSelectors request selection := by
  obtain ⟨state, read, passed⟩ := accepted
  refine ⟨state, read, fun matcher member => passed matcher ?_⟩
  rw [UpstreamStrategy.matchers, List.append_assoc]
  rcases List.mem_append.mp member with ofSelector | ofRequest
  · exact List.mem_append_left _ (includes _ ofSelector)
  · exact List.mem_append_right _ (List.mem_append_left _ ofRequest)

theorem balancedStrategy_cases (flow : ExecutionFlow) (request : RequestHolder)
    (options : StrategyOptions) :
    (∃ err, flow.balancedStrategy request options = .failing err) ∨
      (flow.balancedStrategy request options).options = options := by
  unfold ExecutionFlow.balancedStrategy
  dsimp only
  split_ifs with quorum uncapable
  · exact .inl ⟨_, rfl⟩
  · exact .inr rfl
  · apply Or.inr
    cases flow.labelBalancing with
    | some config => rfl
    | none =>
      cases flow.balancingStrategy with
      | ratingBalancingStrategy => rfl
      | baseBalancingStrategy => rfl

section

variable (created : flow.createStrategy request = .ok strategy)
include created

theorem createStrategy_options :
    (∃ err, strategy = .failing err) ∨ strategy.options = selectorOptions request ∨
      ∃ index, strategy.options = (selectorOptions request).withUpstreamIndex index := by
  unfold ExecutionFlow.createStrategy at created
  dsimp only at created
  split_ifs at created with subscribes refusedSend refusedDispatch stickySend
  · cases created
    exact .inr (.inl rfl)
  · cases created
    exact .inl ⟨_, rfl⟩
  · cases created
    exact .inl ⟨_, rfl⟩
  · cases parsed : request.parseParams flow.decoders.gojq flow.decoders.rpc with
    | error panic =>
      rw [parsed] at created
      cases created
    | ok param =>
      rw [parsed] at created
      cases created
      apply Or.imp_right _ (balancedStrategy_cases flow request _)
      exact fun same => .inr ⟨_, same⟩
  · cases created
    exact Or.imp_right .inl (balancedStrategy_cases flow request _)

theorem createStrategy_cases :
    (∃ err, strategy = .failing err) ∨
      ∀ sources : RoutingSources, (sources.buildSelectorRouting request.selectors).1 ⊆
        strategy.options.additionalMatchers sources := by
  apply Or.imp_right _ (createStrategy_options created)
  rintro (same | ⟨index, same⟩) sources
  · rw [same]
    exact List.Subset.refl _
  · rw [same]
    exact List.subset_append_left _ _

theorem picks_of_createStrategy : strategy.Picks request (MeetsSelectors request) := by
  rcases createStrategy_cases created with ⟨err, rfl⟩ | includes
  · exact UpstreamStrategy.picks_failing err _
  · exact UpstreamStrategy.picks_accepted.imp fun _ => meetsSelectors_of_accepted includes

end

theorem picks_of_unselective (unselective : Unselective request) (upstreamIds : List String) :
    (newSpecificOrderUpstreamStrategy upstreamIds).Picks request (MeetsSelectors request) := by
  refine UpstreamStrategy.picks_accepted.imp ?_
  intro selection accepted
  apply meetsSelectors_of_accepted _ accepted
  intro sources
  rw [unselective sources]
  exact List.nil_subset _

/-- What is sent comes from a run of one of the two strategies.  A second strategy
is there only under a condition. -/
structure Kept (request : RequestHolder) (strategy : UpstreamStrategy)
    (good : Selection → Prop) (again : Prop) (execution : Execution) : Prop where
  first : Reached (strategy.step request) {} execution.first
  second : ∀ upstreamIds later, execution.second = some (upstreamIds, later) →
    again ∧ Reached ((newSpecificOrderUpstreamStrategy upstreamIds).step request) {} later
  sent : ∀ sent ∈ execution.sent, good sent.selection

section

variable {good : Selection → Prop} {again : Prop} {execution : Execution}

section

variable (kept : Kept request strategy good again execution) (ofFirst : strategy.Picks request good)
  (ofSecond : again → ∀ upstreamIds, (newSpecificOrderUpstreamStrategy upstreamIds).Picks request good)
include kept ofFirst ofSecond

theorem Kept.good_of_returned {round : Round} {call : ℕ} {selection : Selection}
    (returned : execution.returned call round = some selection) : good selection := by
  cases round with
  | first => exact ofFirst _ kept.first _ (StrategyRun.mem_selections_of_returned returned)
  | second =>
    obtain ⟨⟨upstreamIds, later⟩, isSecond, ofLater⟩ := Option.bind_eq_some_iff.mp returned
    obtain ⟨allowed, reached⟩ := kept.second upstreamIds later isSecond
    exact ofSecond allowed upstreamIds later reached _ (StrategyRun.mem_selections_of_returned ofLater)

theorem Kept.step (event : FlowEvent)
    (guarded : (flow.secondUpstreams request processor execution event).isSome = true → again) :
    Kept request strategy good again
      (flow.step request strategy processor execution event) := by
  cases event with
  | call round event =>
    cases round with
    | first =>
      rw [ExecutionFlow.step]
      split_ifs with asks
      · exact ⟨kept.first.step event, kept.second, kept.sent⟩
      · exact kept
    | second =>
      refine ⟨kept.first, ?_, kept.sent⟩
      intro upstreamIds later isSecond
      obtain ⟨⟨ids, before⟩, wasSecond, moved⟩ := Option.map_eq_some_iff.mp isSecond
      obtain ⟨allowed, reached⟩ := kept.second ids before wasSecond
      cases moved
      exact ⟨allowed, reached.step event⟩
  | send round call =>
    rw [ExecutionFlow.step]
    split
    · exact kept
    · rename_i selection returned
      split_ifs with isSent
      · exact kept
      · refine ⟨kept.first, kept.second, ?_⟩
        intro sent member
        rcases List.mem_append.mp member with old | new
        · exact kept.sent sent old
        · rw [List.mem_singleton.mp new]
          exact kept.good_of_returned ofFirst ofSecond returned
  | receive order supervisor response =>
    rw [ExecutionFlow.step]
    split
    · exact kept
    · rename_i upstreamIds starts
      rw [starts] at guarded
      refine ⟨kept.first, ?_, kept.sent⟩
      intro ids later isSecond
      cases isSecond
      exact ⟨guarded rfl, .start _ _⟩

end

theorem Kept.start : Kept request strategy good again {} where
  first := .start _ _
  second := by
    intro upstreamIds later isSecond
    cases isSecond
  sent := by
    intro sent member
    cases member

end

end

/-- Every upstream a request is sent to met its selectors, was available and served
the method when it was picked, in every run in which a second request is made only
if the selectors demand nothing. -/
theorem sent_meets_selectors (flow : ExecutionFlow) (request : RequestHolder)
    (strategy : UpstreamStrategy) (created : flow.createStrategy request = .ok strategy)
    (processor : RequestProcessor) (events : List FlowEvent)
    (guarded : EachStep (flow.step request strategy processor)
      (fun execution event =>
        (flow.secondUpstreams request processor execution event).isSome = true →
          Unselective request) {} events) :
    AfterEach (flow.step request strategy processor)
      (fun execution => ∀ sent ∈ execution.sent, MeetsSelectors request sent.selection)
      {} events := by
  have kept : AfterEach (flow.step request strategy processor)
      (Kept request strategy (MeetsSelectors request) (Unselective request)) {} events := by
    apply afterEach_of_eachStep _ Kept.start guarded
    intro execution event kept once
    exact kept.step (picks_of_createStrategy created) picks_of_unselective event once
  exact kept.imp fun _ => Kept.sent

namespace Regions

def blockNumberMethod : Method := { name := "eth_blockNumber", enforceIntegrity := true }

def upstreamState (region : String) (height : UInt64) : UpstreamState :=
  { defaultUpstreamState ⟨AList.singleton "eth_blockNumber" blockNumberMethod⟩ ∅ "01" none none
    with headData := { height := height }, labels := AList.singleton "region" region }

def supervisor : ChainSupervisor :=
  { ChainSupervisor.newGenericChainSupervisor with
    state := { ChainSupervisor.newGenericChainSupervisor.state with
      headData := ⟨{ height := 100 }, "us"⟩ }
    upstreamStates :=
      (AList.singleton "eu" (upstreamState "eu" 90)).insert "us" (upstreamState "us" 100) }

def moment : Moment where
  sources := ⟨fun _ => none, supervisor.upstreamStates.lookup⟩

def flow : ExecutionFlow where
  chain := "ethereum"
  getSortedUpstreams := fun _ => ["us", "eu"]
  getUpstream := fun _ => none
  integrityEnabled := true
  decoders :=
    { decodeUint64 := fun text =>
        if text = ResponseError.bytes "0x5a" then some 90
        else if text = ResponseError.bytes "0x64" then some 100
        else none
      getNumber := fun _ => .missing
      gojq := fun _ _ => []
      rpc := ⟨-4, -2, -1, -3, 0, fun _ => none, fun _ => none⟩ }

def request : RequestHolder where
  method := "eth_blockNumber"
  specMethod := some blockNumberMethod
  selectors := [.label "region" ["eu"]]

def strategy : UpstreamStrategy := .rating ["us", "eu"] (selectorOptions request)

/-- The strategy is asked, rejects one upstream, picks the other and returns it. -/
def firstRequest : List FlowEvent :=
  [.call .first (.selectUpstream moment), .call .first (.advance 0 moment),
    .call .first (.advance 0 moment), .call .first (.advance 0 moment), .send .first 0]

def answer (result : String) : FlowEvent :=
  .receive (.stored _) supervisor ⟨"eu", false, ResponseError.bytes result⟩

/-- The answer is below the head of the chain, and the request goes out again. -/
def secondRequest : List FlowEvent :=
  [answer "\"0x5a\"",
    .call .second (.selectUpstream moment), .call .second (.advance 0 moment),
    .call .second (.advance 0 moment), .send .second 0]

end Regions

/-- With an answer at the head of the chain, the request stays in the region the
client asked for. -/
theorem sent_meets_selectors_of_fresh_answer :
    Regions.flow.createStrategy Regions.request = .ok Regions.strategy ∧
      (run (Regions.flow.step Regions.request Regions.strategy (.integrity .unary)) {}
        (Regions.firstRequest ++ [Regions.answer "\"0x64\""])).sent.map
          (·.selection.upstreamId) = ["eu"] ∧
      AfterEach (Regions.flow.step Regions.request Regions.strategy (.integrity .unary))
        (fun execution => ∀ sent ∈ execution.sent,
          MeetsSelectors Regions.request sent.selection) {}
        (Regions.firstRequest ++ [Regions.answer "\"0x64\""]) := by
  refine ⟨rfl, by decide, sent_meets_selectors Regions.flow Regions.request Regions.strategy rfl
    (.integrity .unary) _ ?_⟩
  have quiet : EachStep (Regions.flow.step Regions.request Regions.strategy (.integrity .unary))
      (fun execution event => (Regions.flow.secondUpstreams Regions.request (.integrity .unary)
        execution event).isSome = false) {}
      (Regions.firstRequest ++ [Regions.answer "\"0x64\""]) := by
    decide
  apply quiet.imp
  intro execution event quiet starts
  rw [quiet] at starts
  cases starts

/-- The second request leaves the region the client asked for. -/
theorem second_request_ignores_selectors :
    Regions.flow.createStrategy Regions.request = .ok Regions.strategy ∧
      Regions.flow.processRequest Regions.request = .ok (.ok (.integrity .unary)) ∧
      ∃ sent ∈ (run (Regions.flow.step Regions.request Regions.strategy (.integrity .unary)) {}
          (Regions.firstRequest ++ Regions.secondRequest)).sent,
        ¬ MeetsSelectors Regions.request sent.selection := by
  refine ⟨rfl, rfl, ⟨.second, 0, "us", Regions.moment.sources⟩, ?_, ?_⟩
  · apply List.mem_of_getElem? (i := 1)
    rfl
  · rintro ⟨state, read, passed⟩
    cases read
    have region := passed (.label "region" ["eu"]) List.mem_cons_self
    exact absurd region (by decide)

end Nodecore.Flow
