/-
# The not-null dispatch

For some lookups a null may only mean that one upstream lags behind.  The not-null
processor collects the upstreams of the strategy and asks one after another until one
has something else than null; the first null is handed out only when the walk ends.

The flow wraps the processor in the cache processor, so a stored null ends the request
before any upstream is asked.  Whether there can be one is decided by the policies: one
that caches empty results keeps it, and any policy keeps a null that is written with
white space around it, since the two checks for null read it in different ways.
-/

import Nodecore.Caches.CacheProcessor
import Nodecore.Flow.Dispatch
import Nodecore.Lib.Bytes

namespace Nodecore.Flow

open Lib Protocol Specs Caches

def nullBytes : List UInt8 := bytes "null"

/-- A response as the processor reads it. -/
structure DispatchResponse where
  upstreamId : String
  hasStream : Bool := false
  hasError : Bool := false
  responseResult : List UInt8 := []
  deriving DecidableEq

def isNullResponse (response : DispatchResponse) : Bool :=
  trimSpace response.responseResult == nullBytes

/-- The cause of a total failure: an error of the flow, or any other by its text. -/
inductive Failure
  | responseError (err : ResponseError)
  | other (text : String)
  deriving DecidableEq

/-- What comes of turning to an upstream: the supervisor does not know it, it has no
connector for the method, there is no response, or there is one.  A request that cannot
be translated for the upstream is answered without being sent. -/
inductive Reply
  | unknown
  | failed (err : Failure)
  | empty
  | response (isSent : Bool) (response : DispatchResponse)

def Reply.isSent : Reply → Bool
  | .unknown | .failed _ => false
  | .empty => true
  | .response isSent _ => isSent

/-- The response of a reply the walk stops at: a stream, or a result other than null. -/
def Reply.nonNull? : Reply → Option DispatchResponse
  | .response _ answer =>
    if answer.hasStream then some answer
    else if answer.hasError then none
    else if isNullResponse answer then none
    else some answer
  | _ => none

/-- What a request comes to: the upstreams it was sent to, and the response. -/
structure Outcome where
  asked : List String
  response : Except Failure DispatchResponse

/-- The client gets a null as the result. -/
def Outcome.isNull (outcome : Outcome) : Bool :=
  match outcome.response with
  | .ok response => !response.hasStream && !response.hasError && isNullResponse response
  | .error _ => false

/-- What the walk has seen so far. -/
structure Walk where
  asked : List String := []
  nullResult : Option DispatchResponse := none
  fallback : Option DispatchResponse := none
  lastErr : Option Failure := none

namespace Walk

def finish (walk : Walk) : Outcome where
  asked := walk.asked
  response :=
    match walk.nullResult, walk.fallback, walk.lastErr with
    | some response, _, _ | none, some response, _ => .ok response
    | none, none, some err => .error err
    | none, none, none => .error (.responseError .noAvailableUpstreamsError)

def ask (walk : Walk) (upstreamID : String) (reply : Reply) : List String :=
  if reply.isSent then walk.asked ++ [upstreamID] else walk.asked

def see (walk : Walk) (upstreamID : String) (reply : Reply) : Walk :=
  let walk := { walk with asked := walk.ask upstreamID reply }
  match reply with
  | .unknown => { walk with lastErr := some (.responseError .noAvailableUpstreamsError) }
  | .failed err => { walk with lastErr := some err }
  | .empty => { walk with lastErr := some (.other "not-null upstream returned empty response") }
  | .response _ response =>
    if response.hasError then { walk with fallback := walk.fallback.or (some response) }
    else { walk with nullResult := walk.nullResult.or (some response) }

variable (cancelled : ℕ → Option String) (reply : String → Reply)

/-- The loop over the upstreams.  The context may be done before any of them. -/
def processUpstreams (round : ℕ) (walk : Walk) : List String → Outcome
  | [] => walk.finish
  | upstreamID :: upstreamIDs =>
    match cancelled round with
    | some text => ⟨walk.asked, .error (.other text)⟩
    | none =>
      match (reply upstreamID).nonNull? with
      | some response => ⟨walk.ask upstreamID (reply upstreamID), .ok response⟩
      | none =>
        processUpstreams (round + 1) (walk.see upstreamID (reply upstreamID)) upstreamIDs

end Walk

/-- What surrounds a request while it is processed: the upstreams and limiters, the
round-robin indexes, when the context is done, and how upstreams reply. -/
structure Surroundings where
  standing : Standing
  nextIndex : ℕ → UInt64
  cancelled : ℕ → Option String
  reply : String → Reply

/-- `NotNullRequestProcessor.ProcessRequest`. -/
def processNotNull (strategy : UpstreamStrategy) (request : RequestHolder)
    (surroundings : Surroundings) (sorts : strategy.Sorts surroundings.standing) : Outcome :=
  match (strategy.collectDispatchUpstreamIDs request surroundings.standing surroundings.nextIndex
      sorts).1 with
  | .error err => ⟨[], .error (.responseError err)⟩
  | .ok upstreamIDs =>
    Walk.processUpstreams surroundings.cancelled surroundings.reply 0 {} upstreamIDs

def noUpstream : String := "NoUpstream"

/-- `CacheRequestProcessor.ProcessRequest`, from what the lookup has found. -/
def processCached (quorumRequested : Bool) (received : Option (List UInt8)) (delegate : Outcome) :
    Outcome :=
  if quorumRequested then delegate
  else
    match received with
    | some result => ⟨[], .ok { upstreamId := noUpstream, responseResult := result }⟩
    | none => delegate

/-- What a request that missed the cache leaves for the later ones. -/
def Outcome.storeEvent (outcome : Outcome) (env : Environment) (chain : Chain)
    (request : RequestHolder) (write : String → Except String Unit) : Option CacheEvent :=
  match outcome.response with
  | .ok response =>
    if !response.hasError && !response.hasStream then
      some (.store env chain request response.responseResult write)
    else none
  | .error _ => none

namespace Walk

variable {cancelled : ℕ → Option String} {reply : String → Reply}

theorem subset_ask (walk : Walk) (upstreamID : String) (reply : Reply) :
    walk.asked ⊆ walk.ask upstreamID reply := by
  unfold ask
  split_ifs
  · exact List.subset_append_left _ _
  · exact List.Subset.refl _

@[simp]
theorem asked_see (walk : Walk) (upstreamID : String) (reply : Reply) :
    (walk.see upstreamID reply).asked = walk.ask upstreamID reply := by
  unfold see
  split
  · rfl
  · rfl
  · rfl
  · split_ifs
    · rfl
    · rfl

theorem subset_asked_processUpstreams (round : ℕ) (walk : Walk) (upstreamIDs : List String) :
    walk.asked ⊆ (processUpstreams cancelled reply round walk upstreamIDs).asked := by
  induction upstreamIDs generalizing round walk with
  | nil => exact List.Subset.refl _
  | cons upstreamID upstreamIDs ih =>
    have stays := subset_ask walk upstreamID (reply upstreamID)
    rw [processUpstreams]
    split
    · exact List.Subset.refl _
    · split
      · exact stays
      · have later := ih (round + 1) (walk.see upstreamID (reply upstreamID))
        rw [asked_see] at later
        exact fun id asked => later (stays asked)

theorem isNull_of_nonNull? {reply : Reply} {response : DispatchResponse}
    (nonNull : reply.nonNull? = some response) (asked : List String) :
    Outcome.isNull ⟨asked, .ok response⟩ = false := by
  unfold Reply.nonNull? at nonNull
  split at nonNull
  · split_ifs at nonNull with isStream isError isNull
    · cases nonNull
      simp [Outcome.isNull, isStream]
    · cases nonNull
      simp [Outcome.isNull, isNull]
  · cases nonNull

/-- A walk that ends with a null has asked every upstream, and none had anything else. -/
theorem asked_of_isNull (round : ℕ) (walk : Walk) (upstreamIDs : List String)
    (isNull : (processUpstreams cancelled reply round walk upstreamIDs).isNull = true) :
    ∀ id ∈ upstreamIDs, (reply id).nonNull? = none ∧ ((reply id).isSent = true →
      id ∈ (processUpstreams cancelled reply round walk upstreamIDs).asked) := by
  induction upstreamIDs generalizing round walk with
  | nil => simp
  | cons upstreamID upstreamIDs ih =>
    rw [processUpstreams] at isNull ⊢
    split at isNull
    · cases isNull
    · split at isNull
      · rename_i response nonNull
        rw [isNull_of_nonNull? nonNull] at isNull
        cases isNull
      · rename_i isNullReply
        intro id member
        rcases List.mem_cons.mp member with rfl | later
        · refine ⟨isNullReply, fun isSent => ?_⟩
          apply subset_asked_processUpstreams
          rw [asked_see]
          simp [ask, isSent]
        · exact ih _ _ isNull id later

end Walk

/-- A null that was offered under a key is one the policies take for an empty result, and none of
those that match its request caches empty results. -/
def RefusesNull (cache : CacheProcessor) (key : String) : CacheEvent → Prop
  | .store env chain request response _ =>
    CachePolicy.getCacheKey chain request.requestHash = key → trimSpace response = nullBytes →
      response = nullBytes ∧ ∀ policy ∈ cache.policies,
        policy.1.isMatched env chain request = true → policy.1.cacheEmpty = false
  | .lose _ _ => True

theorem not_null_of_receive {cache : CacheProcessor} {history : List CacheEvent} {env : Environment}
    {chain : Chain} {request : RequestHolder} {first : Option ℕ} {result : List UInt8}
    (refuses : ∀ event ∈ history,
      RefusesNull cache (CachePolicy.getCacheKey chain request.requestHash) event)
    (received : cache.receive env chain request (run cache.step (fun _ _ => none) history) first =
      some result) : trimSpace result ≠ nullBytes := by
  intro isNull
  obtain ⟨id, held⟩ := CacheProcessor.exists_held_of_receive received
  rcases CacheProcessor.exists_kept_of_run held with ⟨event, member, kept⟩ | empty
  · obtain ⟨env, chain, request, write, rfl, isKey, policy, isPolicy, connector, stored⟩ := kept
    obtain ⟨plain, refuse⟩ := refuses _ member isKey isNull
    have matched := (CachePolicy.baseCacheableCheck_iff.mp
      (CachePolicy.baseCacheableCheck_of_store stored))
    obtain ⟨_, _, _, _, _, _, _, _, matched⟩ := matched
    refine CacheProcessor.not_kept_of_empty (refuse policy isPolicy matched) ?_ env connector chain
      request stored
    rw [plain]
    decide
  · cases empty

/-- A not-null request on a cache with some history: the lookup, then the walk. -/
def processNotNullRequest (strategy : UpstreamStrategy) (request : RequestHolder)
    (surroundings : Surroundings) (sorts : strategy.Sorts surroundings.standing)
    (quorumRequested : Bool) (cache : CacheProcessor) (history : List CacheEvent)
    (env : Environment) (chain : Chain) (first : Option ℕ) : Outcome :=
  processCached quorumRequested
    (cache.receive env chain request (run cache.step (fun _ _ => none) history) first)
    (processNotNull strategy request surroundings sorts)

/-- A client of a not-null method gets a null only if every matching upstream was asked in
this request and none had anything else, whatever the history of the cache, as long as:
the nulls offered to it under the key of the request had no white space around them and were
refused by the policies that match it, the strategy gets to everything that matches, no limiter
refuses the request, and the upstreams can be reached. -/
theorem null_only_if_all_asked (flow : ExecutionFlow) (request : RequestHolder)
    (strategy : UpstreamStrategy) (created : flow.createStrategy request = .ok strategy)
    (surroundings : Surroundings) (cache : CacheProcessor) (history : List CacheEvent)
    (env : Environment) (chain : Chain) (first : Option ℕ)
    (refuses : ∀ event ∈ history,
      RefusesNull cache (CachePolicy.getCacheKey chain request.requestHash) event)
    (unlimited : surroundings.standing.Unlimited)
    (named : surroundings.standing.sources.getUpstreamState "" = none)
    (covers : strategy.Covers request surroundings.standing)
    (isNull : (processNotNullRequest strategy request surroundings
      (sorts_of_createStrategy created _) flow.quorumRequested cache history env chain
      first).isNull = true) :
    ∀ id ∈ strategy.pool surroundings.standing,
      strategy.Accepted request ⟨id, surroundings.standing.sources⟩ →
      (surroundings.reply id).isSent = true →
        id ∈ (processNotNullRequest strategy request surroundings
          (sorts_of_createStrategy created _) flow.quorumRequested cache history env chain
          first).asked ∧ (surroundings.reply id).nonNull? = none := by
  intro id candidate accepted isSent
  have unnamed : strategy.serves request surroundings.standing "" = false := by
    rw [UpstreamStrategy.serves, named]
    rfl
  have collected := (UpstreamStrategy.collected_complete_iff surroundings.nextIndex
    (sorts_of_createStrategy created _) unlimited unnamed).mpr covers id candidate
    ((strategy.serves_iff request surroundings.standing id).mpr accepted)
  -- the lookup has missed, since it would not have found a null
  have missed : processNotNullRequest strategy request surroundings
      (sorts_of_createStrategy created _) flow.quorumRequested cache history env chain first =
      processNotNull strategy request surroundings (sorts_of_createStrategy created _) := by
    unfold processNotNullRequest processCached at isNull ⊢
    split_ifs at isNull ⊢ with quorum
    · rfl
    · split at isNull
      · rename_i result received
        have null : trimSpace result = nullBytes := by
          simpa [Outcome.isNull, isNullResponse] using isNull
        exact absurd null (not_null_of_receive refuses received)
      · rfl
  rw [missed] at isNull ⊢
  rw [UpstreamStrategy.collected] at collected
  rw [processNotNull] at isNull ⊢
  split at isNull
  · cases isNull
  · rename_i upstreamIDs isCollected
    rw [isCollected] at collected
    obtain ⟨isNullReply, isAsked⟩ := Walk.asked_of_isNull 0 {} upstreamIDs isNull id collected
    exact ⟨isAsked isSent, isNullReply⟩

namespace LateReceipt

def method : Method where
  name := "eth_getTransactionReceipt"
  cacheable := true
  dispatch := .dispatchNotNull

def request : RequestHolder where
  method := "eth_getTransactionReceipt"
  specMethod := some method

def flow : ExecutionFlow where
  chain := "polygon"
  getSortedUpstreams := fun _ => ["a", "b"]
  getUpstream := fun _ => some ⟨false, [.jsonRpcConnector], ∅⟩
  dispatchOptions := ⟨true, true, true⟩
  decoders :=
    { decodeUint64 := fun _ => none
      getNumber := fun _ => .missing
      gojq := fun _ _ => []
      rpc := CachePolicy.sampleRpc }

def strategy : UpstreamStrategy := .rating ["a", "b"] (selectorOptions request)

theorem created : flow.createStrategy request = .ok strategy := rfl

/-- Both upstreams are available.  They have the receipt, or one of them or none has. -/
def surroundings (first second : String) : Surroundings where
  standing :=
    { sources := ⟨fun _ => none, fun id =>
        if ["a", "b"].contains id then
          some (defaultUpstreamState ⟨AList.singleton "eth_getTransactionReceipt" method⟩ ∅ "01"
            none none)
        else none⟩ }
  nextIndex := fun _ => 0
  cancelled := fun _ => none
  reply := fun id =>
    .response true
      { upstreamId := id
        responseResult := bytes (if id = "a" then first else second) }

variable (first second : String)

theorem unlimited : (surroundings first second).standing.Unlimited := by
  constructor <;>
  · intro id state read limited
    simp only [surroundings] at read
    split_ifs at read
    cases read
    cases limited

def policy (methods : GoSet String) (cacheEmpty : Bool) : CachePolicy where
  id := "policy"
  methods := methods
  chains := some ∅
  blockchainTypes := some ∅
  cacheEmpty := cacheEmpty
  maxSizeBytes := 1024
  ttl := 60
  finalizationType := .none

/-- A policy for all methods, with a setting for empty results, and one for another method that
caches them. -/
def cache (cacheEmpty : Bool) : CacheProcessor :=
  ⟨[(policy ∅ cacheEmpty, "memory"), (policy (GoSet.ofList ["eth_call"]) true, "memory")]⟩

def process (cacheEmpty : Bool) (history : List CacheEvent) (first second : String) : Outcome :=
  processNotNullRequest strategy request (surroundings first second)
    (sorts_of_createStrategy created _) flow.quorumRequested (cache cacheEmpty) history
    CachePolicy.sampleEnvironment CachePolicy.polygon (some 0)

def remember (outcome : Outcome) : List CacheEvent :=
  (outcome.storeEvent CachePolicy.sampleEnvironment CachePolicy.polygon request
    fun _ => .ok ()).toList

theorem collected :
    (strategy.collectDispatchUpstreamIDs request (surroundings first second).standing
      (surroundings first second).nextIndex (sorts_of_createStrategy created _)).1 =
        .ok ["a", "b"] := by
  have runs : (strategy.collectLoop request (surroundings first second).standing
      (surroundings first second).nextIndex (sorts_of_createStrategy created _)).run {} =
      (.ok ["a", "b"], _) := Loop.run_of_runFor 3 rfl
  exact congrArg Prod.fst runs

theorem process_eq (cacheEmpty : Bool) (history : List CacheEvent) :
    process cacheEmpty history first second = processCached false
      ((cache cacheEmpty).receive CachePolicy.sampleEnvironment CachePolicy.polygon request
        (run (cache cacheEmpty).step (fun _ _ => none) history) (some 0))
      (Walk.processUpstreams (fun _ => none) (surroundings first second).reply 0 {}
        ["a", "b"]) := by
  rw [process, processNotNullRequest, processNotNull, collected]
  rfl

end LateReceipt

/-- With empty results not cached, the null of the second request is one of all upstreams. -/
theorem null_only_if_both_asked :
    (LateReceipt.process false (LateReceipt.remember
        (LateReceipt.process false [] "null" "null")) "null" "null").isNull = true ∧
      ∀ id ∈ ["a", "b"], id ∈ (LateReceipt.process false (LateReceipt.remember
        (LateReceipt.process false [] "null" "null")) "null" "null").asked := by
  have isNull : (LateReceipt.process false (LateReceipt.remember
      (LateReceipt.process false [] "null" "null")) "null" "null").isNull = true := by
    rw [LateReceipt.process_eq, LateReceipt.process_eq]
    decide
  refine ⟨isNull, fun id member => (null_only_if_all_asked LateReceipt.flow LateReceipt.request
    LateReceipt.strategy LateReceipt.created (LateReceipt.surroundings "null" "null")
    (LateReceipt.cache false) _ CachePolicy.sampleEnvironment CachePolicy.polygon (some 0) ?_
    (LateReceipt.unlimited _ _) rfl trivial isNull id member ?_ ?_).1⟩
  · have remembered : LateReceipt.remember (LateReceipt.process false [] "null" "null") =
        [.store CachePolicy.sampleEnvironment CachePolicy.polygon LateReceipt.request
          nullBytes fun _ => .ok ()] := by
      rw [LateReceipt.process_eq]
      rfl
    rw [remembered]
    intro event member
    rw [List.mem_singleton.mp member]
    intro _ _
    exact ⟨rfl, by decide⟩
  · rw [← UpstreamStrategy.serves_iff]
    rcases List.mem_pair.mp member with rfl | rfl
    · rfl
    · rfl
  · rfl

/-- The first request stores its null, and the second one gets it although an upstream now
has the receipt. -/
theorem cached_null_hides_receipt :
    LateReceipt.flow.createRequestProcessor LateReceipt.request LateReceipt.method =
        .cache .notNull ∧
      (LateReceipt.process true [] "null" "null").asked = ["a", "b"] ∧
      (LateReceipt.process true (LateReceipt.remember
        (LateReceipt.process true [] "null" "null")) "null" "receipt").isNull = true ∧
      (LateReceipt.process true (LateReceipt.remember
        (LateReceipt.process true [] "null" "null")) "null" "receipt").asked = [] := by
  rw [LateReceipt.process_eq, LateReceipt.process_eq]
  refine ⟨rfl, ?_, ?_, ?_⟩
  · decide
  · decide
  · decide

end Nodecore.Flow
