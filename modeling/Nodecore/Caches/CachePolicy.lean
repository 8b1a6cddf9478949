/-
# Cache policies

A policy decides which responses a cache connector keeps and gives back.  It
looks at the chain, the blockchain type and the method of a request, at the size
and the emptiness of a response, and, through the method's tag-parser, at the
blocks the request is about: a policy for finalized data wants them numbered
explicitly and at most the chain's finalized height.
-/

import Nodecore.Protocol.Request
import Nodecore.Upstreams.ChainState

namespace Nodecore.Caches

open Lib Specs Protocol Upstreams

inductive BlockchainType
  | algorand | bitcoin | cosmos | ethereum | ethereumBeaconChain | near | polkadot | solana
  | starknet | stellar | ton | aztec | aptos
  deriving DecidableEq, Repr

/-- A configured chain; an unknown one has no blockchain type. -/
structure Chain where
  name : String
  type : Option BlockchainType
  deriving DecidableEq, Repr

inductive FinalizationType
  | finalized | none
  deriving DecidableEq, Repr

/-- A policy.  An empty set of chains, blockchain types or methods admits all of
them; `none` is a setting that names no supported one and admits nothing. -/
structure CachePolicy where
  id : String
  methods : GoSet String
  chains : Option (GoSet Chain)
  blockchainTypes : Option (GoSet BlockchainType)
  cacheEmpty : Bool
  maxSizeBytes : ℤ
  ttl : ℤ
  finalizationType : FinalizationType

/-- What the policy's surroundings answer while a request is judged. -/
structure Environment where
  gojq : Gojq
  rpc : RpcBlocks
  /-- The standard library's shell pattern matcher. -/
  pathMatch : (pattern name : String) → Bool
  getChainSupervisor : Chain → Option ChainSupervisorState

/-- The storage behind a policy, by what it answers to one call. -/
structure CacheConnector where
  store : (key : String) → (object : List UInt8) → (ttl : ℤ) → Except String Unit
  receive : (key : String) → Except String (List UInt8)

def finalizedHeight (state : ChainSupervisorState) : Option UInt64 :=
  match state.blocks.lookup .finalizedBlock with
  | some block => if block.isEmptyByHeight then none else some block.height
  | none => none

variable {request : RequestHolder} {number : Int64} {chain : Chain}

namespace CachePolicy

variable (env : Environment) (policy : CachePolicy)

def reaches (state : ChainSupervisorState) (number : Int64) : Bool :=
  match finalizedHeight state with
  | none => false
  | some height => decide (number.toUInt64 ≤ height)

/-- The type switch on the block parameter. -/
def isParamCacheable (state : ChainSupervisorState) : Option MethodParam → Bool
  | some (.blockNumber number) =>
    if env.rpc.isBlockTagNumber number then false
    else if policy.finalizationType = .finalized then reaches state number
    else true
  | some (.blockRange fromBlock toBlock) =>
    if fromBlock.any env.rpc.isBlockTagNumber then false
    else if toBlock.any env.rpc.isBlockTagNumber then false
    else if policy.finalizationType = .finalized then
      match fromBlock, toBlock with
      | some fromBlock, some toBlock => reaches state (max fromBlock toBlock)
      | none, some toBlock => reaches state toBlock
      -- without an end the range ends at the latest block
      | _, none => false
    else true
  | some (.hashTag _) | some (.string _) | none => true

def isMethodCacheable (chain : Chain) (request : RequestHolder) : Except String Bool :=
  match env.getChainSupervisor chain with
  | none => .ok false
  | some state =>
    match request.specMethod with
    | none => .ok false
    | some method =>
      if method.cacheable = false then .ok false
      else
        match request.parseParams env.gojq env.rpc with
        | .error panic => .error panic
        | .ok param => .ok (policy.isParamCacheable env state param)

def methodMatched (request : RequestHolder) : Bool :=
  policy.methods.keys.any fun method =>
    if '*' ∈ method.toList then env.pathMatch method request.method
    else method == request.method

def chainNotMatched (chain : Chain) : Bool :=
  match policy.chains with
  | none => true
  | some chains => !chains.keys.isEmpty && !GoSet.contains chains chain

def blockchainTypeNotMatched (chain : Chain) : Bool :=
  match policy.blockchainTypes with
  | none => true
  | some types =>
    !types.keys.isEmpty && !(chain.type.any fun type => GoSet.contains types type)

/-- The checks that do not look at the request's parameters. -/
def isMatched (chain : Chain) (request : RequestHolder) : Bool :=
  !policy.chainNotMatched chain && !policy.blockchainTypeNotMatched chain &&
    (policy.methods.keys.isEmpty || policy.methodMatched env request)

def baseCacheableCheck (chain : Chain) (request : RequestHolder) : Except String Bool :=
  match policy.isMethodCacheable env chain request with
  | .error panic => .error panic
  | .ok cacheable => .ok (cacheable && policy.isMatched env chain request)

def emptyResponses : List (List UInt8) :=
  ["\"0x\"", "null", "\x7b\x7d", "[]"].map fun response => response.toUTF8.data.toList

def getCacheKey (chain : Chain) (requestHash : String) : String := chain.name ++ "_" ++ requestHash

def store (connector : CacheConnector) (chain : Chain) (request : RequestHolder)
    (response : List UInt8) : Except String Bool :=
  match policy.baseCacheableCheck env chain request with
  | .error panic => .error panic
  | .ok false => .ok false
  | .ok true =>
    if policy.maxSizeBytes < response.length then .ok false
    else if !policy.cacheEmpty && emptyResponses.contains response then .ok false
    else
      match connector.store (getCacheKey chain request.requestHash) response policy.ttl with
      | .error _ => .ok false
      | .ok () => .ok true

def receive (connector : CacheConnector) (chain : Chain) (request : RequestHolder) :
    Except String (Option (List UInt8)) :=
  match policy.baseCacheableCheck env chain request with
  | .error panic => .error panic
  | .ok false => .ok none
  | .ok true =>
    match connector.receive (getCacheKey chain request.requestHash) with
    | .error _ => .ok none
    | .ok object => .ok (if object.isEmpty then none else some object)

/-- An explicit number, not a tag, that is at most the known finalized height. -/
structure IsFinalizedNumber (rpc : RpcBlocks) (state : ChainSupervisorState) (number : Int64) :
    Prop where
  explicit : rpc.isBlockTagNumber number = false
  nonneg : 0 ≤ number
  finalized : ∃ height, finalizedHeight state = some height ∧ number.toInt ≤ height.toNat

/-- Every bound of the parameter is given and finalized.  Blocks named by their
hash are not judged. -/
def HasFinalizedBounds (rpc : RpcBlocks) (state : ChainSupervisorState) :
    Option MethodParam → Prop
  | some (.blockNumber number) => IsFinalizedNumber rpc state number
  | some (.blockRange (some fromBlock) (some toBlock)) =>
    IsFinalizedNumber rpc state fromBlock ∧ IsFinalizedNumber rpc state toBlock
  | some (.hashTag _) => True
  | _ => False

/-- The parameter was read, and it is not a range that has only a finalized end. -/
def NamesItsBlocks (rpc : RpcBlocks) (state : ChainSupervisorState) :
    Option MethodParam → Prop
  | none => False
  | some (.blockRange none (some toBlock)) => ¬ IsFinalizedNumber rpc state toBlock
  | some _ => True

/-- The request is about finalized blocks of a chain that is known. -/
def IsFinalizedRequest (env : Environment) (chain : Chain) (request : RequestHolder) : Prop :=
  ∃ state param, env.getChainSupervisor chain = some state ∧
    request.parseParams env.gojq env.rpc = .ok param ∧ HasFinalizedBounds env.rpc state param

section Bounds

variable {env : Environment} {policy : CachePolicy} {state : ChainSupervisorState}

theorem reaches_iff (nonneg : 0 ≤ number) :
    reaches state number = true ↔
      ∃ height, finalizedHeight state = some height ∧ number.toInt ≤ height.toNat := by
  have value : (number.toUInt64.toNat : ℤ) = number.toInt := by
    rw [Int64.toNat_toUInt64_of_le nonneg, Int64.toInt_eq_toNatClampNeg nonneg]
  unfold reaches
  cases finalizedHeight state with
  | none => simp
  | some height => simp [UInt64.le_iff_toNat_le, ← value]

theorem nonneg_of_explicit {rpc : RpcBlocks}
    (documented : rpc.isBlockTagNumber number = true ∨ 0 ≤ number)
    (explicit : rpc.isBlockTagNumber number = false) : 0 ≤ number := by
  rcases documented with isTag | nonneg
  · rw [explicit] at isTag
    cases isTag
  · exact nonneg

theorem isFinalizedNumber_iff {rpc : RpcBlocks}
    (documented : rpc.isBlockTagNumber number = true ∨ 0 ≤ number) :
    IsFinalizedNumber rpc state number ↔
      rpc.isBlockTagNumber number = false ∧ reaches state number = true := by
  constructor
  · intro isNumber
    exact ⟨isNumber.explicit, (reaches_iff isNumber.nonneg).mpr isNumber.finalized⟩
  · rintro ⟨explicit, reached⟩
    have nonneg := nonneg_of_explicit documented explicit
    exact ⟨explicit, nonneg, (reaches_iff nonneg).mp reached⟩

theorem reaches_max_iff {first second : Int64} (first_nonneg : 0 ≤ first)
    (second_nonneg : 0 ≤ second) :
    reaches state (max first second) = true ↔
      reaches state first = true ∧ reaches state second = true := by
  rw [reaches_iff first_nonneg, reaches_iff second_nonneg]
  by_cases le : first ≤ second
  · rw [show max first second = second from if_pos le, reaches_iff second_nonneg]
    rw [Int64.le_iff_toInt_le] at le
    constructor
    · rintro ⟨height, known, low⟩
      exact ⟨⟨height, known, by omega⟩, height, known, low⟩
    · exact And.right
  · rw [show max first second = first from if_neg le, reaches_iff first_nonneg]
    rw [Int64.le_iff_toInt_le] at le
    constructor
    · rintro ⟨height, known, low⟩
      exact ⟨⟨height, known, low⟩, height, known, by omega⟩
    · exact And.left

section

variable (finalized : policy.finalizationType = .finalized)
include finalized

theorem isParamCacheable_blockNumber_iff
    (documented : env.rpc.isBlockTagNumber number = true ∨ 0 ≤ number) :
    policy.isParamCacheable env state (some (.blockNumber number)) = true ↔
      IsFinalizedNumber env.rpc state number := by
  rw [isFinalizedNumber_iff documented, isParamCacheable, if_pos finalized]
  cases env.rpc.isBlockTagNumber number with
  | true => simp
  | false => simp

theorem isParamCacheable_closedRange_iff {fromBlock toBlock : Int64}
    (fromDocumented : env.rpc.isBlockTagNumber fromBlock = true ∨ 0 ≤ fromBlock)
    (toDocumented : env.rpc.isBlockTagNumber toBlock = true ∨ 0 ≤ toBlock) :
    policy.isParamCacheable env state (some (.blockRange (some fromBlock) (some toBlock))) =
        true ↔
      IsFinalizedNumber env.rpc state fromBlock ∧ IsFinalizedNumber env.rpc state toBlock := by
  rw [isFinalizedNumber_iff fromDocumented, isFinalizedNumber_iff toDocumented]
  simp only [isParamCacheable, if_pos finalized, Option.any_some]
  cases fromTag : env.rpc.isBlockTagNumber fromBlock with
  | true => simp
  | false =>
    cases toTag : env.rpc.isBlockTagNumber toBlock with
    | true => simp
    | false =>
      simp [reaches_max_iff (nonneg_of_explicit fromDocumented fromTag)
        (nonneg_of_explicit toDocumented toTag)]

theorem isParamCacheable_openRange_iff {toBlock : Int64}
    (documented : env.rpc.isBlockTagNumber toBlock = true ∨ 0 ≤ toBlock) :
    policy.isParamCacheable env state (some (.blockRange none (some toBlock))) = true ↔
      IsFinalizedNumber env.rpc state toBlock := by
  rw [isFinalizedNumber_iff documented]
  simp only [isParamCacheable, if_pos finalized, Option.any_none, Option.any_some]
  cases env.rpc.isBlockTagNumber toBlock with
  | true => simp
  | false => simp

/-- Where the type switch goes wrong: on a parameter that was not read, and on a
range that has only a finalized end. -/
theorem isParamCacheable_imp_iff
    {param : Option MethodParam} (isBlock : ∀ text, param ≠ some (.string text))
    (documented : ∀ read, param = some read → ∀ number ∈ read.numbers,
      env.rpc.isBlockTagNumber number = true ∨ 0 ≤ number) :
    (policy.isParamCacheable env state param = true → HasFinalizedBounds env.rpc state param) ↔
      NamesItsBlocks env.rpc state param := by
  match param with
  | none => simp [isParamCacheable, HasFinalizedBounds, NamesItsBlocks]
  | some (.string text) => exact absurd rfl (isBlock text)
  | some (.hashTag hash) => simp [HasFinalizedBounds, NamesItsBlocks]
  | some (.blockNumber number) =>
    apply iff_of_true _ trivial
    exact (isParamCacheable_blockNumber_iff finalized
      (documented _ rfl number (by simp [MethodParam.numbers]))).mp
  | some (.blockRange (some fromBlock) (some toBlock)) =>
    apply iff_of_true _ trivial
    exact (isParamCacheable_closedRange_iff finalized
      (documented _ rfl fromBlock (by simp [MethodParam.numbers]))
      (documented _ rfl toBlock (by simp [MethodParam.numbers]))).mp
  | some (.blockRange none (some toBlock)) =>
    -- the only end given is checked alone, so a finalized one passes
    rw [isParamCacheable_openRange_iff finalized
      (documented _ rfl toBlock (by simp [MethodParam.numbers]))]
    simp [HasFinalizedBounds, NamesItsBlocks]
  | some (.blockRange fromBlock none) =>
    refine iff_of_true (fun cacheable => ?_) (by cases fromBlock <;> trivial)
    cases fromBlock <;> simp [isParamCacheable, finalized] at cacheable

end

theorem baseCacheableCheck_iff :
    policy.baseCacheableCheck env chain request = .ok true ↔
      ∃ state method param, env.getChainSupervisor chain = some state ∧
        request.specMethod = some method ∧ method.cacheable = true ∧
        request.parseParams env.gojq env.rpc = .ok param ∧
        policy.isParamCacheable env state param = true ∧
        policy.isMatched env chain request = true := by
  unfold baseCacheableCheck isMethodCacheable
  grind

variable {connector : CacheConnector}

theorem baseCacheableCheck_of_store {response : List UInt8}
    (stored : policy.store env connector chain request response = .ok true) :
    policy.baseCacheableCheck env chain request = .ok true := by
  unfold store at stored
  grind

theorem baseCacheableCheck_of_receive {object : List UInt8}
    (received : policy.receive env connector chain request = .ok (some object)) :
    policy.baseCacheableCheck env chain request = .ok true := by
  unfold receive at received
  grind

/-- A connector that takes every object and holds one under every key. -/
def willing : CacheConnector where
  store _ _ _ := .ok ()
  receive _ := .ok [0]

end Bounds

/-- A policy for finalized data keeps and gives back only requests whose blocks
are all numbered explicitly and finalized, exactly as long as the tag-parser
reads a parameter and no range has only a finalized end, or another check of the
policy refuses the request. -/
theorem finalized_only_iff {env : Environment} {policy : CachePolicy}
    (documented : env.rpc.Documented) (finalized : policy.finalizationType = .finalized)
    (chain : Chain) {request : RequestHolder} {method : Method} {parser : TagParser}
    (isMethod : request.specMethod = some method) (hasParser : method.parser = some parser)
    (readsBlock : parser.ReadsBlock env.gojq) :
    (∀ connector : CacheConnector,
      (∀ response, policy.store env connector chain request response = .ok true →
        IsFinalizedRequest env chain request) ∧
      (∀ object, policy.receive env connector chain request = .ok (some object) →
        IsFinalizedRequest env chain request)) ↔
      ∀ state param, env.getChainSupervisor chain = some state → method.cacheable = true →
        request.parseParams env.gojq env.rpc = .ok param →
        policy.isMatched env chain request = true → NamesItsBlocks env.rpc state param := by
  have judged : ∀ state param, request.parseParams env.gojq env.rpc = .ok param →
      ((policy.isParamCacheable env state param = true →
        HasFinalizedBounds env.rpc state param) ↔ NamesItsBlocks env.rpc state param) := by
    intro state param parsed
    apply isParamCacheable_imp_iff finalized
    · rintro text rfl
      exact RequestHolder.parseParams_ne_string isMethod hasParser readsBlock text parsed
    · rintro read rfl number mem
      exact RequestHolder.parseParams_documented documented parsed mem
  constructor
  · intro sound state param known cacheable parsed matched
    rw [← judged state param parsed]
    intro paramCacheable
    have passes := baseCacheableCheck_iff.mpr
      ⟨state, method, param, known, isMethod, cacheable, parsed, paramCacheable, matched⟩
    have received : policy.receive env willing chain request = .ok (some [0]) := by
      simp [receive, passes, willing]
    obtain ⟨sameState, sameParam, known', parsed', bounds⟩ := (sound willing).2 [0] received
    obtain rfl := Option.some.inj (known.symm.trans known')
    obtain rfl := Except.ok.inj (parsed.symm.trans parsed')
    exact bounds
  · intro names
    have sound : policy.baseCacheableCheck env chain request = .ok true →
        IsFinalizedRequest env chain request := by
      intro passes
      obtain ⟨state, other, param, known, same, cacheable, parsed, paramCacheable, matched⟩ :=
        baseCacheableCheck_iff.mp passes
      obtain rfl := Option.some.inj (isMethod.symm.trans same)
      have named := names state param known cacheable parsed matched
      exact ⟨state, param, known, parsed, (judged state param parsed).mpr named paramCacheable⟩
    intro connector
    exact ⟨fun _ stored => sound (baseCacheableCheck_of_store stored),
      fun _ received => sound (baseCacheableCheck_of_receive received)⟩

/-- A number format that knows one tag and one number. -/
def sampleRpc : RpcBlocks where
  safeBlockNumber := -4
  latestBlockNumber := -2
  pendingBlockNumber := -1
  finalizedBlockNumber := -3
  earliestBlockNumber := -5
  unmarshalBlockNumber text :=
    if text = "latest" then some (-2) else if text = "0x10" then some 16 else none
  unmarshalBlockNumberOrHash text :=
    if text = "latest" then some { blockNumber := some (-2) }
    else if text = "0x10" then some { blockNumber := some 16 } else none

def polygon : Chain := ⟨"polygon", some .ethereum⟩

def sampleState : ChainSupervisorState where
  status := .available
  headData := ⟨{ height := 40 }, "node"⟩
  methods := .newChainMethods []
  blocks := AList.insert .finalizedBlock { height := 32 } ∅
  lowerBounds := ∅
  chainLabels := []
  subMethods := ∅
  caps := ∅

/-- That chain, and a jq engine that runs `.[1]`. -/
def sampleEnvironment : Environment where
  gojq _ data := [.ok ((data.item? 1).getD .null)]
  rpc := sampleRpc
  pathMatch _ _ := true
  getChainSupervisor _ := some sampleState

def finalizedPolicy : CachePolicy where
  id := "finalized"
  methods := ∅
  chains := some ∅
  blockchainTypes := some ∅
  cacheEmpty := false
  maxSizeBytes := 1024
  ttl := 60
  finalizationType := .finalized

def ethCall : Method where
  name := "eth_call"
  cacheable := true
  parser := some ⟨.blockRefType, ".[1]"⟩

def callWith (params : List JsonValue) : RequestHolder where
  method := "eth_call"
  specMethod := some ethCall
  params := .value (.array (.object [] :: params))

theorem documented_sampleRpc : sampleRpc.Documented where
  number {text number} read := by
    simp only [sampleRpc] at read
    split_ifs at read <;> cases read <;> decide
  reference {text reference number} read named := by
    simp only [sampleRpc] at read
    split_ifs at read <;> cases read <;> cases named <;> decide

/-- A call at a finalized number is kept, and rightly so. -/
theorem finalized_only_at_number :
    finalizedPolicy.store sampleEnvironment willing polygon (callWith [.string "0x10"]) [49] =
        .ok true ∧
      IsFinalizedRequest sampleEnvironment polygon (callWith [.string "0x10"]) := by
  have stored : finalizedPolicy.store sampleEnvironment willing polygon
      (callWith [.string "0x10"]) [49] = .ok true := by decide
  have readsBlock : TagParser.ReadsBlock sampleEnvironment.gojq ⟨.blockRefType, ".[1]"⟩ := trivial
  have sound := @finalized_only_iff sampleEnvironment finalizedPolicy documented_sampleRpc rfl
    polygon (callWith [.string "0x10"]) ethCall _ rfl rfl readsBlock
  refine ⟨stored, (sound.mpr ?_ willing).1 [49] stored⟩
  intro state param _ _ parsed _
  obtain rfl := Except.ok.inj parsed
  trivial

/-- A call that leaves its block out, and so is about the latest one, is kept
as finalized data. -/
theorem omitted_block_is_stored :
    finalizedPolicy.store sampleEnvironment willing polygon (callWith []) [49] = .ok true ∧
      ¬ IsFinalizedRequest sampleEnvironment polygon (callWith []) := by
  refine ⟨by decide, ?_⟩
  rintro ⟨state, param, _, parsed, bounds⟩
  obtain rfl := Except.ok.inj parsed
  exact bounds

end CachePolicy

end Nodecore.Caches
