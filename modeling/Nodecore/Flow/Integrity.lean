/-
# Integrity handlers

For two methods the flow compares the block number of a response with what the
chain is known to have reached.  A handler tells whether the answer lags behind,
and if so which other upstreams claim to be further, the furthest first.

The number of an `eth_blockNumber` response is cut out of the raw result by
position, which panics on a result of less than two bytes; a panic is an error
here.
-/

import Mathlib.Data.List.Sort
import Nodecore.Protocol.Request
import Nodecore.Upstreams.ChainSupervisor

namespace Nodecore.Flow

open Lib Protocol Specs Upstreams

/-- What a response tells about the upstream that sent it. -/
inductive IntegrityBlock
  | headBlock (number : UInt64)
  | finalizedBlock (number : UInt64)
  deriving DecidableEq, Repr

inductive IntegrityHandler
  | noop | ethBlockNumber | ethGetBlockByNumber
  deriving DecidableEq, Repr

/-- A response of an upstream as the handlers read it. -/
structure UpstreamResponse where
  upstreamId : String
  hasError : Bool := false
  responseResult : List UInt8 := []

/-- The `number` field of a JSON object: no field, no string, or its text. -/
inductive NumberField
  | missing
  | otherType
  | text (value : List UInt8)

/-- The decoders the handlers call: hex quantities, the `number` field of a
result, and what the parser of block parameters needs. -/
structure ResponseDecoders where
  decodeUint64 : List UInt8 → Option UInt64
  getNumber : List UInt8 → NumberField
  gojq : Gojq
  rpc : RpcBlocks

/-- The outcome of handling a response: whether to ask another upstream, which
ones, and the block to record for the upstream that answered. -/
structure HandledResponse where
  shouldSendRequest : Bool := false
  sortedUpstreams : List String := []
  integrityBlock : Option IntegrityBlock := none

/-- The upstreams that pass a filter, by descending height. -/
def getSortedUpstreamIds (order : RangeOrder (Entry String UpstreamState))
    (supervisor : ChainSupervisor) (filter : String → UpstreamState → Bool)
    (height : UpstreamState → UInt64) : List String :=
  let entries := (order.visit supervisor.upstreamStates.entries).filter
    fun entry => filter entry.1 entry.2
  (entries.insertionSort fun entry other => height other.2 ≤ height entry.2).map (·.1)

def filterHead (currentHead : UInt64) (state : UpstreamState) : Bool :=
  !state.headData.isEmptyByHeight && decide (currentHead < state.headData.height)

def filterFinalization (currentFinalization : UInt64) (state : UpstreamState) : Bool :=
  decide (currentFinalization < (state.getBlock .finalizedBlock).height)

def withoutQuotes (result : List UInt8) : Except String (List UInt8) :=
  if result.length < 2 then .error "slice bounds out of range" else .ok result.tail.dropLast

namespace IntegrityHandler

def newIntegrityHandler (method : String) : IntegrityHandler :=
  if method = "eth_blockNumber" then .ethBlockNumber
  else if method = "eth_getBlockByNumber" then .ethGetBlockByNumber
  else .noop

def canBeProcessed (handler : IntegrityHandler) (request : RequestHolder) : Bool :=
  match handler with
  | .noop => false
  | .ethBlockNumber => request.method == "eth_blockNumber"
  | .ethGetBlockByNumber => request.method == "eth_getBlockByNumber"

section

variable (decoders : ResponseDecoders) (order : RangeOrder (Entry String UpstreamState))
  (supervisor : ChainSupervisor) (request : RequestHolder) (response : UpstreamResponse)

def compareWithHead (number : UInt64) : HandledResponse :=
  if supervisor.state.headData.head.height ≤ number then
    { integrityBlock := some (.headBlock number) }
  else
    { shouldSendRequest := true
      sortedUpstreams := getSortedUpstreamIds order supervisor
        (fun upId state => upId != response.upstreamId && filterHead number state)
        (·.headData.height) }

def compareWithFinalized (number : UInt64) : HandledResponse :=
  match supervisor.state.blocks.lookup .finalizedBlock with
  | none => { integrityBlock := some (.finalizedBlock number) }
  | some finalization =>
    if finalization.height ≤ number then
      { integrityBlock := some (.finalizedBlock number) }
    else
      { shouldSendRequest := true
        sortedUpstreams := getSortedUpstreamIds order supervisor
          (fun upId state => upId != response.upstreamId && filterFinalization number state)
          (·.getBlock .finalizedBlock |>.height) }

/-- A block asked for by number is never asked for again, but may show a new head. -/
def compareBlock (number : UInt64) : Option MethodParam → HandledResponse
  | some (.blockNumber blockNumber) =>
    if blockNumber = decoders.rpc.latestBlockNumber then
      compareWithHead order supervisor response number
    else if blockNumber = decoders.rpc.finalizedBlockNumber then
      compareWithFinalized order supervisor response number
    else if supervisor.state.headData.head.height ≤ number then
      { integrityBlock := some (.headBlock number) }
    else {}
  | _ => {}

def handleResponse : IntegrityHandler → Except String HandledResponse
  | .noop => .ok {}
  | .ethBlockNumber =>
    if response.hasError then .ok {}
    else
      (withoutQuotes response.responseResult).map fun text =>
        match decoders.decodeUint64 text with
        | none => {}
        | some number => compareWithHead order supervisor response number
  | .ethGetBlockByNumber =>
    if response.hasError || response.responseResult == "null".toUTF8.data.toList then .ok {}
    else
      match decoders.getNumber response.responseResult with
      | .missing | .otherType => .ok {}
      | .text text =>
        match decoders.decodeUint64 text with
        | none => .ok {}
        | some number =>
          (request.parseParams decoders.gojq decoders.rpc).map
            (compareBlock decoders order supervisor response number)

end

end IntegrityHandler

end Nodecore.Flow
