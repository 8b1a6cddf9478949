/-
# The aggregate state of a chain

The supervisor of a chain merges the states of its available upstreams into one
published state: the union of their methods and capabilities, the highest of
their tracked blocks, the lowest of their lower bounds, and their labels counted
by equal label sets.  `compare` lists what changed between two such states.
-/

import Nodecore.Protocol.UpstreamState

namespace Nodecore.Upstreams

open Lib Protocol

structure ChainHeadData where
  head : Block
  upstreamId : String
  deriving DecidableEq

def ChainHeadData.isEmpty (headData : ChainHeadData) : Bool := headData.head.isEmptyByHeight

/-- A label set with the number of upstreams that carry it. -/
structure AggregatedLabels where
  amount : ℕ
  labels : GoMap String String
  deriving DecidableEq

def AggregatedLabels.equals (first second : AggregatedLabels) : Bool :=
  first.amount == second.amount && GoMap.equalFunc (· == ·) first.labels second.labels

def compareAggregatedLabels (first second : List AggregatedLabels) : Bool :=
  first.length == second.length &&
    first.all fun label => second.any fun item => item.equals label

structure ChainSupervisorState where
  status : AvailabilityStatus
  headData : ChainHeadData
  methods : ChainMethods
  blocks : GoMap BlockType Block
  lowerBounds : GoMap LowerBoundType LowerBoundData
  chainLabels : List AggregatedLabels
  subMethods : GoSet String
  caps : GoSet Cap
  deriving DecidableEq

/-- One published change of the chain's state. -/
inductive ChainSupervisorStateWrapper
  | statusWrapper (status : AvailabilityStatus)
  | methodsWrapper (methods : List String)
  | blocksWrapper (blocks : GoMap BlockType Block)
  | lowerBoundsWrapper (lowerBounds : List LowerBoundData)
  | labelsWrapper (labels : List AggregatedLabels)
  | subMethodsWrapper (subMethods : List String)
  | capsWrapper (caps : GoSet Cap)
  | headWrapper (head : Block) (upstreamId : String)
  deriving DecidableEq

/-- The orders the runtime picks for the loops of one state update. -/
structure StateRanges where
  available : RangeOrder (Entry String UpstreamState)
  statuses : RangeOrder (Entry String UpstreamState)
  finalizationLags : RangeOrder (Entry String UpstreamState)
  upstreamBlocks : RangeOrder (Entry BlockType Block)
  upstreamBounds : RangeOrder LowerBoundData
  names : RangeOrder String
  bounds : RangeOrder LowerBoundData

/-- Every loop visits the entries as they are stored. -/
def StateRanges.stored : StateRanges where
  available := .stored _
  statuses := .stored _
  finalizationLags := .stored _
  upstreamBlocks := .stored _
  upstreamBounds := .stored _
  names := .stored _
  bounds := .stored _

open ChainSupervisorStateWrapper in
def ChainSupervisorState.compare (ranges : StateRanges) (current new : ChainSupervisorState) :
    List ChainSupervisorStateWrapper :=
  (if current.status ≠ new.status then [statusWrapper new.status] else []) ++
  (if current.methods.availableMethods.equal new.methods.availableMethods then []
    else [methodsWrapper (new.methods.availableMethods.toSlice ranges.names)]) ++
  (if GoMap.equalFunc Block.equals current.blocks new.blocks then []
    else [blocksWrapper new.blocks]) ++
  (if GoMap.equalFunc (· == ·) current.lowerBounds new.lowerBounds then []
    else [lowerBoundsWrapper (ranges.bounds.visit new.lowerBounds.values)]) ++
  (if compareAggregatedLabels current.chainLabels new.chainLabels then []
    else [labelsWrapper new.chainLabels]) ++
  (if current.subMethods.equal new.subMethods then []
    else [subMethodsWrapper (new.subMethods.toSlice ranges.names)]) ++
  (if current.caps.equal new.caps then [] else [capsWrapper new.caps])

def processCaps (availableUpstreams : List UpstreamState) : GoSet Cap :=
  availableUpstreams.foldl (fun caps upState => caps.union upState.caps) ∅

/-- Count one more upstream with these labels. -/
def addLabels (upLabels : GoMap String String) : List AggregatedLabels → List AggregatedLabels
  | [] => [⟨1, upLabels⟩]
  | item :: allLabels =>
    if GoMap.equalFunc (· == ·) upLabels item.labels then
      { item with amount := item.amount + 1 } :: allLabels
    else item :: addLabels upLabels allLabels

def processLabels (availableUpstreams : List UpstreamState) : List AggregatedLabels :=
  availableUpstreams.foldl
    (fun allLabels upState =>
      if upState.labels.entries.isEmpty then allLabels else addLabels upState.labels allLabels)
    []

def processUpstreamMethods (availableStates : List UpstreamState) : ChainMethods :=
  .newChainMethods (availableStates.map (·.upstreamMethods))

def mergeBound (bounds : GoMap LowerBoundType LowerBoundData) (bound : LowerBoundData) :
    GoMap LowerBoundType LowerBoundData :=
  match bounds.lookup bound.type with
  | none => bounds.insert bound.type bound
  | some currentBound =>
    if bound.bound < currentBound.bound then bounds.insert bound.type bound else bounds

def processLowerBounds (ranges : StateRanges) (availableStates : List UpstreamState) :
    GoMap LowerBoundType LowerBoundData :=
  availableStates.foldl
    (fun bounds upState =>
      (ranges.upstreamBounds.visit upState.lowerBoundsInfo.values).foldl mergeBound bounds)
    ∅

/-- Both tracked kinds of block keep the higher one. -/
def compareBlocks (currentBlock newBlock : Block) : Block :=
  if currentBlock.height < newBlock.height then newBlock else currentBlock

def mergeBlock (blocks : GoMap BlockType Block) (entry : Entry BlockType Block) :
    GoMap BlockType Block :=
  match blocks.lookup entry.1 with
  | none => blocks.insert entry.1 entry.2
  | some currentBlockData => blocks.insert entry.1 (compareBlocks currentBlockData entry.2)

def processUpstreamBlocks (ranges : StateRanges) (availableStates : List UpstreamState) :
    GoMap BlockType Block :=
  availableStates.foldl
    (fun blocks upState =>
      (ranges.upstreamBlocks.visit upState.blockInfo.entries).foldl mergeBlock blocks)
    ∅

end Nodecore.Upstreams
