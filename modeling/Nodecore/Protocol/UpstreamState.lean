/-
# The state of an upstream and the events about it

Two kinds of events carry changes.  State events feed the loop of one upstream,
which owns that upstream's state; upstream events are what the loop publishes to
the supervisor of the chain.

A map or set the source leaves unset is read there exactly like an empty one, so
both are the empty map here.
-/

import Nodecore.Protocol.Block
import Nodecore.Upstreams.Methods

namespace Nodecore.Protocol

open Lib Upstreams

/-- What is known about one upstream.  The two rate limiters are held by
reference: only their identity matters here. -/
structure UpstreamState where
  status : AvailabilityStatus
  headData : Block
  upstreamMethods : UpstreamMethods
  caps : GoSet Cap
  upstreamIndex : String
  rateLimiterBudget : Option ℕ
  autoTuneRateLimiter : Option ℕ
  blockInfo : GoMap BlockType Block
  lowerBoundsInfo : GoMap LowerBoundType LowerBoundData
  labels : GoMap String String
  deriving DecidableEq

def defaultUpstreamState (upstreamMethods : UpstreamMethods) (caps : GoSet Cap)
    (upstreamIndex : String) (rt autoTuneRateLimiter : Option ℕ) : UpstreamState where
  status := .available
  headData := zeroBlock
  upstreamMethods := upstreamMethods
  caps := caps
  upstreamIndex := upstreamIndex
  rateLimiterBudget := rt
  autoTuneRateLimiter := autoTuneRateLimiter
  blockInfo := ∅
  lowerBoundsInfo := ∅
  labels := ∅

namespace UpstreamState

def getBlock (state : UpstreamState) (blockType : BlockType) : Block :=
  (state.blockInfo.lookup blockType).getD zeroBlock

def getLowerBound (state : UpstreamState) (boundType : LowerBoundType) :
    Option LowerBoundData := state.lowerBoundsInfo.lookup boundType

def getLabel (state : UpstreamState) (label : String) : Option String :=
  state.labels.lookup label

end UpstreamState

/-- The events the loop of an upstream publishes. -/
inductive UpstreamEventType
  | stateEvent (state : UpstreamState)
  | headEvent (event : HeadUpstreamEvent)
  | removeEvent
  | validEvent (state : Option UpstreamState)

structure UpstreamEvent where
  id : String
  eventType : UpstreamEventType

/-- The events the loop of an upstream receives.  A status event that carries a
lag only asks to derive the status again. -/
inductive UpstreamStateEvent
  | init
  | lowerBound (data : LowerBoundData)
  | status (status : AvailabilityStatus) (lag : Option Int64)
  | fatalError
  | valid
  | head (headData : Block)
  | block (block : Block) (blockType : BlockType)
  | banMethod (method : String)
  | unbanMethod (method : String)
  | unsupportedMethods (methods : GoSet String)
  | caps (caps : GoSet Cap)
  | labels (key value : String)

namespace UpstreamStateEvent

/-- Whether the event would leave the state as it is. -/
def same (event : UpstreamStateEvent) (state : UpstreamState) : Bool :=
  match event with
  | .lowerBound data => state.getLowerBound data.type == some data
  | .block data blockType => (state.getBlock blockType).equals data
  | .caps newCaps => state.caps.equal newCaps
  | .labels key value => state.getLabel key == some value
  | _ => false

def processEvent (event : UpstreamStateEvent) (state : UpstreamState) : UpstreamState :=
  match event with
  | .lowerBound data =>
    { state with lowerBoundsInfo := state.lowerBoundsInfo.insert data.type data }
  | .head headData => { state with headData := headData }
  | .block data blockType => { state with blockInfo := state.blockInfo.insert blockType data }
  | .caps newCaps => { state with caps := newCaps }
  | .labels key value => { state with labels := state.labels.insert key value }
  | _ => state

variable (event : UpstreamStateEvent)

@[simp]
theorem upstreamMethods_processEvent (state : UpstreamState) :
    (event.processEvent state).upstreamMethods = state.upstreamMethods := by
  cases event <;> rfl

@[simp]
theorem status_processEvent (state : UpstreamState) :
    (event.processEvent state).status = state.status := by
  cases event <;> rfl

end UpstreamStateEvent

end Nodecore.Protocol
