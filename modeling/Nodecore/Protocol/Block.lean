/-
# Blocks, bounds and availability

The values the rest of the system exchanges about a chain: block headers,
lower bounds of the data an upstream keeps, and the availability an upstream
reports.  Heights and slots are 64-bit machine words; a hash is a byte string,
empty when unknown.
-/

import Nodecore.Lib.GoMap

namespace Nodecore.Protocol

open Lib

/-- A block header.  The raw payload the node sent along is not kept: nothing
modelled here reads it. -/
structure Block where
  height : UInt64 := 0
  slot : UInt64 := 0
  hash : List UInt8 := []
  parentHash : List UInt8 := []
  deriving DecidableEq, Repr

/-- The zero value of the type, used as "no block". -/
def zeroBlock : Block := {}

namespace Block

def equals (block other : Block) : Bool :=
  block.height == other.height && block.slot == other.slot &&
    block.hash == other.hash && block.parentHash == other.parentHash

def compareWithHeight (block other : Block) : Ordering := compare block.height other.height

def isEmptyByHeight (block : Block) : Bool :=
  block.height == 0 && block.hash.isEmpty && block.parentHash.isEmpty

def rank (block : Block) : ℕ := block.height.toNat

@[simp]
theorem rank_zeroBlock : zeroBlock.rank = 0 := rfl

theorem rank_of_isEmptyByHeight {block : Block} (empty : block.isEmptyByHeight = true) :
    block.rank = 0 := by
  simp only [isEmptyByHeight, Bool.and_eq_true, beq_iff_eq] at empty
  rw [rank, empty.1.1]
  rfl

theorem compareWithHeight_eq_gt_iff (block other : Block) :
    block.compareWithHeight other = .gt ↔ other.rank < block.rank := by
  rw [compareWithHeight, Std.compare_eq_gt, UInt64.lt_iff_toNat_lt]
  rfl

theorem compareWithHeight_eq_eq_iff (block other : Block) :
    block.compareWithHeight other = .eq ↔ block.rank = other.rank := by
  rw [compareWithHeight, Std.compare_eq_iff_eq, ← UInt64.toNat_inj]
  rfl

end Block

/-- The special blocks a chain tracks beside its head. -/
inductive BlockType
  | finalizedBlock | safeBlock
  deriving DecidableEq, Repr

/-- What a lower bound is a bound of. -/
inductive LowerBoundType
  | unknownBound | slotBound | stateBound | receiptsBound | txBound | blockBound
  | logsBound | traceBound | proofBound | epochBound | blobBound
  deriving DecidableEq, Repr

def LowerBoundType.toString : LowerBoundType → String
  | .unknownBound => "UNKNOWN"
  | .slotBound => "SLOT"
  | .stateBound => "STATE"
  | .receiptsBound => "RECEIPTS"
  | .txBound => "TX"
  | .blockBound => "BLOCK"
  | .logsBound => "LOGS"
  | .traceBound => "TRACE"
  | .proofBound => "PROOF"
  | .epochBound => "EPOCH"
  | .blobBound => "BLOB"

/-- The lowest block an upstream still has data of some type for. -/
structure LowerBoundData where
  bound : Int64
  timestamp : Int64
  type : LowerBoundType
  deriving DecidableEq, Repr

/-- Availability in decreasing order; the numbers are the source's own. -/
inductive AvailabilityStatus
  | available | immature | syncing | unavailable | unknownStatus
  deriving DecidableEq, Repr

namespace AvailabilityStatus

def toNat : AvailabilityStatus → ℕ
  | .available => 1
  | .immature => 2
  | .syncing => 3
  | .unavailable => 4
  | .unknownStatus => 9223372036854775807

end AvailabilityStatus

/-- Whether a head lag is large enough to matter.  A non-positive threshold
means "not configured" and disables the check. -/
def lagExceeds (lag syncingLag : Int64) : Bool :=
  decide (0 < syncingLag) && decide (syncingLag < lag)

def statusByLag (lag : Int64) (avail : AvailabilityStatus) (syncingLag : Int64) :
    AvailabilityStatus :=
  if avail = .available ∧ lagExceeds lag syncingLag then .syncing else avail

/-- A head reported by an upstream with the upstream's status at that moment. -/
structure HeadUpstreamEvent where
  status : AvailabilityStatus
  head : Block
  deriving DecidableEq, Repr

/-- A subscription capability of an upstream. -/
inductive Cap
  | wsCap | newHeadsCap | logsCap | pendingTxCap
  deriving DecidableEq, Repr

end Nodecore.Protocol
