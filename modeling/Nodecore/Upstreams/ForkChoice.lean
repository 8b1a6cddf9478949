/-
# Choosing the head of a chain by height

The fork choice keeps the last head of every live upstream together with the
head it last announced.  Each event replaces or removes one live head, and the
maximum is recomputed from scratch, so the chosen head moves down as freely as up.

Which of several live heads of the greatest height is kept is up to the runtime.
The height is not: after any calls it is the greatest one in the last events of the
upstreams, and how the events of different upstreams were interleaved makes no
difference.
-/

import Nodecore.Lib.Run
import Nodecore.Protocol.Block

namespace Nodecore.Upstreams

open Lib Protocol

structure HeightForkChoice where
  heads : GoMap String Block := ∅
  max : Block := zeroBlock

namespace HeightForkChoice

/-- The loop over the live heads, in the order the runtime picks. -/
def maxHeight (order : RangeOrder (Entry String Block)) (heads : GoMap String Block) : Block :=
  (order.visit heads.entries).foldl
    (fun currentMaxHeight entry =>
      if entry.2.compareWithHeight currentMaxHeight = .gt then entry.2 else currentMaxHeight)
    zeroBlock

/-- The tail of `Choose`: adopt the recomputed maximum if its height differs
from the announced one. -/
def announce (order : RangeOrder (Entry String Block)) (fc : HeightForkChoice)
    (heads : GoMap String Block) : HeightForkChoice × Bool × Block :=
  let newMax := maxHeight order heads
  if newMax.compareWithHeight fc.max = .eq then
    (⟨heads, fc.max⟩, false, fc.max)
  else
    (⟨heads, newMax⟩, true, newMax)

/-- `Choose`: the fork choice afterwards, whether the chosen head changed, and
the chosen head. -/
def choose (order : RangeOrder (Entry String Block)) (fc : HeightForkChoice)
    (upstreamId : String) (event : HeadUpstreamEvent) : HeightForkChoice × Bool × Block :=
  if event.status = .available then
    -- status-only and unsynced events must not erase the last known head
    if event.head.isEmptyByHeight then (fc, false, fc.max)
    else announce order fc (fc.heads.insert upstreamId event.head)
  else if upstreamId ∈ fc.heads then announce order fc (fc.heads.erase upstreamId)
  else (fc, false, fc.max)

/-- The greatest height among the live heads, zero when none is live. -/
def liveMaxHeight (fc : HeightForkChoice) : ℕ := maxRank Block.rank fc.heads.values

def Tracks (fc : HeightForkChoice) : Prop := fc.max.rank = fc.liveMaxHeight

section

variable (order : RangeOrder (Entry String Block))
include order

theorem maxHeight_eq_foldl (heads : GoMap String Block) :
    maxHeight order heads =
      ((order.visit heads.entries).map (·.2)).foldl (keepHigher Block.rank) zeroBlock := by
  rw [List.foldl_map]
  simp only [maxHeight, keepHigher, Block.compareWithHeight_eq_gt_iff]

theorem rank_maxHeight (heads : GoMap String Block) :
    (maxHeight order heads).rank = maxRank Block.rank heads.values := by
  have samePool : ((order.visit heads.entries).map (·.2)).Perm heads.values :=
    (order.perm heads.entries).map (·.2)
  rw [maxHeight_eq_foldl, rank_foldl_keepHigher Block.rank, Block.rank_zeroBlock]
  exact (samePool.map Block.rank).foldl_eq 0

theorem isEmptyByHeight_maxHeight (heads : GoMap String Block) :
    (maxHeight order heads).isEmptyByHeight = true ↔ (maxHeight order heads).rank = 0 := by
  rw [maxHeight_eq_foldl]
  rcases foldl_keepHigher_eq_or_lt Block.rank ((order.visit heads.entries).map (·.2)) zeroBlock
    with kept | reached
  · rw [kept]
    exact ⟨fun _ => rfl, fun _ => rfl⟩
  · constructor
    · exact Block.rank_of_isEmptyByHeight
    · intro zero
      rw [zero] at reached
      cases reached

theorem tracks_announce (fc : HeightForkChoice) (heads : GoMap String Block) :
    (announce order fc heads).1.Tracks := by
  have reached := rank_maxHeight order heads
  simp only [announce]
  split
  case isTrue same =>
      rw [Block.compareWithHeight_eq_eq_iff] at same
      exact same.symm.trans reached
  case isFalse => exact reached

theorem tracks_choose {fc : HeightForkChoice} (tracks : fc.Tracks) (upstreamId : String)
    (event : HeadUpstreamEvent) : (choose order fc upstreamId event).1.Tracks := by
  unfold choose
  split_ifs
  · exact tracks
  · exact tracks_announce order fc _
  · exact tracks_announce order fc _
  · exact tracks

section

variable (fc : HeightForkChoice)
include fc

variable (upstreamId : String) (event : HeadUpstreamEvent)

theorem choose_report : let result := choose order fc upstreamId event
    result.2.2 = result.1.max ∧ (result.2.1 = false → result.1.max = fc.max) := by
  have announced : ∀ heads, (announce order fc heads).2.2 = (announce order fc heads).1.max ∧
      ((announce order fc heads).2.1 = false → (announce order fc heads).1.max = fc.max) := by
    intro heads
    simp only [announce]
    split
    · exact ⟨rfl, fun _ => rfl⟩
    · exact ⟨rfl, fun updated => absurd updated.symm Bool.false_ne_true⟩
  simp only [choose]
  split_ifs
  · exact ⟨rfl, fun _ => rfl⟩
  · exact announced _
  · exact announced _
  · exact ⟨rfl, fun _ => rfl⟩

theorem heads_announce (heads : GoMap String Block) :
    (announce order fc heads).1.heads = heads := by
  unfold announce
  dsimp only
  split_ifs
  · rfl
  · rfl

theorem heads_choose {event : HeadUpstreamEvent} (nonempty : ¬ event.head.isEmptyByHeight) :
    (choose order fc upstreamId event).1.heads =
      if event.status = .available then fc.heads.insert upstreamId event.head
      else fc.heads.erase upstreamId := by
  unfold choose
  by_cases available : event.status = .available
  · rw [if_pos available, if_pos available, if_neg nonempty, heads_announce]
  · rw [if_neg available, if_neg available]
    split_ifs with live
    · exact heads_announce order fc _
    · apply AList.ext
      exact (List.kerase_of_notMem_keys live).symm

theorem choose_updated_iff :
    (choose order fc upstreamId event).2.1 = true ↔
      (choose order fc upstreamId event).1.max.rank ≠ fc.max.rank := by
  have idle : False ↔ fc.max.rank ≠ fc.max.rank := ⟨False.elim, fun moved => absurd rfl moved⟩
  have announced : ∀ heads, (announce order fc heads).2.1 = true ↔
      (announce order fc heads).1.max.rank ≠ fc.max.rank := by
    intro heads
    simp only [announce, Block.compareWithHeight_eq_eq_iff]
    split_ifs with same
    · exact idle
    · exact ⟨fun _ => same, fun _ => rfl⟩
  unfold choose
  split_ifs
  · exact idle
  · exact announced _
  · exact announced _
  · exact idle

theorem isEmptyByHeight_choose (updated : (choose order fc upstreamId event).2.1 = true) :
    (choose order fc upstreamId event).2.2.isEmptyByHeight = true ↔
      (choose order fc upstreamId event).2.2.rank = 0 := by
  have announced : ∀ heads, (announce order fc heads).2.1 = true →
      ((announce order fc heads).2.2.isEmptyByHeight = true ↔
        (announce order fc heads).2.2.rank = 0) := by
    intro heads
    simp only [announce]
    split_ifs
    · intro updated
      cases updated
    · exact fun _ => isEmptyByHeight_maxHeight order heads
  revert updated
  unfold choose
  split_ifs
  · intro updated
    cases updated
  · exact announced _
  · exact announced _
  · intro updated
    cases updated

end

end

theorem tracks_initial : ({} : HeightForkChoice).Tracks := rfl

/-- A call, with the order in which its loop visits the live heads. -/
structure Call where
  order : RangeOrder (Entry String Block)
  upstreamId : String
  event : HeadUpstreamEvent

def step (fc : HeightForkChoice) (call : Call) : HeightForkChoice :=
  (choose call.order fc call.upstreamId call.event).1

/-- An event counts unless it comes from an available upstream without a head. -/
def isEffective (event : HeadUpstreamEvent) : Bool :=
  !(event.status = .available && event.head.isEmptyByHeight)

/-- The head of an available upstream. -/
def reportedHead (event : HeadUpstreamEvent) : Option Block :=
  if event.status = .available then some event.head else none

def eventsOf (calls : List Call) (id : String) : List HeadUpstreamEvent :=
  (calls.filter (·.upstreamId = id)).map (·.event)

/-- The head in the last event that counts, if it came from an available upstream. -/
def lastHead (events : List HeadUpstreamEvent) : Option Block :=
  (events.filter isEffective).getLast?.bind reportedHead

/-- The greatest height in the last events of all upstreams, zero if none is available. -/
def mergedHeight (calls : List Call) : ℕ :=
  maxRank Block.rank
    ((calls.map (·.upstreamId)).filterMap fun id => lastHead (eventsOf calls id))

theorem lookup_choose (order : RangeOrder (Entry String Block)) (fc : HeightForkChoice)
    (upstreamId id : String) (event : HeadUpstreamEvent) :
    (choose order fc upstreamId event).1.heads.lookup id =
      if upstreamId = id ∧ isEffective event then reportedHead event
      else fc.heads.lookup id := by
  unfold choose isEffective reportedHead
  by_cases available : event.status = .available
  · by_cases empty : event.head.isEmptyByHeight = true
    · simp [available, empty]
    · by_cases same : upstreamId = id
      · simp [available, empty, heads_announce, same]
      · simp [available, empty, heads_announce, same, AList.lookup_insert_ne (Ne.symm same)]
  · by_cases live : upstreamId ∈ fc.heads
    · by_cases same : upstreamId = id
      · subst same
        simp [available, live, heads_announce]
      · simp [available, live, heads_announce, same, AList.lookup_erase_ne (Ne.symm same)]
    · by_cases same : upstreamId = id
      · subst same
        simp [available, live, AList.lookup_eq_none.mpr live]
      · simp [available, live, same]

theorem lastHead_concat (events : List HeadUpstreamEvent) (event : HeadUpstreamEvent) :
    lastHead (events ++ [event]) =
      if isEffective event then reportedHead event else lastHead events := by
  by_cases effective : isEffective event = true
  · simp [lastHead, effective]
  · simp [lastHead, effective]

variable (calls : List Call)

theorem lookup_run (id : String) :
    (run step {} calls).heads.lookup id = lastHead (eventsOf calls id) := by
  induction calls using List.reverseRecOn with
  | nil => rfl
  | append_singleton calls call ih =>
    have after : run step {} (calls ++ [call]) = step (run step {} calls) call :=
      run_append step {} calls [call]
    rw [after, step, lookup_choose, ih]
    by_cases same : call.upstreamId = id
    · have more : eventsOf (calls ++ [call]) id = eventsOf calls id ++ [call.event] := by
        simp [eventsOf, same]
      rw [more, lastHead_concat]
      simp [same]
    · have others : eventsOf (calls ++ [call]) id = eventsOf calls id := by
        simp [eventsOf, same]
      rw [others, if_neg fun own => same own.1]

theorem mem_lastHeads_iff (head : Block) :
    head ∈ (calls.map (·.upstreamId)).filterMap (fun id => lastHead (eventsOf calls id)) ↔
      ∃ id, lastHead (eventsOf calls id) = some head := by
  rw [List.mem_filterMap]
  refine ⟨fun found => ⟨found.choose, found.choose_spec.2⟩, ?_⟩
  rintro ⟨id, isHead⟩
  refine ⟨id, ?_, isHead⟩
  by_contra absent
  have none : eventsOf calls id = [] := by
    rw [eventsOf, List.map_eq_nil_iff, List.filter_eq_nil_iff]
    intro call listed own
    exact absent (List.mem_map.mpr ⟨call, listed, by simpa using own⟩)
  rw [none] at isHead
  cases isHead

theorem rank_max_run : (run step {} calls).max.rank = mergedHeight calls := by
  have keeps : ∀ (fc : HeightForkChoice) (call : Call), fc.Tracks → (step fc call).Tracks :=
    fun _ call tracks => tracks_choose call.order tracks call.upstreamId call.event
  have tracks : (run step {} calls).Tracks := run_induction keeps tracks_initial calls
  rw [tracks, liveMaxHeight, mergedHeight]
  refine maxRank_congr Block.rank fun head => ?_
  rw [mem_lastHeads_iff, GoMap.mem_values_iff]
  simp only [lookup_run]

/-- After any calls the merged head has the greatest height in the last events of the upstreams.
The next call reports a change exactly if this height changes with it.  Calls that bring the same
events of each upstream, interleaved in any way, lead to the same height. -/
theorem merged_height_of_last_events (calls : List Call) :
    (run step {} calls).max.rank = mergedHeight calls ∧
      (∀ call : Call,
        let result := choose call.order (run step {} calls) call.upstreamId call.event
        (result.2.1 = true ↔ mergedHeight (calls ++ [call]) ≠ mergedHeight calls) ∧
          result.2.2.rank = mergedHeight (calls ++ [call])) ∧
      ∀ others, (∀ id, eventsOf others id = eventsOf calls id) →
        (run step {} others).max.rank = (run step {} calls).max.rank := by
  refine ⟨rank_max_run calls, fun call => ?_, fun others same => ?_⟩
  · have after : (choose call.order (run step {} calls) call.upstreamId call.event).1 =
        run step {} (calls ++ [call]) := (run_append step {} calls [call]).symm
    have report := choose_report call.order (run step {} calls) call.upstreamId call.event
    refine ⟨?_, ?_⟩
    · rw [choose_updated_iff, after, rank_max_run, rank_max_run]
    · rw [report.1, after, rank_max_run]
  · rw [rank_max_run, rank_max_run, mergedHeight, mergedHeight]
    refine maxRank_congr Block.rank fun head => ?_
    rw [mem_lastHeads_iff, mem_lastHeads_iff]
    simp only [same]

end HeightForkChoice

end Nodecore.Upstreams
