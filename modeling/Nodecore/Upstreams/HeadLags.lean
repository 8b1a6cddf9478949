/-
# The head lag of one upstream

After every head event the supervisor goes through the registered upstreams and
compares each head with the chain's.  It keeps a flag for every upstream, whether the
lag was over the syncing threshold, and tells the upstream its lag only when the flag
changes.  This module follows the flag and the updates of a single upstream through
the loop and through the handling of an event.
-/

import Nodecore.Upstreams.Registrations

namespace Nodecore.Upstreams

open Lib Protocol

def lagBehind (chainHeight : UInt64) (head : Block) : Int64 :=
  (if head.height ≤ chainHeight then chainHeight - head.height else 0 : UInt64).toInt64

/-- The supervisor's record of one upstream's lag: the flag, and the lags it has told
the upstream, in order. -/
structure LagRecord where
  flag : Option Bool
  told : List Int64

namespace LagRecord

variable (syncingLag : Int64)

def isOver (record : LagRecord) : Bool := record.flag.getD false

/-- The flag follows the lag, and the upstream is told when it changes. -/
def track (lag : Int64) (record : LagRecord) : LagRecord :=
  if record.isOver = lagExceeds lag syncingLag then record
  else ⟨some (lagExceeds lag syncingLag), record.told ++ [lag]⟩

theorem isOver_track (lag : Int64) (record : LagRecord) :
    (record.track syncingLag lag).isOver = lagExceeds lag syncingLag := by
  unfold track
  split
  · assumption
  · rfl

end LagRecord

namespace ChainSupervisor

variable (config : SupervisorConfig) (around : Surroundings) (supervisor : ChainSupervisor)

def chainHeight : UInt64 := supervisor.state.headData.head.height

def lagRecord (id : String) : LagRecord :=
  ⟨supervisor.lastOver.lookup id,
    (supervisor.headLagUpdates.filter (·.1 == id)).map (·.2)⟩

variable {around}

theorem trackHeadLag_eq (around : Surroundings) (entry : Entry String UpstreamState) :
    let lag := lagBehind supervisor.chainHeight entry.2.headData
    ∃ measured : ChainSupervisor, measured.lags = supervisor.lags ∧
      trackHeadLag config around supervisor entry =
        if config.validateLag && (measured.lagRecord entry.1).isOver !=
            lagExceeds lag config.syncingLag && around.getUpstream entry.1 then
          { measured with
            lastOver := measured.lastOver.insert entry.1 (lagExceeds lag config.syncingLag)
            headLagUpdates := measured.headLagUpdates ++ [(entry.1, lag)] }
        else measured := by
  have same : ∀ dimensions : GoMap String ChainDimensions,
      (if config.hasTracker then { supervisor with dimensions := dimensions }
        else supervisor).lags = supervisor.lags := by
    intro dimensions
    split
    · rfl
    · rfl
  exact ⟨_, same _, rfl⟩

theorem lagRecord_of_lags_eq {first second : ChainSupervisor} (same : first.lags = second.lags)
    (id : String) : first.lagRecord id = second.lagRecord id := by
  rw [lagRecord, lagRecord, show first.lastOver = second.lastOver from congrArg Lags.lastOver same,
    show first.headLagUpdates = second.headLagUpdates from congrArg Lags.headLagUpdates same]

variable {id : String}

theorem lagRecord_trackHeadLag_of_ne {entry : Entry String UpstreamState} (other : entry.1 ≠ id) :
    (trackHeadLag config around supervisor entry).lagRecord id = supervisor.lagRecord id := by
  obtain ⟨measured, same, tracked⟩ := trackHeadLag_eq config supervisor around entry
  rw [tracked, ← lagRecord_of_lags_eq same id]
  split
  · simp [lagRecord, AList.lookup_insert_ne other.symm, other]
  · rfl

section

variable (validates : config.validateLag = true)
include validates

section

variable (found : around.getUpstream id = true)
include found

theorem lagRecord_trackHeadLag (upState : UpstreamState) :
    (trackHeadLag config around supervisor ⟨id, upState⟩).lagRecord id =
      (supervisor.lagRecord id).track config.syncingLag
        (lagBehind supervisor.chainHeight upState.headData) := by
  obtain ⟨measured, same, tracked⟩ := trackHeadLag_eq config supervisor around ⟨id, upState⟩
  rw [tracked, LagRecord.track, ← lagRecord_of_lags_eq same id]
  simp only [validates, found, Bool.true_and, Bool.and_true, bne_iff_ne, ne_eq, ite_not]
  split
  · rfl
  · simp [lagRecord]

theorem lagRecord_calculateHeadLags :
    (calculateHeadLags config around supervisor).lagRecord id =
      (supervisor.upstreamStates.lookup id).elim (supervisor.lagRecord id) fun upState =>
        (supervisor.lagRecord id).track config.syncingLag
          (lagBehind supervisor.chainHeight upState.headData) := by
  let view (supervisor : ChainSupervisor) := (supervisor.chainHeight, supervisor.lagRecord id)
  let change (upState : UpstreamState) (seen : UInt64 × LagRecord) :=
    (seen.1, seen.2.track config.syncingLag (lagBehind seen.1 upState.headData))
  -- the loop does not move the chain's head, so every lag is taken behind the same one
  have height : ∀ (supervisor : ChainSupervisor) (entry : Entry String UpstreamState),
      (trackHeadLag config around supervisor entry).chainHeight = supervisor.chainHeight :=
    fun supervisor entry =>
      congrArg (·.2.1.headData.head.height) (core_trackHeadLag config around supervisor entry)
  have visited := GoMap.view_foldl_visit view change id
    (fun supervisor entry other => Prod.ext (height supervisor entry)
      (lagRecord_trackHeadLag_of_ne config supervisor other))
    (fun supervisor upState => Prod.ext (height supervisor ⟨id, upState⟩)
      (lagRecord_trackHeadLag config supervisor validates found upState))
    around.headLags supervisor.upstreamStates supervisor
  rw [show (calculateHeadLags config around supervisor).lagRecord id = _ from
    congrArg Prod.snd visited]
  cases supervisor.upstreamStates.lookup id with
  | none => rfl
  | some upState => rfl

theorem lagRecord_updateHead (upstreamId : String) (headEvent : HeadUpstreamEvent) :
    let after := updateHead config around supervisor upstreamId headEvent
    after.lagRecord id =
      (after.upstreamStates.lookup id).elim (supervisor.lagRecord id) fun upState =>
        (supervisor.lagRecord id).track config.syncingLag
          (lagBehind after.chainHeight upState.headData) := by
  intro after
  obtain ⟨moved, same, updates⟩ := updateHead_eq config around supervisor upstreamId headEvent
  have height : after.chainHeight = moved.chainHeight := by
    rw [show after = _ from updates]
    exact congrArg (·.2.1.headData.head.height) (core_calculateHeadLags config around moved)
  rw [height, show after = _ from updates, lagRecord_calculateHeadLags config moved validates found,
    upstreamStates_calculateHeadLags, lagRecord_of_lags_eq same]

theorem lagRecord_processEvent_remove {upState : UpstreamState}
    (stored : supervisor.upstreamStates.lookup id = some upState) :
    (supervisor.processEvent config around ⟨id, .removeEvent⟩).lagRecord id =
      ⟨none, (supervisor.lagRecord id).told⟩ := by
  have gone := lookup_processEvent config around supervisor ⟨id, .removeEvent⟩
  simp only [processEvent, stored] at gone ⊢
  rw [lagRecord_updateHead config _ validates found, gone, registered, Option.elim_none,
    lagRecord_of_lags_eq (lags_updateState config around _), lagRecord, AList.lookup_erase]
  rfl

theorem lagRecord_processEvent (event : UpstreamEvent)
    (stays : event.eventType = .removeEvent → id ≠ event.id) :
    let after := supervisor.processEvent config around event
    after.lagRecord id =
      if (supervisor.forwarded event).isSome then
        (after.upstreamStates.lookup id).elim (supervisor.lagRecord id) fun upState =>
          (supervisor.lagRecord id).track config.syncingLag
            (lagBehind after.chainHeight upState.headData)
      else supervisor.lagRecord id := by
  obtain ⟨eventId, eventType⟩ := event
  cases eventType with
  | removeEvent =>
    cases stored : supervisor.upstreamStates.lookup eventId with
    | none => simp [processEvent, forwarded, stored]
    | some upState =>
      simp only [processEvent, forwarded, stored, Option.map_some, Option.isSome_some, if_true]
      rw [lagRecord_updateHead config _ validates found,
        lagRecord_of_lags_eq (lags_updateState config around _), lagRecord,
        AList.lookup_erase_ne (stays rfl)]
      rfl
  | headEvent headEvent =>
    simp only [processEvent, forwarded, Option.isSome_some, if_true]
    rw [lagRecord_updateHead config _ validates found]
    split
    · rfl
    · rfl
  | stateEvent upState =>
    simp only [processEvent, forwarded, Option.isSome_none, Bool.false_eq_true, if_false]
    rw [lagRecord_of_lags_eq (lags_updateState config around _)]
    rfl
  | validEvent state =>
    cases state with
    | none => rfl
    | some upState =>
      by_cases empty : upState.headData.isEmptyByHeight = true
      · simp only [processEvent, forwarded, if_pos empty, Option.isSome_none,
          Bool.false_eq_true, if_false]
        rw [lagRecord_of_lags_eq (lags_updateState config around _)]
        rfl
      · simp only [processEvent, forwarded, if_neg empty, Option.isSome_some, if_true]
        rw [lagRecord_updateHead config _ validates found,
          lagRecord_of_lags_eq (lags_updateState config around _)]
        rfl

end

end

end ChainSupervisor

end Nodecore.Upstreams
