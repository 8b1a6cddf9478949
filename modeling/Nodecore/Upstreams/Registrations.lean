/-
# What an event changes in the supervisor

The supervisor keeps what it knows about an upstream in two places: the state the
upstream is registered with, and its head among the live heads of the fork choice.
Handling an event changes both of them under the id of the event's upstream only.
This module says how, and which of the published changes carry a head.
-/

import Nodecore.Upstreams.ChainSupervisor

namespace Nodecore.Upstreams

open Lib Protocol

namespace ChainSupervisor

variable (config : SupervisorConfig) (around : Surroundings)

/-- What the head-lag loop reads and writes, the chain's head apart. -/
structure Lags where
  upstreamStates : GoMap String UpstreamState
  lastOver : GoMap String Bool
  headLagUpdates : List (String × Int64)

def lags (supervisor : ChainSupervisor) : Lags :=
  ⟨supervisor.upstreamStates, supervisor.lastOver, supervisor.headLagUpdates⟩

variable (wrappers : List ChainSupervisorStateWrapper)

@[simp]
theorem lags_publish (supervisor : ChainSupervisor) :
    (publish wrappers supervisor).lags = supervisor.lags := by
  unfold publish
  split
  · rfl
  · rfl

section

variable (supervisor : ChainSupervisor)
include supervisor

@[simp]
theorem lags_calculateFinalizationLags :
    (calculateFinalizationLags config around supervisor).lags = supervisor.lags := by
  have frame : ∀ (supervisor : ChainSupervisor) (entry : Entry String UpstreamState),
      (trackFinalizationLag supervisor entry).lags = supervisor.lags := fun _ _ => rfl
  unfold calculateFinalizationLags
  split
  · exact run_frame frame supervisor _
  · rfl

@[simp]
theorem lags_updateState : (updateState config around supervisor).lags = supervisor.lags := by
  simp only [updateState, lags_calculateFinalizationLags, lags_publish]
  rfl

@[simp]
theorem upstreamStates_updateState :
    (updateState config around supervisor).upstreamStates = supervisor.upstreamStates :=
  congrArg Lags.upstreamStates (lags_updateState config around supervisor)

@[simp]
theorem upstreamStates_calculateHeadLags :
    (calculateHeadLags config around supervisor).upstreamStates = supervisor.upstreamStates :=
  congrArg (·.2.2.1) (core_calculateHeadLags config around supervisor)

theorem updateHead_eq (upstreamId : String) (headEvent : HeadUpstreamEvent) :
    ∃ moved : ChainSupervisor, moved.lags = supervisor.lags ∧
      updateHead config around supervisor upstreamId headEvent =
        calculateHeadLags config around moved := by
  by_cases empty : headEvent.head.isEmptyByHeight = true
  · refine ⟨_, ?_, congrArg (calculateHeadLags config around) (if_pos empty)⟩
    rfl
  · refine ⟨_, ?_, congrArg (calculateHeadLags config around) (if_neg empty)⟩
    dsimp only
    split
    · exact lags_publish _ _
    · rfl

@[simp]
theorem upstreamStates_updateHead (upstreamId : String) (headEvent : HeadUpstreamEvent) :
    (updateHead config around supervisor upstreamId headEvent).upstreamStates =
      supervisor.upstreamStates := by
  obtain ⟨moved, same, updates⟩ := updateHead_eq config around supervisor upstreamId headEvent
  rw [updates, upstreamStates_calculateHeadLags]
  exact congrArg Lags.upstreamStates same

end

/-- What an upstream is registered with after an event of its own. -/
def registered (stored : Option UpstreamState) : UpstreamEventType → Option UpstreamState
  | .removeEvent => none
  | .headEvent headEvent => stored.map fun upState => { upState with headData := headEvent.head }
  | .stateEvent upState => some upState
  | .validEvent none => stored
  | .validEvent (some upState) => some upState

variable (supervisor : ChainSupervisor) (event : UpstreamEvent)

theorem lookup_processEvent :
    (supervisor.processEvent config around event).upstreamStates.lookup event.id =
      registered (supervisor.upstreamStates.lookup event.id) event.eventType := by
  obtain ⟨id, eventType⟩ := event
  cases eventType with
  | removeEvent | headEvent headEvent =>
    cases stored : supervisor.upstreamStates.lookup id with
    | none | some upState => simp [processEvent, stored, registered]
  | stateEvent upState => simp [processEvent, registered]
  | validEvent state =>
    cases state with
    | none => rfl
    | some upState =>
      simp only [processEvent, registered]
      split <;> simp

variable {id : String}

theorem lookup_processEvent_of_ne (other : id ≠ event.id) :
    (supervisor.processEvent config around event).upstreamStates.lookup id =
      supervisor.upstreamStates.lookup id := by
  obtain ⟨_, eventType⟩ := event
  cases eventType with
  | removeEvent =>
    simp only [processEvent]
    split
    · rfl
    · simp [AList.lookup_erase_ne other]
  | headEvent headEvent =>
    simp only [processEvent, upstreamStates_updateHead]
    split
    · rfl
    · exact AList.lookup_insert_ne other
  | stateEvent upState => simp [processEvent, AList.lookup_insert_ne other]
  | validEvent state =>
    cases state with
    | none => rfl
    | some upState =>
      simp only [processEvent]
      split <;> simp [AList.lookup_insert_ne other]

/-- The live head of an upstream after a head event of its own. -/
def liveHead (live : Option Block) (headEvent : HeadUpstreamEvent) : Option Block :=
  if headEvent.head.isEmptyByHeight then live
  else if headEvent.status = .available then some headEvent.head
  else none

variable (order : RangeOrder (Entry String Block))

theorem Heads.lookup_move (upstreamId : String) (held : Heads) (headEvent : HeadUpstreamEvent) :
    (held.move order upstreamId headEvent).fc.heads.lookup upstreamId =
      liveHead (held.fc.heads.lookup upstreamId) headEvent := by
  unfold Heads.move liveHead
  by_cases empty : headEvent.head.isEmptyByHeight = true
  · rw [if_pos empty, if_pos empty]
  · rw [if_neg empty, if_neg empty, HeightForkChoice.heads_choose order held.fc upstreamId empty]
    split
    · exact AList.lookup_insert _
    · exact AList.lookup_erase _ _

theorem Heads.lookup_move_of_ne {upstreamId id : String} (other : id ≠ upstreamId)
    (held : Heads) (headEvent : HeadUpstreamEvent) :
    (held.move order upstreamId headEvent).fc.heads.lookup id = held.fc.heads.lookup id := by
  unfold Heads.move
  by_cases empty : headEvent.head.isEmptyByHeight = true
  · rw [if_pos empty]
  · rw [if_neg empty, HeightForkChoice.heads_choose order held.fc upstreamId empty]
    split
    · exact AList.lookup_insert_ne other
    · exact AList.lookup_erase_ne other

theorem lookup_heads_processEvent :
    (supervisor.processEvent config around event).fc.heads.lookup event.id =
      (supervisor.forwarded event).elim (supervisor.fc.heads.lookup event.id)
        (liveHead (supervisor.fc.heads.lookup event.id)) := by
  have moved := congrArg Heads.fc (heads_processEvent config around supervisor event)
  show (processEvent config around supervisor event).heads.fc.heads.lookup event.id = _
  rw [moved]
  cases supervisor.forwarded event with
  | none => rfl
  | some headEvent => exact Heads.lookup_move around.heads event.id supervisor.heads headEvent

theorem lookup_heads_processEvent_of_ne (other : id ≠ event.id) :
    (supervisor.processEvent config around event).fc.heads.lookup id =
      supervisor.fc.heads.lookup id := by
  have moved := congrArg Heads.fc (heads_processEvent config around supervisor event)
  show (processEvent config around supervisor event).heads.fc.heads.lookup id = _
  rw [moved]
  cases supervisor.forwarded event with
  | none => rfl
  | some headEvent =>
    exact Heads.lookup_move_of_ne around.heads other supervisor.heads headEvent

/-- Every head published from the first state to the second is the one recorded in the
second, and not empty. -/
def PublishesRecorded (before after : ChainSupervisor) : Prop :=
  ∃ added, after.published = before.published ++ added ∧
    ∀ wrappers ∈ added, ∀ head id, .headWrapper head id ∈ wrappers →
      head.isEmptyByHeight = false ∧ after.state.headData = ⟨head, id⟩

theorem PublishesRecorded.of_published_eq {before after : ChainSupervisor}
    (same : after.published = before.published) : PublishesRecorded before after :=
  ⟨[], by rw [same, List.append_nil], fun _ listed => absurd listed List.not_mem_nil⟩

theorem published_publish :
    (publish wrappers supervisor).published =
      supervisor.published ++ (if wrappers.isEmpty then [] else [wrappers]) := by
  unfold publish
  split
  · exact (List.append_nil _).symm
  · rfl

@[simp]
theorem published_calculateHeadLags :
    (calculateHeadLags config around supervisor).published = supervisor.published := by
  apply run_frame
  intro supervisor entry
  unfold trackHeadLag
  dsimp only
  split_ifs <;> rfl

@[simp]
theorem published_calculateFinalizationLags :
    (calculateFinalizationLags config around supervisor).published = supervisor.published := by
  have frame : ∀ (supervisor : ChainSupervisor) (entry : Entry String UpstreamState),
      (trackFinalizationLag supervisor entry).published = supervisor.published := fun _ _ => rfl
  unfold calculateFinalizationLags
  split
  · exact run_frame frame supervisor _
  · rfl

theorem headWrapper_notMem_compare (ranges : StateRanges) (current new : ChainSupervisorState)
    (head : Block) (id : String) : .headWrapper head id ∉ current.compare ranges new := by
  unfold ChainSupervisorState.compare
  simp only [List.mem_append, not_or]
  refine ⟨⟨⟨⟨⟨⟨?_, ?_⟩, ?_⟩, ?_⟩, ?_⟩, ?_⟩, ?_⟩
  all_goals split_ifs <;> simp

theorem published_updateState :
    ∃ added, (updateState config around supervisor).published = supervisor.published ++ added ∧
      ∀ wrappers ∈ added, ∀ head id, .headWrapper head id ∉ wrappers := by
  refine ⟨_, (published_calculateFinalizationLags config around _).trans
    (published_publish _ _), ?_⟩
  intro wrappers listed head id
  split_ifs at listed
  · cases listed
  · rw [List.mem_singleton] at listed
    rw [listed]
    exact headWrapper_notMem_compare _ _ _ head id

theorem publishesRecorded_publish {after moved : ChainSupervisor} {head : Block}
    (recorded : after.state.headData = ⟨head, id⟩) (same : moved.published = supervisor.published)
    (published : after.published =
      (publish (if head.isEmptyByHeight then [] else [.headWrapper head id]) moved).published) :
    PublishesRecorded supervisor after := by
  by_cases hidden : head.isEmptyByHeight = true
  · apply PublishesRecorded.of_published_eq
    rw [published, if_pos hidden, published_publish, same]
    exact List.append_nil _
  · refine ⟨[[.headWrapper head id]], ?_, ?_⟩
    · rw [published, if_neg hidden, published_publish, same]
      rfl
    · intro wrappers listed head' id' carried
      rw [List.mem_singleton.mp listed, List.mem_singleton] at carried
      cases carried
      exact ⟨Bool.of_not_eq_true hidden, recorded⟩

theorem publishesRecorded_updateHead (upstreamId : String) (headEvent : HeadUpstreamEvent) :
    PublishesRecorded supervisor (updateHead config around supervisor upstreamId headEvent) := by
  have headData := congrArg Heads.headData
    (heads_updateHead config around supervisor upstreamId headEvent)
  by_cases empty : headEvent.head.isEmptyByHeight = true
  · apply PublishesRecorded.of_published_eq
    rw [updateHead, published_calculateHeadLags, if_pos empty]
  · simp only [Heads.move, if_neg empty] at headData
    cases updated : (supervisor.fc.choose around.heads upstreamId headEvent).2.1 with
    | false =>
      apply PublishesRecorded.of_published_eq
      rw [updateHead, published_calculateHeadLags, if_neg empty]
      simp [updated]
    | true =>
      apply publishesRecorded_publish supervisor (headData.trans (if_pos updated))
      rotate_left
      · rw [updateHead, published_calculateHeadLags, if_neg empty]
        exact congrArg ChainSupervisor.published (if_pos updated)
      · rfl

theorem publishesRecorded_processEvent :
    PublishesRecorded supervisor (supervisor.processEvent config around event) := by
  -- merging the states comes first, and none of its wrappers carries a head
  have afterMerge : ∀ (merged : ChainSupervisor) (id : String) (headEvent : HeadUpstreamEvent),
      merged.published = supervisor.published →
      PublishesRecorded supervisor
        (updateHead config around (updateState config around merged) id headEvent) := by
    intro merged id headEvent same
    obtain ⟨first, published, noHead⟩ := published_updateState config around merged
    obtain ⟨second, published', recorded⟩ := publishesRecorded_updateHead config around
      (updateState config around merged) id headEvent
    refine ⟨first ++ second, by rw [published', published, same, List.append_assoc], ?_⟩
    intro wrappers listed head id carried
    rcases List.mem_append.mp listed with merging | moving
    · exact absurd carried (noHead wrappers merging head id)
    · exact recorded wrappers moving head id carried
  have merges : ∀ merged : ChainSupervisor, merged.published = supervisor.published →
      PublishesRecorded supervisor (updateState config around merged) := by
    intro merged same
    obtain ⟨added, published, noHead⟩ := published_updateState config around merged
    refine ⟨added, by rw [published, same], ?_⟩
    exact fun wrappers listed head id carried => absurd carried (noHead wrappers listed head id)
  obtain ⟨id, eventType⟩ := event
  cases eventType with
  | removeEvent =>
    simp only [processEvent]
    split
    · exact .of_published_eq rfl
    · exact afterMerge _ _ _ rfl
  | headEvent headEvent =>
    simp only [processEvent]
    split
    · exact publishesRecorded_updateHead config around supervisor id headEvent
    · exact publishesRecorded_updateHead config around
        { supervisor with upstreamStates := supervisor.upstreamStates.insert id _ } id headEvent
  | stateEvent upState => exact merges _ rfl
  | validEvent state =>
    cases state with
    | none => exact .of_published_eq rfl
    | some upState =>
      simp only [processEvent]
      split
      · exact merges _ rfl
      · exact afterMerge _ _ _ rfl

end ChainSupervisor

end Nodecore.Upstreams
