/-
# The supervisor of a chain

The supervisor handles one upstream event at a time.  It holds the chain's head
twice: in the fork choice, which ranks the live heads, and in the published
state.  `updateHead` carries the first over to the second, except for an empty
head, which never reaches the fork choice but resets the published head.

The main result says when the two copies agree along a whole run: exactly as
long as no step hands `updateHead` an empty head while a head above zero is
live.
-/

import Nodecore.Upstreams.ChainState
import Nodecore.Upstreams.ForkChoice

namespace Nodecore.Upstreams

open Lib Protocol

/-- What the supervisor of a chain is built with. -/
structure SupervisorConfig where
  subChainMethods : GoSet String
  validateLag : Bool
  syncingLag : Int64
  hasTracker : Bool

/-- The lags tracked for one upstream. -/
structure ChainDimensions where
  headLag : UInt64 := 0
  finalizationLag : UInt64 := 0
  deriving DecidableEq, Repr

/-- The supervisor with what it has sent out: the published changes and the lag
updates handed to upstreams, both in order. -/
structure ChainSupervisor where
  fc : HeightForkChoice
  state : ChainSupervisorState
  upstreamStates : GoMap String UpstreamState
  lastOver : GoMap String Bool
  dimensions : GoMap String ChainDimensions
  published : List (List ChainSupervisorStateWrapper)
  headLagUpdates : List (String × Int64)

/-- Everything about one handled event that the environment decides: the orders
of the loops, and which upstreams can be looked up. -/
structure Surroundings where
  heads : RangeOrder (Entry String Block)
  state : StateRanges
  headLags : RangeOrder (Entry String UpstreamState)
  getUpstream : String → Bool

def Surroundings.plain : Surroundings where
  heads := .stored _
  state := .stored
  headLags := .stored _
  getUpstream := fun _ => true

namespace ChainSupervisor

def newGenericChainSupervisor : ChainSupervisor where
  fc := {}
  state :=
    { status := .available
      headData := ⟨zeroBlock, ""⟩
      methods := .newChainMethods []
      blocks := ∅
      lowerBounds := ∅
      chainLabels := []
      subMethods := ∅
      caps := ∅ }
  upstreamStates := ∅
  lastOver := ∅
  dimensions := ∅
  published := []
  headLagUpdates := []

variable (config : SupervisorConfig) (around : Surroundings)

def availableUpstreams (supervisor : ChainSupervisor) : List UpstreamState :=
  ((around.state.available.visit supervisor.upstreamStates.entries).map (·.2)).filter
    fun upState => upState.status == .available

def processUpstreamStatuses (supervisor : ChainSupervisor) : AvailabilityStatus :=
  (around.state.statuses.visit supervisor.upstreamStates.entries).foldl
    (fun status entry =>
      if entry.2.status.toNat < status.toNat then entry.2.status else status)
    .unavailable

/-- The generic subscription method of an EVM chain is replaced by the topics
the capabilities allow to serve locally. -/
def processSubMethods (caps : GoSet Cap) : GoSet String :=
  if caps.contains .wsCap then
    if config.subChainMethods.contains "eth_subscribe" then
      let removed := config.subChainMethods.remove "eth_subscribe"
      let withHeads := if caps.contains .newHeadsCap then removed.add "newHeads" else removed
      let withLogs := if caps.contains .logsCap then withHeads.add "logs" else withHeads
      if caps.contains .pendingTxCap then
        (withLogs.add "newPendingTransactions").add "drpc_pendingTransactions"
      else withLogs
    else config.subChainMethods
  else ∅

def trackFinalizationLag (supervisor : ChainSupervisor) (entry : Entry String UpstreamState) :
    ChainSupervisor :=
  let finalizationLag : UInt64 :=
    match supervisor.state.blocks.lookup .finalizedBlock with
    | none => 0
    | some finalizationBlock =>
      let upFinalized := entry.2.getBlock .finalizedBlock
      if !finalizationBlock.isEmptyByHeight && !upFinalized.isEmptyByHeight &&
          decide (upFinalized.height ≤ finalizationBlock.height) then
        finalizationBlock.height - upFinalized.height
      else 0
  let tracked := (supervisor.dimensions.lookup entry.1).getD {}
  { supervisor with
    dimensions := supervisor.dimensions.insert entry.1
      { tracked with finalizationLag := finalizationLag } }

def calculateFinalizationLags (supervisor : ChainSupervisor) : ChainSupervisor :=
  if config.hasTracker then
    (around.state.finalizationLags.visit supervisor.upstreamStates.entries).foldl
      trackFinalizationLag supervisor
  else supervisor

/-- One turn of the head-lag loop.  An upstream hears of its lag only when it
crosses the syncing threshold. -/
def trackHeadLag (supervisor : ChainSupervisor) (entry : Entry String UpstreamState) :
    ChainSupervisor :=
  let chainHeight := supervisor.state.headData.head.height
  let headLag : UInt64 :=
    if entry.2.headData.height ≤ chainHeight then chainHeight - entry.2.headData.height else 0
  let tracked := (supervisor.dimensions.lookup entry.1).getD {}
  let supervisor :=
    if config.hasTracker then
      { supervisor with
        dimensions := supervisor.dimensions.insert entry.1 { tracked with headLag := headLag } }
    else supervisor
  let lag := headLag.toInt64
  let isOver := lagExceeds lag config.syncingLag
  if config.validateLag && (supervisor.lastOver.lookup entry.1).getD false != isOver &&
      around.getUpstream entry.1 then
    { supervisor with
      lastOver := supervisor.lastOver.insert entry.1 isOver
      headLagUpdates := supervisor.headLagUpdates ++ [(entry.1, lag)] }
  else supervisor

def calculateHeadLags (supervisor : ChainSupervisor) : ChainSupervisor :=
  (around.headLags.visit supervisor.upstreamStates.entries).foldl
    (trackHeadLag config around) supervisor

/-- The wrappers are sent out together, if there are any. -/
def publish (wrappers : List ChainSupervisorStateWrapper) (supervisor : ChainSupervisor) :
    ChainSupervisor :=
  if wrappers.isEmpty then supervisor
  else { supervisor with published := supervisor.published ++ [wrappers] }

def updateHead (supervisor : ChainSupervisor) (upstreamId : String)
    (headEvent : HeadUpstreamEvent) : ChainSupervisor :=
  let moved :=
    if headEvent.head.isEmptyByHeight then
      { supervisor with
        state := { supervisor.state with headData := ⟨zeroBlock, upstreamId⟩ } }
    else
      let (fc, updated, head) := supervisor.fc.choose around.heads upstreamId headEvent
      if updated then
        publish
          (if head.isEmptyByHeight then [] else [.headWrapper head upstreamId])
          { supervisor with
            fc := fc
            state := { supervisor.state with headData := ⟨head, upstreamId⟩ } }
      else { supervisor with fc := fc }
  calculateHeadLags config around moved

def updateState (supervisor : ChainSupervisor) : ChainSupervisor :=
  let available := supervisor.availableUpstreams around
  let caps := processCaps available
  let newState : ChainSupervisorState :=
    { status := supervisor.processUpstreamStatuses around
      headData := supervisor.state.headData
      methods := processUpstreamMethods available
      blocks := processUpstreamBlocks around.state available
      lowerBounds := processLowerBounds around.state available
      chainLabels := processLabels available
      subMethods := processSubMethods config caps
      caps := caps }
  calculateFinalizationLags config around
    (publish (supervisor.state.compare around.state newState)
      { supervisor with state := newState })

/-- One turn of `processEvents`. -/
def processEvent (supervisor : ChainSupervisor) (event : UpstreamEvent) : ChainSupervisor :=
  match event.eventType with
  | .removeEvent =>
    match supervisor.upstreamStates.lookup event.id with
    | none => supervisor
    | some upState =>
      let dropped : ChainSupervisor :=
        { supervisor with
          upstreamStates := supervisor.upstreamStates.erase event.id
          lastOver := supervisor.lastOver.erase event.id }
      updateHead config around (updateState config around dropped) event.id
        ⟨.unavailable, upState.headData⟩
  | .headEvent headEvent =>
    let refreshed : ChainSupervisor :=
      match supervisor.upstreamStates.lookup event.id with
      | none => supervisor
      | some upState =>
        { supervisor with
          upstreamStates :=
            supervisor.upstreamStates.insert event.id
              { upState with headData := headEvent.head } }
    updateHead config around refreshed event.id headEvent
  | .stateEvent upState =>
    updateState config around
      { supervisor with upstreamStates := supervisor.upstreamStates.insert event.id upState }
  | .validEvent none => supervisor
  | .validEvent (some upState) =>
    let registered := updateState config around
      { supervisor with upstreamStates := supervisor.upstreamStates.insert event.id upState }
    if upState.headData.isEmptyByHeight then registered
    else updateHead config around registered event.id ⟨upState.status, upState.headData⟩

/-- The loop over events, each with what the environment decides for it. -/
def step (supervisor : ChainSupervisor) (input : Surroundings × UpstreamEvent) :
    ChainSupervisor := supervisor.processEvent config input.1 input.2

/-- The two places that hold the head.  All a supervisor does but its head events is
invisible in this view. -/
structure Heads where
  fc : HeightForkChoice
  headData : ChainHeadData

def heads (supervisor : ChainSupervisor) : Heads := ⟨supervisor.fc, supervisor.state.headData⟩

/-- The effect of one head event on the two copies. -/
def Heads.move (order : RangeOrder (Entry String Block)) (upstreamId : String)
    (held : Heads) (headEvent : HeadUpstreamEvent) : Heads :=
  if headEvent.head.isEmptyByHeight then ⟨held.fc, zeroBlock, upstreamId⟩
  else
    let choice := held.fc.choose order upstreamId headEvent
    ⟨choice.1, if choice.2.1 then ⟨choice.2.2, upstreamId⟩ else held.headData⟩

/-- The head event that handling an upstream event hands to `updateHead`. -/
def forwarded (supervisor : ChainSupervisor) (event : UpstreamEvent) : Option HeadUpstreamEvent :=
  match event.eventType with
  | .removeEvent =>
    (supervisor.upstreamStates.lookup event.id).map fun upState =>
      ⟨.unavailable, upState.headData⟩
  | .headEvent headEvent => some headEvent
  | .stateEvent _ => none
  | .validEvent none => none
  | .validEvent (some upState) =>
    if upState.headData.isEmptyByHeight then none
    else some ⟨upState.status, upState.headData⟩

variable (supervisor : ChainSupervisor)

@[simp]
theorem heads_publish (wrappers : List ChainSupervisorStateWrapper) :
    (publish wrappers supervisor).heads = supervisor.heads := by
  unfold publish
  split <;> rfl

/-- What the tracking of lags leaves alone. -/
def core (supervisor : ChainSupervisor) :
    HeightForkChoice × ChainSupervisorState × GoMap String UpstreamState ×
      List (List ChainSupervisorStateWrapper) :=
  (supervisor.fc, supervisor.state, supervisor.upstreamStates, supervisor.published)

theorem core_trackHeadLag (entry : Entry String UpstreamState) :
    (trackHeadLag config around supervisor entry).core = supervisor.core := by
  unfold trackHeadLag
  dsimp only
  split_ifs <;> rfl

theorem core_calculateHeadLags :
    (calculateHeadLags config around supervisor).core = supervisor.core :=
  run_frame (core_trackHeadLag config around) supervisor _

theorem core_calculateFinalizationLags :
    (calculateFinalizationLags config around supervisor).core = supervisor.core := by
  unfold calculateFinalizationLags
  split
  · exact @run_frame _ _ trackFinalizationLag _ core (fun _ _ => rfl) supervisor _
  · rfl

theorem heads_of_core {supervisor other : ChainSupervisor} (same : supervisor.core = other.core) :
    supervisor.heads = other.heads := by
  simp only [core, Prod.mk.injEq] at same
  simp only [heads, same.1, same.2.1]

@[simp]
theorem heads_updateState : (updateState config around supervisor).heads = supervisor.heads := by
  rw [updateState, heads_of_core (core_calculateFinalizationLags config around _), heads_publish]
  rfl

@[simp]
theorem heads_updateHead (upstreamId : String) (headEvent : HeadUpstreamEvent) :
    (updateHead config around supervisor upstreamId headEvent).heads =
      supervisor.heads.move around.heads upstreamId headEvent := by
  simp only [updateHead, Heads.move, heads_of_core (core_calculateHeadLags config around _)]
  by_cases empty : headEvent.head.isEmptyByHeight = true
  · simp only [empty, if_true]
    rfl
  · simp only [empty, Bool.false_eq_true, if_false]
    cases updated : (supervisor.fc.choose around.heads upstreamId headEvent).2.1
    case true =>
        simp only [heads, updated, if_true]
        exact heads_publish _ _
    case false => simp [heads, updated]

theorem heads_processEvent (event : UpstreamEvent) :
    (supervisor.processEvent config around event).heads =
      (supervisor.forwarded event).elim supervisor.heads
        (supervisor.heads.move around.heads event.id) := by
  obtain ⟨id, eventType⟩ := event
  cases eventType with
  | removeEvent =>
    cases stored : supervisor.upstreamStates.lookup id with
    | none => simp only [processEvent, forwarded, stored, Option.map_none, Option.elim_none]
    | some upState =>
      simp only [processEvent, forwarded, stored, heads_updateHead, heads_updateState]
      rfl
  | headEvent headEvent =>
    cases stored : supervisor.upstreamStates.lookup id with
    | none => simp only [processEvent, forwarded, stored, heads_updateHead, Option.elim_some]
    | some upState =>
      simp only [processEvent, forwarded, stored, heads_updateHead]
      rfl
  | stateEvent upState => exact heads_updateState config around _
  | validEvent state =>
    cases state with
    | none => rfl
    | some upState =>
      simp only [processEvent, forwarded]
      split
      · exact heads_updateState config around _
      · simp only [heads_updateHead, heads_updateState]
        rfl

/-- The published head has the greatest live height. -/
def HeadAgrees (supervisor : ChainSupervisor) : Prop :=
  supervisor.state.headData.head.rank = supervisor.fc.liveMaxHeight

/-- An empty head is forwarded only while no head above zero is live. -/
def EmptyHeadHarmless (supervisor : ChainSupervisor) (input : Surroundings × UpstreamEvent) :
    Prop :=
  ∀ headEvent ∈ supervisor.forwarded input.2, headEvent.head.isEmptyByHeight →
    supervisor.fc.liveMaxHeight = 0

variable (order : RangeOrder (Entry String Block))

theorem Heads.tracks_move (upstreamId : String) {held : Heads}
    (tracks : held.fc.Tracks) (headEvent : HeadUpstreamEvent) :
    (held.move order upstreamId headEvent).fc.Tracks := by
  unfold Heads.move
  split
  · exact tracks
  · exact HeightForkChoice.tracks_choose order tracks upstreamId headEvent

/-- A head that is not empty carries the agreement over: the published copy
either follows the reported head, or neither copy moved. -/
theorem Heads.agree_move (upstreamId : String) (held : Heads) (tracks : held.fc.Tracks)
    (agree : held.headData.head.rank = held.fc.liveMaxHeight) {headEvent : HeadUpstreamEvent}
    (nonempty : ¬ headEvent.head.isEmptyByHeight) :
    (held.move order upstreamId headEvent).headData.head.rank =
      (held.move order upstreamId headEvent).fc.liveMaxHeight := by
  have tracksAfter := HeightForkChoice.tracks_choose order tracks upstreamId headEvent
  obtain ⟨reported, unmoved⟩ := HeightForkChoice.choose_report order held.fc upstreamId headEvent
  simp only [Heads.move, if_neg nonempty]
  split
  case isTrue => exact reported ▸ tracksAfter
  case isFalse notUpdated =>
      have sameMax := unmoved (by simpa using notUpdated)
      calc held.headData.head.rank = held.fc.max.rank := agree.trans tracks.symm
        _ = (held.fc.choose order upstreamId headEvent).1.max.rank := by rw [sameMax]
        _ = _ := tracksAfter

variable (input : Surroundings × UpstreamEvent)

theorem tracks_step (tracks : supervisor.fc.Tracks) : (step config supervisor input).fc.Tracks := by
  have moved := heads_processEvent config input.1 supervisor input.2
  show (step config supervisor input).heads.fc.Tracks
  rw [step, moved]
  cases supervisor.forwarded input.2 with
  | none => exact tracks
  | some headEvent => exact Heads.tracks_move input.1.heads input.2.id tracks headEvent

/-- One step keeps the agreement exactly when no empty head displaces a live
head above zero. -/
theorem headAgrees_step_iff (tracks : supervisor.fc.Tracks) (agrees : supervisor.HeadAgrees) :
    (step config supervisor input).HeadAgrees ↔ supervisor.EmptyHeadHarmless input := by
  have moved := heads_processEvent config input.1 supervisor input.2
  show (step config supervisor input).heads.headData.head.rank =
    (step config supervisor input).heads.fc.liveMaxHeight ↔ _
  rw [step, moved]
  cases forwards : supervisor.forwarded input.2 with
  | none =>
    constructor
    · intro _ headEvent hmem
      simp [forwards] at hmem
    · exact fun _ => agrees
  | some headEvent =>
    by_cases empty : headEvent.head.isEmptyByHeight = true
    · simp only [EmptyHeadHarmless, forwards, Option.elim_some, Heads.move, empty, if_true,
        Option.mem_def, Option.some.injEq, forall_eq', forall_const, Block.rank_zeroBlock]
      exact eq_comm
    · have kept := Heads.agree_move input.1.heads input.2.id supervisor.heads
        tracks agrees empty
      simpa [EmptyHeadHarmless, forwards, empty] using kept

theorem headAgrees_initial : HeadAgrees newGenericChainSupervisor := rfl

/-- Along every run from a fresh supervisor the published head has the greatest
live height after each event, exactly when each event that forwards an empty
head does so while no head above zero is live. -/
theorem headAgrees_afterEach_iff (inputs : List (Surroundings × UpstreamEvent)) :
    AfterEach (step config) HeadAgrees newGenericChainSupervisor inputs ↔
      EachStep (step config) EmptyHeadHarmless newGenericChainSupervisor inputs :=
  afterEach_iff_eachStep (tracks_step config) (headAgrees_step_iff config)
    HeightForkChoice.tracks_initial headAgrees_initial inputs

/-- Removing an upstream that never reported a head resets the chain's head,
although another upstream holds a live head of height 100. -/
theorem removal_without_head_resets_head :
    let config : SupervisorConfig := ⟨∅, false, 0, false⟩
    let silent := defaultUpstreamState ⟨∅⟩ ∅ "01" none none
    let final := run (step config) newGenericChainSupervisor
      [(.plain, ⟨"silent", .stateEvent silent⟩),
       (.plain, ⟨"ahead", .headEvent ⟨.available, { height := 100 }⟩⟩),
       (.plain, ⟨"silent", .removeEvent⟩)]
    final.state.headData.head.height = 0 ∧ final.fc.liveMaxHeight = 100 := by
  decide

end ChainSupervisor

end Nodecore.Upstreams
