/-
# The status of a chain, streamed

A client of `SubscribeChainStatus` is sent the whole state of a chain once the
chain has a head, then the changes as the supervisor publishes them, and from
time to time the whole state again.  The state is read while changes wait in the
queue, so a client receives news older than what it knows already.

A client keeps the last thing it was told about each field.  The result says
that nothing is lost or undone by this: at every moment of every interleaving
what the client was sent, followed by what is still pending, gives the current
state.
-/

import Mathlib.Data.Set.Basic
import Nodecore.Lib.Replica
import Nodecore.Upstreams.ChainSupervisor

namespace Nodecore.Emerald

open Lib Protocol Upstreams ChainSupervisor

/-- What a client is told about, apart from the head. -/
inductive Field
  | status
  | methods
  | blocks
  | lowerBounds
  | labels
  | subMethods

/-- What is known of a field.  Lists stand for sets here, since the order of a slice
taken from a map means nothing; of a block only the height is sent. -/
def Field.Value : Field → Type
  | .status => AvailabilityStatus
  | .methods => Set String
  | .blocks => BlockType → Option UInt64
  | .lowerBounds => Set LowerBoundData
  | .labels => Set (ℕ × (String → Option String))
  | .subMethods => Set String

def blockHeights (blocks : GoMap BlockType Block) (type : BlockType) : Option UInt64 :=
  (blocks.lookup type).map Block.height

/-- A label set by what it says of each name. -/
def readLabels (item : AggregatedLabels) (name : String) : Option String :=
  item.labels.lookup name

def countedLabels (item : AggregatedLabels) : ℕ × (String → Option String) :=
  (item.amount, readLabels item)

/-- What a client reads from an event.  Capabilities have no event of their own. -/
def tells : ChainSupervisorStateWrapper → (field : Field) → Option field.Value
  | .statusWrapper status, .status => some status
  | .methodsWrapper methods, .methods => some {method | method ∈ methods}
  | .blocksWrapper blocks, .blocks => some (blockHeights blocks)
  | .lowerBoundsWrapper lowerBounds, .lowerBounds => some {bound | bound ∈ lowerBounds}
  | .labelsWrapper labels, .labels => some {item | item ∈ labels.map countedLabels}
  | .subMethodsWrapper subMethods, .subMethods => some {method | method ∈ subMethods}
  | _, _ => none

/-- The same read from the state of the chain. -/
def current (state : ChainSupervisorState) : (field : Field) → field.Value
  | .status => state.status
  | .methods => {method | method ∈ state.methods.availableMethods}
  | .blocks => blockHeights state.blocks
  | .lowerBounds => {bound | bound ∈ GoMap.values state.lowerBounds}
  | .labels => {item | item ∈ state.chainLabels.map countedLabels}
  | .subMethods => {method | method ∈ state.subMethods}

def snapshotStateWrappers (ranges : StateRanges) (state : ChainSupervisorState) :
    List ChainSupervisorStateWrapper :=
  [.statusWrapper state.status,
    .methodsWrapper (state.methods.availableMethods.toSlice ranges.names),
    .lowerBoundsWrapper (ranges.bounds.visit (GoMap.values state.lowerBounds)),
    .blocksWrapper state.blocks,
    .subMethodsWrapper (state.subMethods.toSlice ranges.names),
    .labelsWrapper state.chainLabels]

def toFullResponse (ranges : StateRanges) (state : ChainSupervisorState) :
    List ChainSupervisorStateWrapper :=
  [.statusWrapper state.status,
    .methodsWrapper (state.methods.availableMethods.toSlice ranges.names),
    .lowerBoundsWrapper (ranges.bounds.visit (GoMap.values state.lowerBounds)),
    .headWrapper state.headData.head state.headData.upstreamId,
    .blocksWrapper state.blocks,
    .subMethodsWrapper (state.subMethods.toSlice ranges.names),
    .labelsWrapper state.chainLabels]

/-- One thing the goroutine of the supervisor does.  An upstream event makes it do
several of them, and the stream may read the state between any two. -/
inductive Change
  | notes (upstreamStates : GoMap String UpstreamState) (lastOver : GoMap String Bool)
  | updatesHead (around : Surroundings) (upstreamId : String) (headEvent : HeadUpstreamEvent)
  | updatesState (around : Surroundings)

variable (config : SupervisorConfig)

def change (supervisor : ChainSupervisor) : Change → ChainSupervisor
  | .notes upstreamStates lastOver =>
    { supervisor with upstreamStates := upstreamStates, lastOver := lastOver }
  | .updatesHead around upstreamId headEvent =>
    supervisor.updateHead config around upstreamId headEvent
  | .updatesState around => supervisor.updateState config around

/-- The goroutine that serves one chain to one client.  The events it has not received
are those published after the first `received`: one that is stored but not yet sent
is one it does not receive yet. -/
structure ChainStatus where
  supervisor : ChainSupervisor
  received : ℕ
  event : Option (List ChainSupervisorStateWrapper) := none
  fullSent : Bool := false
  responses : List (List ChainSupervisorStateWrapper) := []

/-- What was published and is not in a response yet. -/
def ChainStatus.pending (stream : ChainStatus) : List (List ChainSupervisorStateWrapper) :=
  stream.event.toList ++ stream.supervisor.published.drop stream.received

def sendFull (ranges : StateRanges) (stream : ChainStatus) : ChainStatus :=
  if stream.supervisor.state.headData.isEmpty then stream
  else
    { stream with
      fullSent := true
      responses := stream.responses ++ [toFullResponse ranges stream.supervisor.state] }

/-- The stream when its goroutine has looked at the state for the first time.  The
subscription is older, so events may be waiting already. -/
def subscribeChainSupervisorStates (ranges : StateRanges) (supervisor : ChainSupervisor)
    (received : ℕ) : ChainStatus :=
  sendFull ranges { supervisor := supervisor, received := received }

inductive ChainStatus.Action
  | changes (made : Change)
  | receives
  | handles (ranges : StateRanges)
  | resyncs (ranges : StateRanges)

namespace ChainStatus

/-- Receiving an event and looking at the state for it are two steps. -/
def step (stream : ChainStatus) : Action → ChainStatus
  | .changes made => { stream with supervisor := change config stream.supervisor made }
  | .receives =>
    match stream.event, stream.supervisor.published[stream.received]? with
    | none, some wrappers =>
      { stream with event := some wrappers, received := stream.received + 1 }
    | _, _ => stream
  | .handles ranges =>
    match stream.event with
    | none => stream
    | some wrappers =>
      let taken := { stream with event := none }
      if wrappers.isEmpty then taken
      else if stream.fullSent then { taken with responses := stream.responses ++ [wrappers] }
      else sendFull ranges taken
  | .resyncs ranges =>
    if stream.event.isNone && stream.fullSent then
      { stream with
        responses :=
          stream.responses ++ [snapshotStateWrappers ranges stream.supervisor.state] }
    else stream

end ChainStatus

def Distinct (labels : List AggregatedLabels) : Prop := (labels.map readLabels).Nodup

theorem equalFunc_labels_iff (item other : AggregatedLabels) :
    GoMap.equalFunc (· == ·) item.labels other.labels = true ↔
      readLabels item = readLabels other :=
  (GoMap.equalFunc_beq_iff _ _).trans funext_iff.symm

theorem map_addLabels (item : AggregatedLabels) (allLabels : List AggregatedLabels) :
    (addLabels item.labels allLabels).map readLabels = allLabels.map readLabels ∨
      readLabels item ∉ allLabels.map readLabels ∧
        (addLabels item.labels allLabels).map readLabels =
          allLabels.map readLabels ++ [readLabels item] := by
  induction allLabels with
  | nil => exact .inr ⟨List.not_mem_nil, rfl⟩
  | cons first allLabels ih =>
    rw [addLabels]
    split_ifs with same
    · exact .inl rfl
    · rw [equalFunc_labels_iff] at same
      simp only [List.map_cons, List.mem_cons, List.cons_append, List.cons.injEq, true_and]
      exact ih.imp id fun added => ⟨not_or.mpr ⟨same, added.1⟩, added.2⟩

theorem distinct_processLabels (availableUpstreams : List UpstreamState) :
    Distinct (processLabels availableUpstreams) := by
  refine run_induction (fun allLabels upState distinct => ?_)
    (show Distinct [] from List.nodup_nil) availableUpstreams
  split_ifs
  · exact distinct
  · unfold Distinct
    rcases map_addLabels ⟨0, upState.labels⟩ allLabels with same | ⟨isNew, added⟩
    · rw [same]
      exact distinct
    · rw [added]
      exact List.concat_eq_append ▸ List.Nodup.concat isNew distinct

theorem nodup_countedLabels {labels : List AggregatedLabels} (distinct : Distinct labels) :
    (labels.map countedLabels).Nodup :=
  List.Nodup.of_map Prod.snd (by simpa [Distinct, Function.comp_def, countedLabels] using distinct)

theorem mem_countedLabels_of_compare {labels others : List AggregatedLabels}
    (distinct : Distinct labels) (same : compareAggregatedLabels labels others = true)
    (item : ℕ × (String → Option String)) :
    item ∈ labels.map countedLabels ↔ item ∈ others.map countedLabels := by
  simp only [compareAggregatedLabels, Bool.and_eq_true, beq_iff_eq, List.all_eq_true,
    List.any_eq_true] at same
  obtain ⟨sameLength, found⟩ := same
  have included : labels.map countedLabels ⊆ others.map countedLabels := by
    intro item listed
    obtain ⟨label, there, rfl⟩ := List.mem_map.mp listed
    obtain ⟨other, there', equal⟩ := found label there
    rw [AggregatedLabels.equals, Bool.and_eq_true, beq_iff_eq, equalFunc_labels_iff] at equal
    exact List.mem_map.mpr ⟨other, there', Prod.ext equal.1 equal.2⟩
  exact ((List.subperm_of_subset (nodup_countedLabels distinct) included).perm_of_length_le
    (by simp [sameLength])).mem_iff

theorem members_visit {α : Type*} (order : RangeOrder α) (items : List α) :
    {item | item ∈ order.visit items} = {item | item ∈ items} :=
  Set.ext fun item => order.mem_visit items item

theorem members_toSlice (order : RangeOrder String) (names : GoSet String) :
    {name | name ∈ names.toSlice order} = {name | name ∈ names} := members_visit order names.keys

section Told

variable {copy : (field : Field) → field.Value} {same : Prop} [Decidable same]
  {wrapper : ChainSupervisorStateWrapper} {field : Field}

theorem overwriteAll_silent (silent : tells wrapper field = none) :
    overwriteAll tells copy (if same then [] else [wrapper]) field = copy field := by
  split_ifs
  · rfl
  · simp [overwriteAll, overwrite, silent]

theorem overwriteAll_told {value : field.Value} (told : tells wrapper field = some value)
    (unchanged : same → copy field = value) :
    overwriteAll tells copy (if same then [] else [wrapper]) field = value := by
  split_ifs with holds
  · exact unchanged holds
  · simp [overwriteAll, overwrite, told]

end Told

variable (ranges : StateRanges)

/-- A client that knows the old state and receives what `compare` lists knows the new one. -/
theorem overwriteAll_compare {state new : ChainSupervisorState}
    (distinct : Distinct state.chainLabels) :
    overwriteAll tells (current state) (state.compare ranges new) = current new := by
  funext field
  rw [ChainSupervisorState.compare, ite_not]
  simp only [overwriteAll_append]
  -- what is listed after the field's own entry says nothing of it
  cases field <;> repeat rw [overwriteAll_silent rfl]
  case status => exact overwriteAll_told rfl id
  case methods =>
    refine overwriteAll_told (congrArg some (members_toSlice ranges.names _)) fun same => ?_
    repeat rw [overwriteAll_silent rfl]
    exact Set.ext ((GoSet.equal_iff _ _).mp same)
  case blocks =>
    refine overwriteAll_told rfl fun same => ?_
    repeat rw [overwriteAll_silent rfl]
    refine funext fun type => GoMap.lookup_of_equalFunc Block.height ?_ same type
    intro block other equal
    simp only [Block.equals, Bool.and_eq_true, beq_iff_eq] at equal
    exact equal.1.1.1
  case lowerBounds =>
    refine overwriteAll_told (congrArg some (members_visit ranges.bounds _)) fun same => ?_
    repeat rw [overwriteAll_silent rfl]
    refine Set.ext fun bound => ?_
    simp [current, GoMap.mem_values_iff, (GoMap.equalFunc_beq_iff _ _).mp same]
  case labels =>
    refine overwriteAll_told rfl fun same => ?_
    repeat rw [overwriteAll_silent rfl]
    exact Set.ext (mem_countedLabels_of_compare distinct same)
  case subMethods =>
    refine overwriteAll_told (congrArg some (members_toSlice ranges.names _)) fun same => ?_
    repeat rw [overwriteAll_silent rfl]
    exact Set.ext ((GoSet.equal_iff _ _).mp same)

variable (state : ChainSupervisorState)

theorem overwriteAll_snapshotStateWrappers (copy : (field : Field) → field.Value) :
    overwriteAll tells copy (snapshotStateWrappers ranges state) = current state := by
  funext field
  cases field
  case methods => exact members_toSlice ranges.names _
  case lowerBounds => exact members_visit ranges.bounds _
  case subMethods => exact members_toSlice ranges.names _
  all_goals rfl

theorem overwriteAll_toFullResponse (copy : (field : Field) → field.Value) :
    overwriteAll tells copy (toFullResponse ranges state) = current state := by
  rw [← overwriteAll_snapshotStateWrappers ranges state copy]
  funext field
  cases field <;> rfl

theorem current_withHead (headData : ChainHeadData) :
    current { state with headData := headData } = current state := by
  funext field
  cases field <;> rfl

/-- The supervisor goes on and sends what tells a client of it, if anything. -/
def Tells (supervisor next : ChainSupervisor) : Prop :=
  Distinct next.state.chainLabels ∧
    ∃ news, next.published = supervisor.published ++ news ∧
      overwriteAll tells (current supervisor.state) news.flatten = current next.state

variable {wrappers : List ChainSupervisorStateWrapper}

theorem tells_publish {supervisor next : ChainSupervisor}
    (distinct : Distinct next.state.chainLabels)
    (unpublished : next.published = supervisor.published)
    (told : overwriteAll tells (current supervisor.state) wrappers = current next.state) :
    Tells supervisor (publish wrappers next) := by
  unfold publish
  split_ifs with nothing
  · rw [List.isEmpty_iff.mp nothing] at told
    exact ⟨distinct, [], by rw [unpublished, List.append_nil], told⟩
  · exact ⟨distinct, [wrappers], by rw [unpublished], by simpa using told⟩

theorem Tells.of_core {supervisor next later : ChainSupervisor} (told : Tells supervisor next)
    (same : later.core = next.core) : Tells supervisor later := by
  simp only [core, Prod.mk.injEq] at same
  rw [Tells, same.2.1, same.2.2.2]
  exact told

variable {supervisor : ChainSupervisor}

theorem tells_change (distinct : Distinct supervisor.state.chainLabels) (made : Change) :
    Tells supervisor (change config supervisor made) := by
  cases made with
  | notes upstreamStates lastOver => exact ⟨distinct, [], (List.append_nil _).symm, rfl⟩
  | updatesState around =>
    refine Tells.of_core ?_ (core_calculateFinalizationLags config around _)
    exact tells_publish (distinct_processLabels _) rfl (overwriteAll_compare around.state distinct)
  | updatesHead around upstreamId headEvent =>
    refine Tells.of_core ?_ (core_calculateHeadLags config around _)
    have head (headData : ChainHeadData) := (current_withHead supervisor.state headData).symm
    dsimp only
    split_ifs
    · exact ⟨distinct, [], (List.append_nil _).symm, head _⟩
    · exact tells_publish distinct rfl (head _)
    · refine tells_publish distinct rfl (.trans ?_ (head _))
      funext field
      cases field <;> rfl
    · exact ⟨distinct, [], (List.append_nil _).symm, rfl⟩

/-- What the supervisor ever sent does not take back anything of its state. -/
def Announced (supervisor : ChainSupervisor) : Prop :=
  Distinct supervisor.state.chainLabels ∧
    UpToDate tells supervisor.published.flatten (current supervisor.state)

theorem announced_change (supervisor : ChainSupervisor) (made : Change)
    (announced : Announced supervisor) : Announced (change config supervisor made) := by
  obtain ⟨distinct, news, published, told⟩ := tells_change config announced.1 made
  refine ⟨distinct, ?_⟩
  rw [published, List.flatten_append]
  exact announced.2.append told

theorem Announced.drop (announced : Announced supervisor) (received : ℕ) :
    UpToDate tells (supervisor.published.drop received).flatten (current supervisor.state) := by
  have upToDate := announced.2
  rw [← List.take_append_drop received supervisor.published, List.flatten_append] at upToDate
  exact upToDate.right

theorem exists_processEvent_eq_run (around : Surroundings) (supervisor : ChainSupervisor)
    (event : UpstreamEvent) :
    ∃ changes, supervisor.processEvent config around event =
      run (change config) supervisor changes := by
  obtain ⟨id, eventType⟩ := event
  cases eventType with
  | removeEvent =>
    cases stored : supervisor.upstreamStates.lookup id with
    | none => exact ⟨[], by simp only [processEvent, stored, run_nil]⟩
    | some upState =>
      refine ⟨[.notes (supervisor.upstreamStates.erase id) (supervisor.lastOver.erase id),
        .updatesState around, .updatesHead around id ⟨.unavailable, upState.headData⟩], ?_⟩
      simp only [processEvent, stored]
      rfl
  | headEvent headEvent =>
    cases stored : supervisor.upstreamStates.lookup id with
    | none =>
      refine ⟨[.updatesHead around id headEvent], ?_⟩
      simp only [processEvent, stored]
      rfl
    | some upState =>
      refine ⟨[.notes (supervisor.upstreamStates.insert id
        { upState with headData := headEvent.head }) supervisor.lastOver,
        .updatesHead around id headEvent], ?_⟩
      simp only [processEvent, stored]
      rfl
  | stateEvent upState =>
    exact ⟨[.notes (supervisor.upstreamStates.insert id upState) supervisor.lastOver,
      .updatesState around], rfl⟩
  | validEvent state =>
    cases state with
    | none => exact ⟨[], rfl⟩
    | some upState =>
      simp only [processEvent]
      split_ifs
      · exact ⟨[.notes (supervisor.upstreamStates.insert id upState) supervisor.lastOver,
          .updatesState around], rfl⟩
      · exact ⟨[.notes (supervisor.upstreamStates.insert id upState) supervisor.lastOver,
          .updatesState around, .updatesHead around id ⟨upState.status, upState.headData⟩], rfl⟩

namespace ChainStatus

/-- What holds of a stream at all times: whatever the client knew before, the responses
and what is pending make it the current state. -/
structure InStep (stream : ChainStatus) : Prop where
  distinct : Distinct stream.supervisor.state.chainLabels
  upToDate : UpToDate tells (stream.supervisor.published.drop stream.received).flatten
    (current stream.supervisor.state)
  bounded : stream.received ≤ stream.supervisor.published.length
  held : stream.fullSent = true → ∀ copy,
    overwriteAll tells copy (stream.responses ++ stream.pending).flatten =
      current stream.supervisor.state

variable {stream : ChainStatus}

theorem held_of_snapshot (waiting : stream.event = none)
    (upToDate : UpToDate tells (stream.supervisor.published.drop stream.received).flatten
      (current stream.supervisor.state))
    (whole : ∀ copy, overwriteAll tells copy wrappers = current stream.supervisor.state)
    (copy : (field : Field) → field.Value) :
    overwriteAll tells copy (stream.responses ++ [wrappers] ++ stream.pending).flatten =
      current stream.supervisor.state := by
  rw [pending, waiting, Option.toList_none, List.nil_append, List.flatten_append,
    List.flatten_append, List.flatten_singleton, overwriteAll_append, overwriteAll_append, whole]
  exact upToDate

theorem InStep.sendFull {ranges : StateRanges} (waiting : stream.event = none)
    (inStep : InStep stream) : InStep (sendFull ranges stream) := by
  unfold Emerald.sendFull
  split_ifs
  · exact inStep
  · refine { inStep with held := fun _ => ?_ }
    exact held_of_snapshot waiting inStep.upToDate (overwriteAll_toFullResponse ranges _)

theorem InStep.after (inStep : InStep stream) (action : Action) :
    InStep (stream.step config action) := by
  cases action with
  | changes made =>
    obtain ⟨distinct, news, published, told⟩ := tells_change config inStep.distinct made
    have left : (change config stream.supervisor made).published.drop stream.received =
        stream.supervisor.published.drop stream.received ++ news := by
      rw [published, List.drop_append_of_le_length inStep.bounded]
    refine ⟨distinct, ?_, ?_, fun sent copy => ?_⟩
    · simp only [step, left, List.flatten_append]
      exact inStep.upToDate.append told
    · simp only [step, published, List.length_append]
      exact Nat.le_add_right_of_le inStep.bounded
    · have before := inStep.held sent copy
      simp only [step, pending, left, ← List.append_assoc] at before ⊢
      rw [List.flatten_append, overwriteAll_append, before, told]
  | receives =>
    simp only [step]
    split
    · rename_i wrappers waiting next
      obtain ⟨within, isNext⟩ := List.getElem?_eq_some_iff.mp next
      have left := List.drop_eq_getElem_cons within
      rw [isNext] at left
      refine ⟨inStep.distinct, ?_, within, fun sent copy => ?_⟩
      · have upToDate := inStep.upToDate
        rw [left, List.flatten_cons] at upToDate
        exact upToDate.right
      · have before := inStep.held sent copy
        rw [pending, waiting, left] at before
        exact before
    · exact inStep
  | handles ranges =>
    simp only [step]
    split
    · exact inStep
    · rename_i wrappers taken
      have given (sent : stream.fullSent = true) (copy : (field : Field) → field.Value) :
          overwriteAll tells copy (stream.responses ++ [wrappers] ++
            stream.supervisor.published.drop stream.received).flatten =
              current stream.supervisor.state := by
        have before := inStep.held sent copy
        rw [pending, taken, ← List.append_assoc] at before
        exact before
      split_ifs with nothing sent
      · refine { inStep with held := fun sent copy => ?_ }
        have before := given sent copy
        rw [List.isEmpty_iff.mp nothing, List.append_assoc] at before
        simpa [pending] using before
      · exact { inStep with held := fun _ => given sent }
      · refine InStep.sendFull rfl { inStep with held := fun sent' => absurd sent' sent }
  | resyncs ranges =>
    simp only [step]
    split_ifs with sending
    · rw [Bool.and_eq_true, Option.isNone_iff_eq_none] at sending
      refine { inStep with held := fun _ => ?_ }
      exact held_of_snapshot sending.1 inStep.upToDate
        (overwriteAll_snapshotStateWrappers ranges _)
    · exact inStep

end ChainStatus

/-- Whenever the first response has been sent, at any point of any interleaving, the
responses and the events that are pending lead a client to the current state of the
chain; with nothing pending the responses alone do. -/
theorem chainStatus_leads_to_current (before : List Change) (received : ℕ)
    (subscribed : received ≤ (run (change config) .newGenericChainSupervisor before).published.length)
    (ranges : StateRanges) (actions : List ChainStatus.Action)
    (copy : (field : Field) → field.Value) :
    let stream := run (ChainStatus.step config)
      (subscribeChainSupervisorStates ranges
        (run (change config) .newGenericChainSupervisor before) received) actions
    stream.fullSent = true →
      overwriteAll tells copy (stream.responses ++ stream.pending).flatten =
        current stream.supervisor.state ∧
      (stream.pending = [] →
        overwriteAll tells copy stream.responses.flatten = current stream.supervisor.state) := by
  intro stream sent
  have announced := run_induction (announced_change config)
    (show Announced .newGenericChainSupervisor from ⟨List.nodup_nil, rfl⟩) before
  have inStep : stream.InStep := by
    refine run_induction (fun _ action inStep => inStep.after config action) ?_ actions
    exact ChainStatus.InStep.sendFull rfl
      ⟨announced.1, announced.drop received, subscribed, fun sent => absurd sent Bool.false_ne_true⟩
  have held := inStep.held sent copy
  refine ⟨held, fun drained => ?_⟩
  rw [drained, List.append_nil] at held
  exact held

/-- A chain without a head when the stream starts: the first event brings the head and
the full response, the status changes before it is sent, and a resync overtakes the
event of that change. -/
def overtaken : ChainStatus :=
  run (ChainStatus.step ⟨∅, false, 0, false⟩)
    (subscribeChainSupervisorStates .stored .newGenericChainSupervisor 0)
    [.changes (.updatesHead .plain "a" ⟨.available, { height := 5 }⟩), .receives,
      .changes (.updatesState .plain), .handles .stored, .resyncs .stored, .receives,
      .handles .stored]

theorem chainStatus_leads_to_current_overtaken :
    overtaken.pending = [] ∧ overtaken.responses.length = 3 ∧
      ∀ copy, overwriteAll tells copy overtaken.responses.flatten =
        current overtaken.supervisor.state := by
  have sent : overtaken.fullSent = true := by decide +kernel
  have drained : overtaken.pending = [] := by decide +kernel
  refine ⟨drained, by decide +kernel, fun copy => ?_⟩
  exact (chainStatus_leads_to_current _ [] 0 (Nat.zero_le _) .stored _ copy sent).2 drained

end Nodecore.Emerald
