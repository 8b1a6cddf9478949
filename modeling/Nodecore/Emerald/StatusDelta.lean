/-
# The changes that a client is sent

`Compare` lists what changed between two states of a chain, and the server turns
the list into events of the API position by position.  Both go through the fields of
the state, each in its own way: the comparison knows the capabilities as well, for
which the API has no event.
-/

import Nodecore.Emerald.ChainStatus

namespace Nodecore.Emerald

open Lib Protocol Upstreams

/-- An event of the API.  What is a slice there is a list here, in the stored order. -/
inductive ChainEvent
  | head (head : Block)
  | finalizationData (blocks : List (Entry BlockType UInt64))
  | supportedMethods (methods : List String)
  | status (status : AvailabilityStatus)
  | lowerBounds (lowerBounds : List LowerBoundData)
  | nodes (nodes : List (ℕ × List (Entry String String)))
  | supportedSubscriptions (subs : List String)
  deriving DecidableEq

/-- A block that would name itself as its parent is sent without one. -/
def headToApi (head : Block) : ChainEvent :=
  .head { head with parentHash := if head.parentHash = head.hash then [] else head.parentHash }

def toApi : ChainSupervisorStateWrapper → Option ChainEvent
  | .headWrapper head _ => some (headToApi head)
  | .blocksWrapper blocks =>
    some (.finalizationData (blocks.entries.map (.map id fun _ block => block.height)))
  | .methodsWrapper methods => some (.supportedMethods methods)
  | .statusWrapper status => some (.status status)
  | .lowerBoundsWrapper lowerBounds => some (.lowerBounds lowerBounds)
  | .labelsWrapper labels =>
    some (.nodes (labels.map fun item => (item.amount, item.labels.entries)))
  | .subMethodsWrapper subMethods => some (.supportedSubscriptions subMethods)
  | .capsWrapper _ => none

def stateWrappersToResponse (wrappers : List ChainSupervisorStateWrapper) :
    List (Option ChainEvent) :=
  wrappers.map toApi

def readEvent : ChainEvent → (field : Field) → Option field.Value
  | .finalizationData blocks, .blocks => some fun type => blocks.dlookup type
  | .supportedMethods methods, .methods => some {method | method ∈ methods}
  | .status status, .status => some status
  | .lowerBounds lowerBounds, .lowerBounds => some {bound | bound ∈ lowerBounds}
  | .nodes nodes, .labels =>
    some {item | item ∈ nodes.map fun node => (node.1, fun name => node.2.dlookup name)}
  | .supportedSubscriptions subs, .subMethods => some {method | method ∈ subs}
  | _, _ => none

theorem read_toApi (wrapper : ChainSupervisorStateWrapper) (field : Field) :
    (toApi wrapper).bind (readEvent · field) = tells wrapper field := by
  cases wrapper <;> cases field <;> try rfl
  case blocksWrapper.blocks blocks =>
    exact congrArg some (funext fun type => List.dlookup_map₂ type)
  case labelsWrapper.labels labels =>
    simp only [toApi, Option.bind_some, readEvent, tells, List.map_map]
    rfl

variable (old new : ChainSupervisorState)

/-- A field is the same in two states, as a set or a map where it is one. -/
def Unchanged : Field → Prop
  | .status => old.status = new.status
  | .methods => ∀ method,
      method ∈ old.methods.availableMethods ↔ method ∈ new.methods.availableMethods
  | .blocks => ∀ type, old.blocks.lookup type = new.blocks.lookup type
  | .lowerBounds => ∀ type, old.lowerBounds.lookup type = new.lowerBounds.lookup type
  | .labels => ∀ item,
      item ∈ old.chainLabels.map countedLabels ↔ item ∈ new.chainLabels.map countedLabels
  | .subMethods => ∀ method, method ∈ old.subMethods ↔ method ∈ new.subMethods

/-- What `Compare` looks at for a field. -/
def comparesEqual : Field → Bool
  | .status => old.status = new.status
  | .methods => old.methods.availableMethods.equal new.methods.availableMethods
  | .blocks => GoMap.equalFunc Block.equals old.blocks new.blocks
  | .lowerBounds => GoMap.equalFunc (· == ·) old.lowerBounds new.lowerBounds
  | .labels => compareAggregatedLabels old.chainLabels new.chainLabels
  | .subMethods => old.subMethods.equal new.subMethods

variable {old new}

theorem comparesEqual_iff (distinct : Distinct old.chainLabels)
    (distinctNew : Distinct new.chainLabels) (field : Field) :
    comparesEqual old new field = true ↔ Unchanged old new field := by
  cases field with
  | status => exact decide_eq_true_iff
  | methods | subMethods => exact GoSet.equal_iff _ _
  | lowerBounds => exact GoMap.equalFunc_beq_iff _ _
  | blocks =>
    have equals : Block.equals = (· == ·) := by
      funext block other
      rw [Bool.eq_iff_iff, beq_iff_eq]
      cases block
      cases other
      simp [Block.equals, and_assoc]
    rw [comparesEqual, equals]
    exact GoMap.equalFunc_beq_iff _ _
  | labels =>
    refine ⟨mem_countedLabels_of_compare distinct, fun same => ?_⟩
    have perm := (List.perm_ext_iff_of_nodup (nodup_countedLabels distinct)
      (nodup_countedLabels distinctNew)).mpr same
    simp only [comparesEqual, compareAggregatedLabels, Bool.and_eq_true, beq_iff_eq,
      List.all_eq_true, List.any_eq_true]
    refine ⟨by simpa using perm.length_eq, fun label listed => ?_⟩
    obtain ⟨other, there, equal⟩ :=
      List.mem_map.mp ((same _).mp (List.mem_map_of_mem (f := countedLabels) listed))
    refine ⟨other, there, ?_⟩
    rw [AggregatedLabels.equals, Bool.and_eq_true, beq_iff_eq, equalFunc_labels_iff]
    exact Prod.mk.inj equal

theorem filterMap_tells_compare (ranges : StateRanges) (field : Field) :
    (old.compare ranges new).filterMap (tells · field) =
      if comparesEqual old new field then [] else [current new field] := by
  have part (same : Prop) [Decidable same] (wrapper : ChainSupervisorStateWrapper) :
      (if same then [] else [wrapper]).filterMap (tells · field) =
        if same then [] else (tells wrapper field).toList := by
    split_ifs
    · rfl
    · cases told : tells wrapper field <;> simp [told]
  rw [ChainSupervisorState.compare, ite_not]
  simp only [List.filterMap_append, part]
  cases field <;> simp [tells, comparesEqual, current] <;> rfl

/-- A response is exact: no slot is nil, and of each field there is one event with the new value
if the field changed, and none otherwise. -/
def Exact (old new : ChainSupervisorState) (events : List (Option ChainEvent)) : Prop :=
  none ∉ events ∧ ∀ field,
    (Unchanged old new field → events.filterMap (·.bind (readEvent · field)) = []) ∧
      (¬ Unchanged old new field →
        events.filterMap (·.bind (readEvent · field)) = [current new field])

theorem none_mem_delta_iff (ranges : StateRanges) :
    none ∈ stateWrappersToResponse (old.compare ranges new) ↔
      old.caps.equal new.caps = false := by
  have part (same : Prop) [Decidable same] (wrapper : ChainSupervisorStateWrapper) :
      none ∈ (if same then [] else [wrapper]).map toApi ↔ ¬ same ∧ toApi wrapper = none := by
    split_ifs with holds
    · simp [holds]
    · simp [holds, eq_comm]
  rw [stateWrappersToResponse, ChainSupervisorState.compare, ite_not]
  simp [part, toApi]

/-- Between states whose label sets are counted once each, as they are in a supervisor, the changes
that a client is sent are exact if and only if the capabilities are the same. -/
theorem delta_exact_iff (ranges : StateRanges) (old new : ChainSupervisorState)
    (distinct : Distinct old.chainLabels) (distinctNew : Distinct new.chainLabels) :
    Exact old new (stateWrappersToResponse (old.compare ranges new)) ↔
      old.caps.equal new.caps = true := by
  rw [Exact, none_mem_delta_iff, Bool.not_eq_false]
  refine and_iff_left fun field => ?_
  have read : (stateWrappersToResponse (old.compare ranges new)).filterMap
      (·.bind (readEvent · field)) =
        if comparesEqual old new field then [] else [current new field] := by
    rw [stateWrappersToResponse, List.filterMap_map, ← filterMap_tells_compare]
    exact List.filterMap_congr fun wrapper _ => read_toApi wrapper field
  rw [read, ← comparesEqual_iff distinct distinctNew]
  exact ⟨fun same => if_pos same, fun changed => if_neg changed⟩

def idleChain : ChainSupervisorState where
  status := .available
  headData := ⟨zeroBlock, ""⟩
  methods := ⟨[], ∅⟩
  blocks := ∅
  lowerBounds := ∅
  chainLabels := []
  subMethods := ∅
  caps := ∅

def servingChain (regular archive : ℕ) (lowest : Int64) : ChainSupervisorState where
  status := .available
  headData := ⟨{ height := 100, hash := [1], parentHash := [2] }, "a"⟩
  methods := ⟨[], GoSet.ofList ["eth_call"]⟩
  blocks := AList.singleton .finalizedBlock { height := 90 }
  lowerBounds := AList.singleton .stateBound ⟨lowest, 0, .stateBound⟩
  chainLabels :=
    [⟨regular, AList.singleton "client" "geth"⟩, ⟨archive, AList.singleton "archive" "true"⟩]
  subMethods := GoSet.ofList ["newHeads"]
  caps := GoSet.ofList [.wsCap]

theorem distinct_servingChain (regular archive : ℕ) (lowest : Int64) :
    Distinct (servingChain regular archive lowest).chainLabels := by
  rw [Distinct, servingChain, List.map_cons, List.map_singleton, List.nodup_cons, List.mem_singleton]
  refine ⟨fun same => ?_, List.nodup_singleton _⟩
  have read := congrFun same "client"
  simp only [readLabels] at read
  exact absurd read (by decide)

/-- A node leaves: the labels and a bound change, the rest stays. -/
theorem delta_exact_of_labels :
    let old := servingChain 2 1 1
    let new := servingChain 1 1 64
    Exact old new (stateWrappersToResponse (old.compare .stored new)) ∧
      (stateWrappersToResponse (old.compare .stored new)).length = 2 := by
  intro old new
  exact ⟨(delta_exact_iff .stored old new (distinct_servingChain ..)
    (distinct_servingChain ..)).mpr (by decide), by decide⟩

/-- The websocket of the only upstream connects: the response has one slot, and it is nil. -/
theorem new_cap_sends_nil :
    stateWrappersToResponse (idleChain.compare .stored
      { idleChain with caps := GoSet.ofList [.wsCap] }) = [none] := by
  decide

end Nodecore.Emerald
