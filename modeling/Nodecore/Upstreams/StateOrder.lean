/-
# The aggregate state and the order of the loops

The supervisor merges the states of its upstreams in loops over maps, whose order
changes from one update to the next.  Statuses, methods, capabilities and labels are
merged in ways that no order can be seen in.  Of the lower bounds the lowest is kept
and of the blocks the highest, with everything else they carry, so it matters which
of several equally low bounds or equally high blocks comes first: their timestamps
and hashes may differ.  The stored state is the same for all orders exactly if no
such tie is there.
-/

import Nodecore.Emerald.StatusDelta

namespace Nodecore.Upstreams

open Lib Protocol Specs Emerald

section Lowest

variable {α κ ν : Type*} [DecidableEq κ] (key : α → κ) (value : α → ν) (rank : ν → ℤ)

/-- What is kept under a key is the value of an item of the lowest rank. -/
def Lowest (items : List α) (slot : κ) : Option ν → Prop
  | none => ∀ item ∈ items, key item ≠ slot
  | some kept => (∃ item ∈ items, key item = slot ∧ value item = kept) ∧
      ∀ item ∈ items, key item = slot → rank kept ≤ rank (value item)

/-- Items of the lowest rank under a key have one value. -/
def Untied (items : List α) : Prop :=
  ∀ first ∈ items, ∀ second ∈ items, key first = key second →
    (∀ item ∈ items, key item = key first → rank (value first) ≤ rank (value item)) →
    (∀ item ∈ items, key item = key first → rank (value second) ≤ rank (value item)) →
    value first = value second

/-- A step replaces what is kept by a value of lower rank only. -/
structure KeepsLowest (merge : GoMap κ ν → α → GoMap κ ν) : Prop where
  own : ∀ kept item, (merge kept item).lookup (key item) =
    some ((kept.lookup (key item)).elim (value item) fun old =>
      if rank (value item) < rank old then value item else old)
  frame : ∀ kept item slot, slot ≠ key item → (merge kept item).lookup slot = kept.lookup slot

variable {key value rank} {merge : GoMap κ ν → α → GoMap κ ν}

theorem lowest_foldl (keeps : KeepsLowest key value rank merge) (items : List α) (slot : κ) :
    Lowest key value rank items slot ((items.foldl merge ∅).lookup slot) := by
  induction items using List.reverseRecOn with
  | nil => exact fun _ listed => absurd listed List.not_mem_nil
  | append_singleton items item ih =>
    rw [List.foldl_append, List.foldl_cons, List.foldl_nil]
    by_cases same : slot = key item
    · subst same
      rw [keeps.own]
      generalize (items.foldl merge ∅).lookup (key item) = kept at ih
      cases kept with
      | none =>
        refine ⟨⟨item, by simp, rfl, rfl⟩, List.forall_mem_append.mpr ⟨?_, by simp⟩⟩
        exact fun other listed isOwn => absurd isOwn (ih other listed)
      | some old =>
        obtain ⟨⟨source, listed, isSlot, isOld⟩, lowest⟩ := ih
        rw [Option.elim_some]
        split_ifs with lower
        · refine ⟨⟨item, by simp, rfl, rfl⟩, List.forall_mem_append.mpr ⟨?_, by simp⟩⟩
          exact fun other listed isOwn => lower.le.trans (lowest other listed isOwn)
        · exact ⟨⟨source, by simp [listed], isSlot, isOld⟩,
            List.forall_mem_append.mpr ⟨lowest, by simp [not_lt.mp lower]⟩⟩
    · rw [keeps.frame _ _ _ same]
      generalize (items.foldl merge ∅).lookup slot = kept at ih
      have isOther := Ne.symm same
      cases kept with
      | none => exact List.forall_mem_append.mpr ⟨ih, by simpa using isOther⟩
      | some old => simpa [Lowest, or_and_right, exists_or, or_imp, forall_and, isOther] using ih

theorem lookup_foldl_cons (keeps : KeepsLowest key value rank merge) {first : α} {rest : List α}
    (least : ∀ item ∈ rest, key item = key first → rank (value first) ≤ rank (value item)) :
    ((first :: rest).foldl merge ∅).lookup (key first) = some (value first) := by
  induction rest using List.reverseRecOn with
  | nil => simp [keeps.own]
  | append_singleton rest item ih =>
    obtain ⟨before, last⟩ := List.forall_mem_append.mp least
    rw [← List.cons_append, List.foldl_append, List.foldl_cons, List.foldl_nil]
    by_cases same : key item = key first
    · have kept := ih before
      rw [← same] at kept ⊢
      rw [keeps.own, kept, Option.elim_some,
        if_neg (not_lt.mpr (last item (List.mem_singleton_self item) same))]
    · rw [keeps.frame _ _ _ (Ne.symm same), ih before]

omit [DecidableEq κ] in
theorem Lowest.unique {items others : List α} {slot : κ} {first second : Option ν}
    (lowest : Lowest key value rank items slot first)
    (lowest' : Lowest key value rank others slot second)
    (same : ∀ item, item ∈ others ↔ item ∈ items) (untied : Untied key value rank items) :
    first = second := by
  unfold Lowest at lowest'
  simp only [same] at lowest'
  cases first with
  | none =>
    cases second with
    | none => rfl
    | some kept =>
      obtain ⟨⟨item, listed, own, -⟩, -⟩ := lowest'
      exact absurd own (lowest item listed)
  | some kept =>
    obtain ⟨⟨item, listed, rfl, rfl⟩, least⟩ := lowest
    cases second with
    | none => exact absurd rfl (lowest' item listed)
    | some kept' =>
      obtain ⟨⟨item', listed', own, rfl⟩, least'⟩ := lowest'
      exact congrArg some (untied item listed item' listed' own.symm least least')

end Lowest

variable {states others : List UpstreamState}

/-- The lower bounds of several upstreams, as the loop comes to them. -/
def boundsOf (ranges : StateRanges) (states : List UpstreamState) : List LowerBoundData :=
  states.flatMap fun upState => ranges.upstreamBounds.visit upState.lowerBoundsInfo.values

def blocksOf (ranges : StateRanges) (states : List UpstreamState) : List (Entry BlockType Block) :=
  states.flatMap fun upState => ranges.upstreamBlocks.visit upState.blockInfo.entries

theorem processLowerBounds_eq (ranges : StateRanges) (states : List UpstreamState) :
    processLowerBounds ranges states = (boundsOf ranges states).foldl mergeBound ∅ :=
  List.foldl_flatMap.symm

theorem processUpstreamBlocks_eq (ranges : StateRanges) (states : List UpstreamState) :
    processUpstreamBlocks ranges states = (blocksOf ranges states).foldl mergeBlock ∅ :=
  List.foldl_flatMap.symm

theorem keepsLowest_mergeBound :
    KeepsLowest LowerBoundData.type id (·.bound.toInt) mergeBound where
  own kept bound := by
    unfold mergeBound
    cases held : kept.lookup bound.type with
    | none => simp
    | some old =>
      simp only [Int64.lt_iff_toInt_lt, Option.elim_some, id]
      split_ifs <;> simp [held]
  frame kept bound slot other := by
    unfold mergeBound
    split
    · exact AList.lookup_insert_ne other
    · split_ifs
      · exact AList.lookup_insert_ne other
      · rfl

theorem keepsLowest_mergeBlock :
    KeepsLowest Sigma.fst Sigma.snd (fun block => -(block.rank : ℤ)) mergeBlock where
  own kept entry := by
    have higher (old new : Block) : old.height < new.height ↔
        -(new.rank : ℤ) < -(old.rank : ℤ) := by
      rw [UInt64.lt_iff_toNat_lt, Block.rank, Block.rank]
      omega
    unfold mergeBlock
    cases held : kept.lookup entry.1 with
    | none => simp
    | some old => simp [compareBlocks, higher]
  frame kept entry slot other := by
    unfold mergeBlock
    split
    all_goals exact AList.lookup_insert_ne other

/-- The methods of several upstreams.  A method's rank is of no account: a delegate that has it
answers for it. -/
def methodsOf (states : List UpstreamState) : List (Entry String Method) :=
  states.flatMap (·.upstreamMethods.availableMethods.entries)

theorem lowest_getMethod (name : String) :
    Lowest Sigma.fst Sigma.snd (fun _ => 0) (methodsOf states) name
      ((processUpstreamMethods states).getMethod name) := by
  rw [ChainMethods.getMethod]
  cases found : (processUpstreamMethods states).delegates.find? (·.hasMethod name) with
  | none =>
    rintro ⟨own, method⟩ listed rfl
    obtain ⟨upState, there, isEntry⟩ := List.mem_flatMap.mp listed
    refine List.find?_eq_none.mp found _ (List.mem_map_of_mem there) (decide_eq_true ?_)
    exact AList.mem_keys.mpr (List.mem_map_of_mem (f := Sigma.fst) isEntry)
  | some delegate =>
    obtain ⟨upState, there, rfl⟩ := List.mem_map.mp (List.mem_of_find?_eq_some found)
    have has := List.find?_some found
    obtain ⟨method, isMethod⟩ := Option.isSome_iff_exists.mp
      (AList.lookup_isSome.mpr (of_decide_eq_true has))
    rw [Option.bind_some, UpstreamMethods.getMethod, isMethod]
    have listed : ⟨name, method⟩ ∈ methodsOf states :=
      List.mem_flatMap.mpr ⟨upState, there, AList.mem_lookup_iff.mp isMethod⟩
    exact ⟨⟨_, listed, rfl, rfl⟩, fun _ _ _ => le_rfl⟩

section Labels

open Classical

variable (read : String → Option String)

/-- The amount that is counted for labels which read so. -/
noncomputable def amountOf : List AggregatedLabels → Option ℕ
  | [] => none
  | item :: items => if readLabels item = read then some item.amount else amountOf items

theorem mem_countedLabels_iff {items : List AggregatedLabels} (distinct : Distinct items)
    (amount : ℕ) :
    (amount, read) ∈ items.map countedLabels ↔ amountOf read items = some amount := by
  induction items with
  | nil => simp [amountOf]
  | cons item items ih =>
    obtain ⟨isNew, distinct⟩ := List.nodup_cons.mp distinct
    rw [List.map_cons, List.mem_cons, ih distinct, amountOf]
    by_cases same : readLabels item = read
    · subst same
      have absent : amountOf (readLabels item) items ≠ some amount := by
        intro counted
        have listed := (ih distinct).mpr counted
        exact isNew (by simpa [countedLabels] using List.mem_map_of_mem (f := Prod.snd) listed)
      simp [countedLabels, absent, eq_comm]
    · simp [countedLabels, same, Ne.symm same]

theorem amountOf_addLabels (upLabels : GoMap String String) (items : List AggregatedLabels) :
    amountOf read (addLabels upLabels items) =
      if readLabels ⟨0, upLabels⟩ = read then some ((amountOf read items).getD 0 + 1)
      else amountOf read items := by
  induction items with
  | nil => rfl
  | cons item items ih =>
    have equal := equalFunc_labels_iff ⟨0, upLabels⟩ item
    rw [addLabels]
    by_cases own : readLabels ⟨0, upLabels⟩ = readLabels item
    · rw [if_pos (equal.mpr own), own]
      have increased : readLabels { item with amount := item.amount + 1 } = readLabels item := rfl
      rw [amountOf, amountOf, increased]
      split_ifs <;> rfl
    · rw [if_neg (mt equal.mp own), amountOf, amountOf, ih]
      split_ifs with isItem isOwn
      · exact absurd (isOwn.trans isItem.symm) own
      · rfl
      · rfl
      · rfl

theorem amountOf_processLabels (perm : states.Perm others) :
    amountOf read (processLabels states) = amountOf read (processLabels others) := by
  let count (amount : Option ℕ) (upState : UpstreamState) : Option ℕ :=
    if upState.labels.entries.isEmpty then amount
    else if readLabels ⟨0, upState.labels⟩ = read then some (amount.getD 0 + 1) else amount
  have counted (states : List UpstreamState) :
      amountOf read (processLabels states) = states.foldl count none := by
    refine (List.foldl_hom (amountOf read) fun items upState => ?_).symm
    by_cases none : upState.labels.entries.isEmpty = true
    · simp only [count, none, if_true]
    · simp only [count, none, amountOf_addLabels, if_false, Bool.false_eq_true]
  rw [counted, counted]
  refine perm.foldl_eq' (fun first _ second _ amount => ?_) _
  simp only [count]
  split_ifs <;> rfl

end Labels

/-- Two states of a chain, heads apart, say the same to everyone who asks them. -/
structure SameState (old new : ChainSupervisorState) : Prop where
  unchanged : ∀ field, Unchanged old new field
  caps : ∀ cap, cap ∈ old.caps ↔ cap ∈ new.caps
  getMethod : ∀ name, old.methods.getMethod name = new.methods.getMethod name

theorem SameState.compare_eq_nil {old new : ChainSupervisorState} (same : SameState old new)
    (distinct : Distinct old.chainLabels) (distinctNew : Distinct new.chainLabels)
    (ranges : StateRanges) : old.compare ranges new = [] := by
  have equal (field : Field) := (comparesEqual_iff distinct distinctNew field).mpr
    (same.unchanged field)
  have status : old.status = new.status := same.unchanged .status
  have methods := equal .methods
  have blocks := equal .blocks
  have lowerBounds := equal .lowerBounds
  have labels := equal .labels
  have subMethods := equal .subMethods
  have caps := (GoSet.equal_iff _ _).mpr same.caps
  simp only [comparesEqual] at methods blocks lowerBounds labels subMethods
  simp [ChainSupervisorState.compare, status, methods, blocks, lowerBounds, labels, subMethods,
    caps]

namespace ChainSupervisor

variable (config : SupervisorConfig) (around other : Surroundings) (supervisor : ChainSupervisor)

/-- The state that an update stores. -/
def merged : ChainSupervisorState where
  status := supervisor.processUpstreamStatuses around
  headData := supervisor.state.headData
  methods := processUpstreamMethods (supervisor.availableUpstreams around)
  blocks := processUpstreamBlocks around.state (supervisor.availableUpstreams around)
  lowerBounds := processLowerBounds around.state (supervisor.availableUpstreams around)
  chainLabels := processLabels (supervisor.availableUpstreams around)
  subMethods := processSubMethods config (processCaps (supervisor.availableUpstreams around))
  caps := processCaps (supervisor.availableUpstreams around)

theorem core_updateState :
    (supervisor.updateState config around).core =
      (publish (supervisor.state.compare around.state (supervisor.merged config around))
        { supervisor with state := supervisor.merged config around }).core :=
  core_calculateFinalizationLags config around _

theorem updateState_stores :
    (supervisor.updateState config around).state = supervisor.merged config around ∧
      (supervisor.updateState config around).upstreamStates = supervisor.upstreamStates := by
  have stored := core_updateState config around supervisor
  simp only [core, publish] at stored
  split_ifs at stored <;> exact ⟨congrArg (·.2.1) stored, congrArg (·.2.2.1) stored⟩

/-- The available upstreams agree on the methods they share, and upstreams that tie for the lowest
bound or the highest block agree on everything else it carries. -/
structure NoTies : Prop where
  bounds : Untied LowerBoundData.type id (·.bound.toInt)
    (boundsOf .stored (supervisor.availableUpstreams .plain))
  blocks : Untied Sigma.fst Sigma.snd (fun block => -(block.rank : ℤ))
    (blocksOf .stored (supervisor.availableUpstreams .plain))
  methods : Untied Sigma.fst Sigma.snd (fun _ => 0)
    (methodsOf (supervisor.availableUpstreams .plain))

theorem availableUpstreams_perm :
    (supervisor.availableUpstreams around).Perm (supervisor.availableUpstreams other) :=
  (((around.state.available.perm _).trans (other.state.available.perm _).symm).map _).filter _

theorem processUpstreamStatuses_eq :
    supervisor.processUpstreamStatuses around = supervisor.processUpstreamStatuses other := by
  refine ((around.state.statuses.perm _).trans (other.state.statuses.perm _).symm).foldl_eq'
    (fun first _ second _ status => ?_) _
  generalize first.2.status = first
  generalize second.2.status = second
  cases first <;> cases second <;> cases status <;> rfl

variable {supervisor}

theorem lookup_merged (noTies : supervisor.NoTies) :
    (∀ type, (supervisor.merged config around).lowerBounds.lookup type =
        (supervisor.merged config .plain).lowerBounds.lookup type) ∧
      (∀ type, (supervisor.merged config around).blocks.lookup type =
        (supervisor.merged config .plain).blocks.lookup type) ∧
      ∀ name, (supervisor.merged config around).methods.getMethod name =
        (supervisor.merged config .plain).methods.getMethod name := by
  have mem (upState : UpstreamState) := (availableUpstreams_perm .plain around supervisor).mem_iff
    (a := upState)
  refine ⟨fun type => ?_, fun type => ?_, fun name => ?_⟩
  · simp only [merged, processLowerBounds_eq]
    refine ((lowest_foldl keepsLowest_mergeBound _ type).unique
      (lowest_foldl keepsLowest_mergeBound _ type) (fun bound => ?_) noTies.bounds).symm
    simp [boundsOf, RangeOrder.mem_visit, mem]
  · simp only [merged, processUpstreamBlocks_eq]
    refine ((lowest_foldl keepsLowest_mergeBlock _ type).unique
      (lowest_foldl keepsLowest_mergeBlock _ type) (fun entry => ?_) noTies.blocks).symm
    simp [blocksOf, RangeOrder.mem_visit, mem]
  · refine ((lowest_getMethod name).unique (lowest_getMethod name) (fun entry => ?_)
      noTies.methods).symm
    simp [methodsOf, mem]

theorem merged_same (noTies : supervisor.NoTies) :
    SameState (supervisor.merged config around) (supervisor.merged config other) := by
  obtain ⟨bounds, blocks, methods⟩ := lookup_merged config around noTies
  obtain ⟨bounds', blocks', methods'⟩ := lookup_merged config other noTies
  have caps (cap : Cap) : cap ∈ (supervisor.merged config around).caps ↔
      cap ∈ (supervisor.merged config other).caps := by
    simp only [merged, processCaps, GoSet.mem_foldl_union,
      (availableUpstreams_perm around other _).mem_iff]
  refine ⟨fun field => ?_, caps, fun name => (methods name).trans (methods' name).symm⟩
  cases field with
  | status => exact processUpstreamStatuses_eq around other supervisor
  | blocks => exact fun type => (blocks type).trans (blocks' type).symm
  | lowerBounds => exact fun type => (bounds type).trans (bounds' type).symm
  | methods =>
    intro method
    simp [merged, processUpstreamMethods, ChainMethods.newChainMethods, GoSet.mem_foldl_union,
      (availableUpstreams_perm around other _).mem_iff]
  | labels =>
    rintro ⟨amount, read⟩
    have counted (around : Surroundings) := mem_countedLabels_iff read
      (distinct_processLabels (supervisor.availableUpstreams around)) amount
    refine (counted around).trans (Iff.trans (Eq.congr_left ?_) (counted other).symm)
    exact amountOf_processLabels read (availableUpstreams_perm around other supervisor)
  | subMethods =>
    have contains : (processCaps (supervisor.availableUpstreams around)).contains =
        (processCaps (supervisor.availableUpstreams other)).contains := by
      funext cap
      rw [Bool.eq_iff_iff, GoSet.contains_iff, GoSet.contains_iff]
      exact caps cap
    intro method
    simp only [merged, processSubMethods, contains]

/-- The loop over the upstreams runs in some order, and the others as they are stored. -/
def ranging (order : RangeOrder (Entry String UpstreamState)) : Surroundings :=
  { Surroundings.plain with state := { StateRanges.stored with available := order } }

theorem exists_availableUpstreams_cons {upState : UpstreamState}
    (there : upState ∈ supervisor.availableUpstreams .plain) :
    ∃ order rest, supervisor.availableUpstreams (ranging order) = upState :: rest := by
  obtain ⟨isState, isAvailable⟩ := List.mem_filter.mp there
  obtain ⟨entry, listed, rfl⟩ := List.mem_map.mp isState
  obtain ⟨order, rest, visits⟩ := RangeOrder.exists_cons ((RangeOrder.mem_visit _ _ _).mp listed)
  have visited : (ranging order).state.available.visit supervisor.upstreamStates.entries =
      entry :: rest := visits
  refine ⟨order, (rest.map (·.2)).filter fun upState => upState.status == .available, ?_⟩
  rw [availableUpstreams, visited, List.map_cons]
  exact List.filter_cons_of_pos isAvailable

/-- If a loop keeps the same in all orders, the items of lowest rank have one value: each of them
is kept where it comes first. -/
theorem untied_of_lookup {β κ ν : Type} [DecidableEq κ] {listOf : UpstreamState → List β}
    {key : β → κ} {value : β → ν} {rank : ν → ℤ} {merge : GoMap κ ν → β → GoMap κ ν}
    {kept : κ → Option ν} (keeps : KeepsLowest key value rank merge)
    (same : ∀ order (within : RangeOrder β) slot,
      (((supervisor.availableUpstreams (ranging order)).flatMap fun upState =>
        within.visit (listOf upState)).foldl merge ∅).lookup slot = kept slot) :
    Untied key value rank ((supervisor.availableUpstreams .plain).flatMap listOf) := by
  have first {item : β}
      (listed : item ∈ (supervisor.availableUpstreams .plain).flatMap listOf)
      (least : ∀ other ∈ (supervisor.availableUpstreams .plain).flatMap listOf,
        key other = key item → rank (value item) ≤ rank (value other)) :
      kept (key item) = some (value item) := by
    obtain ⟨upState, there, inside⟩ := List.mem_flatMap.mp listed
    obtain ⟨order, states, isAvailable⟩ := exists_availableUpstreams_cons there
    obtain ⟨within, rest, visits⟩ := RangeOrder.exists_cons inside
    have visited : (supervisor.availableUpstreams (ranging order)).flatMap (fun upState =>
        within.visit (listOf upState)) =
          item :: (rest ++ states.flatMap fun upState => within.visit (listOf upState)) := by
      rw [isAvailable, List.flatMap_cons, visits, List.cons_append]
    rw [← same order within, visited]
    apply lookup_foldl_cons keeps
    intro other isOther
    obtain ⟨upState', there', inside'⟩ :=
      List.mem_flatMap.mp (visited ▸ List.mem_cons_of_mem item isOther)
    exact least other (List.mem_flatMap.mpr ⟨upState',
      (availableUpstreams_perm (ranging order) .plain supervisor).mem_iff.mp there',
      (within.mem_visit _ _).mp inside'⟩)
  intro item listed item' listed' sameKey least least'
  have isItem := first listed least
  rw [sameKey, first listed' (sameKey ▸ least')] at isItem
  exact (Option.some.inj isItem).symm

theorem noTies_of_same (same : ∀ around, SameState (supervisor.merged config around)
    (supervisor.merged config .plain)) : supervisor.NoTies where
  bounds := by
    apply untied_of_lookup keepsLowest_mergeBound
    intro order within type
    rw [List.foldl_flatMap]
    exact (same { ranging order with
      state := { (ranging order).state with upstreamBounds := within } }).unchanged .lowerBounds type
  blocks := by
    apply untied_of_lookup keepsLowest_mergeBlock
    intro order within type
    rw [List.foldl_flatMap]
    exact (same { ranging order with
      state := { (ranging order).state with upstreamBlocks := within } }).unchanged .blocks type
  methods := by
    have first {name : String} {method : Method}
        (listed : ⟨name, method⟩ ∈ methodsOf (supervisor.availableUpstreams .plain)) :
        (supervisor.merged config .plain).methods.getMethod name = some method := by
      obtain ⟨upState, there, inside⟩ := List.mem_flatMap.mp listed
      obtain ⟨order, states, isAvailable⟩ := exists_availableUpstreams_cons there
      have found : upState.upstreamMethods.availableMethods.lookup name = some method :=
        AList.mem_lookup_iff.mpr inside
      have has : upState.upstreamMethods.hasMethod name = true :=
        decide_eq_true (AList.lookup_isSome.mp (Option.isSome_of_eq_some found))
      rw [← (same (ranging order)).getMethod, merged, isAvailable, ChainMethods.getMethod]
      change ((upState.upstreamMethods :: _).find? (·.hasMethod name)).bind _ = _
      rw [List.find?_cons, has]
      exact found
    rintro ⟨name, method⟩ listed ⟨name', method'⟩ listed' rfl - -
    exact Option.some.inj ((first listed).symm.trans (first listed'))

/-- The state that an update stores is the same for all orders of its loops exactly if there are no
ties, and then a second update publishes nothing. -/
theorem updateState_repeatable_iff (config : SupervisorConfig) (supervisor : ChainSupervisor) :
    (supervisor.NoTies ↔ ∀ around other, SameState (supervisor.updateState config around).state
        (supervisor.updateState config other).state) ∧
      (supervisor.NoTies → ∀ around other,
        ((supervisor.updateState config around).updateState config other).published =
          (supervisor.updateState config around).published) := by
  have stores (around : Surroundings) := (updateState_stores config around supervisor).1
  refine ⟨⟨?_, ?_⟩, ?_⟩
  · intro noTies around other
    rw [stores, stores]
    exact merged_same config around other noTies
  · intro same
    apply noTies_of_same config
    intro around
    rw [← stores, ← stores]
    exact same around .plain
  · intro noTies around other
    have same := merged_same config around other noTies
    have again : (supervisor.updateState config around).merged config other =
        supervisor.merged config other := by
      simp only [merged, availableUpstreams, processUpstreamStatuses,
        (updateState_stores config around supervisor).2, stores]
    have published := congrArg (·.2.2.2)
      (core_updateState config other (supervisor.updateState config around))
    rw [again, stores, same.compare_eq_nil (distinct_processLabels _)
      (distinct_processLabels _)] at published
    exact published

/-- Two upstreams with state from these blocks on, which were found at different times. -/
def ofStateBounds (first second : Int64) : ChainSupervisor :=
  let upstream (bound timestamp : Int64) : UpstreamState :=
    { defaultUpstreamState ⟨∅⟩ ∅ "" none none with
      lowerBoundsInfo := AList.singleton .stateBound ⟨bound, timestamp, .stateBound⟩ }
  { newGenericChainSupervisor with
    upstreamStates := ((∅ : GoMap String UpstreamState).insert "a" (upstream first 100)).insert "b"
      (upstream second 200) }

def reversed : Surroundings := ranging ⟨List.reverse, List.reverse_perm⟩

theorem updateState_repeatable_of_bounds :
    let config : SupervisorConfig := ⟨∅, false, 0, false⟩
    let first := (ofStateBounds 1 2).updateState config .plain
    (first.updateState config reversed).published = first.published :=
  (updateState_repeatable_iff ⟨∅, false, 0, false⟩ (ofStateBounds 1 2)).2
    ⟨by unfold Untied; decide +kernel, by unfold Untied; decide +kernel,
      by unfold Untied; decide +kernel⟩ .plain reversed

/-- Both upstreams have state from block 1 on.  The state that is stored has the time of the one
that the loop comes to first. -/
theorem tie_depends_on_order :
    let config : SupervisorConfig := ⟨∅, false, 0, false⟩
    let stored (around : Surroundings) :=
      ((ofStateBounds 1 1).updateState config around).state.lowerBounds.lookup .stateBound
    stored .plain = some ⟨1, 200, .stateBound⟩ ∧ stored reversed = some ⟨1, 100, .stateBound⟩ := by
  decide +kernel

end ChainSupervisor

end Nodecore.Upstreams
