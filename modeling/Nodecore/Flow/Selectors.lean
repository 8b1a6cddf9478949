/-
# From selectors to matchers

The selectors of a request are compiled to matchers, which restrict the
upstreams, and to at most one sort hint, which orders them.  Some selectors only
order: they have no matcher at all.

The main result says what the compiled matchers accept: the boolean reading of
the tree, in which a part that cannot be served is false.
-/

import Mathlib.Data.List.Sort
import Nodecore.Flow.Matchers

namespace Nodecore.Flow

open Lib Protocol

/-- How the upstreams are to be ordered.  Only the order by a predicted bound has
parameters. -/
inductive SortSpec
  | headDesc
  | safeDesc
  | finalizedDesc
  | predictedLowerBoundAsc (lowerBoundType : LowerBoundType) (timeOffset : Int64)
  deriving DecidableEq, Repr

def SortSpec.kind : SortSpec → ℕ
  | .headDesc => 1
  | .safeDesc => 2
  | .finalizedDesc => 3
  | .predictedLowerBoundAsc _ _ => 4

/-- What a selector is compiled to: the matcher and the sort hint it has, if any. -/
abbrev Compiled := Option Matcher × Option SortSpec

def conflictingHints (held spec : SortSpec) : String :=
  "conflicting selector sort hints " ++ toString held.kind ++ " and " ++ toString spec.kind ++
    " are not supported"

/-- One turn of the loop over the children of an AND. -/
def andStep (group : List Matcher × Option SortSpec) (child : Compiled) :
    List Matcher × Option SortSpec :=
  let children := group.1 ++ child.1.toList
  match child.2, group.2 with
  | none, held => (children, held)
  | some spec, none => (children, some spec)
  | some spec, some held =>
    if held = spec then (children, some spec)
    else (children ++ [.unsupportedSelector (conflictingHints held spec)], some held)

def compileAnd (children : List Compiled) : Compiled :=
  let group := children.foldl andStep ([], none)
  (some (.selectorAnd group.1), group.2)

def compileOr (children : List Compiled) : Compiled :=
  if children.any (·.2.isSome) then
    (some (.unsupportedSelector "sort-bearing selectors inside OR are not supported"), none)
  else (some (.selectorOr (children.filterMap (·.1))), none)

def compileNot : Compiled → Compiled
  | (_, some _) =>
    (some (.unsupportedSelector "sort-bearing selectors inside NOT are not supported"), none)
  | (none, none) => (none, none)
  | (some matcher, none) => (some (.selectorNot matcher), none)

mutual

def compileSelector (predict : LowerHeightPredictor) : RequestSelector → Compiled
  | .any => (none, none)
  | .label name values => (some (.label name values), none)
  | .existsLabel name => (some (.labelExists name), none)
  | .and children => compileAnd (compileAll predict children)
  | .or children => compileOr (compileAll predict children)
  | .not child => compileNot (compileSelector predict child)
  | .height height => (some (.height height), none)
  | .blockTag .latest => (none, some .headDesc)
  | .blockTag .safe => (none, some .safeDesc)
  | .blockTag .finalized => (none, some .finalizedDesc)
  | .blockTag (.other _) => (some (.unsupportedSelector "unsupported block tag selector"), none)
  | .slotHeight slotHeight => (some (.slotHeight slotHeight), none)
  | .lowerHeight height boundType timeOffset heightDelta =>
    if height = 0 then (none, some (.predictedLowerBoundAsc boundType timeOffset))
    else (some (.lowerHeight height boundType timeOffset heightDelta predict), none)
  | .unsupported reason => (some (.unsupportedSelector reason), none)

def compileAll (predict : LowerHeightPredictor) : List RequestSelector → List Compiled
  | [] => []
  | child :: rest => compileSelector predict child :: compileAll predict rest

end

theorem compileAll_eq_map (predict : LowerHeightPredictor) (selectors : List RequestSelector) :
    compileAll predict selectors = selectors.map (compileSelector predict) := by
  induction selectors with
  | nil => rfl
  | cons selector rest ih => rw [compileAll, ih, List.map_cons]

/-- What routing reads of the upstreams of a chain: the predictions of those the
supervisor knows, and the states of those the chain's supervisor knows. -/
structure RoutingSources where
  getUpstream : String → Option (LowerBoundType → Int64 → Int64)
  getUpstreamState : String → Option UpstreamState

namespace RoutingSources

variable (sources : RoutingSources)

def predict : LowerHeightPredictor := fun upstreamId boundType timeOffset =>
  match sources.getUpstream upstreamId with
  | none => 0
  | some predictLowerBound => predictLowerBound boundType timeOffset

def predictedLowerBoundOf (id : String) (boundType : LowerBoundType) (offset : Int64) : Int64 :=
  match sources.getUpstream id with
  | none => 4611686018427387904
  | some predictLowerBound =>
    let value := predictLowerBound boundType offset
    if value = 0 then 4611686018427387904 else value

def selectorSortKey (spec : SortSpec) (id : String) : Int64 :=
  match spec with
  | .predictedLowerBoundAsc boundType offset => sources.predictedLowerBoundOf id boundType offset
  | .headDesc =>
    ((sources.getUpstreamState id).elim 0 (·.headData.height)).toInt64
  | .safeDesc =>
    ((sources.getUpstreamState id).elim 0 (·.getBlock .safeBlock |>.height)).toInt64
  | .finalizedDesc =>
    ((sources.getUpstreamState id).elim 0 (·.getBlock .finalizedBlock |>.height)).toInt64

/-- Whether the first upstream comes strictly before the second. -/
def sortsBefore (spec : SortSpec) (id other : String) : Bool :=
  match spec with
  | .predictedLowerBoundAsc _ _ =>
    decide (sources.selectorSortKey spec id < sources.selectorSortKey spec other)
  | _ => decide (sources.selectorSortKey spec other < sources.selectorSortKey spec id)

/-- The stable order a sort hint asks for; without a hint the order is left. -/
def buildSelectorOrder : Option SortSpec → Option (List String → List String)
  | none => none
  | some spec => some (List.insertionSort fun id other => sources.sortsBefore spec other id = false)

def buildSelectorRouting (selectors : List RequestSelector) :
    List Matcher × Option (List String → List String) :=
  let compiled := selectors.map (compileSelector sources.predict)
  -- of several top-level hints the last one wins
  (compiled.filterMap (·.1), sources.buildSelectorOrder (compiled.filterMap (·.2)).getLast?)

end RoutingSources

/-- The sort hint of a selector: that of a sort-only leaf, or the first one below
an AND. -/
def sortHint : RequestSelector → Option SortSpec
  | .and children => (children.filterMap fun child => sortHint child).head?
  | .blockTag .latest => some .headDesc
  | .blockTag .safe => some .safeDesc
  | .blockTag .finalized => some .finalizedDesc
  | .lowerHeight height boundType timeOffset _ =>
    if height = 0 then some (.predictedLowerBoundAsc boundType timeOffset) else none
  | _ => none

/-- No two of the children ask for different orders. -/
def hintsAgree (children : List RequestSelector) : Bool :=
  (children.filterMap sortHint).all fun spec => some spec == (children.filterMap sortHint).head?

/-- The boolean reading.  Leaves are the tests of their matchers, sort-only leaves
are true.  An unsupported leaf, an OR or NOT over something that asks for an order,
and an AND that asks for two orders are false. -/
def admits (predict : LowerHeightPredictor) (upId : String) (state : UpstreamState) :
    RequestSelector → Bool
  | .any => true
  | .label name values => Matcher.accepts upId state (.label name values)
  | .existsLabel name => Matcher.accepts upId state (.labelExists name)
  | .and children =>
    (children.map fun child => admits predict upId state child).all id && hintsAgree children
  | .or children =>
    (children.map fun child => admits predict upId state child).any id &&
      children.all fun child => (sortHint child).isNone
  | .not child => !admits predict upId state child && (sortHint child).isNone
  | .height height => Matcher.accepts upId state (.height height)
  | .blockTag (.other _) => false
  | .blockTag _ => true
  | .slotHeight slotHeight => Matcher.accepts upId state (.slotHeight slotHeight)
  | .lowerHeight height boundType timeOffset heightDelta =>
    height == 0 ||
      Matcher.accepts upId state (.lowerHeight height boundType timeOffset heightDelta predict)
  | .unsupported _ => false

/-- A selector that is always true: `any`, and also its negation, which the code
drops along with it. -/
def isVacuous : RequestSelector → Bool
  | .any => true
  | .not child => isVacuous child
  | _ => false

/-- Nothing in the tree is rejected outright. -/
def isSupported : RequestSelector → Bool
  | .and children => (children.map fun child => isSupported child).all id && hintsAgree children
  | .or children =>
    (children.map fun child => isSupported child && (sortHint child).isNone).all id
  | .not child => isSupported child && (sortHint child).isNone
  | .blockTag (.other _) => false
  | .unsupported _ => false
  | _ => true

/-- No OR or NOT is applied to a vacuous selector, and nothing unsupported stands
below a NOT. -/
def isRegular : RequestSelector → Bool
  | .and children => (children.map fun child => isRegular child).all id
  | .or children => (children.map fun child => isRegular child && !isVacuous child).all id
  | .not child => isRegular child && !isVacuous child && isSupported child
  | _ => true

section

variable {children : List RequestSelector} {predict : LowerHeightPredictor}

theorem admits_and_iff {upId : String} {state : UpstreamState} :
    admits predict upId state (.and children) = true ↔
      (∀ child ∈ children, admits predict upId state child = true) ∧
        hintsAgree children = true := by
  simp [admits]

theorem admits_or_iff {upId : String} {state : UpstreamState} :
    admits predict upId state (.or children) = true ↔
      (∃ child ∈ children, admits predict upId state child = true) ∧
        ∀ child ∈ children, sortHint child = none := by
  simp [admits]

theorem isSupported_and_iff :
    isSupported (.and children) = true ↔
      (∀ child ∈ children, isSupported child = true) ∧ hintsAgree children = true := by
  simp [isSupported]

theorem isSupported_or_iff :
    isSupported (.or children) = true ↔
      ∀ child ∈ children, isSupported child = true ∧ sortHint child = none := by
  simp [isSupported]

theorem isRegular_and_iff :
    isRegular (.and children) = true ↔ ∀ child ∈ children, isRegular child = true := by
  simp [isRegular]

theorem isRegular_or_iff :
    isRegular (.or children) = true ↔
      ∀ child ∈ children, isRegular child = true ∧ isVacuous child = false := by
  simp [isRegular]

end

variable (group : List Matcher × Option SortSpec) {selector : RequestSelector}
  (children : List Compiled)

section

variable (predict : LowerHeightPredictor)

theorem foldl_andStep_snd :
    (children.foldl andStep group).2 = group.2.or (children.filterMap (·.2)).head? := by
  induction children generalizing group with
  | nil => simp
  | cons child rest ih =>
    rw [List.foldl_cons, ih]
    obtain ⟨matcher, hint⟩ := child
    obtain ⟨matchers, held⟩ := group
    cases hint with
    | none => simp [andStep]
    | some spec =>
      cases held with
      | none => simp [andStep]
      | some held =>
        simp only [andStep]
        split <;> simp [*]

theorem compileSelector_snd (selector : RequestSelector) :
    (compileSelector predict selector).2 = sortHint selector := by
  induction selector with
  | and children ih =>
    rw [compileSelector, compileAll_eq_map, compileAnd, foldl_andStep_snd, Option.none_or,
      List.filterMap_map, sortHint]
    exact congrArg List.head? (List.filterMap_congr ih)
  | or children _ =>
    have unsorted : sortHint (.or children) = none := by simp [sortHint]
    rw [unsorted, compileSelector, compileOr]
    split <;> rfl
  | not child _ =>
    have unsorted : sortHint (.not child) = none := by simp [sortHint]
    rw [unsorted, compileSelector, compileNot.eq_def]
    split <;> rfl
  | blockTag tag => cases tag <;> simp [compileSelector, sortHint]
  | lowerHeight height boundType timeOffset heightDelta =>
    rw [compileSelector, sortHint]
    split <;> rfl
  | any | label | existsLabel | height | slotHeight | unsupported =>
    simp [compileSelector, sortHint]

theorem filterMap_compileSelector_snd (selectors : List RequestSelector) :
    (selectors.map (compileSelector predict)).filterMap (·.2) = selectors.filterMap sortHint := by
  rw [List.filterMap_map]
  exact List.filterMap_congr fun selector _ => compileSelector_snd predict selector

theorem isVacuous_of_compileSelector (unmatched : (compileSelector predict selector).1 = none)
    (unsorted : sortHint selector = none) : isVacuous selector := by
  rw [← compileSelector_snd predict] at unsorted
  induction selector with
  | any => rfl
  | not child ih =>
    rw [compileSelector] at unmatched
    rw [isVacuous]
    rcases hchild : compileSelector predict child with ⟨matcher, hint⟩
    rw [hchild] at unmatched ih
    cases hint with
    | some spec => cases unmatched
    | none =>
      cases matcher with
      | some matcher => cases unmatched
      | none => exact ih rfl rfl
  | or children =>
    rw [compileSelector, compileOr] at unmatched
    split at unmatched <;> cases unmatched
  | blockTag tag => cases tag <;> simp [compileSelector] at unmatched unsorted
  | lowerHeight height boundType timeOffset heightDelta =>
    rw [compileSelector] at unmatched unsorted
    split at unmatched
    · rename_i isZero
      simp [isZero] at unsorted
    · cases unmatched
  | and | label | existsLabel | height | slotHeight | unsupported =>
    simp [compileSelector, compileAnd] at unmatched

end

section

variable (predict : LowerHeightPredictor) (upId : String) (state : UpstreamState)

/-- Whether a compiled selector lets an upstream pass; without a matcher it does. -/
def Compiled.accepts (compiled : Compiled) : Bool :=
  compiled.1.all (Matcher.accepts upId state)

/-- The loop over the children of an AND lets an upstream pass if every child does
and no child asks for another order than the one held. -/
theorem all_foldl_andStep :
    (children.foldl andStep group).1.all (Matcher.accepts upId state) = true ↔
      group.1.all (Matcher.accepts upId state) = true ∧
        (∀ child ∈ children, child.accepts upId state) ∧
        ∀ spec ∈ children.filterMap (·.2),
          some spec = group.2.or (children.filterMap (·.2)).head? := by
  induction children generalizing group with
  | nil => simp
  | cons child rest ih =>
    rw [List.foldl_cons, ih]
    obtain ⟨matcher, hint⟩ := child
    obtain ⟨matchers, held⟩ := group
    have own : (matchers ++ matcher.toList).all (Matcher.accepts upId state) = true ↔
        matchers.all (Matcher.accepts upId state) = true ∧
          Compiled.accepts upId state (matcher, hint) = true := by
      cases matcher <;> simp [Compiled.accepts]
    cases hint with
    | none =>
      simp only [andStep, own, List.forall_mem_cons, List.filterMap_cons]
      tauto
    | some spec =>
      cases held with
      | none =>
        simp only [andStep, own, List.forall_mem_cons, List.filterMap_cons, Option.none_or,
          Option.some_or, List.head?_cons]
        tauto
      | some held =>
        simp only [andStep]
        split
        · rename_i same
          subst same
          simp only [own, List.forall_mem_cons, List.filterMap_cons, Option.some_or]
          tauto
        · rename_i differ
          simp only [List.all_append, List.all_cons, Matcher.accepts_unsupportedSelector,
            Bool.false_and, Bool.and_false, Bool.false_eq_true, false_and,
            List.filterMap_cons, List.forall_mem_cons, Option.some_or, Option.some.injEq,
            false_iff]
          intro holds
          exact differ holds.2.2.1.symm

theorem Compiled.accepts_compileNot {child : Compiled} (matched : child.2 = none → child.1 ≠ none) :
    (compileNot child).accepts upId state = (!child.accepts upId state && child.2.isNone) := by
  obtain ⟨matcher, hint⟩ := child
  cases hint with
  | some spec => simp [compileNot, accepts]
  | none =>
    cases matcher with
    | none => exact absurd rfl (matched rfl)
    | some matcher => simp [compileNot, accepts, Matcher.accepts_selectorNot]

theorem Compiled.accepts_compileOr {children : List Compiled}
    (matched : ∀ child ∈ children, child.2 = none → child.1 ≠ none) :
    (compileOr children).accepts upId state =
      (children.any (·.accepts upId state) && children.all (·.2.isNone)) := by
  rw [compileOr]
  split
  · rename_i sorted
    obtain ⟨child, member, hint⟩ := List.any_eq_true.mp sorted
    have notAll : children.all (·.2.isNone) = false := by
      rw [List.all_eq_false]
      exact ⟨child, member, by simpa [Option.isSome_iff_ne_none] using hint⟩
    rw [notAll, Bool.and_false]
    rfl
  · rename_i unsorted
    have noHint : ∀ child ∈ children, child.2 = none := by
      intro child member
      cases hint : child.2 with
      | none => rfl
      | some spec =>
        exact absurd (List.any_eq_true.mpr ⟨child, member, by simp [hint]⟩) unsorted
    have isAll : children.all (·.2.isNone) = true := by
      rw [List.all_eq_true]
      intro child member
      rw [noHint child member, Option.isNone_none]
    rw [isAll, Bool.and_true, accepts, Option.all_some, Matcher.accepts_selectorOr,
      Bool.eq_iff_iff, List.any_eq_true, List.any_eq_true]
    constructor
    · rintro ⟨matcher, member, accepted⟩
      obtain ⟨child, isChild, hmatcher⟩ := List.mem_filterMap.mp member
      exact ⟨child, isChild, by rw [accepts, hmatcher, Option.all_some, accepted]⟩
    · rintro ⟨child, isChild, accepted⟩
      obtain ⟨matcher, hmatcher⟩ :=
        Option.ne_none_iff_exists'.mp (matched child isChild (noHint child isChild))
      rw [accepts, hmatcher, Option.all_some] at accepted
      exact ⟨matcher, List.mem_filterMap.mpr ⟨child, isChild, hmatcher⟩, accepted⟩

theorem accepts_compileSelector (regular : isRegular selector) :
    (compileSelector predict selector).accepts upId state =
      admits predict upId state selector := by
  induction selector with
  | and children ih =>
    rw [isRegular_and_iff] at regular
    rw [compileSelector, compileAll_eq_map, compileAnd, Compiled.accepts, Option.all_some,
      Matcher.accepts_selectorAnd, admits, Bool.eq_iff_iff, all_foldl_andStep,
      filterMap_compileSelector_snd, Option.none_or, Bool.and_eq_true, hintsAgree]
    simp only [List.all_nil, true_and, List.forall_mem_map, List.all_map, List.all_eq_true,
      Function.comp_def, id, beq_iff_eq]
    refine and_congr_left' (forall₂_congr fun child member => ?_)
    rw [ih child member (regular child member)]
  | or children ih =>
    rw [isRegular_or_iff] at regular
    rw [compileSelector, compileAll_eq_map, Compiled.accepts_compileOr, admits]
    · simp only [List.any_map, List.all_map, Function.comp_def, id, compileSelector_snd]
      congr 1
      rw [Bool.eq_iff_iff, List.any_eq_true, List.any_eq_true]
      refine exists_congr fun child => and_congr_right fun member => ?_
      rw [ih child member (regular child member).1]
    · simp only [List.forall_mem_map, compileSelector_snd]
      intro child member unsorted unmatched
      have vacuous := isVacuous_of_compileSelector predict unmatched unsorted
      rw [(regular child member).2] at vacuous
      cases vacuous
  | not child ih =>
    rw [isRegular, Bool.and_eq_true, Bool.and_eq_true] at regular
    rw [compileSelector, Compiled.accepts_compileNot, ih regular.1.1, admits,
      compileSelector_snd]
    intro unsorted unmatched
    have vacuous := isVacuous_of_compileSelector predict unmatched
      (compileSelector_snd predict child ▸ unsorted)
    simp [vacuous] at regular
  | blockTag tag => cases tag <;> simp [compileSelector, Compiled.accepts, admits]
  | lowerHeight height boundType timeOffset heightDelta =>
    by_cases isZero : height = 0
    all_goals simp [compileSelector, Compiled.accepts, admits, isZero]
  | any | label | existsLabel | height | slotHeight | unsupported =>
    simp [compileSelector, Compiled.accepts, admits]

end

variable (sources : RoutingSources)

theorem isSuccess_buildSelectorRouting (selectors : List RequestSelector)
    (upId : String) (state : UpstreamState) :
    (multiMatch (sources.buildSelectorRouting selectors).1 upId state).isSuccess = true ↔
      ∀ selector ∈ selectors,
        (compileSelector sources.predict selector).accepts upId state = true := by
  rw [isSuccess_multiMatch, List.all_eq_true]
  simp only [RoutingSources.buildSelectorRouting, List.mem_filterMap, List.mem_map]
  constructor
  · intro accepted selector member
    rw [Compiled.accepts, Option.all_eq_true]
    intro matcher hmatcher
    exact accepted matcher ⟨_, ⟨selector, member, rfl⟩, hmatcher⟩
  · rintro accepted matcher ⟨_, ⟨selector, member, rfl⟩, hmatcher⟩
    have here := accepted selector member
    rw [Compiled.accepts, hmatcher, Option.all_some] at here
    exact here

theorem isSuccess_routing_of_regular (selectors : List RequestSelector)
    (regular : ∀ selector ∈ selectors, isRegular selector) (upId : String) (state : UpstreamState) :
    (multiMatch (sources.buildSelectorRouting selectors).1 upId state).isSuccess = true ↔
      ∀ selector ∈ selectors, admits sources.predict upId state selector = true := by
  rw [isSuccess_buildSelectorRouting]
  refine forall₂_congr fun selector member => ?_
  rw [accepts_compileSelector sources.predict upId state (regular selector member)]

/-- The matchers of a request's selectors accept an upstream exactly if every
selector admits it, for regular selectors. -/
theorem buildSelectorRouting_accepts_iff (sources : RoutingSources)
    (selectors : List RequestSelector) (regular : ∀ selector ∈ selectors, isRegular selector)
    (upId : String) (state : UpstreamState) :
    (multiMatch (sources.buildSelectorRouting selectors).1 upId state).type = .successType ↔
      ∀ selector ∈ selectors, admits sources.predict upId state selector := by
  rw [← MatchResponse.isSuccess_iff_type]
  exact isSuccess_routing_of_regular sources selectors regular upId state

/-- An upstream labelled with its region passes a label, an order and a negation. -/
theorem buildSelectorRouting_accepts_region :
    let sources : RoutingSources := ⟨fun _ => none, fun _ => none⟩
    let state : UpstreamState :=
      { defaultUpstreamState ⟨∅⟩ ∅ "01" none none with labels := AList.singleton "region" "eu" }
    (multiMatch (sources.buildSelectorRouting
      [.and [.label "region" ["eu"], .blockTag .latest], .not (.existsLabel "archive")]).1
        "up" state).type = .successType := by
  intro sources state
  refine (buildSelectorRouting_accepts_iff sources _ ?_ "up" state).mpr ?_
  · simp [isRegular, isVacuous, isSupported]
  · have region : Matcher.accepts "up" state (.label "region" ["eu"]) = true := by decide
    have archive : Matcher.accepts "up" state (.labelExists "archive") = false := by decide
    simp [admits, hintsAgree, sortHint, region, archive]

/-- Two orders are each served alone, and both in a list, but not below one AND; and an OR with
an unsupported part accepts what another part of it accepts. -/
theorem conflicting_orders_rejected :
    let sources : RoutingSources := ⟨fun _ => none, fun _ => none⟩
    let state : UpstreamState :=
      { defaultUpstreamState ⟨∅⟩ ∅ "01" none none with labels := AList.singleton "region" "eu" }
    (multiMatch (sources.buildSelectorRouting [.and [.blockTag .latest, .blockTag .safe]]).1
        "up" state).type = .selectorType ∧
      (multiMatch (sources.buildSelectorRouting [.blockTag .latest, .blockTag .safe]).1
        "up" state).type = .successType ∧
      (multiMatch (sources.buildSelectorRouting
        [.or [.unsupported "unknown selector", .label "region" ["eu"]]]).1
        "up" state).type = .successType := by
  decide

end Nodecore.Flow
