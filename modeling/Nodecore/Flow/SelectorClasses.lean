/-
# Which classes of upstreams a key stands for

Responses are cached under a key of what a request says about labels.  Requests
with the same key share cached responses, so the key should determine which
classes of upstreams, told apart by their labels, may serve the request.

The main result says that it does for requests in which negation is applied to
labels only and every text can be read back from the key.  Two counterexamples
show what goes wrong otherwise.
-/

import Nodecore.Flow.Selectors
import Nodecore.Protocol.RequestSelectorKey

namespace Nodecore.Flow

open Lib Protocol
open RequestSelector (classTerm isLegible)

/-- Some upstream with exactly these labels passes the matchers of the selectors,
whatever its head, slot and bounds. -/
def CanMatch (selectors : List RequestSelector) (labels : GoMap String String) : Prop :=
  ∃ sources : RoutingSources, ∃ upId, ∃ state : UpstreamState, state.labels = labels ∧
    (multiMatch (sources.buildSelectorRouting selectors).1 upId state).type = .successType

def LabelTest.holds (labels : GoMap String String) : LabelTest → Bool
  | .label name values =>
    (labels.lookup name).any fun value => values.isEmpty || values.contains value
  | .existsLabel name => (labels.lookup name).isSome

def holds (labels : GoMap String String) : ClassTerm → Bool
  | .atom test => LabelTest.holds labels test
  | .node .and children => (children.map fun child => holds labels child).all id
  | .node .or children => (children.map fun child => holds labels child).any id
  | .node .not children => !(children.map fun child => holds labels child).all id

/-- What a selector says about labels, as a condition on them. -/
def selects (labels : GoMap String String) (selector : RequestSelector) : Bool :=
  selector.classTerm.all (holds labels)

theorem filterMap_classTerm_ne_nil {children : List RequestSelector} (nonempty : children ≠ [])
    (constrained : ∀ child ∈ children, child.classTerm.isSome) :
    children.filterMap classTerm ≠ [] := by
  obtain ⟨child, rest, rfl⟩ := List.exists_cons_of_ne_nil nonempty
  obtain ⟨term, hterm⟩ := Option.isSome_iff_exists.mp (constrained child List.mem_cons_self)
  exact List.ne_nil_of_mem (List.mem_filterMap.mpr ⟨child, List.mem_cons_self, hterm⟩)

section

variable (labels : GoMap String String)

theorem all_group_and (terms : List ClassTerm) :
    (ClassTerm.group .and terms).all (holds labels) = terms.all (holds labels) := by
  match terms with
  | [] => rfl
  | [term] => simp [ClassTerm.group]
  | first :: next :: rest =>
    have isNode : ClassTerm.group .and (first :: next :: rest) =
        some (.node .and (ClassTerm.sorted (first :: next :: rest))) := rfl
    rw [isNode, Option.all_some, holds, List.all_map]
    exact (List.perm_insertionSort _ _).all_eq

theorem all_group_or {terms : List ClassTerm} (nonempty : terms ≠ []) :
    (ClassTerm.group .or terms).all (holds labels) = terms.any (holds labels) := by
  match terms with
  | [] => exact absurd rfl nonempty
  | [term] => simp [ClassTerm.group]
  | first :: next :: rest =>
    have isNode : ClassTerm.group .or (first :: next :: rest) =
        some (.node .or (ClassTerm.sorted (first :: next :: rest))) := rfl
    rw [isNode, Option.all_some, holds, List.any_map]
    exact (List.perm_insertionSort _ _).any_eq

theorem selects_and (children : List RequestSelector) :
    selects labels (.and children) = children.all (selects labels) := by
  rw [selects, classTerm, all_group_and, Bool.eq_iff_iff, List.all_eq_true,
    List.all_eq_true]
  constructor
  · intro holdsAll child member
    rw [selects, Option.all_eq_true]
    intro term hterm
    exact holdsAll term (List.mem_filterMap.mpr ⟨child, member, hterm⟩)
  · intro selectsAll term isTerm
    obtain ⟨child, member, hterm⟩ := List.mem_filterMap.mp isTerm
    have here := selectsAll child member
    rw [selects, hterm, Option.all_some] at here
    exact here

theorem selects_or {children : List RequestSelector} (nonempty : children ≠ []) :
    selects labels (.or children) = children.any (selects labels) := by
  rw [selects, classTerm]
  split
  · rename_i unconstrained
    rw [List.any_map, List.any_eq_true] at unconstrained
    obtain ⟨child, member, isNone⟩ := unconstrained
    rw [Function.comp_apply, Option.isNone_iff_eq_none] at isNone
    exact (List.any_eq_true.mpr ⟨child, member, by rw [selects, isNone]; rfl⟩).symm
  · rename_i constrained
    have every : ∀ child ∈ children, child.classTerm.isSome := by
      intro child member
      apply Option.isSome_iff_ne_none.mpr
      intro isNone
      exact constrained (List.any_eq_true.mpr ⟨none, List.mem_map.mpr ⟨child, member, isNone⟩, rfl⟩)
    have some_child := filterMap_classTerm_ne_nil nonempty every
    rw [all_group_or labels some_child, Bool.eq_iff_iff, List.any_eq_true, List.any_eq_true]
    constructor
    · rintro ⟨term, isTerm, termHolds⟩
      obtain ⟨child, member, hterm⟩ := List.mem_filterMap.mp isTerm
      exact ⟨child, member, by rw [selects, hterm, Option.all_some, termHolds]⟩
    · rintro ⟨child, member, childSelects⟩
      obtain ⟨term, hterm⟩ := Option.isSome_iff_exists.mp (every child member)
      rw [selects, hterm, Option.all_some] at childSelects
      exact ⟨term, List.mem_filterMap.mpr ⟨child, member, hterm⟩, childSelects⟩

theorem selects_not {child : RequestSelector} (constrained : child.classTerm.isSome) :
    selects labels (.not child) = !selects labels child := by
  obtain ⟨term, hterm⟩ := Option.isSome_iff_exists.mp constrained
  rw [selects, classTerm, selects, hterm, Option.map_some, Option.all_some,
    Option.all_some, holds, List.map_singleton, List.all_cons, List.all_nil, Bool.and_true, id]

end

/-- A tree of labels without empty groups. -/
def isLabels : RequestSelector → Bool
  | .label _ _ => true
  | .existsLabel _ => true
  | .and children => !children.isEmpty && (children.map fun child => isLabels child).all id
  | .or children => !children.isEmpty && (children.map fun child => isLabels child).all id
  | .not child => isLabels child
  | _ => false

/-- Negation is applied to labels only, every OR has an operand and each operand
has a matcher, and nothing is rejected outright.  Bounds are as they come from a
client: neither the height nor the delta is negative. -/
def isKeyable : RequestSelector → Bool
  | .and children => (children.map fun child => isKeyable child).all id && hintsAgree children
  | .or children =>
    !children.isEmpty && (children.map fun child =>
      isKeyable child && !isVacuous child && (sortHint child).isNone).all id
  | .not child => isLabels child
  | .blockTag (.other _) => false
  | .lowerHeight height _ _ heightDelta => decide (0 ≤ height) && decide (0 ≤ heightDelta)
  | .unsupported _ => false
  | _ => true

theorem isSome_group (connective : Connective) {terms : List ClassTerm} (nonempty : terms ≠ []) :
    (ClassTerm.group connective terms).isSome := by
  match terms with
  | [] => exact absurd rfl nonempty
  | [_] => rfl
  | _ :: _ :: _ => rfl

section

variable {children : List RequestSelector}

theorem isLabels_and_iff :
    isLabels (.and children) = true ↔
      children ≠ [] ∧ ∀ child ∈ children, isLabels child = true := by
  simp [isLabels, List.isEmpty_eq_false_iff]

theorem isLabels_or_iff :
    isLabels (.or children) = true ↔
      children ≠ [] ∧ ∀ child ∈ children, isLabels child = true := by
  simp [isLabels, List.isEmpty_eq_false_iff]

theorem isKeyable_and_iff :
    isKeyable (.and children) = true ↔
      (∀ child ∈ children, isKeyable child = true) ∧ hintsAgree children = true := by
  simp [isKeyable]

theorem isKeyable_or_iff :
    isKeyable (.or children) = true ↔
      children ≠ [] ∧ ∀ child ∈ children,
        isKeyable child = true ∧ isVacuous child = false ∧ sortHint child = none := by
  simp [isKeyable, and_assoc]

theorem isSome_classTerm_and (nonempty : children ≠ [])
    (constrained : ∀ child ∈ children, child.classTerm.isSome) :
    (RequestSelector.and children).classTerm.isSome := by
  rw [classTerm]
  exact isSome_group _ (filterMap_classTerm_ne_nil nonempty constrained)

theorem isSome_classTerm_or (nonempty : children ≠ [])
    (constrained : ∀ child ∈ children, child.classTerm.isSome) :
    (RequestSelector.or children).classTerm.isSome := by
  rw [classTerm, if_neg]
  · exact isSome_group _ (filterMap_classTerm_ne_nil nonempty constrained)
  · simp only [List.any_map, List.any_eq_true, not_exists, not_and, Function.comp_apply]
    intro child member isNone
    have isSome := constrained child member
    rw [Option.isNone_iff_eq_none.mp isNone] at isSome
    cases isSome

end

/-- What is known of a tree of labels: it has a part in the key, asks for no order
and is compiled as it reads. -/
structure Plain (selector : RequestSelector) : Prop where
  constrained : selector.classTerm.isSome
  unsorted : sortHint selector = none
  notVacuous : isVacuous selector = false
  supported : isSupported selector
  regular : isRegular selector

variable {selector : RequestSelector}

theorem plain_of_isLabels (labelsOnly : isLabels selector) : Plain selector := by
  induction selector with
  | label | existsLabel =>
    constructor <;> simp [classTerm, sortHint, isVacuous, isSupported, isRegular]
  | and children ih =>
    obtain ⟨nonempty, all⟩ := isLabels_and_iff.mp labelsOnly
    have plain := fun child member => ih child member (all child member)
    have unsorted : children.filterMap sortHint = [] :=
      List.filterMap_eq_nil_iff.mpr fun child member => (plain child member).unsorted
    have agree : hintsAgree children = true := by
      rw [hintsAgree, unsorted, List.all_nil]
    exact {
      constrained := isSome_classTerm_and nonempty fun child mem => (plain child mem).constrained
      unsorted := by rw [sortHint, unsorted, List.head?_nil]
      notVacuous := by simp [isVacuous]
      supported := isSupported_and_iff.mpr
        ⟨fun child member => (plain child member).supported, agree⟩
      regular := isRegular_and_iff.mpr fun child member => (plain child member).regular }
  | or children ih =>
    obtain ⟨nonempty, all⟩ := isLabels_or_iff.mp labelsOnly
    have plain := fun child member => ih child member (all child member)
    exact {
      constrained := isSome_classTerm_or nonempty fun child mem => (plain child mem).constrained
      unsorted := by simp [sortHint]
      notVacuous := by simp [isVacuous]
      supported := isSupported_or_iff.mpr fun child member =>
        ⟨(plain child member).supported, (plain child member).unsorted⟩
      regular := isRegular_or_iff.mpr fun child member =>
        ⟨(plain child member).regular, (plain child member).notVacuous⟩ }
  | not child ih =>
    rw [isLabels] at labelsOnly
    obtain ⟨constrained, unsorted, notVacuous, supported, regular⟩ := ih labelsOnly
    constructor <;> simp [classTerm, sortHint, isVacuous, isSupported, isRegular,
      constrained, unsorted, notVacuous, supported, regular]
  | any | height | blockTag | slotHeight | lowerHeight | unsupported =>
    simp [isLabels] at labelsOnly

theorem isRegular_of_isKeyable (keyable : isKeyable selector) : isRegular selector := by
  induction selector with
  | and children ih =>
    apply isRegular_and_iff.mpr
    intro child member
    exact ih child member ((isKeyable_and_iff.mp keyable).1 child member)
  | or children ih =>
    apply isRegular_or_iff.mpr
    intro child member
    have facts := (isKeyable_or_iff.mp keyable).2 child member
    exact ⟨ih child member facts.1, facts.2.1⟩
  | not child _ =>
    rw [isKeyable] at keyable
    have plain := plain_of_isLabels keyable
    rw [isRegular, plain.regular, plain.notVacuous, plain.supported]
    rfl
  | any | label | existsLabel | height | blockTag | slotHeight | lowerHeight | unsupported =>
    simp [isRegular]

section

variable (predict : LowerHeightPredictor) (upId : String) (state : UpstreamState)

theorem accepts_label (name : String) (values : List String) :
    Matcher.accepts upId state (.label name values) =
      selects state.labels (.label name values) := by
  have perm : (sortStrings values).Perm values := List.perm_insertionSort _ values
  have sameEmpty : (sortStrings values).isEmpty = values.isEmpty := by
    rw [Bool.eq_iff_iff, List.isEmpty_iff, List.isEmpty_iff]
    exact ⟨fun empty => List.perm_nil.mp (empty ▸ perm.symm), fun empty => by rw [empty]; rfl⟩
  rw [selects, classTerm, Option.all_some, holds, LabelTest.holds,
    Matcher.accepts, Matcher.respond, UpstreamState.getLabel]
  cases state.labels.lookup name with
  | none => rfl
  | some value =>
    have sameContains : (sortStrings values).contains value = values.contains value := by
      rw [List.contains_eq_mem, List.contains_eq_mem]
      exact decide_eq_decide.mpr perm.mem_iff
    rw [Option.any_some, sameEmpty, sameContains]
    dsimp only
    cases values.isEmpty || values.contains value with
    | true => rfl
    | false => rfl

theorem accepts_labelExists (name : String) :
    Matcher.accepts upId state (.labelExists name) =
      selects state.labels (.existsLabel name) := by
  rw [selects, classTerm, Option.all_some, holds, LabelTest.holds,
    Matcher.accepts, Matcher.respond, UpstreamState.getLabel]
  cases (state.labels.lookup name).isSome with
  | true => rfl
  | false => rfl

theorem admits_eq_selects (labelsOnly : isLabels selector) :
    admits predict upId state selector = selects state.labels selector := by
  induction selector with
  | label name values => rw [admits, accepts_label]
  | existsLabel name => rw [admits, accepts_labelExists]
  | and children ih =>
    have agree := (isSupported_and_iff.mp (plain_of_isLabels labelsOnly).supported).2
    have all := (isLabels_and_iff.mp labelsOnly).2
    rw [Bool.eq_iff_iff, admits_and_iff, selects_and, List.all_eq_true, and_iff_left agree]
    refine forall₂_congr fun child member => ?_
    rw [ih child member (all child member)]
  | or children ih =>
    obtain ⟨nonempty, all⟩ := isLabels_or_iff.mp labelsOnly
    have unsorted : ∀ child ∈ children, sortHint child = none :=
      fun child member => (plain_of_isLabels (all child member)).unsorted
    rw [Bool.eq_iff_iff, admits_or_iff, selects_or _ nonempty, List.any_eq_true,
      and_iff_left unsorted]
    refine exists_congr fun child => and_congr_right fun member => ?_
    rw [ih child member (all child member)]
  | not child ih =>
    rw [isLabels] at labelsOnly
    have plain := plain_of_isLabels labelsOnly
    rw [admits, ih labelsOnly, plain.unsorted, selects_not _ plain.constrained,
      Option.isNone_none, Bool.and_true]
  | any | height | blockTag | slotHeight | lowerHeight | unsupported =>
    simp [isLabels] at labelsOnly

theorem selects_of_admits (keyable : isKeyable selector)
    (admitted : admits predict upId state selector) : selects state.labels selector := by
  induction selector with
  | label name values =>
    rw [admits] at admitted
    rw [← accepts_label upId]
    exact admitted
  | existsLabel name =>
    rw [admits] at admitted
    rw [← accepts_labelExists upId]
    exact admitted
  | and children ih =>
    have all := (isKeyable_and_iff.mp keyable).1
    rw [admits_and_iff] at admitted
    rw [selects_and, List.all_eq_true]
    exact fun child member => ih child member (all child member) (admitted.1 child member)
  | or children ih =>
    obtain ⟨nonempty, all⟩ := isKeyable_or_iff.mp keyable
    obtain ⟨⟨child, member, childAdmitted⟩, _⟩ := admits_or_iff.mp admitted
    rw [selects_or _ nonempty, List.any_eq_true]
    exact ⟨child, member, ih child member (all child member).1 childAdmitted⟩
  | not child _ =>
    rw [isKeyable] at keyable
    have labelsOnly : isLabels (.not child) := by rw [isLabels, keyable]
    rw [← admits_eq_selects predict upId state labelsOnly]
    exact admitted
  | any | height | blockTag | slotHeight | lowerHeight | unsupported =>
    simp [selects, classTerm]

/-- An upstream so far ahead, and with such low bounds, that only labels can
exclude it. -/
structure Generous : Prop where
  height : ∀ height, Matcher.accepts upId state (.height height)
  slotHeight : ∀ slotHeight, Matcher.accepts upId state (.slotHeight slotHeight)
  lowerHeight : ∀ height boundType timeOffset heightDelta, 0 < height → 0 ≤ heightDelta →
    Matcher.accepts upId state (.lowerHeight height boundType timeOffset heightDelta predict)

variable {predict upId state}

theorem Generous.admits_of_selects (generous : Generous predict upId state)
    (keyable : isKeyable selector)
    (selected : selects state.labels selector) : admits predict upId state selector := by
  induction selector with
  | label name values => rw [admits, accepts_label, selected]
  | existsLabel name => rw [admits, accepts_labelExists, selected]
  | and children ih =>
    obtain ⟨all, agree⟩ := isKeyable_and_iff.mp keyable
    rw [selects_and, List.all_eq_true] at selected
    exact admits_and_iff.mpr
      ⟨fun child member => ih child member (all child member) (selected child member), agree⟩
  | or children ih =>
    obtain ⟨nonempty, all⟩ := isKeyable_or_iff.mp keyable
    rw [selects_or _ nonempty, List.any_eq_true] at selected
    obtain ⟨child, member, childSelected⟩ := selected
    exact admits_or_iff.mpr
      ⟨⟨child, member, ih child member (all child member).1 childSelected⟩,
        fun child member => (all child member).2.2⟩
  | not child _ =>
    rw [isKeyable] at keyable
    have labelsOnly : isLabels (.not child) := by rw [isLabels, keyable]
    rw [admits_eq_selects predict upId state labelsOnly, selected]
  | height height => rw [admits, generous.height]
  | slotHeight slotHeight => rw [admits, generous.slotHeight]
  | lowerHeight height boundType timeOffset heightDelta =>
    rw [isKeyable, Bool.and_eq_true, decide_eq_true_eq, decide_eq_true_eq] at keyable
    rw [admits]
    by_cases isZero : height = 0
    · simp [isZero]
    · have positive : 0 < height :=
        Int64.lt_of_le_of_ne keyable.1 fun zero => isZero zero.symm
      rw [generous.lowerHeight _ _ _ _ positive keyable.2, Bool.or_true]
  | blockTag tag => cases tag <;> simp [isKeyable, admits] at keyable ⊢
  | any => rw [admits]
  | unsupported => simp [isKeyable] at keyable

end

/-- An upstream with the given labels, the highest head and slot, and the lowest
predictions. -/
def generousState (labels : GoMap String String) : UpstreamState :=
  { defaultUpstreamState ⟨∅⟩ ∅ "" none none with
    headData := { height := 9223372036854775807, slot := 9223372036854775807 }
    labels := labels }

def generousSources : RoutingSources := ⟨fun _ => some fun _ _ => 1, fun _ => none⟩

theorem le_greatest_int64 (number : Int64) : number ≤ (9223372036854775807 : UInt64).toInt64 := by
  rw [Int64.le_iff_toInt_le, show (9223372036854775807 : UInt64).toInt64.toInt =
    9223372036854775807 by decide]
  have := number.toInt_lt
  omega

theorem one_sub_le_int64 {height delta : Int64} (positive : 0 < height) (nonnegative : 0 ≤ delta) :
    1 - delta ≤ height := by
  rw [Int64.lt_iff_toInt_lt, show (0 : Int64).toInt = 0 by decide] at positive
  rw [Int64.le_iff_toInt_le, show (0 : Int64).toInt = 0 by decide] at nonnegative
  have bound := delta.toInt_lt
  rw [Int64.le_iff_toInt_le, Int64.toInt_sub, show (1 : Int64).toInt = 1 by decide,
    Int.bmod_eq_of_le (by omega) (by omega)]
  omega

theorem generous_generousState (upId : String) (labels : GoMap String String) :
    Generous generousSources.predict upId (generousState labels) where
  height height := by
    rw [Matcher.accepts, Matcher.respond, generousState]
    simp only [le_greatest_int64 height, if_true]
    rfl
  slotHeight slotHeight := by
    rw [Matcher.accepts, Matcher.respond, generousState]
    simp only [le_greatest_int64 slotHeight, if_true]
    rfl
  lowerHeight height boundType timeOffset heightDelta positive nonnegative := by
    have low := one_sub_le_int64 positive nonnegative
    have predicted : generousSources.predict upId boundType timeOffset = 1 := rfl
    have nonzero : (1 : Int64) ≠ 0 := by decide
    rw [Matcher.accepts, Matcher.respond, predicted]
    simp only [low, ne_eq, nonzero, not_false_eq_true, and_self, if_true]
    rfl

theorem canMatch_iff {selectors : List RequestSelector}
    (keyable : ∀ selector ∈ selectors, isKeyable selector) (labels : GoMap String String) :
    CanMatch selectors labels ↔ selects labels (.and selectors) := by
  have regular : ∀ selector ∈ selectors, isRegular selector :=
    fun selector member => isRegular_of_isKeyable (keyable selector member)
  rw [selects_and, List.all_eq_true]
  constructor
  · rintro ⟨sources, upId, state, rfl, accepted⟩ selector member
    rw [← MatchResponse.isSuccess_iff_type, isSuccess_routing_of_regular _ _ regular] at accepted
    exact selects_of_admits _ upId state (keyable selector member) (accepted selector member)
  · intro selected
    refine ⟨generousSources, "", generousState labels, rfl, ?_⟩
    rw [← MatchResponse.isSuccess_iff_type, isSuccess_routing_of_regular _ _ regular]
    exact fun selector member => (generous_generousState "" labels).admits_of_selects
      (keyable selector member) (selected selector member)

/-- Keyable and legible selectors with the same cache key admit the same classes. -/
theorem canMatch_iff_of_labelCacheKey_eq {selectors others : List RequestSelector}
    (keyable : ∀ selector ∈ selectors, isKeyable selector ∧ selector.isLegible)
    (keyable' : ∀ selector ∈ others, isKeyable selector ∧ selector.isLegible)
    (sameKey : labelCacheKey selectors = labelCacheKey others) (labels : GoMap String String) :
    CanMatch selectors labels ↔ CanMatch others labels := by
  have legible {list : List RequestSelector}
      (keyable : ∀ selector ∈ list, isKeyable selector ∧ selector.isLegible) :
      (RequestSelector.and list).isLegible := by
    rw [isLegible, List.all_map, List.all_eq_true]
    exact fun selector member => (keyable selector member).2
  have sameTerm := RequestSelector.classTerm_eq_of_labelClassKey_eq
    (legible keyable) (legible keyable') sameKey
  rw [canMatch_iff fun selector member => (keyable selector member).1,
    canMatch_iff fun selector member => (keyable' selector member).1, selects, selects, sameTerm]

/-- Requests for two labels and for the absence of a third share a key in whatever
order they name them. -/
theorem canMatch_iff_reordered :
    let archive : RequestSelector := .label "archive" ["true"]
    let region : RequestSelector := .label "region" ["us", "eu"]
    let region' : RequestSelector := .label "region" ["eu", "us"]
    let traced : RequestSelector := .not (.existsLabel "trace")
    let labels : GoMap String String := AList.singleton "region" "eu"
    CanMatch [archive, .height 5, .or [region, traced]] labels ↔
      CanMatch [.or [traced, region'], archive] labels := by
  intro archive region region' traced labels
  refine canMatch_iff_of_labelCacheKey_eq ?_ ?_ (by decide) labels
  · simp [archive, region, traced, isKeyable, isLabels, isVacuous, sortHint,
      isLegible, LabelTest.isLegible]
  · simp [archive, region', traced, isKeyable, isLabels, isVacuous, sortHint,
      isLegible, LabelTest.isLegible]

/-- A bar inside a value reads like two values: the requests share a key, but only
one of them admits the class with the first of the two values. -/
theorem separator_in_value_collides :
    let joined : List RequestSelector := [.label "a" ["b|c"]]
    let separate : List RequestSelector := [.label "a" ["b", "c"]]
    labelCacheKey joined = labelCacheKey separate ∧
      CanMatch separate (AList.singleton "a" "b") ∧
      ¬ CanMatch joined (AList.singleton "a" "b") := by
  intro joined separate
  have single (values : List String) :
      selects (AList.singleton "a" "b") (.and [.label "a" values]) =
        Matcher.accepts "" (generousState (AList.singleton "a" "b")) (.label "a" values) := by
    rw [accepts_label, selects_and, List.all_cons, List.all_nil, Bool.and_true]
    rfl
  refine ⟨by decide, ?_, ?_⟩
  · rw [canMatch_iff (by simp [separate, isKeyable]), single]
    decide
  · rw [canMatch_iff (by simp [joined, isKeyable]), single]
    decide

/-- A leaf that is erased below a negation: the requests share a key, but an
upstream with the label and a low head passes the first and not the second. -/
example :
    let weaker : List RequestSelector := [.not (.and [.height 5, .label "a" ["b"]])]
    let stronger : List RequestSelector := [.not (.label "a" ["b"])]
    labelCacheKey weaker = labelCacheKey stronger ∧
      CanMatch weaker (AList.singleton "a" "b") ∧
      ¬ CanMatch stronger (AList.singleton "a" "b") := by
  intro weaker stronger
  refine ⟨by decide, ?_, ?_⟩
  · let state : UpstreamState :=
      { defaultUpstreamState ⟨∅⟩ ∅ "" none none with labels := AList.singleton "a" "b" }
    exact ⟨generousSources, "", state, rfl, by decide⟩
  · have present : selects (AList.singleton "a" "b") (.label "a" ["b"]) = true :=
      (accepts_label "" (generousState (AList.singleton "a" "b")) "a" ["b"]).symm.trans
        (by decide)
    have excluded : selects (AList.singleton "a" "b") (.not (.label "a" ["b"])) = false := by
      rw [selects_not _ (by simp [classTerm]), present]
      rfl
    rw [canMatch_iff (by simp [stronger, isKeyable, isLabels]), selects_and, List.all_cons,
      excluded]
    simp

end Nodecore.Flow
