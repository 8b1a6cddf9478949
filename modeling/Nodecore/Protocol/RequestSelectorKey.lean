/-
# Keys of selectors

Every selector has a text that identifies it.  For caching, a request's selectors
are first reduced to what they say about labels: everything else is taken to hold,
and what is left is written down as a key.

The main result here says when the key determines the reduced tree: if no name or
value contains a character that the key uses as a separator behind it.
-/

import Mathlib.Data.List.Sort
import Nodecore.Lib.KeyTerm
import Nodecore.Protocol.RequestSelector

namespace Nodecore.Protocol

open Lib

def sortStrings (parts : List String) : List String := parts.insertionSort (· ≤ ·)

/-- The parts of a group in a fixed order, separated by bars. -/
def joinSorted (parts : List String) : String := "|".intercalate (sortStrings parts)

def LowerBoundType.number : LowerBoundType → ℕ
  | .unknownBound => 1
  | .slotBound => 2
  | .stateBound => 3
  | .receiptsBound => 4
  | .txBound => 5
  | .blockBound => 6
  | .logsBound => 7
  | .traceBound => 8
  | .proofBound => 9
  | .epochBound => 10
  | .blobBound => 11

def RequestBlockTag.number : RequestBlockTag → Int64
  | .latest => 0
  | .safe => 1
  | .finalized => 2
  | .other tag => tag

namespace RequestSelector

def labelKey (name : String) (values : List String) : String :=
  "label(" ++ name ++ "=" ++ joinSorted values ++ ")"

def existsKey (name : String) : String := "exists(" ++ name ++ ")"

mutual

def key : RequestSelector → String
  | any => "any"
  | label name values => labelKey name values
  | existsLabel name => existsKey name
  | and children => "and(" ++ joinSorted (keys children) ++ ")"
  | or children => "or(" ++ joinSorted (keys children) ++ ")"
  | not child => "not(" ++ key child ++ ")"
  | height number => "height(" ++ toString number ++ ")"
  | blockTag tag => "tag(" ++ toString tag.number ++ ")"
  | slotHeight number => "slot(" ++ toString number ++ ")"
  | lowerHeight number boundType timeOffset heightDelta =>
    "lower(" ++ toString number ++ "," ++ toString boundType.number ++ "," ++
      toString timeOffset ++ "," ++ toString heightDelta ++ ")"
  | unsupported reason => "unsupported(" ++ reason ++ ")"

def keys : List RequestSelector → List String
  | [] => []
  | child :: rest => key child :: keys rest

end

/-- The key of a group of parts: a group of one part is that part. -/
def groupKey (word : String) : List String → String
  | [] => ""
  | [part] => part
  | parts => word ++ "(" ++ "|".intercalate parts ++ ")"

mutual

/-- The key of what a selector says about labels; empty if it says nothing. -/
def labelClassKey : RequestSelector → String
  | label name values => labelKey name values
  | existsLabel name => existsKey name
  | and children =>
    groupKey "and" (sortStrings ((labelClassKeys children).filter (· ≠ "")))
  | or children =>
    if "" ∈ labelClassKeys children then ""
    else groupKey "or" (sortStrings (labelClassKeys children))
  | not child =>
    if labelClassKey child = "" then "" else "not(" ++ labelClassKey child ++ ")"
  | _ => ""

def labelClassKeys : List RequestSelector → List String
  | [] => []
  | child :: rest => labelClassKey child :: labelClassKeys rest

end

theorem labelClassKeys_eq_map (children : List RequestSelector) :
    labelClassKeys children = children.map labelClassKey := by
  induction children with
  | nil => rfl
  | cons child rest ih => rw [labelClassKeys, ih, List.map_cons]

end RequestSelector

/-- Top-level selectors are read like one AND. -/
def labelCacheKey (selectors : List RequestSelector) : String :=
  RequestSelector.labelClassKey (.and selectors)

/-- A test of one label.  The values stand in sorted order. -/
inductive LabelTest
  | label (name : String) (values : List String)
  | existsLabel (name : String)
  deriving DecidableEq

inductive Connective
  | and | or | not
  deriving DecidableEq

/-- Trees of selectors, whatever their leaves. -/
abbrev SelectorTerm (α : Type) := KeyTerm α Connective

namespace SelectorTerm

def showConnective : Connective → List Char
  | .and => ['a', 'n', 'd']
  | .or => ['o', 'r']
  | .not => ['n', 'o', 't']

variable {α : Type} (showLeaf : α → List Char)

def text (term : SelectorTerm α) : String := String.ofList (term.render showLeaf showConnective)

/-- The members of a group in the order of their keys. -/
def sorted (terms : List (SelectorTerm α)) : List (SelectorTerm α) :=
  terms.insertionSort fun term other => term.text showLeaf ≤ other.text showLeaf

theorem map_text_sorted (terms : List (SelectorTerm α)) :
    (sorted showLeaf terms).map (text showLeaf) = sortStrings (terms.map (text showLeaf)) :=
  List.map_insertionSort _ _ _ _ fun _ _ _ _ => Iff.rfl

theorem text_node (connective : Connective) (terms : List (SelectorTerm α)) :
    text showLeaf (.node connective terms) =
      String.ofList (showConnective connective) ++ "(" ++
        "|".intercalate (terms.map (text showLeaf)) ++ ")" := by
  rw [← String.toList_inj, text, String.toList_ofList, KeyTerm.render,
    KeyTerm.renderAll_eq_intercalate]
  simp [String.toList_intercalate, text, Function.comp_def]

end SelectorTerm

abbrev ClassTerm := SelectorTerm LabelTest

open SelectorTerm (showConnective)

variable (name : String)

namespace ClassTerm

def showTest : LabelTest → List Char
  | .label name values =>
    ['l', 'a', 'b', 'e', 'l', '('] ++ (name.toList ++ '=' ::
      (List.intercalate ['|'] (values.map String.toList) ++ [')']))
  | .existsLabel name => ['e', 'x', 'i', 's', 't', 's', '('] ++ (name.toList ++ [')'])

abbrev text (term : ClassTerm) : String := SelectorTerm.text showTest term

abbrev sorted (terms : List ClassTerm) : List ClassTerm := SelectorTerm.sorted showTest terms

theorem map_text_sorted (terms : List ClassTerm) :
    (sorted terms).map text = sortStrings (terms.map text) :=
  SelectorTerm.map_text_sorted showTest terms

theorem mem_sorted {term : ClassTerm} {terms : List ClassTerm} :
    term ∈ sorted terms ↔ term ∈ terms := List.mem_insertionSort _

def group (connective : Connective) : List ClassTerm → Option ClassTerm
  | [] => none
  | [term] => some term
  | terms => some (.node connective (sorted terms))

theorem text_ne_empty (term : ClassTerm) : term.text ≠ "" := by
  intro empty
  have chars := congrArg String.toList empty
  rw [text, SelectorTerm.text, String.toList_ofList] at chars
  cases term with
  | atom test => cases test <;> simp [KeyTerm.render, showTest] at chars
  | node connective children => simp [KeyTerm.render] at chars

variable (connective : Connective)

theorem text_node (terms : List ClassTerm) :
    text (.node connective terms) =
      String.ofList (showConnective connective) ++ "(" ++ "|".intercalate (terms.map text) ++
        ")" := SelectorTerm.text_node showTest connective terms

theorem text_label (values : List String) :
    text (.atom (.label name (sortStrings values))) = RequestSelector.labelKey name values := by
  rw [← String.toList_inj, text, SelectorTerm.text, String.toList_ofList, KeyTerm.render, showTest]
  simp [RequestSelector.labelKey, joinSorted, String.toList_intercalate]

theorem text_existsLabel : text (.atom (.existsLabel name)) = RequestSelector.existsKey name := by
  rw [← String.toList_inj, text, SelectorTerm.text, String.toList_ofList, KeyTerm.render, showTest]
  simp [RequestSelector.existsKey]

theorem groupKey_eq (terms : List ClassTerm) :
    RequestSelector.groupKey (String.ofList (showConnective connective))
        (sortStrings (terms.map text)) =
      (group connective terms).elim "" text := by
  match terms with
  | [] => rfl
  | [term] => rfl
  | term :: next :: rest =>
    have sortedLength : (sorted (term :: next :: rest)).length = rest.length + 2 :=
      (List.perm_insertionSort _ _).length_eq
    have isNode : group connective (term :: next :: rest) =
        some (.node connective (sorted (term :: next :: rest))) := rfl
    rw [← map_text_sorted, isNode, Option.elim_some, text_node]
    match hsorted : sorted (term :: next :: rest) with
    | [] => simp [hsorted] at sortedLength
    | [_] => simp [hsorted] at sortedLength
    | _ :: _ :: _ => rfl

end ClassTerm

namespace RequestSelector

/-- What a selector says about labels, as a tree; nothing if it says nothing. -/
def classTerm : RequestSelector → Option ClassTerm
  | label name values => some (.atom (.label name (sortStrings values)))
  | existsLabel name => some (.atom (.existsLabel name))
  | and children => ClassTerm.group .and (children.filterMap fun child => classTerm child)
  | or children =>
    if (children.map fun child => classTerm child).any Option.isNone then none
    else ClassTerm.group .or (children.filterMap fun child => classTerm child)
  | not child => (classTerm child).map fun term => .node .not [term]
  | _ => none

section

variable {children : List RequestSelector}
  (texts : ∀ child ∈ children,
    child.labelClassKey = child.classTerm.elim "" ClassTerm.text)

include texts

theorem filter_map_labelClassKey :
    (children.map labelClassKey).filter (· ≠ "") =
      (children.filterMap classTerm).map ClassTerm.text := by
  induction children with
  | nil => rfl
  | cons child rest ih =>
    rw [List.map_cons, List.filter_cons, ih fun c hc => texts c (List.mem_cons_of_mem _ hc),
      texts child List.mem_cons_self, List.filterMap_cons]
    cases child.classTerm with
    | none => simp
    | some term => simp [term.text_ne_empty]

theorem empty_mem_map_labelClassKey :
    "" ∈ children.map labelClassKey ↔ (children.map classTerm).any Option.isNone := by
  rw [List.mem_map, List.any_map, List.any_eq_true]
  refine exists_congr fun child => and_congr_right fun member => ?_
  rw [texts child member, Function.comp_apply]
  cases child.classTerm with
  | none => simp
  | some term => simp [term.text_ne_empty]

end

theorem labelClassKey_eq (selector : RequestSelector) :
    selector.labelClassKey = selector.classTerm.elim "" ClassTerm.text := by
  induction selector with
  | label name values => simp [labelClassKey, classTerm, ClassTerm.text_label]
  | existsLabel name => simp [labelClassKey, classTerm, ClassTerm.text_existsLabel]
  | and children ih =>
    rw [labelClassKey, labelClassKeys_eq_map, filter_map_labelClassKey ih, classTerm]
    exact ClassTerm.groupKey_eq .and _
  | or children ih =>
    rw [labelClassKey, labelClassKeys_eq_map, classTerm]
    by_cases unconstrained : "" ∈ children.map labelClassKey
    · rw [if_pos unconstrained, if_pos ((empty_mem_map_labelClassKey ih).mp unconstrained)]
      rfl
    · have kept : (children.map labelClassKey).filter (· ≠ "") =
          children.map labelClassKey := by
        rw [List.filter_eq_self]
        intro part member
        simpa using fun (empty : part = "") => unconstrained (empty ▸ member)
      rw [if_neg unconstrained, if_neg fun found =>
          unconstrained ((empty_mem_map_labelClassKey ih).mpr found),
        ← kept, filter_map_labelClassKey ih]
      exact ClassTerm.groupKey_eq .or _
  | not child ih =>
    rw [labelClassKey, ih, classTerm]
    cases child.classTerm with
    | none => rfl
    | some term =>
      rw [Option.elim_some, if_neg term.text_ne_empty, Option.map_some, Option.elim_some,
        ClassTerm.text_node, ← String.toList_inj]
      simp [showConnective]
  | any | height | blockTag | slotHeight | lowerHeight | unsupported =>
    simp [labelClassKey, classTerm]

end RequestSelector

/-- The name and the values of a test end where the key says they end.  An empty
list of values and the list of the empty value have the same text. -/
def LabelTest.isLegible : LabelTest → Bool
  | .label name values =>
    !name.toList.contains '=' && values != [""] &&
      values.all fun value => !value.toList.contains '|' && !value.toList.contains ')'
  | .existsLabel name => !name.toList.contains ')'

namespace ClassTerm

theorem intercalate_inj {separator : Char} {values others : List String}
    (legible : ∀ value ∈ values, separator ∉ value.toList)
    (legible' : ∀ value ∈ others, separator ∉ value.toList)
    (nonblank : values ≠ [""]) (nonblank' : others ≠ [""])
    (same : List.intercalate [separator] (values.map String.toList) =
      List.intercalate [separator] (others.map String.toList)) : values = others := by
  -- splitting at the separators gives the values back, and the empty text gives one empty value
  have split {list : List String} (legible : ∀ value ∈ list, separator ∉ value.toList)
      (nonempty : list ≠ []) :
      List.splitOn separator (List.intercalate [separator] (list.map String.toList)) =
        list.map String.toList := by
    apply List.splitOn_intercalate
    · simpa using legible
    · simpa using nonempty
  have blank {list : List String} (same : [[]] = list.map String.toList) : list = [""] :=
    ((List.map_inj_right fun _ _ => String.toList_injective).mp
      (show [""].map String.toList = list.map String.toList from same)).symm
  by_cases empty : values = []
  · by_cases empty' : others = []
    · rw [empty, empty']
    · have texts := split legible' empty'
      rw [← same, empty] at texts
      exact absurd (blank texts) nonblank'
  · by_cases empty' : others = []
    · have texts := split legible empty
      rw [same, empty'] at texts
      exact absurd (blank texts) nonblank
    · have texts := split legible empty
      rw [same, split legible' empty'] at texts
      exact ((List.map_inj_right fun _ _ => String.toList_injective).mp texts).symm

theorem showTest_label_inj {name name' : String} {values values' : List String}
    {rest rest' : List Char} (legible : (LabelTest.label name values).isLegible)
    (legible' : (LabelTest.label name' values').isLegible)
    (same : showTest (.label name values) ++ rest = showTest (.label name' values') ++ rest') :
    LabelTest.label name values = .label name' values' ∧ rest = rest' := by
  simp only [LabelTest.isLegible, Bool.and_eq_true, Bool.not_eq_true', List.contains_eq_mem,
    decide_eq_false_iff_not, bne_iff_ne, List.all_eq_true] at legible legible'
  obtain ⟨⟨nameLegible, nonblank⟩, valuesLegible⟩ := legible
  obtain ⟨⟨nameLegible', nonblank'⟩, valuesLegible'⟩ := legible'
  simp only [showTest, List.append_assoc, List.cons_append, List.nil_append, List.cons.injEq,
    true_and] at same
  obtain ⟨sameName, afterName⟩ := append_cons_inj_of_not_mem nameLegible nameLegible' same
  have closed {list : List String}
      (legible : ∀ value ∈ list, '|' ∉ value.toList ∧ ')' ∉ value.toList) :
      ')' ∉ List.intercalate ['|'] (list.map String.toList) :=
    not_mem_intercalate (by decide) (by simpa using fun value member => (legible value member).2)
  obtain ⟨sameValues, sameRest⟩ :=
    append_cons_inj_of_not_mem (closed valuesLegible) (closed valuesLegible') afterName
  have values_eq := intercalate_inj (fun value member => (valuesLegible value member).1)
    (fun value member => (valuesLegible' value member).1) nonblank nonblank' sameValues
  rw [String.toList_injective sameName, values_eq]
  exact ⟨rfl, sameRest⟩

theorem readable : KeyTerm.Readable showTest showConnective
    (fun test => LabelTest.isLegible test = true) where
  atoms := by
    intro test other legible legible' rest rest' same
    cases test with
    | label name values =>
      cases other with
      | label name' values' => exact showTest_label_inj legible legible' same
      | existsLabel name' => simp [showTest] at same
    | existsLabel name =>
      cases other with
      | label name' values' => simp [showTest] at same
      | existsLabel name' =>
        simp only [LabelTest.isLegible, Bool.not_eq_true', List.contains_eq_mem,
          decide_eq_false_iff_not] at legible legible'
        simp only [showTest, List.append_assoc, List.cons_append, List.nil_append,
          List.cons.injEq, true_and] at same
        obtain ⟨sameName, sameRest⟩ := append_cons_inj_of_not_mem legible legible' same
        rw [String.toList_injective sameName]
        exact ⟨rfl, sameRest⟩
  nodes := by
    intro connective other rest rest' same
    cases connective <;> cases other <;> simp [showConnective] at same ⊢ <;> exact same
  apart := by
    intro test connective rest rest' _ same
    cases test <;> cases connective <;> simp [showTest, showConnective] at same
  atomOpen := by
    intro test rest rest' _ same
    cases test <;> simp [showTest] at same
  nodeOpen := by
    intro connective rest rest' same
    cases connective <;> simp [showConnective] at same

end ClassTerm

theorem LabelTest.isLegible_sortStrings (values : List String) :
    (LabelTest.label name (sortStrings values)).isLegible =
      (LabelTest.label name values).isLegible := by
  have perm : (sortStrings values).Perm values := List.perm_insertionSort _ values
  have blank : (sortStrings values != [""]) = (values != [""]) := by
    rw [Bool.eq_iff_iff, bne_iff_ne, bne_iff_ne, ne_eq, ne_eq, ← List.perm_singleton,
      ← List.perm_singleton, perm.congr_left]
  rw [isLegible, isLegible, blank, perm.all_eq]

namespace RequestSelector

/-- Every name and value of the tree can be read back from its key. -/
def isLegible : RequestSelector → Bool
  | label name values => (LabelTest.label name values).isLegible
  | existsLabel name => (LabelTest.existsLabel name).isLegible
  | and children => (children.map fun child => isLegible child).all id
  | or children => (children.map fun child => isLegible child).all id
  | not child => isLegible child
  | _ => true

theorem wellFormed_group {connective : Connective} {terms : List ClassTerm} {term : ClassTerm}
    (members : ∀ term ∈ terms, KeyTerm.WellFormed (fun test => LabelTest.isLegible test) term)
    (isGroup : ClassTerm.group connective terms = some term) :
    KeyTerm.WellFormed (fun test => LabelTest.isLegible test) term := by
  match terms with
  | [] => cases isGroup
  | [single] =>
    rw [ClassTerm.group, Option.some.injEq] at isGroup
    exact isGroup ▸ members single List.mem_cons_self
  | first :: next :: rest =>
    cases isGroup
    exact .node fun member isMember => members member (ClassTerm.mem_sorted.mp isMember)

theorem wellFormed_classTerm {selector : RequestSelector} (legible : selector.isLegible)
    {term : ClassTerm} (reduced : selector.classTerm = some term) :
    KeyTerm.WellFormed (fun test => LabelTest.isLegible test) term := by
  have members {children : List RequestSelector}
      (ih : ∀ child ∈ children, child.isLegible → ∀ {term : ClassTerm},
        child.classTerm = some term →
          KeyTerm.WellFormed (fun test => LabelTest.isLegible test) term)
      (legible : (children.map fun child => child.isLegible).all id)
      (member : ClassTerm) (isMember : member ∈ children.filterMap classTerm) :
      KeyTerm.WellFormed (fun test => LabelTest.isLegible test) member := by
    obtain ⟨child, isChild, hchild⟩ := List.mem_filterMap.mp isMember
    rw [List.all_map, List.all_eq_true] at legible
    exact ih child isChild (legible child isChild) hchild
  induction selector generalizing term with
  | label name values =>
    rw [classTerm, Option.some.injEq] at reduced
    rw [isLegible, ← LabelTest.isLegible_sortStrings] at legible
    exact reduced ▸ .atom legible
  | existsLabel name =>
    rw [classTerm, Option.some.injEq] at reduced
    rw [isLegible] at legible
    exact reduced ▸ .atom legible
  | and children ih =>
    rw [classTerm] at reduced
    rw [isLegible] at legible
    exact wellFormed_group (members ih legible) reduced
  | or children ih =>
    rw [classTerm] at reduced
    rw [isLegible] at legible
    split at reduced
    · cases reduced
    · exact wellFormed_group (members ih legible) reduced
  | not child ih =>
    rw [classTerm, Option.map_eq_some_iff] at reduced
    rw [isLegible] at legible
    obtain ⟨inner, hinner, rfl⟩ := reduced
    refine .node ?_
    intro member isMember
    rw [List.mem_singleton.mp isMember]
    exact ih legible hinner
  | any | height | blockTag | slotHeight | lowerHeight | unsupported =>
    simp [classTerm] at reduced

theorem classTerm_eq_of_labelClassKey_eq {selector other : RequestSelector}
    (legible : selector.isLegible) (legible' : other.isLegible)
    (same : selector.labelClassKey = other.labelClassKey) :
    selector.classTerm = other.classTerm := by
  rw [labelClassKey_eq, labelClassKey_eq] at same
  cases hterm : selector.classTerm with
  | none =>
    cases hother : other.classTerm with
    | none => rfl
    | some term =>
      rw [hterm, hother] at same
      exact absurd same.symm term.text_ne_empty
  | some term =>
    cases hother : other.classTerm with
    | none =>
      rw [hterm, hother] at same
      exact absurd same term.text_ne_empty
    | some term' =>
      rw [hterm, hother] at same
      rw [KeyTerm.render_inj ClassTerm.readable (wellFormed_classTerm legible hterm)
        (wellFormed_classTerm legible' hother) (String.ofList_injective same)]

end RequestSelector

end Nodecore.Protocol
