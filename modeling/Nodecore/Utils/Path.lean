/-
# Templates of REST paths

A REST method is named by a template: a verb, a mark and a path in which a star stands for
one segment.  The templates of a chain are kept in a trie, whose edges are the segments.  A
request walks down the trie along its own segments, and those that go along a star are
captured.  The path for an upstream is built from the template and the captures.

The trie is only a way to hold a map from the edges of a template to the template; the
results about matching are stated over that map.
-/

import Mathlib.Data.List.Induction
import Nodecore.Lib.Bytes

namespace Nodecore.Utils

open Lib

def star : Bytes := bytes "*"

/-- The verb and the segments that are not empty. -/
def splitTemplate (template : Bytes) : List Bytes :=
  let parts := cut (byte '#') template
  let path := if parts.2.head? = some (byte '/') then parts.2.drop 1 else parts.2
  (if parts.1.isEmpty then [] else [parts.1]) ++
    (path.splitOn (byte '/')).filter fun segment => !segment.isEmpty

inductive PathNode
  | mk (children : List (Bytes × PathNode)) (wildcard : Option PathNode) (template : Bytes)

/-- What leads from one node to the next. -/
inductive Edge
  | literal (segment : Bytes)
  | wildcard
  deriving DecidableEq

/-- The edge for a segment of a template. -/
def edgeOf (segment : Bytes) : Edge := if segment = star then .wildcard else .literal segment

namespace PathNode

def new : PathNode := mk [] none []

def template : PathNode → Bytes
  | mk _ _ template => template

def next : PathNode → Edge → Option PathNode
  | mk children _ _, .literal segment => children.lookup segment
  | mk _ wildcard _, .wildcard => wildcard

def link (child : PathNode) : Edge → PathNode → PathNode
  | .literal segment, mk children wildcard template =>
    mk ((segment, child) :: children) wildcard template
  | .wildcard, mk children _ template => mk children (some child) template

/-- Adds a template under its edges, with the nodes that are missing. -/
def add (template : Bytes) : List Edge → PathNode → PathNode
  | [], mk children wildcard _ => mk children wildcard template
  | edge :: edges, node => link (add template edges ((node.next edge).getD new)) edge node

/-- Walks along the segments of a path, along a star only where no literal leads. -/
def matchFrom (captures : List Bytes) : List Bytes → PathNode → Option (Bytes × List Bytes)
  | [], node => if node.template.isEmpty then none else some (node.template, captures)
  | segment :: segments, node =>
    match node.next (.literal segment) with
    | some child => matchFrom captures segments child
    | none =>
      match node.next .wildcard with
      | some child => matchFrom (captures ++ [segment]) segments child
      | none => none

end PathNode

def newPathMatcher (templates : List Bytes) : PathNode :=
  templates.foldl (fun root template => root.add template ((splitTemplate template).map edgeOf))
    .new

/-- The template a path matches and what its stars stand for. -/
def matchPath (templates : List Bytes) (fullPath : Bytes) : Option (Bytes × List Bytes) :=
  (newPathMatcher templates).matchFrom [] (splitTemplate fullPath)

namespace PathNode

/-- The template at the end of some edges. -/
def templateAt : PathNode → List Edge → Bytes
  | node, [] => node.template
  | node, edge :: edges => ((node.next edge).map (templateAt · edges)).getD []

variable (node : PathNode)

theorem template_link (child : PathNode) (edge : Edge) :
    (link child edge node).template = node.template := by
  cases node
  cases edge <;> rfl

theorem next_link (child : PathNode) (edge other : Edge) :
    (link child edge node).next other = if other = edge then some child else node.next other := by
  cases node with
  | mk children wildcard template =>
    cases edge with
    | literal segment =>
      cases other with
      | literal looked =>
        by_cases same : looked = segment
        · simp [link, next, same]
        · have other : (looked == segment) = false := by simpa using same
          simp [link, next, same, List.lookup_cons, other]
      | wildcard => simp [link, next]
    | wildcard => cases other <;> simp [link, next]

theorem templateAt_new (edges : List Edge) : new.templateAt edges = [] := by
  cases edges with
  | nil => rfl
  | cons edge edges => cases edge <;> rfl

theorem templateAt_add (template : Bytes) (edges : List Edge) :
    (node.add template edges).templateAt = Function.update node.templateAt edges template := by
  induction edges generalizing node with
  | nil =>
    funext asked
    cases node with
    | mk children wildcard earlier =>
      cases asked with
      | nil => simp [add, templateAt, PathNode.template]
      | cons edge asked =>
        rw [Function.update_of_ne (by simp)]
        cases edge <;> rfl
  | cons edge edges ih =>
    funext asked
    cases asked with
    | nil => simp [add, templateAt, template_link]
    | cons first asked =>
      rw [add, templateAt, next_link]
      by_cases same : first = edge
      · subst same
        rw [if_pos rfl, Option.map_some, Option.getD_some, ih]
        by_cases rest : asked = edges
        · simp [rest]
        · rw [Function.update_of_ne rest, Function.update_of_ne (by simp [rest]), templateAt]
          cases node.next first with
          | none => exact templateAt_new asked
          | some child => rfl
      · rw [if_neg same, Function.update_of_ne (by simp [same]), templateAt]

end PathNode

variable {captures templates segments : List Bytes}

theorem templateAt_newPathMatcher {edges : List Edge}
    (held : (newPathMatcher templates).templateAt edges ≠ []) :
    (newPathMatcher templates).templateAt edges ∈ templates ∧
      edges = (splitTemplate ((newPathMatcher templates).templateAt edges)).map edgeOf := by
  induction templates using List.reverseRecOn with
  | nil => exact absurd (PathNode.templateAt_new edges) held
  | append_singleton templates template ih =>
    rw [newPathMatcher, List.foldl_append, List.foldl_cons, List.foldl_nil,
      PathNode.templateAt_add] at held ⊢
    by_cases same : edges = (splitTemplate template).map edgeOf
    · subst same
      simp
    · rw [Function.update_of_ne same] at held ⊢
      obtain ⟨listed, isEdges⟩ := ih held
      exact ⟨List.mem_append_left _ listed, isEdges⟩

/-- Some segments go along some edges, and those that go along stars are captured. -/
inductive Captures : List Edge → List Bytes → List Bytes → Prop
  | nil : Captures [] [] []
  | literal {edges segments captures} (segment : Bytes) :
      Captures edges segments captures →
        Captures (.literal segment :: edges) (segment :: segments) captures
  | wildcard {edges segments captures} (segment : Bytes) :
      Captures edges segments captures →
        Captures (.wildcard :: edges) (segment :: segments) (segment :: captures)

theorem Captures.length_eq {edges : List Edge} (walk : Captures edges segments captures) :
    captures.length = edges.count .wildcard := by
  induction walk with
  | nil => rfl
  | literal segment _ ih => rw [List.count_cons_of_ne (by simp), ih]
  | wildcard segment _ ih => rw [List.count_cons_self, List.length_cons, ih]

theorem PathNode.captures_of_matchFrom {earlier : List Bytes} {node : PathNode} {template : Bytes}
    (found : node.matchFrom earlier segments = some (template, captures)) :
    ∃ edges later, captures = earlier ++ later ∧ Captures edges segments later ∧
      node.templateAt edges = template ∧ template ≠ [] := by
  induction segments generalizing earlier node with
  | nil =>
    rw [matchFrom] at found
    split at found
    · cases found
    · rename_i named
      cases found
      exact ⟨[], [], by simp, .nil, rfl, by simpa using named⟩
  | cons segment segments ih =>
    rw [matchFrom] at found
    split at found
    · rename_i child isNext
      obtain ⟨edges, later, isCaptures, walk, held, named⟩ := ih found
      refine ⟨.literal segment :: edges, later, isCaptures, .literal segment walk, ?_, named⟩
      simp [templateAt, isNext, held]
    · split at found
      · rename_i child isNext
        obtain ⟨edges, later, isCaptures, walk, held, named⟩ := ih found
        refine ⟨.wildcard :: edges, segment :: later, ?_, .wildcard segment walk, ?_, named⟩
        · rw [isCaptures, List.append_assoc, List.singleton_append]
        · simp [templateAt, isNext, held]
      · cases found

theorem captures_of_matchPath {fullPath template : Bytes}
    (found : matchPath templates fullPath = some (template, captures)) :
    template ∈ templates ∧
      Captures ((splitTemplate template).map edgeOf) (splitTemplate fullPath) captures := by
  obtain ⟨edges, later, isCaptures, walk, held, named⟩ := PathNode.captures_of_matchFrom found
  have isHeld : (newPathMatcher templates).templateAt edges ≠ [] := held.symm ▸ named
  obtain ⟨listed, isEdges⟩ := templateAt_newPathMatcher isHeld
  rw [held] at listed isEdges
  rw [List.nil_append] at isCaptures
  exact ⟨listed, isEdges ▸ isCaptures ▸ walk⟩

/-- The segments with the parameters in the place of the stars. -/
def fill : List Bytes → List Bytes → Option (List Bytes)
  | [], _ => some []
  | segment :: segments, pathParams =>
    if segment = star then
      pathParams.head?.bind fun param => (fill segments pathParams.tail).map (param :: ·)
    else (fill segments pathParams).map (segment :: ·)

/-- The verb and the path, if there are enough parameters. -/
def buildRestURL (template : Bytes) (pathParams : List Bytes) : Option (Bytes × Bytes) :=
  let parts := cut (byte '#') template
  if parts.2.contains (byte '*') then
    (fill (parts.2.splitOn (byte '/')) pathParams).map fun segments =>
      (parts.1, [byte '/'].intercalate segments)
  else some parts

theorem fill_of_not_mem (absent : star ∉ segments) (pathParams : List Bytes) :
    fill segments pathParams = some segments := by
  induction segments with
  | nil => rfl
  | cons segment segments ih =>
    rw [List.mem_cons, not_or] at absent
    rw [fill, if_neg (Ne.symm absent.1), ih absent.2, Option.map_some]

theorem isSome_fill_iff (segments pathParams : List Bytes) :
    (fill segments pathParams).isSome = true ↔ segments.count star ≤ pathParams.length := by
  induction segments generalizing pathParams with
  | nil => simp [fill]
  | cons segment segments ih =>
    rw [fill]
    split
    · rename_i same
      rw [same, List.count_cons_self]
      cases pathParams with
      | nil => simp
      | cons param later => simp [ih]
    · rename_i other
      rw [List.count_cons_of_ne other, Option.isSome_map, ih]

/-- What is filled are the literal segments and as many parameters as there are stars. -/
theorem fill_perm {pathParams filled : List Bytes}
    (isFilled : fill segments pathParams = some filled) :
    filled.Perm (segments.filter (· ≠ star) ++ pathParams.take (segments.count star)) := by
  induction segments generalizing pathParams filled with
  | nil =>
    cases isFilled
    simp
  | cons first segments ih =>
    rw [fill] at isFilled
    split at isFilled
    · rename_i isStar
      obtain ⟨param, isFirst, isRest⟩ := Option.bind_eq_some_iff.mp isFilled
      obtain ⟨later, isLater, rfl⟩ := Option.map_eq_some_iff.mp isRest
      obtain ⟨params, rfl⟩ := List.head?_eq_some_iff.mp isFirst
      rw [isStar, List.filter_cons_of_neg (by simp), List.count_cons_self, List.take_succ_cons]
      exact ((ih isLater).cons param).trans List.perm_middle.symm
    · rename_i literal
      obtain ⟨later, isLater, rfl⟩ := Option.map_eq_some_iff.mp isFilled
      rw [List.filter_cons_of_pos (by simpa using literal), List.count_cons_of_ne literal]
      exact (ih isLater).cons first

theorem mem_fill {pathParams filled : List Bytes}
    (isFilled : fill segments pathParams = some filled) {segment : Bytes} :
    segment ∈ filled ↔ (segment ∈ segments ∧ segment ≠ star) ∨
      segment ∈ pathParams.take (segments.count star) := by
  rw [(fill_perm isFilled).mem_iff, List.mem_append, List.mem_filter, decide_eq_true_iff]

theorem buildRestURL_eq (template : Bytes) (pathParams : List Bytes) :
    buildRestURL template pathParams =
      (fill ((cut (byte '#') template).2.splitOn (byte '/')) pathParams).map fun segments =>
        ((cut (byte '#') template).1, [byte '/'].intercalate segments) := by
  unfold buildRestURL
  dsimp only
  split
  · rfl
  · rename_i starless
    have absent : star ∉ (cut (byte '#') template).2.splitOn (byte '/') := by
      intro listed
      have inside : byte '*' ∈ [byte '/'].intercalate
          ((cut (byte '#') template).2.splitOn (byte '/')) :=
        mem_intercalate_of_mem listed (by decide)
      rw [List.intercalate_splitOn] at inside
      exact starless (List.contains_iff_mem.mpr inside)
    rw [fill_of_not_mem absent, Option.map_some, List.intercalate_splitOn]

theorem count_map_edgeOf (segments : List Bytes) :
    (segments.map edgeOf).count .wildcard = segments.count star := by
  induction segments with
  | nil => rfl
  | cons segment segments ih =>
    rw [List.map_cons, List.count_cons, List.count_cons, ih]
    by_cases same : segment = star
    · simp [edgeOf, same]
    · simp [edgeOf, same]

theorem splitOn_slash_cons (path : Bytes) :
    (byte '/' :: path).splitOn (byte '/') = [] :: path.splitOn (byte '/') := by
  rw [List.splitOn_cons_eq_if_modifyHead, if_pos (beq_self_eq_true _)]

/-- The parts of a path between slashes that are not empty. -/
def pathSegments (path : Bytes) : List Bytes :=
  (path.splitOn (byte '/')).filter fun segment => !segment.isEmpty

theorem splitTemplate_eq (template : Bytes) :
    splitTemplate template =
      (if (cut (byte '#') template).1.isEmpty then [] else [(cut (byte '#') template).1]) ++
        pathSegments (cut (byte '#') template).2 := by
  unfold splitTemplate pathSegments
  dsimp only
  congr 1
  split
  · rename_i slash
    obtain ⟨path, isPath⟩ := List.head?_eq_some_iff.mp slash
    rw [isPath, splitOn_slash_cons]
    simp
  · rfl

theorem count_star_le (template : Bytes) :
    ((cut (byte '#') template).2.splitOn (byte '/')).count star ≤
      (splitTemplate template).count star := by
  rw [splitTemplate_eq, List.count_append, pathSegments, List.count_filter (by decide)]
  exact Nat.le_add_left _ _

theorem isSome_buildRestURL_of_matchPath {fullPath template : Bytes}
    (found : matchPath templates fullPath = some (template, captures)) :
    (buildRestURL template captures).isSome = true := by
  have count := (captures_of_matchPath found).2.length_eq
  rw [count_map_edgeOf] at count
  rw [buildRestURL_eq, Option.isSome_map, isSome_fill_iff, count]
  exact count_star_le template

variable {template fullPath : Bytes}

theorem of_mem_pathSegments {path segment : Bytes} (member : segment ∈ pathSegments path) :
    segment ≠ [] ∧ byte '/' ∉ segment := by
  obtain ⟨part, nonempty⟩ := List.mem_filter.mp member
  exact ⟨by simpa using nonempty, not_mem_of_mem_splitOn part⟩

/-- Joining segments without slashes and splitting them again only drops the empty ones. -/
theorem pathSegments_intercalate (separate : ∀ segment ∈ segments, byte '/' ∉ segment) :
    pathSegments ([byte '/'].intercalate segments) =
      segments.filter fun segment => !segment.isEmpty := by
  cases segments with
  | nil => rfl
  | cons segment segments => rw [pathSegments, List.splitOn_intercalate _ separate (by simp)]

theorem filter_fill {filled walked : List Bytes} (isFilled : fill segments captures = some filled)
    (walk : Captures ((segments.filter fun segment => !segment.isEmpty).map edgeOf) walked captures)
    (nonempty : [] ∉ walked) : (filled.filter fun segment => !segment.isEmpty) = walked := by
  induction segments generalizing captures filled walked with
  | nil =>
    cases isFilled
    cases walk
    rfl
  | cons segment segments ih =>
    rw [fill] at isFilled
    split at isFilled
    · rename_i isStar
      rw [isStar, List.filter_cons_of_pos (by decide), List.map_cons, edgeOf, if_pos rfl] at walk
      cases walk with
      | wildcard captured walk =>
        rw [List.mem_cons, not_or] at nonempty
        simp only [List.head?_cons, List.tail_cons, Option.bind_some, Option.map_eq_some_iff]
          at isFilled
        obtain ⟨rest, isRest, rfl⟩ := isFilled
        rw [List.filter_cons_of_pos (by simpa using Ne.symm nonempty.1), ih isRest walk nonempty.2]
    · rename_i literal
      obtain ⟨rest, isRest, rfl⟩ := Option.map_eq_some_iff.mp isFilled
      by_cases empty : segment = []
      · rw [List.filter_cons_of_neg (by simpa using empty)] at walk ⊢
        exact ih isRest walk nonempty
      · rw [List.filter_cons_of_pos (by simpa using empty)] at walk ⊢
        rw [List.map_cons, edgeOf, if_neg literal] at walk
        cases walk with
        | literal _ walk =>
          rw [List.mem_cons, not_or] at nonempty
          rw [ih isRest walk nonempty.2]

theorem Captures.subset {edges : List Edge} (walk : Captures edges segments captures) :
    captures ⊆ segments := by
  induction walk with
  | nil => exact List.Subset.refl _
  | literal segment _ ih => exact List.subset_cons_of_subset segment ih
  | wildcard segment _ ih => exact List.cons_subset_cons segment ih

def HasVerb (template : Bytes) : Prop :=
  (cut (byte '#') template).1 ≠ [] ∧ (cut (byte '#') template).1 ≠ star

/-- If all templates have a verb, building the path from what was captured gives a path with the
same segments, which therefore matches the same template with the same captures. -/
theorem match_buildRestURL (verbs : ∀ template ∈ templates, HasVerb template)
    (found : matchPath templates fullPath = some (template, captures)) :
    captures.length = (splitTemplate template).count star ∧
      ∃ verb path, buildRestURL template captures = some (verb, path) ∧
        splitTemplate (verb ++ byte '#' :: path) = splitTemplate fullPath ∧
        matchPath templates (verb ++ byte '#' :: path) = some (template, captures) := by
  obtain ⟨listed, walk⟩ := captures_of_matchPath found
  refine ⟨by rw [walk.length_eq, count_map_edgeOf], ?_⟩
  obtain ⟨named, literal⟩ := verbs template listed
  obtain ⟨⟨verb, path⟩, built⟩ :=
    Option.isSome_iff_exists.mp (isSome_buildRestURL_of_matchPath found)
  refine ⟨verb, path, built, ?_⟩
  suffices same : splitTemplate (verb ++ byte '#' :: path) = splitTemplate fullPath by
    exact ⟨same, by rw [matchPath, same, ← matchPath, found]⟩
  rw [buildRestURL_eq] at built
  obtain ⟨filled, isFilled, parts⟩ := Option.map_eq_some_iff.mp built
  cases parts
  -- the verb is matched by itself, so the captures are among the segments behind it
  rw [splitTemplate_eq, if_neg (by simpa using named), List.singleton_append, List.map_cons, edgeOf,
    if_neg literal] at walk
  generalize isWalked : splitTemplate fullPath = walked at walk
  cases walk with
  | @literal _ behind _ _ walk =>
    have separate : ∀ segment ∈ behind, segment ≠ [] ∧ byte '/' ∉ segment := by
      intro segment member
      have inPath : segment ∈ pathSegments (cut (byte '#') fullPath).2 := by
        rw [splitTemplate_eq] at isWalked
        split_ifs at isWalked
        · rw [List.nil_append] at isWalked
          exact isWalked ▸ List.mem_cons_of_mem _ member
        · rw [List.singleton_append, List.cons.injEq] at isWalked
          exact isWalked.2 ▸ member
      exact of_mem_pathSegments inPath
    have apart : ∀ segment ∈ filled, byte '/' ∉ segment := by
      intro segment member
      rcases (mem_fill isFilled).mp member with ⟨part, -⟩ | captured
      · exact not_mem_of_mem_splitOn part
      · exact (separate segment (walk.subset (List.mem_of_mem_take captured))).2
    rw [splitTemplate_eq, cut_append_cons (eq_or_eq_of_cut _ _).1, if_neg (by simpa using named),
      pathSegments_intercalate apart, List.singleton_append,
      filter_fill isFilled walk fun member => (separate _ member).1 rfl]

/-- A path along stars, one of them beside a literal. -/
theorem match_buildRestURL_account :
    let templates := ["GET#/accounts/own/keys", "GET#/accounts/*", "GET#/accounts/*/txs/*"].map bytes
    ∃ verb path, buildRestURL (bytes "GET#/accounts/*/txs/*") [bytes "me", bytes "7"] =
        some (verb, path) ∧
      matchPath templates (verb ++ byte '#' :: path) =
        some (bytes "GET#/accounts/*/txs/*", [bytes "me", bytes "7"]) := by
  intro templates
  have verbs : ∀ template ∈ templates, HasVerb template := by
    simp only [HasVerb]
    decide
  have found : matchPath templates (bytes "GET#//accounts/me/txs/7") =
      some (bytes "GET#/accounts/*/txs/*", [bytes "me", bytes "7"]) := by decide +kernel
  obtain ⟨-, verb, path, built, -, again⟩ := match_buildRestURL verbs found
  exact ⟨verb, path, built, again⟩

/-- A star in the place of the verb is captured, but the path is built without it. -/
theorem star_verb_lost :
    matchPath [bytes "*#/a"] (bytes "GET#/a") = some (bytes "*#/a", [bytes "GET"]) ∧
      buildRestURL (bytes "*#/a") [bytes "GET"] = some (bytes "*", bytes "/a") ∧
      matchPath [bytes "*#/a"] (bytes "*#/a") = some (bytes "*#/a", [bytes "*"]) := by
  decide +kernel

end Nodecore.Utils
