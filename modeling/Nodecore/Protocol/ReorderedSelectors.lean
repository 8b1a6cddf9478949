/-
# Selectors in another order

The key of a group is made of the keys of its children in sorted order, and the key of a test of
the values in sorted order.  So trees that differ in the order of children or values, at any depth,
have the same keys.  The induction is over the ways to get from one tree to the other.
-/

import Mathlib.Data.String.Basic
import Nodecore.Protocol.RequestSelectorKey

namespace Nodecore.Protocol

theorem sortStrings_eq_of_perm {parts others : List String} (perm : parts.Perm others) :
    sortStrings parts = sortStrings others :=
  (((List.perm_insertionSort _ parts).trans perm).trans
    (List.perm_insertionSort _ others).symm).eq_of_sortedLE
      (List.pairwise_insertionSort _ parts).sortedLE (List.pairwise_insertionSort _ others).sortedLE

namespace RequestSelector

theorem keys_eq_map (children : List RequestSelector) : keys children = children.map key := by
  induction children with
  | nil => rfl
  | cons child rest ih => rw [keys, ih, List.map_cons]

/-- The trees differ in the order of the children of groups and of the values of tests. -/
inductive Reordered : RequestSelector → RequestSelector → Prop
  | refl (selector) : Reordered selector selector
  | trans {selector middle other} (first : Reordered selector middle)
      (second : Reordered middle other) : Reordered selector other
  | values {name values others} (perm : values.Perm others) :
      Reordered (label name values) (label name others)
  | children {group children others} (isGroup : group = and ∨ group = or)
      (perm : children.Perm others) : Reordered (group children) (group others)
  | child {group selector other} (isGroup : group = and ∨ group = or) (before after)
      (inside : Reordered selector other) :
      Reordered (group (before ++ selector :: after)) (group (before ++ other :: after))
  | not {selector other} (inside : Reordered selector other) :
      Reordered (not selector) (not other)

variable {group : List RequestSelector → RequestSelector} {children others : List RequestSelector}
  {selector other : RequestSelector}

theorem key_group (isGroup : group = and ∨ group = or)
    (perm : (children.map key).Perm (others.map key)) :
    (group children).key = (group others).key := by
  have sorted := sortStrings_eq_of_perm perm
  rw [← keys_eq_map, ← keys_eq_map] at sorted
  rcases isGroup with rfl | rfl
  all_goals rw [key, key, joinSorted, joinSorted, sorted]

theorem labelClassKey_group (isGroup : group = and ∨ group = or)
    (perm : (children.map labelClassKey).Perm (others.map labelClassKey)) :
    (group children).labelClassKey = (group others).labelClassKey := by
  rcases isGroup with rfl | rfl
  · rw [labelClassKey, labelClassKey, labelClassKeys_eq_map, labelClassKeys_eq_map,
      sortStrings_eq_of_perm (perm.filter _)]
  · simp only [labelClassKey, labelClassKeys_eq_map, perm.mem_iff, sortStrings_eq_of_perm perm]

theorem Reordered.keys_eq (reordered : Reordered selector other) :
    selector.key = other.key ∧ selector.labelClassKey = other.labelClassKey := by
  induction reordered with
  | refl selector => exact ⟨rfl, rfl⟩
  | trans _ _ first second => exact ⟨first.1.trans second.1, first.2.trans second.2⟩
  | values perm =>
    simp [key, labelClassKey, labelKey, joinSorted, sortStrings_eq_of_perm perm]
  | children isGroup perm =>
    exact ⟨key_group isGroup (perm.map key), labelClassKey_group isGroup (perm.map labelClassKey)⟩
  | child isGroup before after _ same =>
    exact ⟨key_group isGroup (by simp [same.1]), labelClassKey_group isGroup (by simp [same.2])⟩
  | not _ same => simp [key, labelClassKey, same]

end RequestSelector

open RequestSelector

/-- Reordering a selector keeps its key.  Reordering the selectors of a request, as a list and
inside, keeps the key it is cached under. -/
theorem keys_of_reordered :
    (∀ selector other, Reordered selector other → selector.key = other.key) ∧
      ∀ selectors others, Reordered (.and selectors) (.and others) →
        labelCacheKey selectors = labelCacheKey others :=
  ⟨fun _ _ reordered => reordered.keys_eq.1, fun _ _ reordered => reordered.keys_eq.2⟩

/-- The selectors of a request change places, and the values of one of them too. -/
theorem keys_of_reordered_request :
    labelCacheKey [.label "region" ["eu", "us"], .existsLabel "archive"] =
      labelCacheKey [.existsLabel "archive", .label "region" ["us", "eu"]] :=
  keys_of_reordered.2 _ _ (.trans (.child (.inl rfl) [] _ (.values (.swap _ _ [])))
    (.children (.inl rfl) (.swap _ _ [])))

end Nodecore.Protocol
