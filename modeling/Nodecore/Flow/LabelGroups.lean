/-
# The order of calls over label groups

While nothing changes and no limiter refuses anything, the calls of one request return,
group after group, what matches in the order of the rating.  A strategy that stays in a
group comes to everything that matches, an upstream of several groups with the first of
them.  One that passes on an error takes at most one upstream of each group, and none of a
group of which everything that matches was returned before.
-/

import Nodecore.Flow.Dispatch

namespace Nodecore.Flow

open Lib Protocol

/-- The number of the first group with an upstream. -/
def firstGroup (groups : List (List String)) (id : String) : ℕ :=
  groups.findIdx (·.contains id)

/-- By the first group with it, and then by rating. -/
def Precedes (groups : List (List String)) (sortedIds : List String) (first second : String) :
    Prop :=
  firstGroup groups first < firstGroup groups second ∨
    firstGroup groups first = firstGroup groups second ∧
      sortedIds.idxOf first < sortedIds.idxOf second

theorem idxOf_lt_of_find? {ids : List String} {accepts : String → Bool} {id other : String}
    (found : ids.find? accepts = some id) (accepted : accepts other = true) (differs : other ≠ id) :
    ids.idxOf id < ids.idxOf other ∨ other ∉ ids := by
  induction ids with
  | nil => cases found
  | cons first ids ih =>
    rw [List.find?_cons] at found
    split at found
    · cases found
      rw [List.idxOf_cons_self, List.idxOf_cons_ne _ differs.symm]
      exact .inl (Nat.succ_pos _)
    · rename_i refused
      have skips {kept : String} (isKept : accepts kept = true) : first ≠ kept := by
        rintro rfl
        rw [isKept] at refused
        cases refused
      rw [List.idxOf_cons_ne _ (skips (List.find?_some found)),
        List.idxOf_cons_ne _ (skips accepted), Nat.succ_lt_succ_iff, List.mem_cons, not_or]
      exact (ih found).imp_right fun absent => ⟨(skips accepted).symm, absent⟩

theorem exists_filter_of_mem {sortedIds order : List String} {includeDefault : Bool}
    {labelsOf : String → GoSet String} {group : List String}
    (isGroup : group ∈ partitionLabelGroups sortedIds order includeDefault labelsOf) :
    ∃ kept : String → Bool, group = sortedIds.filter kept := by
  rw [partitionLabelGroups] at isGroup
  split_ifs at isGroup
  · rcases List.mem_append.mp isGroup with labelled | isDefault
    · obtain ⟨label, -, rfl⟩ := List.mem_map.mp labelled
      exact ⟨_, rfl⟩
    · exact ⟨_, List.mem_singleton.mp isDefault⟩
  · obtain ⟨label, -, rfl⟩ := List.mem_map.mp isGroup
    exact ⟨_, rfl⟩

theorem precedes_of_find? {sortedIds : List String} {passed later : List (List String)}
    {kept accepts : String → Bool} {id other : String}
    (none : ∀ group ∈ passed, ∀ id ∈ group, accepts id = false)
    (found : (sortedIds.filter kept).find? accepts = some id) (accepted : accepts other = true)
    (differs : other ≠ id) :
    Precedes (passed ++ sortedIds.filter kept :: later) sortedIds id other := by
  have behind {any : String} (isAny : accepts any = true) :
      ¬ passed.findIdx (·.contains any) < passed.length := by
    rw [List.findIdx_lt_length]
    rintro ⟨group, isPassed, inGroup⟩
    rw [none group isPassed any (List.contains_iff_mem.mp inGroup)] at isAny
    cases isAny
  have inGroup : (sortedIds.filter kept).contains id = true :=
    List.contains_iff_mem.mpr (List.mem_of_find?_eq_some found)
  rw [Precedes, firstGroup, firstGroup, List.findIdx_append, List.findIdx_append,
    if_neg (behind (List.find?_some found)), if_neg (behind accepted), List.findIdx_cons,
    List.findIdx_cons, inGroup, cond_true]
  cases also : (sortedIds.filter kept).contains other with
  | false =>
    rw [cond_false]
    exact .inl (by omega)
  | true =>
    have inSame := List.mem_filter.mp (List.contains_iff_mem.mp also)
    rw [List.find?_filter] at found
    refine .inr ⟨rfl, ?_⟩
    exact (idxOf_lt_of_find? found (by simp [accepted, inSame.2]) differs).resolve_right
      (not_not_intro inSame.1)

namespace UpstreamStrategy

variable {request : RequestHolder} {standing : Standing} {nextIndex : ℕ → UInt64} {called : ℕ}
  {run : StrategyRun} {ids : List String} {sortedIds order : List String}
  {includeDefault passOnError : Bool} {labelsOf : String → GoSet String}
  {options : StrategyOptions}

section

variable (unordered : options.order standing.sources = none)
include unordered

variable (groups : List (List String))

theorem arrange_of_unordered (group : List String) :
    (labelGroup groups passOnError options).arrange (standing.moment 0 "") group = group := by
  have noOrder : (labelGroup groups passOnError options).options.order
      (standing.moment 0 "").sources = none := unordered
  rw [arrange, noOrder]

theorem sorts_of_unordered : (labelGroup groups passOnError options).Sorts standing := by
  intro ids
  rw [arrange_of_unordered unordered]

theorem Returns.pairwise (unlimited : standing.Unlimited) {groups : List (List String)}
    (partitioned : partitionLabelGroups sortedIds order includeDefault labelsOf = groups)
    (unnamed : (labelGroup groups false options).serves request standing "" = false)
    (returns : (labelGroup groups false options).Returns request standing nextIndex called run ids)
    (exhausts : (labelGroup groups false options).Exhausts request standing run) :
    ids.Pairwise (Precedes groups sortedIds) := by
  have sorts : (labelGroup groups false options).Sorts standing :=
    sorts_of_unordered unordered groups
  -- what is returned later was there to be selected, too
  suffices ordered : ids.Pairwise (Precedes groups sortedIds) ∧ ∀ id ∈ ids,
      (labelGroup groups false options).selectable request standing run.selectedUpstreams id =
        true by exact ordered.1
  revert exhausts
  apply returns.induction unlimited unnamed
  · intro called run all exhausts
    simp
  · intro called run skipped group later id ids split all found ih exhausts
    obtain ⟨ordered, selectable⟩ := ih (exhausts.takes sorts rfl split all id)
    have before : ∀ other ∈ ids, (labelGroup groups false options).selectable request standing
        run.selectedUpstreams other = true ∧ other ≠ id := by
      intro other returned
      obtain ⟨serves, unmarked⟩ := selectable_iff.mp (selectable other returned)
      rw [GoSet.mem_add, not_or] at unmarked
      exact ⟨selectable_iff.mpr ⟨serves, unmarked.2⟩, unmarked.1⟩
    change groups.drop ((labelGroup groups false options).startIndex run) = _ at split
    rw [findIn, arrange_of_unordered unordered] at found
    refine ⟨List.pairwise_cons.mpr ⟨?_, ordered⟩, ?_⟩
    · intro other returned
      obtain ⟨isSelectable, differs⟩ := before other returned
      have isGroups : groups = (groups.take ((labelGroup groups false options).startIndex run) ++
          skipped) ++ group :: later := by
        rw [List.append_assoc, ← split, List.take_append_drop]
      obtain ⟨kept, rfl⟩ : ∃ kept : String → Bool, group = sortedIds.filter kept := by
        apply exists_filter_of_mem (show group ∈ partitionLabelGroups sortedIds order
          includeDefault labelsOf from _)
        rw [partitioned, isGroups]
        simp
      rw [isGroups]
      refine precedes_of_find? ?_ found isSelectable differs
      intro passed isPassed any inPassed
      rw [← Bool.not_eq_true, selectable_iff]
      rintro ⟨serves, unmarked⟩
      rcases List.mem_append.mp isPassed with isBehind | isSkipped
      · exact unmarked (exhausts passed isBehind any inPassed serves)
      · exact unmarked (mem_of_findIn_eq_none sorts (all passed isSkipped) inPassed serves)
    · intro other returned
      rcases List.mem_cons.mp returned with rfl | returned
      · exact List.find?_some found
      · exact (before other returned).1

end

end UpstreamStrategy

theorem exists_default (sortedIds order : List String) (labelsOf : String → GoSet String) :
    ∃ defaultGroup,
      (∀ id, id ∈ defaultGroup ↔ id ∈ sortedIds ∧ ∀ label ∈ order, label ∉ labelsOf id) ∧
      partitionLabelGroups sortedIds order true labelsOf =
        (order.map fun label => sortedIds.filter fun id => (labelsOf id).contains label) ++
          if defaultGroup = [] then [] else [defaultGroup] := by
  refine ⟨sortedIds.filter fun id => !order.any fun label => (labelsOf id).contains label, ?_, ?_⟩
  · intro id
    simp [List.mem_filter, ← GoSet.contains_iff]
  · rw [partitionLabelGroups]
    split_ifs
    all_goals simp_all

theorem mem_group_of_default {sortedIds order : List String} {labelsOf : String → GoSet String}
    {id : String} (listed : id ∈ sortedIds) :
    ∃ group ∈ partitionLabelGroups sortedIds order true labelsOf, id ∈ group := by
  obtain ⟨defaultGroup, isDefault, isGroups⟩ := exists_default sortedIds order labelsOf
  rw [isGroups]
  by_cases carries : ∃ label ∈ order, label ∈ labelsOf id
  · obtain ⟨label, ordered, carried⟩ := carries
    refine ⟨_, List.mem_append_left _ (List.mem_map_of_mem ordered), ?_⟩
    exact List.mem_filter.mpr ⟨listed, (GoSet.contains_iff _ _).mpr carried⟩
  · push Not at carries
    have inDefault := (isDefault id).mpr ⟨listed, carries⟩
    rw [if_neg (List.ne_nil_of_mem inDefault)]
    exact ⟨defaultGroup, by simp, inDefault⟩

open UpstreamStrategy in
/-- Without limiters and selectors that order, the calls of a request over the groups of a list in
rating order come to an end.  A strategy that stays in a group returns everything in a group that
matches, once, by the first group with it and then by rating; one that passes on an error returns
one upstream of each group that still has one.  With a default group, every upstream is in a group,
and in the default group exactly if it carries none of the labels. -/
theorem labelGroups_return (sortedIds order : List String) (includeDefault : Bool)
    (labelsOf : String → GoSet String) (options : StrategyOptions) (request : RequestHolder)
    (standing : Standing) (unordered : options.order standing.sources = none)
    (unlimited : standing.Unlimited) (named : standing.sources.getUpstreamState "" = none) :
    let groups := partitionLabelGroups sortedIds order includeDefault labelsOf
    let strategy passOnError := labelGroup groups passOnError options
    let calls passOnError := (strategy passOnError).Returns request standing (fun _ => 0) 0 {}
    (∀ passOnError, ∃ ids, calls passOnError ids) ∧
      (∀ ids, calls false ids → ids.Nodup ∧
        (∀ id, id ∈ ids ↔ (∃ group ∈ groups, id ∈ group) ∧
          (strategy false).Accepted request ⟨id, standing.sources⟩) ∧
        ids.Pairwise (Precedes groups sortedIds)) ∧
      (∀ ids, calls true ids → ids = (strategy true).onePerGroup request standing [] groups) ∧
      (includeDefault = true → (∀ id ∈ sortedIds, ∃ group ∈ groups, id ∈ group) ∧
        ∃ defaultGroup,
          (∀ id, id ∈ defaultGroup ↔ id ∈ sortedIds ∧ ∀ label ∈ order, label ∉ labelsOf id) ∧
          groups = (order.map fun label => sortedIds.filter fun id =>
            (labelsOf id).contains label) ++ if defaultGroup = [] then [] else [defaultGroup]) := by
  intro groups strategy calls
  have sorts (passOnError : Bool) : (strategy passOnError).Sorts standing :=
    sorts_of_unordered unordered groups
  have unnamed (passOnError : Bool) :
      (strategy passOnError).serves request standing "" = false := by
    rw [serves, named]
    rfl
  have fresh (id : String) : id ∉ ({} : StrategyRun).selectedUpstreams := AList.notMem_empty id
  refine ⟨fun passOnError => exists_returns request _ (sorts passOnError) 0 {}, ?_, ?_, ?_⟩
  · intro ids returns
    obtain ⟨nodup, selected⟩ := returns.selects (sorts false)
    refine ⟨nodup, fun id => ⟨fun returned => ?_, ?_⟩, ?_⟩
    · obtain ⟨-, candidate, accepted⟩ := selected id returned
      exact ⟨List.mem_flatten.mp candidate, accepted⟩
    · rintro ⟨inGroup, accepted⟩
      exact (returns.complete (sorts false) unlimited (unnamed false) rfl
        (List.mem_flatten.mpr inGroup) ((serves_iff _ _ _ _).mpr accepted)
        exhausts_start).resolve_left (fresh id)
    · exact returns.pairwise unordered unlimited rfl (unnamed false) exhausts_start
  · intro ids returns
    have picks := returns.onePerGroup_eq unlimited (unnamed true)
      fun id => iff_of_false (fresh id) List.not_mem_nil
    exact picks.symm
  · rintro rfl
    exact ⟨fun id listed => mem_group_of_default listed, exists_default sortedIds order labelsOf⟩

/-- An upstream with both labels is returned for the first of them only. -/
theorem labelGroups_return_shared :
    (UpstreamStrategy.labelGroup [["a"], ["a", "b"]] true {}).Returns Labelled.request
      Labelled.standing (fun _ => 0) 0 {} ["a", "b"] := by
  have returned := labelGroups_return ["a", "b"] ["full", "archive"] true
    (fun id => if id = "a" then AList.insert "full" () (AList.singleton "archive" ())
      else AList.singleton "archive" ()) {} Labelled.request Labelled.standing rfl
    Labelled.unlimited rfl
  obtain ⟨ids, calls⟩ := returned.1 true
  have isIds : ids = ["a", "b"] := returned.2.2.1 ids calls
  rw [isIds] at calls
  exact calls

end Nodecore.Flow
