/-
# Dispatch to several upstreams

A dispatch method goes to more than one upstream.  The processors ask the strategy of
the request again and again, until it has nothing left, and so collect the upstreams
before they contact any of them.  Broadcast and maximum-value send to all at once.

Every call that returns something marks one more candidate, so the loop ends.  What
it collects is complete as long as a call looks at everything that is not yet marked.
Label groups that pass on an error do not: each call there starts after the group of
the call before it, and takes at most one upstream of a group.
-/

import Nodecore.Flow.ExecutionFlow
import Nodecore.Flow.SelectUpstream
import Nodecore.Lib.Loop

namespace Nodecore.Flow

open Lib Protocol

/-- No limiter refuses the request; in particular, there may be none. -/
structure Standing.Unlimited (standing : Standing) : Prop where
  budget : ∀ {id state}, standing.sources.getUpstreamState id = some state →
    state.rateLimiterBudget.isSome = true → standing.budgetAllows id = true
  autoTune : ∀ {id state}, standing.sources.getUpstreamState id = some state →
    state.autoTuneRateLimiter.isNone = false → standing.autoTuneAllows id = true

variable {groups : List (List String)} {selectedUpstreams : GoSet String} {picked : List String}
  {id : String}

namespace UpstreamStrategy

section

variable (strategy : UpstreamStrategy) (request : RequestHolder) (standing : Standing)
  (nextIndex : ℕ → UInt64)

/-- What a dispatch has so far: the strategy and the upstreams collected from it. -/
structure Collecting where
  run : StrategyRun := {}
  upstreamIDs : List String := []

/-- The upstreams collected, or the error where there are none. -/
def Collecting.result (collecting : Collecting) (err : ResponseError) :
    Except ResponseError (List String) :=
  if collecting.upstreamIDs.isEmpty then .error err else .ok collecting.upstreamIDs

/-- One round of the loop.  The ids collected are also the ids seen. -/
def collectRound (collecting : Collecting) :
    Collecting ⊕ Except ResponseError (List String) × StrategyRun :=
  let called := strategy.runSelectUpstream request standing
    (nextIndex collecting.upstreamIDs.length) collecting.run
  match called.1 with
  | .error err => .inr (collecting.result err, called.2)
  | .ok upstreamID =>
    if upstreamID = "" || collecting.upstreamIDs.contains upstreamID then
      .inr (collecting.result .noAvailableUpstreamsError, called.2)
    else .inl ⟨called.2, collecting.upstreamIDs ++ [upstreamID]⟩

def unmarked (run : StrategyRun) : ℕ :=
  ((strategy.pool standing).filter fun id => !run.selectedUpstreams.contains id).length

variable {collecting next : Collecting}

variable {strategy request standing nextIndex} in
theorem collectRound_eq_inl
    (continues : strategy.collectRound request standing nextIndex collecting = .inl next) :
    let called := strategy.runSelectUpstream request standing
      (nextIndex collecting.upstreamIDs.length) collecting.run
    ∃ upstreamID, called.1 = .ok upstreamID ∧ upstreamID ≠ "" ∧
      upstreamID ∉ collecting.upstreamIDs ∧
      next = ⟨called.2, collecting.upstreamIDs ++ [upstreamID]⟩ := by
  rw [collectRound] at continues
  dsimp only at continues ⊢
  split at continues
  · cases continues
  · rename_i upstreamID isOk
    split_ifs at continues with stops
    rw [Bool.or_eq_true, not_or, decide_eq_true_iff, List.contains_iff_mem] at stops
    exact ⟨upstreamID, isOk, stops.1, stops.2, (Sum.inl.inj continues).symm⟩

variable {strategy standing} in
theorem unmarked_lt {run later : StrategyRun} {id : String}
    (grows : ∀ other ∈ run.selectedUpstreams, other ∈ later.selectedUpstreams)
    (candidate : id ∈ strategy.pool standing) (fresh : id ∉ run.selectedUpstreams)
    (marked : id ∈ later.selectedUpstreams) :
    strategy.unmarked standing later < strategy.unmarked standing run := by
  have fewer : ((strategy.pool standing).filter fun id => !later.selectedUpstreams.contains id)
      |>.Sublist ((strategy.pool standing).filter fun id =>
        !run.selectedUpstreams.contains id) := by
    apply List.monotone_filter_right
    intro other isUnmarked
    simp only [Bool.not_eq_true', ← Bool.not_eq_true, GoSet.contains_iff] at isUnmarked ⊢
    exact isUnmarked ∘ grows other
  refine lt_of_le_of_ne fewer.length_le fun same => ?_
  have wasUnmarked : id ∈ (strategy.pool standing).filter fun id =>
      !run.selectedUpstreams.contains id := by
    simpa [candidate, ← Bool.not_eq_true, GoSet.contains_iff] using fresh
  rw [← fewer.eq_of_length same] at wasUnmarked
  simp [(GoSet.contains_iff _ _).mpr marked] at wasUnmarked

variable {strategy request standing nextIndex} in
theorem unmarked_lt_of_collectRound (sorts : strategy.Sorts standing)
    (continues : strategy.collectRound request standing nextIndex collecting = .inl next) :
    strategy.unmarked standing next.run < strategy.unmarked standing collecting.run := by
  obtain ⟨upstreamID, isOk, _, _, rfl⟩ := collectRound_eq_inl continues
  have selects := selects_runSelectUpstream request sorts
    (nextIndex collecting.upstreamIDs.length) collecting.run
  have isSelected : (strategy.runSelectUpstream request standing
      (nextIndex collecting.upstreamIDs.length) collecting.run).1.toOption = some upstreamID := by
    rw [isOk]
    rfl
  exact unmarked_lt selects.kept (selects.candidate _ isSelected) (selects.fresh _ isSelected)
    (selects.marks _ isSelected)

/-- The loop of `collectDispatchUpstreamIDs`. -/
def collectLoop (sorts : strategy.Sorts standing) :
    Loop Collecting (Except ResponseError (List String) × StrategyRun) where
  body := strategy.collectRound request standing nextIndex
  variant := fun collecting => strategy.unmarked standing collecting.run
  decreases := unmarked_lt_of_collectRound sorts

def collectDispatchUpstreamIDs (sorts : strategy.Sorts standing) :
    Except ResponseError (List String) × StrategyRun :=
  (strategy.collectLoop request standing nextIndex sorts).run {}

/-- The upstream is known and passes the matchers. -/
def serves (upstreamId : String) : Bool :=
  (standing.sources.getUpstreamState upstreamId).any fun state =>
    (multiMatch (strategy.matchers request standing.sources) upstreamId state).isSuccess

theorem serves_iff (upstreamId : String) :
    strategy.serves request standing upstreamId = true ↔
      strategy.Accepted request ⟨upstreamId, standing.sources⟩ := by
  rw [serves, Accepted]
  cases read : standing.sources.getUpstreamState upstreamId with
  | none => simp
  | some state => simp [isSuccess_multiMatch]

def selectable (selectedUpstreams : GoSet String) (upstreamId : String) : Bool :=
  strategy.serves request standing upstreamId && !selectedUpstreams.contains upstreamId

/-- Each further call starts after the group of the call before it. -/
def passesOnError : UpstreamStrategy → Bool
  | labelGroup _ passOnError _ => passOnError
  | _ => false

/-- What a group has for a call. -/
def findIn (selectedUpstreams : GoSet String) (group : List String) : Option String :=
  (strategy.arrange (standing.moment 0 "") group).find?
    (strategy.selectable request standing selectedUpstreams)

end

section

variable {strategy : UpstreamStrategy} {request : RequestHolder} {standing : Standing}

section

variable (unlimited : standing.Unlimited)

include unlimited

variable (strategy request) in
theorem standingVerdict_of_unlimited (selectedUpstreams : GoSet String) (id : String) :
    let verdict := strategy.standingVerdict request standing selectedUpstreams id
    let selectable := strategy.selectable request standing selectedUpstreams id
    verdict.isFree = selectable ∧ verdict.mark selectedUpstreams id =
      if selectable then selectedUpstreams.add id else selectedUpstreams := by
  dsimp only
  rw [standingVerdict, verdict, selectable, serves, Standing.moment]
  dsimp only
  cases read : standing.sources.getUpstreamState id with
  | none => exact ⟨rfl, rfl⟩
  | some state =>
    have budget : ¬ (state.rateLimiterBudget.isSome && !standing.budgetAllows id) = true := by
      simpa using unlimited.budget read
    have autoTune : (state.autoTuneRateLimiter.isNone || standing.autoTuneAllows id) = true := by
      cases none : state.autoTuneRateLimiter.isNone with
      | true => rfl
      | false => exact unlimited.autoTune read none
    simp only [Option.any_some, if_neg budget, if_pos autoTune]
    by_cases known : selectedUpstreams.contains id = true
    · simp [known, Verdict.isFree, Verdict.mark]
    · by_cases success : (multiMatch (strategy.matchers request standing.sources) id
          state).isSuccess = true
      · have isType := (MatchResponse.isSuccess_iff_type _).mp success
        simp [known, success, isType, Verdict.isFree, Verdict.mark]
      · have isType := mt (MatchResponse.isSuccess_iff_type _).mpr success
        simp [known, success, isType, Verdict.isFree, Verdict.mark]

variable (strategy request) in
theorem filterFrom_of_unlimited (ids : List String) (selectedUpstreams : GoSet String)
    (currentReason : Option MatchResponse) (trace : UpstreamsMatchTrace) :
    let filtered := strategy.filterFrom request standing selectedUpstreams currentReason trace ids
    let found := ids.find? (strategy.selectable request standing selectedUpstreams)
    filtered.upstreamId = found.getD "" ∧
      filtered.selectedUpstreams = found.elim selectedUpstreams selectedUpstreams.add := by
  induction ids generalizing currentReason trace with
  | nil => exact ⟨rfl, rfl⟩
  | cons id remaining ih =>
    obtain ⟨isFree, marks⟩ := strategy.standingVerdict_of_unlimited request unlimited
      selectedUpstreams id
    rw [filterFrom_cons]
    dsimp only at isFree marks ⊢
    rw [isFree, marks, List.find?_cons]
    cases strategy.selectable request standing selectedUpstreams id with
    | true => exact ⟨rfl, rfl⟩
    | false => exact ih _ _

variable (unnamed : strategy.serves request standing "" = false)

include unnamed

theorem selectFrom_of_unlimited (groups : List (List String)) (selectedUpstreams : GoSet String)
    (currentReason : Option MatchResponse) (trace : UpstreamsMatchTrace) (idx : ℕ) :
    let selected := strategy.selectFrom request standing selectedUpstreams currentReason trace idx
      groups
    (∃ skipped group later id, groups = skipped ++ group :: later ∧
        (∀ other ∈ skipped, strategy.findIn request standing selectedUpstreams other = none) ∧
        strategy.findIn request standing selectedUpstreams group = some id ∧
        selected = ⟨.ok id, selectedUpstreams.add id, idx + skipped.length⟩) ∨
      (∀ other ∈ groups, strategy.findIn request standing selectedUpstreams other = none) ∧
        ∃ err, selected = ⟨.error err, selectedUpstreams, idx + groups.length⟩ := by
  induction groups generalizing currentReason trace idx with
  | nil => exact .inr ⟨by simp, _, rfl⟩
  | cons group later ih =>
    obtain ⟨isId, isMarked⟩ := strategy.filterFrom_of_unlimited request unlimited
      (strategy.arrange (standing.moment 0 "") group)
      selectedUpstreams none []
    change (strategy.filterUpstreams request standing selectedUpstreams group).upstreamId =
      (strategy.findIn request standing selectedUpstreams group).getD "" at isId
    change (strategy.filterUpstreams request standing selectedUpstreams group).selectedUpstreams =
      (strategy.findIn request standing selectedUpstreams group).elim _ _ at isMarked
    rw [selectFrom]
    dsimp only
    rw [isId, isMarked]
    cases found : strategy.findIn request standing selectedUpstreams group with
    | some id =>
      have named : id ≠ "" := by
        rintro rfl
        have serves := List.find?_some found
        rw [selectable, unnamed] at serves
        cases serves
      refine .inl ⟨[], group, later, id, rfl, by simp, found, ?_⟩
      simp [named]
    | none =>
      rw [Option.getD_none, Option.elim_none, if_neg (by simp)]
      have skip {groups : List (List String)}
          (all : ∀ other ∈ groups,
            strategy.findIn request standing selectedUpstreams other = none) :
          ∀ other ∈ group :: groups,
            strategy.findIn request standing selectedUpstreams other = none :=
        List.forall_mem_cons.mpr ⟨found, all⟩
      rcases ih (lowerReason currentReason
          (strategy.filterUpstreams request standing selectedUpstreams group).reason)
        (strategy.filterUpstreams request standing selectedUpstreams group).trace (idx + 1)
        with ⟨skipped, next, rest, id, rfl, all, isNext, isSelected⟩ | ⟨all, err, isSelected⟩
      · refine .inl ⟨group :: skipped, next, rest, id, rfl, skip all, isNext, ?_⟩
        rw [isSelected, List.length_cons, Nat.add_right_comm, Nat.add_assoc]
      · refine .inr ⟨skip all, err, ?_⟩
        rw [isSelected, List.length_cons, Nat.add_right_comm, Nat.add_assoc]

theorem runSelectUpstream_of_unlimited (nextIndex : UInt64) (run : StrategyRun) :
    let groups := (strategy.candidates (standing.moment nextIndex "")).drop
      (strategy.startIndex run)
    let called := strategy.runSelectUpstream request standing nextIndex run
    (∃ skipped group later id, groups = skipped ++ group :: later ∧
        (∀ other ∈ skipped, strategy.findIn request standing run.selectedUpstreams other = none) ∧
        strategy.findIn request standing run.selectedUpstreams group = some id ∧
        called = (.ok id,
          { run with
            selectedUpstreams := run.selectedUpstreams.add id
            currentGroupIdx := strategy.startIndex run + skipped.length
            firstCall := false })) ∨
      (∀ other ∈ groups, strategy.findIn request standing run.selectedUpstreams other = none) ∧
        ∃ err, called.1 = .error err := by
  rw [runSelectUpstream]
  split
  · rename_i none
    rw [none]
    exact .inr ⟨by simp, _, rfl⟩
  · rcases selectFrom_of_unlimited unlimited unnamed
      ((strategy.candidates (standing.moment nextIndex "")).drop (strategy.startIndex run))
      run.selectedUpstreams none [] (strategy.startIndex run) with
      ⟨skipped, group, later, id, split, all, found, isSelected⟩ | ⟨all, err, isSelected⟩
    · refine .inl ⟨skipped, group, later, id, split, all, found, ?_⟩
      dsimp only
      rw [isSelected]
    · refine .inr ⟨all, err, ?_⟩
      dsimp only
      rw [isSelected]

end

/-! ## Calls until one fails -/

section

variable (strategy request standing) (nextIndex : ℕ → UInt64) in
/-- Calls that follow one another return some upstreams and then fail.  The number is that of
the first of these calls. -/
inductive Returns : ℕ → StrategyRun → List String → Prop
  | fails {called : ℕ} {run after : StrategyRun} {err : ResponseError}
      (failed : strategy.runSelectUpstream request standing (nextIndex called) run =
        (.error err, after)) : Returns called run []
  | returns {called : ℕ} {run next : StrategyRun} {id : String} {ids : List String}
      (selected : strategy.runSelectUpstream request standing (nextIndex called) run =
        (.ok id, next))
      (later : Returns (called + 1) next ids) : Returns called run (id :: ids)

variable {nextIndex : ℕ → UInt64} {called : ℕ} {run : StrategyRun} {ids : List String}

section

variable (sorts : strategy.Sorts standing)

include sorts

variable (request nextIndex) in
theorem exists_returns (called : ℕ) (run : StrategyRun) :
    ∃ ids, strategy.Returns request standing nextIndex called run ids := by
  induction left : strategy.unmarked standing run using Nat.strongRecOn
    generalizing called run with
  | ind left ih =>
    rcases answer : strategy.runSelectUpstream request standing (nextIndex called) run with
      ⟨err | id, next⟩
    · exact ⟨[], .fails answer⟩
    · have selects := selects_runSelectUpstream request sorts (nextIndex called) run
      rw [answer] at selects
      have fewer := unmarked_lt selects.kept (selects.candidate id rfl) (selects.fresh id rfl)
        (selects.marks id rfl)
      obtain ⟨ids, later⟩ := ih _ (left ▸ fewer) (called + 1) next rfl
      exact ⟨id :: ids, .returns answer later⟩

theorem Returns.selects (returns : strategy.Returns request standing nextIndex called run ids) :
    ids.Nodup ∧ ∀ id ∈ ids, id ∉ run.selectedUpstreams ∧ id ∈ strategy.pool standing ∧
      strategy.Accepted request ⟨id, standing.sources⟩ := by
  induction returns with
  | fails => simp
  | @returns called run next id ids selected later ih =>
    have selects := selects_runSelectUpstream request sorts (nextIndex called) run
    rw [selected] at selects
    refine ⟨List.nodup_cons.mpr ⟨fun again => (ih.2 id again).1 (selects.marks id rfl), ih.1⟩, ?_⟩
    intro other member
    rcases List.mem_cons.mp member with rfl | member
    · exact ⟨selects.fresh _ rfl, selects.candidate _ rfl, selects.accepted _ rfl⟩
    · obtain ⟨fresh, accepted⟩ := ih.2 other member
      exact ⟨fun before => fresh (selects.kept other before), accepted⟩

end

section

variable (unlimited : standing.Unlimited) (unnamed : strategy.serves request standing "" = false)

include unlimited unnamed

/-- The induction rule without limiters: a call takes what the first group has that has anything,
or fails where none has. -/
theorem Returns.induction {motive : StrategyRun → List String → Prop}
    (ends : ∀ called run, (∀ group ∈ (strategy.candidates (standing.moment (nextIndex called)
        "")).drop (strategy.startIndex run),
      strategy.findIn request standing run.selectedUpstreams group = none) → motive run [])
    (takes : ∀ called run skipped group later id ids,
      (strategy.candidates (standing.moment (nextIndex called) "")).drop
        (strategy.startIndex run) = skipped ++ group :: later →
      (∀ other ∈ skipped,
        strategy.findIn request standing run.selectedUpstreams other = none) →
      strategy.findIn request standing run.selectedUpstreams group = some id →
      motive
        { run with
          selectedUpstreams := run.selectedUpstreams.add id
          currentGroupIdx := strategy.startIndex run + skipped.length
          firstCall := false } ids →
      motive run (id :: ids))
    (returns : strategy.Returns request standing nextIndex called run ids) : motive run ids := by
  induction returns with
  | @fails called run after err failed =>
    rcases runSelectUpstream_of_unlimited unlimited unnamed (nextIndex called) run with
      ⟨_, _, _, _, _, _, _, isCalled⟩ | ⟨all, _⟩
    · cases failed.symm.trans isCalled
    · exact ends called run all
  | @returns called run next id ids selected later ih =>
    rcases runSelectUpstream_of_unlimited unlimited unnamed (nextIndex called) run with
      ⟨skipped, group, rest, _, split, all, found, isCalled⟩ | ⟨_, err, isError⟩
    · cases selected.symm.trans isCalled
      exact takes called run skipped group rest id ids split all found ih
    · rw [selected] at isError
      cases isError

end

theorem selectable_iff :
    strategy.selectable request standing selectedUpstreams id = true ↔
      strategy.serves request standing id = true ∧ id ∉ selectedUpstreams := by
  rw [selectable, Bool.and_eq_true, Bool.not_eq_true', ← Bool.not_eq_true, GoSet.contains_iff]

theorem mem_of_findIn_eq_none {group : List String} (sorts : strategy.Sorts standing)
    (none : strategy.findIn request standing selectedUpstreams group = none) (inGroup : id ∈ group)
    (serves : strategy.serves request standing id = true) : id ∈ selectedUpstreams := by
  by_contra unmarked
  exact List.find?_eq_none.mp none id ((sorts group).mem_iff.mpr inGroup)
    (selectable_iff.mpr ⟨serves, unmarked⟩)

variable (strategy request standing) in
/-- The groups before the one the next call starts with are exhausted. -/
def Exhausts (run : StrategyRun) : Prop :=
  ∀ group ∈ (strategy.candidates (standing.moment 0 "")).take (strategy.startIndex run),
    ∀ id ∈ group, strategy.serves request standing id = true → id ∈ run.selectedUpstreams

theorem startIndex_start : strategy.startIndex {} = 0 := by
  cases strategy <;> simp [startIndex]

theorem exhausts_start : strategy.Exhausts request standing {} := by
  rw [Exhausts, startIndex_start]
  simp

theorem exists_group_of_mem_pool (candidate : id ∈ strategy.pool standing) (index : UInt64)
    (idx : ℕ) :
    (∃ group ∈ (strategy.candidates (standing.moment 0 "")).take idx, id ∈ group) ∨
      ∃ group ∈ (strategy.candidates (standing.moment index "")).drop idx, id ∈ group := by
  rw [pool, ← List.take_append_drop idx (strategy.candidates (standing.moment 0 "")),
    List.flatten_append, List.mem_append] at candidate
  rcases candidate with behind | ahead
  · exact .inl (List.mem_flatten.mp behind)
  · have perm := List.forall₂_drop idx (strategy.candidates_perm standing 0 index)
    exact .inr (List.mem_flatten.mp ((List.Perm.flatten_congr perm).mem_iff.mp ahead))

/-- Only label groups have groups behind a call: those it skipped are exhausted too. -/
theorem Exhausts.takes (exhausts : strategy.Exhausts request standing run)
    (sorts : strategy.Sorts standing) (stays : strategy.passesOnError = false) {index : UInt64}
    {skipped later : List (List String)} {group : List String}
    (split : (strategy.candidates (standing.moment index "")).drop (strategy.startIndex run) =
      skipped ++ group :: later)
    (all : ∀ other ∈ skipped, strategy.findIn request standing run.selectedUpstreams other = none)
    (id : String) :
    strategy.Exhausts request standing
      { run with
        selectedUpstreams := run.selectedUpstreams.add id
        currentGroupIdx := strategy.startIndex run + skipped.length
        firstCall := false } := by
  intro other behind id inOther serves
  apply (GoSet.mem_add _ _ _).mpr (.inr _)
  cases strategy with
  | labelGroup groups passOnError options =>
    cases stays
    change other ∈ groups.take ((labelGroup groups false options).startIndex run +
      skipped.length) at behind
    change groups.drop ((labelGroup groups false options).startIndex run) =
      skipped ++ group :: later at split
    rw [List.take_add, split, List.take_left' rfl] at behind
    rcases List.mem_append.mp behind with before | isSkipped
    · exact exhausts other before id inOther serves
    · exact mem_of_findIn_eq_none sorts (all other isSkipped) inOther serves
  | specificOrder upstreamIds options | rating ups options | generic options | failing err =>
    simp [startIndex] at behind

theorem Returns.complete (sorts : strategy.Sorts standing) (unlimited : standing.Unlimited)
    (unnamed : strategy.serves request standing "" = false) (stays : strategy.passesOnError = false)
    (candidate : id ∈ strategy.pool standing) (serves : strategy.serves request standing id = true)
    (returns : strategy.Returns request standing nextIndex called run ids)
    (exhausts : strategy.Exhausts request standing run) :
    id ∈ run.selectedUpstreams ∨ id ∈ ids := by
  revert exhausts
  apply returns.induction unlimited unnamed
  · intro called run all exhausts
    rcases exists_group_of_mem_pool candidate (nextIndex called) (strategy.startIndex run) with
      ⟨group, behind, inGroup⟩ | ⟨group, ahead, inGroup⟩
    · exact .inl (exhausts group behind id inGroup serves)
    · exact .inl (mem_of_findIn_eq_none sorts (all group ahead) inGroup serves)
  · intro called run skipped group later taken ids split all found ih exhausts
    rcases ih (exhausts.takes sorts stays split all taken) with marked | returned
    · rcases (GoSet.mem_add _ _ _).mp marked with rfl | before
      · exact .inr List.mem_cons_self
      · exact .inl before
    · exact .inr (List.mem_cons_of_mem _ returned)

variable (strategy request standing) in
/-- The first upstream of a group that serves the request and is not picked yet. -/
def nextOf (picked group : List String) : Option String :=
  (strategy.arrange (standing.moment 0 "") group).find? fun id =>
    strategy.serves request standing id && !picked.contains id

variable (strategy request standing) in
/-- At most one upstream of each group. -/
def onePerGroup (picked : List String) (groups : List (List String)) : List String :=
  groups.foldl (fun picked group => picked ++ (strategy.nextOf request standing picked group).toList)
    picked

theorem findIn_eq_nextOf (marked : ∀ id, id ∈ selectedUpstreams ↔ id ∈ picked) (group : List String) :
    strategy.findIn request standing selectedUpstreams group =
      strategy.nextOf request standing picked group := by
  have same (id : String) : selectedUpstreams.contains id = picked.contains id := by
    rw [Bool.eq_iff_iff, GoSet.contains_iff, List.contains_iff_mem, marked]
  rw [findIn, nextOf]
  congr 1
  funext id
  rw [selectable, same]

theorem onePerGroup_of_none
    (all : ∀ group ∈ groups, strategy.nextOf request standing picked group = none) :
    strategy.onePerGroup request standing picked groups = picked := by
  induction groups with
  | nil => rfl
  | cons group groups ih =>
    rw [onePerGroup, List.foldl_cons, all group List.mem_cons_self, Option.toList_none,
      List.append_nil]
    exact ih fun other later => all other (List.mem_cons_of_mem _ later)

variable {options : StrategyOptions}

theorem Returns.onePerGroup_eq (unlimited : standing.Unlimited)
    (unnamed : (labelGroup groups true options).serves request standing "" = false)
    (returns : (labelGroup groups true options).Returns request standing nextIndex called run ids)
    (marked : ∀ id, id ∈ run.selectedUpstreams ↔ id ∈ picked) :
    (labelGroup groups true options).onePerGroup request standing picked
      (groups.drop ((labelGroup groups true options).startIndex run)) = picked ++ ids := by
  revert picked
  apply returns.induction unlimited unnamed
  · intro called run all picked marked
    rw [List.append_nil, onePerGroup_of_none]
    intro group ahead
    rw [← findIn_eq_nextOf marked]
    exact all group ahead
  · intro called run skipped group later id ids split all found ih picked marked
    have none : ∀ other ∈ skipped, (labelGroup groups true options).nextOf request standing
        picked other = none := by
      intro other isSkipped
      rw [← findIn_eq_nextOf marked]
      exact all other isSkipped
    have rest := @ih (picked ++ [id]) fun other => by
      rw [GoSet.mem_add, marked, List.mem_append, List.mem_singleton, or_comm]
    have isLater : groups.drop ((labelGroup groups true options).startIndex run +
        skipped.length + 1) = later := by
      change groups.drop ((labelGroup groups true options).startIndex run) = _ at split
      rw [Nat.add_assoc, ← List.drop_drop, split, ← List.drop_drop, List.drop_left' rfl]
      rfl
    change (labelGroup groups true options).onePerGroup request standing (picked ++ [id])
      (groups.drop ((labelGroup groups true options).startIndex run + skipped.length + 1)) =
        _ at rest
    rw [isLater, List.append_assoc, List.singleton_append] at rest
    change (labelGroup groups true options).onePerGroup request standing picked
      ((labelGroup groups true options).candidates (standing.moment (nextIndex called) "") |>.drop
        ((labelGroup groups true options).startIndex run)) = _
    rw [split, onePerGroup, List.foldl_append, ← onePerGroup, ← onePerGroup,
      onePerGroup_of_none none, ← rest, onePerGroup, List.foldl_cons,
      ← findIn_eq_nextOf marked, found]
    rfl

section

variable (strategy request standing) (nextIndex : ℕ → UInt64)

def collected (sorts : strategy.Sorts standing) : List String :=
  (strategy.collectDispatchUpstreamIDs request standing nextIndex sorts).1.toOption.getD []

/-- Whether the loop gets to everything that serves the request. -/
def Covers : Prop :=
  match strategy with
  | labelGroup groups true options => ∀ id ∈ groups.flatten,
      (labelGroup groups true options).serves request standing id = true →
        id ∈ (labelGroup groups true options).onePerGroup request standing [] groups
  | _ => True

end

theorem toOption_result (collecting : Collecting) (err : ResponseError) :
    (collecting.result err).toOption.getD [] = collecting.upstreamIDs := by
  rw [Collecting.result]
  split_ifs with isEmpty
  · exact (List.isEmpty_iff.mp isEmpty).symm
  · rfl

theorem toOption_run_of_returns (sorts : strategy.Sorts standing)
    (returns : strategy.Returns request standing nextIndex called run ids)
    (isCalled : picked.length = called) (nodup : (picked ++ ids).Nodup) (named : "" ∉ ids) :
    ((strategy.collectLoop request standing nextIndex sorts).run
      ⟨run, picked⟩).1.toOption.getD [] = picked ++ ids := by
  induction returns generalizing picked with
  | @fails called run after err failed =>
    have leaves : strategy.collectRound request standing nextIndex ⟨run, picked⟩ =
        .inr (Collecting.result ⟨run, picked⟩ err, after) := by
      rw [collectRound, isCalled, failed]
    rw [Loop.run_of_inr leaves, toOption_result, List.append_nil]
  | @returns called run next id ids selected later ih =>
    have isNew : id ∉ picked := fun seen =>
      (List.nodup_append.mp nodup).2.2 id seen id List.mem_cons_self rfl
    have goesOn : ¬ (id = "" || picked.contains id) = true := by
      rw [Bool.or_eq_true, not_or, decide_eq_true_iff, List.contains_iff_mem]
      exact ⟨fun unnamed => named (unnamed ▸ List.mem_cons_self), isNew⟩
    have continues : strategy.collectRound request standing nextIndex ⟨run, picked⟩ =
        .inl ⟨next, picked ++ [id]⟩ := by
      rw [collectRound, isCalled, selected]
      exact if_neg goesOn
    rw [List.append_cons] at nodup ⊢
    rw [Loop.run_of_inl continues]
    exact ih (by simp [isCalled]) nodup fun unnamed => named (List.mem_cons_of_mem _ unnamed)

section

variable (sorts : strategy.Sorts standing)
  (unnamed : strategy.serves request standing "" = false)

include unnamed

variable (nextIndex) in
theorem returns_collected : strategy.Returns request standing nextIndex 0 {}
    (strategy.collected request standing nextIndex sorts) := by
  obtain ⟨ids, returns⟩ := exists_returns request nextIndex sorts 0 {}
  obtain ⟨nodup, selected⟩ := returns.selects sorts
  have named : "" ∉ ids := by
    intro returned
    have serves := (strategy.serves_iff request standing "").mpr (selected "" returned).2.2
    rw [unnamed] at serves
    cases serves
  have same : strategy.collected request standing nextIndex sorts = ids :=
    toOption_run_of_returns sorts returns rfl nodup named
  rwa [same]

variable (nextIndex) in
theorem collected_served :
    (strategy.collected request standing nextIndex sorts).Nodup ∧
      ∀ id ∈ strategy.collected request standing nextIndex sorts,
        id ∈ strategy.pool standing ∧ strategy.serves request standing id = true := by
  obtain ⟨nodup, selected⟩ := (returns_collected nextIndex sorts unnamed).selects sorts
  refine ⟨nodup, fun id returned => ?_⟩
  obtain ⟨-, candidate, accepted⟩ := selected id returned
  exact ⟨candidate, (strategy.serves_iff request standing id).mpr accepted⟩

variable (nextIndex) in
theorem collected_of_stays (unlimited : standing.Unlimited) (stays : strategy.passesOnError = false)
    {id : String} (candidate : id ∈ strategy.pool standing)
    (serves : strategy.serves request standing id = true) :
    id ∈ strategy.collected request standing nextIndex sorts := by
  have returned := (returns_collected nextIndex sorts unnamed).complete sorts unlimited unnamed
    stays candidate serves exhausts_start
  exact returned.resolve_left (AList.notMem_empty id)

end

variable (nextIndex) in
theorem collected_of_passes {groups : List (List String)}
    (sorts : (labelGroup groups true options).Sorts standing) (unlimited : standing.Unlimited)
    (unnamed : (labelGroup groups true options).serves request standing "" = false) :
    (labelGroup groups true options).collected request standing nextIndex sorts =
      (labelGroup groups true options).onePerGroup request standing [] groups := by
  have picks := (returns_collected nextIndex sorts unnamed).onePerGroup_eq unlimited unnamed
    fun id => iff_of_false (AList.notMem_empty id) List.not_mem_nil
  exact picks.symm

theorem subset_onePerGroup (picked : List String) (groups : List (List String)) :
    picked ⊆ strategy.onePerGroup request standing picked groups := by
  induction groups generalizing picked with
  | nil => exact List.Subset.refl _
  | cons group groups ih => exact fun _ member => ih _ (List.mem_append_left _ member)

theorem mem_onePerGroup (sorts : strategy.Sorts standing)
    (unique : ∀ group ∈ groups, ∀ id ∈ group, ∀ other ∈ group,
      strategy.serves request standing id = true →
        strategy.serves request standing other = true → id = other) (picked : List String)
    (candidate : id ∈ groups.flatten) (serves : strategy.serves request standing id = true) :
    id ∈ strategy.onePerGroup request standing picked groups := by
  induction groups generalizing picked with
  | nil => cases candidate
  | cons group groups ih =>
    rw [List.flatten_cons, List.mem_append] at candidate
    rcases candidate with inGroup | later
    · refine subset_onePerGroup (picked ++
        (strategy.nextOf request standing picked group).toList) groups ?_
      by_cases known : id ∈ picked
      · exact List.mem_append_left _ known
      · have isSome : ((strategy.arrange (standing.moment 0 "") group).find? fun id =>
            strategy.serves request standing id && !picked.contains id).isSome = true := by
          rw [List.find?_isSome]
          exact ⟨id, (sorts group).mem_iff.mpr inGroup, by simp [serves, known]⟩
        obtain ⟨other, found⟩ := Option.isSome_iff_exists.mp isSome
        have alsoServes := List.find?_some found
        rw [Bool.and_eq_true] at alsoServes
        have inSame := (sorts group).mem_iff.mp (List.mem_of_find?_eq_some found)
        have same := unique group List.mem_cons_self id inGroup other inSame serves alsoServes.1
        rw [nextOf, found, same]
        exact List.mem_append_right _ List.mem_cons_self
    · exact ih (fun other isLater => unique other (List.mem_cons_of_mem _ isLater)) _ later

theorem covers_of_unique {passOnError : Bool}
    (sorts : (labelGroup groups passOnError options).Sorts standing)
    (unique : ∀ group ∈ groups, ∀ id ∈ group, ∀ other ∈ group,
      (labelGroup groups passOnError options).serves request standing id = true →
      (labelGroup groups passOnError options).serves request standing other = true →
        id = other) : (labelGroup groups passOnError options).Covers request standing := by
  cases passOnError with
  | false => trivial
  | true => exact fun id candidate serves => mem_onePerGroup sorts unique [] candidate serves

variable (nextIndex) in
/-- What is collected is complete exactly if the strategy gets to everything. -/
theorem collected_complete_iff (sorts : strategy.Sorts standing) (unlimited : standing.Unlimited)
    (unnamed : strategy.serves request standing "" = false) :
    (∀ id ∈ strategy.pool standing, strategy.serves request standing id = true →
      id ∈ strategy.collected request standing nextIndex sorts) ↔
      strategy.Covers request standing := by
  cases stays : strategy.passesOnError with
  | false =>
    have covers : strategy.Covers request standing := by
      unfold Covers
      split
      · cases stays
      · trivial
    refine iff_of_true ?_ covers
    exact fun id candidate serves =>
      collected_of_stays nextIndex sorts unnamed unlimited stays candidate serves
  | true =>
    cases strategy with
    | labelGroup groups passOnError options =>
      cases stays
      rw [collected_of_passes nextIndex sorts unlimited unnamed]
      exact Iff.rfl
    | specificOrder upstreamIds options => cases stays
    | rating ups options => cases stays
    | generic options => cases stays
    | failing err => cases stays

end

end

end UpstreamStrategy

theorem perm_of_buildSelectorRouting {sources : RoutingSources}
    {selectors : List RequestSelector} {order : List String → List String}
    (ordered : (sources.buildSelectorRouting selectors).2 = some order) (ids : List String) :
    (order ids).Perm ids := by
  rw [RoutingSources.buildSelectorRouting] at ordered
  unfold RoutingSources.buildSelectorOrder at ordered
  split at ordered
  · cases ordered
  · cases ordered
    exact List.perm_insertionSort _ ids

theorem sorts_of_createStrategy {flow : ExecutionFlow} {request : RequestHolder}
    {strategy : UpstreamStrategy} (created : flow.createStrategy request = .ok strategy)
    (standing : Standing) : strategy.Sorts standing := by
  intro ids
  have orders : ∀ order, strategy.options.order standing.sources = some order →
      (order ids).Perm ids := by
    intro order isOrder
    rcases createStrategy_options created with ⟨err, rfl⟩ | same | ⟨index, same⟩
    · cases isOrder
    all_goals
      rw [same] at isOrder
      exact perm_of_buildSelectorRouting isOrder ids
  rw [UpstreamStrategy.arrange]
  split
  · exact .refl _
  · rename_i order isOrder
    exact orders order isOrder

/-- The upstreams a fan-out sends the request to: all that were collected, as far as the
supervisor still has them. -/
def ExecutionFlow.fanoutUpstreams (flow : ExecutionFlow) (upstreamIDs : List String) :
    List String :=
  upstreamIDs.filter fun id => (flow.getUpstream id).isSome

/-- For every strategy of a request, while no limiter refuses it: the upstreams collected
for a dispatch are distinct candidates that match the request, they are all of these
exactly if the strategy gets to everything, and then a fan-out reaches all of them. -/
theorem dispatch_reaches_all_iff (flow : ExecutionFlow) (request : RequestHolder)
    (strategy : UpstreamStrategy) (created : flow.createStrategy request = .ok strategy)
    (standing : Standing) (unlimited : standing.Unlimited)
    (named : standing.sources.getUpstreamState "" = none) (nextIndex : ℕ → UInt64) :
    let upstreamIDs := strategy.collected request standing nextIndex
      (sorts_of_createStrategy created standing)
    let candidate id := id ∈ strategy.pool standing ∧
      strategy.Accepted request ⟨id, standing.sources⟩
    upstreamIDs.Nodup ∧ (∀ id ∈ upstreamIDs, candidate id) ∧
      ((∀ id, candidate id → id ∈ upstreamIDs) ↔ strategy.Covers request standing) ∧
      (strategy.Covers request standing → ∀ id, candidate id →
        (flow.getUpstream id).isSome = true → id ∈ flow.fanoutUpstreams upstreamIDs) := by
  have unnamed : strategy.serves request standing "" = false := by
    rw [UpstreamStrategy.serves, named]
    rfl
  obtain ⟨nodup, served⟩ := UpstreamStrategy.collected_served nextIndex
    (sorts_of_createStrategy created standing) unnamed
  have complete := UpstreamStrategy.collected_complete_iff nextIndex
    (sorts_of_createStrategy created standing) unlimited unnamed
  simp only [UpstreamStrategy.serves_iff] at served complete
  have all : (∀ id, id ∈ strategy.pool standing ∧
      strategy.Accepted request ⟨id, standing.sources⟩ → id ∈ strategy.collected request standing
        nextIndex (sorts_of_createStrategy created standing)) ↔
      strategy.Covers request standing := by
    rw [← complete]
    exact forall_congr' fun id => and_imp
  refine ⟨nodup, served, all, fun covers id candidate present => ?_⟩
  exact List.mem_filter.mpr ⟨all.mpr covers id candidate, present⟩

namespace Labelled

open Specs

def method : Method where
  name := "eth_sendRawTransaction"
  dispatch := .dispatchBroadcast

def request : RequestHolder where
  method := "eth_sendRawTransaction"
  specMethod := some method

def standing : Standing where
  sources := ⟨fun _ => none, fun id =>
    if ["a", "b"].contains id then
      some (defaultUpstreamState ⟨AList.singleton "eth_sendRawTransaction" method⟩ ∅ "01" none
        none)
    else none⟩
  upstreamIds := ["a", "b"]

/-- Label balancing that passes on an error, with labels for the two upstreams. -/
def flow (first second : String) : ExecutionFlow where
  chain := "ethereum"
  getSortedUpstreams := fun _ => ["a", "b"]
  getUpstream := fun id =>
    if id = "a" then some ⟨false, [.jsonRpcConnector], AList.singleton first ()⟩
    else if id = "b" then some ⟨false, [.jsonRpcConnector], AList.singleton second ()⟩
    else none
  labelBalancing := some ⟨["full", "archive"], true, none⟩
  dispatchOptions := ⟨true, true, true⟩
  decoders :=
    { decodeUint64 := fun _ => none
      getNumber := fun _ => .missing
      gojq := fun _ _ => []
      rpc := ⟨-4, -2, -1, -3, 0, fun _ => none, fun _ => none⟩ }

def strategy (groups : List (List String)) : UpstreamStrategy :=
  .labelGroup groups true (selectorOptions request)

theorem unlimited : standing.Unlimited := by
  constructor <;>
  · intro id state read limited
    simp only [standing] at read
    split_ifs at read
    cases read
    cases limited

end Labelled

/-- With the two upstreams in groups of their own, both are collected. -/
theorem dispatch_reaches_both_groups :
    ∃ created : (Labelled.flow "full" "archive").createStrategy Labelled.request =
        .ok (Labelled.strategy [["a"], ["b"]]),
      let upstreamIDs := (Labelled.strategy [["a"], ["b"]]).collected Labelled.request
        Labelled.standing (fun _ => 0) (sorts_of_createStrategy created Labelled.standing)
      ∀ id ∈ ["a", "b"], id ∈ (Labelled.flow "full" "archive").fanoutUpstreams upstreamIDs := by
  have created : (Labelled.flow "full" "archive").createStrategy Labelled.request =
    .ok (Labelled.strategy [["a"], ["b"]]) := rfl
  have reaches := dispatch_reaches_all_iff (Labelled.flow "full" "archive") Labelled.request
    (Labelled.strategy [["a"], ["b"]]) created Labelled.standing Labelled.unlimited rfl fun _ => 0
  refine ⟨created, fun id member => reaches.2.2.2 ?_ id ⟨member, ?_⟩ ?_⟩
  · apply UpstreamStrategy.covers_of_unique (sorts_of_createStrategy created Labelled.standing)
    intro group isGroup id inGroup other inSame _ _
    rcases List.mem_pair.mp isGroup with rfl | rfl
    all_goals rw [List.mem_singleton.mp inGroup, List.mem_singleton.mp inSame]
  · rw [← UpstreamStrategy.serves_iff]
    rcases List.mem_pair.mp member with rfl | rfl
    · rfl
    · rfl
  · rcases List.mem_pair.mp member with rfl | rfl
    · rfl
    · rfl

/-- With the two upstreams in one group, the transaction reaches only one of them. -/
theorem broadcast_misses_rest_of_group :
    (Labelled.flow "full" "full").createRequestProcessor Labelled.request Labelled.method =
        .fanout .dispatchBroadcast ∧
      ∃ created : (Labelled.flow "full" "full").createStrategy Labelled.request =
          .ok (Labelled.strategy [["a", "b"], []]),
        (Labelled.strategy [["a", "b"], []]).collected Labelled.request Labelled.standing
            (fun _ => 0) (sorts_of_createStrategy created Labelled.standing) = ["a"] ∧
          "b" ∈ (Labelled.strategy [["a", "b"], []]).pool Labelled.standing ∧
          (Labelled.strategy [["a", "b"], []]).Accepted Labelled.request
            ⟨"b", Labelled.standing.sources⟩ := by
  refine ⟨rfl, rfl, ?_, by decide, ?_⟩
  · exact UpstreamStrategy.collected_of_passes _ _ Labelled.unlimited rfl
  · rw [← UpstreamStrategy.serves_iff]
    rfl

end Nodecore.Flow
