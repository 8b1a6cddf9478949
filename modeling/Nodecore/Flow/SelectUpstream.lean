/-
# Calls that run undisturbed

A strategy whose calls follow one another, while the upstreams and the limiters stay
as they are: `SelectUpstream` is then a function of what the strategy remembers.  The
loop of `filterUpstreams` and the loop over groups are written here as the source has
them.  A turn of the first does what the verdict on its candidate says, as a look of
interleaved calls does.
-/

import Nodecore.Flow.Strategy

namespace Nodecore.Flow

open Lib Protocol

/-- Upstreams and limiters that do not change.  The limiters answer for each upstream. -/
structure Standing where
  sources : RoutingSources
  upstreamIds : List String := []
  budgetAllows : String → Bool := fun _ => true
  autoTuneAllows : String → Bool := fun _ => true

/-- What a step reads that looks at some upstream. -/
def Standing.moment (standing : Standing) (nextIndex : UInt64) (upstreamId : String) : Moment where
  sources := standing.sources
  upstreamIds := standing.upstreamIds
  nextIndex := nextIndex
  budgetAllows := standing.budgetAllows upstreamId
  autoTuneAllows := standing.autoTuneAllows upstreamId

/-- The results of `filterUpstreams`, with what is picked afterwards. -/
structure Filtered where
  upstreamId : String
  reason : Option MatchResponse
  trace : UpstreamsMatchTrace
  selectedUpstreams : GoSet String

/-- An empty id stands for no upstream. -/
def Filtered.selected (filtered : Filtered) : Option String :=
  if filtered.upstreamId = "" then none else some filtered.upstreamId

/-- The results of the loop over groups, with what is picked and the cursor afterwards. -/
structure Selected where
  result : Except ResponseError String
  selectedUpstreams : GoSet String
  currentGroupIdx : ℕ

/-- The reason kept over the groups after one more of them. -/
def lowerReason (currentReason : Option MatchResponse) :
    Option MatchResponse → Option MatchResponse
  | none => currentReason
  | some reason => if reason.replaces currentReason then some reason else currentReason

namespace UpstreamStrategy

section

variable (strategy : UpstreamStrategy) (request : RequestHolder) (standing : Standing)

/-- The loop of `filterUpstreams`. -/
def filterFrom (selectedUpstreams : GoSet String) (currentReason : Option MatchResponse)
    (trace : UpstreamsMatchTrace) : List String → Filtered
  | [] => ⟨"", currentReason, trace, selectedUpstreams⟩
  | upstreamId :: remaining =>
    match standing.sources.getUpstreamState upstreamId with
    | none => filterFrom selectedUpstreams currentReason trace remaining
    | some state =>
      let matched := multiMatch (strategy.matchers request standing.sources) upstreamId state
      let trace := trace.add upstreamId matched
      let processed := processMatchedResponse matched currentReason selectedUpstreams
        upstreamId state (standing.budgetAllows upstreamId)
      if processed.2.1 then
        if state.autoTuneRateLimiter.isNone || standing.autoTuneAllows upstreamId then
          ⟨upstreamId, none, trace, processed.1⟩
        else if MatchResponse.replaces .rateLimiter currentReason then
          filterFrom processed.1 (some .rateLimiter) trace remaining
        else filterFrom processed.1 currentReason trace remaining
      else filterFrom processed.1 (processed.2.2.or currentReason) trace remaining

def filterUpstreams (selectedUpstreams : GoSet String) (upstreamIds : List String) : Filtered :=
  strategy.filterFrom request standing selectedUpstreams none []
    (strategy.arrange (standing.moment 0 "") upstreamIds)

def selectFrom (selectedUpstreams : GoSet String) (currentReason : Option MatchResponse)
    (trace : UpstreamsMatchTrace) (idx : ℕ) : List (List String) → Selected
  | [] => ⟨.error (selectionError currentReason trace), selectedUpstreams, idx⟩
  | group :: later =>
    let filtered := strategy.filterUpstreams request standing selectedUpstreams group
    if filtered.upstreamId ≠ "" then
      ⟨.ok filtered.upstreamId, filtered.selectedUpstreams, idx⟩
    else
      selectFrom filtered.selectedUpstreams (lowerReason currentReason filtered.reason)
        filtered.trace (idx + 1) later

def runSelectUpstream (nextIndex : UInt64) (run : StrategyRun) :
    Except ResponseError String × StrategyRun :=
  match strategy.candidates (standing.moment nextIndex "") with
  | [] => (.error strategy.emptyError, run)
  | groups =>
    let idx := strategy.startIndex run
    let selected := strategy.selectFrom request standing run.selectedUpstreams none [] idx
      (groups.drop idx)
    (selected.result,
      { run with
        selectedUpstreams := selected.selectedUpstreams
        currentGroupIdx := selected.currentGroupIdx
        firstCall := false })

/-- The selectors of the request may reorder the candidates but do not add or drop any. -/
def Sorts : Prop := ∀ ids, (strategy.arrange (standing.moment 0 "") ids).Perm ids

end

section

variable (strategy : UpstreamStrategy)

theorem perm_rotate (ids : List String) (pos : ℕ) : (ids.drop pos ++ ids.take pos).Perm ids :=
  List.perm_append_comm.trans (by rw [List.take_append_drop])

theorem candidates_generic (options : StrategyOptions) (standing : Standing) (nextIndex : UInt64) :
    (generic options).candidates (standing.moment nextIndex "") =
      if standing.upstreamIds.isEmpty then []
      else
        let pos := nextIndex.toNat % standing.upstreamIds.length
        [standing.upstreamIds.drop pos ++ standing.upstreamIds.take pos] := rfl

theorem candidates_perm (standing : Standing) (first second : UInt64) :
    List.Forall₂ List.Perm (strategy.candidates (standing.moment first ""))
      (strategy.candidates (standing.moment second "")) := by
  have same (groups : List (List String)) : List.Forall₂ List.Perm groups groups :=
    List.forall₂_same.mpr fun _ _ => .refl _
  cases strategy with
  | specificOrder upstreamIds options => exact same _
  | rating ups options => exact same _
  | generic options =>
    rw [candidates_generic, candidates_generic]
    split_ifs with isEmpty
    · exact .nil
    · exact .cons ((perm_rotate _ _).trans (perm_rotate _ _).symm) .nil
  | labelGroup groups passOnError options => exact same _
  | failing err => exact same _

end

section

variable {strategy : UpstreamStrategy} {request : RequestHolder} {standing : Standing}

variable (strategy request standing) in
/-- The verdict on a candidate while nothing changes. -/
def standingVerdict (selectedUpstreams : GoSet String) (upstreamId : String) : Verdict :=
  strategy.verdict request (standing.moment 0 upstreamId) selectedUpstreams upstreamId

variable (strategy request standing) in
theorem filterFrom_cons (selectedUpstreams : GoSet String) (currentReason : Option MatchResponse)
    (trace : UpstreamsMatchTrace) (upstreamId : String) (remaining : List String) :
    strategy.filterFrom request standing selectedUpstreams currentReason trace
        (upstreamId :: remaining) =
      let verdict := strategy.standingVerdict request standing selectedUpstreams upstreamId
      let traced := strategy.traceLook request standing.sources trace upstreamId
      let marked := verdict.mark selectedUpstreams upstreamId
      if verdict.isFree then ⟨upstreamId, none, traced, marked⟩
      else strategy.filterFrom request standing marked (verdict.reason currentReason) traced
        remaining := by
  rw [filterFrom, standingVerdict, verdict, traceLook, Standing.moment]
  dsimp only
  cases standing.sources.getUpstreamState upstreamId with
  | none => rfl
  | some state =>
    dsimp only [processMatchedResponse, Option.elim]
    split_ifs with known success refused allowed replaced
    all_goals simp_all [Verdict.reason, Verdict.mark, Verdict.isFree]

variable (strategy request standing) in
/-- Some candidates are walked over.  Nothing is unmarked, and what is selected is one of
the candidates, passed, and was not marked before. -/
structure Selects (selectedUpstreams : GoSet String) (candidates : List String)
    (selected : Option String) (marked : GoSet String) : Prop where
  kept : ∀ id ∈ selectedUpstreams, id ∈ marked
  candidate : ∀ id, selected = some id → id ∈ candidates
  fresh : ∀ id, selected = some id → id ∉ selectedUpstreams
  marks : ∀ id, selected = some id → id ∈ marked
  accepted : ∀ id, selected = some id → strategy.Accepted request ⟨id, standing.sources⟩

theorem Selects.after {selectedUpstreams marked last : GoSet String}
    {candidates more : List String} {selected : Option String}
    (selects : strategy.Selects request standing marked candidates selected last)
    (kept : ∀ id ∈ selectedUpstreams, id ∈ marked) (included : candidates ⊆ more) :
    strategy.Selects request standing selectedUpstreams more selected last where
  kept id before := selects.kept id (kept id before)
  candidate id isSelected := included (selects.candidate id isSelected)
  fresh id isSelected before := selects.fresh id isSelected (kept id before)
  marks := selects.marks
  accepted := selects.accepted

variable {candidates : List String}

theorem Selects.none {selectedUpstreams marked : GoSet String}
    (kept : ∀ id ∈ selectedUpstreams, id ∈ marked) :
    strategy.Selects request standing selectedUpstreams candidates none marked where
  kept := kept
  candidate _ isSelected := by cases isSelected
  fresh _ isSelected := by cases isSelected
  marks _ isSelected := by cases isSelected
  accepted _ isSelected := by cases isSelected

theorem Selects.some {selectedUpstreams : GoSet String} {id : String} (candidate : id ∈ candidates)
    (fresh : id ∉ selectedUpstreams) (accepted : strategy.Accepted request ⟨id, standing.sources⟩) :
    strategy.Selects request standing selectedUpstreams candidates (some id)
      (selectedUpstreams.add id) where
  kept _ before := (GoSet.mem_add _ _ _).mpr (.inr before)
  candidate _ isSelected := Option.some.inj isSelected ▸ candidate
  fresh _ isSelected := Option.some.inj isSelected ▸ fresh
  marks _ isSelected := (GoSet.mem_add _ _ _).mpr (.inl (Option.some.inj isSelected).symm)
  accepted _ isSelected := Option.some.inj isSelected ▸ accepted

variable (strategy request standing) in
theorem selects_filterFrom (ids : List String) (selectedUpstreams : GoSet String)
    (currentReason : Option MatchResponse) (trace : UpstreamsMatchTrace) :
    let filtered := strategy.filterFrom request standing selectedUpstreams currentReason trace ids
    strategy.Selects request standing selectedUpstreams ids filtered.selected
      filtered.selectedUpstreams := by
  induction ids generalizing selectedUpstreams currentReason trace with
  | nil => exact .none fun _ before => before
  | cons id remaining ih =>
    rw [filterFrom_cons]
    dsimp only
    have grows : ∀ other ∈ selectedUpstreams, other ∈
        (strategy.standingVerdict request standing selectedUpstreams id).mark
          selectedUpstreams id :=
      fun other before => Verdict.mem_mark before _ id
    split_ifs with isFree
    · have free := Verdict.isFree_iff.mp isFree
      obtain ⟨fresh, accepted⟩ := accepted_of_free free
      rw [Filtered.selected]
      split_ifs with unnamed
      · exact .none grows
      · rw [free]
        exact .some List.mem_cons_self fresh accepted
    · exact (ih _ _ _).after grows (List.subset_cons_self _ _)

variable (request) in
theorem selects_selectFrom (sorts : strategy.Sorts standing) (groups : List (List String))
    (selectedUpstreams : GoSet String) (currentReason : Option MatchResponse)
    (trace : UpstreamsMatchTrace) (idx : ℕ) :
    let selected := strategy.selectFrom request standing selectedUpstreams currentReason trace idx
      groups
    strategy.Selects request standing selectedUpstreams groups.flatten selected.result.toOption
      selected.selectedUpstreams := by
  induction groups generalizing selectedUpstreams currentReason trace idx with
  | nil => exact .none fun _ before => before
  | cons group later ih =>
    have here := strategy.selects_filterFrom request standing
      (strategy.arrange (standing.moment 0 "") group) selectedUpstreams none []
    have inGroup := here.after (fun _ before => before) (sorts group).subset
    rw [selectFrom, List.flatten_cons]
    dsimp only
    split_ifs with found
    · have isSelected : (strategy.filterUpstreams request standing selectedUpstreams
          group).selected = Option.some (strategy.filterUpstreams request standing
            selectedUpstreams group).upstreamId := if_neg found
      rw [filterUpstreams] at isSelected ⊢
      rw [isSelected] at inGroup
      exact inGroup.after (fun _ before => before) (List.subset_append_left _ _)
    · exact (ih _ _ _ _).after here.kept (List.subset_append_right _ _)

variable (strategy standing) in
def pool : List String := (strategy.candidates (standing.moment 0 "")).flatten

variable (request) in
theorem selects_runSelectUpstream (sorts : strategy.Sorts standing) (nextIndex : UInt64)
    (run : StrategyRun) :
    let called := strategy.runSelectUpstream request standing nextIndex run
    strategy.Selects request standing run.selectedUpstreams (strategy.pool standing)
      called.1.toOption called.2.selectedUpstreams := by
  rw [runSelectUpstream]
  split
  · exact .none fun _ before => before
  · refine (selects_selectFrom request sorts _ _ _ _ _).after (fun _ before => before) ?_
    intro id member
    obtain ⟨group, isGroup, inGroup⟩ := List.mem_flatten.mp member
    rw [pool, (List.Perm.flatten_congr (strategy.candidates_perm standing 0 nextIndex)).mem_iff]
    exact List.mem_flatten.mpr ⟨group, List.mem_of_mem_drop isGroup, inGroup⟩

end

end UpstreamStrategy

end Nodecore.Flow
