/-
# The error of a call that finds nothing

A call that can select no upstream answers with the reason it kept.  Of the reasons
of a group it keeps one of the lowest rank, and of those of several groups again,
except that a refusal of a budget replaces whatever was kept in the group.  A reason of
a lower rank therefore survives only if it comes after the last such refusal, and the
class of the error depends on the order of the candidates.

It does not where no reason ranks below that of the limiters, or where a reason of
the lowest rank stands in a group without such a refusal.  These are all such cases.
-/

import Mathlib.Algebra.Group.Nat.Defs
import Mathlib.Data.Multiset.Fold
import Nodecore.Flow.SelectUpstream

namespace Nodecore.Flow

open Lib Protocol

def reasonRank (reason : Option MatchResponse) : ℕ := reason.elim 5 (·.type.rank)

@[simp]
theorem reasonRank_none : reasonRank none = 5 := rfl

/-- The class of an error by the rank of its reason. -/
def rankCode : ℕ → ℤ
  | 0 => -32601
  | 2 => 429
  | _ => 1

/-- The class of an error for several reasons, by the lowest rank among them. -/
def reasonsCode (reasons : Multiset MatchResponse) : ℤ :=
  rankCode ((reasons.map (·.type.rank)).fold min 5)

variable (reason : Option MatchResponse)

theorem code_selectionError (trace : UpstreamsMatchTrace) :
    (selectionError reason trace).code = rankCode (reasonRank reason) := by
  cases reason with
  | none => rfl
  | some response =>
    cases response with
    | method _ => rfl
    | rateLimiter => rfl
    | _ => simp [selectionError, MatchResponse.type, ResponseError.code, reasonRank,
        MatchResponseType.rank, rankCode]

theorem reasonRank_ite_replaces (response : MatchResponse) (current : Option MatchResponse) :
    reasonRank (if response.replaces current then some response else current) =
      min (reasonRank current) response.type.rank := by
  cases current with
  | none => exact (min_eq_right response.rank_type_le).symm
  | some held =>
    by_cases lower : response.type.rank < held.type.rank
    · have replaced : response.replaces (some held) = true := decide_eq_true lower
      rw [if_pos replaced]
      exact (min_eq_right lower.le).symm
    · have kept : ¬ response.replaces (some held) = true := lower ∘ of_decide_eq_true
      rw [if_neg kept]
      exact (min_eq_left (not_lt.mp lower)).symm

theorem reasonRank_le : reasonRank reason ≤ 5 := by
  cases reason with
  | none => exact le_refl 5
  | some response => exact response.rank_type_le

theorem reasonRank_lowerReason (currentReason reason : Option MatchResponse) :
    reasonRank (lowerReason currentReason reason) =
      min (reasonRank currentReason) (reasonRank reason) := by
  cases reason with
  | none => exact (min_eq_left (reasonRank_le currentReason)).symm
  | some response => exact reasonRank_ite_replaces response currentReason

namespace Verdict

def own : Verdict → Option MatchResponse
  | rejected matched => some matched
  | overBudget | throttled => some .rateLimiter
  | absent | taken | free => none

/-- The rank kept after a turn: it is lowered to that of the candidate's own reason,
or set to that of a limiter where the budget refuses. -/
def keeps (rank : ℕ) : Verdict → ℕ
  | overBudget => 2
  | verdict => min rank (reasonRank verdict.own)

theorem reasonRank_reason {verdict : Verdict} (held : verdict ≠ .free)
    (currentReason : Option MatchResponse) :
    reasonRank (verdict.reason currentReason) = verdict.keeps (reasonRank currentReason) := by
  have bound := reasonRank_le currentReason
  cases verdict with
  | absent | taken => exact (min_eq_left bound).symm
  | rejected matched => exact reasonRank_ite_replaces matched currentReason
  | overBudget => rfl
  | throttled => exact reasonRank_ite_replaces .rateLimiter currentReason
  | free => exact absurd rfl held

theorem keeps_of_ne {verdict : Verdict} (allowed : verdict ≠ .overBudget) (rank : ℕ) :
    verdict.keeps rank = min rank (reasonRank verdict.own) := by
  cases verdict <;> first | rfl | exact absurd rfl allowed

theorem min_le_keeps (verdict : Verdict) (rank : ℕ) :
    min rank (reasonRank verdict.own) ≤ verdict.keeps rank := by
  cases verdict with
  | overBudget => exact min_le_right _ _
  | _ => exact le_refl _

theorem keeps_le (verdict : Verdict) (rank : ℕ) : verdict.keeps rank ≤ max rank 2 := by
  cases verdict with
  | overBudget => exact le_max_right _ _
  | _ => exact (min_le_left _ _).trans (le_max_left _ _)

end Verdict

theorem le_foldr_min_iff {rank top : ℕ} {ranks : List ℕ} :
    rank ≤ ranks.foldr min top ↔ rank ≤ top ∧ ∀ other ∈ ranks, rank ≤ other := by
  induction ranks with
  | nil => simp
  | cons first ranks ih =>
    rw [List.foldr_cons, le_min_iff, ih, List.forall_mem_cons]
    exact and_left_comm

variable {other : UpstreamStrategy} {currentReason : Option MatchResponse} {group : List String}
  {id : String} {outer : ℕ}

section Ranks

variable (found : String → Verdict)

def lowestOf (ids : List String) : ℕ :=
  ((ids.filterMap fun id => (found id).own).map (·.type.rank)).foldr min 5

/-- The rank kept over a group in which nothing is selected. -/
def keptOf (rank : ℕ) (ids : List String) : ℕ :=
  ids.foldl (fun rank id => (found id).keeps rank) rank

def callRank (groups : List (List String)) : ℕ := (groups.map (keptOf found 5)).foldr min 5

variable {found} {rank : ℕ} {ids : List String} {groups : List (List String)}

theorem le_lowestOf_iff :
    rank ≤ lowestOf found ids ↔ rank ≤ 5 ∧ ∀ id ∈ ids, rank ≤ reasonRank (found id).own := by
  rw [lowestOf, le_foldr_min_iff]
  refine and_congr_right fun bound => ?_
  simp only [List.mem_map, List.mem_filterMap]
  constructor
  · intro below id member
    cases own : (found id).own with
    | none => exact bound
    | some reason => exact below _ ⟨reason, ⟨id, member, own⟩, rfl⟩
  · rintro below _ ⟨reason, ⟨id, member, own⟩, rfl⟩
    have low := below id member
    rwa [own] at low

theorem lowestOf_congr {others : List String} (same : ∀ id, id ∈ ids ↔ id ∈ others) :
    lowestOf found ids = lowestOf found others :=
  eq_of_forall_le_iff fun rank => by simp only [le_lowestOf_iff, same]

theorem lowestOf_flatten_le (member : group ∈ groups) :
    lowestOf found groups.flatten ≤ lowestOf found group := by
  have lowest := le_lowestOf_iff.mp (le_refl (lowestOf found groups.flatten))
  refine le_lowestOf_iff.mpr ⟨lowest.1, fun id inGroup => lowest.2 id ?_⟩
  exact List.mem_flatten.mpr ⟨group, member, inGroup⟩

theorem keptOf_cons (id : String) :
    keptOf found rank (id :: ids) = keptOf found ((found id).keeps rank) ids := rfl

theorem le_keptOf : min rank (lowestOf found ids) ≤ keptOf found rank ids := by
  induction ids generalizing rank with
  | nil => exact min_le_left _ _
  | cons id ids ih =>
    rw [keptOf_cons]
    refine le_trans (le_min ?_ ?_) ih
    · refine le_trans (le_min (min_le_left _ _) ?_) ((found id).min_le_keeps rank)
      have lowest := (le_lowestOf_iff.mp (le_refl (lowestOf found (id :: ids)))).2
      exact (min_le_right _ _).trans (lowest id List.mem_cons_self)
    · have lowest := le_lowestOf_iff.mp (le_refl (lowestOf found (id :: ids)))
      refine (min_le_right _ _).trans (le_lowestOf_iff.mpr ⟨lowest.1, fun other later => ?_⟩)
      exact lowest.2 other (List.mem_cons_of_mem id later)

theorem keptOf_of_allowed (allowed : ∀ id ∈ ids, found id ≠ .overBudget) (bound : rank ≤ 5) :
    keptOf found rank ids = min rank (lowestOf found ids) := by
  refine le_antisymm ?_ le_keptOf
  induction ids generalizing rank with
  | nil => exact le_min (le_refl _) (le_lowestOf_iff.mpr ⟨bound, by simp⟩)
  | cons id ids ih =>
    obtain ⟨first, allowed⟩ := List.forall_mem_cons.mp allowed
    have kept := Verdict.keeps_of_ne first rank
    have below : keptOf found ((found id).keeps rank) ids ≤ _ := ih allowed (by omega)
    rw [keptOf_cons]
    refine below.trans (le_min ?_ (le_lowestOf_iff.mpr ⟨?_, List.forall_mem_cons.mpr ⟨?_, ?_⟩⟩))
    · omega
    · omega
    · omega
    · exact fun other later => (min_le_right _ _).trans
        ((le_lowestOf_iff.mp (le_refl (lowestOf found ids))).2 other later)

theorem keptOf_le_two (low : rank ≤ 2 ∨ ∃ id ∈ ids, found id = .overBudget) :
    keptOf found rank ids ≤ 2 := by
  induction ids generalizing rank with
  | nil =>
    rcases low with low | ⟨_, member, _⟩
    · exact low
    · cases member
  | cons id ids ih =>
    rw [keptOf_cons]
    apply ih
    rcases low with low | ⟨other, member, refused⟩
    · have bound := (found id).keeps_le rank
      left
      omega
    · rcases List.mem_cons.mp member with rfl | later
      · left
        rw [refused]
        exact le_refl 2
      · exact .inr ⟨other, later, refused⟩

/-- A refusal of a budget that comes last is all that is left of a group. -/
theorem keptOf_concat {last : String} (refused : found last = .overBudget) :
    keptOf found rank (ids ++ [last]) = 2 := by
  rw [keptOf, List.foldl_append, List.foldl_cons, refused]
  rfl

theorem keptOf_congr {other : ℕ} (same : min outer rank = min outer other) :
    min outer (keptOf found rank ids) = min outer (keptOf found other ids) := by
  induction ids generalizing rank other with
  | nil => exact same
  | cons id ids ih =>
    rw [keptOf_cons, keptOf_cons]
    apply ih
    by_cases refused : found id = .overBudget
    · rw [refused]
      rfl
    · rw [Verdict.keeps_of_ne refused, Verdict.keeps_of_ne refused, ← min_assoc, same, min_assoc]

theorem le_callRank_iff :
    rank ≤ callRank found groups ↔ rank ≤ 5 ∧ ∀ group ∈ groups, rank ≤ keptOf found 5 group := by
  rw [callRank, le_foldr_min_iff, List.forall_mem_map]

theorem callRank_le (member : group ∈ groups) : callRank found groups ≤ keptOf found 5 group :=
  (le_callRank_iff.mp (le_refl (callRank found groups))).2 group member

end Ranks

namespace UpstreamStrategy

section

variable (strategy : UpstreamStrategy) (request : RequestHolder) (standing : Standing)
  (selectedUpstreams : GoSet String)

def reasons (upstreamIds : List String) : List MatchResponse :=
  upstreamIds.filterMap fun id =>
    (strategy.standingVerdict request standing selectedUpstreams id).own

def lowestRank (upstreamIds : List String) : ℕ :=
  ((strategy.reasons request standing selectedUpstreams upstreamIds).map (·.type.rank)).foldr
    min 5

def IsOverBudget (upstreamId : String) : Prop :=
  strategy.standingVerdict request standing selectedUpstreams upstreamId = .overBudget

end

section

variable {strategy : UpstreamStrategy} {request : RequestHolder} {standing : Standing}
  {selectedUpstreams marked : GoSet String}

/-- What a failing call marks: candidates the auto-tuned limiter refused.  Once there
is one, the rank kept so far is not above that of a limiter. -/
structure Marked (found : String → Verdict) (selectedUpstreams marked : GoSet String)
    (rank : ℕ) : Prop where
  kept : ∀ id ∈ selectedUpstreams, id ∈ marked
  throttled : ∀ id ∈ marked, id ∉ selectedUpstreams → found id = .throttled ∧ rank ≤ 2

theorem standingVerdict_congr (same : id ∈ marked ↔ id ∈ selectedUpstreams) :
    strategy.standingVerdict request standing marked id =
      strategy.standingVerdict request standing selectedUpstreams id := by
  have contains : marked.contains id = selectedUpstreams.contains id := by
    rw [Bool.eq_iff_iff, GoSet.contains_iff, GoSet.contains_iff, same]
  rw [standingVerdict, standingVerdict, UpstreamStrategy.verdict, UpstreamStrategy.verdict,
    contains]

theorem standingVerdict_of_mem (isMarked : id ∈ marked)
    (present : strategy.standingVerdict request standing selectedUpstreams id ≠ .absent) :
    strategy.standingVerdict request standing marked id = .taken := by
  rw [standingVerdict, UpstreamStrategy.verdict] at present ⊢
  cases read : (standing.moment 0 id).sources.getUpstreamState id with
  | none => simp [read] at present
  | some state => simp [(GoSet.contains_iff marked id).mpr isMarked]

section Failing

variable {found : String → Verdict}
  (isFound : found = strategy.standingVerdict request standing selectedUpstreams)

include isFound

theorem Marked.verdict {rank : ℕ} (isMarked : Marked found selectedUpstreams marked rank)
    (id : String) :
    strategy.standingVerdict request standing marked id = found id ∨
      strategy.standingVerdict request standing marked id = .taken ∧
        found id = .throttled ∧ rank ≤ 2 := by
  by_cases before : id ∈ selectedUpstreams
  · rw [isFound]
    exact .inl (standingVerdict_congr (iff_of_true (isMarked.kept id before) before))
  · by_cases since : id ∈ marked
    · obtain ⟨throttled, low⟩ := isMarked.throttled id since before
      have present : strategy.standingVerdict request standing selectedUpstreams id ≠ .absent := by
        simp [← isFound, throttled]
      exact .inr ⟨standingVerdict_of_mem since present, throttled, low⟩
    · rw [isFound]
      exact .inl (standingVerdict_congr (iff_of_false since before))

theorem Marked.turn
    (isMarked : Marked found selectedUpstreams marked (min outer (reasonRank currentReason)))
    (held : found id ≠ .free) :
    let verdict := strategy.standingVerdict request standing marked id
    let rank := min outer (reasonRank (verdict.reason currentReason))
    verdict ≠ .free ∧ rank = min outer ((found id).keeps (reasonRank currentReason)) ∧
      Marked found selectedUpstreams (verdict.mark marked id) rank := by
  rcases isMarked.verdict isFound id with same | ⟨taken, throttled, low⟩
  · have kept := Verdict.reasonRank_reason held currentReason
    have bound := (found id).keeps_le (reasonRank currentReason)
    dsimp only
    rw [same, kept]
    refine ⟨held, rfl, fun other before => Verdict.mem_mark (isMarked.kept other before) _ id, ?_⟩
    intro other since before
    by_cases earlier : other ∈ marked
    · obtain ⟨throttled, low⟩ := isMarked.throttled other earlier before
      exact ⟨throttled, by omega⟩
    · -- only a candidate refused by its auto-tuned limiter is marked in this turn
      cases isThrottled : found id with
      | throttled =>
        rw [isThrottled, Verdict.mark, GoSet.mem_add] at since
        obtain rfl := since.resolve_right earlier
        exact ⟨isThrottled, min_le_of_right_le (min_le_right _ _)⟩
      | free => exact absurd isThrottled held
      | _ =>
        rw [isThrottled] at since
        exact absurd since earlier
  · dsimp only
    rw [taken, throttled]
    refine ⟨by simp, ?_, isMarked⟩
    have limiter : Verdict.throttled.keeps (reasonRank currentReason) =
        min (reasonRank currentReason) 2 := rfl
    rw [limiter, ← min_assoc]
    exact (min_eq_left low).symm

theorem kept_filterFrom (ids : List String) (trace : UpstreamsMatchTrace)
    (isMarked : Marked found selectedUpstreams marked (min outer (reasonRank currentReason)))
    (held : ∀ id ∈ ids, found id ≠ .free) :
    let filtered := strategy.filterFrom request standing marked currentReason trace ids
    filtered.upstreamId = "" ∧
      min outer (reasonRank filtered.reason) =
        min outer (keptOf found (reasonRank currentReason) ids) ∧
      Marked found selectedUpstreams filtered.selectedUpstreams
        (min outer (reasonRank filtered.reason)) := by
  induction ids generalizing marked currentReason trace with
  | nil => exact ⟨rfl, rfl, isMarked⟩
  | cons id remaining ih =>
    obtain ⟨first, held⟩ := List.forall_mem_cons.mp held
    obtain ⟨notFree, kept, marks⟩ := isMarked.turn isFound first
    rw [filterFrom_cons]
    dsimp only at kept marks ⊢
    rw [if_neg (notFree ∘ Verdict.isFree_iff.mp), keptOf_cons, ← keptOf_congr kept]
    exact ih (strategy.traceLook request standing.sources trace id) marks held

/-- The rank of the reason that a loop over groups is left with, when none had an
upstream to select. -/
theorem exists_error_selectFrom (groups : List (List String)) (trace : UpstreamsMatchTrace)
    (idx : ℕ) (isMarked : Marked found selectedUpstreams marked (reasonRank currentReason))
    (held : ∀ group ∈ groups, ∀ id ∈ strategy.arrange (standing.moment 0 "") group,
      found id ≠ .free) :
    ∃ reason last, (strategy.selectFrom request standing marked currentReason trace idx
        groups).result = .error (selectionError reason last) ∧
      reasonRank reason = min (reasonRank currentReason)
        (callRank found (groups.map (strategy.arrange (standing.moment 0 "")))) := by
  induction groups generalizing marked currentReason trace idx with
  | nil => exact ⟨currentReason, trace, rfl, (min_eq_left (reasonRank_le currentReason)).symm⟩
  | cons group later ih =>
    obtain ⟨first, held⟩ := List.forall_mem_cons.mp held
    have start : Marked found selectedUpstreams marked
        (min (reasonRank currentReason) (reasonRank none)) := by
      rwa [reasonRank_none, min_eq_left (reasonRank_le currentReason)]
    obtain ⟨none, kept, marks⟩ := kept_filterFrom isFound
      (strategy.arrange (standing.moment 0 "") group) [] start first
    rw [← filterUpstreams] at none kept marks
    rw [← reasonRank_lowerReason] at kept marks
    obtain ⟨reason, last, isError, isRank⟩ := ih
      (strategy.filterUpstreams request standing marked group).trace (idx + 1) marks held
    refine ⟨reason, last, ?_, ?_⟩
    · rw [selectFrom, if_neg (not_not.mpr none)]
      exact isError
    · rw [isRank, kept, reasonRank_none, min_assoc]
      rfl

end Failing

variable (strategy request standing selectedUpstreams) in
/-- No reason ranks below that of the limiters, or one of the lowest rank stands in a
group whose budgets refuse nothing. -/
def Settled (groups : List (List String)) : Prop :=
  2 ≤ strategy.lowestRank request standing selectedUpstreams groups.flatten ∨
    ∃ group ∈ groups,
      (∀ id ∈ group, ¬ strategy.IsOverBudget request standing selectedUpstreams id) ∧
        strategy.lowestRank request standing selectedUpstreams group =
          strategy.lowestRank request standing selectedUpstreams groups.flatten

variable {groups others : List (List String)}

theorem exists_perm_of_mem (perm : List.Forall₂ List.Perm groups others) (member : group ∈ groups) :
    ∃ other ∈ others, group.Perm other := by
  induction perm with
  | nil => cases member
  | cons head _ ih =>
    rcases List.mem_cons.mp member with rfl | later
    · exact ⟨_, List.mem_cons_self, head⟩
    · obtain ⟨other, isOther, same⟩ := ih later
      exact ⟨other, List.mem_cons_of_mem _ isOther, same⟩

variable {found : String → Verdict}

theorem callRank_of_settled (settled : 2 ≤ lowestOf found groups.flatten ∨ ∃ group ∈ groups,
      (∀ id ∈ group, found id ≠ .overBudget) ∧
        lowestOf found group = lowestOf found groups.flatten)
    (perm : List.Forall₂ List.Perm groups others) :
    callRank found others = lowestOf found groups.flatten := by
  have flat := List.Perm.flatten_congr perm
  have lowest := le_lowestOf_iff.mp (le_refl (lowestOf found groups.flatten))
  refine le_antisymm ?_ (le_callRank_iff.mpr ⟨lowest.1, fun group member => ?_⟩)
  · rcases settled with high | ⟨group, member, allowed, same⟩
    · by_cases refused : ∃ group ∈ others, ∃ id ∈ group, found id = .overBudget
      · obtain ⟨group, member, refused⟩ := refused
        exact ((callRank_le member).trans (keptOf_le_two (.inr refused))).trans high
      · push Not at refused
        refine le_lowestOf_iff.mpr ⟨(le_callRank_iff.mp (le_refl _)).1, fun id member => ?_⟩
        obtain ⟨group, isGroup, inGroup⟩ := List.mem_flatten.mp (flat.mem_iff.mp member)
        have kept : callRank found others ≤ _ := callRank_le isGroup
        rw [keptOf_of_allowed (refused group isGroup) (le_refl 5)] at kept
        exact (le_lowestOf_iff.mp (kept.trans (min_le_right _ _))).2 id inGroup
    · obtain ⟨other, isOther, arranged⟩ := exists_perm_of_mem perm member
      have allowedOther : ∀ id ∈ other, found id ≠ .overBudget :=
        fun id inOther => allowed id (arranged.mem_iff.mpr inOther)
      have kept : callRank found others ≤ _ := callRank_le isOther
      rw [keptOf_of_allowed allowedOther (le_refl 5)] at kept
      rw [← same, lowestOf_congr fun id => arranged.mem_iff]
      exact kept.trans (min_le_right _ _)
  · refine le_trans (le_min lowest.1 ?_) le_keptOf
    rw [lowestOf_congr fun id => flat.mem_iff]
    exact lowestOf_flatten_le member

theorem arrange_of_unsorted (unsorted : strategy.options.order standing.sources = none)
    (ids : List String) : strategy.arrange (standing.moment 0 "") ids = ids := by
  have isNone : strategy.options.order (standing.moment 0 "").sources = none := unsorted
  rw [arrange, isNone]

/-- The same strategy with its candidates in another order.  A generic strategy takes
its order from the round-robin index. -/
inductive Resorted : UpstreamStrategy → UpstreamStrategy → Prop
  | specificOrder {upstreamIds others : List String} (options : StrategyOptions)
      (perm : upstreamIds.Perm others) :
      Resorted (.specificOrder upstreamIds options) (.specificOrder others options)
  | rating {ups others : List String} (options : StrategyOptions) (perm : ups.Perm others) :
      Resorted (.rating ups options) (.rating others options)
  | generic (options : StrategyOptions) : Resorted (.generic options) (.generic options)
  | labelGroup {groups others : List (List String)} (passOnError : Bool)
      (options : StrategyOptions) (perm : List.Forall₂ List.Perm groups others) :
      Resorted (.labelGroup groups passOnError options) (.labelGroup others passOnError options)

section

variable (resorted : Resorted strategy other)
include resorted

theorem Resorted.options_eq : other.options = strategy.options := by
  cases resorted <;> rfl

theorem Resorted.candidates_perm (standing : Standing) (nextIndex : UInt64) :
    List.Forall₂ List.Perm (strategy.candidates (standing.moment 0 ""))
      (other.candidates (standing.moment nextIndex "")) := by
  have single {ids others : List String} (perm : ids.Perm others) :
      List.Forall₂ List.Perm (if ids.isEmpty then [] else [ids])
        (if others.isEmpty then [] else [others]) := by
    rw [perm.isEmpty_eq]
    split_ifs with isEmpty
    · exact .nil
    · exact .cons perm .nil
  cases resorted with
  | specificOrder options perm | rating options perm => exact single perm
  | generic options => exact UpstreamStrategy.candidates_perm _ standing 0 nextIndex
  | labelGroup passOnError options perm => exact perm

theorem Resorted.result_eq (request : RequestHolder)
    (standing : Standing) (nextIndex : UInt64) (run : StrategyRun) :
    (other.runSelectUpstream request standing nextIndex run).1 =
      (other.selectFrom request standing run.selectedUpstreams none [] (strategy.startIndex run)
        ((other.candidates (standing.moment nextIndex "")).drop
          (strategy.startIndex run))).result := by
  rw [runSelectUpstream]
  split
  · rename_i none
    rw [none, List.drop_nil]
    cases resorted <;> rfl
  · cases resorted <;> rfl

theorem Resorted.standingVerdict_eq (request : RequestHolder)
    (standing : Standing) (selectedUpstreams : GoSet String) :
    other.standingVerdict request standing selectedUpstreams =
      strategy.standingVerdict request standing selectedUpstreams := by
  funext id
  rw [standingVerdict, standingVerdict, UpstreamStrategy.verdict, UpstreamStrategy.verdict,
    matchers, matchers, resorted.options_eq]

end

def remaining (strategy : UpstreamStrategy) (standing : Standing) (run : StrategyRun) :
    List (List String) :=
  (strategy.candidates (standing.moment 0 "")).drop (strategy.startIndex run)

theorem Marked.start : Marked found selectedUpstreams selectedUpstreams (reasonRank none) where
  kept _ before := before
  throttled _ since before := absurd since before

theorem reasonsCode_reasons (ids : List String) :
    reasonsCode (strategy.reasons request standing selectedUpstreams ids) =
      rankCode (lowestOf (strategy.standingVerdict request standing selectedUpstreams) ids) := by
  rw [reasonsCode, Multiset.map_coe, Multiset.coe_fold_r]
  rfl

section

variable {other : UpstreamStrategy} {run : StrategyRun}

/-- The error of a call that can select nothing, in another order of the candidates. -/
theorem Resorted.exists_error (resorted : Resorted strategy other) (sorts : strategy.Sorts standing)
    (unselectable : ∀ id ∈ (strategy.remaining standing run).flatten,
      strategy.standingVerdict request standing run.selectedUpstreams id ≠ .free)
    (nextIndex : UInt64) :
    ∃ err, (other.runSelectUpstream request standing nextIndex run).1 = .error err ∧
      err.code = rankCode (callRank
        (strategy.standingVerdict request standing run.selectedUpstreams)
        (((other.candidates (standing.moment nextIndex "")).drop (strategy.startIndex run)).map
          (strategy.arrange (standing.moment 0 "")))) := by
  have perm := List.forall₂_drop (strategy.startIndex run)
    (resorted.candidates_perm standing nextIndex)
  have arranges : other.arrange = strategy.arrange := by
    funext moment ids
    rw [arrange, arrange, resorted.options_eq]
  rw [resorted.result_eq]
  generalize (other.candidates (standing.moment nextIndex "")).drop (strategy.startIndex run) =
    tried at perm
  obtain ⟨reason, last, isError, isRank⟩ := exists_error_selectFrom
    (resorted.standingVerdict_eq request standing run.selectedUpstreams).symm tried []
    (strategy.startIndex run) .start (by
      intro group member id inGroup
      rw [arranges] at inGroup
      apply unselectable id
      rw [remaining, (List.Perm.flatten_congr perm).mem_iff]
      exact List.mem_flatten.mpr ⟨group, member, (sorts group).mem_iff.mp inGroup⟩)
  refine ⟨_, isError, ?_⟩
  rw [code_selectionError, isRank, arranges, reasonRank_none,
    min_eq_right (le_callRank_iff.mp (le_refl _)).1]

end

end

section

variable {found : String → Verdict} {rank : ℕ}

/-- A group can be ordered so that a rank below that of the limiters is lost. -/
theorem exists_lt_keptOf (low : rank < 2)
    (higher : (∀ id ∈ group, found id ≠ .overBudget) → rank < lowestOf found group) :
    ∃ tried, group.Perm tried ∧ rank < keptOf found 5 tried := by
  by_cases refused : ∃ id ∈ group, found id = .overBudget
  · obtain ⟨last, member, isRefused⟩ := refused
    obtain ⟨before, after, rfl⟩ := List.append_of_mem member
    refine ⟨(before ++ after) ++ [last], ?_, ?_⟩
    · exact List.perm_middle.trans (List.perm_append_singleton _ _).symm
    · rwa [keptOf_concat isRefused]
  · push Not at refused
    refine ⟨group, .refl _, ?_⟩
    rw [keptOf_of_allowed refused (le_refl 5)]
    exact lt_min (low.trans (by decide)) (higher refused)

theorem exists_lt_keptOf_rotate (low : rank < 2) {ids : List String} (bounded : ids.length < 2 ^ 64)
    (higher : (∀ id ∈ ids, found id ≠ .overBudget) → rank < lowestOf found ids) :
    ∃ nextIndex : UInt64, rank < keptOf found 5
      (ids.drop (nextIndex.toNat % ids.length) ++ ids.take (nextIndex.toNat % ids.length)) := by
  by_cases refused : ∃ id ∈ ids, found id = .overBudget
  · obtain ⟨last, member, isRefused⟩ := refused
    obtain ⟨before, after, rfl⟩ := List.append_of_mem member
    refine ⟨UInt64.ofNat (before.length + 1), ?_⟩
    have isIndex : (UInt64.ofNat (before.length + 1)).toNat = before.length + 1 := by
      rw [UInt64.toNat_ofNat', Nat.mod_eq_of_lt]
      simp at bounded
      omega
    rw [isIndex]
    have split : before ++ last :: after = (before ++ [last]) ++ after := by simp
    cases after with
    | nil =>
      simpa [keptOf_concat isRefused] using low
    | cons next after =>
      rw [Nat.mod_eq_of_lt (by simp), split, List.drop_left' (by simp), List.take_left' (by simp),
        ← List.append_assoc, keptOf_concat isRefused]
      exact low
  · push Not at refused
    refine ⟨0, ?_⟩
    simpa [keptOf_of_allowed refused] using ⟨low.trans (by decide), higher refused⟩

theorem exists_forall_lt_keptOf (low : rank < 2) (groups : List (List String))
    (higher : ∀ group ∈ groups,
      (∀ id ∈ group, found id ≠ .overBudget) → rank < lowestOf found group) :
    ∃ tried, List.Forall₂ List.Perm groups tried ∧
      ∀ group ∈ tried, rank < keptOf found 5 group := by
  induction groups with
  | nil => exact ⟨[], .nil, by simp⟩
  | cons group groups ih =>
    obtain ⟨first, perm, lost⟩ := exists_lt_keptOf low (higher group List.mem_cons_self)
    obtain ⟨tried, perms, all⟩ := ih fun other later => higher other
      (List.mem_cons_of_mem _ later)
    exact ⟨first :: tried, .cons perm perms, List.forall_mem_cons.mpr ⟨lost, all⟩⟩

variable {strategy : UpstreamStrategy} {request : RequestHolder} {standing : Standing}
  {run : StrategyRun} (chooses : ∀ err, strategy ≠ .failing err)
  (bounded : standing.upstreamIds.length < 2 ^ 64)

include chooses bounded

/-- Outside the settled cases some order loses the lowest rank. -/
theorem exists_resorted_lt (low : rank < 2)
    (higher : ∀ group ∈ strategy.remaining standing run,
      (∀ id ∈ group, found id ≠ .overBudget) → rank < lowestOf found group) :
    ∃ other nextIndex, Resorted strategy other ∧
      ∀ group ∈ (other.candidates (standing.moment nextIndex "")).drop (strategy.startIndex run),
        rank < keptOf found 5 group := by
  have only {group tried : List String} {isEmpty : Bool} (lost : rank < keptOf found 5 tried)
      (member : group ∈ if isEmpty then [] else [tried]) : rank < keptOf found 5 group := by
    cases isEmpty with
    | true => cases member
    | false => rwa [List.mem_singleton.mp member]
  have permuted (ids : List String) (listed : ids ≠ [] → ids ∈ strategy.remaining standing run) :
      ∃ tried, ids.Perm tried ∧ ∀ group ∈ if tried.isEmpty then [] else [tried],
        rank < keptOf found 5 group := by
    by_cases isEmpty : ids = []
    · exact ⟨[], .of_eq isEmpty, by simp⟩
    · obtain ⟨tried, perm, lost⟩ := exists_lt_keptOf low (higher ids (listed isEmpty))
      exact ⟨tried, perm, fun group member => only lost member⟩
  cases strategy with
  | failing err => exact absurd rfl (chooses err)
  | specificOrder ids options =>
    obtain ⟨tried, perm, lost⟩ := permuted ids fun some_id => by
      simp [remaining, candidates, some_id, startIndex]
    exact ⟨_, 0, .specificOrder options perm, lost⟩
  | rating ups options =>
    obtain ⟨tried, perm, lost⟩ := permuted ups fun some_id => by
      simp [remaining, candidates, some_id, startIndex]
    exact ⟨_, 0, .rating options perm, lost⟩
  | generic options =>
    by_cases isEmpty : standing.upstreamIds = []
    · exact ⟨_, 0, .generic options, by simp [candidates_generic, isEmpty]⟩
    · obtain ⟨nextIndex, lost⟩ := exists_lt_keptOf_rotate low bounded
        (higher standing.upstreamIds
          (by simp [remaining, candidates_generic, isEmpty, startIndex]))
      exact ⟨_, nextIndex, .generic options, fun group member => only lost member⟩
  | labelGroup groups passOnError options =>
    obtain ⟨tried, perm, lost⟩ := exists_forall_lt_keptOf low _ higher
    let idx := (labelGroup groups passOnError options).startIndex run
    have whole : List.Forall₂ List.Perm groups (groups.take idx ++ tried) := by
      conv_lhs => rw [← List.take_append_drop idx groups]
      exact List.rel_append (List.forall₂_same.mpr fun _ _ => .refl _) perm
    refine ⟨_, 0, .labelGroup passOnError options whole, fun group member => lost group ?_⟩
    have inTried : group ∈ (groups.take idx ++ tried).drop idx := member
    rw [List.drop_append, List.drop_take_self, List.nil_append] at inTried
    exact List.mem_of_mem_drop inTried

theorem exists_resorted_code_ne (unsorted : strategy.options.order standing.sources = none)
    (unselectable : ∀ id ∈ (strategy.remaining standing run).flatten,
      strategy.standingVerdict request standing run.selectedUpstreams id ≠ .free)
    (unsettled : ¬ strategy.Settled request standing run.selectedUpstreams
      (strategy.remaining standing run)) :
    ∃ other nextIndex err, Resorted strategy other ∧
      (other.runSelectUpstream request standing nextIndex run).1 = .error err ∧
      err.code ≠ reasonsCode (strategy.reasons request standing run.selectedUpstreams
        (strategy.remaining standing run).flatten) := by
  have arranges := arrange_of_unsorted unsorted
  obtain ⟨found, isFound⟩ : ∃ found, found =
    strategy.standingVerdict request standing run.selectedUpstreams := ⟨_, rfl⟩
  obtain ⟨low, higher⟩ : lowestOf found (strategy.remaining standing run).flatten < 2 ∧
      ∀ group ∈ strategy.remaining standing run, (∀ id ∈ group, found id ≠ .overBudget) →
        lowestOf found (strategy.remaining standing run).flatten < lowestOf found group := by
    rw [isFound]
    obtain ⟨low, unreached⟩ := not_or.mp unsettled
    refine ⟨not_le.mp low, fun group member allowed => ?_⟩
    exact lt_of_le_of_ne (lowestOf_flatten_le member) fun same =>
      unreached ⟨group, member, allowed, same.symm⟩
  obtain ⟨other, nextIndex, resorted, lost⟩ := exists_resorted_lt chooses bounded low higher
  obtain ⟨err, isError, isCode⟩ := resorted.exists_error
    (fun ids => by rw [arranges]) unselectable nextIndex
  have perm := List.forall₂_drop (strategy.startIndex run)
    (resorted.candidates_perm standing nextIndex)
  refine ⟨other, nextIndex, err, resorted, isError, ?_⟩
  rw [isCode, reasonsCode_reasons, ← isFound, funext arranges, List.map_id']
  generalize (other.candidates (standing.moment nextIndex "")).drop (strategy.startIndex run) =
    tried at perm lost
  -- some budget refuses: without any, the lowest rank would be reached
  have refused : ∃ group ∈ tried, ∃ id ∈ group, found id = .overBudget := by
    by_contra none
    push Not at none
    have allowed : ∀ id ∈ (strategy.remaining standing run).flatten, found id ≠ .overBudget := by
      intro id member
      obtain ⟨group, inTried, inGroup⟩ := List.mem_flatten.mp
        ((List.Perm.flatten_congr perm).mem_iff.mp member)
      exact none group inTried id inGroup
    refine lt_irrefl (lowestOf found (strategy.remaining standing run).flatten)
      (le_lowestOf_iff.mpr ⟨by omega, fun id member => ?_⟩)
    obtain ⟨group, isGroup, inGroup⟩ := List.mem_flatten.mp member
    have isAllowed := fun id inGroup => allowed id (List.mem_flatten.mpr ⟨group, isGroup, inGroup⟩)
    exact (le_lowestOf_iff.mp (higher group isGroup isAllowed)).2 id inGroup
  have above : lowestOf found (strategy.remaining standing run).flatten < callRank found tried :=
    le_callRank_iff.mpr ⟨by omega, lost⟩
  have atMost : callRank found tried ≤ 2 := by
    obtain ⟨group, member, refused⟩ := refused
    exact (callRank_le member).trans (keptOf_le_two (.inr refused))
  -- three ranks are left, with a class each
  have classes : ∀ rank ≤ 2, ∀ lower < rank, rankCode rank ≠ rankCode lower := by decide
  exact classes _ atMost _ above

end

/-- When a call can select nothing, the class of its error is that of the lowest reason
among the candidates, in every order of the candidates, in the settled cases.  In all
other cases there is an order that gives another class, unless the selectors of the
request have set the order. -/
theorem error_class_of_order (strategy : UpstreamStrategy) (request : RequestHolder)
    (standing : Standing) (run : StrategyRun) (chooses : ∀ err, strategy ≠ .failing err)
    (sorts : strategy.Sorts standing)
    (unselectable : ∀ id ∈ (strategy.remaining standing run).flatten,
      strategy.standingVerdict request standing run.selectedUpstreams id ≠ .free) :
    (strategy.Settled request standing run.selectedUpstreams (strategy.remaining standing run) →
      ∀ other nextIndex, Resorted strategy other →
        ∃ err, (other.runSelectUpstream request standing nextIndex run).1 = .error err ∧
          err.code = reasonsCode (strategy.reasons request standing run.selectedUpstreams
            (strategy.remaining standing run).flatten)) ∧
      (strategy.options.order standing.sources = none →
        standing.upstreamIds.length < 2 ^ 64 →
        ¬ strategy.Settled request standing run.selectedUpstreams
          (strategy.remaining standing run) →
        ∃ other nextIndex err, Resorted strategy other ∧
          (other.runSelectUpstream request standing nextIndex run).1 = .error err ∧
          err.code ≠ reasonsCode (strategy.reasons request standing run.selectedUpstreams
            (strategy.remaining standing run).flatten)) := by
  constructor
  · intro settled other nextIndex resorted
    obtain ⟨err, isError, isCode⟩ := resorted.exists_error sorts unselectable nextIndex
    have perm := List.forall₂_drop (strategy.startIndex run)
      (resorted.candidates_perm standing nextIndex)
    refine ⟨err, isError, isCode.trans ?_⟩
    rw [reasonsCode_reasons, callRank_of_settled settled]
    exact List.forall₂_map_right_iff.mpr
      (perm.imp fun _ tried same => same.trans (sorts tried).symm)
  · intro unsorted bounded unsettled
    exact exists_resorted_code_ne chooses bounded unsorted unselectable unsettled

end UpstreamStrategy

namespace TwoUpstreams

def refused : Standing where
  sources := ⟨fun _ => none, fun id =>
    if id = "a" then some { Hedged.state with upstreamMethods := ⟨∅⟩ }
    else if id = "b" then some { Hedged.state with rateLimiterBudget := some 0 }
    else none⟩
  upstreamIds := ["a", "b"]
  budgetAllows := fun _ => false

def unavailable : Standing where
  sources := ⟨fun _ => none, fun id =>
    if id = "a" then some { Hedged.state with upstreamMethods := ⟨∅⟩ }
    else if id = "b" then some { Hedged.state with status := .unavailable }
    else none⟩
  upstreamIds := ["a", "b"]

end TwoUpstreams

/-- Without a refused budget both indexes give the error of the lower reason. -/
theorem error_class_of_two_upstreams :
    ∃ err, ((UpstreamStrategy.generic {}).runSelectUpstream Hedged.request
        TwoUpstreams.unavailable 1 {}).1 = .error err ∧
      err.code = reasonsCode ((UpstreamStrategy.generic {}).reasons Hedged.request
        TwoUpstreams.unavailable ∅ ["a", "b"]) := by
  have verdicts : ∀ id ∈ ["a", "b"], ∃ matched,
      (UpstreamStrategy.generic {}).standingVerdict Hedged.request TwoUpstreams.unavailable ∅ id =
        .rejected matched := by
    intro id member
    rcases List.mem_pair.mp member with rfl | rfl
    · exact ⟨_, rfl⟩
    · exact ⟨_, rfl⟩
  refine (UpstreamStrategy.error_class_of_order (.generic {}) Hedged.request
    TwoUpstreams.unavailable {} (by simp) (fun _ => .refl _) ?_).1 ?_ _ 1 (.generic {})
  · intro id member
    obtain ⟨matched, rejected⟩ := verdicts id member
    rw [rejected]
    simp
  · refine .inr ⟨["a", "b"], List.mem_singleton_self _, ?_, rfl⟩
    intro id member isRefused
    obtain ⟨matched, rejected⟩ := verdicts id member
    exact Verdict.noConfusion (rejected.symm.trans isRefused)

/-- The next index decides between the two errors. -/
theorem round_robin_changes_error :
    ((UpstreamStrategy.generic {}).runSelectUpstream Hedged.request TwoUpstreams.refused 0
        {}).1 = .error .rateLimitError ∧
      ((UpstreamStrategy.generic {}).runSelectUpstream Hedged.request TwoUpstreams.refused 1
        {}).1 = .error (.notSupportedMethodError "eth_call") :=
  ⟨rfl, rfl⟩

end Nodecore.Flow
