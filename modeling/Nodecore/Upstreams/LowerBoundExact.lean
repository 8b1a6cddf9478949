/-
# What the searches for a lower bound find

The plain search halves its window at every probe, so it needs answers that are
monotone: data from some height on and none below.  The search with an offset scans
downwards from an empty middle, and needs less: the runs of missing blocks above
the bound are no longer than the offset.

All scans of one search share a set of blocks found empty, and a scan that meets such
a block gives up.  This does no harm: the blocks that a scan left behind are above
the window if the scan found data, and otherwise the middle was below the bound.

Whatever is answered, both searches end, over 64-bit heights unless the latest height
is the largest one.
-/

import Nodecore.Upstreams.LowerBoundInt64

namespace Nodecore.Upstreams

open Lib Protocol

namespace LowerBoundSearchCalculator

variable (c : LowerBoundSearchCalculator)

variable {cached : ℤ}

section Plain

variable {threshold latest : ℤ} {hasData : HasData}

/-- Data from the threshold on, up to the latest block. -/
def Monotone (threshold latest : ℤ) (hasData : HasData) : Prop :=
  ∀ clock height, 0 ≤ height → height ≤ latest →
    ((hasData clock height).1 = true ↔ threshold ≤ height)

section

variable (monotone : Monotone threshold latest hasData)
include monotone

theorem closing_probeMiddle {search : Search} (closing : Closing threshold latest search.range)
    (isOpen : search.range.left ≤ search.range.right) :
    Closing threshold latest (probeMiddle hasData search).range := by
  obtain ⟨nonneg, inside⟩ := closing.middle_mem isOpen
  have answer := monotone search.clock search.range.middle nonneg
    (inside.trans closing.right_le)
  rw [probeMiddle]
  split
  · rename_i asked
    exact closing.below isOpen (answer.mp (by rw [asked])) (Int.le_refl _)
  · rename_i asked
    apply closing.moveRight isOpen
    rw [← not_le, ← answer, asked]
    simp

/-- The plain search finds the threshold, or the first block if there is data from
the genesis on. -/
theorem search_narrowPlain (positive : 1 ≤ latest) (reached : threshold ≤ latest)
    (low : cached ≤ max threshold 0) (clock : ℕ) :
    c.search (narrowPlain hasData) cached latest clock = .ok (max threshold 1) := by
  -- No block is below the genesis, so a threshold below it is as good as the genesis.
  have floored : Monotone (max threshold 0) latest hasData := by
    intro clock height nonneg under
    rw [monotone clock height nonneg under]
    omega
  have first : max threshold 1 = max (max threshold 0) 1 := by omega
  rw [first]
  apply c.search_closes (narrowPlain hasData) (by omega) (by omega) _ low clock (fun _ => True)
    trivial
  · intro search closing _ isOpen
    exact ⟨closing_probeMiddle floored closing isOpen, trivial⟩
  · intro clock
    rw [floored clock _ (by omega) (by omega)]
    omega

theorem detectPlain_eq (positive : 1 ≤ latest) (reached : threshold ≤ latest)
    (low : cached ≤ max threshold 1) :
    c.detectPlain cached latest hasData = .ok (max threshold 1) := by
  rw [detectPlain, confirmOrSearch]
  split
  · rename_i positiveCached
    have confirms := monotone 0 cached (by omega) (by omega)
    split
    · rename_i asked
      rw [asked] at confirms
      have above := confirms.mp rfl
      exact congrArg Except.ok (by omega)
    · rename_i asked
      rw [asked] at confirms
      have under : ¬ threshold ≤ cached := fun above => by simpa using confirms.mpr above
      exact c.search_narrowPlain monotone positive reached (by omega) _
  · exact c.search_narrowPlain monotone positive reached (by omega) _

end

/-- A detection at a node that answers every probe, with data from the threshold of the
cycle on. -/
structure Answered (cycle : Cycle) : Prop where
  fetched : c.withRetryLatestHeight cycle.source = .ok cycle.latest
  positive : 1 ≤ cycle.latest
  reached : cycle.threshold ≤ cycle.latest
  monotone : Monotone cycle.threshold cycle.latest (c.hasData cycle.source)

def Reports (c : LowerBoundSearchCalculator) (cycle : Cycle) : Prop :=
  c.detectLowerBound cycle.source cycle.now =
    (.ok (c.lowerBoundResults (max cycle.threshold 1) cycle.now),
      { c with lastBound := max cycle.threshold 1 })

variable {c} in
theorem Answered.reports {cycle : Cycle} (answered : c.Answered cycle) (plain : c.maxOffset ≤ 0)
    (low : c.lastBound ≤ max cycle.threshold 1) : c.Reports cycle := by
  have detected : c.detectBound cycle.latest (c.hasData cycle.source) =
      .ok (max cycle.threshold 1) := by
    rw [detectBound, if_neg (by omega)]
    exact c.detectPlain_eq answered.monotone answered.positive answered.reached low
  have positive := answered.positive
  rw [Reports, c.detectLowerBound_of_fetched cycle.now answered.fetched (by omega), detected]

/-- While the threshold only moves up, every detection reports that of its own cycle. -/
theorem eachStep_reports {c : LowerBoundSearchCalculator} {cycles : List Cycle}
    (plain : c.maxOffset ≤ 0) (answered : ∀ cycle ∈ cycles, c.Answered cycle)
    (rising : cycles.Pairwise fun earlier later => earlier.threshold ≤ later.threshold)
    (low : ∀ cycle ∈ cycles, c.lastBound ≤ max cycle.threshold 1) :
    EachStep detect Reports c cycles := by
  induction cycles generalizing c with
  | nil => trivial
  | cons cycle cycles ih =>
    have reports := (answered cycle List.mem_cons_self).reports plain (low cycle List.mem_cons_self)
    have next : c.detect cycle = { c with lastBound := max cycle.threshold 1 } :=
      congrArg Prod.snd reports
    refine ⟨reports, ?_⟩
    rw [next]
    apply ih
    · exact plain
    · intro later listed
      -- the retries are those of the calculator before the detection
      have same := answered later (List.mem_cons_of_mem cycle listed)
      exact { same with }
    · exact (List.pairwise_cons.mp rising).2
    · intro later listed
      have risen := (List.pairwise_cons.mp rising).1 later listed
      change max cycle.threshold 1 ≤ max later.threshold 1
      omega

/-- The plain detection ends, and at a node with data exactly from a threshold on it returns
the threshold, or the first block if the genesis has data; cached may be any bound that is not
above that.  Detection after detection, the threshold moving up, each returns the current one. -/
theorem detectPlain_returns_threshold :
    (∀ (cached latest : ℤ) (hasData : HasData),
      c.confirmOrSearchFor (latest.toNat + 3) hasData (probeMiddle hasData) cached latest =
          some (c.detectPlain cached latest hasData) ∧
        ∀ threshold, 1 ≤ latest → threshold ≤ latest → Monotone threshold latest hasData →
          cached ≤ max threshold 1 →
            c.detectPlain cached latest hasData = .ok (max threshold 1)) ∧
      ∀ cycles : List Cycle, c.maxOffset ≤ 0 → (∀ cycle ∈ cycles, c.Answered cycle) →
        (cycles.Pairwise fun earlier later => earlier.threshold ≤ later.threshold) →
        (∀ cycle ∈ cycles, c.lastBound ≤ max cycle.threshold 1) →
          EachStep detect Reports c cycles := by
  refine ⟨?_, fun cycles => eachStep_reports⟩
  intro cached latest hasData
  refine ⟨c.confirmOrSearchFor_eq_some (narrowPlain hasData) cached latest, ?_⟩
  intro threshold positive reached monotone low
  exact c.detectPlain_eq monotone positive reached low

def answering (threshold : ℤ) : Cycle where
  source := ⟨fun _ => .ok 20, fun _ height => .ok (decide (threshold ≤ height)), once ℤ, once Bool⟩
  now := 0
  threshold := threshold
  latest := 20

theorem answered_answering {threshold : ℤ} (reached : threshold ≤ 20) :
    fresh.Answered (answering threshold) where
  fetched := rfl
  positive := by simp [answering]
  reached := reached
  monotone clock height _ _ := by
    change decide (threshold ≤ height) = true ↔ _
    exact decide_eq_true_iff

/-- From the genesis on, then pruned up to block twelve. -/
theorem detectPlain_of_answering :
    EachStep detect Reports fresh [answering 0, answering 12] ∧
      fresh.detectPlain 1 20 (fresh.hasData (answering 12).source) = .ok 12 := by
  refine ⟨fresh.detectPlain_returns_threshold.2 _ (by decide) ?_ (by decide) (by decide), ?_⟩
  · intro cycle listed
    simp only [List.mem_cons, List.not_mem_nil, or_false] at listed
    rcases listed with rfl | rfl
    all_goals exact answered_answering (by decide)
  · exact (fresh.detectPlain_returns_threshold.1 1 20 _).2 12 (by decide) (by decide)
      (answered_answering (by decide)).monotone (by decide)

end Plain

section Offset

variable {bound latest : ℤ} {hasData : HasData}

def Missing (data : ℤ → Bool) (low high : ℤ) : Prop :=
  ∀ height, low ≤ height → height ≤ high → data height = false

/-- The bound is the lowest block with data, and above it at most `maxOffset` blocks are
missing in a row. -/
structure Gapped (maxOffset bound latest : ℤ) (hasData : HasData) (data : ℤ → Bool) : Prop where
  positive : 1 ≤ bound
  reached : bound ≤ latest
  answers : ∀ clock height, 0 ≤ height → height ≤ latest → (hasData clock height).1 = data height
  lowest : data bound = true
  below : ∀ height, 0 ≤ height → height < bound → data height = false
  runs : ∀ low high, bound ≤ low → low ≤ high → high ≤ latest → Missing data low high →
    high - low + 1 ≤ maxOffset

/-- The blocks found empty are below the bound or above the window. -/
def Outside (bound : ℤ) (search : Search) : Prop :=
  ∀ block ∈ search.visited, block < bound ∨ search.range.right < block

variable {maxOffset : ℤ} {data : ℤ → Bool}

theorem Gapped.le_of_data (gapped : Gapped maxOffset bound latest hasData data) {height : ℤ}
    (nonneg : 0 ≤ height) (available : data height = true) : bound ≤ height := by
  by_contra under
  rw [gapped.below height nonneg (by omega)] at available
  cases available

theorem Missing.cons {block high : ℤ} (here : data block = false)
    (missing : Missing data (block + 1) high) : Missing data block high := by
  intro height above under
  rcases above.eq_or_lt with rfl | above
  · exact here
  · exact missing height above under

section

variable (gapped : Gapped maxOffset bound latest hasData data)
include gapped

/-- Blocks that are missing from the bound or below up to a middle: the middle is below the
bound. -/
theorem Gapped.lt_of_missing {low middle : ℤ} (under : low ≤ bound)
    (missing : Missing data low middle) : middle < bound := by
  by_contra above
  have absent := missing bound under (by omega)
  rw [gapped.lowest] at absent
  cases absent

/-- A scan that starts below an empty middle moves the window right only if the bound is
there, and leaves no block of the new window behind. -/
theorem Gapped.closing_shiftLeftFrom {range : BoundRange} (closing : Closing bound latest range)
    (isOpen : range.left ≤ range.right) (rest : ℕ) (block : ℤ) (visited : List ℤ) (clock : ℕ)
    (under : block < range.middle) (missing : Missing data (block + 1) range.middle)
    (budget : range.middle - 1 - block + rest = maxOffset.toNat)
    (outside : ∀ other ∈ visited,
      other < bound ∨ range.right < other ∨ (block < other ∧ other < range.middle)) :
    Closing bound latest
        (shiftLeftFrom hasData range range.moveRight rest block visited clock).range ∧
      Outside bound (shiftLeftFrom hasData range range.moveRight rest block visited clock) := by
  obtain ⟨nonneg, inside⟩ := closing.middle_mem isOpen
  have positive := gapped.positive
  have right_le := closing.right_le
  -- Giving up is right if the middle is below the bound; so are the blocks of this scan then.
  have givesUp : ∀ (block : ℤ) (visited : List ℤ) (clock : ℕ), (∀ other ∈ visited,
      other < bound ∨ range.right < other ∨ (block < other ∧ other < range.middle)) →
      range.middle < bound → Closing bound latest range.moveRight ∧
        Outside bound { range := range.moveRight, visited := visited, clock := clock } := by
    intro block visited clock outside low
    refine ⟨closing.moveRight isOpen low, ?_⟩
    intro other listed
    rcases outside other listed with early | above | between
    · exact .inl early
    · exact .inr above
    · exact .inl (by omega)
  fun_induction shiftLeftFrom hasData range range.moveRight rest block visited clock with
  | case1 rest block visited clock stops =>
    apply givesUp block visited clock outside
    rcases stops with seen | negative
    · -- A block seen before is below the bound: those above it belong to this very scan.
      have early : block < bound := by
        rcases outside block seen with early | above | between <;> omega
      exact gapped.lt_of_missing early missing
    · exact gapped.lt_of_missing (by omega) missing
  | case2 rest block visited clock going next asked =>
    have here := gapped.answers clock block (by omega) (by omega)
    rw [asked] at here
    refine ⟨closing.below isOpen (gapped.le_of_data (by omega) here.symm) (by omega), ?_⟩
    intro other listed
    simp only [BoundRange.below]
    rcases outside other listed with early | above | between
    · exact .inl early
    · exact .inr (by omega)
    · exact .inr (by omega)
  | case3 block visited clock going next asked =>
    have here := gapped.answers clock block (by omega) (by omega)
    rw [asked] at here
    apply givesUp block visited next outside
    -- The blocks of the scan are too many to be a run above the bound.
    have missing := missing.cons here.symm
    by_cases above : bound ≤ block
    · have short := gapped.runs block range.middle above (by omega) (by omega) missing
      omega
    · exact gapped.lt_of_missing (by omega) missing
  | case4 block visited clock going next asked rest ih =>
    have here := gapped.answers clock block (by omega) (by omega)
    rw [asked] at here
    apply ih
    · omega
    · rw [Int.sub_add_cancel]
      exact missing.cons here.symm
    · omega
    · intro other listed
      rcases List.mem_cons.mp listed with rfl | listed
      · exact .inr (.inr ⟨by omega, under⟩)
      · rcases outside other listed with early | above | between
        · exact .inl early
        · exact .inr (.inl above)
        · exact .inr (.inr ⟨by omega, between.2⟩)

theorem Gapped.closing_probeMiddleWithOffset {search : Search}
    (closing : Closing bound latest search.range) (outside : Outside bound search)
    (isOpen : search.range.left ≤ search.range.right) :
    Closing bound latest (probeMiddleWithOffset maxOffset hasData search).range ∧
      Outside bound (probeMiddleWithOffset maxOffset hasData search) := by
  obtain ⟨nonneg, inside⟩ := closing.middle_mem isOpen
  have here := gapped.answers search.clock search.range.middle nonneg
    (inside.trans closing.right_le)
  rw [probeMiddleWithOffset]
  split
  · rename_i asked
    rw [asked] at here
    refine ⟨closing.below isOpen (gapped.le_of_data nonneg here.symm) (Int.le_refl _), ?_⟩
    intro other listed
    simp only [BoundRange.below]
    rcases outside other listed with early | above
    · exact .inl early
    · exact .inr (by omega)
  · rename_i asked
    rw [asked] at here
    rw [if_neg (by omega)]
    apply gapped.closing_shiftLeftFrom closing isOpen
    · omega
    · intro height above under
      rw [show height = search.range.middle by omega]
      exact here.symm
    · omega
    · intro other listed
      rcases outside other listed with early | above
      · exact .inl early
      · exact .inr (.inl above)

/-- With no more than `maxOffset` blocks missing in a row above the bound, the search finds
the bound, from any cached bound that is not above it. -/
theorem Gapped.search_narrowWithOffset (low : cached ≤ bound) (clock : ℕ) :
    c.search (narrowWithOffset maxOffset hasData) cached latest clock = .ok bound := by
  have positive := gapped.positive
  have reached := gapped.reached
  have first : max bound 1 = bound := max_eq_left positive
  rw [← first]
  apply c.search_closes (narrowWithOffset maxOffset hasData) (by omega) (by omega) _ low clock
    (Outside bound)
  · intro other listed
    cases listed
  · intro search closing outside isOpen
    exact gapped.closing_probeMiddleWithOffset closing outside isOpen
  · intro clock
    rw [first, gapped.answers clock bound (by omega) reached, gapped.lowest]

end

theorem Gapped.detectWithOffset_eq (gapped : Gapped c.maxOffset bound latest hasData data)
    (low : cached ≤ bound) : c.detectWithOffset cached latest hasData = .ok bound := by
  rw [detectWithOffset, confirmOrSearch]
  split
  · rename_i positive
    have reached := gapped.reached
    have here := gapped.answers 0 cached (by omega) (by omega)
    split
    · rename_i asked
      rw [asked] at here
      have above := gapped.le_of_data (by omega) here.symm
      exact congrArg Except.ok (by omega)
    · exact gapped.search_narrowWithOffset c low _
  · exact gapped.search_narrowWithOffset c low _

theorem shiftLeftFrom_eq_or (hasData : HasData) (range first second : BoundRange) (rest : ℕ)
    (block : ℤ) (visited : List ℤ) (clock : ℕ) :
    shiftLeftFrom hasData range first rest block visited clock =
        shiftLeftFrom hasData range second rest block visited clock ∨
      (shiftLeftFrom hasData range first rest block visited clock).range = first := by
  fun_induction shiftLeftFrom hasData range first rest block visited clock with
  | case1 | case3 => exact .inr rfl
  | case2 rest block visited clock going next asked =>
    rw [shiftLeftFrom, if_neg going, asked]
    exact .inl rfl
  | case4 block visited clock going next asked rest ih =>
    have goesOn : shiftLeftFrom hasData range second (rest + 1) block visited clock =
        shiftLeftFrom hasData range second rest (block - 1) (block :: visited) next := by
      rw [shiftLeftFrom, if_neg going, asked]
    rw [goesOn]
    exact ih

/-- Where the bound is in the window, a round wraps nothing: a scan from the largest height
does not give up. -/
theorem Gapped.probeMiddleWithOffset64_eq (gapped : Gapped maxOffset bound latest hasData data)
    (fits : latest < 2 ^ 63) {search : Search} (closing : Closing bound latest search.range)
    (outside : Outside bound search) (isOpen : search.range.left ≤ search.range.right) :
    probeMiddleWithOffset64 maxOffset hasData search =
      probeMiddleWithOffset maxOffset hasData search := by
  have right_le := closing.right_le
  have reached := gapped.reached
  obtain ⟨nonneg, inside⟩ := closing.middle_mem isOpen
  have kept := (gapped.closing_probeMiddleWithOffset closing outside isOpen).1.low
  rw [probeMiddleWithOffset] at kept
  rw [probeMiddleWithOffset64, search.range.below64_middle64 closing.nonneg isOpen (by omega),
    search.range.middle64_eq closing.nonneg isOpen (by omega), probeMiddleWithOffset]
  have natural : ¬ search.range.middle < 0 := by omega
  rcases asked : hasData search.clock search.range.middle with ⟨_ | _, clock⟩
  · simp only [asked, if_neg natural, shiftLeftAndSearch] at kept ⊢
    rcases shiftLeftFrom_eq_or hasData search.range search.range.moveRight
      search.range.moveRight64 maxOffset.toNat (search.range.middle - 1) search.visited clock
      with same | gaveUp
    · exact same.symm
    · rw [gaveUp] at kept
      simp only [BoundRange.moveRight] at kept
      rw [search.range.moveRight64_eq closing.nonneg isOpen (by omega) (by omega)]
  · rfl

theorem Gapped.detectWithOffset64_eq (gapped : Gapped c.maxOffset bound latest hasData data)
    (fits : latest < 2 ^ 63) (low : cached ≤ bound) :
    c.detectWithOffset64 (latest.toNat + 3) cached latest hasData = some (.ok bound) := by
  have positive := gapped.positive
  rw [← gapped.detectWithOffset_eq c low, detectWithOffset, ← c.confirmOrSearchFor_eq_some]
  refine c.confirmOrSearchFor_congr
    (fun search => Closing bound latest search.range ∧ Outside bound search) ?_ ?_ ?_ _
  · intro clock
    exact ⟨closing_initialRange (by omega) low, fun other listed => by cases listed⟩
  · rintro search ⟨closing, outside⟩ isOpen
    exact gapped.probeMiddleWithOffset64_eq fits closing outside isOpen
  · rintro search ⟨closing, outside⟩ isOpen
    exact gapped.closing_probeMiddleWithOffset closing outside isOpen

/-- The detection with an offset ends whatever the probes answer exactly if the latest height
is not the largest there is.  If at most `maxOffset` blocks are missing in a row above the
lowest block with data, it returns that block. -/
theorem detectWithOffset_returns_lowest (cached latest : Int64) :
    ((∀ hasData, ∃ rounds,
        (c.detectWithOffset64 rounds cached.toInt latest.toInt hasData).isSome) ↔
      latest ≠ Int64.maxValue) ∧
    ∀ hasData bound data, Gapped c.maxOffset bound latest.toInt hasData data →
      cached.toInt ≤ bound →
        c.detectWithOffset64 (latest.toInt.toNat + 3) cached.toInt latest.toInt hasData =
          some (.ok bound) := by
  have cachedFits := cached.toInt_lt
  have latestFits := latest.toInt_lt
  refine ⟨⟨?_, ?_⟩, fun hasData bound data gapped low =>
    gapped.detectWithOffset64_eq c latestFits low⟩
  · rintro ends rfl
    obtain ⟨rounds, left⟩ := ends fun clock _ => (false, clock + 1)
    rw [Int64.toInt_maxValue, c.detectWithOffset64_eq_none cachedFits (fun _ _ => rfl)] at left
    cases left
  · intro other hasData
    have small : latest.toInt < 2 ^ 63 - 1 := by
      have differ : latest.toInt ≠ 2 ^ 63 - 1 := fun same =>
        other (Int64.toInt_inj.mp (same.trans Int64.toInt_maxValue.symm))
      omega
    exact ⟨_, by rw [c.detectWithOffset64_eq small]; rfl⟩

def twoMissing (height : ℤ) : Bool := decide (5 ≤ height ∧ height ≠ 10 ∧ height ≠ 11)

theorem gapped_twoMissing :
    Gapped 2 5 20 (fun clock height => (twoMissing height, clock + 1)) twoMissing where
  positive := by decide
  reached := by decide
  answers _ _ _ _ := rfl
  lowest := by decide
  below height _ under := by
    simp only [twoMissing, decide_eq_false_iff_not]
    omega
  runs low high above ordered _ missing := by
    have first := missing low (Int.le_refl _) ordered
    have last := missing high ordered (Int.le_refl _)
    simp only [twoMissing, decide_eq_false_iff_not] at first last
    omega

/-- The first middle is one of the missing blocks. -/
theorem detectWithOffset_of_twoMissing :
    { fresh with maxOffset := 2 }.detectWithOffset64 23 3 20
      (fun clock height => (twoMissing height, clock + 1)) = some (.ok 5) :=
  ({ fresh with maxOffset := 2 }.detectWithOffset_returns_lowest 3 20).2 _ 5 twoMissing
    gapped_twoMissing (by decide)

/-- At the largest height a search that finds no data goes round for ever. -/
theorem detectWithOffset_never_ends :
    ¬ ∃ rounds, ({ fresh with maxOffset := 2 }.detectWithOffset64 rounds 0 (2 ^ 63 - 1)
      fun clock _ => (false, clock + 1)).isSome := by
  rintro ⟨rounds, ends⟩
  rw [detectWithOffset64_eq_none _ (by decide) fun _ _ => rfl] at ends
  cases ends

end Offset

end LowerBoundSearchCalculator

end Nodecore.Upstreams
