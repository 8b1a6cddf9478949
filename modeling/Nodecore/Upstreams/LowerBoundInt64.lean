/-
# The search for a lower bound over 64-bit heights

The code computes with `int64`, where sums wrap.  As long as the window stays below
the largest height no sum does, and the search is the one over integers.  A window
that ends at the largest height is never crossed, since nothing is above its end.
-/

import Nodecore.Upstreams.LowerBoundSearch

namespace Nodecore.Upstreams

open Lib Protocol

/-- A sum of `int64`. -/
def wrap (n : ℤ) : ℤ := n.bmod (2 ^ 64)

theorem wrap_of_fits {n : ℤ} (low : -2 ^ 63 ≤ n) (high : n < 2 ^ 63) : wrap n = n :=
  Int.bmod_eq_of_le (by omega) (by omega)

theorem wrap_lt (n : ℤ) : wrap n < 2 ^ 63 := by
  have below := Int.bmod_lt (x := n) (m := 2 ^ 64) (by decide)
  rw [wrap]
  omega

namespace BoundRange

def middle64 (range : BoundRange) : ℤ :=
  wrap (range.left + (wrap (range.right - range.left)).tdiv 2)

def below64 (range : BoundRange) (block : ℤ) : BoundRange :=
  { left := range.left, right := wrap (block - 1), current := block }

def moveRight64 (range : BoundRange) : BoundRange :=
  { left := wrap (range.middle64 + 1), right := range.right, current := range.current }

section

variable {range : BoundRange} (nonneg : 0 ≤ range.left) (isOpen : range.left ≤ range.right)
  (fits : range.right < 2 ^ 63)
include nonneg isOpen fits

theorem middle64_eq : range.middle64 = range.middle := by
  have width : wrap (range.right - range.left) = range.right - range.left :=
    wrap_of_fits (by omega) (by omega)
  rw [middle64, width, Int.tdiv_eq_ediv_of_nonneg (by omega), middle, wrap_of_fits]
  · omega
  · omega

theorem below64_middle64 : range.below64 range.middle64 = range.below range.middle := by
  rw [middle64_eq nonneg isOpen fits, below64, below, wrap_of_fits]
  · rw [middle]
    omega
  · rw [middle]
    omega

theorem moveRight64_eq (room : range.middle + 1 < 2 ^ 63) : range.moveRight64 = range.moveRight := by
  rw [moveRight64, middle64_eq nonneg isOpen fits, moveRight, wrap_of_fits _ room]
  rw [middle]
  omega

end

end BoundRange

def probeMiddle64 (hasData : HasData) (search : Search) : Search :=
  match hasData search.clock search.range.middle64 with
  | (true, clock) => { search with range := search.range.below64 search.range.middle64, clock }
  | (false, clock) => { search with range := search.range.moveRight64, clock }

/-- The rounds of `detectWithOffset`.  The scan below a middle that is not negative does not
wrap. -/
def probeMiddleWithOffset64 (maxOffset : ℤ) (hasData : HasData) (search : Search) : Search :=
  match hasData search.clock search.range.middle64 with
  | (true, clock) => { search with range := search.range.below64 search.range.middle64, clock }
  | (false, clock) =>
    if search.range.middle64 < 0 then { search with range := search.range.moveRight64, clock }
    else
      shiftLeftAndSearch maxOffset hasData search.range search.range.moveRight64
        search.range.middle64 search.visited clock

section

variable {search : Search} (nonneg : 0 ≤ search.range.left)
  (isOpen : search.range.left ≤ search.range.right) (fits : search.range.right < 2 ^ 63)
  (hasData : HasData)
include nonneg isOpen fits

theorem probeMiddle64_eq (room : search.range.middle + 1 < 2 ^ 63) :
    probeMiddle64 hasData search = probeMiddle hasData search := by
  rewrite [probeMiddle64, search.range.below64_middle64 nonneg isOpen fits,
    search.range.middle64_eq nonneg isOpen fits, search.range.moveRight64_eq nonneg isOpen fits room,
    probeMiddle]
  rfl

theorem probeMiddleWithOffset64_eq (maxOffset : ℤ) (room : search.range.middle + 1 < 2 ^ 63) :
    probeMiddleWithOffset64 maxOffset hasData search =
      probeMiddleWithOffset maxOffset hasData search := by
  rewrite [probeMiddleWithOffset64, search.range.below64_middle64 nonneg isOpen fits,
    search.range.middle64_eq nonneg isOpen fits, search.range.moveRight64_eq nonneg isOpen fits room,
    probeMiddleWithOffset]
  rfl

end

theorem range_shiftLeftFrom_of_missing {hasData : HasData} {range moveRight : BoundRange}
    (missing : ∀ clock height, (hasData clock height).1 = false) (rest : ℕ) (block : ℤ)
    (visited : List ℤ) (clock : ℕ) :
    (shiftLeftFrom hasData range moveRight rest block visited clock).range = moveRight := by
  fun_induction shiftLeftFrom hasData range moveRight rest block visited clock with
  | case1 | case3 => rfl
  | case2 rest block visited clock going next asked =>
    have unavailable := missing clock block
    rw [asked] at unavailable
    cases unavailable
  | case4 block visited clock going next asked rest ih => exact ih

namespace LowerBoundSearchCalculator

variable (c : LowerBoundSearchCalculator)

/-- A detection whose loop is cut off after some rounds. -/
def confirmOrSearchFor (rounds : ℕ) (hasData : HasData) (narrow : Search → Search)
    (cached latest : ℤ) : Option (Except String ℤ) :=
  let search clock :=
    runFor (c.searchRound hasData narrow) rounds { range := initialRange cached latest, clock }
  if 0 < cached then
    match hasData 0 cached with
    | (true, _) => some (.ok cached)
    | (false, clock) => search clock
  else search 0

def detectPlain64 (rounds : ℕ) (cached latest : ℤ) (hasData : HasData) :
    Option (Except String ℤ) :=
  c.confirmOrSearchFor rounds hasData (probeMiddle64 hasData) cached latest

def detectWithOffset64 (rounds : ℕ) (cached latest : ℤ) (hasData : HasData) :
    Option (Except String ℤ) :=
  c.confirmOrSearchFor rounds hasData (probeMiddleWithOffset64 c.maxOffset hasData) cached latest

def detectBound64 (rounds : ℕ) (latest : ℤ) (hasData : HasData) : Option (Except String ℤ) :=
  if 0 < c.maxOffset then c.detectWithOffset64 rounds c.lastBound latest hasData
  else c.detectPlain64 rounds c.lastBound latest hasData

theorem width_initialRange_lt (cached latest : ℤ) :
    (initialRange cached latest).width < latest.toNat + 3 := by
  simp only [BoundRange.width, initialRange, Bool.false_eq_true, if_false]
  split <;> omega

theorem confirmOrSearchFor_eq_some {hasData : HasData} (narrowing : Narrowing hasData)
    (cached latest : ℤ) :
    c.confirmOrSearchFor (latest.toNat + 3) hasData narrowing.apply cached latest =
      some (c.confirmOrSearch narrowing cached latest) := by
  have leaves : ∀ clock, runFor (c.searchRound hasData narrowing.apply) (latest.toNat + 3)
      { range := initialRange cached latest, clock } =
        some (c.search narrowing cached latest clock) := by
    intro clock
    exact (c.searchLoop narrowing).runFor_eq_some_run (width_initialRange_lt cached latest)
  simp only [confirmOrSearchFor, confirmOrSearch, leaves]
  rcases hasData 0 cached with ⟨confirmed, clock⟩
  split
  · cases confirmed <;> rfl
  · rfl

variable {cached latest : ℤ} {hasData : HasData}

/-- Two ways of narrowing that do the same wherever an invariant of the second leads. -/
theorem confirmOrSearchFor_congr {narrow other : Search → Search} (inv : Search → Prop)
    (initial : ∀ clock, inv { range := initialRange cached latest, clock })
    (same : ∀ search, inv search → search.range.left ≤ search.range.right →
      narrow search = other search)
    (preserved : ∀ search, inv search → search.range.left ≤ search.range.right →
      inv (other search)) (rounds : ℕ) :
    c.confirmOrSearchFor rounds hasData narrow cached latest =
      c.confirmOrSearchFor rounds hasData other cached latest := by
  have agree : ∀ clock, runFor (c.searchRound hasData narrow) rounds
      { range := initialRange cached latest, clock } =
        runFor (c.searchRound hasData other) rounds
          { range := initialRange cached latest, clock } := by
    intro clock
    -- A window that has converged is left alone.
    refine runFor_congr (fun search => search.range.found = false → inv search) ?_ ?_
      (fun _ => initial clock) rounds
    · intro search kept
      rw [searchRound, searchRound]
      split
      · rfl
      · rename_i searching
        split
        · rfl
        · rename_i isOpen
          rw [same search (kept (by simpa using searching)) (by omega)]
    · intro search next kept round searching
      obtain ⟨before, ⟨_, clock, converged⟩ | ⟨isOpen, rfl⟩⟩ := c.searchRound_inl round
      · rw [(c.converge_ok converged).1] at searching
        cases searching
      · exact preserved search (kept before) isOpen
  simp only [confirmOrSearchFor, agree]

theorem confirmOrSearchFor_of_lt {narrow : Search → Search} (narrowing : Narrowing hasData)
    (small : latest < 2 ^ 63 - 1)
    (same : ∀ search, 0 ≤ search.range.left → search.range.left ≤ search.range.right →
      search.range.right < 2 ^ 63 → search.range.middle + 1 < 2 ^ 63 →
        narrow search = narrowing.apply search) :
    c.confirmOrSearchFor (latest.toNat + 3) hasData narrow cached latest =
      some (c.confirmOrSearch narrowing cached latest) := by
  rw [← c.confirmOrSearchFor_eq_some]
  refine c.confirmOrSearchFor_congr
    (fun search => 0 ≤ search.range.left ∧ search.range.right ≤ latest) ?_ ?_ ?_ _
  · intro clock
    simp only [initialRange]
    split <;> omega
  · rintro search ⟨nonneg, inside⟩ isOpen
    exact same search nonneg isOpen (by omega) (by rw [BoundRange.middle]; omega)
  · rintro search ⟨nonneg, inside⟩ isOpen
    have step := narrowing.narrows search
    generalize (narrowing.apply search).range = narrowed at step ⊢
    cases step with
    | below available low =>
      simp only [BoundRange.middle] at low
      simp only [BoundRange.below]
      omega
    | moveRight missing =>
      simp only [BoundRange.moveRight, BoundRange.middle]
      omega

theorem detectWithOffset64_eq (small : latest < 2 ^ 63 - 1) :
    c.detectWithOffset64 (latest.toNat + 3) cached latest hasData =
      some (c.detectWithOffset cached latest hasData) :=
  c.confirmOrSearchFor_of_lt (narrowWithOffset c.maxOffset hasData) small
    fun _ nonneg isOpen fits room =>
      probeMiddleWithOffset64_eq nonneg isOpen fits hasData c.maxOffset room

theorem detectBound64_eq (small : latest < 2 ^ 63 - 1) :
    c.detectBound64 (latest.toNat + 3) latest hasData = some (c.detectBound latest hasData) := by
  rw [detectBound64, detectBound]
  split
  · exact c.detectWithOffset64_eq small
  · exact c.confirmOrSearchFor_of_lt (narrowPlain hasData) small fun _ nonneg isOpen fits room =>
      probeMiddle64_eq nonneg isOpen fits hasData room

/-- Nothing is above the largest height: while no probe finds data, a window that ends there
stays open. -/
theorem detectWithOffset64_eq_none (fits : cached < 2 ^ 63)
    (missing : ∀ clock height, (hasData clock height).1 = false) (rounds : ℕ) :
    c.detectWithOffset64 rounds cached (2 ^ 63 - 1) hasData = none := by
  have moves : ∀ search, (probeMiddleWithOffset64 c.maxOffset hasData search).range =
      search.range.moveRight64 := by
    intro search
    rw [probeMiddleWithOffset64]
    split
    · rename_i answer
      have unavailable := missing search.clock search.range.middle64
      rw [answer] at unavailable
      cases unavailable
    · split
      · rfl
      · exact range_shiftLeftFrom_of_missing missing ..
  have searches : ∀ clock, runFor (c.searchRound hasData
      (probeMiddleWithOffset64 c.maxOffset hasData)) rounds
        { range := initialRange cached (2 ^ 63 - 1), clock } = none := by
    intro clock
    refine runFor_eq_none (fun search => search.range.found = false ∧
      search.range.left < 2 ^ 63 ∧ search.range.right = 2 ^ 63 - 1) ?_ ?_ rounds
    · rintro search ⟨searching, below, ends⟩
      refine ⟨_, by rw [searchRound, if_neg (by simp [searching]), if_neg (by omega)], ?_⟩
      rw [moves]
      exact ⟨rfl, wrap_lt _, ends⟩
    · refine ⟨rfl, ?_, rfl⟩
      simp only [initialRange]
      split <;> omega
  have asked := missing 0 cached
  rw [detectWithOffset64, confirmOrSearchFor]
  split
  · split
    · rename_i answer
      rw [answer] at asked
      cases asked
    · exact searches _
  · exact searches 0

/-- A detection against an upstream that prunes at a threshold, from a cached
bound not above it.  Its search does not wrap.  Whatever probes fail, it fails and
keeps the cached bound, or it reports and keeps a bound from the threshold to the
latest height, or the first block of a chain of at most ten.  If none of the probes
that could have shown data fails after its retries, it reports the threshold. -/
theorem detectLowerBound_of_prunes {source : HeightSource} {threshold latest : ℤ}
    (prunes : Prunes source threshold latest) (low : c.lastBound ≤ threshold) (now : Int64) :
    c.detectBound64 (latest.toNat + 3) latest (c.hasData source) =
      some (c.detectBound latest (c.hasData source)) ∧
    ((∃ message, c.detectLowerBound source now = (.error message, c)) ∨
      ∃ bound, Reportable threshold latest bound ∧
        c.detectLowerBound source now =
          (.ok (c.lowerBoundResults bound now), { c with lastBound := bound })) ∧
    (c.Undisturbed source threshold →
      c.detectLowerBound source now =
        (.ok (c.lowerBoundResults threshold now), { c with lastBound := threshold })) :=
  ⟨c.detectBound64_eq prunes.bounded, detectLowerBound_reportable prunes low now,
    detectLowerBound_exact prunes low now⟩

def fresh : LowerBoundSearchCalculator :=
  { upstreamId := "node", mainBoundType := .stateBound, allSupportedTypes := [.stateBound]
    maxOffset := 0, retryAttempts := 1 }

def once (α : Type) : RetryExecutor α where
  get _ attempt clock := (attempt clock, clock + 1)
  get_ok succeeded := ⟨_, succeeded⟩

def timingOut (threshold : ℤ) : HeightSource where
  fetchLatestHeight _ := .ok 20
  probe _ height := if height = 10 then .error "timeout" else .ok (decide (threshold ≤ height))
  heightRetry := once ℤ
  probeRetry := once Bool

theorem prunes_timingOut {threshold : ℤ} (positive : 1 ≤ threshold) (reached : threshold ≤ 20) :
    Prunes (timingOut threshold) threshold 20 where
  positive := positive
  reached := reached
  bounded := by decide
  heights fetched := (Except.ok.inj fetched).symm
  probes {n height available} probed := by
    simp only [timingOut] at probed
    split at probed
    · cases probed
    · rw [← Except.ok.inj probed, decide_eq_true_iff]

/-- Timeouts below the threshold do not matter. -/
theorem detectLowerBound_of_prunes_timingOut :
    fresh.detectLowerBound (timingOut 12) 0 =
      (.ok (fresh.lowerBoundResults 12 0), { fresh with lastBound := 12 }) := by
  apply (fresh.detectLowerBound_of_prunes (prunes_timingOut (by decide) (by decide))
    (by decide) 0).2.2
  refine ⟨⟨20, rfl⟩, fun clock height above => ⟨decide (12 ≤ height), ?_⟩⟩
  have elsewhere : height ≠ 10 := by omega
  simp [withRetryProbe, timingOut, once, elsewhere]

/-- Every block from the first on has data, yet the search moves above the block
whose probe failed and reports the eleventh. -/
theorem detectLowerBound_above_failed_probe :
    Prunes (timingOut 1) 1 20 ∧ fresh.lastBound = 0 ∧
      fresh.detectLowerBound (timingOut 1) 0 =
        (.ok [⟨11, 0, .stateBound⟩], { fresh with lastBound := 11 }) := by
  refine ⟨prunes_timingOut (by decide) (by decide), rfl, ?_⟩
  have detected : fresh.detectBound 20 (fresh.hasData (timingOut 1)) = .ok 11 :=
    Loop.run_of_runFor 8 rfl
  rw [fresh.detectLowerBound_of_fetched 0 rfl (by decide), detected]
  rfl

/-- The circumstances of one detection. -/
structure Cycle where
  source : HeightSource
  now : Int64
  threshold : ℤ
  latest : ℤ

def detect (cycle : Cycle) : LowerBoundSearchCalculator :=
  (c.detectLowerBound cycle.source cycle.now).2

end LowerBoundSearchCalculator

end Nodecore.Upstreams
