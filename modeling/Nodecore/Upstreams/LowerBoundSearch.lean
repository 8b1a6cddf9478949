/-
# The search for a lower bound

A pruned node keeps data from some height on.  The calculator finds that height
by a binary search over probes of single blocks, confirms a bound it found
earlier with one probe before searching again, and keeps the bound it reports.
A probe is retried; one that still fails is read as "no data at this height".

Here heights are integers; the search over 64-bit heights is compared with this
one in the next module.
-/

import Mathlib.Algebra.Group.Int.Defs
import Mathlib.Algebra.Group.Nat.Defs
import Nodecore.Lib.Loop
import Nodecore.Lib.Run
import Nodecore.Protocol.Block

namespace Nodecore.Upstreams

open Lib Protocol

/-- A window of heights still to search and the lowest height with data so far,
`0` while there is none. -/
structure BoundRange where
  left : ℤ := 0
  right : ℤ := 0
  current : ℤ := 0
  found : Bool := false
  deriving DecidableEq, Repr

/-- The height the search converges to: the lowest one with data, or the first
block while there is none. -/
def BoundRange.candidate (range : BoundRange) : ℤ :=
  if range.current = 0 then 1 else range.current

structure LowerBoundSearchCalculator where
  upstreamId : String
  mainBoundType : LowerBoundType
  allSupportedTypes : List LowerBoundType
  maxOffset : ℤ
  retryAttempts : ℤ
  lastBound : ℤ := 0
  deriving DecidableEq, Repr

/-- What the retry library makes of attempts, known by the number of those made before, with a
largest number of them: a result or the last failure, and the number of attempts made by then.
A result is that of one of the attempts. -/
structure RetryExecutor (α : Type) where
  get : (maxAttempts : ℤ) → (attempt : ℕ → Except String α) → (clock : ℕ) → Except String α × ℕ
  get_ok : ∀ {maxAttempts attempt clock result},
    (get maxAttempts attempt clock).1 = .ok result → ∃ n, attempt n = .ok result

/-- What the upstream answers to the `n`-th request for its latest height, and
to the `n`-th probe when that is for a given height, and how both are retried. -/
structure HeightSource where
  fetchLatestHeight : ℕ → Except String ℤ
  probe : ℕ → ℤ → Except String Bool
  heightRetry : RetryExecutor ℤ
  probeRetry : RetryExecutor Bool

/-- A test of one height.  The number counts the probes sent before it. -/
abbrev HasData := ℕ → ℤ → Bool × ℕ

variable {range : BoundRange} {clock next : ℕ} {cached height : ℤ}

namespace LowerBoundSearchCalculator

def maxAttempts (c : LowerBoundSearchCalculator) : ℤ :=
  if c.retryAttempts ≤ 0 then 1 else c.retryAttempts

def withRetryLatestHeight (c : LowerBoundSearchCalculator) (source : HeightSource) :
    Except String ℤ :=
  (source.heightRetry.get c.maxAttempts source.fetchLatestHeight 0).1

def withRetryProbe (c : LowerBoundSearchCalculator) (source : HeightSource) (clock : ℕ)
    (height : ℤ) : Except String Bool × ℕ :=
  source.probeRetry.get c.maxAttempts (fun n => source.probe n height) clock

/-- A probe that fails after its retries is no data. -/
def hasData (c : LowerBoundSearchCalculator) (source : HeightSource) : HasData :=
  fun clock height =>
    match c.withRetryProbe source clock height with
    | (.ok available, clock) => (available, clock)
    | (.error _, clock) => (false, clock)

def initialRange (cached latest : ℤ) : BoundRange :=
  { left := if 0 < cached then cached else 0, right := latest, current := 0 }

def converge (c : LowerBoundSearchCalculator) (state : BoundRange) (hasData : HasData) (clock : ℕ) :
    Except String BoundRange × ℕ :=
  let current := state.candidate
  match hasData clock current with
  | (true, clock) => (.ok { current, found := true }, clock)
  | (false, clock) =>
    if current = 1 ∧ 10 < state.right then
      (.error ("upstream '" ++ c.upstreamId ++ "' could not detect " ++
        c.mainBoundType.toString ++ " lower bound"), clock)
    else (.ok { current, found := true }, clock)

end LowerBoundSearchCalculator

def BoundRange.middle (range : BoundRange) : ℤ := range.left + (range.right - range.left) / 2

def BoundRange.below (range : BoundRange) (block : ℤ) : BoundRange :=
  { left := range.left, right := block - 1, current := block }

def BoundRange.moveRight (range : BoundRange) : BoundRange :=
  { left := range.middle + 1, right := range.right, current := range.current }

/-- The state of the search loop: the window, the blocks a left shift has
already found empty, and the number of probes sent. -/
structure Search where
  range : BoundRange
  visited : List ℤ := []
  clock : ℕ := 0

/-- The scan below an empty middle.  `rest` more blocks may turn out empty
before the scan gives up and the search moves right. -/
def shiftLeftFrom (hasData : HasData) (range moveRight : BoundRange) :
    (rest : ℕ) → (block : ℤ) → (visited : List ℤ) → (clock : ℕ) → Search
  | rest, block, visited, clock =>
    if block ∈ visited ∨ block < 0 then { range := moveRight, visited, clock }
    else
      match hasData clock block with
      | (true, clock) => { range := range.below block, visited, clock }
      | (false, clock) =>
        match rest with
        | 0 => { range := moveRight, visited, clock }
        | rest + 1 => shiftLeftFrom hasData range moveRight rest (block - 1) (block :: visited) clock

def shiftLeftAndSearch (maxOffset : ℤ) (hasData : HasData) (range moveRight : BoundRange)
    (middle : ℤ) (visited : List ℤ) (clock : ℕ) : Search :=
  shiftLeftFrom hasData range moveRight maxOffset.toNat (middle - 1) visited clock

/-- What a round may do to the window: go below a block, at or under the middle,
that has data, or go above an empty middle. -/
inductive Narrowed (hasData : HasData) (range : BoundRange) : BoundRange → Prop
  | below {clock : ℕ} {block : ℤ} (available : (hasData clock block).1 = true)
      (low : block ≤ range.middle) : Narrowed hasData range (range.below block)
  | moveRight {clock : ℕ} (missing : (hasData clock range.middle).1 = false) :
      Narrowed hasData range range.moveRight

/-- A way of narrowing the window, of which only that is known. -/
structure Narrowing (hasData : HasData) where
  apply : Search → Search
  narrows : ∀ search, Narrowed hasData search.range (apply search).range

def probeMiddle (hasData : HasData) (search : Search) : Search :=
  match hasData search.clock search.range.middle with
  | (true, clock) => { search with range := search.range.below search.range.middle, clock }
  | (false, clock) => { search with range := search.range.moveRight, clock }

def probeMiddleWithOffset (maxOffset : ℤ) (hasData : HasData) (search : Search) : Search :=
  match hasData search.clock search.range.middle with
  | (true, clock) => { search with range := search.range.below search.range.middle, clock }
  | (false, clock) =>
    if search.range.middle < 0 then { search with range := search.range.moveRight, clock }
    else
      shiftLeftAndSearch maxOffset hasData search.range search.range.moveRight search.range.middle
        search.visited clock

section Narrowing

variable {hasData : HasData}

theorem Narrowed.of_available {block : ℤ} (answer : hasData clock block = (true, next))
    (low : block ≤ range.middle) : Narrowed hasData range (range.below block) :=
  .below (by rw [answer]) low

theorem Narrowed.of_missing (answer : hasData clock range.middle = (false, next)) :
    Narrowed hasData range range.moveRight :=
  .moveRight (by rw [answer])

theorem narrowed_shiftLeftFrom {asked : ℕ} (empty : hasData asked range.middle = (false, next))
    (rest : ℕ) (block : ℤ) (visited : List ℤ) (clock : ℕ) (low : block ≤ range.middle) :
    Narrowed hasData range
      (shiftLeftFrom hasData range range.moveRight rest block visited clock).range := by
  induction rest generalizing block visited clock with
  | zero =>
    rw [shiftLeftFrom]
    split
    · exact .of_missing empty
    · split
      · rename_i answer
        exact .of_available answer low
      · exact .of_missing empty
  | succ rest ih =>
    rw [shiftLeftFrom]
    split
    · exact .of_missing empty
    · split
      · rename_i answer
        exact .of_available answer low
      · exact ih (block - 1) _ _ (by omega)

/-- `detectPlain` probes the middle only. -/
def narrowPlain (hasData : HasData) : Narrowing hasData where
  apply := probeMiddle hasData
  narrows search := by
    rw [probeMiddle]
    split
    · rename_i answer
      exact .of_available answer (Int.le_refl _)
    · rename_i answer
      exact .of_missing answer

/-- `detectWithOffset` also looks below an empty middle. -/
def narrowWithOffset (maxOffset : ℤ) (hasData : HasData) : Narrowing hasData where
  apply := probeMiddleWithOffset maxOffset hasData
  narrows search := by
    rw [probeMiddleWithOffset]
    split
    · rename_i answer
      exact .of_available answer (Int.le_refl _)
    · rename_i answer
      split
      · exact .of_missing answer
      · exact narrowed_shiftLeftFrom answer _ _ _ _ (by omega)

end Narrowing

/-- Rounds left at most: one per height in the window and one to converge. -/
def BoundRange.width (range : BoundRange) : ℕ :=
  if range.found then 0 else (range.right - range.left + 1).toNat + 1

section

variable {hasData : HasData} {narrowed : BoundRange} (step : Narrowed hasData range narrowed)
include step

theorem Narrowed.found_eq : narrowed.found = false := by
  cases step <;> rfl

theorem Narrowed.width_lt (isOpen : range.left ≤ range.right)
    (searching : range.found = false) : narrowed.width < range.width := by
  cases step with
  | below available low =>
    simp only [BoundRange.middle] at low
    simp only [BoundRange.width, BoundRange.below, searching]
    simp
    omega
  | moveRight missing =>
    simp only [BoundRange.width, BoundRange.moveRight, BoundRange.middle, searching]
    simp
    omega

end

namespace LowerBoundSearchCalculator

variable (c : LowerBoundSearchCalculator)

theorem converge_ok {state : BoundRange} {hasData : HasData}
    (converged : c.converge state hasData clock = (.ok range, next)) :
    range.found = true ∧ range.current = state.candidate ∧
      ((hasData clock state.candidate).1 = true ∨
        ¬ (state.candidate = 1 ∧ 10 < state.right)) := by
  simp only [converge] at converged
  grind

def searchRound (hasData : HasData) (narrow : Search → Search) (search : Search) :
    Search ⊕ Except String ℤ :=
  if search.range.found then .inr (.ok search.range.current)
  else if search.range.right < search.range.left then
    match c.converge search.range hasData search.clock with
    | (.error message, _) => .inr (.error message)
    | (.ok range, clock) => .inl { search with range, clock }
  else .inl (narrow search)

theorem searchRound_inl {hasData : HasData} {narrow : Search → Search}
    {search next : Search} (round : c.searchRound hasData narrow search = .inl next) :
    search.range.found = false ∧
      ((search.range.right < search.range.left ∧
          ∃ clock, c.converge search.range hasData search.clock = (.ok next.range, clock)) ∨
        (search.range.left ≤ search.range.right ∧ next = narrow search)) := by
  simp only [searchRound] at round
  split at round
  · cases round
  · rename_i searching
    refine ⟨by simpa using searching, ?_⟩
    split at round
    · rename_i crossed
      split at round
      · cases round
      · rename_i range clock converged
        obtain rfl := Sum.inl.inj round
        exact .inl ⟨crossed, clock, converged⟩
    · rename_i isOpen
      obtain rfl := Sum.inl.inj round
      exact .inr ⟨by omega, rfl⟩

theorem searchRound_inr {hasData : HasData} {narrow : Search → Search} {search : Search}
    {result : Except String ℤ} (round : c.searchRound hasData narrow search = .inr result) :
    (search.range.found = true ∧ result = .ok search.range.current) ∨
      (search.range.found = false ∧ search.range.right < search.range.left ∧
        ∃ message clock, result = .error message ∧
          c.converge search.range hasData search.clock = (.error message, clock)) := by
  simp only [searchRound] at round
  split at round
  · rename_i found
    exact .inl ⟨found, (Sum.inr.inj round).symm⟩
  · rename_i searching
    split at round
    · rename_i crossed
      split at round
      · rename_i message clock failed
        exact .inr ⟨by simpa using searching, crossed, message, clock,
          (Sum.inr.inj round).symm, failed⟩
      · cases round
    · cases round

/-- The search loop, which ends because a round shrinks the window and a crossed
window converges. -/
def searchLoop {hasData : HasData} (narrowing : Narrowing hasData) :
    Loop Search (Except String ℤ) where
  body := c.searchRound hasData narrowing.apply
  variant search := search.range.width
  decreases {search next} round := by
    obtain ⟨searching, ⟨_, clock, converged⟩ | ⟨isOpen, rfl⟩⟩ := c.searchRound_inl round
    · have found := (c.converge_ok converged).1
      simp [BoundRange.width, found, searching]
    · exact (narrowing.narrows search).width_lt isOpen searching

/-- The search over the window a cached bound leaves. -/
def search {hasData : HasData} (narrowing : Narrowing hasData) (cached latest : ℤ) (clock : ℕ) :
    Except String ℤ :=
  (c.searchLoop narrowing).run { range := initialRange cached latest, clock }

/-- The frame both detections share.  A bound only moves up, so a cached one
that still has data is still the bound. -/
def confirmOrSearch {hasData : HasData} (narrowing : Narrowing hasData) (cached latest : ℤ) :
    Except String ℤ :=
  if 0 < cached then
    match hasData 0 cached with
    | (true, _) => .ok cached
    | (false, clock) => c.search narrowing cached latest clock
  else c.search narrowing cached latest 0

def detectPlain (cached latest : ℤ) (hasData : HasData) : Except String ℤ :=
  c.confirmOrSearch (narrowPlain hasData) cached latest

def detectWithOffset (cached latest : ℤ) (hasData : HasData) : Except String ℤ :=
  c.confirmOrSearch (narrowWithOffset c.maxOffset hasData) cached latest

def lowerBoundResults (bound : ℤ) (now : Int64) : List LowerBoundData :=
  if c.allSupportedTypes.isEmpty then [⟨Int64.ofInt bound, now, c.mainBoundType⟩]
  else c.allSupportedTypes.map fun boundType => ⟨Int64.ofInt bound, now, boundType⟩

def detectBound (latest : ℤ) (hasData : HasData) : Except String ℤ :=
  if 0 < c.maxOffset then c.detectWithOffset c.lastBound latest hasData
  else c.detectPlain c.lastBound latest hasData

/-- One detection: the results or the error, and the calculator afterwards. -/
def detectLowerBound (source : HeightSource) (now : Int64) :
    Except String (List LowerBoundData) × LowerBoundSearchCalculator :=
  match c.withRetryLatestHeight source with
  | .error cause =>
    (.error ("cannot fetch latest height for upstream '" ++ c.upstreamId ++ "': " ++ cause), c)
  | .ok latest =>
    if latest ≤ 0 then
      (.error ("upstream '" ++ c.upstreamId ++ "' returned non-positive latest height " ++
        toString latest), c)
    else
      match c.detectBound latest (c.hasData source) with
      | .error message => (.error message, c)
      | .ok bound => (.ok (c.lowerBoundResults bound now), { c with lastBound := bound })

theorem exists_narrowing (hasData : HasData) (latest : ℤ) :
    ∃ narrowing : Narrowing hasData,
      c.detectBound latest hasData = c.confirmOrSearch narrowing c.lastBound latest := by
  by_cases offset : 0 < c.maxOffset
  · exact ⟨narrowWithOffset c.maxOffset hasData, if_pos offset⟩
  · exact ⟨narrowPlain hasData, if_neg offset⟩

theorem detectLowerBound_of_fetched {source : HeightSource} {latest : ℤ} (now : Int64)
    (fetched : c.withRetryLatestHeight source = .ok latest) (positive : 0 < latest) :
    c.detectLowerBound source now =
      match c.detectBound latest (c.hasData source) with
      | .error message => (.error message, c)
      | .ok bound => (.ok (c.lowerBoundResults bound now), { c with lastBound := bound }) := by
  rw [detectLowerBound, fetched]
  exact if_neg (by omega)

/-- The rule for the search: what narrowing keeps of an open window and what
converging makes of a crossed one decide the result. -/
theorem search_rule {hasData : HasData} (narrowing : Narrowing hasData) (inv : Search → Prop)
    (post : Except String ℤ → Prop) {latest : ℤ}
    (initial : inv { range := initialRange cached latest, clock })
    (narrows : ∀ search, inv search → search.range.left ≤ search.range.right →
      inv (narrowing.apply search))
    (converges : ∀ search outcome next, inv search → search.range.right < search.range.left →
      c.converge search.range hasData search.clock = (outcome, next) →
        post (outcome.map BoundRange.current)) : post (c.search narrowing cached latest clock) := by
  apply (c.searchLoop narrowing).run_post (fun search =>
    if search.range.found then post (.ok search.range.current) else inv search) post
  · intro search next before round
    obtain ⟨searching, step⟩ := c.searchRound_inl round
    rw [if_neg (by simp [searching])] at before
    rcases step with ⟨crossed, clock, converged⟩ | ⟨isOpen, rfl⟩
    · rw [if_pos (c.converge_ok converged).1]
      exact converges _ _ _ before crossed converged
    · rw [if_neg (by simp [(narrowing.narrows search).found_eq])]
      exact narrows _ before isOpen
  · intro search result before round
    rcases c.searchRound_inr round with ⟨found, rfl⟩ | ⟨searching, crossed, message, clock, rfl, step⟩
    · rwa [if_pos found] at before
    · rw [if_neg (by simp [searching])] at before
      exact converges _ _ _ before crossed step
  · exact initial

section Bracket

variable {threshold latest : ℤ} {hasData : HasData}

/-- Either nothing has been found and the window still ends at the latest
height, or it ends right below a height at or above the threshold. -/
def Bracketed (threshold latest : ℤ) (range : BoundRange) : Prop :=
  (range.current = 0 ∧ range.right = latest) ∨
    (threshold ≤ range.current ∧ range.current ≤ latest ∧ range.right = range.current - 1)

/-- A bound that may be reported: at or above the threshold, or the first block
of a chain too short to insist. -/
def Reportable (threshold latest bound : ℤ) : Prop :=
  (threshold ≤ bound ∧ bound ≤ latest) ∨ (bound = 1 ∧ latest ≤ 10)

theorem bracketed_initialRange (cached : ℤ) :
    Bracketed threshold latest (initialRange cached latest) :=
  .inl ⟨rfl, rfl⟩

theorem Bracketed.narrowed {narrowed : BoundRange}
    (sound : ∀ clock height, (hasData clock height).1 = true → threshold ≤ height)
    (bracketed : Bracketed threshold latest range) (isOpen : range.left ≤ range.right)
    (step : Narrowed hasData range narrowed) : Bracketed threshold latest narrowed := by
  cases step with
  | below available low =>
    have above := sound _ _ available
    have right_le : range.right ≤ latest := by
      rcases bracketed with ⟨_, ends⟩ | ⟨_, _, ends⟩ <;> omega
    simp only [BoundRange.middle] at low
    exact .inr ⟨above, by simp only [BoundRange.below]; omega, rfl⟩
  | moveRight missing => exact bracketed

/-- Without any assumption on which probes fail, what is reported lies at or
above the threshold once something was found. -/
theorem Bracketed.reportable {converged : BoundRange} (positive : 1 ≤ threshold)
    (reached : threshold ≤ latest)
    (sound : ∀ clock height, (hasData clock height).1 = true → threshold ≤ height)
    (bracketed : Bracketed threshold latest range)
    (step : c.converge range hasData clock = (.ok converged, next)) :
    Reportable threshold latest converged.current := by
  obtain ⟨_, current, confirmed⟩ := c.converge_ok step
  rw [current]
  rcases bracketed with ⟨nothing, ends⟩ | ⟨above, below, _⟩
  · have first : range.candidate = 1 := if_pos nothing
    rw [first] at confirmed ⊢
    rcases confirmed with available | short
    · exact .inl ⟨sound _ _ available, by omega⟩
    · exact .inr ⟨rfl, by omega⟩
  · have kept : range.candidate = range.current := if_neg (by omega)
    rw [kept]
    exact .inl ⟨above, below⟩

/-- The window of a search that has not passed the threshold on either side. -/
structure Closing (threshold latest : ℤ) (range : BoundRange) : Prop where
  nonneg : 0 ≤ range.left
  low : range.left ≤ threshold
  bracketed : Bracketed threshold latest range

theorem Closing.right_le (closing : Closing threshold latest range) : range.right ≤ latest := by
  rcases closing.bracketed with ⟨_, ends⟩ | ⟨_, _, ends⟩ <;> omega

theorem Closing.middle_mem (closing : Closing threshold latest range)
    (isOpen : range.left ≤ range.right) : 0 ≤ range.middle ∧ range.middle ≤ range.right := by
  have nonneg := closing.nonneg
  rw [BoundRange.middle]
  omega

theorem closing_initialRange (nonneg : 0 ≤ threshold) (low : cached ≤ threshold) :
    Closing threshold latest (initialRange cached latest) where
  nonneg := by
    simp only [initialRange]
    split <;> omega
  low := by
    simp only [initialRange]
    split <;> omega
  bracketed := bracketed_initialRange cached

section

variable (closing : Closing threshold latest range)
include closing

theorem Closing.below (isOpen : range.left ≤ range.right) {block : ℤ}
    (above : threshold ≤ block) (low : block ≤ range.middle) :
    Closing threshold latest (range.below block) where
  nonneg := closing.nonneg
  low := closing.low
  bracketed := by
    have inside := closing.middle_mem isOpen
    have right_le := closing.right_le
    exact .inr ⟨above, by simp only [BoundRange.below]; omega, rfl⟩

theorem Closing.moveRight (isOpen : range.left ≤ range.right) (under : range.middle < threshold) :
    Closing threshold latest range.moveRight where
  nonneg := by
    have inside := closing.middle_mem isOpen
    simp only [BoundRange.moveRight]
    omega
  low := under
  bracketed := closing.bracketed

theorem Closing.candidate_eq (reached : threshold ≤ latest) (crossed : range.right < range.left) :
    range.candidate = max threshold 1 := by
  obtain ⟨nonneg, low, bracketed⟩ := closing
  rcases bracketed with ⟨_, ends⟩ | ⟨above, _, ends⟩
  · omega
  · rw [BoundRange.candidate]
    split <;> omega

end

variable (narrowing : Narrowing hasData)

/-- Without any assumption on which probes fail, the search reports nothing
below the threshold unless the chain is short. -/
theorem search_reportable (positive : 1 ≤ threshold) (reached : threshold ≤ latest)
    (sound : ∀ clock height, (hasData clock height).1 = true → threshold ≤ height) (cached : ℤ)
    (clock : ℕ) {bound : ℤ} (detected : c.search narrowing cached latest clock = .ok bound) :
    Reportable threshold latest bound := by
  apply c.search_rule narrowing (fun search => Bracketed threshold latest search.range)
    (fun result => ∀ bound, result = .ok bound → Reportable threshold latest bound)
    (bracketed_initialRange cached) ?_ ?_ bound detected
  · intro search bracketed isOpen
    exact bracketed.narrowed sound isOpen (narrowing.narrows search)
  · intro search outcome next bracketed _ step bound reported
    cases outcome with
    | error message => cases reported
    | ok converged =>
      obtain rfl := Except.ok.inj reported
      exact bracketed.reportable c positive reached sound step

/-- A search whose rounds keep the threshold in the window, given what else they
keep, finds it. -/
theorem search_closes (nonneg : 0 ≤ threshold) (reached : max threshold 1 ≤ latest)
    (available : ∀ clock, (hasData clock (max threshold 1)).1 = true) (low : cached ≤ threshold)
    (clock : ℕ) (keeps : Search → Prop)
    (initial : keeps { range := initialRange cached latest, clock })
    (narrows : ∀ search, Closing threshold latest search.range → keeps search →
      search.range.left ≤ search.range.right →
        Closing threshold latest (narrowing.apply search).range ∧
          keeps (narrowing.apply search)) :
    c.search narrowing cached latest clock = .ok (max threshold 1) := by
  apply c.search_rule narrowing
    (fun search => Closing threshold latest search.range ∧ keeps search)
    (fun result => result = .ok (max threshold 1))
  · exact ⟨closing_initialRange nonneg low, initial⟩
  · rintro search ⟨closing, kept⟩ isOpen
    exact narrows search closing kept isOpen
  · rintro search outcome next ⟨closing, -⟩ crossed step
    have closed := closing.candidate_eq (by omega) crossed
    cases outcome with
    | ok converged =>
      obtain ⟨_, current, _⟩ := c.converge_ok step
      exact congrArg Except.ok (current.trans closed)
    | error message =>
      have missing : (hasData search.clock search.range.candidate).1 = false := by
        simp only [converge] at step
        grind
      rw [closed, available] at missing
      cases missing

theorem search_exact (positive : 1 ≤ threshold) (reached : threshold ≤ latest)
    (exact : ∀ clock height, (hasData clock height).1 = true ↔ threshold ≤ height)
    (low : cached ≤ threshold) (clock : ℕ) :
    c.search narrowing cached latest clock = .ok threshold := by
  have atLeast : max threshold 1 = threshold := max_eq_left positive
  rw [← atLeast]
  apply c.search_closes narrowing (by omega) (by omega) _ low clock (fun _ => True) trivial
  · intro search closing _ isOpen
    refine ⟨?_, trivial⟩
    have step := narrowing.narrows search
    generalize (narrowing.apply search).range = narrowed at step ⊢
    cases step with
    | below available low => exact closing.below isOpen ((exact _ _).mp available) low
    | moveRight missing =>
      apply closing.moveRight isOpen
      rw [← not_le, ← exact, missing]
      simp
  · intro clock
    rw [exact, atLeast]

end Bracket

/-- The upstream has data exactly from the threshold on: so says every answer
that is not an error.  Its latest height is below the largest 64-bit one. -/
structure Prunes (source : HeightSource) (threshold latest : ℤ) : Prop where
  positive : 1 ≤ threshold
  reached : threshold ≤ latest
  bounded : latest < 2 ^ 63 - 1
  heights : ∀ {n height}, source.fetchLatestHeight n = .ok height → height = latest
  probes : ∀ {n height available}, source.probe n height = .ok available →
    (available = true ↔ threshold ≤ height)

/-- The latest height arrives, and no probe of a height that has data fails
after its retries.  Probes below the threshold may. -/
structure Undisturbed (source : HeightSource) (threshold : ℤ) : Prop where
  fetched : ∃ latest, c.withRetryLatestHeight source = .ok latest
  probed : ∀ clock height, threshold ≤ height →
    ∃ available, (c.withRetryProbe source clock height).1 = .ok available

section Detection

variable {c} {source : HeightSource} {threshold latest : ℤ}

theorem hasData_eq_true_iff :
    (c.hasData source clock height).1 = true ↔
      (c.withRetryProbe source clock height).1 = .ok true := by
  rw [hasData]
  rcases c.withRetryProbe source clock height with ⟨_ | available, next⟩ <;> simp

section

variable (prunes : Prunes source threshold latest)
include prunes

theorem Prunes.probe_ok {available : Bool}
    (answer : (c.withRetryProbe source clock height).1 = .ok available) :
    available = true ↔ threshold ≤ height := by
  obtain ⟨n, probed⟩ := source.probeRetry.get_ok answer
  exact prunes.probes probed

theorem Prunes.fetched (fetched : c.withRetryLatestHeight source = .ok height) :
    height = latest := by
  obtain ⟨n, answered⟩ := source.heightRetry.get_ok fetched
  exact prunes.heights answered

theorem Prunes.hasData_sound (clock : ℕ) (height : ℤ)
    (available : (c.hasData source clock height).1 = true) : threshold ≤ height :=
  (prunes.probe_ok (hasData_eq_true_iff.mp available)).mp rfl

theorem Prunes.hasData_exact
    (undisturbed : c.Undisturbed source threshold) (clock : ℕ) (height : ℤ) :
    (c.hasData source clock height).1 = true ↔ threshold ≤ height := by
  constructor
  · exact prunes.hasData_sound clock height
  · intro above
    obtain ⟨available, answer⟩ := undisturbed.probed clock height above
    obtain rfl : available = true := (prunes.probe_ok answer).mpr above
    exact hasData_eq_true_iff.mpr answer

end

theorem confirmOrSearch_reportable {hasData : HasData} (narrowing : Narrowing hasData)
    (positive : 1 ≤ threshold) (reached : threshold ≤ latest)
    (sound : ∀ clock height, (hasData clock height).1 = true → threshold ≤ height) {bound : ℤ}
    (low : cached ≤ threshold) (detected : c.confirmOrSearch narrowing cached latest = .ok bound) :
    Reportable threshold latest bound := by
  rw [confirmOrSearch] at detected
  split at detected
  · split at detected
    · rename_i confirmed
      obtain rfl := Except.ok.inj detected
      exact .inl ⟨sound 0 cached (by rw [confirmed]), by omega⟩
    · exact c.search_reportable narrowing positive reached sound _ _ detected
  · exact c.search_reportable narrowing positive reached sound _ _ detected

theorem confirmOrSearch_exact {hasData : HasData} (narrowing : Narrowing hasData)
    (positive : 1 ≤ threshold) (reached : threshold ≤ latest)
    (exact : ∀ clock height, (hasData clock height).1 = true ↔ threshold ≤ height)
    (low : cached ≤ threshold) : c.confirmOrSearch narrowing cached latest = .ok threshold := by
  rw [confirmOrSearch]
  split
  · split
    · rename_i confirmed
      have above := (exact 0 cached).mp (by rw [confirmed])
      exact congrArg Except.ok (by omega)
    · exact c.search_exact narrowing positive reached exact low _
  · exact c.search_exact narrowing positive reached exact low _

section

variable (prunes : Prunes source threshold latest) (low : c.lastBound ≤ threshold) (now : Int64)
include prunes low now

theorem detectLowerBound_reportable :
    (∃ message, c.detectLowerBound source now = (.error message, c)) ∨
      ∃ bound, Reportable threshold latest bound ∧
        c.detectLowerBound source now =
          (.ok (c.lowerBoundResults bound now), { c with lastBound := bound }) := by
  have positive := prunes.positive
  have reached := prunes.reached
  cases fetch : c.withRetryLatestHeight source with
  | error cause => exact .inl ⟨_, by rw [detectLowerBound, fetch]⟩
  | ok height =>
    obtain rfl := prunes.fetched fetch
    obtain ⟨narrowing, detects⟩ := c.exists_narrowing (c.hasData source) height
    rw [c.detectLowerBound_of_fetched now fetch (by omega), detects]
    cases detected : c.confirmOrSearch narrowing c.lastBound height with
    | error message => exact .inl ⟨message, rfl⟩
    | ok bound =>
      exact .inr ⟨bound, confirmOrSearch_reportable narrowing positive reached
        prunes.hasData_sound low detected, rfl⟩

theorem detectLowerBound_exact (undisturbed : c.Undisturbed source threshold) :
    c.detectLowerBound source now =
      (.ok (c.lowerBoundResults threshold now), { c with lastBound := threshold }) := by
  have positive := prunes.positive
  have reached := prunes.reached
  obtain ⟨height, fetch⟩ := undisturbed.fetched
  obtain rfl := prunes.fetched fetch
  obtain ⟨narrowing, detects⟩ := c.exists_narrowing (c.hasData source) height
  rw [c.detectLowerBound_of_fetched now fetch (by omega), detects,
    confirmOrSearch_exact narrowing positive reached (prunes.hasData_exact undisturbed) low]

end

end Detection

end LowerBoundSearchCalculator

end Nodecore.Upstreams
