/-
# Publishing the lower bounds of an upstream

Detectors find the lowest blocks that an upstream still has.  What they find is
filtered, handed to a predictor that keeps a short window of bounds for each
type, and published.  The predictor ignores a bound that has the time of the last
one it keeps, and starts its window anew on some others.

A published bound is therefore the one that the predictor keeps unless two
results of a type have the same time and different bounds.  Apart from these
exceptions, published bounds go down to 1 only.  The line that the predictor puts
through its window is computed by a library, and is a parameter here.
-/

import Mathlib.Algebra.Group.Int.Defs
import Mathlib.Data.List.Chain
import Nodecore.Lib.Run
import Nodecore.Protocol.Block

namespace Nodecore.Upstreams

open Lib Protocol

/-- How a line is put through bounds: the line that is always 1, the one through a bound with
the average speed of the chain, and the one fitted to a window. -/
structure LineFit (Line : Type*) where
  level : Line
  through : LowerBoundData → Line
  train : List LowerBoundData → Line

def maxBounds : ℕ := 3

/-- The window of a type, which always has a last bound, and its line. -/
structure LowerBoundCoeffs (Line : Type*) where
  lowerBounds : List LowerBoundData
  line : Line
  nonempty : lowerBounds ≠ []

abbrev LowerBounds (Line : Type*) := GoMap LowerBoundType (LowerBoundCoeffs Line)

variable {Line : Type*}

namespace LowerBoundCoeffs

def getLastBound (coeffs : LowerBoundCoeffs Line) : LowerBoundData :=
  coeffs.lowerBounds.getLast coeffs.nonempty

def single (newBound : LowerBoundData) (line : Line) : LowerBoundCoeffs Line :=
  ⟨[newBound], line, List.cons_ne_nil _ _⟩

/-- One more bound, in place of the first one if the window is full. -/
def appendBound (fit : LineFit Line) (coeffs : LowerBoundCoeffs Line) (newBound : LowerBoundData) :
    LowerBoundCoeffs Line :=
  let kept := if coeffs.lowerBounds.length = maxBounds then coeffs.lowerBounds.tail
    else coeffs.lowerBounds
  let window := kept ++ [newBound]
  ⟨window, if window.length < maxBounds then fit.through newBound else fit.train window,
    List.append_ne_nil_of_right_ne_nil _ (List.cons_ne_nil _ _)⟩

end LowerBoundCoeffs

namespace LowerBounds

variable (bounds : LowerBounds Line) (fit : LineFit Line) (newBound : LowerBoundData)

def getLastBound (type : LowerBoundType) : Option LowerBoundData :=
  (bounds.lookup type).map (·.getLastBound)

def initBound : LowerBoundCoeffs Line :=
  .single newBound (if newBound.bound = 1 then fit.level else fit.through newBound)

def updateBound : LowerBounds Line :=
  match bounds.lookup newBound.type with
  | none => bounds.insert newBound.type (initBound fit newBound)
  | some coeffs =>
    let lastBound := coeffs.getLastBound
    if newBound.timestamp = lastBound.timestamp then bounds
    else if newBound.bound = 1 then bounds.insert newBound.type (.single newBound fit.level)
    else if newBound.bound < lastBound.bound ∨ 100000 ≤ newBound.bound - lastBound.bound then
      bounds.insert newBound.type (.single newBound (fit.through newBound))
    else bounds.insert newBound.type (coeffs.appendBound fit newBound)

variable {bounds newBound}

theorem getLastBound_insert (coeffs : LowerBoundCoeffs Line) :
    getLastBound (AList.insert newBound.type coeffs bounds) newBound.type =
      some coeffs.getLastBound := by
  rw [getLastBound, AList.lookup_insert, Option.map_some]

theorem lookup_updateBound_of_ne {type : LowerBoundType} (other : type ≠ newBound.type) :
    (bounds.updateBound fit newBound).lookup type = bounds.lookup type := by
  unfold updateBound
  split
  · exact AList.lookup_insert_ne other
  · dsimp only
    split_ifs
    · rfl
    all_goals exact AList.lookup_insert_ne other

theorem getLastBound_updateBound_of_ne {type : LowerBoundType} (other : type ≠ newBound.type) :
    (bounds.updateBound fit newBound).getLastBound type = bounds.getLastBound type := by
  rw [getLastBound, lookup_updateBound_of_ne fit other, getLastBound]

theorem getLastBound_updateBound :
    (bounds.updateBound fit newBound).getLastBound newBound.type =
      some (((bounds.getLastBound newBound.type).filter
        (newBound.timestamp = ·.timestamp)).getD newBound) := by
  cases found : bounds.lookup newBound.type with
  | none =>
    simp only [updateBound, found]
    rw [getLastBound_insert, getLastBound, found]
    rfl
  | some coeffs =>
    have last : bounds.getLastBound newBound.type = some coeffs.getLastBound := by
      rw [getLastBound, found, Option.map_some]
    simp only [updateBound, found, last, Option.filter_some, decide_eq_true_eq]
    split_ifs with sameTime
    · exact last
    · rw [getLastBound_insert]
      rfl
    · rw [getLastBound_insert]
      rfl
    · rw [getLastBound_insert, LowerBoundCoeffs.getLastBound, LowerBoundCoeffs.appendBound]
      simp

end LowerBounds

/-- The predictor, and what was published in order. -/
structure GenericLowerBoundProcessor (Line : Type*) where
  lowerBounds : LowerBounds Line := ∅
  published : List LowerBoundData := []

namespace GenericLowerBoundProcessor

variable (fit : LineFit Line) (processor : GenericLowerBoundProcessor Line)

def publishBound (data : LowerBoundData) : GenericLowerBoundProcessor Line where
  lowerBounds := processor.lowerBounds.updateBound fit data
  published := processor.published ++ [data]

/-- A bound passes if it is not below the last one of its type, or is 1. -/
def Passes (data : LowerBoundData) : Prop :=
  ((processor.lowerBounds.getLastBound data.type).elim 0 (·.bound)) ≤ data.bound ∨ data.bound = 1

instance : DecidablePred processor.Passes := fun _ => inferInstanceAs (Decidable (_ ∨ _))

def processBound (data : LowerBoundData) : GenericLowerBoundProcessor Line :=
  if processor.Passes data then processor.publishBound fit data else processor

/-- A detector fails or returns some bounds. -/
def processBounds : Except String (List LowerBoundData) → GenericLowerBoundProcessor Line
  | .error _ => processor
  | .ok bounds => bounds.foldl (processBound fit) processor

/-- The bounds that some results bring, in the order in which they are processed. -/
def detected (results : List (Except String (List LowerBoundData))) : List LowerBoundData :=
  results.flatMap fun result => result.toOption.getD []

theorem run_processBounds (results : List (Except String (List LowerBoundData))) :
    run (processBounds fit) processor results =
      run (processBound fit) processor (detected results) := by
  induction results generalizing processor with
  | nil => rfl
  | cons result results ih =>
    have split : detected (result :: results) = result.toOption.getD [] ++ detected results :=
      List.flatMap_cons
    rw [run_cons, ih, split, run_append]
    cases result with
    | error error => rfl
    | ok bounds => rfl

def publishedOf (type : LowerBoundType) : List LowerBoundData :=
  processor.published.filter (·.type = type)

/-- The last published bound of a type is the last one that the predictor keeps. -/
def Agrees : Prop :=
  ∀ type, (processor.publishedOf type).getLast?.map (·.bound) =
    (processor.lowerBounds.getLastBound type).map (·.bound)

/-- Published bounds of a type go down to 1 only. -/
def Rises : Prop :=
  ∀ type, (processor.publishedOf type).IsChain fun earlier later =>
    earlier.bound ≤ later.bound ∨ later.bound = 1

/-- A bound that passes is not found at the time of the last one of its type, or is the same. -/
def Fits (data : LowerBoundData) : Prop :=
  processor.Passes data → ∀ last ∈ processor.lowerBounds.getLastBound data.type,
    data.timestamp = last.timestamp → data.bound = last.bound

instance : DecidablePred processor.Fits := fun _ => inferInstanceAs (Decidable (_ → _))

variable {processor} {data : LowerBoundData} {type : LowerBoundType}

theorem publishedOf_publishBound_self :
    (processor.publishBound fit data).publishedOf data.type =
      processor.publishedOf data.type ++ [data] := by
  simp [publishedOf, publishBound]

theorem publishedOf_publishBound_of_ne (other : type ≠ data.type) :
    (processor.publishBound fit data).publishedOf type = processor.publishedOf type := by
  simp [publishedOf, publishBound, other.symm]

theorem agrees_processBound_iff (agrees : processor.Agrees) :
    (processor.processBound fit data).Agrees ↔ processor.Fits data := by
  unfold processBound Fits
  by_cases passes : processor.Passes data
  · have own : ((processor.publishBound fit data).publishedOf data.type).getLast?.map (·.bound) =
        some data.bound := by
      rw [publishedOf_publishBound_self, List.getLast?_concat, Option.map_some]
    have kept : ((processor.publishBound fit data).lowerBounds.getLastBound data.type).map
        (·.bound) = some (((processor.lowerBounds.getLastBound data.type).filter
          (data.timestamp = ·.timestamp)).getD data).bound := by
      rw [publishBound, LowerBounds.getLastBound_updateBound, Option.map_some]
    rw [if_pos passes]
    constructor
    · intro after _ last isLast sameTime
      have same := (own.symm.trans (after data.type)).trans kept
      rw [Option.mem_def.mp isLast] at same
      simpa [Option.filter_some, sameTime] using same
    · intro fits type
      by_cases same : type = data.type
      · subst same
        rw [own, kept]
        cases isLast : processor.lowerBounds.getLastBound data.type with
        | none => rfl
        | some last =>
          by_cases sameTime : data.timestamp = last.timestamp
          · simpa [Option.filter_some, sameTime] using fits passes last isLast sameTime
          · simp [Option.filter_some, sameTime]
      · rw [publishedOf_publishBound_of_ne fit same, publishBound,
          LowerBounds.getLastBound_updateBound_of_ne fit same]
        exact agrees type
  · rw [if_neg passes]
    exact iff_of_true agrees fun impossible => absurd impossible passes

theorem rises_processBound (agrees : processor.Agrees) (rises : processor.Rises) :
    (processor.processBound fit data).Rises := by
  unfold processBound
  split_ifs with passes
  · intro type
    by_cases same : type = data.type
    · subst same
      rw [publishedOf_publishBound_self, List.isChain_append]
      refine ⟨rises data.type, List.isChain_singleton data, fun last isLast next isNext => ?_⟩
      obtain rfl : data = next := by simpa using isNext
      have kept := agrees data.type
      rw [Option.mem_def.mp isLast, Option.map_some] at kept
      obtain ⟨keeps, isKept, sameBound⟩ := Option.map_eq_some_iff.mp kept.symm
      rwa [Passes, isKept, Option.elim_some, sameBound] at passes
    · rw [publishedOf_publishBound_of_ne fit same]
      exact rises type
  · exact rises

end GenericLowerBoundProcessor

open GenericLowerBoundProcessor

/-- Over every sequence of results, each published bound is the last one that the predictor
keeps of its type exactly if no bound that passes has the time of the one kept before it and
another value.  Published bounds then go down to 1 only. -/
theorem published_agrees_iff (fit : LineFit Line)
    (results : List (Except String (List LowerBoundData))) :
    (AfterEach (processBound fit) Agrees {} (detected results) ↔
        EachStep (processBound fit) Fits {} (detected results)) ∧
      (EachStep (processBound fit) Fits {} (detected results) →
        (run (processBounds fit) {} results).Agrees ∧
          (run (processBounds fit) {} results).Rises) := by
  have start : Agrees ({} : GenericLowerBoundProcessor Line) := fun type => rfl
  have rises : Rises ({} : GenericLowerBoundProcessor Line) := fun type => List.isChain_nil
  have keeps (processor : GenericLowerBoundProcessor Line) (data : LowerBoundData)
      (holds : processor.Agrees ∧ processor.Rises) (isFit : processor.Fits data) :
      (processor.processBound fit data).Agrees ∧ (processor.processBound fit data).Rises :=
    ⟨(agrees_processBound_iff fit holds.1).mpr isFit, rises_processBound fit holds.1 holds.2⟩
  refine ⟨afterEach_iff_eachStep (fun _ _ (_ : True) => trivial)
    (fun _ _ _ agrees => agrees_processBound_iff fit agrees) trivial start _, fun fits => ?_⟩
  rw [run_processBounds]
  exact run_induction_of_eachStep keeps ⟨start, rises⟩ fits

def anyLine : LineFit Unit := ⟨(), fun _ => (), fun _ => ()⟩

/-- The blocks of an upstream that prunes and then has its history restored. -/
def restored : List (Except String (List LowerBoundData)) :=
  [.ok [⟨5, 10, .stateBound⟩], .error "no response", .ok [⟨8, 20, .stateBound⟩],
    .ok [⟨1, 30, .stateBound⟩, ⟨7, 30, .blockBound⟩]]

theorem restored_agrees :
    (run (processBounds anyLine) {} restored).published.map (·.bound) = [5, 8, 1, 7] ∧
      (run (processBounds anyLine) {} restored).Rises :=
  ⟨by decide +kernel, ((published_agrees_iff anyLine restored).2 (by decide +kernel)).2⟩

def sameSecond : List (Except String (List LowerBoundData)) :=
  [.ok [⟨5, 10, .stateBound⟩], .ok [⟨9, 10, .stateBound⟩], .ok [⟨7, 11, .stateBound⟩]]

/-- The second bound is published while the predictor keeps the first, and the third one is then
published although it is below the second and is not 1. -/
theorem sameSecond_disagrees :
    ((run (processBounds anyLine) {} (sameSecond.take 2)).publishedOf .stateBound).getLast? =
        some ⟨9, 10, .stateBound⟩ ∧
      (run (processBounds anyLine) {} (sameSecond.take 2)).lowerBounds.getLastBound .stateBound =
        some ⟨5, 10, .stateBound⟩ ∧
      (run (processBounds anyLine) {} sameSecond).published.map (·.bound) = [5, 9, 7] := by
  decide +kernel

/-- How neighbours in a window are meant to follow one another. -/
def RisesTo (first second : LowerBoundData) : Prop :=
  first.bound.toInt ≤ second.bound.toInt ∧ second.bound.toInt - first.bound.toInt < 100000 ∧
    first.timestamp ≠ second.timestamp

/-- What a window is meant to be. -/
structure IsWindow (window : List LowerBoundData) : Prop where
  nonempty : window ≠ []
  length_le : window.length ≤ maxBounds
  rises : window.IsChain RisesTo

theorem isWindow_singleton (bound : LowerBoundData) : IsWindow [bound] :=
  ⟨List.cons_ne_nil _ _, (by decide : 1 ≤ maxBounds), .singleton bound⟩

namespace LowerBounds

variable (fit : LineFit Line)

def WindowsKept (bounds : LowerBounds Line) : Prop :=
  ∀ type coeffs, bounds.lookup type = some coeffs → IsWindow coeffs.lowerBounds

/-- A bound other than 1 that is not ignored lies less than 2 ^ 63 above the last one, so that
their difference fits 64 bits. -/
def Near (bounds : LowerBounds Line) (newBound : LowerBoundData) : Prop :=
  ∀ lastBound, bounds.getLastBound newBound.type = some lastBound →
    newBound.timestamp ≠ lastBound.timestamp → newBound.bound ≠ 1 →
    newBound.bound.toInt - lastBound.bound.toInt < 2 ^ 63

variable {coeffs : LowerBoundCoeffs Line} {newBound : LowerBoundData}

theorem isWindow_appendBound_iff (window : IsWindow coeffs.lowerBounds) :
    IsWindow (coeffs.appendBound fit newBound).lowerBounds ↔
      RisesTo coeffs.getLastBound newBound := by
  obtain ⟨kept, appended, room, chain, last⟩ : ∃ kept,
      (coeffs.appendBound fit newBound).lowerBounds = kept ++ [newBound] ∧
        kept.length < maxBounds ∧ kept.IsChain RisesTo ∧
        kept.getLast? = some coeffs.getLastBound := by
    have last := List.getLast?_eq_some_getLast coeffs.nonempty
    by_cases full : coeffs.lowerBounds.length = maxBounds
    · refine ⟨coeffs.lowerBounds.tail, ?_, ?_, window.rises.tail, ?_⟩
      · simp only [LowerBoundCoeffs.appendBound, if_pos full]
      · rw [List.length_tail, full]
        decide
      · rwa [List.getLast?_tail, if_neg (by rw [full]; decide)]
    · refine ⟨coeffs.lowerBounds, ?_, lt_of_le_of_ne window.length_le full, window.rises, last⟩
      simp only [LowerBoundCoeffs.appendBound, if_neg full]
  rw [appended]
  constructor
  · intro isWindow
    exact (List.isChain_append.mp isWindow.rises).2.2 _ last _ rfl
  · intro rises
    refine ⟨by simp, by rwa [List.length_append], List.isChain_append.mpr ⟨chain, .singleton _, ?_⟩⟩
    rintro bound isLast _ ⟨⟩
    cases last.symm.trans isLast
    exact rises

/-- The difference is computed in 64 bits, and a bound far above the last one seems to be below. -/
theorem risesTo_iff {lastBound : LowerBoundData}
    (otherTime : newBound.timestamp ≠ lastBound.timestamp)
    (inside : ¬ (newBound.bound < lastBound.bound ∨ 100000 ≤ newBound.bound - lastBound.bound)) :
    RisesTo lastBound newBound ↔ newBound.bound.toInt - lastBound.bound.toInt < 2 ^ 63 := by
  obtain ⟨notBelow, notFar⟩ := not_or.mp inside
  rw [Int64.lt_iff_toInt_lt, not_lt] at notBelow
  constructor
  · intro rises
    have := rises.2.1
    omega
  · intro near
    rw [Int64.le_iff_toInt_le, Int64.toInt_sub, Int.bmod_eq_of_le (by omega) (by omega)] at notFar
    exact ⟨notBelow, not_le.mp notFar, otherTime.symm⟩

theorem near_of_restart {lastBound : LowerBoundData}
    (restart : newBound.bound < lastBound.bound ∨ 100000 ≤ newBound.bound - lastBound.bound) :
    newBound.bound.toInt - lastBound.bound.toInt < 2 ^ 63 := by
  have high := newBound.bound.toInt_lt
  have low := lastBound.bound.le_toInt
  rw [Int64.lt_iff_toInt_lt, Int64.le_iff_toInt_le, Int64.toInt_sub, Int.bmod_def] at restart
  change _ ∨ (100000 : ℤ) ≤ _ at restart
  split at restart <;> omega

variable {bounds : LowerBounds Line}

theorem windowsKept_insert_iff (kept : bounds.WindowsKept) {type : LowerBoundType} :
    WindowsKept (AList.insert type coeffs bounds) ↔ IsWindow coeffs.lowerBounds := by
  constructor
  · exact fun after => after type coeffs (AList.lookup_insert _)
  · intro isWindow other found isFound
    by_cases same : other = type
    · subst same
      rw [AList.lookup_insert] at isFound
      cases isFound
      exact isWindow
    · rw [AList.lookup_insert_ne same] at isFound
      exact kept other found isFound

theorem windowsKept_updateBound_iff (kept : bounds.WindowsKept) (newBound : LowerBoundData) :
    (bounds.updateBound fit newBound).WindowsKept ↔ bounds.Near newBound := by
  unfold updateBound Near getLastBound
  split
  · next new =>
    rw [windowsKept_insert_iff kept, new]
    exact iff_of_true (isWindow_singleton newBound) (by simp)
  · next coeffs found =>
    simp only [found, Option.map_some, Option.some.injEq, forall_eq']
    split_ifs with sameTime one restart
    · exact iff_of_true kept fun other => absurd sameTime other
    · rw [windowsKept_insert_iff kept]
      exact iff_of_true (isWindow_singleton newBound) fun _ other => absurd one other
    · rw [windowsKept_insert_iff kept]
      exact iff_of_true (isWindow_singleton newBound) fun _ _ => near_of_restart restart
    · rw [windowsKept_insert_iff kept, isWindow_appendBound_iff fit (kept _ _ found),
        risesTo_iff sameTime restart]
      exact ⟨fun near _ _ => near, fun near => near sameTime one⟩

/-- Bounds are handed in one after another.  Every type that was handed in has a window, and
the windows are what they are meant to be after each bound exactly if no bound lies so far above
the last one that their difference does not fit 64 bits. -/
theorem windows_kept_iff (fit : LineFit Line) (newBounds : List LowerBoundData) :
    (∀ newBound ∈ newBounds, ∃ coeffs,
      (run (updateBound · fit) ∅ newBounds).lookup newBound.type = some coeffs) ∧
      (AfterEach (updateBound · fit) WindowsKept ∅ newBounds ↔
        EachStep (updateBound · fit) Near ∅ newBounds) := by
  constructor
  · induction newBounds using List.reverseRecOn with
    | nil => simp
    | append_singleton newBounds last ih =>
      intro newBound listed
      rw [run_append, run_cons, run_nil]
      by_cases same : newBound.type = last.type
      · rw [same]
        obtain ⟨coeffs, found, -⟩ := Option.map_eq_some_iff.mp (getLastBound_updateBound fit)
        exact ⟨coeffs, found⟩
      · rw [lookup_updateBound_of_ne fit same]
        refine ih newBound ((List.mem_append.mp listed).resolve_right fun isLast => same ?_)
        rw [List.mem_singleton.mp isLast]
  · exact afterEach_iff_eachStep (fun _ _ (_ : True) => trivial)
      (fun bounds newBound _ kept => windowsKept_updateBound_iff fit kept newBound) trivial
      (fun _ _ found => by simp at found) newBounds

end LowerBounds

/-- The windows are kept, and none of them ends with a negative bound. -/
structure LowerBounds.Natural (bounds : LowerBounds Line) : Prop where
  kept : bounds.WindowsKept
  nonneg : ∀ {type last}, bounds.getLastBound type = some last → 0 ≤ last.bound.toInt

theorem LowerBounds.Natural.updateBound {bounds : LowerBounds Line} (natural : bounds.Natural)
    (fit : LineFit Line) {data : LowerBoundData} (nonneg : 0 ≤ data.bound.toInt) :
    (bounds.updateBound fit data).Natural where
  kept := by
    apply (windowsKept_updateBound_iff fit natural.kept data).mpr
    intro last isLast _ _
    have below := natural.nonneg isLast
    have high := data.bound.toInt_lt
    omega
  nonneg {type last} isLast := by
    by_cases same : type = data.type
    · subst same
      rw [getLastBound_updateBound] at isLast
      cases isKept : (bounds.getLastBound data.type).filter (data.timestamp = ·.timestamp) with
      | none =>
        rw [isKept] at isLast
        exact Option.some.inj isLast ▸ nonneg
      | some prior =>
        rw [isKept] at isLast
        exact Option.some.inj isLast ▸ natural.nonneg (Option.filter_eq_some_iff.mp isKept).1
    · rw [getLastBound_updateBound_of_ne fit same] at isLast
      exact natural.nonneg isLast

theorem LowerBounds.Natural.nonneg_of_passes {processor : GenericLowerBoundProcessor Line}
    (natural : processor.lowerBounds.Natural) {data : LowerBoundData}
    (passes : processor.Passes data) : 0 ≤ data.bound.toInt := by
  rcases passes with above | one
  · rw [Int64.le_iff_toInt_le] at above
    cases isPrior : processor.lowerBounds.getLastBound data.type with
    | none => simpa [isPrior] using above
    | some prior =>
      rw [isPrior, Option.elim_some] at above
      exact (natural.nonneg isPrior).trans above
  · rw [one]
    decide

/-- The filter before the predictor lets no negative bound pass, so that the difference of two
bounds of a type fits 64 bits: along every run of a processor its windows are kept. -/
theorem windowsKept_processBounds (fit : LineFit Line)
    (results : List (Except String (List LowerBoundData))) :
    (run (processBounds fit) {} results).lowerBounds.WindowsKept := by
  have keeps (processor : GenericLowerBoundProcessor Line) (data : LowerBoundData)
      (natural : processor.lowerBounds.Natural) :
      (processor.processBound fit data).lowerBounds.Natural := by
    unfold processBound
    split_ifs with passes
    · exact natural.updateBound fit (natural.nonneg_of_passes passes)
    · exact natural
  have initial : (∅ : LowerBounds Line).Natural :=
    ⟨fun _ _ found => by simp at found, fun found => by simp [LowerBounds.getLastBound] at found⟩
  rw [run_processBounds]
  exact (run_induction keeps initial (detected results)).kept

/-- A bound that lies 2 ^ 63 above the last one joins its window. -/
theorem far_bound_joins :
    ((run (LowerBounds.updateBound · anyLine) ∅ [⟨-1, 1, .stateBound⟩, ⟨9223372036854775807, 2,
      .stateBound⟩]).lookup .stateBound).map (·.lowerBounds) =
        some [⟨-1, 1, .stateBound⟩, ⟨9223372036854775807, 2, .stateBound⟩] ∧
      100000 ≤ (9223372036854775807 : Int64).toInt - (-1 : Int64).toInt := by
  decide +kernel

end Nodecore.Upstreams
