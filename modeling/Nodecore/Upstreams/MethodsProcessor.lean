/-
# Unsupported methods from several detectors

Every round asks all method detectors of an upstream, and each of them names the
methods it knows to be absent or has no opinion.  A detector without an opinion
keeps contributing what it said last, from a slot array that the rounds share.
The union of the slots is published only when it differs from the set published
before, so what subscribers hold depends on the whole history of every detector
and not on the last round.
-/

import Mathlib.Data.Finset.Union
import Mathlib.Data.Fintype.Basic
import Nodecore.Lib.Run

namespace Nodecore.Upstreams

open Lib

/-- A slot per detector: a set of unsupported methods, or none (`nil`). -/
abbrev Verdicts (n : ℕ) := Fin n → Option (Finset String)

variable {n : ℕ}

/-- What the loop in `detect` has worked out so far. -/
structure Detection (n : ℕ) where
  latest : Verdicts n
  merged : Finset String := ∅
  anyOpinion : Bool := false

/-- The body of the loop in `detect`. -/
def Detection.visit (verdicts : Verdicts n) (detection : Detection n) (index : Fin n) :
    Detection n :=
  let latest :=
    match verdicts index with
    | some verdict => Function.update detection.latest index (some verdict)
    | none => detection.latest
  match latest index with
  | none => { detection with latest := latest }
  | some verdict => ⟨latest, detection.merged ∪ verdict, true⟩

/-- `detect`, once every detector has written its verdict. -/
def detect (latest verdicts : Verdicts n) : Detection n :=
  (List.finRange n).foldl (Detection.visit verdicts) { latest := latest }

/-- One run of a processor, from `Start` on. -/
structure GenericMethodsProcessor (n : ℕ) where
  latest : Verdicts n := fun _ => none
  published : Option (Finset String) := none
  /-- The sets given to `Publish`, in order. -/
  publications : List (Finset String) := []

/-- `detectAndPublish`. -/
def GenericMethodsProcessor.detectAndPublish (processor : GenericMethodsProcessor n)
    (verdicts : Verdicts n) : GenericMethodsProcessor n :=
  let detection := detect processor.latest verdicts
  if detection.anyOpinion = false then { processor with latest := detection.latest }
  else if processor.published = some detection.merged then
    { processor with latest := detection.latest }
  else
    { latest := detection.latest
      published := some detection.merged
      publications := processor.publications ++ [detection.merged] }

/-- A verdict replaces what the slot held, no opinion keeps it. -/
def remember (latest verdicts : Verdicts n) : Verdicts n :=
  fun index => (verdicts index).or (latest index)

def merge (latest : Verdicts n) : Finset String :=
  Finset.univ.biUnion fun index => (latest index).getD ∅

theorem Detection.visit_eq (verdicts : Verdicts n) (detection : Detection n) (index : Fin n) :
    detection.visit verdicts index =
      { latest := Function.update detection.latest index (remember detection.latest verdicts index)
        merged := detection.merged ∪ (remember detection.latest verdicts index).getD ∅
        anyOpinion :=
          detection.anyOpinion || (remember detection.latest verdicts index).isSome } := by
  unfold visit remember
  cases answer : verdicts index with
  | some verdict => simp
  | none =>
    dsimp only
    rw [Option.none_or, Function.update_eq_self]
    cases detection.latest index with
    | some verdict => simp
    | none => simp

variable (latest verdicts : Verdicts n)

theorem remember_update (index : Fin n) :
    remember (Function.update latest index (remember latest verdicts index)) verdicts =
      remember latest verdicts := by
  funext other
  by_cases same : other = index
  · subst same
    unfold remember
    cases verdicts other with
    | some verdict => rfl
    | none => simp
  · simp only [remember, Function.update_of_ne same]

theorem foldl_visit (verdicts : Verdicts n) (indices : List (Fin n)) (detection : Detection n) :
    let slots := remember detection.latest verdicts
    let result := indices.foldl (Detection.visit verdicts) detection
    (∀ index, result.latest index =
        if index ∈ indices then slots index else detection.latest index) ∧
      result.merged =
        detection.merged ∪ indices.toFinset.biUnion (fun index => (slots index).getD ∅) ∧
      (result.anyOpinion = true ↔
        detection.anyOpinion = true ∨ ∃ index ∈ indices, (slots index).isSome) := by
  induction indices generalizing detection with
  | nil => simp
  | cons first indices ih =>
    obtain ⟨latest, merged, anyOpinion⟩ := ih (detection.visit verdicts first)
    rw [Detection.visit_eq, remember_update] at latest merged anyOpinion
    rw [List.foldl_cons, Detection.visit_eq]
    refine ⟨fun index => ?_, ?_, ?_⟩
    · rw [latest index]
      by_cases later : index ∈ indices
      · simp [later]
      · by_cases same : index = first
        · simp [same]
        · simp [later, same]
    · rw [merged, List.toFinset_cons, Finset.biUnion_insert, Finset.union_assoc]
    · rw [anyOpinion, Bool.or_eq_true, or_assoc]
      simp

theorem detect_eq :
    (detect latest verdicts).latest = remember latest verdicts ∧
      (detect latest verdicts).merged = merge (remember latest verdicts) ∧
      ((detect latest verdicts).anyOpinion = true ↔
        ∃ index, (remember latest verdicts index).isSome) := by
  obtain ⟨slots, merged, anyOpinion⟩ :=
    foldl_visit verdicts (List.finRange n) { latest := latest }
  refine ⟨?_, ?_, ?_⟩
  · funext index
    rw [detect, slots index, if_pos (List.mem_finRange index)]
  · rw [detect, merged, List.toFinset_finRange, Finset.empty_union, merge]
  · rw [detect, anyOpinion]
    simp

def mostRecent (rounds : List (Verdicts n)) : Verdicts n :=
  fun index => (rounds.filterMap (· index)).getLast?

variable (rounds : List (Verdicts n))

theorem mostRecent_concat (verdicts : Verdicts n) :
    mostRecent (rounds ++ [verdicts]) = remember (mostRecent rounds) verdicts := by
  funext index
  unfold mostRecent remember
  cases answer : verdicts index with
  | some verdict | none => simp [answer]

theorem isSome_mostRecent_iff (index : Fin n) :
    (mostRecent rounds index).isSome ↔ ∃ verdicts ∈ rounds, verdicts index ≠ none := by
  rw [mostRecent, List.getLast?_isSome, Ne, List.filterMap_eq_nil_iff]
  simp [Ne]

namespace GenericMethodsProcessor

/-- The set published last is the union of the slots, if any slot is filled. -/
structure Settled (processor : GenericMethodsProcessor n) : Prop where
  published : processor.published =
    if ∃ index, (processor.latest index).isSome then some (merge processor.latest) else none
  last : processor.publications.getLast? = processor.published
  changes : processor.publications.IsChain (· ≠ ·)

theorem settled_detectAndPublish (processor : GenericMethodsProcessor n) (verdicts : Verdicts n)
    (settled : processor.Settled) : (processor.detectAndPublish verdicts).Settled := by
  obtain ⟨slots, merged, anyOpinion⟩ := detect_eq processor.latest verdicts
  unfold detectAndPublish
  dsimp only
  rw [slots, merged]
  split_ifs with silent same
  · have unknown : ¬ ∃ index, (remember processor.latest verdicts index).isSome := by
      rw [← anyOpinion, silent]
      exact Bool.false_ne_true
    -- a slot that was filled before would still be
    have before : ¬ ∃ index, (processor.latest index).isSome := by
      rintro ⟨index, filled⟩
      exact unknown ⟨index, by simp [remember, filled]⟩
    refine ⟨?_, settled.last, settled.changes⟩
    rw [if_neg unknown, settled.published, if_neg before]
  · rw [Bool.not_eq_false, anyOpinion] at silent
    refine ⟨?_, settled.last, settled.changes⟩
    rw [if_pos silent, same]
  · rw [Bool.not_eq_false, anyOpinion] at silent
    refine ⟨?_, ?_, ?_⟩
    · rw [if_pos silent]
    · rw [List.getLast?_concat]
    · refine List.isChain_append.mpr ⟨settled.changes, List.isChain_singleton _, ?_⟩
      intro previous isLast first isFirst
      rw [settled.last] at isLast
      obtain rfl : merge (remember processor.latest verdicts) = first := by simpa using isFirst
      rintro rfl
      exact same isLast

theorem latest_run :
    (run detectAndPublish ({} : GenericMethodsProcessor n) rounds).latest = mostRecent rounds := by
  induction rounds using List.reverseRecOn with
  | nil => rfl
  | append_singleton rounds verdicts ih =>
    have kept (processor : GenericMethodsProcessor n) :
        (processor.detectAndPublish verdicts).latest = remember processor.latest verdicts := by
      rw [← (detect_eq processor.latest verdicts).1]
      unfold detectAndPublish
      dsimp only
      split_ifs <;> rfl
    rw [run_append, run_cons, run_nil, kept, ih, mostRecent_concat]

/-- After any rounds nothing was published if no detector has answered, otherwise the last
published set is the union of each detector's most recent answer.  No set is published twice in
a row. -/
theorem publications_of_rounds (rounds : List (Verdicts n)) :
    let processor := run detectAndPublish ({} : GenericMethodsProcessor n) rounds
    ((∀ verdicts ∈ rounds, ∀ index, verdicts index = none) → processor.publications = []) ∧
      ((∃ verdicts ∈ rounds, ∃ index, verdicts index ≠ none) →
        processor.publications.getLast? = some (merge (mostRecent rounds))) ∧
      processor.publications.IsChain (· ≠ ·) := by
  have settled : (run detectAndPublish ({} : GenericMethodsProcessor n) rounds).Settled :=
    run_induction settled_detectAndPublish ⟨by simp, rfl, List.isChain_nil⟩ rounds
  have last := settled.last.trans settled.published
  rw [latest_run] at last
  refine ⟨fun silent => ?_, fun answered => ?_, settled.changes⟩
  · have unknown : ¬ ∃ index, (mostRecent rounds index).isSome := by
      rintro ⟨index, filled⟩
      obtain ⟨verdicts, listed, answer⟩ := (isSome_mostRecent_iff rounds index).mp filled
      exact answer (silent verdicts listed index)
    rw [if_neg unknown, List.getLast?_eq_none_iff] at last
    exact last
  · obtain ⟨verdicts, listed, index, answer⟩ := answered
    have filled := (isSome_mostRecent_iff rounds index).mpr ⟨verdicts, listed, answer⟩
    rw [last, if_pos ⟨index, filled⟩]

end GenericMethodsProcessor

end Nodecore.Upstreams
