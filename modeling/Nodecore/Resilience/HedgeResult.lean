/-
# The result of a parallel hedge

The results of the attempts are followed from the inner calls to the place where
they are put down and to the last attempt that picks one.  The one it picks is of
the best class if all were put down when it looked for them.
-/

import Nodecore.Resilience.HedgeRuns

namespace Nodecore.Resilience

open Lib

variable {ρ : Type*} {policy : HedgePolicy ρ}

/-- A result as an attempt puts it down. -/
def HedgePolicy.entry (policy : HedgePolicy ρ) (j : Fin (policy.maxHedges + 1))
    (outcome : Outcome ρ) : ExecResult (policy.maxHedges + 1) ρ :=
  ⟨outcome.result, j, policy.resultTypeFunc outcome.result⟩

namespace Phase

variable {n : ℕ}

def fresh : Phase n ρ → Bool
  | unlaunched => true
  | running => true
  | _ => false

def outcome : Phase n ρ → Option (Outcome ρ)
  | returned outcome => some outcome
  | counted outcome _ => some outcome
  | storing outcome _ => some outcome
  | _ => none

@[simp]
theorem fresh_launch (phase : Phase n ρ) : phase.launch.fresh = phase.fresh := by
  cases phase <;> rfl

@[simp]
theorem outcome_launch (phase : Phase n ρ) : phase.launch.outcome = phase.outcome := by
  cases phase <;> rfl

end Phase

/-- What is held or put down is what the inner calls returned. -/
structure Recorded (system : policy.System) : Prop where
  fresh : ∀ i, (system.phase i).fresh = true → system.outcome i = none
  held : ∀ i, ∀ outcome ∈ (system.phase i).outcome, system.outcome i = some outcome
  stored : ∀ j, ∀ result ∈ system.possibleResults j,
    ∃ outcome, system.outcome j = some outcome ∧ result = policy.entry j outcome

theorem recorded_start : Recorded policy.start where
  fresh _ _ := rfl
  held i outcome isHeld := by
    simp only [HedgePolicy.start] at isHeld
    split at isHeld <;> cases isHeld
  stored j result isStored := by
    cases isStored

variable {system : policy.System} {phase : Phase (policy.maxHedges + 1) ρ}
  {i : Fin (policy.maxHedges + 1)} {j : Fin (policy.maxHedges + 1)}

section

variable (recorded : Recorded system)
include recorded

theorem Recorded.enter {next : policy.System}
    (moved : next.phase = Function.update system.phase i phase)
    (same : next.outcome = system.outcome) (old : phase.fresh = false)
    (held : ∀ outcome ∈ phase.outcome, system.outcome i = some outcome)
    (stored : ∀ j, ∀ result ∈ next.possibleResults j,
      ∃ outcome, system.outcome j = some outcome ∧ result = policy.entry j outcome) :
    Recorded next where
  fresh := by
    rw [moved, same]
    refine (Function.forall_update_iff system.phase
      (p := fun j phase => phase.fresh = true → system.outcome j = none)).mpr
      ⟨fun isFresh => ?_, fun j _ => recorded.fresh j⟩
    rw [old] at isFresh
    cases isFresh
  held := by
    rw [moved, same]
    exact (Function.forall_update_iff system.phase
      (p := fun j phase => ∀ outcome ∈ phase.outcome, system.outcome j = some outcome)).mpr
      ⟨held, fun j _ => recorded.held j⟩
  stored := by
    rw [same]
    exact stored

theorem Recorded.advance (i : Fin (policy.maxHedges + 1)) : Recorded (policy.advance system i) := by
  have held := recorded.held i
  unfold HedgePolicy.advance
  cases isPhase : system.phase i with
  | unlaunched | running | crashed | finished => exact recorded
  | returned outcome =>
    rw [isPhase] at held
    exact recorded.enter rfl rfl rfl held recorded.stored
  | counted outcome isFinalResult =>
    rw [isPhase] at held
    simp only
    split
    · exact recorded.enter rfl rfl rfl (by simp [Phase.outcome]) recorded.stored
    · exact recorded.enter rfl rfl rfl held recorded.stored
  | storing outcome isFinalResult =>
    rw [isPhase] at held
    refine recorded.enter rfl rfl ?_ ?_ ?_
    · cases isFinalResult <;> rfl
    · cases isFinalResult <;> simp [Phase.outcome]
    · intro j result isStored
      by_cases isHere : j = i
      · subst isHere
        simp only [Function.update_self, Option.mem_some_iff] at isStored
        exact ⟨outcome, held outcome rfl, isStored.symm⟩
      · simp only [Function.update_of_ne isHere] at isStored
        exact recorded.stored j result isStored
  | ranging looked found | sending result =>
    simp only
    split
    · exact recorded.enter rfl rfl rfl (by simp [Phase.outcome]) recorded.stored
    · exact recorded
  | picked finalResult =>
    simp only
    split
    · exact recorded.enter rfl rfl rfl (by simp [Phase.outcome]) recorded.stored
    · refine recorded.enter rfl rfl ?_ ?_ recorded.stored
      · cases finalResult <;> rfl
      · cases finalResult <;> simp [Phase.outcome]

theorem Recorded.innerFn (i : Fin (policy.maxHedges + 1)) (outcome : Outcome ρ) :
    Recorded (policy.innerFn system i outcome) := by
  unfold HedgePolicy.innerFn
  split
  · rename_i isRunning
    have unset : system.outcome i = none := recorded.fresh i (by rw [isRunning]; rfl)
    refine ⟨?_, ?_, ?_⟩
    · intro j isFresh
      by_cases isHere : j = i
      · subst isHere
        simp [HedgePolicy.enter, Phase.fresh] at isFresh
      · simp only [HedgePolicy.enter, Function.update_of_ne isHere] at isFresh ⊢
        exact recorded.fresh j isFresh
    · intro j held isHeld
      by_cases isHere : j = i
      · subst isHere
        simpa [HedgePolicy.enter, Phase.outcome] using isHeld
      · simp only [HedgePolicy.enter, Function.update_of_ne isHere] at isHeld ⊢
        exact recorded.held j held isHeld
    · intro j result isStored
      obtain ⟨stored, isOutcome, same⟩ := recorded.stored j result isStored
      have other : j ≠ i := by
        rintro rfl
        cases unset.symm.trans isOutcome
      exact ⟨stored, by simpa only [Function.update_of_ne other] using isOutcome, same⟩
  · exact recorded

theorem Recorded.step (event : policy.Event) : Recorded (policy.step system event) := by
  cases event with
  | timer =>
    simp only [HedgePolicy.step, HedgePolicy.timer]
    split
    · refine ⟨fun i isFresh => ?_, fun i outcome isHeld => ?_, recorded.stored⟩
      · exact recorded.fresh i (by simpa using isFresh)
      · exact recorded.held i outcome (by simpa using isHeld)
    · exact recorded
  | receive cancelResult =>
    simp only [HedgePolicy.step, HedgePolicy.receive]
    split
    · exact { recorded with }
    · exact recorded
  | innerFn i outcome => exact recorded.innerFn i outcome
  | advance i => exact recorded.advance i
  | look i j =>
    simp only [HedgePolicy.step, HedgePolicy.look]
    split
    · split
      · exact recorded
      · exact recorded.enter rfl rfl rfl (by simp [Phase.outcome]) recorded.stored
    · exact recorded

theorem outcome_step (event : policy.Event) {outcome : Outcome ρ}
    (isOutcome : system.outcome j = some outcome) :
    (policy.step system event).outcome j = some outcome := by
  cases event with
  | timer =>
    simp only [HedgePolicy.step, HedgePolicy.timer]
    split <;> exact isOutcome
  | receive cancelResult =>
    simp only [HedgePolicy.step, HedgePolicy.receive]
    split <;> exact isOutcome
  | look i k =>
    simp only [HedgePolicy.step, HedgePolicy.look]
    repeat' split
    all_goals exact isOutcome
  | advance i =>
    simp only [HedgePolicy.step, HedgePolicy.advance]
    repeat' split
    all_goals exact isOutcome
  | innerFn i returned =>
    simp only [HedgePolicy.step, HedgePolicy.innerFn]
    split
    · rename_i isRunning
      have other : j ≠ i := by
        rintro rfl
        cases (recorded.fresh j (by rw [isRunning]; rfl)).symm.trans isOutcome
      simpa only [Function.update_of_ne other] using isOutcome
    · exact isOutcome

end

/-- All attempts have returned, and the result is that of one of them and of the best class
among them. -/
def Best (policy : HedgePolicy ρ) (outcome : Fin (policy.maxHedges + 1) → Option (Outcome ρ))
    (result : ExecResult (policy.maxHedges + 1) ρ) : Prop :=
  (∃ own, outcome result.index = some own ∧ result = policy.entry result.index own) ∧
    ∀ j, ∃ other, outcome j = some other ∧
      result.resultType.toNat ≤ (policy.resultTypeFunc other.result).toNat

/-- No attempt has a result that ends the matter by itself. -/
def Poor (system : policy.System) : Prop :=
  ∀ i, ∀ outcome ∈ system.outcome i, policy.endsMatter i outcome = false

/-- What the last attempt has found, picked or hands over. -/
def Phase.Judged (policy : HedgePolicy ρ)
    (outcome : Fin (policy.maxHedges + 1) → Option (Outcome ρ)) :
    Phase (policy.maxHedges + 1) ρ → Prop
  | ranging looked found =>
    (∀ result ∈ found, ∃ own, outcome result.index = some own ∧
      result = policy.entry result.index own) ∧
    ∀ j ∈ looked, ∃ other, outcome j = some other ∧ policy.entry j other ∈ found
  | picked finalResult => ∀ result ∈ finalResult, Best policy outcome result
  | sending result => Best policy outcome result
  | _ => True

structure Judged (system : policy.System) : Prop where
  phases : ∀ i, (system.phase i).Judged policy system.outcome
  sent : ∀ result ∈ system.sent, Best policy system.outcome result

theorem judged_start : Judged policy.start where
  phases i := by
    simp only [HedgePolicy.start]
    split <;> trivial
  sent result isSent := by
    cases isSent

variable {result : ExecResult (policy.maxHedges + 1) ρ}

section Later

variable {outcome later : Fin (policy.maxHedges + 1) → Option (Outcome ρ)}

theorem Best.mono (best : Best policy outcome result)
    (grows : ∀ j returned, outcome j = some returned → later j = some returned) :
    Best policy later result := by
  obtain ⟨⟨own, isOwn, same⟩, least⟩ := best
  refine ⟨⟨own, grows _ own isOwn, same⟩, fun j => ?_⟩
  obtain ⟨other, isOther, le⟩ := least j
  exact ⟨other, grows j other isOther, le⟩

theorem Phase.Judged.mono (judged : phase.Judged policy outcome)
    (grows : ∀ j returned, outcome j = some returned → later j = some returned) :
    phase.Judged policy later := by
  cases phase with
  | ranging looked found =>
    refine ⟨fun result isFound => ?_, fun j isLooked => ?_⟩
    · obtain ⟨own, isOwn, same⟩ := judged.1 result isFound
      exact ⟨own, grows _ own isOwn, same⟩
    · obtain ⟨other, isOther, listed⟩ := judged.2 j isLooked
      exact ⟨other, grows j other isOther, listed⟩
  | picked finalResult => exact fun result isPicked => (judged result isPicked).mono grows
  | sending result => exact Best.mono judged grows
  | _ => trivial

theorem Phase.Judged.launch (judged : phase.Judged policy outcome) :
    phase.launch.Judged policy outcome := by
  cases phase <;> exact judged

end Later

theorem Judged.enter {next : policy.System} (judged : Judged system)
    (moved : next.phase = Function.update system.phase i phase)
    (grows : ∀ j returned, system.outcome j = some returned → next.outcome j = some returned)
    (sent : ∀ result ∈ next.sent, result ∈ system.sent ∨ Best policy next.outcome result)
    (here : phase.Judged policy next.outcome) : Judged next where
  phases := by
    rw [moved]
    exact (Function.forall_update_iff system.phase
      (p := fun _ phase => phase.Judged policy next.outcome)).mpr
      ⟨here, fun j _ => (judged.phases j).mono grows⟩
  sent result isSent := by
    rcases sent result isSent with before | best
    · exact (judged.sent result before).mono grows
    · exact best

theorem best_of_mem_argmin {outcome : Fin (policy.maxHedges + 1) → Option (Outcome ρ)}
    {found : List (ExecResult (policy.maxHedges + 1) ρ)}
    (judged : (Phase.ranging Finset.univ found).Judged policy outcome)
    (isPicked : result ∈ found.argmin fun result => result.resultType.toNat) :
    Best policy outcome result := by
  refine ⟨judged.1 result (List.argmin_mem isPicked), fun j => ?_⟩
  obtain ⟨other, isOther, listed⟩ := judged.2 j (Finset.mem_univ j)
  have least : result.resultType.toNat ≤ (policy.entry j other).resultType.toNat :=
    List.le_of_mem_argmin (f := fun result : ExecResult (policy.maxHedges + 1) ρ =>
      result.resultType.toNat) listed isPicked
  exact ⟨other, isOther, least⟩

theorem Judged.advance (recorded : Recorded system) (poor : Poor system) (judged : Judged system)
    (i : Fin (policy.maxHedges + 1)) : Judged (policy.advance system i) := by
  have here := judged.phases i
  have held := recorded.held i
  unfold HedgePolicy.advance
  cases isPhase : system.phase i with
  | unlaunched | running | crashed | finished => exact judged
  | returned outcome =>
    exact judged.enter rfl (fun _ _ same => same) (fun _ => .inl) trivial
  | counted outcome isFinalResult =>
    rw [isPhase] at held
    have lost : policy.endsMatter i outcome = false := poor i outcome (held outcome rfl)
    simp only [lost, Bool.false_and, Bool.false_eq_true, if_false]
    exact judged.enter rfl (fun _ _ same => same) (fun _ => .inl) trivial
  | storing outcome isFinalResult =>
    refine judged.enter rfl (fun _ _ same => same) (fun _ => .inl) ?_
    cases isFinalResult with
    | true => exact ⟨by simp, by simp⟩
    | false => trivial
  | ranging looked found =>
    rw [isPhase] at here
    simp only
    split
    · rename_i all
      subst all
      exact judged.enter rfl (fun _ _ same => same) (fun _ => .inl)
        fun result isPicked => best_of_mem_argmin here isPicked
    · exact judged
  | picked finalResult =>
    rw [isPhase] at here
    simp only
    split
    · exact judged.enter rfl (fun _ _ same => same) (fun _ => .inl) trivial
    · refine judged.enter rfl (fun _ _ same => same) (fun _ => .inl) ?_
      cases finalResult with
      | none => trivial
      | some result => exact here result rfl
  | sending result =>
    rw [isPhase] at here
    simp only
    split
    · refine judged.enter rfl (fun _ _ same => same) (fun sent isSent => ?_) trivial
      rcases List.mem_append.mp isSent with before | now
      · exact .inl before
      · rw [List.mem_singleton.mp now]
        exact .inr here
    · exact judged

/-- The last attempt looks for results that are put down already. -/
def looksFind (system : policy.System) : policy.Event → Bool
  | .look i j =>
    match system.phase i with
    | .ranging looked _ => j ∈ looked || (system.possibleResults j).isSome
    | _ => true
  | _ => true

theorem Judged.look (recorded : Recorded system) (judged : Judged system)
    (finds : looksFind system (.look i j) = true) : Judged (policy.look system i j) := by
  have here := judged.phases i
  unfold HedgePolicy.look
  cases isPhase : system.phase i with
  | ranging looked found =>
    simp only
    split
    · exact judged
    · rename_i unlooked
      simp only [looksFind, isPhase, unlooked, decide_false, Bool.false_or] at finds
      obtain ⟨result, isStored⟩ := Option.isSome_iff_exists.mp finds
      obtain ⟨own, isOwn, rfl⟩ := recorded.stored j result isStored
      rw [isPhase] at here
      refine judged.enter rfl (fun _ _ same => same) (fun _ => .inl) ⟨?_, ?_⟩
      · intro seen isSeen
        rw [isStored, Option.toList_some] at isSeen
        rcases List.mem_append.mp isSeen with before | now
        · exact here.1 seen before
        · rw [List.mem_singleton.mp now]
          exact ⟨own, isOwn, rfl⟩
      · intro k isLooked
        rw [isStored, Option.toList_some]
        rcases Finset.mem_insert.mp isLooked with rfl | before
        · exact ⟨own, isOwn, List.mem_append_right _ (List.mem_singleton_self _)⟩
        · obtain ⟨other, isOther, listed⟩ := here.2 k before
          exact ⟨other, isOther, List.mem_append_left _ listed⟩
  | _ => exact judged

theorem Judged.step (recorded : Recorded system) (poor : Poor system) (judged : Judged system)
    {event : policy.Event} (finds : looksFind system event = true) :
    Judged (policy.step system event) := by
  cases event with
  | timer =>
    simp only [HedgePolicy.step, HedgePolicy.timer]
    split
    · exact ⟨fun i => (judged.phases i).launch, judged.sent⟩
    · exact judged
  | receive cancelResult =>
    simp only [HedgePolicy.step, HedgePolicy.receive]
    split
    · exact ⟨judged.phases, judged.sent⟩
    · exact judged
  | innerFn i outcome =>
    have grows (j : Fin (policy.maxHedges + 1)) (returned : Outcome ρ)
        (isReturned : system.outcome j = some returned) :=
      outcome_step recorded (.innerFn i outcome) isReturned
    simp only [HedgePolicy.step, HedgePolicy.innerFn] at grows ⊢
    cases isPhase : system.phase i with
    | running =>
      simp only [isPhase] at grows
      exact judged.enter rfl grows (fun _ => .inl) trivial
    | _ => exact judged
  | advance i => exact judged.advance recorded poor i
  | look i j => exact judged.look recorded finds

/-- What holds along every run in which the last attempt finds what it looks for. -/
def Followed (system : policy.System) : Prop :=
  Recorded system ∧ (Poor system → Judged system)

theorem followed_start : Followed policy.start := ⟨recorded_start, fun _ => judged_start⟩

theorem Followed.step {event : policy.Event} (followed : Followed system)
    (finds : looksFind system event = true) : Followed (policy.step system event) := by
  refine ⟨followed.1.step event, fun poor => ?_⟩
  -- What was returned before the step is still there after it.
  have before : Poor system := fun i outcome isOutcome =>
    poor i outcome (outcome_step followed.1 event isOutcome)
  exact (followed.2 before).step followed.1 before finds

/-- In every interleaving at most one result is handed over, no run goes on forever, and when
no step is left one result was handed over and the caller has returned with it.  If no result
ends the matter by itself, it is one of the best class, provided that the last attempt looked
for the others' results when they were put down. -/
theorem one_result_of_best_class (policy : HedgePolicy ρ) (small : policy.maxHedges + 1 < 2 ^ 31)
    (events : List policy.Event) :
    let system := run policy.step policy.start events
    system.sent.length ≤ 1 ∧
      (Quiet system → ∃ result cancelResult, system.sent = [result] ∧
        system.caller = .returned result cancelResult) ∧
      (WellFounded fun later earlier : policy.System =>
        ∃ event, later = policy.step earlier event ∧ later ≠ earlier) ∧
      (EachStep policy.step (fun system event => looksFind system event = true) policy.start
          events → Poor system → ∀ result ∈ system.sent, Best policy system.outcome result) := by
  have sound : Sound (run policy.step policy.start events) :=
    run_induction (fun system event sound => sound.step small event) sound_start events
  refine ⟨sound.length_sent_le, sound.returned_of_quiet, ?_, ?_⟩
  · have nearer : ∀ later earlier : policy.System,
        (∃ event, later = policy.step earlier event ∧ later ≠ earlier) →
          remaining later < remaining earlier := by
      rintro _ earlier ⟨event, rfl, moved⟩
      exact (remaining_step earlier event).resolve_left moved
    exact Subrelation.wf (fun {later earlier} => nearer later earlier)
      (InvImage.wf remaining wellFounded_lt)
  · intro finds poor
    have followed : Followed (run policy.step policy.start events) :=
      run_induction_of_eachStep (fun system event followed => followed.step) followed_start finds
    exact (followed.2 poor).sent

namespace TwoAttempts

def oneHedge : HedgePolicy PolicyResult := createFlowParallelHedgePolicy 1

def upstreamError : Outcome PolicyResult :=
  ⟨⟨some (.genericUpstreamResponse true), none⟩, false⟩

def totalFailure : Outcome PolicyResult := ⟨⟨some (.replyError .totalFailure), none⟩, false⟩

/-- The first attempt comes back last and picks after the hedge has put its result down. -/
def inTurn : List oneHedge.Event :=
  [.timer, .innerFn 1 upstreamError, .advance 1, .advance 1, .advance 1, .innerFn 0 totalFailure,
    .advance 0, .advance 0, .advance 0, .look 0 0, .look 0 1, .advance 0, .advance 0, .advance 0,
    .receive none]

/-- The hedge has counted itself only when the first attempt picks. -/
def overtaken : List oneHedge.Event :=
  [.timer, .innerFn 1 upstreamError, .advance 1, .innerFn 0 totalFailure, .advance 0, .advance 0,
    .advance 0, .look 0 0, .look 0 1, .advance 0, .advance 0, .advance 0, .receive none,
    .advance 1, .advance 1]

end TwoAttempts

theorem upstream_error_returned :
    (run TwoAttempts.oneHedge.step TwoAttempts.oneHedge.start TwoAttempts.inTurn).sent =
        [⟨TwoAttempts.upstreamError.result, 1, .resultOkWithError⟩] ∧
      Best TwoAttempts.oneHedge
        (run TwoAttempts.oneHedge.step TwoAttempts.oneHedge.start TwoAttempts.inTurn).outcome
        ⟨TwoAttempts.upstreamError.result, 1, .resultOkWithError⟩ := by
  have sent : (run TwoAttempts.oneHedge.step TwoAttempts.oneHedge.start TwoAttempts.inTurn).sent =
      [⟨TwoAttempts.upstreamError.result, 1, .resultOkWithError⟩] := by decide +kernel
  have poor : Poor (run TwoAttempts.oneHedge.step TwoAttempts.oneHedge.start TwoAttempts.inTurn) := by
    unfold Poor
    decide +kernel
  refine ⟨sent, (one_result_of_best_class TwoAttempts.oneHedge (by decide)
    TwoAttempts.inTurn).2.2.2 (by decide +kernel) poor _ ?_⟩
  rw [sent]
  exact List.mem_singleton_self _

/-- Both attempts fail, and no step is left.  The total failure is returned although the other
attempt got an answer with an error. -/
theorem worse_class_returned :
    let system := run TwoAttempts.oneHedge.step TwoAttempts.oneHedge.start TwoAttempts.overtaken;
    system.outcome 0 = some TwoAttempts.totalFailure ∧
      system.outcome 1 = some TwoAttempts.upstreamError ∧
      (∀ i, system.phase i = .finished) ∧
      system.caller = .returned ⟨TwoAttempts.totalFailure.result, 0, .resultTotalFailure⟩ none ∧
      (getResponseType TwoAttempts.upstreamError.result).toNat <
        (getResponseType TwoAttempts.totalFailure.result).toNat := by
  decide +kernel

end Nodecore.Resilience
