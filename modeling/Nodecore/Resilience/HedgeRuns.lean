/-
# Runs of a parallel hedge

Whoever sets the flag has the one result to hand over, and the attempt that counts
last sets it unless somebody has.  From this it follows in every interleaving that
one result is handed over and returned.
-/

import Mathlib.Algebra.Order.BigOperators.Group.Finset
import Nodecore.Resilience.ParallelHedge

namespace Nodecore.Resilience

open Lib

variable {ρ : Type*}

namespace Phase

variable {n : ℕ} {phase : Phase n ρ}

/-- One for an attempt that has set the flag and has not handed its result over. -/
def token : Phase n ρ → ℕ
  | sending _ => 1
  | crashed => 1
  | _ => 0

def passed : Phase n ρ → ℕ
  | unlaunched => 0
  | running => 0
  | returned _ => 0
  | _ => 1

/-- The attempt is the last one, on its way to the flag. -/
def Deciding : Phase n ρ → Prop
  | counted _ isFinalResult => isFinalResult = true
  | storing _ isFinalResult => isFinalResult = true
  | ranging _ _ => True
  | picked _ => True
  | _ => False

/-- An attempt that looks for results has put down its own, so it finds one. -/
def Safe (possibleResults : Fin n → Option (ExecResult n ρ)) (i : Fin n) : Phase n ρ → Prop
  | ranging looked found => (possibleResults i).isSome ∧ (i ∈ looked → found ≠ [])
  | picked finalResult => finalResult.isSome
  | crashed => False
  | _ => True

theorem Safe.mono {possibleResults later : Fin n → Option (ExecResult n ρ)} {i : Fin n}
    (safe : phase.Safe possibleResults i)
    (stores : ∀ j, (possibleResults j).isSome → (later j).isSome) : phase.Safe later i := by
  cases phase with
  | ranging looked found => exact ⟨stores i safe.1, safe.2⟩
  | _ => exact safe

@[simp]
theorem token_launch (phase : Phase n ρ) : phase.launch.token = phase.token := by
  cases phase <;> rfl

@[simp]
theorem passed_launch (phase : Phase n ρ) : phase.launch.passed = phase.passed := by
  cases phase <;> rfl

theorem launch_ne_unlaunched (phase : Phase n ρ) : phase.launch ≠ .unlaunched := by
  cases phase <;> simp [launch]

theorem deciding_launch (deciding : phase.Deciding) : phase.launch.Deciding := by
  cases phase <;> exact deciding

theorem safe_launch {possibleResults : Fin n → Option (ExecResult n ρ)} {i : Fin n}
    (safe : phase.Safe possibleResults i) : phase.launch.Safe possibleResults i := by
  cases phase <;> exact safe

end Phase

def Caller.received {n : ℕ} : Caller n ρ → List (ExecResult n ρ)
  | waiting _ => []
  | returned result _ => [result]

variable {policy : HedgePolicy ρ} {system : policy.System}

structure Sound (system : policy.System) : Prop where
  token : ∑ i, (system.phase i).token + system.sent.length = system.resultSent.toNat
  counts : ∑ i, (system.phase i).passed = system.resultCount
  finals : system.resultCount = policy.maxHedges + 1 →
    system.resultSent = true ∨ ∃ i, (system.phase i).Deciding
  channel : system.sent = system.caller.received ++ system.resultChan.toList
  launched : system.caller = .waiting true → ∀ i, system.phase i ≠ .unlaunched
  safe : ∀ i, (system.phase i).Safe system.possibleResults i

theorem sound_start : Sound policy.start where
  token := by
    refine (Nat.add_zero _).trans (Finset.sum_eq_zero fun i _ => ?_)
    simp only [HedgePolicy.start]
    split <;> rfl
  counts := by
    refine Finset.sum_eq_zero fun i _ => ?_
    simp only [HedgePolicy.start]
    split <;> rfl
  finals counted := by
    simp [HedgePolicy.start] at counted
  channel := rfl
  launched isFired := by
    simp [HedgePolicy.start] at isFired
  safe i := by
    simp only [HedgePolicy.start]
    split <;> trivial

variable {old phase : Phase (policy.maxHedges + 1) ρ}

section

variable (sound : Sound system)
include sound

theorem Sound.move {next : policy.System} {i : Fin (policy.maxHedges + 1)}
    (isPhase : system.phase i = old) (moved : next.phase = Function.update system.phase i phase)
    (caller : next.caller = system.caller)
    (token : phase.token + next.sent.length + system.resultSent.toNat =
      old.token + system.sent.length + next.resultSent.toNat)
    (counts : next.resultCount + old.passed = system.resultCount + phase.passed)
    (finals : next.resultCount = policy.maxHedges + 1 → next.resultSent = true ∨ phase.Deciding ∨
      system.resultCount = policy.maxHedges + 1 ∧ ¬ old.Deciding ∧
        next.resultSent = system.resultSent)
    (channel : next.sent = next.caller.received ++ next.resultChan.toList)
    (launched : phase ≠ .unlaunched)
    (stores : ∀ j, (system.possibleResults j).isSome → (next.possibleResults j).isSome)
    (safe : phase.Safe next.possibleResults i) : Sound next where
  token := by
    have total := sum_update_add Phase.token system.phase i phase
    have before := sound.token
    rw [isPhase] at total
    rw [moved]
    omega
  counts := by
    have total := sum_update_add Phase.passed system.phase i phase
    have before := sound.counts
    rw [isPhase] at total
    rw [moved]
    omega
  finals all := by
    rcases finals all with isSent | deciding | ⟨counted, undecided, same⟩
    · exact .inl isSent
    · refine .inr ⟨i, ?_⟩
      rw [moved, Function.update_self]
      exact deciding
    · rcases sound.finals counted with isSent | ⟨j, deciding⟩
      · exact .inl (same.trans isSent)
      · have other : j ≠ i := by
          rintro rfl
          exact undecided (isPhase ▸ deciding)
        refine .inr ⟨j, ?_⟩
        rw [moved, Function.update_of_ne other]
        exact deciding
  channel := channel
  launched isFired := by
    rw [moved]
    exact (Function.forall_update_iff system.phase (p := fun _ phase => phase ≠ .unlaunched)).mpr
      ⟨launched, fun j _ => sound.launched (caller ▸ isFired) j⟩
  safe := by
    rw [moved]
    exact (Function.forall_update_iff system.phase
      (p := fun j phase => phase.Safe next.possibleResults j)).mpr
      ⟨safe, fun j _ => (sound.safe j).mono stores⟩

variable {i : Fin (policy.maxHedges + 1)}

theorem Sound.enter (isPhase : system.phase i = old) (phase : Phase (policy.maxHedges + 1) ρ)
    (token : phase.token = old.token) (passed : phase.passed = old.passed)
    (finals : old.Deciding → phase.Deciding ∨ system.resultSent = true)
    (launched : phase ≠ .unlaunched)
    {stored : Fin (policy.maxHedges + 1) → Option (ExecResult (policy.maxHedges + 1) ρ)}
    (stores : ∀ j, (system.possibleResults j).isSome → (stored j).isSome)
    (safe : phase.Safe stored i) {outcome : Fin (policy.maxHedges + 1) → Option (Outcome ρ)} :
    Sound { policy.enter system i phase with possibleResults := stored, outcome := outcome } := by
  refine sound.move isPhase rfl rfl (by rw [token]; rfl) (by rw [passed]; rfl) ?_ sound.channel
    launched stores safe
  intro counted
  by_cases deciding : old.Deciding
  · rcases finals deciding with decides | isSent
    · exact .inr (.inl decides)
    · exact .inl isSent
  · exact .inr (.inr ⟨counted, deciding, rfl⟩)

theorem Sound.timer : Sound (policy.timer system) := by
  unfold HedgePolicy.timer
  split
  · rename_i isWaiting
    refine ⟨?_, ?_, ?_, ?_, ?_, ?_⟩
    · simpa using sound.token
    · simpa using sound.counts
    · intro counted
      rcases sound.finals counted with isSent | ⟨i, deciding⟩
      · exact .inl isSent
      · exact .inr ⟨i, Phase.deciding_launch deciding⟩
    · have taken := sound.channel
      rw [isWaiting] at taken
      exact taken
    · intro _ i
      exact Phase.launch_ne_unlaunched _
    · intro i
      exact Phase.safe_launch (sound.safe i)
  · exact sound

theorem Sound.receive (cancelResult : Option ρ) : Sound (policy.receive system cancelResult) := by
  unfold HedgePolicy.receive
  split
  · rename_i isWaiting held
    refine ⟨sound.token, sound.counts, sound.finals, ?_, ?_, sound.safe⟩
    · have taken := sound.channel
      rw [isWaiting, held] at taken
      exact taken
    · intro isFired
      cases isFired
  · exact sound

theorem Sound.innerFn (i : Fin (policy.maxHedges + 1)) (outcome : Outcome ρ) :
    Sound (policy.innerFn system i outcome) := by
  unfold HedgePolicy.innerFn
  split
  · rename_i isRunning
    exact sound.enter isRunning (.returned outcome) rfl rfl False.elim (by simp)
      (fun _ stored => stored) trivial
  · exact sound

theorem Sound.look (i j : Fin (policy.maxHedges + 1)) : Sound (policy.look system i j) := by
  unfold HedgePolicy.look
  split
  · rename_i looked found isRanging
    have safe := sound.safe i
    rw [isRanging] at safe
    split
    · exact sound
    · refine sound.enter isRanging (.ranging (insert j looked) _) rfl rfl (fun _ => .inl trivial)
        (by simp) (fun _ stored => stored) ⟨safe.1, ?_⟩
      -- The attempt's own result is there when it looks for it.
      intro isLooked
      rcases Finset.mem_insert.mp isLooked with rfl | before
      · obtain ⟨own, isOwn⟩ := Option.isSome_iff_exists.mp safe.1
        simp [isOwn]
      · exact List.append_ne_nil_of_left_ne_nil (safe.2 before) _
  · exact sound

end

theorem Sound.advance (small : policy.maxHedges + 1 < 2 ^ 31) (sound : Sound system)
    (i : Fin (policy.maxHedges + 1)) : Sound (policy.advance system i) := by
  have safe := sound.safe i
  unfold HedgePolicy.advance
  cases isPhase : system.phase i with
  | unlaunched | running | crashed | finished => exact sound
  | returned outcome =>
    refine sound.move isPhase rfl rfl rfl rfl ?_ sound.channel (by simp) (fun _ stored => stored)
      trivial
    intro counted
    refine .inr (.inl ?_)
    simp only at counted
    simp [Phase.Deciding, counted, asInt32_of_lt small]
  | counted outcome isFinalResult =>
    simp only
    split
    · rename_i wins
      have unset : system.resultSent = false := by simpa using (Bool.and_eq_true_iff.mp wins).2
      refine sound.move isPhase rfl rfl ?_ rfl (fun _ => .inl rfl) sound.channel (by simp)
        (fun _ stored => stored) trivial
      simp only [unset, Phase.token, HedgePolicy.enter, Bool.toNat_true, Bool.toNat_false]
      omega
    · exact sound.enter isPhase (.storing _ _) rfl rfl .inl (by simp) (fun _ stored => stored)
        trivial
  | storing outcome isFinalResult =>
    have stores (j : Fin (policy.maxHedges + 1)) (stored : (system.possibleResults j).isSome) :
        (Function.update system.possibleResults i
          (some ⟨outcome.result, i, policy.resultTypeFunc outcome.result⟩) j).isSome := by
      by_cases same : j = i
      · subst same
        simp
      · simpa [same] using stored
    cases isFinalResult with
    | true =>
      exact sound.enter isPhase (.ranging ∅ []) rfl rfl (fun _ => .inl trivial) (by simp) stores
        ⟨by simp, by simp⟩
    | false =>
      exact sound.enter isPhase .finished rfl rfl (by simp [Phase.Deciding]) (by simp) stores trivial
  | ranging looked found =>
    simp only
    rw [isPhase] at safe
    split
    · rename_i all
      refine sound.enter isPhase (.picked _) rfl rfl (fun _ => .inl trivial) (by simp)
        (fun _ stored => stored) ?_
      have some : found ≠ [] := safe.2 (all ▸ Finset.mem_univ i)
      rw [Phase.Safe, Option.isSome_iff_ne_none]
      exact fun isNone => some (List.argmin_eq_none.mp isNone)
    · exact sound
  | picked finalResult =>
    simp only
    rw [isPhase] at safe
    split
    · rename_i isSent
      exact sound.enter isPhase .finished rfl rfl (fun _ => .inr isSent) (by simp)
        (fun _ stored => stored) trivial
    · rename_i unset
      obtain ⟨result, rfl⟩ := Option.isSome_iff_exists.mp safe
      refine sound.move isPhase rfl rfl ?_ rfl (fun _ => .inl rfl) sound.channel (by simp)
        (fun _ stored => stored) trivial
      simp only [unset, Phase.token, HedgePolicy.enter, Option.elim, Bool.toNat_true,
        Bool.toNat_false]
      omega
  | sending result =>
    simp only
    split
    · rename_i isFree
      have taken := sound.channel
      rw [isFree, Option.toList_none, List.append_nil] at taken
      refine sound.move isPhase rfl rfl ?_ rfl ?_ ?_ (by simp) (fun _ stored => stored) trivial
      · simp only [Phase.token, HedgePolicy.enter, List.length_append,
          List.length_singleton]
        omega
      · intro counted
        exact .inr (.inr ⟨counted, by simp [Phase.Deciding], rfl⟩)
      · simp [HedgePolicy.enter, taken]
    · exact sound

theorem Sound.step (small : policy.maxHedges + 1 < 2 ^ 31) (sound : Sound system)
    (event : policy.Event) : Sound (policy.step system event) := by
  cases event with
  | timer => exact sound.timer
  | receive cancelResult => exact sound.receive cancelResult
  | innerFn i outcome => exact sound.innerFn i outcome
  | advance i => exact sound.advance small i
  | look i j => exact sound.look i j

/-- No inner call is under way and no step is left. -/
def Quiet (system : policy.System) : Prop :=
  (∀ i, system.phase i ≠ .running) ∧ ∀ event, policy.step system event = system

theorem phase_eq_finished_of_quiet (sound : Sound system) (quiet : Quiet system)
    (isWaiting : system.caller = .waiting true) (i : Fin (policy.maxHedges + 1)) :
    system.phase i = .finished := by
  have stays : (policy.advance system i).phase i = system.phase i :=
    congrArg (fun system : policy.System => system.phase i) (quiet.2 (.advance i))
  have safe := sound.safe i
  unfold HedgePolicy.advance at stays
  cases isPhase : system.phase i with
  | finished => rfl
  | unlaunched => exact absurd isPhase (sound.launched isWaiting i)
  | running => exact absurd isPhase (quiet.1 i)
  | crashed =>
    rw [isPhase] at safe
    exact safe.elim
  | returned outcome => simp [isPhase, HedgePolicy.enter] at stays
  | counted outcome isFinalResult =>
    simp only [isPhase] at stays
    split at stays <;> simp [HedgePolicy.enter] at stays
  | storing outcome isFinalResult =>
    cases isFinalResult <;> simp [isPhase, HedgePolicy.enter] at stays
  | picked finalResult =>
    simp only [isPhase] at stays
    split at stays
    · simp [HedgePolicy.enter] at stays
    · cases finalResult <;> simp [HedgePolicy.enter] at stays
  | ranging looked found =>
    simp only [isPhase] at stays
    split at stays
    · simp [HedgePolicy.enter] at stays
    · rename_i notAll
      obtain ⟨j, unlooked⟩ := not_forall.mp fun all => notAll (Finset.eq_univ_iff_forall.mpr all)
      have looks : (policy.look system i j).phase i = system.phase i :=
        congrArg (fun system : policy.System => system.phase i) (quiet.2 (.look i j))
      simp [HedgePolicy.look, isPhase, unlooked, HedgePolicy.enter] at looks
  | sending result =>
    simp only [isPhase] at stays
    split at stays
    · simp [HedgePolicy.enter] at stays
    · -- A full channel holds the one result that may be handed over.
      rename_i held isHeld
      have token := sound.token
      have taken := sound.channel
      have here : (system.phase i).token ≤ ∑ j, (system.phase j).token :=
        Finset.single_le_sum (f := fun j => (system.phase j).token) (fun j _ => Nat.zero_le _)
          (Finset.mem_univ i)
      rw [isWaiting, isHeld] at taken
      rw [taken] at token
      rw [isPhase] at here
      have atMost := Bool.toNat_le system.resultSent
      simp only [Phase.token, Caller.received, Option.toList_some, List.nil_append,
        List.length_singleton] at here token
      omega

theorem Sound.length_sent_le (sound : Sound system) : system.sent.length ≤ 1 := by
  have token := sound.token
  have atMost := Bool.toNat_le system.resultSent
  omega

theorem Sound.returned_of_quiet (sound : Sound system) (quiet : Quiet system) :
    ∃ result cancelResult, system.sent = [result] ∧
      system.caller = .returned result cancelResult := by
  have taken := sound.channel
  cases isCaller : system.caller with
  | returned received cancelResult =>
    refine ⟨received, cancelResult, ?_, rfl⟩
    have one := sound.length_sent_le
    rw [isCaller] at taken
    cases isHeld : system.resultChan with
    | none =>
      rw [isHeld] at taken
      exact taken
    | some held =>
      rw [taken, isHeld] at one
      simp [Caller.received] at one
  | waiting fired =>
    have ticks := congrArg HedgeSystem.caller (quiet.2 .timer)
    cases fired with
    | false => simp [HedgePolicy.step, HedgePolicy.timer, isCaller] at ticks
    | true =>
      have finished := phase_eq_finished_of_quiet sound quiet isCaller
      have all : system.resultCount = policy.maxHedges + 1 := by
        rw [← sound.counts]
        simp [finished, Phase.passed]
      have isSent : system.resultSent = true := by
        refine (sound.finals all).resolve_right ?_
        rintro ⟨i, deciding⟩
        rw [finished i] at deciding
        exact deciding
      have token := sound.token
      simp only [finished, isSent, Phase.token, Finset.sum_const_zero, Nat.zero_add,
        Bool.toNat_true] at token
      rw [isCaller] at taken
      cases isHeld : system.resultChan with
      | none =>
        rw [taken, isHeld] at token
        simp [Caller.received] at token
      | some held =>
        have receives := congrArg HedgeSystem.caller (quiet.2 (.receive none))
        simp [HedgePolicy.step, HedgePolicy.receive, isCaller, isHeld] at receives

/-- A bound for the steps that an attempt has before it. -/
def Phase.left {n : ℕ} : Phase n ρ → ℕ
  | unlaunched => n + 8
  | running => n + 7
  | returned _ => n + 6
  | counted _ _ => n + 5
  | storing _ _ => n + 4
  | ranging looked _ => n - looked.card + 3
  | picked _ => 2
  | sending _ => 1
  | crashed => 0
  | finished => 0

def Caller.left {n : ℕ} : Caller n ρ → ℕ
  | waiting false => 2
  | waiting true => 1
  | returned _ _ => 0

def remaining (system : policy.System) : ℕ :=
  ∑ i, (system.phase i).left + system.caller.left

theorem remaining_lt_of_left_lt {next : policy.System} {i : Fin (policy.maxHedges + 1)}
    (moved : next.phase = Function.update system.phase i phase)
    (caller : next.caller = system.caller) (less : phase.left < (system.phase i).left) :
    remaining next < remaining system := by
  have total := sum_update_add Phase.left system.phase i phase
  rw [remaining, remaining, moved, caller]
  omega

theorem remaining_step (system : policy.System) (event : policy.Event) :
    policy.step system event = system ∨ remaining (policy.step system event) < remaining system := by
  cases event with
  | timer =>
    simp only [HedgePolicy.step, HedgePolicy.timer]
    split
    · rename_i isWaiting
      have less : ∑ i, (system.phase i).launch.left ≤ ∑ i, (system.phase i).left := by
        refine Finset.sum_le_sum fun i _ => ?_
        cases system.phase i <;> simp [Phase.launch, Phase.left]
      refine .inr ?_
      simp only [remaining, isWaiting, Caller.left]
      omega
    · exact .inl rfl
  | receive cancelResult =>
    simp only [HedgePolicy.step, HedgePolicy.receive]
    split
    · rename_i fired result isWaiting isHeld
      refine .inr ?_
      simp only [remaining, isWaiting]
      cases fired <;> simp [Caller.left]
    · exact .inl rfl
  | innerFn i outcome =>
    simp only [HedgePolicy.step, HedgePolicy.innerFn]
    split
    · rename_i isRunning
      exact .inr (remaining_lt_of_left_lt rfl rfl (by simp [isRunning, Phase.left]))
    · exact .inl rfl
  | look i j =>
    simp only [HedgePolicy.step, HedgePolicy.look]
    split
    · rename_i looked found isRanging
      split
      · exact .inl rfl
      · rename_i unlooked
        refine .inr (remaining_lt_of_left_lt rfl rfl ?_)
        have more := Finset.card_insert_of_notMem unlooked
        have bound := Finset.card_le_univ (insert j looked)
        rw [Fintype.card_fin] at bound
        rw [isRanging, Phase.left, Phase.left]
        omega
    · exact .inl rfl
  | advance i =>
    simp only [HedgePolicy.step, HedgePolicy.advance]
    cases isPhase : system.phase i with
    | unlaunched | running | crashed | finished => exact .inl rfl
    | returned outcome =>
      exact .inr (remaining_lt_of_left_lt rfl rfl (by simp [isPhase, Phase.left]))
    | counted outcome isFinalResult =>
      refine .inr ?_
      simp only
      split <;> exact remaining_lt_of_left_lt rfl rfl (by simp [isPhase, Phase.left])
    | storing outcome isFinalResult =>
      cases isFinalResult <;>
        exact .inr (remaining_lt_of_left_lt rfl rfl (by simp [isPhase, Phase.left]))
    | ranging looked found | sending result =>
      simp only
      split
      · exact .inr (remaining_lt_of_left_lt rfl rfl (by simp [isPhase, Phase.left]))
      · exact .inl rfl
    | picked finalResult =>
      refine .inr ?_
      simp only
      split
      · exact remaining_lt_of_left_lt rfl rfl (by simp [isPhase, Phase.left])
      · cases finalResult <;>
          exact remaining_lt_of_left_lt rfl rfl (by simp [isPhase, Phase.left])

end Nodecore.Resilience
