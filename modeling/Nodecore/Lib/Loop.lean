/-
# Loops with a variant

A loop whose body either goes round once more or leaves with a result, packaged
with a variant that every further round decreases.  Such a loop always leaves,
so it is a total function; what it leaves with is reasoned about by an
invariant in the usual way.
-/

import Mathlib.Data.Nat.Notation

namespace Nodecore.Lib

universe u v

variable {σ : Type u} {ρ : Type v}

/-- The first rounds of a run, as far as the fuel goes. -/
def runFor (body : σ → σ ⊕ ρ) : ℕ → σ → Option ρ
  | 0, _ => none
  | fuel + 1, state =>
    match body state with
    | .inl next => runFor body fuel next
    | .inr result => some result

theorem runFor_congr {body other : σ → σ ⊕ ρ} (inv : σ → Prop)
    (same : ∀ state, inv state → body state = other state)
    (preserved : ∀ state next, inv state → other state = .inl next → inv next) {state : σ}
    (initial : inv state) (fuel : ℕ) : runFor body fuel state = runFor other fuel state := by
  induction fuel generalizing state with
  | zero => rfl
  | succ fuel ih =>
    rw [runFor, runFor, same state initial]
    cases round : other state with
    | inl next => exact ih (preserved state next initial round)
    | inr result => rfl

theorem runFor_eq_none {body : σ → σ ⊕ ρ} (inv : σ → Prop)
    (goesOn : ∀ state, inv state → ∃ next, body state = .inl next ∧ inv next) {state : σ}
    (initial : inv state) (fuel : ℕ) : runFor body fuel state = none := by
  induction fuel generalizing state with
  | zero => rfl
  | succ fuel ih =>
    obtain ⟨next, round, kept⟩ := goesOn state initial
    rw [runFor, round]
    exact ih kept

/-- A loop: from a state the body gives the state of the next round or the
result it leaves with. -/
structure Loop (σ : Type u) (ρ : Type v) where
  body : σ → σ ⊕ ρ
  variant : σ → ℕ
  decreases : ∀ {state next : σ}, body state = .inl next → variant next < variant state

namespace Loop

/-- Round after round until the body leaves. -/
def run (loop : Loop σ ρ) (state : σ) : ρ :=
  match _round : loop.body state with
  | .inl next => loop.run next
  | .inr result => result
termination_by loop.variant state
decreasing_by exact loop.decreases _round

theorem run_of_inl {loop : Loop σ ρ} {state next : σ} (continues : loop.body state = .inl next) :
    loop.run state = loop.run next := by
  rw [run]
  split
  · rename_i other taken
    rw [Sum.inl.inj (continues.symm.trans taken)]
  · rename_i result left
    exact absurd (continues.symm.trans left) (by simp)

variable {state : σ}

theorem run_of_inr {loop : Loop σ ρ} {result : ρ}
    (leaves : loop.body state = .inr result) : loop.run state = result := by
  rw [run]
  split
  · rename_i next continues
    exact absurd (leaves.symm.trans continues) (by simp)
  · rename_i other left
    exact Sum.inr.inj (left.symm.trans leaves)

theorem run_of_runFor {loop : Loop σ ρ} (fuel : ℕ) {result : ρ}
    (leaves : runFor loop.body fuel state = some result) : loop.run state = result := by
  induction fuel generalizing state with
  | zero => cases leaves
  | succ fuel ih =>
    cases round : loop.body state with
    | inl next =>
      rw [run_of_inl round]
      exact ih (by simpa [runFor, round] using leaves)
    | inr other =>
      rw [run_of_inr round]
      simpa [runFor, round] using leaves

variable (loop : Loop σ ρ)

/-- The invariant rule: what every round preserves and every exit turns into
the postcondition holds of the result. -/
theorem run_post (inv : σ → Prop) (post : ρ → Prop)
    (preserved : ∀ {state next : σ}, inv state → loop.body state = .inl next → inv next)
    (established : ∀ {state : σ} {result : ρ},
      inv state → loop.body state = .inr result → post result) {start :
    σ} (initial : inv start) : post (loop.run start) := by
  induction hvariant : loop.variant start using Nat.strongRecOn generalizing start with
  | ind bound ih =>
    cases round : loop.body start with
    | inl next =>
      rw [run_of_inl round]
      have smaller : loop.variant next < bound := hvariant ▸ loop.decreases round
      exact ih (loop.variant next) smaller (preserved initial round) rfl
    | inr result =>
      rw [run_of_inr round]
      exact established initial round

theorem isSome_runFor {fuel : ℕ} (enough : loop.variant state < fuel) :
    (runFor loop.body fuel state).isSome := by
  induction fuel generalizing state with
  | zero => exact absurd enough (Nat.not_lt_zero _)
  | succ fuel ih =>
    rw [runFor]
    split
    · rename_i next continues
      exact ih (Nat.lt_of_lt_of_le (loop.decreases continues) (Nat.le_of_lt_succ enough))
    · rfl

theorem runFor_eq_some_run {fuel : ℕ}
    (enough : loop.variant state < fuel) : runFor loop.body fuel state = some (loop.run state) := by
  obtain ⟨result, leaves⟩ := Option.isSome_iff_exists.mp (loop.isSome_runFor enough)
  rw [leaves, run_of_runFor fuel leaves]

/-- The result, computed with as much fuel as the variant allows for. -/
def exec (loop : Loop σ ρ) (state : σ) : ρ :=
  (runFor loop.body (loop.variant state + 1) state).get (loop.isSome_runFor (Nat.lt_succ_self _))

theorem exec_eq_run (state : σ) : loop.exec state = loop.run state := by
  simp [exec, loop.runFor_eq_some_run (Nat.lt_succ_self _)]

end Loop

end Nodecore.Lib
