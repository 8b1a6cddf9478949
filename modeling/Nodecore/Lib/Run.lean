/-
# Runs of an event loop

An event loop is a step function applied to one event after another.  A run is
therefore a left fold, and a property of every state reached is a property of
every prefix of the event list.  This module packages the two inductions a
development about such a loop needs: an invariant that every step preserves
holds along every run, and a property that a step preserves (or has) exactly
under a condition on the state before it holds along a run exactly when every
step of that run met the condition.
-/

import Mathlib.Order.Basic

namespace Nodecore.Lib

universe u v

variable {σ : Type u} {ε : Type v}

def run (step : σ → ε → σ) (start : σ) (events : List ε) : σ :=
  events.foldl step start

@[simp]
theorem run_nil (step : σ → ε → σ) (start : σ) : run step start [] = start := rfl

@[simp]
theorem run_cons (step : σ → ε → σ) (start : σ) (event : ε) (events : List ε) :
    run step start (event :: events) = run step (step start event) events := rfl

theorem run_append (step : σ → ε → σ) (start : σ) (first second : List ε) :
    run step start (first ++ second) = run step (run step start first) second :=
  List.foldl_append

/-- What the steps of a run give, one after another. -/
def collect {τ : Type*} (step : σ → ε → σ) (gives : σ → ε → List τ) : σ → List ε → List τ
  | _, [] => []
  | state, event :: events => gives state event ++ collect step gives (step state event) events

theorem run_eq_append_collect {τ : Type*} {step : σ → ε → σ} {gives : σ → ε → List τ}
    (history : σ → List τ)
    (appends : ∀ state event, history (step state event) = history state ++ gives state event)
    (start : σ) (events : List ε) :
    history (run step start events) = history start ++ collect step gives start events := by
  induction events generalizing start with
  | nil => exact (List.append_nil _).symm
  | cons event events ih => rw [run_cons, ih, appends, collect, List.append_assoc]

def Reached (step : σ → ε → σ) (start state : σ) : Prop :=
  ∃ events, run step start events = state

theorem Reached.start (step : σ → ε → σ) (start : σ) : Reached step start start := ⟨[], rfl⟩

theorem Reached.step {step : σ → ε → σ} {start state : σ} (reached : Reached step start state)
    (event : ε) : Reached step start (step state event) := by
  obtain ⟨events, rfl⟩ := reached
  exact ⟨events ++ [event], run_append step start events [event]⟩

/-- `good` holds after each handled event, whatever it was before the first. -/
def AfterEach (step : σ → ε → σ) (good : σ → Prop) : σ → List ε → Prop
  | _, [] => True
  | state, event :: events =>
    good (step state event) ∧ AfterEach step good (step state event) events

/-- Every event is handled in a state that meets `guard` for it. -/
def EachStep (step : σ → ε → σ) (guard : σ → ε → Prop) : σ → List ε → Prop
  | _, [] => True
  | state, event :: events =>
    guard state event ∧ EachStep step guard (step state event) events

instance decidableEachStep (step : σ → ε → σ) (guard : σ → ε → Prop)
    [∀ state event, Decidable (guard state event)] :
    ∀ (state : σ) (events : List ε), Decidable (EachStep step guard state events)
  | _, [] => .isTrue trivial
  | state, event :: events =>
    have := decidableEachStep step guard (step state event) events
    inferInstanceAs (Decidable (_ ∧ _))

variable {events : List ε} {does : σ → ε → Prop}

section Invariants

variable {step : σ → ε → σ} {inv good : σ → Prop} {guard : σ → ε → Prop} {start : σ}

theorem run_induction (preserved : ∀ state event, inv state → inv (step state event))
    (initial : inv start) (events : List ε) : inv (run step start events) := by
  induction events generalizing start with
  | nil => exact initial
  | cons event events ih => exact ih (preserved start event initial)

theorem run_induction_of_eachStep
    (preserved : ∀ state event, inv state → guard state event → inv (step state event))
    (initial : inv start) (guarded : EachStep step guard start events) :
    inv (run step start events) := by
  induction events generalizing start with
  | nil => exact initial
  | cons event events ih => exact ih (preserved start event initial guarded.1) guarded.2

theorem run_frame {τ : Type*} {view : σ → τ}
    (frame : ∀ state event, view (step state event) = view state) (start : σ) (events : List ε) :
    view (run step start events) = view start := by
  induction events generalizing start with
  | nil => rfl
  | cons event events ih => exact (ih (step start event)).trans (frame start event)

/-- An invariant preserved by the steps that meet a guard holds along every run
whose steps all meet it. -/
theorem afterEach_of_eachStep
    (preserved : ∀ state event, inv state → guard state event → inv (step state event))
    (initial : inv start) (guarded : EachStep step guard start events) :
    AfterEach step inv start events := by
  induction events generalizing start with
  | nil => trivial
  | cons event events ih =>
    have next := preserved start event initial guarded.1
    exact ⟨next, ih next guarded.2⟩

theorem EachStep.imp {weaker : σ → ε → Prop}
    (weaken : ∀ state event, guard state event → weaker state event)
    (each : EachStep step guard start events) : EachStep step weaker start events := by
  induction events generalizing start with
  | nil => trivial
  | cons event events ih => exact ⟨weaken _ _ each.1, ih each.2⟩

theorem AfterEach.imp (weaken : ∀ state, inv state → good state)
    (each : AfterEach step inv start events) : AfterEach step good start events := by
  induction events generalizing start with
  | nil => trivial
  | cons event events ih => exact ⟨weaken _ each.1, ih each.2⟩

/-- The exact form.  Under an unconditional invariant `inv`, a step that starts
in a good state ends in one exactly when the guard holds.  Then a run stays good
exactly when each of its steps meets the guard. -/
theorem afterEach_iff_eachStep (preserved : ∀ state event, inv state → inv (step state event))
    (exact_step : ∀ state event, inv state → good state →
      (good (step state event) ↔ guard state event)) (initial : inv start)
    (initialGood : good start) (events : List ε) :
    AfterEach step good start events ↔ EachStep step guard start events := by
  induction events generalizing start with
  | nil => exact Iff.rfl
  | cons event events ih =>
    have here := exact_step start event initial initialGood
    constructor
    · rintro ⟨hgood, rest⟩
      exact ⟨here.mp hgood, (ih (preserved start event initial) hgood).mp rest⟩
    · rintro ⟨hguard, rest⟩
      have hgood := here.mpr hguard
      exact ⟨hgood, (ih (preserved start event initial) hgood).mpr rest⟩

theorem eachStep_of_forall (does_step : ∀ state event, inv state → does state event)
    (preserved : ∀ state event, inv state → inv (step state event)) (initial : inv start)
    (events : List ε) : EachStep step does start events := by
  induction events generalizing start with
  | nil => trivial
  | cons event events ih =>
    exact ⟨does_step start event initial, ih (preserved start event initial)⟩

/-- What each step does that meets a guard in a state of the invariant, each step of a
guarded run does. -/
theorem eachStep_of_eachStep
    (does_step : ∀ state event, inv state → guard state event → does state event)
    (preserved : ∀ state event, inv state → guard state event → inv (step state event))
    (initial : inv start) (guarded : EachStep step guard start events) :
    EachStep step does start events := by
  induction events generalizing start with
  | nil => trivial
  | cons event events ih =>
    have next := preserved start event initial guarded.1
    exact ⟨does_step start event initial guarded.1, ih next guarded.2⟩

/-- The exact form for what a single step does: where the invariant makes a property of
the step equivalent to a guard that preserves the invariant, a run has the property at
each step exactly when it meets the guard at each step. -/
theorem eachStep_iff_eachStep
    (exact_step : ∀ state event, inv state → (does state event ↔ guard state event))
    (preserved : ∀ state event, inv state → guard state event → inv (step state event))
    (initial : inv start) (events : List ε) :
    EachStep step does start events ↔ EachStep step guard start events := by
  constructor
  · apply eachStep_of_eachStep (fun state event holds => (exact_step state event holds).mp) _ initial
    exact fun state event holds now => preserved state event holds ((exact_step _ _ holds).mp now)
  · exact eachStep_of_eachStep (fun state event holds => (exact_step state event holds).mpr)
      preserved initial

end Invariants

end Nodecore.Lib
