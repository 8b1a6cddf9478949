/-
# Starting and stopping a lifecycle from several goroutines

A lifecycle keeps a flag and a cancel function in two separate atomics.  `Start`
wins the flag, then makes a context, stores the function that cancels it and runs
the start function with it.  `Stop` takes the flag back, then calls the cancel
function it finds.

Any number of calls may be between their steps at once.  A `Stop` can take the flag
back before the `Start` that won it has stored anything: it then cancels the context of
an earlier run, or none, and the new context outlives the run.  Calls that leave each
other alone in the sense of `Orderly` keep at most one context open, and none once the
lifecycle is stopped.
-/

import Nodecore.Lib.Run

namespace Nodecore.Utils

open Lib

/-- A lifecycle together with the calls in progress.  A context stands for the function that
cancels it as well. -/
structure GenericLifecycle where
  running : Bool := false
  cancelFunc : Option ℕ := none
  /-- How many contexts were made; they are numbered. -/
  contexts : ℕ := 0
  cancelled : List ℕ := []
  /-- The contexts of the starts whose function succeeded. -/
  succeeded : List ℕ := []
  /-- Calls of `Start` that won the flag and have stored no cancel function yet. -/
  starting : ℕ := 0
  /-- The contexts with which a start function runs. -/
  functions : List ℕ := []
  /-- Calls of `Stop` that took the flag back and are before their first load. -/
  stopping : ℕ := 0
  /-- Calls of `Stop` that found a cancel function and are before their second load. -/
  cancelling : ℕ := 0
  deriving DecidableEq, Repr

namespace GenericLifecycle

/-- What one goroutine does at a time. -/
inductive Action
  | start
  | store
  | finish (context : ℕ) (success : Bool)
  | stop
  | check
  | cancel
  deriving DecidableEq, Repr

/-- An action for which no call is at the right place changes nothing. -/
def step (lifecycle : GenericLifecycle) : Action → GenericLifecycle
  | .start =>
    if lifecycle.running then lifecycle
    else { lifecycle with running := true, starting := lifecycle.starting + 1 }
  | .store =>
    if lifecycle.starting = 0 then lifecycle
    else
      { lifecycle with
        starting := lifecycle.starting - 1
        contexts := lifecycle.contexts + 1
        cancelFunc := some lifecycle.contexts
        functions := lifecycle.contexts :: lifecycle.functions }
  | .finish context success =>
    if context ∈ lifecycle.functions then
      let returned := { lifecycle with functions := lifecycle.functions.erase context }
      if success then { returned with succeeded := context :: lifecycle.succeeded }
      else { returned with running := false }
    else lifecycle
  | .stop =>
    if lifecycle.running then
      { lifecycle with running := false, stopping := lifecycle.stopping + 1 }
    else lifecycle
  | .check =>
    if lifecycle.stopping = 0 then lifecycle
    else if lifecycle.cancelFunc.isNone then
      { lifecycle with stopping := lifecycle.stopping - 1 }
    else
      { lifecycle with
        stopping := lifecycle.stopping - 1
        cancelling := lifecycle.cancelling + 1 }
  | .cancel =>
    if lifecycle.cancelling = 0 then lifecycle
    else
      { lifecycle with
        cancelling := lifecycle.cancelling - 1
        cancelled := lifecycle.cancelFunc.toList ++ lifecycle.cancelled }

/-- No call that has won the flag or taken it back is in progress. -/
def Idle (lifecycle : GenericLifecycle) : Prop :=
  lifecycle.starting = 0 ∧ lifecycle.functions = [] ∧ lifecycle.stopping = 0 ∧
    lifecycle.cancelling = 0
  deriving Decidable

/-- The context of a run that was started and not cancelled. -/
def Open (lifecycle : GenericLifecycle) (context : ℕ) : Prop :=
  context ∈ lifecycle.succeeded ∧ context ∉ lifecycle.cancelled
  deriving Decidable

/-- Between calls a stopped lifecycle has no open context, and there is never more than one. -/
def Contained (lifecycle : GenericLifecycle) : Prop :=
  (lifecycle.running = false → lifecycle.Idle → ∀ context, ¬ lifecycle.Open context) ∧
    ∀ context other, lifecycle.Open context → lifecycle.Open other → context = other

/-- A `Start` wins the flag only while no other call is in progress, and a `Stop` takes it back
only once the `Start` has stored its cancel function. -/
def Orderly (lifecycle : GenericLifecycle) : Action → Prop
  | .start => lifecycle.running = true ∨ lifecycle.Idle
  | .stop => lifecycle.running = true → lifecycle.starting = 0
  | _ => True

/-- The context that the stored function cancels, while a run goes on or a `Stop` is about to
cancel it. -/
def Current (lifecycle : GenericLifecycle) (context : ℕ) : Prop :=
  lifecycle.cancelFunc = some context ∧
    (lifecycle.running = true ∨ 0 < lifecycle.stopping + lifecycle.cancelling)

structure Sound (lifecycle : GenericLifecycle) : Prop where
  started : ∀ context ∈ lifecycle.succeeded, context ∈ lifecycle.cancelled ∨
    (lifecycle.functions = [] ∧ lifecycle.starting = 0 ∧ lifecycle.Current context)
  function : ∀ context ∈ lifecycle.functions, lifecycle.functions = [context] ∧
    (context ∈ lifecycle.cancelled ∨ lifecycle.Current context)
  starting : lifecycle.starting = 0 ∨ (lifecycle.starting = 1 ∧ lifecycle.running = true ∧
    lifecycle.functions = [])
  running : lifecycle.running = true → lifecycle.stopping = 0 ∧ lifecycle.cancelling = 0

variable {lifecycle : GenericLifecycle}

theorem Sound.contained (sound : lifecycle.Sound) : lifecycle.Contained := by
  have current {context : ℕ} (isOpen : lifecycle.Open context) : lifecycle.Current context :=
    ((sound.started context isOpen.1).resolve_left isOpen.2).2.2
  constructor
  · rintro stopped ⟨-, -, stopping, cancelling⟩ context isOpen
    rcases (current isOpen).2 with running | busy
    · rw [stopped] at running
      cases running
    · omega
  · intro context other isOpen otherOpen
    exact Option.some.inj ((current isOpen).1.symm.trans (current otherOpen).1)

theorem Sound.change (sound : lifecycle.Sound) {next : GenericLifecycle}
    (kept : ∀ context ∈ lifecycle.cancelled, context ∈ next.cancelled)
    (current : ∀ context, lifecycle.Current context →
      context ∈ next.cancelled ∨ next.Current context)
    (succeeded : next.succeeded = lifecycle.succeeded)
    (functions : next.functions = lifecycle.functions) (same : next.starting = lifecycle.starting)
    (starting : next.starting = 0 ∨ (next.starting = 1 ∧ next.running = true ∧ next.functions = []))
    (running : next.running = true → next.stopping = 0 ∧ next.cancelling = 0) : next.Sound := by
  refine ⟨fun context listed => ?_, fun context listed => ?_, starting, running⟩
  · rcases sound.started context (succeeded ▸ listed) with done | ⟨none, noStart, now⟩
    · exact .inl (kept context done)
    · exact (current context now).imp_right (⟨functions.trans none, same.trans noStart, ·⟩)
  · obtain ⟨only, own⟩ := sound.function context (functions ▸ listed)
    exact ⟨functions.trans only, own.elim (.inl <| kept context ·) (current context)⟩

theorem sound_step (lifecycle : GenericLifecycle) (action : Action) (sound : lifecycle.Sound)
    (orderly : lifecycle.Orderly action) : (lifecycle.step action).Sound := by
  cases action with
  | start =>
    simp only [step]
    split_ifs with running
    · exact sound
    · have idle := orderly.resolve_left running
      -- no context is open where neither a run nor a stop is under way
      have cancelled : ∀ context ∈ lifecycle.succeeded, context ∈ lifecycle.cancelled := by
        intro context listed
        by_contra isOpen
        exact sound.contained.1 (Bool.of_not_eq_true running) idle context ⟨listed, isOpen⟩
      obtain ⟨noStart, noFunction, noStop, noCancel⟩ := idle
      refine ⟨fun context listed => .inl (cancelled context listed), ?_, ?_, ?_⟩
      · simp [noFunction]
      · simp [noStart, noFunction]
      · exact fun _ => ⟨noStop, noCancel⟩
  | store =>
    simp only [step]
    split_ifs with none
    · exact sound
    · obtain ⟨one, running, noFunction⟩ := sound.starting.resolve_left none
      refine ⟨fun context listed => ?_, ?_, ?_, sound.running⟩
      · exact .inl ((sound.started context listed).resolve_right fun busy => none busy.2.1)
      · simp [noFunction, Current, running]
      · simp [one]
  | finish context success =>
    simp only [step]
    split_ifs with busy succeeds
    all_goals try exact sound
    all_goals
      -- the function that returns was the only one
      obtain ⟨only, own⟩ := sound.function context busy
      have noStart : lifecycle.starting = 0 :=
        sound.starting.resolve_right fun early => by simp [only] at early
      have earlier : ∀ other ∈ lifecycle.succeeded, other ∈ lifecycle.cancelled :=
        fun other listed => (sound.started other listed).resolve_right fun ended => by
          simp [only] at ended
    · refine ⟨fun other listed => ?_, by simp [only], .inl noStart, sound.running⟩
      rcases List.mem_cons.mp listed with rfl | listed
      · exact own.imp_right fun current => ⟨by simp [only], noStart, current⟩
      · exact .inl (earlier other listed)
    · refine ⟨fun other listed => .inl (earlier other listed), by simp [only], .inl noStart, ?_⟩
      exact fun running => absurd running Bool.false_ne_true
  | stop =>
    simp only [step]
    split_ifs with running
    · refine sound.change (fun _ kept => kept) (fun _ now => .inr ⟨now.1, .inr ?_⟩) rfl rfl rfl
        (.inl (orderly running)) fun running => absurd running Bool.false_ne_true
      dsimp only
      omega
    · exact sound
  | check =>
    simp only [step]
    split_ifs with none missing
    · exact sound
    · refine sound.change (fun _ kept => kept) (fun _ now => ?_) rfl rfl rfl sound.starting
        fun running => absurd (sound.running running).1 none
      rw [now.1] at missing
      cases missing
    · refine sound.change (fun _ kept => kept) (fun _ now => .inr ⟨now.1, .inr ?_⟩) rfl rfl rfl
        sound.starting fun running => absurd (sound.running running).1 none
      dsimp only
      omega
  | cancel =>
    simp only [step]
    split_ifs with none
    · exact sound
    · exact sound.change (fun _ => List.mem_append_right _) (fun _ now => .inl (by simp [now.1]))
        rfl rfl rfl sound.starting fun running => absurd (sound.running running).2 none

/-- If the calls are orderly, then at all times at most one context is open, and none while the
lifecycle is stopped and no call is in progress. -/
theorem contained_of_orderly (actions : List Action)
    (orderly : EachStep step Orderly ({} : GenericLifecycle) actions) :
    AfterEach step Contained ({} : GenericLifecycle) actions := by
  have initial : ({} : GenericLifecycle).Sound := by
    refine ⟨?_, ?_, .inl rfl, fun running => absurd running Bool.false_ne_true⟩
    all_goals exact fun context listed => absurd listed List.not_mem_nil
  exact (afterEach_of_eachStep sound_step initial orderly).imp fun _ sound => sound.contained

instance (lifecycle : GenericLifecycle) (action : Action) : Decidable (lifecycle.Orderly action) :=
  match action with
  | .start => inferInstanceAs (Decidable (_ ∨ _))
  | .stop => inferInstanceAs (Decidable (_ → _))
  | .store => inferInstanceAs (Decidable True)
  | .finish _ _ => inferInstanceAs (Decidable True)
  | .check => inferInstanceAs (Decidable True)
  | .cancel => inferInstanceAs (Decidable True)

/-- A run that is stopped while its function still works, and another run. -/
theorem contained_of_orderly_twice :
    AfterEach step Contained ({} : GenericLifecycle)
      [.start, .store, .stop, .check, .finish 0 true, .cancel, .start, .start, .store,
        .finish 1 true] :=
  contained_of_orderly _ (by decide)

/-- The head processor restarts a head that has gone silent while the supervisor stops the
upstream: the second `Stop` takes the flag back before the restart has stored its cancel function
and cancels the context of the first run again.  The lifecycle is stopped, with the context of the
second run open.  If two starts win the flag before one of them stores, two contexts are open. -/
theorem restart_outlives_stop :
    let restarted := run step ({} : GenericLifecycle)
      [.start, .store, .finish 0 true, .stop, .check, .cancel, .start, .stop, .check, .cancel,
        .store, .finish 1 true]
    let twice := run step ({} : GenericLifecycle)
      [.start, .stop, .check, .start, .store, .finish 0 true, .store, .finish 1 true]
    (restarted.running = false ∧ restarted.Idle ∧ restarted.Open 1) ∧
      twice.Open 0 ∧ twice.Open 1 := by
  decide

end GenericLifecycle

end Nodecore.Utils
