/-
# Subscribing again after a partial stop

The head and the block processor of an upstream subscribe under a fixed name each
time they are started, and a name that is taken makes the subscription panic.
Stopping a processor cancels the context of its run and returns.  The goroutine of
the run gives the name back on its own, some time after it has noticed.

The supervisor stops and resumes one after another, but nothing makes it wait for
the goroutines in between.
-/

import Nodecore.Upstreams.SettingsValidation

namespace Nodecore.Upstreams

open Lib

inductive SubscribingProcessor
  | head | block
  deriving DecidableEq, Repr

/-- A processor with the goroutines of its runs and the name it subscribes under. -/
structure ProcessorRuns where
  running : Bool := false
  /-- `Start` has won the flag and has not subscribed yet. -/
  starting : Bool := false
  /-- The last run, which the stored cancel function belongs to. -/
  current : ℕ := 0
  cancelled : List ℕ := []
  /-- Whether the subscription manager holds the name. -/
  registered : Bool := false
  /-- The runs whose goroutine has not unsubscribed yet. -/
  goroutines : List ℕ := []
  deriving DecidableEq, Repr

/-- What the supervisor does at a time.  The function of a `Start` that wins the flag goes on to
subscribe. -/
inductive Instruction
  | start (processor : SubscribingProcessor)
  | subscribe (processor : SubscribingProcessor)
  | stop (processor : SubscribingProcessor)
  deriving DecidableEq, Repr

/-- `PartialStop` and `Resume`, as far as the two processors go. -/
def SupervisorCall.instructions : SupervisorCall → List Instruction
  | .partialStop => [.stop .block, .stop .head]
  | .resume => [.start .head, .subscribe .head, .start .block, .subscribe .block]

/-- Either the supervisor goes on, or a goroutine of a run does. -/
inductive Move
  | supervisor
  | goroutine (processor : SubscribingProcessor) (run : ℕ)
  deriving DecidableEq, Repr

namespace ProcessorRuns

def start (runs : ProcessorRuns) : ProcessorRuns :=
  if runs.running then runs
  else { runs with running := true, starting := true, current := runs.current + 1 }

/-- `Subscribe` for a name that is free, with the goroutine that reads from it. -/
def subscribe (runs : ProcessorRuns) : ProcessorRuns :=
  { runs with
    starting := false
    registered := true
    goroutines := runs.current :: runs.goroutines }

def stop (runs : ProcessorRuns) : ProcessorRuns :=
  if runs.running then
    { runs with running := false, cancelled := runs.current :: runs.cancelled }
  else runs

/-- The goroutine of a cancelled run unsubscribes, which deletes whatever has the name. -/
def unsubscribe (run : ℕ) (runs : ProcessorRuns) : ProcessorRuns :=
  if run ∈ runs.goroutines ∧ run ∈ runs.cancelled then
    { runs with registered := false, goroutines := runs.goroutines.erase run }
  else runs

/-- The goroutines that are left by the moves since the processor was last stopped: that of the
run, or that of the run before if it has not moved. -/
def expected (runs : ProcessorRuns) (processor : SubscribingProcessor) (seen : List Move) : List ℕ :=
  let last := if runs.starting then runs.current - 1 else runs.current
  if runs.running ∧ runs.starting = false then [runs.current]
  else if last = 0 ∨ .goroutine processor last ∈ seen then [] else [last]

/-- What is known of a processor by the moves since it was last stopped. -/
structure Followed (runs : ProcessorRuns) (processor : SubscribingProcessor) (seen : List Move) :
    Prop where
  starts : runs.starting = true → runs.running = true
  positive : runs.running = true → 0 < runs.current
  cancelled_iff : ∀ run, run ∈ runs.cancelled ↔
    0 < run ∧ run ≤ runs.current ∧ (runs.running = true → run ≠ runs.current)
  goroutines_eq : runs.goroutines = runs.expected processor seen
  registered_iff : runs.registered = false ↔ runs.goroutines = []

variable {runs : ProcessorRuns} {processor : SubscribingProcessor} {seen : List Move}

theorem followed_new : ({} : ProcessorRuns).Followed processor seen where
  starts starting := by cases starting
  positive running := by cases running
  cancelled_iff run := by simp; omega
  goroutines_eq := rfl
  registered_iff := by decide

section

variable (followed : runs.Followed processor seen)
include followed

/-- While a processor starts, its name is free in the first run, and otherwise if the goroutine
of the run before has moved. -/
theorem Followed.free_iff (starting : runs.starting = true) :
    runs.registered = false ↔
      runs.current = 1 ∨ .goroutine processor (runs.current - 1) ∈ seen := by
  have positive := followed.positive (followed.starts starting)
  rw [followed.registered_iff, followed.goroutines_eq, expected]
  grind

theorem Followed.see {move : Move} (other : ∀ run, move ≠ .goroutine processor run) :
    runs.Followed processor (move :: seen) where
  __ := followed
  goroutines_eq := by
    simp only [followed.goroutines_eq, expected, List.mem_cons, (other _).symm, false_or]

theorem Followed.start (ready : runs.starting = false) : runs.start.Followed processor seen := by
  obtain ⟨starts, positive, cancelled, goroutines, registered⟩ := followed
  unfold ProcessorRuns.start
  split_ifs with running
  · exact ⟨starts, positive, cancelled, goroutines, registered⟩
  · exact ⟨fun _ => rfl, fun _ => Nat.succ_pos _, by grind, by grind [expected], registered⟩

theorem Followed.subscribe (starting : runs.starting = true) (free : runs.registered = false) :
    runs.subscribe.Followed processor seen := by
  obtain ⟨starts, positive, cancelled, goroutines, registered⟩ := followed
  exact ⟨by grind [ProcessorRuns.subscribe], positive, cancelled,
    by grind [ProcessorRuns.subscribe, expected], by grind [ProcessorRuns.subscribe]⟩

theorem Followed.stop (ready : runs.starting = false) :
    runs.stop.Followed processor (if runs.running then [] else seen) := by
  obtain ⟨starts, positive, cancelled, goroutines, registered⟩ := followed
  unfold ProcessorRuns.stop
  split_ifs with running
  · exact ⟨by grind, by grind, by grind, by grind [expected], registered⟩
  · exact ⟨starts, positive, cancelled, goroutines, registered⟩

theorem Followed.unsubscribe (run : ℕ) :
    (runs.unsubscribe run).Followed processor (.goroutine processor run :: seen) := by
  obtain ⟨starts, positive, cancelled, goroutines, registered⟩ := followed
  unfold ProcessorRuns.unsubscribe
  split_ifs with ends
  · exact ⟨starts, positive, cancelled, by grind [expected], by grind [expected]⟩
  · exact ⟨starts, positive, cancelled, by grind [expected], registered⟩

end

end ProcessorRuns

/-- The processors of an upstream and what the supervisor has still to do. -/
structure Resumption where
  processors : SubscribingProcessor → ProcessorRuns := fun _ => {}
  instructions : List Instruction
  panicked : Bool := false

namespace Resumption

def initial (calls : List SupervisorCall) : Resumption where
  instructions := calls.flatMap SupervisorCall.instructions

def set (state : Resumption) (processor : SubscribingProcessor) (runs : ProcessorRuns) :
    Resumption :=
  { state with processors := Function.update state.processors processor runs }

def execute (state : Resumption) : Instruction → Resumption
  | .start processor => state.set processor (state.processors processor).start
  | .subscribe processor =>
    if (state.processors processor).starting then
      if (state.processors processor).registered then { state with panicked := true }
      else state.set processor (state.processors processor).subscribe
    else state
  | .stop processor => state.set processor (state.processors processor).stop

def step (state : Resumption) : Move → Resumption
  | .supervisor =>
    if state.panicked then state
    else
      match state.instructions with
      | [] => state
      | instruction :: rest => { state with instructions := rest }.execute instruction
  | .goroutine processor run =>
    state.set processor ((state.processors processor).unsubscribe run)

/-- The supervisor is about to subscribe in a `Start` that has won the flag. -/
def Subscribes (state : Resumption) (processor : SubscribingProcessor) : Prop :=
  state.instructions.head? = some (.subscribe processor) ∧
    (state.processors processor).starting = true

def Stops (state : Resumption) (processor : SubscribingProcessor) : Prop :=
  state.instructions.head? = some (.stop processor) ∧
    (state.processors processor).running = true

instance (state : Resumption) (processor : SubscribingProcessor) :
    Decidable (state.Stops processor) := inferInstanceAs (Decidable (_ ∧ _))

/-- The moves since each processor was last stopped, with one more. -/
def since (state : Resumption) (seen : SubscribingProcessor → List Move) (move : Move) :
    SubscribingProcessor → List Move := fun processor =>
  if move = .supervisor ∧ state.Stops processor then [] else move :: seen processor

/-- The moves leave the goroutines a turn: whenever the supervisor comes to subscribe, it does so
for the first run, or the goroutine of the run before has moved since that run was stopped. -/
def Waits (seen : SubscribingProcessor → List Move) : Resumption → List Move → Prop
  | _, [] => True
  | state, move :: moves =>
    (move = .supervisor → ∀ processor, state.Subscribes processor →
      (state.processors processor).current = 1 ∨
        .goroutine processor ((state.processors processor).current - 1) ∈ seen processor) ∧
    Waits (state.since seen move) (state.step move) moves

/-- Each `start` comes with the subscription of its processor. -/
def Paired : List Instruction → Prop
  | [] => True
  | .start processor :: rest => rest.head? = some (.subscribe processor) ∧ Paired rest
  | _ :: rest => Paired rest

theorem paired_initial (calls : List SupervisorCall) : Paired (initial calls).instructions := by
  induction calls with
  | nil => trivial
  | cons call calls ih => cases call <;> exact by simpa [initial, SupervisorCall.instructions, Paired]

/-- What is known of the processors by the moves since they were last stopped. -/
structure Known (state : Resumption) (seen : SubscribingProcessor → List Move) : Prop where
  paired : Paired state.instructions
  next : ∀ processor, (state.processors processor).starting = true →
    state.instructions.head? = some (.subscribe processor)
  followed : ∀ processor, (state.processors processor).Followed processor (seen processor)

variable {state : Resumption} {seen : SubscribingProcessor → List Move}

theorem since_of_goesOn {processor : SubscribingProcessor} (goesOn : ¬ state.Stops processor) :
    state.since seen .supervisor processor = .supervisor :: seen processor :=
  if_neg fun both => goesOn both.2

section

variable (known : state.Known seen)
include known

theorem Known.ready {instruction : Instruction} {rest : List Instruction}
    (next : state.instructions = instruction :: rest) {processor : SubscribingProcessor}
    (other : instruction ≠ .subscribe processor) :
    (state.processors processor).starting = false := by
  rw [← Bool.not_eq_true]
  intro starting
  have due := known.next processor starting
  rw [next] at due
  exact other (Option.some.inj due)

theorem Known.waiting {instruction : Instruction} {rest : List Instruction}
    (next : state.instructions = instruction :: rest) {processor : SubscribingProcessor}
    (other : instruction ≠ .subscribe processor)
    (starting : (state.processors processor).starting = true) :
    rest.head? = some (.subscribe processor) :=
  absurd (starting.symm.trans (known.ready next other)) (by decide)

theorem Known.set {move : Move} {instructions : List Instruction} {processor : SubscribingProcessor}
    {runs : ProcessorRuns} {later : SubscribingProcessor → List Move} (paired : Paired instructions)
    (due : runs.starting = true → instructions.head? = some (.subscribe processor))
    (quiet : ∀ other, other ≠ processor → (state.processors other).starting = true →
      instructions.head? = some (.subscribe other))
    (own : runs.Followed processor (later processor))
    (others : ∀ other, other ≠ processor → later other = move :: seen other)
    (foreign : ∀ other, other ≠ processor → ∀ run, move ≠ .goroutine other run) :
    (({ state with instructions }).set processor runs).Known later where
  paired := paired
  next other starting := by
    by_cases same : other = processor
    · subst same
      exact due (by simpa [Resumption.set] using starting)
    · exact quiet other same (by simpa [Resumption.set, same] using starting)
  followed other := by
    by_cases same : other = processor
    · subst same
      simpa [Resumption.set] using own
    · rw [others other same]
      simpa [Resumption.set, same] using (known.followed other).see (foreign other same)

theorem Known.panicked_step_iff (calm : state.panicked = false) (move : Move) :
    (state.step move).panicked = false ↔
      (move = .supervisor → ∀ processor, state.Subscribes processor →
        (state.processors processor).current = 1 ∨
          .goroutine processor ((state.processors processor).current - 1) ∈ seen processor) := by
  cases move with
  | goroutine processor run => exact ⟨fun _ other => (by cases other), fun _ => calm⟩
  | supervisor =>
    simp only [Resumption.step, Subscribes, calm, true_implies]
    rw [if_neg Bool.false_ne_true]
    split
    case h_1 none => simp [none, calm]
    case h_2 instruction rest next =>
      rw [next, List.head?_cons]
      cases instruction with
      | start processor | stop processor => simp [execute, Resumption.set]
      | subscribe processor =>
        simp only [execute, Option.some.injEq, Instruction.subscribe.injEq, and_imp, forall_eq']
        by_cases starting : (state.processors processor).starting = true
        · rw [← (known.followed processor).free_iff starting]
          cases (state.processors processor).registered <;> simp [starting, Resumption.set]
        · simp [starting]

theorem Known.pass {instructions : List Instruction} (paired : Paired instructions)
    (due : ∀ processor, (state.processors processor).starting = true →
      instructions.head? = some (.subscribe processor))
    (goesOn : ∀ processor, ¬ state.Stops processor) :
    ({ state with instructions } : Resumption).Known (state.since seen .supervisor) where
  paired := paired
  next := due
  followed processor := by
    rw [since_of_goesOn (goesOn processor)]
    exact (known.followed processor).see (by simp)

section

variable {processor : SubscribingProcessor} {rest : List Instruction}

theorem Known.start (next : state.instructions = .start processor :: rest) :
    (({ state with instructions := rest } : Resumption).execute (.start processor)).Known
      (state.since seen .supervisor) := by
  have goesOn : ∀ other, ¬ state.Stops other := by simp [Stops, next]
  have paired := known.paired
  rw [next] at paired
  refine known.set paired.2 (fun _ => paired.1)
    (fun other _ => known.waiting next (by simp)) ?_
    (fun other _ => since_of_goesOn (goesOn other)) (by simp)
  rw [since_of_goesOn (goesOn processor)]
  exact ((known.followed processor).start (known.ready next (by simp))).see (by simp)

theorem Known.stop (next : state.instructions = .stop processor :: rest) :
    (({ state with instructions := rest } : Resumption).execute (.stop processor)).Known
      (state.since seen .supervisor) := by
  have ready : (state.processors processor).starting = false := known.ready next (by simp)
  have stopped := (known.followed processor).stop ready
  have paired := known.paired
  rw [next] at paired
  refine known.set paired (fun starting => ?_) (fun other _ => known.waiting next (by simp)) ?_
    (fun other different => since_of_goesOn (by simp [Stops, next, different.symm])) (by simp)
  · simp only [ProcessorRuns.stop] at starting
    split_ifs at starting <;> exact absurd (starting.symm.trans ready) (by decide)
  · by_cases running : (state.processors processor).running = true
    · rw [since, if_pos ⟨rfl, by simp [next], running⟩]
      rwa [if_pos running] at stopped
    · rw [since_of_goesOn (by simp [Stops, running])]
      rw [if_neg running] at stopped
      exact stopped.see (by simp)

theorem Known.subscribe (next : state.instructions = .subscribe processor :: rest)
    (after : (({ state with instructions := rest } : Resumption).execute
      (.subscribe processor)).panicked = false) :
    (({ state with instructions := rest } : Resumption).execute (.subscribe processor)).Known
      (state.since seen .supervisor) := by
  have goesOn : ∀ other, ¬ state.Stops other := by simp [Stops, next]
  have paired := known.paired
  rw [next] at paired
  have quiet : ∀ other, other ≠ processor → (state.processors other).starting = true →
      rest.head? = some (.subscribe other) :=
    fun other different => known.waiting next (by simpa using different.symm)
  rw [execute] at after ⊢
  by_cases starting : (state.processors processor).starting = true
  · rw [if_pos starting] at after ⊢
    split_ifs at after ⊢ with taken
    refine known.set paired (fun begun => by cases begun) quiet ?_
      (fun other _ => since_of_goesOn (goesOn other)) (by simp)
    rw [since_of_goesOn (goesOn processor)]
    exact ((known.followed processor).see (by simp)).subscribe starting
      (Bool.of_not_eq_true taken)
  · rw [if_neg starting]
    refine known.pass paired (fun other begun => ?_) goesOn
    exact quiet other (fun same => starting (same ▸ begun)) begun

end

theorem Known.step (calm : state.panicked = false) (move : Move)
    (after : (state.step move).panicked = false) :
    (state.step move).Known (state.since seen move) := by
  cases move with
  | goroutine processor run =>
    have same : ((state.processors processor).unsubscribe run).starting =
        (state.processors processor).starting := by
      unfold ProcessorRuns.unsubscribe
      split_ifs <;> rfl
    refine known.set known.paired (fun starting => known.next _ (same ▸ starting))
      (fun other _ => known.next other) ((known.followed processor).unsubscribe run)
      (fun other _ => if_neg (fun both => by cases both.1)) ?_
    rintro other different _ ⟨⟩
    exact different rfl
  | supervisor =>
    cases next : state.instructions with
    | nil =>
      have stays : state.step .supervisor = state := by simp [Resumption.step, calm, next]
      rw [stays]
      exact known.pass known.paired known.next (by simp [Stops, next])
    | cons instruction rest =>
      have goes : state.step .supervisor =
          ({ state with instructions := rest } : Resumption).execute instruction := by
        simp [Resumption.step, calm, next]
      rw [goes] at after ⊢
      cases instruction with
      | start processor => exact known.start next
      | stop processor => exact known.stop next
      | subscribe processor => exact known.subscribe next after

end

/-- For any calls of the supervisor, interleaved with the goroutines in any way: no subscription
panics exactly if each one after the first waits for the goroutine of the run before. -/
theorem never_panics_iff_waits (calls : List SupervisorCall) (moves : List Move) :
    AfterEach step (fun state => state.panicked = false) (initial calls) moves ↔
      Waits (fun _ => []) (initial calls) moves := by
  have loop : ∀ (moves : List Move) (state : Resumption) (seen : SubscribingProcessor → List Move),
      state.Known seen → state.panicked = false →
        (AfterEach step (fun state => state.panicked = false) state moves ↔
          Waits seen state moves) := by
    intro moves
    induction moves with
    | nil => exact fun _ _ _ _ => Iff.rfl
    | cons move moves ih =>
      intro state seen known calm
      rw [AfterEach, Waits, ← known.panicked_step_iff calm move]
      exact and_congr_right fun after => ih _ _ (known.step calm move after) after
  refine loop moves _ _ ⟨paired_initial calls, fun _ starting => (by cases starting),
    fun _ => ProcessorRuns.followed_new⟩ rfl

/-- An upstream is removed and found valid again before a goroutine has run: the supervisor panics
on the head subscription of the first run. -/
theorem resume_panics :
    let moves := List.replicate 8 Move.supervisor
    (run step (initial [.resume, .partialStop, .resume]) moves).panicked = true := by
  decide

end Resumption

end Nodecore.Upstreams
