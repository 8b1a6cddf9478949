/-
# From verdicts on the settings to stopped and resumed upstreams

Three loops stand between a verdict on an upstream's settings and what is done
about it.  The validator emits an event if the verdict is another one than before.
The loop of the upstream passes an event on if it changes the flag of the upstream.
The supervisor stops or resumes the upstream on what the loop has passed on.

Each of them drops something, the validator by comparing with a verdict that may
have decided nothing.  The run theorem says that nothing needed is dropped.
-/

import Mathlib.Data.List.Chain
import Nodecore.Upstreams.UpstreamEvents

namespace Nodecore.Upstreams

open Lib Protocol

inductive ValidationSettingResult
  | valid | settingsError | fatalSettingError | unknownResult
  deriving DecidableEq, Repr

namespace ValidationSettingResult

/-- What a round emits, by the verdict of the round before. -/
def emits (currentValidationState : ValidationSettingResult) :
    ValidationSettingResult → Option UpstreamStateEvent
  | .fatalSettingError =>
    if currentValidationState = .settingsError ∨ currentValidationState = .valid then
      some .fatalError
    else none
  | .settingsError => none
  | .valid =>
    if currentValidationState = .settingsError ∨ currentValidationState = .fatalSettingError then
      some .valid
    else none
  | .unknownResult => none

/-- The events of the rounds after a first verdict.  Each round stores its verdict. -/
def emitted : ValidationSettingResult → List ValidationSettingResult → List UpstreamStateEvent
  | _, [] => []
  | currentValidationState, result :: results =>
    (emits currentValidationState result).toList ++ emitted result results

/-- The flag that `GenericUpstream.Start` gives to the loop, none if it fails to start. -/
def initialValid : ValidationSettingResult → Option Bool
  | .fatalSettingError => none
  | .settingsError => some false
  | .valid => some true
  | .unknownResult => some true

/-- A definite verdict decides, any other leaves the flag. -/
def decides (flag : Bool) : ValidationSettingResult → Bool
  | .valid => true
  | .fatalSettingError => false
  | .settingsError => flag
  | .unknownResult => flag

/-- The last definite verdict, not valid if there is none. -/
def lastVerdict (results : List ValidationSettingResult) : Bool := results.foldl decides false

end ValidationSettingResult

inductive SupervisorCall
  | partialStop | resume
  deriving DecidableEq, Repr

/-- What a turn of `processEvents` calls, for an upstream that is registered. -/
def supervisorCall (upstreams : GoSet String) (event : UpstreamEvent) : Option SupervisorCall :=
  match event.eventType with
  | .removeEvent => if upstreams.contains event.id then some .partialStop else none
  | .validEvent _ => if upstreams.contains event.id then some .resume else none
  | _ => none

/-- The calls on one upstream while the supervisor takes events of all of them. -/
def supervisorCalls (upstreams : GoSet String) (id : String) (events : List UpstreamEvent) :
    List SupervisorCall :=
  (events.filter (·.id = id)).filterMap (supervisorCall upstreams)

/-- The call for a flag that has changed. -/
def SupervisorCall.ofFlag (flag : Bool) : SupervisorCall := if flag then .resume else .partialStop

/-- The values that differ from the one before. -/
def flips (flag : Bool) : List Bool → List Bool
  | [] => []
  | next :: flags => if next = flag then flips flag flags else next :: flips next flags

theorem isChain_flips (flag : Bool) (flags : List Bool) :
    (flag :: flips flag flags).IsChain (· ≠ ·) := by
  induction flags generalizing flag with
  | nil => exact List.isChain_singleton flag
  | cons next flags ih =>
    rw [flips]
    split_ifs with same
    · exact ih flag
    · exact List.isChain_cons_cons.mpr ⟨Ne.symm same, ih next⟩

namespace UpstreamLoop

variable (config : UpstreamConfig)

/-- How an event changes the flag. -/
def flagAfter (flag : Bool) : UpstreamStateEvent → Bool
  | .fatalError => false
  | .valid => true
  | _ => flag

def isSettingsEvent : UpstreamStateEvent → Bool
  | .fatalError => true
  | .valid => true
  | _ => false

def settingsEvents (inputs : List LoopInput) : List UpstreamStateEvent :=
  (inputs.map (·.event)).filter isSettingsEvent

def flags (loop : UpstreamLoop) : List LoopInput → List Bool
  | [] => []
  | input :: inputs =>
    (step config loop input).validUpstream :: flags (step config loop input) inputs

theorem validUpstream_publishIfValid (loop : UpstreamLoop) (state : UpstreamState)
    (eventType : UpstreamEventType) :
    (loop.publishIfValid config state eventType).validUpstream = loop.validUpstream := by
  unfold publishIfValid
  split_ifs <;> rfl

theorem validUpstream_step (loop : UpstreamLoop) (input : LoopInput) :
    (step config loop input).validUpstream = flagAfter loop.validUpstream input.event := by
  obtain ⟨event, headLag, banned, unsupported⟩ := input
  cases event with
  | fatalError =>
    simp only [step, flagAfter]
    split_ifs with valid
    · rfl
    · exact Bool.of_not_eq_true valid
  | valid =>
    simp only [step, flagAfter]
    split_ifs with valid
    · exact valid
    · exact validUpstream_publishIfValid config _ _ _
  | status status lag =>
    simp only [step, flagAfter]
    split_ifs <;> rfl
  | head headData => exact validUpstream_publishIfValid config _ _ _
  | banMethod | unbanMethod | unsupportedMethods | init | lowerBound | block | caps | labels =>
    simp only [step, flagAfter]
    split_ifs
    all_goals first | rfl | exact validUpstream_publishIfValid config _ _ _

theorem validUpstream_run (loop : UpstreamLoop) (inputs : List LoopInput) :
    (run (step config) loop inputs).validUpstream =
      (settingsEvents inputs).foldl flagAfter loop.validUpstream := by
  induction inputs generalizing loop with
  | nil => rfl
  | cons input inputs ih =>
    rw [run_cons, ih, validUpstream_step]
    cases kind : input.event <;> (rw [settingsEvents, settingsEvents, List.map_cons, kind]; rfl)

variable {upstreams : GoSet String}

theorem supervisorCalls_step (registered : config.id ∈ upstreams) (loop : UpstreamLoop)
    (input : LoopInput) :
    supervisorCalls upstreams config.id (step config loop input).published =
      supervisorCalls upstreams config.id loop.published ++
        (flips loop.validUpstream [(step config loop input).validUpstream]).map .ofFlag := by
  have known : upstreams.contains config.id = true := (GoSet.contains_iff _ _).mpr registered
  obtain ⟨sent, published, sends⟩ := step_sends config loop input
  rw [published, supervisorCalls, List.filter_append, List.filterMap_append, ← supervisorCalls]
  congr 1
  cases sends with
  | nothing state valid => simp [flips, valid]
  | remove before after | valid before after state =>
    simp [flips, before, after, supervisorCall, known, SupervisorCall.ofFlag]
  | state wasValid valid head | head wasValid valid headEvent state =>
    simp [flips, wasValid, valid, supervisorCall]

theorem supervisorCalls_run (registered : config.id ∈ upstreams) (loop : UpstreamLoop)
    (inputs : List LoopInput) :
    supervisorCalls upstreams config.id (run (step config) loop inputs).published =
      supervisorCalls upstreams config.id loop.published ++
        (flips loop.validUpstream (flags config loop inputs)).map .ofFlag := by
  induction inputs generalizing loop with
  | nil => exact (List.append_nil _).symm
  | cons input inputs ih =>
    rw [run_cons, ih, supervisorCalls_step config registered, List.append_assoc,
      ← List.map_append]
    congr 2
    simp only [flags, flips]
    split_ifs with same
    · rw [same, List.nil_append]
    · rfl

end UpstreamLoop

namespace ValidationSettingResult

/-- Comparing with the verdict before drops an event only if the flag is right without it. -/
theorem foldl_emitted {current : ValidationSettingResult} {results : List ValidationSettingResult}
    (known : ∀ result ∈ current :: results, result ≠ .unknownResult) (flag : Bool)
    (decided : decides flag current = flag) :
    (emitted current results).foldl UpstreamLoop.flagAfter flag = results.foldl decides flag := by
  induction results generalizing current flag with
  | nil => rfl
  | cons result results ih =>
    rw [List.forall_mem_cons] at known
    have emits_step :
        (emits current result).toList.foldl UpstreamLoop.flagAfter flag = decides flag result := by
      have isKnown := known.1
      have nextKnown := known.2 result List.mem_cons_self
      cases current <;> cases result <;> simp_all [emits, decides, UpstreamLoop.flagAfter]
    have settled : decides (decides flag result) result = decides flag result := by
      cases result <;> rfl
    rw [emitted, List.foldl_append, emits_step, ih known.2 _ settled, List.foldl_cons]

end ValidationSettingResult

namespace UpstreamLoop

open ValidationSettingResult

/-- For any verdicts from the start of an upstream on, once the loop has taken what the validator
emitted, among other events and at any time, its flag is the last definite verdict.  The
supervisor, which gets the events of the upstream among those of others, has made one call for
each change of the flag, and so stops and resumes in turn. -/
theorem verdicts_reach_supervisor (config : UpstreamConfig) (upstreams : GoSet String)
    (registered : config.id ∈ upstreams) (first : ValidationSettingResult)
    (results : List ValidationSettingResult)
    (known : ∀ result ∈ first :: results, result ≠ .unknownResult) (flag : Bool)
    (started : initialValid first = some flag) (inputs : List LoopInput)
    (taken : settingsEvents inputs = emitted first results) (events : List UpstreamEvent)
    (received : events.filter (·.id = config.id) =
      (run (step config) (start config flag) inputs).published) :
    (run (step config) (start config flag) inputs).validUpstream = lastVerdict (first :: results) ∧
      supervisorCalls upstreams config.id events =
        (flips flag (flags config (start config flag) inputs)).map .ofFlag ∧
      (SupervisorCall.ofFlag flag :: supervisorCalls upstreams config.id events).IsChain
        (· ≠ ·) := by
  have initial : decides false first = flag ∧ decides flag first = flag := by
    cases first with
    | unknownResult => exact absurd rfl (known _ List.mem_cons_self)
    | valid | settingsError | fatalSettingError => cases started <;> exact ⟨rfl, rfl⟩
  have calls : supervisorCalls upstreams config.id events =
      (flips flag (flags config (start config flag) inputs)).map .ofFlag := by
    have own : supervisorCalls upstreams config.id events = supervisorCalls upstreams config.id
        (run (step config) (start config flag) inputs).published := by
      rw [← received, supervisorCalls, supervisorCalls, List.filter_filter]
      simp
    rw [own, supervisorCalls_run config registered]
    rfl
  refine ⟨?_, calls, ?_⟩
  · rw [validUpstream_run, taken]
    change (emitted first results).foldl flagAfter flag = _
    rw [foldl_emitted known flag initial.2, lastVerdict, List.foldl_cons, initial.1]
  · rw [calls, ← List.map_cons, List.isChain_map]
    refine (isChain_flips flag _).imp fun before after changed same => changed ?_
    cases before <;> cases after <;> first | rfl | cases same

/-- An upstream that starts with an error, is found valid and breaks later on. -/
theorem verdicts_reach_supervisor_of_recovery : let config : UpstreamConfig :=
      { id := "node", spec := ∅, fullSpec := ∅, specConnectors := [], methods := {}
        syncingLag := 0, upstreamIndex := "00001", rateLimiterBudget := none
        autoTuneRateLimiter := none, labels := ∅ }
    let input (event : UpstreamStateEvent) : LoopInput := ⟨event, 0, .stored _, .stored _⟩
    let inputs := [input .valid, input .init, input .fatalError]
    supervisorCalls (GoSet.ofList ["node"]) "node"
        (run (step config) (start config false) inputs).published = [.resume, .partialStop] := by
  intro config input inputs
  exact (verdicts_reach_supervisor config (GoSet.ofList ["node"]) (by decide) .settingsError
    [.valid, .settingsError, .fatalSettingError] (by decide) false rfl inputs rfl
    (run (step config) (start config false) inputs).published rfl).2.1

end UpstreamLoop

end Nodecore.Upstreams
