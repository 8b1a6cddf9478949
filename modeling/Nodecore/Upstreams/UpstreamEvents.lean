/-
# The event loop of an upstream

The loop owns an upstream's state.  It keeps two sets beside it, the methods
banned for a while and the methods detection found missing, and derives the
served methods from them.  The derived methods live in the stored state, and the
state is stored only while the upstream is valid; the two sets change regardless.

The run theorem says what this costs: the stored methods are those derived from
the two sets whenever the upstream is valid, in every run in which the sets do
not change while it is invalid.
-/

import Nodecore.Lib.Run
import Nodecore.Protocol.UpstreamState

namespace Nodecore.Upstreams

open Lib Specs Protocol

/-- The settings of an upstream.  `spec` is the chain's spec seen through the
connectors of the upstream, `fullSpec` the same spec over all connectors. -/
structure UpstreamConfig where
  id : String
  spec : SpecMethods
  fullSpec : SpecMethods
  specConnectors : List ApiConnectorType
  methods : MethodsConfig
  syncingLag : Int64
  upstreamIndex : String
  rateLimiterBudget : Option ℕ
  autoTuneRateLimiter : Option ℕ
  labels : GoMap String String

/-- What the environment supplies with one event: the current head lag, and the
orders in which the two sets are listed. -/
structure LoopInput where
  event : UpstreamStateEvent
  headLag : Int64
  banned : RangeOrder String
  unsupported : RangeOrder String

/-- The loop's variables and what it has sent out: unban timers and published
events, in order. -/
structure UpstreamLoop where
  upstreamState : UpstreamState
  bannedMethods : GoSet String
  unsupportedMethods : GoSet String
  validUpstream : Bool
  baseAvail : AvailabilityStatus
  unbanTimers : List String
  published : List UpstreamEvent

namespace UpstreamLoop

variable (config : UpstreamConfig)

/-- Without duplicates, in order of first occurrence. -/
def unionOf (first second third : List String) : List String :=
  (first ++ second ++ third).eraseDups

/-- Spec, minus unsupported, disabled and banned, plus enabled. -/
def newUpstreamMethods (banned unsupported : RangeOrder String)
    (bannedMethods unsupportedMethods : GoSet String) : UpstreamMethods :=
  composeMethods config.spec config.specConnectors
    { enableMethods := config.methods.enableMethods
      disableMethods := unionOf (bannedMethods.toSlice banned)
        (unsupportedMethods.toSlice unsupported) config.methods.disableMethods }

def getSpecMethodWithFallback (methodName : String) : Method :=
  (config.fullSpec.defaultMethods.lookup methodName).getD
    (defaultMethodWithConnectorTypes methodName config.specConnectors)

def forceEnabled (method : String) : Bool :=
  isForceEnabled config.methods (getSpecMethodWithFallback config method)

def start (initialValid : Bool) : UpstreamLoop where
  upstreamState :=
    { defaultUpstreamState (composeMethods config.spec config.specConnectors config.methods) ∅
        config.upstreamIndex config.rateLimiterBudget config.autoTuneRateLimiter with
      -- labels from the configuration are seeds, published before any detector runs
      labels := config.labels }
  bannedMethods := ∅
  unsupportedMethods := ∅
  validUpstream := initialValid
  baseAvail := .available
  unbanTimers := []
  published := []

def publishUpstreamEvent (loop : UpstreamLoop) (state : UpstreamState)
    (eventType : UpstreamEventType) : UpstreamLoop :=
  { loop with
    upstreamState := state
    published := loop.published ++ [⟨config.id, eventType⟩] }

/-- The end of a turn: the state is stored and published only while valid. -/
def publishIfValid (loop : UpstreamLoop) (state : UpstreamState) (eventType : UpstreamEventType) :
    UpstreamLoop :=
  if loop.validUpstream then loop.publishUpstreamEvent config state eventType else loop

/-- Derive the methods from the two sets and end the turn with them. -/
def publishMethods (input : LoopInput) (loop : UpstreamLoop) : UpstreamLoop :=
  let state : UpstreamState :=
    { loop.upstreamState with
      upstreamMethods := newUpstreamMethods config input.banned input.unsupported
        loop.bannedMethods loop.unsupportedMethods }
  loop.publishIfValid config state (.stateEvent state)

def step (loop : UpstreamLoop) (input : LoopInput) : UpstreamLoop :=
  let state := loop.upstreamState
  match input.event with
  | .fatalError =>
    if loop.validUpstream then
      { loop with validUpstream := false }.publishUpstreamEvent config state .removeEvent
    else loop
  | .valid =>
    if loop.validUpstream then loop
    else
      { loop with validUpstream := true }.publishIfValid config state
        (.validEvent (some state))
  | .banMethod method =>
    if loop.bannedMethods.contains method || forceEnabled config method then loop
    else
      publishMethods config input
        { loop with
          unbanTimers := loop.unbanTimers ++ [method]
          bannedMethods := loop.bannedMethods.add method }
  | .unbanMethod method =>
    if loop.bannedMethods.contains method then
      publishMethods config input
        { loop with bannedMethods := loop.bannedMethods.remove method }
    else loop
  | .unsupportedMethods methods =>
    if loop.unsupportedMethods.equal methods then loop
    else publishMethods config input { loop with unsupportedMethods := methods }
  | .status status lag =>
    if loop.validUpstream then
      -- a lag only asks to derive the status again from the last reported one
      let baseAvail := if lag.isNone then status else loop.baseAvail
      let newAvail := statusByLag input.headLag baseAvail config.syncingLag
      let reported := { loop with baseAvail := baseAvail }
      if newAvail = state.status then reported
      else
        let state := { state with status := newAvail }
        reported.publishUpstreamEvent config state (.stateEvent state)
    else loop
  | .head headData =>
    let state := { state with headData := headData }
    loop.publishIfValid config state (.headEvent ⟨state.status, state.headData⟩)
  | event =>
    if event.same state then loop
    else
      let state := event.processEvent state
      loop.publishIfValid config state (.stateEvent state)

/-- How a turn changes the loop, by the events it publishes: at most one, which carries
what the turn stored. -/
inductive Sends (before after : UpstreamLoop) : List UpstreamEvent → Prop
  | nothing (state : after.upstreamState = before.upstreamState)
      (valid : after.validUpstream = before.validUpstream) : Sends before after []
  | remove (wasValid : before.validUpstream = true) (invalid : after.validUpstream = false) :
      Sends before after [⟨config.id, .removeEvent⟩]
  | valid (wasInvalid : before.validUpstream = false) (valid : after.validUpstream = true)
      (state : after.upstreamState = before.upstreamState) :
      Sends before after [⟨config.id, .validEvent (some before.upstreamState)⟩]
  | state (wasValid : before.validUpstream = true) (valid : after.validUpstream = true)
      (head : after.upstreamState.headData = before.upstreamState.headData) :
      Sends before after [⟨config.id, .stateEvent after.upstreamState⟩]
  | head (wasValid : before.validUpstream = true) (valid : after.validUpstream = true)
      (headEvent : HeadUpstreamEvent)
      (state : after.upstreamState =
        { before.upstreamState with headData := headEvent.head }) :
      Sends before after [⟨config.id, .headEvent headEvent⟩]

theorem sends_publishIfValid {before changed : UpstreamLoop} {state : UpstreamState}
    (published : changed.published = before.published)
    (stored : changed.upstreamState = before.upstreamState)
    (valid : changed.validUpstream = before.validUpstream)
    (head : state.headData = before.upstreamState.headData) :
    ∃ sent, (changed.publishIfValid config state (.stateEvent state)).published =
        before.published ++ sent ∧
      Sends config before (changed.publishIfValid config state (.stateEvent state)) sent := by
  unfold publishIfValid
  split
  case isTrue isValid =>
      refine ⟨_, ?_, .state (valid ▸ isValid) isValid head⟩
      rw [publishUpstreamEvent, published]
  case isFalse => exact ⟨[], by rw [published, List.append_nil], .nothing stored valid⟩

variable (loop : UpstreamLoop)

theorem step_sends (input : LoopInput) :
    ∃ sent, (step config loop input).published = loop.published ++ sent ∧
      Sends config loop (step config loop input) sent := by
  have idle : ∃ sent, loop.published = loop.published ++ sent ∧ Sends config loop loop sent :=
    ⟨[], (List.append_nil _).symm, .nothing rfl rfl⟩
  obtain ⟨event, headLag, banned, unsupported⟩ := input
  cases event with
  | fatalError =>
    simp only [step]
    split
    case isTrue valid => exact ⟨_, rfl, .remove valid rfl⟩
    case isFalse => exact idle
  | valid =>
    simp only [step]
    split
    case isTrue => exact idle
    case isFalse invalid => exact ⟨_, rfl, .valid (Bool.of_not_eq_true invalid) rfl rfl⟩
  | banMethod method | unsupportedMethods methods | init | lowerBound | block | caps | labels =>
    simp only [step]
    split
    · exact idle
    · exact sends_publishIfValid config rfl rfl rfl rfl
  | unbanMethod method =>
    simp only [step]
    split
    · exact sends_publishIfValid config rfl rfl rfl rfl
    · exact idle
  | status status lag =>
    simp only [step]
    split
    case isTrue valid =>
        generalize (if lag.isNone then status else loop.baseAvail) = baseAvail
        split
        · exact ⟨[], (List.append_nil _).symm, .nothing rfl rfl⟩
        · exact ⟨_, rfl, .state valid valid rfl⟩
    case isFalse => exact idle
  | head headData =>
    simp only [step, publishIfValid]
    split
    case isTrue valid =>
        refine ⟨_, rfl, ?_⟩
        apply Sends.head
        · exact valid
        · exact valid
        · rfl
    case isFalse => exact idle

theorem status_step {loop : UpstreamLoop} (valid : loop.validUpstream = true) (input : LoopInput)
    {status : AvailabilityStatus} {lag : Option Int64} (event : input.event = .status status lag) :
    (step config loop input).baseAvail = (if lag.isNone then status else loop.baseAvail) ∧
      (step config loop input).upstreamState.status =
        statusByLag input.headLag (if lag.isNone then status else loop.baseAvail)
          config.syncingLag := by
  simp only [step, event, valid, if_true]
  generalize (if lag.isNone then status else loop.baseAvail) = baseAvail
  split
  case isTrue same => exact ⟨rfl, same.symm⟩
  case isFalse => exact ⟨rfl, rfl⟩

theorem status_step_of_ne (input : LoopInput)
    (other : ∀ status lag, input.event ≠ .status status lag) :
    (step config loop input).baseAvail = loop.baseAvail ∧
      (step config loop input).upstreamState.status = loop.upstreamState.status := by
  have stores : ∀ (changed : UpstreamLoop) (state : UpstreamState) (eventType : UpstreamEventType),
      changed.baseAvail = loop.baseAvail →
      changed.upstreamState.status = loop.upstreamState.status →
      state.status = loop.upstreamState.status →
      (changed.publishIfValid config state eventType).baseAvail = loop.baseAvail ∧
        (changed.publishIfValid config state eventType).upstreamState.status =
          loop.upstreamState.status := by
    intro changed state eventType base stored same
    unfold publishIfValid
    split
    · exact ⟨base, same⟩
    · exact ⟨base, stored⟩
  obtain ⟨event, headLag, banned, unsupported⟩ := input
  cases event with
  | fatalError =>
    simp only [step]
    split
    · exact ⟨rfl, rfl⟩
    · exact ⟨rfl, rfl⟩
  | valid | banMethod | unsupportedMethods =>
    simp only [step]
    split
    · exact ⟨rfl, rfl⟩
    · exact stores _ _ _ rfl rfl rfl
  | unbanMethod method =>
    simp only [step]
    split
    · exact stores _ _ _ rfl rfl rfl
    · exact ⟨rfl, rfl⟩
  | status status lag => exact absurd rfl (other status lag)
  | head headData => exact stores _ _ _ rfl rfl rfl
  | init | lowerBound | block | caps | labels =>
    simp only [step]
    split
    · exact ⟨rfl, rfl⟩
    · exact stores _ _ _ rfl rfl (UpstreamStateEvent.status_processEvent _ _)

/-- The stored methods are those derived from the two sets, in whatever order
the sets are listed. -/
def MethodsDerived (loop : UpstreamLoop) : Prop :=
  ∀ banned unsupported, loop.upstreamState.upstreamMethods =
    newUpstreamMethods config banned unsupported loop.bannedMethods loop.unsupportedMethods

def changesSets (loop : UpstreamLoop) : UpstreamStateEvent → Bool
  | .banMethod method => !(loop.bannedMethods.contains method || forceEnabled config method)
  | .unbanMethod method => loop.bannedMethods.contains method
  | .unsupportedMethods methods => !loop.unsupportedMethods.equal methods
  | _ => false

/-- The two sets change only while the upstream is valid. -/
def ChangesWhileValid (loop : UpstreamLoop) (input : LoopInput) : Prop :=
  loop.changesSets config input.event → loop.validUpstream

instance (loop : UpstreamLoop) (input : LoopInput) :
    Decidable (loop.ChangesWhileValid config input) :=
  inferInstanceAs (Decidable (_ → _))

theorem mem_unionOf (first second third : List String) (name : String) :
    name ∈ unionOf first second third ↔ name ∈ first ∨ name ∈ second ∨ name ∈ third := by
  simp [unionOf]

theorem newUpstreamMethods_order (banned unsupported banned' unsupported' : RangeOrder String)
    (bannedMethods unsupportedMethods : GoSet String) :
    newUpstreamMethods config banned unsupported bannedMethods unsupportedMethods =
      newUpstreamMethods config banned' unsupported' bannedMethods unsupportedMethods := by
  apply composeMethods_congr
  intro name
  simp only [mem_unionOf, GoSet.mem_toSlice]

theorem methodsDerived_start (initialValid : Bool) :
    MethodsDerived config (start config initialValid) := by
  intro banned unsupported
  apply composeMethods_congr
  intro name
  simp [mem_unionOf, start, GoSet.mem_toSlice]

theorem methodsDerived_publishMethods (input : LoopInput)
    (valid : loop.validUpstream) : MethodsDerived config (publishMethods config input loop) := by
  intro banned unsupported
  simp only [publishMethods, publishIfValid, valid, if_true, publishUpstreamEvent]
  exact newUpstreamMethods_order config input.banned input.unsupported banned unsupported _ _

theorem methodsDerived_publishIfValid (state : UpstreamState) (derived : MethodsDerived config loop)
    (same : state.upstreamMethods = loop.upstreamState.upstreamMethods)
    (eventType : UpstreamEventType) :
    MethodsDerived config (loop.publishIfValid config state eventType) := by
  intro banned unsupported
  unfold publishIfValid
  split
  · exact same.trans (derived banned unsupported)
  · exact derived banned unsupported

/-- A turn that does not change the sets of an invalid upstream keeps the stored
methods derived. -/
theorem methodsDerived_step (input : LoopInput) (derived : MethodsDerived config loop)
    (allowed : loop.ChangesWhileValid config input) :
    MethodsDerived config (step config loop input) := by
  obtain ⟨event, headLag, banned, unsupported⟩ := input
  cases event with
  | fatalError =>
    simp only [step]
    split
    · exact derived
    · exact derived
  | valid =>
    simp only [step]
    split
    · exact derived
    · apply methodsDerived_publishIfValid
      · exact derived
      · rfl
  | banMethod method | unsupportedMethods methods =>
    simp only [step]
    split
    case isTrue => exact derived
    case isFalse fresh =>
        exact methodsDerived_publishMethods config _ _
          (allowed (by simpa [changesSets] using fresh))
  | unbanMethod method =>
    simp only [step]
    split
    case isTrue banned => exact methodsDerived_publishMethods config _ _ (allowed banned)
    case isFalse => exact derived
  | status status lag =>
    simp only [step]
    split_ifs
    all_goals exact derived
  | head headData =>
    apply methodsDerived_publishIfValid
    · exact derived
    · rfl
  | init | lowerBound | block | caps | labels =>
    simp only [step]
    split
    · exact derived
    · apply methodsDerived_publishIfValid
      · exact derived
      · exact UpstreamStateEvent.upstreamMethods_processEvent _ _

/-- In every run whose ban set and detected set change only while the upstream is
valid, a valid upstream serves the methods derived from the two sets. -/
theorem methodsDerived_afterEach (initialValid : Bool) {inputs : List LoopInput}
    (allowed : EachStep (step config) (fun loop => loop.ChangesWhileValid config)
      (start config initialValid) inputs) :
    AfterEach (step config) (fun loop => loop.validUpstream → MethodsDerived config loop)
      (start config initialValid) inputs := by
  have always := afterEach_of_eachStep (methodsDerived_step config)
    (methodsDerived_start config initialValid) allowed
  apply always.imp
  intro loop derived _
  exact derived

/-- The theorem at a run that bans one of two methods, fails, recovers and lifts the ban. -/
theorem methodsDerived_afterEach_ban_and_recover :
    let served : GoMap String Method :=
      (AList.singleton "eth_call" { name := "eth_call" }).insert "eth_chainId"
        { name := "eth_chainId" }
    let config : UpstreamConfig :=
      { id := "node", spec := AList.singleton defaultMethodGroup served, fullSpec := ∅
        specConnectors := [], methods := {}, syncingLag := 0, upstreamIndex := "00001"
        rateLimiterBudget := none, autoTuneRateLimiter := none, labels := ∅ }
    let input (event : UpstreamStateEvent) : LoopInput := ⟨event, 0, .stored _, .stored _⟩
    let inputs := [input (.banMethod "eth_call"), input .fatalError, input .valid,
      input (.unbanMethod "eth_call")]
    AfterEach (step config) (fun loop => loop.validUpstream → MethodsDerived config loop)
        (start config true) inputs ∧
      (run (step config) (start config true) (inputs.take 3)).upstreamState.upstreamMethods.hasMethod
        "eth_call" = false ∧
      (run (step config) (start config true) inputs).upstreamState.upstreamMethods.hasMethod
        "eth_call" = true := by
  intro served config input inputs
  exact ⟨methodsDerived_afterEach config true (by decide), by decide, by decide⟩

/-- A ban that expires while the upstream is invalid stays in force: the ban set
is empty and the upstream valid again, but the method is still missing. -/
theorem expired_ban_outlives_recovery :
    let served : GoMap String Method := AList.singleton "eth_call" { name := "eth_call" }
    let config : UpstreamConfig :=
      { id := "node", spec := AList.singleton defaultMethodGroup served, fullSpec := ∅
        specConnectors := [], methods := {}, syncingLag := 0, upstreamIndex := "00001"
        rateLimiterBudget := none, autoTuneRateLimiter := none, labels := ∅ }
    let input (event : UpstreamStateEvent) : LoopInput := ⟨event, 0, .stored _, .stored _⟩
    let final := run (step config) (start config true)
      [input (.banMethod "eth_call"), input .fatalError,
       input (.unbanMethod "eth_call"), input .valid]
    final.validUpstream = true ∧ final.bannedMethods.keys = [] ∧
      final.unsupportedMethods.keys = [] ∧
      final.upstreamState.upstreamMethods.hasMethod "eth_call" = false ∧
      (newUpstreamMethods config (.stored _) (.stored _) final.bannedMethods
        final.unsupportedMethods).hasMethod "eth_call" = true := by
  decide

end UpstreamLoop

end Nodecore.Upstreams
