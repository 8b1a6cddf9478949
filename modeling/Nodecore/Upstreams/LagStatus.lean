/-
# The status of an upstream under lag validation

Two processes share the status of an upstream.  The supervisor of the chain measures
how far the upstream is behind and tells it when the lag crosses the syncing threshold.
The loop of the upstream combines what it was told with the health last reported, and
publishes the result, which reaches the supervisor over two channels.

The system is the supervisor, the loop and the channels between them.  Once all channels
are empty, the status should be the one derived from the present lag and the health
last reported.  That needs four things of a run: the loop drops no status event that
would change something while the upstream is invalid, no published event is dropped,
an upstream is registered without a measurement only while it is not behind, and it
does not come back with a lag from before its removal that is no longer true.
-/

import Nodecore.Upstreams.HeadLags
import Nodecore.Upstreams.UpstreamEvents

namespace Nodecore.Upstreams

open Lib Protocol ChainSupervisor

/-- A chain that validates lags, and one of its upstreams.  Both read the syncing
threshold from the settings of the chain. -/
structure LagConfig where
  chain : SupervisorConfig
  upstream : UpstreamConfig
  validates : chain.validateLag = true
  sameSyncing : upstream.syncingLag = chain.syncingLag

/-- An event for the loop from anyone but the supervisor, which alone sends lags. -/
abbrev Report := { event : UpstreamStateEvent // ∀ status lag, event ≠ .status status (some lag) }

/-- The supervisor, the loop of the upstream with the lag it was last told, and what is
on its way: events for the loop, events published by the loop to its subscription, and
events forwarded from there to the supervisor.  `reported` is the health status last
sent to the loop. -/
structure LagSystem where
  supervisor : ChainSupervisor
  loop : UpstreamLoop
  headLag : Int64
  stateChan : List UpstreamStateEvent
  subscription : List UpstreamEvent
  eventsChan : List UpstreamEvent
  reported : AvailabilityStatus

/-- What can happen next.  The upstream under `id` is looked up successfully: it is
stored before it starts, and stays. -/
inductive LagEvent (id : String)
  | report (report : Report)
  | turn (banned unsupported : RangeOrder String)
  | forward
  | handle (around : { around : Surroundings // around.getUpstream id = true })
  | other (around : { around : Surroundings // around.getUpstream id = true })
      (event : UpstreamEvent) (foreign : event.id ≠ id)

variable {system : LagSystem} {upState : UpstreamState}

namespace LagSystem

variable (config : LagConfig)

/-- How many events the subscription holds; `Publish` drops what does not fit. -/
def subscriptionSize : ℕ := 100

def start (initialValid : Bool) : LagSystem where
  supervisor := .newGenericChainSupervisor
  loop := .start config.upstream initialValid
  headLag := 0
  stateChan := []
  subscription := []
  eventsChan := []
  reported := .available

/-- The lag is stored first and the loop woken second.  Nothing the loop does in between
can tell the difference: the event that wakes it is the last one of the channel. -/
def updateHeadLag (system : LagSystem) (lag : Int64) : LagSystem :=
  let lag := if lag < 0 then 0 else lag
  { system with
    headLag := lag
    -- the status of such an event is not set and not read
    stateChan := system.stateChan ++ [.status .unknownStatus (some lag)] }

/-- The supervisor handles an event, and the upstream hears what it is told meanwhile. -/
def supervise (around : Surroundings) (event : UpstreamEvent) (system : LagSystem) : LagSystem :=
  let supervisor := system.supervisor.processEvent config.chain around event
  let told := (supervisor.lagRecord config.upstream.id).told.drop
    (system.supervisor.lagRecord config.upstream.id).told.length
  told.foldl updateHeadLag { system with supervisor := supervisor }

def healthAfter (health : AvailabilityStatus) : UpstreamStateEvent → AvailabilityStatus
  | .status status none => status
  | _ => health

def isStatus : UpstreamStateEvent → Bool
  | .status _ _ => true
  | _ => false

def publish (buffer : List UpstreamEvent) (event : UpstreamEvent) : List UpstreamEvent :=
  if buffer.length < subscriptionSize then buffer ++ [event] else buffer

def step (system : LagSystem) : LagEvent config.upstream.id → LagSystem
  | .report report =>
    { system with
      stateChan := system.stateChan ++ [report.1]
      reported := healthAfter system.reported report.1 }
  | .turn banned unsupported =>
    match system.stateChan with
    | [] => system
    | event :: rest =>
      let loop := system.loop.step config.upstream ⟨event, system.headLag, banned, unsupported⟩
      { system with
        loop := loop
        stateChan := rest
        subscription :=
          (loop.published.drop system.loop.published.length).foldl publish
            system.subscription }
  | .forward =>
    match system.subscription with
    | [] => system
    | event :: rest =>
      { system with subscription := rest, eventsChan := system.eventsChan ++ [event] }
  | .handle around =>
    match system.eventsChan with
    | [] => system
    | event :: rest => supervise config around event { system with eventsChan := rest }
  | .other around event _ => supervise config around event system

def Drained (system : LagSystem) : Prop :=
  system.stateChan = [] ∧ system.subscription = [] ∧ system.eventsChan = []

def stored (system : LagSystem) : Option UpstreamState :=
  system.supervisor.upstreamStates.lookup config.upstream.id

/-- Whether a head is behind the chain's by more than the threshold. -/
def isBehind (system : LagSystem) (head : Block) : Bool :=
  lagExceeds (lagBehind system.supervisor.chainHeight head) config.chain.syncingLag

/-- Whether the lag the upstream was last told is over the threshold. -/
def isToldBehind (system : LagSystem) : Bool :=
  lagExceeds system.headLag config.chain.syncingLag

/-- The status of a registered valid upstream, with the supervisor and with the loop, is
the one derived from the present lag and the last reported health, and so are the flag
of the supervisor and the lag held by the upstream. -/
def AgreesOnLag (system : LagSystem) : Prop :=
  system.loop.validUpstream = true → ∀ upState ∈ system.stored config,
    let derived := statusByLag (lagBehind system.supervisor.chainHeight upState.headData)
      system.reported config.chain.syncingLag
    upState.status = derived ∧ system.loop.upstreamState.status = derived ∧
      (system.supervisor.lagRecord config.upstream.id).isOver =
        system.isBehind config upState.headData ∧
      system.isToldBehind config = system.isBehind config upState.headData

/-- An upstream that is not registered may be registered by the event.  Without a
measurement it must not be behind, by its head or by what it was told.  With one, it
must not have been told so before, unless it comes back behind. -/
def RegistersInStep (system : LagSystem) : UpstreamEventType → Prop
  | .stateEvent upState =>
    system.isToldBehind config = false ∧ system.isBehind config upState.headData = false
  | .validEvent (some upState) =>
    if upState.headData.isEmptyByHeight then
      system.isToldBehind config = false ∧ system.isBehind config upState.headData = false
    else system.isToldBehind config = true →
      upState.status ≠ .available ∧
        system.supervisor.fc.heads.lookup config.upstream.id = none ∧
        system.isBehind config upState.headData = true
  | _ => True

/-- A status event that would leave the health and the status as they are. -/
def IsSettled (system : LagSystem) (event : UpstreamStateEvent) : Prop :=
  healthAfter system.loop.baseAvail event = system.loop.baseAvail ∧
    system.loop.upstreamState.status =
      statusByLag system.headLag system.loop.baseAvail config.upstream.syncingLag

/-- The condition on one step.  The loop takes an event only while its subscription has
room, and a status event only while the upstream is valid, unless it would change
nothing. -/
def Orderly (system : LagSystem) : LagEvent config.upstream.id → Prop
  | .turn _ _ =>
    system.subscription.length < subscriptionSize ∧
      ∀ event ∈ system.stateChan.head?, isStatus event →
        system.loop.validUpstream = true ∨ system.IsSettled config event
  | .handle _ =>
    ∀ event ∈ system.eventsChan.head?, system.stored config = none →
      system.RegistersInStep config event.eventType
  | _ => True

instance (system : LagSystem) : Decidable system.Drained :=
  decidable_of_iff (system.stateChan.isEmpty && system.subscription.isEmpty &&
    system.eventsChan.isEmpty) (by simp [Drained, and_assoc])

instance (system : LagSystem) : Decidable (system.AgreesOnLag config) :=
  inferInstanceAs (Decidable (_ → ∀ upState ∈ system.stored config, _ ∧ _))

instance (system : LagSystem) : ∀ eventType : UpstreamEventType,
    Decidable (system.RegistersInStep config eventType)
  | .stateEvent _ => inferInstanceAs (Decidable (_ ∧ _))
  | .validEvent (some upState) =>
    inferInstanceAs (Decidable (if upState.headData.isEmptyByHeight then _ ∧ _ else _ → _))
  | .validEvent none => inferInstanceAs (Decidable True)
  | .removeEvent => inferInstanceAs (Decidable True)
  | .headEvent _ => inferInstanceAs (Decidable True)

instance (system : LagSystem) : ∀ event : LagEvent config.upstream.id,
    Decidable (system.Orderly config event)
  | .turn _ _ => inferInstanceAs (Decidable (_ ∧ ∀ event ∈ system.stateChan.head?, _ → _ ∨ _ ∧ _))
  | .handle _ => inferInstanceAs (Decidable (∀ event ∈ system.eventsChan.head?, _ → _))
  | .report _ => inferInstanceAs (Decidable True)
  | .forward => inferInstanceAs (Decidable True)
  | .other _ _ _ => inferInstanceAs (Decidable True)

/-- A state event keeps the head of an upstream that is registered, and a valid event
comes for one that is not. -/
def Fits (stored : Option UpstreamState) : UpstreamEventType → Prop
  | .stateEvent upState => ∀ before ∈ stored, upState.headData = before.headData
  | .validEvent _ => stored = none
  | _ => True

/-- Handled in order, the events leave the upstream unregistered, or valid and
registered with what its loop holds. -/
def Follows (loop : UpstreamLoop) : Option UpstreamState → List UpstreamEvent → Prop
  | stored, [] => stored = none ∨ loop.validUpstream = true ∧ stored = some loop.upstreamState
  | stored, event :: events =>
    event.id = config.upstream.id ∧ Fits stored event.eventType ∧
      Follows loop (registered stored event.eventType) events

variable {config}

section

variable {before after : UpstreamLoop} {sent : List UpstreamEvent}
  (sends : UpstreamLoop.Sends config.upstream before after sent)
include sends

theorem Follows.append {events : List UpstreamEvent} {stored : Option UpstreamState}
    (follows : Follows config before stored events) :
    Follows config after stored (events ++ sent) := by
  induction events generalizing stored with
  | nil =>
    rw [List.nil_append]
    cases sends with
    | nothing state valid => rwa [Follows, state, valid]
    | remove wasValid invalid => exact ⟨rfl, trivial, .inl rfl⟩
    | valid wasInvalid valid state =>
      have absent : stored = none := by
        rcases follows with absent | ⟨valid, _⟩
        · exact absent
        · rw [wasInvalid] at valid
          cases valid
      exact ⟨rfl, absent, .inr ⟨valid, congrArg some state.symm⟩⟩
    | state wasValid valid head =>
      refine ⟨rfl, fun upState there => ?_, .inr ⟨valid, rfl⟩⟩
      rcases follows with rfl | ⟨_, rfl⟩
      · cases there
      · cases there
        exact head
    | head wasValid valid headEvent state =>
      refine ⟨rfl, trivial, ?_⟩
      rcases follows with rfl | ⟨_, rfl⟩
      · exact .inl rfl
      · exact .inr ⟨valid, congrArg some state.symm⟩
  | cons event events ih => exact ⟨follows.1, follows.2.1, ih follows.2.2⟩

theorem foldl_publish_of_sends {buffer : List UpstreamEvent}
    (room : buffer.length < subscriptionSize) : sent.foldl publish buffer = buffer ++ sent := by
  cases sends with
  | nothing => exact (List.append_nil buffer).symm
  | remove | valid | state | head => exact if_pos room

end

/-! ## What the supervisor has measured -/

variable (config) in
/-- The flag and the lag the upstream was told are those of its present lag; an upstream
that is not registered has no flag. -/
structure Measured (system : LagSystem) : Prop where
  absent : system.stored config = none →
    (system.supervisor.lagRecord config.upstream.id).isOver = false
  flag : ∀ upState ∈ system.stored config,
    (system.supervisor.lagRecord config.upstream.id).isOver =
      system.isBehind config upState.headData
  told : ∀ upState ∈ system.stored config,
    system.isToldBehind config = system.isBehind config upState.headData

theorem lagExceeds_clamp (lag syncingLag : Int64) :
    lagExceeds (if lag < 0 then 0 else lag) syncingLag = lagExceeds lag syncingLag := by
  split
  case isTrue negative =>
      have under : ∀ other : Int64, other ≤ 0 → lagExceeds other syncingLag = false := by
        intro other low
        simp only [lagExceeds, Bool.and_eq_false_iff, decide_eq_false_iff_not,
          Int64.lt_iff_toInt_lt, Int64.le_iff_toInt_le] at low ⊢
        omega
      rw [under 0 (Int64.le_refl 0), under lag (Int64.le_of_lt negative)]
  case isFalse => rfl

theorem foldl_updateHeadLag (told : List Int64) (system : LagSystem) :
    ∃ headLag woken, told.foldl updateHeadLag system =
        { system with headLag := headLag, stateChan := system.stateChan ++ woken } ∧
      (∀ event ∈ woken, ∃ lag, event = .status .unknownStatus (some lag)) ∧
      (woken = [] → headLag = system.headLag) := by
  induction told generalizing system with
  | nil => exact ⟨system.headLag, [], by simp, by simp, fun _ => rfl⟩
  | cons lag told ih =>
    obtain ⟨headLag, woken, same, lags, _⟩ := ih (system.updateHeadLag lag)
    refine ⟨headLag, .status .unknownStatus (some (if lag < 0 then 0 else lag)) :: woken,
      ?_, ?_, fun none => absurd none (List.cons_ne_nil _ _)⟩
    · rw [List.foldl_cons, same]
      simp [updateHeadLag]
    · simpa using lags

section Supervise

variable (config) (around : Surroundings) (event : UpstreamEvent) (system : LagSystem)

theorem supervise_eq :
    ∃ headLag woken, supervise config around event system =
        { system with
          supervisor := system.supervisor.processEvent config.chain around event
          headLag := headLag
          stateChan := system.stateChan ++ woken } ∧
      (∀ event ∈ woken, ∃ lag, event = .status .unknownStatus (some lag)) ∧
      (woken = [] → headLag = system.headLag) := foldl_updateHeadLag _ _

theorem supervisor_supervise : (supervise config around event system).supervisor =
    system.supervisor.processEvent config.chain around event := by
  obtain ⟨_, _, same, _⟩ := supervise_eq config around event system
  rw [same]

theorem loop_supervise : (supervise config around event system).loop = system.loop := by
  obtain ⟨_, _, same, _⟩ := supervise_eq config around event system
  rw [same]

theorem channels_supervise :
    (supervise config around event system).eventsChan = system.eventsChan ∧
      (supervise config around event system).subscription = system.subscription := by
  obtain ⟨_, _, same, _⟩ := supervise_eq config around event system
  rw [same]
  exact ⟨rfl, rfl⟩

variable {config around event system}

theorem isToldBehind_of_silent
    (silent : ((system.supervisor.processEvent config.chain around event).lagRecord
      config.upstream.id).told = (system.supervisor.lagRecord config.upstream.id).told) :
    (supervise config around event system).isToldBehind config = system.isToldBehind config := by
  rw [supervise, silent, List.drop_length]
  rfl

theorem isToldBehind_of_track {lag : Int64}
    (tracked : (system.supervisor.processEvent config.chain around event).lagRecord
        config.upstream.id =
      (system.supervisor.lagRecord config.upstream.id).track config.chain.syncingLag lag)
    (right : (system.supervisor.lagRecord config.upstream.id).isOver =
        lagExceeds lag config.chain.syncingLag →
      system.isToldBehind config = lagExceeds lag config.chain.syncingLag) :
    (supervise config around event system).isToldBehind config =
      lagExceeds lag config.chain.syncingLag := by
  by_cases stays : (system.supervisor.lagRecord config.upstream.id).isOver =
      lagExceeds lag config.chain.syncingLag
  · rw [LagRecord.track, if_pos stays] at tracked
    rw [isToldBehind_of_silent (congrArg LagRecord.told tracked), right stays]
  · rw [LagRecord.track, if_neg stays] at tracked
    rw [supervise, tracked, List.drop_left]
    exact lagExceeds_clamp lag config.chain.syncingLag

theorem chainHeight_of_not_forwarded (silent : system.supervisor.forwarded event = none) :
    (supervise config around event system).supervisor.chainHeight =
      system.supervisor.chainHeight := by
  rw [supervisor_supervise]
  have moved := heads_processEvent config.chain around system.supervisor event
  rw [silent] at moved
  exact congrArg (·.headData.head.height) moved

section

variable (found : around.getUpstream config.upstream.id = true)
  (stays : event.eventType = .removeEvent → config.upstream.id ≠ event.id)
  (absent : (supervise config around event system).stored config = none →
    (system.supervisor.lagRecord config.upstream.id).isOver = false)
include found stays absent

theorem measured_of_not_forwarded (silent : system.supervisor.forwarded event = none)
    (present : ∀ upState ∈ (supervise config around event system).stored config,
      (system.supervisor.lagRecord config.upstream.id).isOver =
          system.isBehind config upState.headData ∧
        system.isToldBehind config = system.isBehind config upState.headData) :
    Measured config (supervise config around event system) := by
  have record := lagRecord_processEvent config.chain system.supervisor
    config.validates found event stays
  dsimp only at record
  rw [silent, Option.isSome_none, if_neg Bool.false_ne_true] at record
  have told := isToldBehind_of_silent (congrArg LagRecord.told record)
  have behind : ∀ head, (supervise config around event system).isBehind config head =
      system.isBehind config head := by
    intro head
    rw [isBehind, chainHeight_of_not_forwarded silent]
    rfl
  constructor
  · intro none
    rw [supervisor_supervise, record]
    exact absent none
  · intro upState there
    rw [supervisor_supervise, record, behind]
    exact (present upState there).1
  · intro upState there
    rw [told, behind]
    exact (present upState there).2

theorem measured_of_forwarded (forwards : (system.supervisor.forwarded event).isSome)
    (present : ∀ upState ∈ (supervise config around event system).stored config,
      (system.supervisor.lagRecord config.upstream.id).isOver =
          (supervise config around event system).isBehind config upState.headData →
        system.isToldBehind config =
          (supervise config around event system).isBehind config upState.headData) :
    Measured config (supervise config around event system) := by
  have record := lagRecord_processEvent config.chain system.supervisor
    config.validates found event stays
  dsimp only at record
  rw [if_pos forwards, ← supervisor_supervise] at record
  have tracked : ∀ upState ∈ (supervise config around event system).stored config,
      (supervise config around event system).supervisor.lagRecord config.upstream.id =
        (system.supervisor.lagRecord config.upstream.id).track config.chain.syncingLag
          (lagBehind (supervise config around event system).supervisor.chainHeight
            upState.headData) := by
    intro upState there
    rw [record, show AList.lookup _ _ = _ from there, Option.elim_some]
  constructor
  · intro none
    rw [record, show AList.lookup _ _ = _ from none, Option.elim_none]
    exact absent none
  · intro upState there
    rw [tracked upState there, LagRecord.isOver_track]
    rfl
  · intro upState there
    refine isToldBehind_of_track ?_ (present upState there)
    rw [← supervisor_supervise]
    exact tracked upState there

end

variable (around system) in
theorem stored_supervise (own : event.id = config.upstream.id) :
    (supervise config around event system).stored config =
      registered (system.stored config) event.eventType := by
  rw [stored, supervisor_supervise, ← own]
  exact (lookup_processEvent config.chain around system.supervisor event).trans
    (by rw [stored, own])

variable (around system) in
theorem stored_supervise_of_ne (foreign : event.id ≠ config.upstream.id) :
    (supervise config around event system).stored config = system.stored config := by
  rw [stored, supervisor_supervise]
  exact lookup_processEvent_of_ne config.chain around system.supervisor event
    foreign.symm

theorem Measured.told_eq_flag (measured : Measured config system)
    (there : system.stored config = some upState) :
    system.isToldBehind config = (system.supervisor.lagRecord config.upstream.id).isOver :=
  (measured.told upState there).trans (measured.flag upState there).symm

theorem Measured.other (measured : Measured config system)
    (found : around.getUpstream config.upstream.id = true)
    (foreign : event.id ≠ config.upstream.id) :
    Measured config (supervise config around event system) := by
  have same := stored_supervise_of_ne around system foreign
  cases forwards : system.supervisor.forwarded event with
  | none =>
    refine measured_of_not_forwarded found (fun _ => foreign.symm) ?_ forwards ?_
    · rw [same]
      exact measured.absent
    · rw [same]
      exact fun upState there => ⟨measured.flag upState there, measured.told upState there⟩
  | some headEvent =>
    refine measured_of_forwarded found (fun _ => foreign.symm) ?_ (by rw [forwards]; rfl) ?_
    · rw [same]
      exact measured.absent
    · rw [same]
      exact fun upState there flag => (measured.told_eq_flag there).trans flag

theorem chainHeight_of_unavailable {id : String} (unavailable : upState.status ≠ .available)
    (dead : system.supervisor.fc.heads.lookup id = none) :
    (supervise config around ⟨id, .validEvent (some upState)⟩ system).supervisor.chainHeight =
      system.supervisor.chainHeight := by
  rw [supervisor_supervise]
  have moved := heads_processEvent config.chain around system.supervisor
    ⟨id, .validEvent (some upState)⟩
  refine (congrArg (·.headData.head.height) moved).trans ?_
  simp only [forwarded]
  by_cases empty : upState.headData.isEmptyByHeight = true
  · rw [if_pos empty]
    rfl
  · have idle : system.supervisor.fc.choose around.heads id ⟨upState.status, upState.headData⟩ =
        (system.supervisor.fc, false, system.supervisor.fc.max) := by
      rw [HeightForkChoice.choose, if_neg unavailable, if_neg (AList.lookup_eq_none.mp dead)]
    rw [if_neg empty, Option.elim_some, ChainSupervisor.Heads.move, if_neg empty]
    simp only [heads, idle, Bool.false_eq_true, if_false]
    rfl

theorem supervise_of_processEvent_eq
    (idle : system.supervisor.processEvent config.chain around event = system.supervisor) :
    supervise config around event system = system := by
  rw [supervise, idle, List.drop_length]
  rfl

section

variable (measured : Measured config system)
include measured

/-- Registering the upstream without a measurement is right while it is not behind. -/
theorem Measured.absent_present (none : system.stored config = none) {head : Block}
    (under : system.isToldBehind config = false ∧ system.isBehind config head = false) :
    (system.supervisor.lagRecord config.upstream.id).isOver = system.isBehind config head ∧
      system.isToldBehind config = system.isBehind config head := by
  rw [under.1, under.2]
  exact ⟨measured.absent none, rfl⟩

section

variable (found : around.getUpstream config.upstream.id = true)
include found

theorem Measured.remove :
    Measured config (supervise config around ⟨config.upstream.id, .removeEvent⟩ system) := by
  cases there : system.stored config with
  | none =>
    rw [supervise_of_processEvent_eq]
    · exact measured
    · simp only [processEvent, show AList.lookup _ _ = _ from there]
  | some upState =>
    have record := lagRecord_processEvent_remove config.chain
      system.supervisor config.validates found there
    have gone : (supervise config around ⟨config.upstream.id, .removeEvent⟩ system).stored
        config = none := stored_supervise around system rfl
    refine ⟨fun _ => ?_, ?_, ?_⟩
    · rw [supervisor_supervise, record]
      rfl
    all_goals
      intro upState there
      rw [gone] at there
      cases there

/-- A valid event registers the upstream, and has its lag measured unless its head is
empty. -/
theorem Measured.valid (fresh : system.stored config = none)
    (registers : system.RegistersInStep config (.validEvent (some upState))) :
    Measured config
      (supervise config around ⟨config.upstream.id, .validEvent (some upState)⟩ system) := by
  have after : (supervise config around ⟨config.upstream.id, .validEvent (some upState)⟩
      system).stored config = some upState := stored_supervise around system rfl
  by_cases empty : upState.headData.isEmptyByHeight = true
  · rw [RegistersInStep, if_pos empty] at registers
    refine measured_of_not_forwarded found (fun removes => by cases removes) ?_ (if_pos empty) ?_
    · intro none
      rw [after] at none
      cases none
    · intro upState' there
      rw [after] at there
      cases there
      exact measured.absent_present fresh registers
  · rw [RegistersInStep, if_neg empty] at registers
    refine measured_of_forwarded found (fun removes => by cases removes) ?_
      (congrArg Option.isSome (if_neg empty)) ?_
    · intro none
      rw [after] at none
      cases none
    · intro upState' there flag
      rw [after] at there
      cases there
      rw [measured.absent fresh] at flag
      -- had it been told that it is behind, it would be measured as behind again
      rw [← flag]
      apply Bool.of_not_eq_true
      intro told
      obtain ⟨unavailable, dead, behind⟩ := registers told
      rw [isBehind, chainHeight_of_unavailable unavailable dead] at flag
      rw [isBehind, ← flag] at behind
      cases behind

theorem Measured.own (own : event.id = config.upstream.id)
    (fits : Fits (system.stored config) event.eventType)
    (registers : system.stored config = none → system.RegistersInStep config event.eventType) :
    Measured config (supervise config around event system) := by
  have after := stored_supervise around system own
  obtain ⟨id, eventType⟩ := event
  cases own
  cases eventType with
  | removeEvent => exact measured.remove found
  | headEvent headEvent =>
    refine measured_of_forwarded found (fun removes => by cases removes) ?_ rfl ?_
    · intro none
      rw [after] at none
      exact measured.absent (Option.map_eq_none_iff.mp none)
    · intro upState there flag
      rw [after] at there
      obtain ⟨before, found, _⟩ := Option.map_eq_some_iff.mp there
      exact (measured.told_eq_flag found).trans flag
  | stateEvent upState =>
    refine measured_of_not_forwarded found (fun removes => by cases removes) ?_ rfl ?_
    · intro none
      rw [after] at none
      cases none
    · intro upState' there
      rw [after] at there
      cases there
      cases before : system.stored config with
      | none => exact measured.absent_present before (registers before)
      | some stored =>
        rw [fits stored before]
        exact ⟨measured.flag stored before, measured.told stored before⟩
  | validEvent state =>
    cases state with
    | none =>
      rw [supervise_of_processEvent_eq rfl]
      exact measured
    | some upState => exact measured.valid found fits (registers fits)

end

end

end Supervise

variable (config) in
/-- The status is the one derived from the lag held, unless an event that has it derived
anew is on its way, and the reports on their way end in the health last reported. -/
structure Derives (system : LagSystem) : Prop where
  status : (∃ status lag, .status status (some lag) ∈ system.stateChan) ∨
    system.loop.upstreamState.status =
      statusByLag system.headLag system.loop.baseAvail config.upstream.syncingLag
  health : system.stateChan.foldl healthAfter system.loop.baseAvail = system.reported

theorem foldl_healthAfter_of_lags {woken : List UpstreamStateEvent}
    (lags : ∀ event ∈ woken, ∃ lag, event = .status .unknownStatus (some lag))
    (health : AvailabilityStatus) : woken.foldl healthAfter health = health := by
  induction woken with
  | nil => rfl
  | cons event woken ih =>
    obtain ⟨lag, rfl⟩ := lags event List.mem_cons_self
    exact ih fun event later => lags event (List.mem_cons_of_mem _ later)

theorem Derives.supervise (derives : Derives config system) (around : Surroundings)
    (event : UpstreamEvent) : Derives config (supervise config around event system) := by
  obtain ⟨headLag, woken, same, lags, kept⟩ := supervise_eq config around event system
  rw [same]
  constructor
  · cases woken with
    | nil =>
      rw [kept rfl, List.append_nil]
      exact derives.status
    | cons first woken =>
      obtain ⟨lag, rfl⟩ := lags first List.mem_cons_self
      exact .inl ⟨_, lag, List.mem_append_right _ List.mem_cons_self⟩
  · rw [List.foldl_append, derives.health, foldl_healthAfter_of_lags lags]

theorem Derives.report (derives : Derives config system) (report : Report) :
    Derives config (step config system (.report report)) where
  status := by
    rcases derives.status with ⟨status, lag, queued⟩ | derived
    · exact .inl ⟨status, lag, List.mem_append_left _ queued⟩
    · exact .inr derived
  health := by
    simp only [step, List.foldl_append, derives.health]
    rfl

theorem Derives.turn (derives : Derives config system) {event : UpstreamStateEvent}
    {rest : List UpstreamStateEvent} (queued : system.stateChan = event :: rest)
    (orderly : isStatus event → system.loop.validUpstream = true ∨ system.IsSettled config event)
    (banned unsupported : RangeOrder String) :
    Derives config (step config system (.turn banned unsupported)) := by
  have status := derives.status
  have health := derives.health
  rw [queued] at status health
  simp only [step, queued]
  by_cases isStatus : ∃ reported lag, event = .status reported lag
  · obtain ⟨reported, lag, rfl⟩ := isStatus
    by_cases valid : system.loop.validUpstream = true
    · obtain ⟨base, derived⟩ := UpstreamLoop.status_step config.upstream valid
        ⟨.status reported lag, system.headLag, banned, unsupported⟩ rfl
      refine ⟨.inr (by rw [derived, base]), ?_⟩
      rw [base, ← health, List.foldl_cons]
      cases lag with
      | none => rfl
      | some lag => rfl
    · obtain ⟨sameHealth, derived⟩ := (orderly rfl).resolve_left valid
      have dropped : system.loop.step config.upstream
          ⟨.status reported lag, system.headLag, banned, unsupported⟩ = system.loop := if_neg valid
      rw [dropped]
      refine ⟨.inr derived, ?_⟩
      rw [← health, List.foldl_cons, sameHealth]
  · have other : ∀ reported lag, event ≠ .status reported lag :=
      fun reported lag same => isStatus ⟨reported, lag, same⟩
    obtain ⟨base, same⟩ := UpstreamLoop.status_step_of_ne config.upstream system.loop
      ⟨event, system.headLag, banned, unsupported⟩ other
    constructor
    · rcases status with ⟨reported, lag, listed⟩ | derived
      · rcases List.mem_cons.mp listed with here | later
        · exact absurd here.symm (other reported (some lag))
        · exact .inl ⟨reported, lag, later⟩
      · right
        rw [base, same]
        exact derived
    · rw [base, ← health, List.foldl_cons]
      congr 1
      cases event with
      | status reported lag => exact absurd rfl (other reported lag)
      | _ => rfl

variable (config) in
/-- What holds along a run whose steps all meet the condition. -/
structure Consistent (system : LagSystem) : Prop where
  derives : Derives config system
  measured : Measured config system
  follows : Follows config system.loop (system.stored config)
    (system.eventsChan ++ system.subscription)

theorem consistent_start (initialValid : Bool) :
    Consistent config (start config initialValid) where
  derives := by
    have under : lagExceeds 0 config.upstream.syncingLag = false := by
      simp only [lagExceeds, Bool.and_eq_false_iff, decide_eq_false_iff_not,
        Int64.lt_iff_toInt_lt]
      omega
    refine ⟨.inr ?_, rfl⟩
    simp only [start, statusByLag, under, Bool.false_eq_true, and_false, if_false]
    rfl
  measured := by
    refine ⟨fun _ => rfl, ?_, ?_⟩
    all_goals
      intro upState there
      cases there
  follows := .inl rfl

theorem Consistent.turn (consistent : Consistent config system)
    {banned unsupported : RangeOrder String}
    (orderly : system.Orderly config (.turn banned unsupported)) :
    Consistent config (step config system (.turn banned unsupported)) := by
  cases queued : system.stateChan with
  | nil =>
    simp only [step, queued]
    exact consistent
  | cons event rest =>
    have derives := consistent.derives.turn queued (orderly.2 event (by rw [queued]; rfl))
      banned unsupported
    obtain ⟨sent, published, sends⟩ := UpstreamLoop.step_sends config.upstream system.loop
      ⟨event, system.headLag, banned, unsupported⟩
    have follows := consistent.follows.append sends
    refine ⟨derives, ?_, ?_⟩
    · simp only [step, queued]
      exact { consistent.measured with }
    · simp only [step, queued]
      rw [published, List.drop_left, foldl_publish_of_sends sends orderly.1, ← List.append_assoc]
      exact follows

theorem Consistent.forward (consistent : Consistent config system) :
    Consistent config (step config system .forward) := by
  cases sent : system.subscription with
  | nil =>
    simp only [step, sent]
    exact consistent
  | cons event rest =>
    have follows := consistent.follows
    rw [sent, List.append_cons] at follows
    simp only [step, sent]
    exact ⟨{ consistent.derives with }, { consistent.measured with }, follows⟩

theorem Consistent.handle (consistent : Consistent config system)
    {around : { around : Surroundings // around.getUpstream config.upstream.id = true }}
    (orderly : system.Orderly config (.handle around)) :
    Consistent config (step config system (.handle around)) := by
  cases queued : system.eventsChan with
  | nil =>
    simp only [step, queued]
    exact consistent
  | cons event rest =>
    have guard := orderly event (by rw [queued]; rfl)
    have follows := consistent.follows
    rw [queued] at follows
    obtain ⟨own, fits, next⟩ := follows
    have measured : Measured config { system with eventsChan := rest } :=
      { consistent.measured with }
    have derives : Derives config { system with eventsChan := rest } :=
      { consistent.derives with }
    simp only [step, queued]
    refine ⟨derives.supervise around event, measured.own around.2 own fits guard, ?_⟩
    rw [loop_supervise, (channels_supervise _ _ _ _).1, (channels_supervise _ _ _ _).2,
      stored_supervise _ _ own]
    exact next

theorem consistent_step (system : LagSystem) (event : LagEvent config.upstream.id)
    (consistent : Consistent config system) (orderly : system.Orderly config event) :
    Consistent config (step config system event) := by
  cases event with
  | report report =>
    exact ⟨consistent.derives.report report, { consistent.measured with }, consistent.follows⟩
  | turn banned unsupported => exact consistent.turn orderly
  | forward => exact consistent.forward
  | handle around => exact consistent.handle orderly
  | other around event foreign =>
    refine ⟨consistent.derives.supervise around event,
      consistent.measured.other around.2 foreign, ?_⟩
    rw [step, loop_supervise, (channels_supervise _ _ _ _).1, (channels_supervise _ _ _ _).2,
      stored_supervise_of_ne _ _ foreign]
    exact consistent.follows

theorem Consistent.agreesOnLag (consistent : Consistent config system) (drained : system.Drained) :
    system.AgreesOnLag config := by
  intro valid upState there
  obtain ⟨noReports, noSent, noEvents⟩ := drained
  have follows := consistent.follows
  rw [noSent, noEvents] at follows
  have held : upState = system.loop.upstreamState := by
    rcases follows with absent | ⟨_, present⟩
    · cases absent.symm.trans there
    · exact Option.some.inj (there.symm.trans present)
  have health := consistent.derives.health
  rw [noReports] at health
  have told := consistent.measured.told upState there
  have derived : system.loop.upstreamState.status =
      statusByLag (lagBehind system.supervisor.chainHeight upState.headData) system.reported
        config.chain.syncingLag := by
    rcases consistent.derives.status with ⟨_, _, queued⟩ | derived
    · rw [noReports] at queued
      cases queued
    · rw [derived, config.sameSyncing, show system.loop.baseAvail = system.reported from health]
      unfold statusByLag
      rw [show lagExceeds system.headLag _ = _ from told]
      rfl
  refine ⟨?_, derived, consistent.measured.flag upState there, told⟩
  rw [held]
  exact held ▸ derived

variable (config) in
/-- In every run whose steps all meet the condition, whenever nothing is on its way the
status of a registered valid upstream is the one derived from its present lag and the
health last reported. -/
theorem status_agrees_with_lag (initialValid : Bool) (events : List (LagEvent config.upstream.id))
    (orderly : EachStep (step config) (fun system => system.Orderly config)
      (start config initialValid) events) :
    AfterEach (step config) (fun system => system.Drained → system.AgreesOnLag config)
      (start config initialValid) events :=
  (afterEach_of_eachStep consistent_step (consistent_start initialValid) orderly).imp
    fun _ consistent drained => consistent.agreesOnLag drained

/-- Takes one report to the loop, what it publishes on to the supervisor, and has the
supervisor handle it. -/
def delivery (id : String) (report : Report) : List (LagEvent id) :=
  [.report report, .turn (.stored _) (.stored _), .forward, .handle ⟨.plain, rfl⟩]

def sampleConfig : LagConfig where
  chain := ⟨∅, true, 10, false⟩
  upstream :=
    { id := "node", spec := ∅, fullSpec := ∅, specConnectors := [], methods := {}
      syncingLag := 10, upstreamIndex := "00001", rateLimiterBudget := none
      autoTuneRateLimiter := none, labels := ∅ }
  validates := rfl
  sameSyncing := rfl

def otherHead (height : UInt64) : LagEvent sampleConfig.upstream.id :=
  .other ⟨.plain, rfl⟩ ⟨"other", .headEvent ⟨.available, { height := height }⟩⟩
    (show "other" ≠ "node" by decide)

/-- The node holds the head 50 when another one reports 100.  It is told that it is
behind, becomes syncing, and is removed. -/
def removedBehind : List (LagEvent sampleConfig.upstream.id) :=
  delivery _ ⟨.init, nofun⟩ ++ delivery _ ⟨.head { height := 50 }, nofun⟩ ++ [otherHead 100] ++
    [.turn (.stored _) (.stored _), .forward, .handle ⟨.plain, rfl⟩] ++
    delivery _ ⟨.fatalError, nofun⟩

/-- The theorem at a run in which the removed node comes back while it is behind, and
is told so again. -/
theorem status_agrees_after_return :
    AfterEach (step sampleConfig) (fun system => system.Drained → system.AgreesOnLag sampleConfig)
      (start sampleConfig true)
      (removedBehind ++ delivery _ ⟨.valid, nofun⟩ ++ [.turn (.stored _) (.stored _)]) :=
  status_agrees_with_lag sampleConfig true _ (by decide +kernel)

/-- While the node is away, the other one falls back to 55.  The node comes back five
blocks behind, with the status and the lag from before; nobody tells it otherwise. -/
theorem recovered_node_stays_syncing :
    let final := run (step sampleConfig) (start sampleConfig true)
      (removedBehind ++ [otherHead 55] ++ delivery _ ⟨.valid, nofun⟩)
    final.Drained ∧ final.loop.upstreamState.status = .syncing ∧
      ¬ final.AgreesOnLag sampleConfig := by
  decide +kernel

end LagSystem

end Nodecore.Upstreams
