/-
# Who the head of a chain belongs to

The head of a chain is the highest of the live heads in the fork choice, while the
upstreams are registered with a state of their own.  Nothing keeps the two together:
a state event never reaches the fork choice, and a head event counts whether or not its
upstream is registered.

The first result says when every live head belongs to an available upstream: exactly
as long as no event parts the live head of its upstream from the registered state.
The second is about the upstream recorded with the head, which is always the one
whose event is handled.  The record is right exactly as long as the chain's head moves
to a head of the event's upstream, and the recorded upstream keeps its head while the
chain's head stays.
-/

import Nodecore.Upstreams.Registrations

namespace Nodecore.Upstreams

open Lib Protocol HeightForkChoice

variable {supervisor : ChainSupervisor}

namespace ChainSupervisor

variable (config : SupervisorConfig)

/-- How the chain's head comes from the live heads: it has the greatest live height, or
is zero. -/
structure HeadFollows (supervisor : ChainSupervisor) : Prop where
  tracks : supervisor.fc.Tracks
  nonempty : ∀ id head, supervisor.fc.heads.lookup id = some head → head.isEmptyByHeight = false
  follows : supervisor.state.headData.head.rank = 0 ∨
    supervisor.state.headData.head.rank = supervisor.fc.liveMaxHeight

theorem headFollows_initial : newGenericChainSupervisor.HeadFollows where
  tracks := tracks_initial
  nonempty := by
    intro id head live
    cases live
  follows := .inl rfl

variable (order : RangeOrder (Entry String Block))

theorem Heads.follows_move (upstreamId : String) {held : Heads} (tracks : held.fc.Tracks)
    (follows : held.headData.head.rank = 0 ∨ held.headData.head.rank = held.fc.liveMaxHeight)
    (headEvent : HeadUpstreamEvent) :
    (held.move order upstreamId headEvent).headData.head.rank = 0 ∨
      (held.move order upstreamId headEvent).headData.head.rank =
        (held.move order upstreamId headEvent).fc.liveMaxHeight := by
  by_cases empty : headEvent.head.isEmptyByHeight = true
  · left
    rw [Heads.move, if_pos empty]
    rfl
  · rcases follows with zero | agree
    · have tracksAfter := tracks_choose order tracks upstreamId headEvent
      have reported := (choose_report order held.fc upstreamId headEvent).1
      simp only [Heads.move, if_neg empty]
      split
      · exact .inr (reported ▸ tracksAfter)
      · exact .inl zero
    · exact .inr (Heads.agree_move order upstreamId held tracks agree empty)

theorem HeadFollows.step (before : supervisor.HeadFollows) (input : Surroundings × UpstreamEvent) :
    (step config supervisor input).HeadFollows where
  tracks := tracks_step config supervisor input before.tracks
  nonempty := by
    intro id head live
    by_cases own : id = input.2.id
    · rw [own, ChainSupervisor.step, lookup_heads_processEvent] at live
      cases forwards : supervisor.forwarded input.2 with
      | none =>
        rw [forwards] at live
        exact before.nonempty _ head live
      | some headEvent =>
        rw [forwards, Option.elim_some, liveHead] at live
        split_ifs at live with empty available
        · exact before.nonempty _ head live
        · cases live
          exact Bool.of_not_eq_true empty
    · rw [ChainSupervisor.step, lookup_heads_processEvent_of_ne config _ _ _ own] at live
      exact before.nonempty id head live
  follows := by
    have moved := heads_processEvent config input.1 supervisor input.2
    show (ChainSupervisor.step config supervisor input).heads.headData.head.rank = 0 ∨
      (ChainSupervisor.step config supervisor input).heads.headData.head.rank =
        (ChainSupervisor.step config supervisor input).heads.fc.liveMaxHeight
    rw [ChainSupervisor.step, moved]
    cases supervisor.forwarded input.2 with
    | none => exact before.follows
    | some headEvent =>
      exact Heads.follows_move input.1.heads input.2.id before.tracks before.follows headEvent

/-- The upstream's live head, if it has one, is the head it is registered with, as an
available upstream. -/
def Backed (supervisor : ChainSupervisor) (id : String) : Prop :=
  ∀ head ∈ supervisor.fc.heads.lookup id, ∃ upState ∈ supervisor.upstreamStates.lookup id,
    upState.status = .available ∧ upState.headData = head

/-- Only available upstreams have a live head. -/
def OnlyAvailableLive (supervisor : ChainSupervisor) : Prop := ∀ id, supervisor.Backed id

/-- The chain's head has the height of the head of an available upstream, or is zero. -/
def HeadJustified (supervisor : ChainSupervisor) : Prop :=
  supervisor.state.headData.head.height = 0 ∨
    ∃ upState ∈ supervisor.upstreamStates.values, upState.status = .available ∧
      upState.headData.height = supervisor.state.headData.head.height

instance (supervisor : ChainSupervisor) : Decidable supervisor.HeadJustified :=
  inferInstanceAs (Decidable (_ ∨ _))

/-- The event leaves the live head of its upstream and the registered state together:
an upstream with a live head reports neither an empty head, nor a state with another
head or status, and a head becomes live only for an upstream registered as available. -/
def KeepsBacked (supervisor : ChainSupervisor) (input : Surroundings × UpstreamEvent) : Prop :=
  match input.2.eventType with
  | .removeEvent => True
  | .headEvent headEvent =>
    if headEvent.head.isEmptyByHeight then supervisor.fc.heads.lookup input.2.id = none
    else headEvent.status = .available →
      ∃ upState ∈ supervisor.upstreamStates.lookup input.2.id, upState.status = .available
  | .stateEvent upState =>
    ∀ head ∈ supervisor.fc.heads.lookup input.2.id,
      upState.status = .available ∧ upState.headData = head
  | .validEvent none => True
  | .validEvent (some upState) =>
    upState.headData.isEmptyByHeight → supervisor.fc.heads.lookup input.2.id = none

instance : ∀ (supervisor : ChainSupervisor) (input : Surroundings × UpstreamEvent),
    Decidable (supervisor.KeepsBacked input)
  | _, (_, ⟨_, .removeEvent⟩) => inferInstanceAs (Decidable True)
  | supervisor, (_, ⟨id, .headEvent headEvent⟩) =>
    inferInstanceAs (Decidable
      (if headEvent.head.isEmptyByHeight then supervisor.fc.heads.lookup id = none
      else headEvent.status = .available →
        ∃ upState ∈ supervisor.upstreamStates.lookup id, upState.status = .available))
  | supervisor, (_, ⟨id, .stateEvent upState⟩) =>
    inferInstanceAs (Decidable (∀ head ∈ supervisor.fc.heads.lookup id,
      upState.status = .available ∧ upState.headData = head))
  | _, (_, ⟨_, .validEvent none⟩) => inferInstanceAs (Decidable True)
  | supervisor, (_, ⟨id, .validEvent (some upState)⟩) =>
    inferInstanceAs (Decidable
      (upState.headData.isEmptyByHeight → supervisor.fc.heads.lookup id = none))

theorem onlyAvailableLive_step_iff_backed (before : supervisor.OnlyAvailableLive)
    (input : Surroundings × UpstreamEvent) :
    (step config supervisor input).OnlyAvailableLive ↔
      (step config supervisor input).Backed input.2.id := by
  constructor
  · exact fun all => all input.2.id
  · intro own id
    by_cases same : id = input.2.id
    · rwa [same]
    · have kept := before id
      rwa [Backed, ← lookup_heads_processEvent_of_ne config input.1 _ _ same,
        ← lookup_processEvent_of_ne config input.1 _ _ same] at kept

theorem HeadFollows.lookup_eq_none (follows : supervisor.HeadFollows) {id : String}
    {stored : Option UpstreamState}
    (backed : ∀ head ∈ supervisor.fc.heads.lookup id,
      ∃ upState ∈ stored, upState.status = .available ∧ upState.headData = head)
    (empty : ∀ upState ∈ stored, upState.headData.isEmptyByHeight = true) :
    supervisor.fc.heads.lookup id = none := by
  apply Option.eq_none_iff_forall_ne_some.mpr
  intro head live
  obtain ⟨upState, found, _, same⟩ := backed head live
  have hidden := empty upState found
  rw [same, follows.nonempty id head live] at hidden
  cases hidden

theorem onlyAvailableLive_step_iff (supervisor : ChainSupervisor)
    (input : Surroundings × UpstreamEvent) (follows : supervisor.HeadFollows)
    (before : supervisor.OnlyAvailableLive) :
    (step config supervisor input).OnlyAvailableLive ↔ supervisor.KeepsBacked input := by
  rw [onlyAvailableLive_step_iff_backed config before]
  have own := before input.2.id
  obtain ⟨around, id, eventType⟩ := input
  rw [step, Backed, lookup_heads_processEvent, lookup_processEvent]
  cases eventType with
  | removeEvent =>
    -- the live head goes with the state: an empty state head means there was none
    refine ⟨fun _ => trivial, fun _ head live => ?_⟩
    simp only [forwarded] at live
    cases stored : supervisor.upstreamStates.lookup id with
    | none =>
      rw [stored] at live
      obtain ⟨upState, found, _⟩ := own head live
      rw [stored] at found
      cases found
    | some upState =>
      rw [stored, Option.map_some, Option.elim_some, liveHead] at live
      by_cases empty : upState.headData.isEmptyByHeight = true
      · rw [if_pos empty, follows.lookup_eq_none own (by simpa [stored] using empty)] at live
        cases live
      · rw [if_neg empty, if_neg (by simp)] at live
        cases live
  | headEvent headEvent =>
    simp only [forwarded, Option.elim_some, liveHead, registered, KeepsBacked]
    by_cases empty : headEvent.head.isEmptyByHeight = true
    · rw [if_pos empty, if_pos empty]
      constructor
      · intro backed
        apply follows.lookup_eq_none backed
        intro upState found
        obtain ⟨_, _, rfl⟩ := Option.map_eq_some_iff.mp found
        exact empty
      · intro none head live
        rw [none] at live
        cases live
    · rw [if_neg empty, if_neg empty]
      by_cases available : headEvent.status = .available
      · simp [available]
      · simp [available]
  | stateEvent upState => simp [forwarded, registered, KeepsBacked]
  | validEvent state =>
    cases state with
    | none => exact ⟨fun _ => trivial, fun _ => own⟩
    | some upState =>
      simp only [forwarded, registered, KeepsBacked]
      by_cases empty : upState.headData.isEmptyByHeight = true
      · rw [if_pos empty]
        constructor
        · intro backed _
          exact follows.lookup_eq_none backed (by simpa using empty)
        · intro none head live
          rw [Option.elim_none, none empty] at live
          cases live
      · rw [if_neg empty, Option.elim_some, liveHead, if_neg empty]
        by_cases available : upState.status = .available
        · simp [available, empty]
        · simp [available, empty]

/-- Where only available upstreams have a live head, the chain's head is one of theirs. -/
theorem HeadFollows.headJustified (follows : supervisor.HeadFollows)
    (backed : supervisor.OnlyAvailableLive) : supervisor.HeadJustified := by
  by_cases zero : supervisor.state.headData.head.rank = 0
  · exact .inl (UInt64.toNat_inj.mp zero)
  · right
    have greatest := follows.follows.resolve_left zero
    rw [greatest] at zero
    obtain ⟨head, live, same⟩ := exists_rank_eq_maxRank Block.rank (Nat.pos_of_ne_zero zero)
    obtain ⟨id, found⟩ := GoMap.exists_lookup_of_mem_values live
    obtain ⟨upState, registered, available, rfl⟩ := backed id head found
    refine ⟨upState, GoMap.mem_values_of_lookup registered, available, ?_⟩
    exact UInt64.toNat_inj.mp (same.trans greatest.symm)

/-- Along every run only available upstreams have a live head after each event, exactly
when each event leaves the live head of its upstream and the registered state together.
The chain's head is then the head of an available upstream, or zero, after each event. -/
theorem head_justified_of_keepsBacked (inputs : List (Surroundings × UpstreamEvent)) :
    (AfterEach (step config) OnlyAvailableLive newGenericChainSupervisor inputs ↔
      EachStep (step config) KeepsBacked newGenericChainSupervisor inputs) ∧
    (EachStep (step config) KeepsBacked newGenericChainSupervisor inputs →
      AfterEach (step config) HeadJustified newGenericChainSupervisor inputs) := by
  have keeps : ∀ supervisor input, HeadFollows supervisor →
      (step config supervisor input).HeadFollows :=
    fun supervisor input before => before.step config input
  have initial : newGenericChainSupervisor.OnlyAvailableLive := by
    intro id head live
    cases live
  refine ⟨afterEach_iff_eachStep keeps (onlyAvailableLive_step_iff config)
    headFollows_initial initial inputs, fun guarded => ?_⟩
  have both : AfterEach (step config)
      (fun supervisor => supervisor.HeadFollows ∧ supervisor.OnlyAvailableLive)
      newGenericChainSupervisor inputs := by
    refine afterEach_of_eachStep ?_ ⟨headFollows_initial, initial⟩ guarded
    rintro supervisor input ⟨follows, before⟩ guard
    exact ⟨keeps supervisor input follows,
      (onlyAvailableLive_step_iff config supervisor input follows before).mpr guard⟩
  exact both.imp fun supervisor holds => holds.1.headJustified holds.2

/-- The theorem at a run in which an upstream is registered, reports a head and is
removed. -/
theorem head_justified_until_removal :
    let config : SupervisorConfig := ⟨∅, false, 0, false⟩
    let node := defaultUpstreamState ⟨∅⟩ ∅ "01" none none
    AfterEach (step config) HeadJustified newGenericChainSupervisor
      [(.plain, ⟨"node", .stateEvent node⟩),
       (.plain, ⟨"node", .headEvent ⟨.available, { height := 100 }⟩⟩),
       (.plain, ⟨"node", .removeEvent⟩)] := by
  intro config node
  exact (head_justified_of_keepsBacked config _).2 (by decide)

/-- A node with a head of height 100 becomes unavailable by a state event: its head
remains the head of the chain. -/
theorem unavailable_holds_head :
    let config : SupervisorConfig := ⟨∅, false, 0, false⟩
    let node := defaultUpstreamState ⟨∅⟩ ∅ "01" none none
    let final := run (step config) newGenericChainSupervisor
      [(.plain, ⟨"node", .stateEvent node⟩),
       (.plain, ⟨"node", .headEvent ⟨.available, { height := 100 }⟩⟩),
       (.plain, ⟨"node", .stateEvent
         { node with headData := { height := 100 }, status := .unavailable }⟩)]
    final.state.headData.head.height = 100 ∧ ¬ final.HeadJustified := by
  decide

/-- The upstream is registered with a head of that height. -/
def Owns (supervisor : ChainSupervisor) (id : String) (height : UInt64) : Prop :=
  ∃ upState ∈ supervisor.upstreamStates.lookup id, upState.headData.height = height

instance (supervisor : ChainSupervisor) (id : String) (height : UInt64) :
    Decidable (supervisor.Owns id height) :=
  inferInstanceAs (Decidable (∃ upState ∈ supervisor.upstreamStates.lookup id, _))

/-- A recorded head that is not empty belongs to the upstream recorded with it. -/
def HeadAttributed (supervisor : ChainSupervisor) : Prop :=
  supervisor.state.headData.isEmpty = false →
    supervisor.Owns supervisor.state.headData.upstreamId supervisor.state.headData.head.height

/-- The step leaves the recorded head with its owner, and so it does with every head
it publishes. -/
def AttributesHeads (supervisor : ChainSupervisor) (input : Surroundings × UpstreamEvent) : Prop :=
  (step config supervisor input).HeadAttributed ∧
    ∀ wrappers ∈ (step config supervisor input).published.drop supervisor.published.length,
      ∀ head id, .headWrapper head id ∈ wrappers →
        (step config supervisor input).Owns id head.height

/-- The greatest live height with the head event taken in. -/
def heightWith (fc : HeightForkChoice) (upstreamId : String) (headEvent : HeadUpstreamEvent) : ℕ :=
  let others := maxRank Block.rank (GoMap.values (fc.heads.erase upstreamId))
  if headEvent.status = .available then max headEvent.head.rank others else others

/-- If the event is about the recorded upstream, it leaves it registered with the
recorded head. -/
def KeepsOwner (supervisor : ChainSupervisor) (event : UpstreamEvent) : Prop :=
  supervisor.state.headData.isEmpty = false → supervisor.state.headData.upstreamId = event.id →
    ∃ upState ∈ registered (supervisor.upstreamStates.lookup event.id) event.eventType,
      upState.headData.height = supervisor.state.headData.head.height

/-- While the greatest live height stays, the recorded upstream keeps its head.  Where
it moves, it moves to zero or to a head of the event's own upstream. -/
def KeepsAttribution (supervisor : ChainSupervisor) (input : Surroundings × UpstreamEvent) : Prop :=
  match supervisor.forwarded input.2 with
  | none => supervisor.KeepsOwner input.2
  | some headEvent =>
    if headEvent.head.isEmptyByHeight then True
    else
      let height := heightWith supervisor.fc input.2.id headEvent
      if height = supervisor.fc.liveMaxHeight then supervisor.KeepsOwner input.2
      else height = 0 ∨
        ∃ upState ∈ registered (supervisor.upstreamStates.lookup input.2.id) input.2.eventType,
          upState.headData.rank = height

theorem attributesHeads_iff (supervisor : ChainSupervisor) (input : Surroundings × UpstreamEvent) :
    supervisor.AttributesHeads config input ↔
      (step config supervisor input).HeadAttributed := by
  refine ⟨fun attributes => attributes.1, fun attributed => ⟨attributed, ?_⟩⟩
  obtain ⟨added, published, recorded⟩ :=
    publishesRecorded_processEvent config input.1 supervisor input.2
  intro wrappers listed head id carried
  rw [step, published, List.drop_left] at listed
  obtain ⟨nonempty, headData⟩ := recorded wrappers listed head id carried
  have owns := attributed
  rw [HeadAttributed, step, headData] at owns
  exact owns nonempty

theorem headAttributed_of_headData_eq (attributed : supervisor.HeadAttributed)
    (input : Surroundings × UpstreamEvent)
    (same : (step config supervisor input).state.headData = supervisor.state.headData) :
    (step config supervisor input).HeadAttributed ↔ supervisor.KeepsOwner input.2 := by
  rw [HeadAttributed, same, Owns, KeepsOwner]
  by_cases own : supervisor.state.headData.upstreamId = input.2.id
  · rw [own, step, lookup_processEvent]
    exact ⟨fun keeps nonempty _ => keeps nonempty, fun keeps nonempty => keeps nonempty rfl⟩
  · rw [step, lookup_processEvent_of_ne config _ _ _ own]
    exact ⟨fun _ _ recorded => absurd recorded own, fun _ => attributed⟩

theorem liveMaxHeight_choose (fc : HeightForkChoice) (upstreamId : String)
    {headEvent : HeadUpstreamEvent} (nonempty : ¬ headEvent.head.isEmptyByHeight) :
    (fc.choose order upstreamId headEvent).1.liveMaxHeight =
      heightWith fc upstreamId headEvent := by
  rw [liveMaxHeight, heads_choose order fc upstreamId nonempty,
    heightWith]
  split
  · exact maxRank_cons Block.rank _ _
  · rfl

theorem headAttributed_of_moved (input : Surroundings × UpstreamEvent) {head : Block}
    (moved : (step config supervisor input).state.headData = ⟨head, input.2.id⟩)
    (zero : head.isEmptyByHeight = true ↔ head.rank = 0) :
    (step config supervisor input).HeadAttributed ↔ head.rank = 0 ∨
      ∃ upState ∈ registered (supervisor.upstreamStates.lookup input.2.id) input.2.eventType,
        upState.headData.rank = head.rank := by
  have sameHeight : ∀ upState : UpstreamState,
      upState.headData.height = head.height ↔ upState.headData.rank = head.rank :=
    fun _ => UInt64.toNat_inj.symm
  rw [HeadAttributed, moved, Owns, step, lookup_processEvent, ← zero]
  simp only [sameHeight, ChainHeadData.isEmpty]
  cases head.isEmptyByHeight with
  | false => simp
  | true => simp

theorem headAttributed_step_iff (supervisor : ChainSupervisor)
    (input : Surroundings × UpstreamEvent) (tracks : supervisor.fc.Tracks)
    (attributed : supervisor.HeadAttributed) :
    (step config supervisor input).HeadAttributed ↔ supervisor.KeepsAttribution input := by
  have moved := congrArg Heads.headData (heads_processEvent config input.1 supervisor input.2)
  unfold KeepsAttribution
  cases forwards : supervisor.forwarded input.2 with
  | none =>
    rw [forwards] at moved
    exact headAttributed_of_headData_eq config attributed input moved
  | some headEvent =>
    rw [forwards, Option.elim_some, Heads.move] at moved
    dsimp only
    by_cases empty : headEvent.head.isEmptyByHeight = true
    · rw [if_pos empty] at moved ⊢
      refine ⟨fun _ => trivial, fun _ nonempty => ?_⟩
      rw [show (step config supervisor input).state.headData = _ from moved] at nonempty
      cases nonempty
    · rw [if_neg empty] at moved ⊢
      have reached : (supervisor.fc.choose input.1.heads input.2.id headEvent).1.max.rank =
          heightWith supervisor.fc input.2.id headEvent :=
        (tracks_choose _ tracks _ _).trans (liveMaxHeight_choose _ _ _ empty)
      have updated := choose_updated_iff input.1.heads supervisor.fc
        input.2.id headEvent
      rw [reached, tracks] at updated
      by_cases stays : heightWith supervisor.fc input.2.id headEvent =
          supervisor.fc.liveMaxHeight
      · rw [if_pos stays]
        exact headAttributed_of_headData_eq config attributed input
          (moved.trans (if_neg fun moves => updated.mp moves stays))
      · rw [if_neg stays, ← reached, ← (choose_report _ _ _ _).1]
        have changes := updated.mpr stays
        exact headAttributed_of_moved config input (moved.trans (if_pos changes))
          (isEmptyByHeight_choose _ _ _ _ changes)

/-- Along every run the recorded and the published heads are attributed to their owners
at each event, exactly when each event meets the condition: while the greatest live
height stays, it leaves the recorded upstream with its head, and it moves that height
only to zero or to a head of its own upstream. -/
theorem heads_attributed_iff (inputs : List (Surroundings × UpstreamEvent)) :
    EachStep (step config) (AttributesHeads config) newGenericChainSupervisor inputs ↔
      EachStep (step config) KeepsAttribution newGenericChainSupervisor inputs := by
  let Good (supervisor : ChainSupervisor) : Prop :=
    supervisor.fc.Tracks ∧ supervisor.HeadAttributed
  have initial : Good newGenericChainSupervisor :=
    ⟨tracks_initial, fun nonempty => absurd nonempty.symm Bool.false_ne_true⟩
  refine eachStep_iff_eachStep ?_ ?_ initial inputs
  · rintro supervisor input ⟨tracks, attributed⟩
    rw [attributesHeads_iff, headAttributed_step_iff config supervisor input tracks attributed]
  · rintro supervisor input ⟨tracks, attributed⟩ guard
    exact ⟨tracks_step config supervisor input tracks,
      (headAttributed_step_iff config supervisor input tracks attributed).mpr guard⟩

/-- Two nodes hold the heads 100 and 90.  When the higher one is removed, the chain's
head falls to 90 and is published as the head of the node that left. -/
theorem head_attributed_to_removed :
    let config : SupervisorConfig := ⟨∅, false, 0, false⟩
    let node := defaultUpstreamState ⟨∅⟩ ∅ "01" none none
    let final := run (step config) newGenericChainSupervisor
      [(.plain, ⟨"ahead", .stateEvent node⟩),
       (.plain, ⟨"ahead", .headEvent ⟨.available, { height := 100 }⟩⟩),
       (.plain, ⟨"behind", .stateEvent node⟩),
       (.plain, ⟨"behind", .headEvent ⟨.available, { height := 90 }⟩⟩),
       (.plain, ⟨"ahead", .removeEvent⟩)]
    final.state.headData = ⟨{ height := 90 }, "ahead"⟩ ∧
      [.headWrapper { height := 90 } "ahead"] ∈ final.published ∧
      ¬ final.Owns "ahead" 90 := by
  decide

end ChainSupervisor

end Nodecore.Upstreams
