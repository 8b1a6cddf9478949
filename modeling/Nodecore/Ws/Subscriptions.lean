/-
# No subscription of the upstream is forgotten

A subscription that the upstream has confirmed on the present connection is accounted
for: its acknowledgement is still on its way to the registry, or operations are attached
to its id, or a closer has been told to give it up, or has asked for that.  This breaks
when an acknowledgement finds its operation completed or its request gone (it was
cancelled, aborted or swept away by a reconnect before the reply arrived), and when a
closer gives up waiting for the registry.  In every run without such steps it holds.
-/

import Nodecore.Ws.Tracking

namespace Nodecore.Ws

open Lib Specs

variable {rest : List RegistryCommand} {command : RegistryCommand} {response : WsResponse}
  {subId : List UInt8} {cancelled : Bool} {id c : ℕ}

namespace Processor

section Statements

variable (getMethod : String → Option Method) (processor : Processor)

/-- Nothing is pending: no reply, no command, no operation whose end was not noticed, no
closer with an unread answer. -/
def Settled : Prop :=
  processor.commands = [] ∧ processor.readEventsChan = [] ∧
    (∀ id < processor.next, processor.watching id → (processor.operation id).state = .running) ∧
    ∀ closer ∈ processor.closers, closer.phase ≠ .answered true ∧ closer.phase ≠ .answered false

/-- Every confirmed subscription has a live operation or was asked to be given up. -/
def LeaksNothing : Prop :=
  ∀ entry ∈ processor.upstream.confirmed,
    (∃ id ∈ processor.registry.attachedTo entry.2, (processor.operation id).state = .running) ∨
      entry.2 ∈ processor.upstream.requested

/-- An acknowledgement of a confirmed subscription finds its request registered and its
operation not completed, and has an id; a closer that finishes an attached operation
still waits for the answer. -/
def FindsInTime (cancelled : Bool) : RegistryCommand → Prop
  | .rpc response =>
    response.hasError = false →
      (response.id, resultAsString response.message) ∈ processor.upstream.confirmed →
        response.id ∈ processor.registry.requests ∧
          (processor.operation response.id).isCompleted = false ∧
          resultAsString response.message ≠ [] ∧
          (cancelled && processor.isLeaving response.id) = false
  | .finish c =>
    ∀ closer ∈ processor.closers[c]?, closer.phase = .waiting ∨
      closer.id ∉ processor.registry.attachedTo (processor.operation closer.id).subID
  | .register _ | .abort _ | .subscription _ | .cancelAll => True

/-- The registry finds what a command is about in time, and no closer gives up that was
told to unsubscribe. -/
def HandlesInTime : WsEvent → Prop
  | .handle cancelled =>
    ∀ command ∈ processor.commands.head?, processor.FindsInTime cancelled command
  | .giveUp c => ∀ closer ∈ processor.closers[c]?, closer.phase ≠ .answered true
  | _ => True

instance : Decidable processor.Settled := inferInstanceAs (Decidable (_ ∧ _ ∧ _ ∧ _))

instance : Decidable processor.LeaksNothing :=
  inferInstanceAs (Decidable (∀ entry ∈ processor.upstream.confirmed, _))

instance decidableFindsInTime (cancelled : Bool) :
    ∀ command, Decidable (processor.FindsInTime cancelled command)
  | .rpc _ => inferInstanceAs (Decidable (_ → _ → _))
  | .finish c => inferInstanceAs (Decidable (∀ closer ∈ processor.closers[c]?, _))
  | .register _ | .abort _ | .subscription _ | .cancelAll => .isTrue trivial

instance decidableHandlesInTime : ∀ event, Decidable (processor.HandlesInTime event)
  | .handle cancelled =>
    inferInstanceAs (Decidable (∀ command ∈ processor.commands.head?,
      processor.FindsInTime cancelled command))
  | .giveUp c => inferInstanceAs (Decidable (∀ closer ∈ processor.closers[c]?, _))
  | .register _ _ | .enqueueRequest _ | .accept _ | .abort _ | .cancelContext _ | .receive _
  | .observeDone _ | .cancel _ | .proceed _ | .enqueueUnsubscribe _ | .abandon _ | .leave _
  | .write _ | .disconnected _ | .connect | .reply _ | .readStale _ | .deliver => .isTrue trivial

end Statements

variable {getMethod : String → Option Method} {processor before after : Processor}

/-- The reply confirms the subscription. -/
def Confirms (processor : Processor) (subId : List UInt8) (response : WsResponse) : Prop :=
  response.type = .jsonRpc ∧ response.hasError = false ∧
    resultAsString response.message = subId ∧ (response.id, subId) ∈ processor.upstream.confirmed

/-- Where a confirmed subscription can be: its reply is still to be passed on, or waits
for the registry with no reconnect after it; operations are attached to it; a closer has
to give it up; or that was asked for. -/
inductive Accounted (processor : Processor) (subId : List UInt8) : Prop
  | read (response : WsResponse) (confirms : processor.Confirms subId response)
      (listed : response ∈ processor.readEventsChan)
  | queued (response : WsResponse) (confirms : processor.Confirms subId response)
      (earlier later : List RegistryCommand)
      (here : processor.commands = earlier ++ .rpc response :: later)
      (stays : .cancelAll ∉ later)
  | tracked (ops : GoSet ℕ) (found : processor.registry.subs.lookup subId = some ops)
      (stays : .cancelAll ∉ processor.commands)
  | decided (closer : Closer) (listed : closer ∈ processor.closers)
      (told : closer.phase = .answered true)
      (given : (processor.operation closer.id).subID = subId)
  | requested (asked : subId ∈ processor.upstream.requested)

/-- Between the two states nothing is lost that a subscription is accounted for by. -/
structure Carries (before after : Processor) : Prop where
  confirmed : after.upstream.confirmed = before.upstream.confirmed
  reads : ∀ response ∈ before.readEventsChan, response ∈ after.readEventsChan
  commands : ∃ more, after.commands = before.commands ++ more ∧ .cancelAll ∉ more
  subs : after.registry.subs = before.registry.subs
  decided : ∀ closer ∈ before.closers, closer.phase = .answered true →
    closer ∈ after.closers ∧
      (after.operation closer.id).identity = (before.operation closer.id).identity
  requested : after.upstream.requested = before.upstream.requested

theorem Accounted.carries (accounted : before.Accounted subId) (carries : before.Carries after) :
    after.Accounted subId := by
  obtain ⟨more, commands, clear⟩ := carries.commands
  cases accounted with
  | read response confirms listed =>
    rw [Confirms, ← carries.confirmed] at confirms
    exact .read response confirms (carries.reads response listed)
  | queued response confirms earlier later here stays =>
    rw [Confirms, ← carries.confirmed] at confirms
    refine .queued response confirms earlier (later ++ more) ?_ ?_
    · rw [commands, here, List.append_assoc, List.cons_append]
    · rw [List.mem_append]
      exact fun either => either.elim stays clear
  | tracked ops found stays =>
    refine .tracked ops (by rw [carries.subs, found]) ?_
    rw [commands, List.mem_append]
    exact fun either => either.elim stays clear
  | decided closer listed told given =>
    obtain ⟨stays, same⟩ := carries.decided closer listed told
    exact .decided closer stays told ((RequestOp.subID_eq_of_identity same).trans given)
  | requested asked => exact .requested (by rwa [carries.requested])

theorem Carries.refl (processor : Processor) : processor.Carries processor where
  confirmed := rfl
  reads := fun _ listed => listed
  commands := ⟨[], (List.append_nil _).symm, List.not_mem_nil⟩
  subs := rfl
  decided := fun _ listed _ => ⟨listed, rfl⟩
  requested := rfl

theorem carries_sendCmd (plain : command ≠ .cancelAll) :
    processor.Carries (processor.sendCmd command) :=
  { Carries.refl processor with
    commands := ⟨[command], rfl, fun listed => plain (List.mem_singleton.mp listed).symm⟩ }

theorem carries_closeReq : processor.Carries (processor.closeReq id) :=
  { Carries.refl processor with
    commands := ⟨[.finish processor.closers.length], rfl, by simp⟩
    decided := fun _ listed _ => ⟨List.mem_append_left _ listed, rfl⟩ }

theorem Carries.trans {middle : Processor} (first : before.Carries middle)
    (second : middle.Carries after) : before.Carries after where
  confirmed := second.confirmed.trans first.confirmed
  reads := fun response listed => second.reads response (first.reads response listed)
  commands := by
    obtain ⟨more, commands, clear⟩ := first.commands
    obtain ⟨yet, also, clear'⟩ := second.commands
    refine ⟨more ++ yet, by rw [also, commands, List.append_assoc], ?_⟩
    rw [List.mem_append]
    exact fun either => either.elim clear clear'
  subs := second.subs.trans first.subs
  decided := by
    intro closer listed told
    obtain ⟨stays, same⟩ := first.decided closer listed told
    obtain ⟨stays', same'⟩ := second.decided closer stays told
    exact ⟨stays', same'.trans same⟩
  requested := second.requested.trans first.requested

variable {closer : Closer}

theorem carries_untold {phase : CloserPhase} (found : processor.closers[c]? = some closer)
    (untold : closer.phase ≠ .answered true) : processor.Carries (processor.setPhase c phase) :=
  { Carries.refl processor with
    decided := by
      intro other listed told
      rcases mem_modify_of_mem listed with here | stays
      · cases found.symm.trans here
        exact absurd told untold
      · exact ⟨stays, rfl⟩ }

theorem carries_modifyOp {change : RequestOp → RequestOp}
    (keeps : ∀ op, (change op).identity = op.identity) :
    processor.Carries (processor.modifyOp id change) :=
  { Carries.refl processor with
    decided := fun _ listed _ => ⟨listed, Registry.identity_modifyOp keeps⟩ }

theorem carries_writeFrame {outcome : WriteOutcome} {frame : Frame} :
    processor.Carries (processor.writeFrame outcome frame) := by
  have answers (id : ℕ) (written : Bool) : processor.Carries (processor.answerSend id written) := by
    unfold answerSend
    split_ifs
    · exact { Carries.refl processor with }
    · exact .refl _
  cases frame with
  | unsubscribe method subId => exact .refl _
  | request id =>
    cases outcome with
    | expired | failed => exact answers id false
    | written =>
      have answered := answers id true
      exact ⟨rfl, answered.reads, answered.commands, answered.subs, answered.decided, rfl⟩

/-- Every confirmed subscription is accounted for. -/
def LosesNothing (processor : Processor) : Prop :=
  ∀ entry ∈ processor.upstream.confirmed, processor.Accounted entry.2

theorem LosesNothing.carries (loses : before.LosesNothing) (carries : before.Carries after) :
    after.LosesNothing := by
  intro entry listed
  rw [carries.confirmed] at listed
  exact (loses entry listed).carries carries

theorem LosesNothing.doOnClose (loses : processor.LosesNothing) (coherent : processor.Coherent)
    (tracks : processor.Tracks getMethod)
    (found : processor.closers[c]? = some ⟨id, .answered true⟩) :
    (processor.doOnClose getMethod c id).LosesNothing := by
  have listed := List.mem_of_getElem? found
  have given : (processor.operation id).subIdAsBytes ≠ [] := coherent.asked _ listed rfl
  obtain ⟨method, unsubscribes⟩ := exists_unsubscribeMethod getMethod (tracks.asked _ listed rfl)
  rw [Processor.doOnClose]
  dsimp only
  rw [if_neg given, unsubscribes]
  intro entry confirmed
  cases loses entry confirmed with
  | read response confirms listed => exact .read response confirms listed
  | queued response confirms earlier later here stays =>
    exact .queued response confirms earlier later here stays
  | tracked ops there stays => exact .tracked ops there stays
  | decided closer there told its =>
    rcases mem_modify_of_mem there with here | stays
    · cases found.symm.trans here
      exact .requested (its ▸ List.mem_cons_self)
    · exact .decided closer stays told its
  | requested asked => exact .requested (List.mem_cons_of_mem _ asked)

theorem carries_read :
    processor.Carries
      { processor with readEventsChan := processor.readEventsChan ++ [response] } :=
  { Carries.refl processor with reads := fun _ listed => List.mem_append_left _ listed }

theorem LosesNothing.reply (loses : processor.LosesNothing) {isSubscribe : Bool}
    (response : WsResponse) :
    LosesNothing { processor with
      readEventsChan := processor.readEventsChan ++ [response]
      upstream := processor.upstream.reply isSubscribe response } := by
  unfold UpstreamView.reply
  split_ifs with known subscribes
  · intro entry confirmed
    by_cases same : entry.2 = resultAsString response.message
    · refine .read response ⟨known.1, by simpa using subscribes.2, same.symm, ?_⟩
        (List.mem_append_right _ (List.mem_singleton_self _))
      rw [same]
      exact List.mem_cons_self
    · have old : entry ∈ processor.upstream.confirmed := by
        rcases List.mem_cons.mp confirmed with new | old
        · rw [new] at same
          exact absurd rfl same
        · exact old
      cases loses entry old with
      | read other confirms listed =>
        obtain ⟨isReply, succeeds, its, listed_there⟩ := confirms
        exact .read other ⟨isReply, succeeds, its, List.mem_cons_of_mem _ listed_there⟩
          (List.mem_append_left _ listed)
      | queued other confirms earlier later here stays =>
        obtain ⟨isReply, succeeds, its, listed_there⟩ := confirms
        exact .queued other ⟨isReply, succeeds, its, List.mem_cons_of_mem _ listed_there⟩
          earlier later here stays
      | tracked ops there stays => exact .tracked ops there stays
      | decided closer there told its => exact .decided closer there told its
      | requested asked =>
        exact .requested (List.mem_filter.mpr ⟨asked, by simpa using same⟩)
  · exact loses.carries { carries_read with }
  · exact loses.carries carries_read

theorem LosesNothing.deliver (loses : processor.LosesNothing) {rest : List WsResponse}
    (reads : processor.readEventsChan = response :: rest) :
    (sendCmd { processor with readEventsChan := rest } response.command).LosesNothing := by
  have clear {commands : List RegistryCommand} (without : .cancelAll ∉ commands) :
      RegistryCommand.cancelAll ∉ commands ++ [response.command] := by
    rw [List.mem_append, List.mem_singleton]
    exact fun either => either.elim without (response.command_ne_cancelAll ·.symm)
  intro entry confirmed
  cases loses entry confirmed with
  | read other confirms listed =>
    rw [reads] at listed
    rcases List.mem_cons.mp listed with same | later
    · subst same
      refine .queued other confirms processor.commands [] ?_ List.not_mem_nil
      rw [sendCmd, WsResponse.command, confirms.1]
    · exact .read other confirms later
  | queued other confirms earlier later here stays =>
    refine .queued other confirms earlier _ ?_ (clear stays)
    show processor.commands ++ [_] = _
    rw [here, List.append_assoc, List.cons_append]
  | tracked ops there stays => exact .tracked ops there (clear stays)
  | decided closer there told its => exact .decided closer there told its
  | requested asked => exact .requested asked

variable (getMethod processor) in
theorem handleCommand_frame (cancelled : Bool) (command : RegistryCommand) :
    (processor.handleCommand getMethod cancelled command).upstream = processor.upstream ∧
      (processor.handleCommand getMethod cancelled command).readEventsChan =
        processor.readEventsChan ∧
      (processor.handleCommand getMethod cancelled command).commands = processor.commands := by
  cases command with
  | finish c =>
    simp only [handleCommand]
    split
    · exact ⟨rfl, rfl, rfl⟩
    · exact ⟨rfl, rfl, rfl⟩
  | _ => exact ⟨rfl, rfl, rfl⟩

theorem mem_answer {doClose : Bool} (listed : closer ∈ processor.closers)
    (told : closer.phase = .answered true) : closer ∈ (processor.answer c doClose).closers := by
  rcases mem_modify_of_mem listed with here | stays
  · have same : closer.answer doClose = closer := if_neg (by rw [told]; decide)
    apply List.mem_of_getElem? (i := c)
    rw [answer, List.getElem?_modify_eq, here]
    exact congrArg some same
  · exact stays

variable (getMethod processor) in
theorem decided_handle (cancelled : Bool) (command : RegistryCommand)
    (listed : closer ∈ processor.closers) (told : closer.phase = .answered true)
    (answered : closer.id ∉ processor.registry.requests) :
    closer ∈ (processor.handleCommand getMethod cancelled command).closers ∧
      ((processor.handleCommand getMethod cancelled command).operation closer.id).subID =
        (processor.operation closer.id).subID := by
  cases command with
  | register id => exact ⟨listed, rfl⟩
  | abort id => exact ⟨listed, RequestOp.subID_eq_of_identity Registry.identity_abort⟩
  | rpc response =>
    exact ⟨listed, congrArg resultAsString (bytes_rpc fun _ => answered)⟩
  | subscription response =>
    exact ⟨listed, RequestOp.subID_eq_of_identity Registry.identity_subscription⟩
  | finish c =>
    simp only [handleCommand]
    split
    · exact ⟨mem_answer listed told, RequestOp.subID_eq_of_identity (identity_finish closer.id)⟩
    · exact ⟨listed, rfl⟩
  | cancelAll => exact ⟨listed, RequestOp.subID_eq_of_identity Registry.identity_cancelAll⟩

/-- An id with operations keeps some, or a closer is told to give it up, unless the
connection is gone. -/
theorem tracked_handle (tracks : processor.Tracks getMethod)
    (queued : processor.commands = command :: rest)
    (inTime : processor.HandlesInTime (.handle cancelled)) {ops : GoSet ℕ}
    (found : processor.registry.subs.lookup subId = some ops)
    (stays : .cancelAll ∉ processor.commands) :
    (handleCommand { processor with commands := rest } getMethod cancelled command).Accounted
      subId := by
  have later : RegistryCommand.cancelAll ∉ rest := by
    rw [queued] at stays
    exact fun listed => stays (List.mem_cons_of_mem _ listed)
  cases command with
  | register id | subscription response => exact .tracked ops found later
  | abort id =>
    refine .tracked ops ?_ later
    rwa [handleCommand, Registry.subs_abort]
  | rpc response =>
    have effect : (processor.registry.rpc getMethod response
        (cancelled && processor.isLeaving response.id)).subs.lookup subId = _ :=
      Registry.lookup_subs_rpc subId
    split_ifs at effect
    · exact .tracked _ effect later
    · exact .tracked ops (effect.trans found) later
  | finish c =>
    simp only [handleCommand]
    split
    · rename_i told there
      rcases Registry.lookup_finish_or tracks.owns found with ⟨left, kept⟩ | ⟨listed, doClose⟩
      · exact .tracked left kept later
      · -- the closer still waits, and is told
        have attached := (tracks.attached subId ops found).2.2 told.id listed
        have tells : (processor.registry.finish told.id).2 = true :=
          doClose.trans (congrArg not attached.closes)
        have waits : told.phase = .waiting := by
          have finds := inTime (.finish c) (by rw [queued]; rfl)
          refine (finds told there).resolve_right fun elsewhere => elsewhere ?_
          rw [attached.subID, Registry.attachedTo, found]
          exact AList.mem_keys.mp listed
        refine .decided (told.answer true) ?_ ?_ ?_
        · apply List.mem_of_getElem? (i := c)
          rw [Processor.finish, answer, List.getElem?_modify_eq, there, tells]
          rfl
        · rw [Closer.answer, if_pos waits]
        · rw [Closer.id_answer, RequestOp.subID_eq_of_identity (identity_finish told.id)]
          exact attached.subID
    · exact .tracked ops found later
  | cancelAll =>
    rw [queued] at stays
    exact absurd List.mem_cons_self stays

theorem queued_handle (tracks : processor.Tracks getMethod)
    (queued : processor.commands = .rpc response :: rest)
    (inTime : processor.HandlesInTime (.handle cancelled))
    (confirms : processor.Confirms subId response) (stays : .cancelAll ∉ rest) :
    (handleCommand { processor with commands := rest } getMethod cancelled
      (.rpc response)).Accounted subId := by
  obtain ⟨_, succeeds, rfl, confirmed⟩ := confirms
  have finds := inTime (.rpc response) (by rw [queued]; rfl)
  obtain ⟨waits, runs, named, alone⟩ := finds succeeds confirmed
  have acknowledges : processor.registry.acknowledges getMethod response = true :=
    Registry.acknowledges_iff.mpr ⟨waits, runs, succeeds, tracks.confirmed _ confirmed⟩
  have here : processor.registry.attaches getMethod response
      (cancelled && processor.isLeaving response.id) =
        some (resultAsString response.message) :=
    if_pos ⟨acknowledges, by rw [alone]; exact Bool.false_ne_true, named⟩
  exact .tracked _ ((Registry.lookup_subs_rpc _).trans (if_pos here)) stays

section

variable (loses : processor.LosesNothing)
include loses

section

variable (coherent : processor.Coherent)
include coherent

theorem LosesNothing.handle
    (tracks : processor.Tracks getMethod) (queued : processor.commands = command :: rest)
    (inTime : processor.HandlesInTime (.handle cancelled)) :
    (handleCommand { processor with commands := rest } getMethod cancelled
      command).LosesNothing := by
  obtain ⟨upstream, reads, commands⟩ :=
    handleCommand_frame getMethod { processor with commands := rest } cancelled command
  intro entry confirmed
  rw [upstream] at confirmed
  cases loses entry confirmed with
  | read response confirms listed =>
    refine .read response ?_ (by rw [reads]; exact listed)
    rw [Confirms, upstream]
    exact confirms
  | queued response confirms earlier later here stays =>
    rw [queued] at here
    cases earlier with
    | nil =>
      cases here
      exact queued_handle tracks queued inTime confirms stays
    | cons first earlier =>
      obtain ⟨_, further⟩ := List.cons_eq_cons.mp here
      refine .queued response ?_ earlier later (by rw [commands]; exact further) stays
      rw [Confirms, upstream]
      exact confirms
  | tracked ops found stays => exact tracked_handle tracks queued inTime found stays
  | decided closer listed told given =>
    have answered := coherent.not_mem_requests
      (coherent.asked closer listed (Closer.isAsked_of_told told))
    obtain ⟨stays, same⟩ := decided_handle getMethod { processor with commands := rest }
      cancelled command listed told answered
    exact .decided closer stays told (same.trans given)
  | requested asked => exact .requested (by rw [upstream]; exact asked)

theorem LosesNothing.register (method subType : String) :
    (processor.step getMethod (.register method subType)).LosesNothing := by
  have same (id : ℕ) (known : id < processor.next) :
      ((processor.step getMethod (.register method subType)).operation id).identity =
        (processor.operation id).identity := by
    rw [operation_register, Function.update_of_ne (Nat.ne_of_lt known)]
  apply loses.carries
  exact
    { confirmed := rfl
      reads := fun _ listed => listed
      commands := ⟨[.register processor.next], rfl, by simp⟩
      subs := rfl
      decided := by
        intro closer listed told
        have asked := coherent.asked closer listed (Closer.isAsked_of_told told)
        exact ⟨listed, same closer.id (coherent.lt_next asked)⟩
      requested := rfl }

section

variable (tracks : processor.Tracks getMethod) {event : WsEvent}
  (inTime : processor.HandlesInTime event)
include tracks inTime

/-- A move outside the registry loses nothing unless a closer gives up that was told to
unsubscribe. -/
theorem LosesNothing.move (move : processor.Move getMethod event after) : after.LosesNothing := by
  cases move with
  | idle => exact loses
  | proceed told => exact loses.doOnClose coherent tracks told
  | reply up => exact loses.reply _
  | deliver read up => exact loses.deliver read
  | disconnected up =>
    intro entry confirmed
    cases confirmed
  | enqueueRequest sending | accept answered | connect down =>
    exact loses.carries { Carries.refl processor with }
  | abort sending =>
    apply loses.carries
    refine .trans ?_ (carries_sendCmd (by simp))
    exact { Carries.refl processor with }
  | cancelContext => exact loses.carries (carries_modifyOp fun _ => rfl)
  | receive waiting watched =>
    exact loses.carries (carries_modifyOp fun _ => RequestOp.identity_receive)
  | observeDone ended | cancel known =>
    apply loses.carries
    refine .trans ?_ carries_closeReq
    exact { Carries.refl processor with }
  | dismiss found untold =>
    apply loses.carries (carries_untold found _)
    rcases untold with rfl | untold
    · exact inTime _ found
    · exact untold
  | @enqueueUnsubscribe c id method asked named =>
    have phase : processor.Carries (processor.setPhase c .leaving) :=
      carries_untold asked (by simp)
    exact loses.carries { phase with }
  | @leave c id found =>
    have phase : processor.Carries (processor.setPhase c .left) :=
      carries_untold found (by simp)
    have state : (processor.setPhase c .left).Carries
        ((processor.setPhase c .left).modifyOp id (·.cancel)) :=
      carries_modifyOp fun _ => rfl
    apply loses.carries
    exact { phase.trans state with }
  | write queued up =>
    apply loses.carries
    refine .trans ?_ carries_writeFrame
    exact { Carries.refl processor with }
  | readStale => exact loses.carries carries_read

theorem losesNothing_step : (processor.step getMethod event).LosesNothing := by
  apply step_cases event
  · exact fun method subType _ => loses.register coherent method subType
  · rintro cancelled command rest rfl queued
    exact loses.handle coherent tracks queued inTime
  · exact fun after move => loses.move coherent tracks inTime move

end

/-- Once nothing is pending, what a subscription is accounted for by is an operation or a
request to give it up. -/
theorem leaksNothing_of_settled
    (tracks : processor.Tracks getMethod) (settled : processor.Settled) :
    processor.LeaksNothing := by
  obtain ⟨handled, passedOn, noticed, acted⟩ := settled
  intro entry confirmed
  cases loses entry confirmed with
  | read response _ listed =>
    rw [passedOn] at listed
    cases listed
  | queued response _ earlier later here _ =>
    rw [handled] at here
    exact absurd here.symm (by simp)
  | tracked ops found _ =>
    obtain ⟨_, some_listed, attached⟩ := tracks.attached entry.2 ops found
    obtain ⟨id, listed⟩ := List.exists_mem_of_ne_nil _ some_listed
    have there := AList.mem_keys.mpr listed
    refine .inl ⟨id, by rwa [Registry.attachedTo, found], ?_⟩
    rcases (attached id there).watched with watching | ⟨c, finishing, _⟩
    · exact noticed id (coherent.lt_next (tracks.bytes_ne found there)) watching
    · rw [handled] at finishing
      cases finishing
  | decided closer listed told _ => exact absurd told (acted closer listed).1
  | requested asked => exact .inr asked

end

end

end Processor

/-- In every run in which acknowledgements and closes are handled in time, every
subscription confirmed on the connection has, once nothing is pending, a live operation
or was asked to be given up. -/
theorem subscriptions_not_leaked (getMethod : String → Option Method) (events : List WsEvent)
    (inTime : EachStep (Processor.step · getMethod) Processor.HandlesInTime {} events) :
    AfterEach (Processor.step · getMethod)
      (fun processor => processor.Settled → processor.LeaksNothing) {} events := by
  have keeps (processor : Processor) (event : WsEvent)
      (holds : processor.Coherent ∧ processor.Tracks getMethod ∧ processor.LosesNothing)
      (inTime : processor.HandlesInTime event) :
      (processor.step getMethod event).Coherent ∧
        (processor.step getMethod event).Tracks getMethod ∧
        (processor.step getMethod event).LosesNothing := by
    obtain ⟨coherent, tracks, loses⟩ := holds
    exact ⟨Processor.coherent_step coherent event, Processor.tracks_step tracks coherent event,
      Processor.losesNothing_step loses coherent tracks inTime⟩
  have each := afterEach_of_eachStep keeps
    ⟨Processor.coherent_empty, Processor.tracks_empty getMethod,
      fun _ confirmed => absurd confirmed List.not_mem_nil⟩ inTime
  apply each.imp
  rintro processor ⟨coherent, tracks, loses⟩ settled
  exact Processor.leaksNothing_of_settled loses coherent tracks settled

/-- A subscription that was acknowledged and given up is not forgotten. -/
theorem given_up_not_leaked :
    AfterEach (Processor.step · subscribeOnly)
      (fun processor => processor.Settled → processor.LeaksNothing) {}
      ([.connect] ++ request 0 ++ acknowledgement 0 ++ finishing 0 ++ unsubscription 0 ++
        [.leave 0]) :=
  subscriptions_not_leaked subscribeOnly _ (by decide +kernel)

/-- A subscription whose operation was cancelled before the reply arrived is forgotten:
nothing is pending, nobody uses it, and nobody has asked to give it up. -/
theorem cancelled_early_leaks :
    (run (Processor.step · subscribeOnly) {}
      ([.connect] ++ request 0 ++ finishing 0 ++ [.proceed 0, .leave 0] ++
        acknowledgement 0)).Settled ∧
      ¬(run (Processor.step · subscribeOnly) {}
        ([.connect] ++ request 0 ++ finishing 0 ++ [.proceed 0, .leave 0] ++
          acknowledgement 0)).LeaksNothing := by
  decide +kernel

end Nodecore.Ws
