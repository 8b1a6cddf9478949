/-
# When an unsubscribe request may be written

The registry tells a closer to unsubscribe when the last operation of an id has
finished.  By the time the request is written another operation may have been added to
the same id, and is then cut off.  As long as no operation is added to an id while an
unsubscribe request for it is on its way, no live operation is.
-/

import Nodecore.Ws.Processor

namespace Nodecore.Ws

open Lib Specs

def Frame.givesUp : Frame → Option (List UInt8)
  | .request _ => none
  | .unsubscribe _ subId => some (resultAsString subId)

/-- The closer was told to unsubscribe and has not queued the request. -/
def CloserPhase.isAsked : CloserPhase → Bool
  | .answered true | .requesting => true
  | .answered false | .waiting | .leaving | .left => false

def Closer.isAsked (closer : Closer) : Bool := closer.phase.isAsked

theorem Closer.isAsked_of_told {closer : Closer} (told : closer.phase = .answered true) :
    closer.isAsked = true := by
  rw [Closer.isAsked, told]
  rfl

def RegistryCommand.registers : RegistryCommand → Option ℕ
  | .register id => some id
  | _ => none

variable {command : RegistryCommand} {rest : List RegistryCommand} {id c : ℕ} {subId : List UInt8}
  {cancelled : Bool} {frame : Frame}

namespace Processor

section Statements

variable (processor : Processor)

/-- An unsubscribe request for the id is on its way: decided, being queued, or queued. -/
def Unsubscribing (subId : List UInt8) : Prop :=
  (∃ closer ∈ processor.closers, closer.isAsked ∧
    (processor.operation closer.id).subID = subId) ∨
  ∃ frame ∈ processor.writeEventsChan, frame.givesUp = some subId

instance (subId : List UInt8) : Decidable (processor.Unsubscribing subId) :=
  inferInstanceAs (Decidable (_ ∨ _))

/-- The id that the step gives up on the connection. -/
def unsubscribes : WsEvent → Option (List UInt8)
  | .write .written =>
    if processor.connected then processor.writeEventsChan.head?.bind (·.givesUp) else none
  | _ => none

/-- The id to which the step adds an operation. -/
def attaches (getMethod : String → Option Method) : WsEvent → Option (List UInt8)
  | .handle cancelled =>
    match processor.commands with
    | .rpc response :: _ =>
      processor.registry.attaches getMethod response
        (cancelled && processor.isLeaving response.id)
    | _ => none
  | _ => none

/-- A step that writes an unsubscribe request finds no live operation of its id. -/
def SparesLive (event : WsEvent) : Prop :=
  ∀ subId ∈ processor.unsubscribes event,
    ∀ id ∈ processor.registry.attachedTo subId, (processor.operation id).isCompleted

instance (event : WsEvent) : Decidable (processor.SparesLive event) :=
  inferInstanceAs (Decidable (∀ subId ∈ processor.unsubscribes event, _))

/-- A step that adds an operation to an id finds no unsubscribe request for it on its way. -/
def AttachesQuietly (getMethod : String → Option Method) (event : WsEvent) : Prop :=
  ∀ subId ∈ processor.attaches getMethod event, ¬processor.Unsubscribing subId

instance (getMethod : String → Option Method) (event : WsEvent) :
    Decidable (processor.AttachesQuietly getMethod event) :=
  inferInstanceAs (Decidable (∀ subId ∈ processor.attaches getMethod event, _))

end Statements

def queuedRegisters (processor : Processor) : List ℕ :=
  processor.commands.filterMap RegistryCommand.registers

/-- Between the two states nothing is registered or added to an id, nothing more is asked
to be given up, and operations keep what they were given. -/
structure Quiet (before after : Processor) : Prop where
  next : after.next = before.next
  registers : after.queuedRegisters = before.queuedRegisters
  requests : ∀ id ∈ after.registry.requests, id ∈ before.registry.requests
  identity : ∀ id, (after.operation id).identity = (before.operation id).identity
  subs : ∀ subId, before.registry.subs.lookup subId = none →
    after.registry.subs.lookup subId = none
  asked : ∀ closer ∈ after.closers, closer.isAsked →
    ∃ old ∈ before.closers, old.isAsked ∧ old.id = closer.id
  frames : ∀ frame ∈ after.writeEventsChan, ∀ subId, frame.givesUp = some subId →
    before.Unsubscribing subId

variable {getMethod : String → Option Method} {processor before after : Processor}

theorem Quiet.refl (processor : Processor) : processor.Quiet processor where
  next := rfl
  registers := rfl
  requests := fun _ listed => listed
  identity := fun _ => rfl
  subs := fun _ absent => absent
  asked := fun closer listed asked => ⟨closer, listed, asked, rfl⟩
  frames := fun frame listed _ gives => .inr ⟨frame, listed, gives⟩

theorem quiet_modifyOp {change : RequestOp → RequestOp}
    (keeps : ∀ op, (change op).identity = op.identity) :
    processor.Quiet (processor.modifyOp id change) :=
  { Quiet.refl processor with identity := fun _ => Registry.identity_modifyOp keeps }

theorem quiet_setPhase {phase : CloserPhase}
    (less : phase.isAsked = true → ∀ closer, processor.closers[c]? = some closer → closer.isAsked) :
    processor.Quiet (processor.setPhase c phase) :=
  { Quiet.refl processor with
    asked := by
      apply forall_modify
      · intro closer listed asked
        exact ⟨closer, listed, asked, rfl⟩
      · intro closer found asked
        exact ⟨closer, List.mem_of_getElem? found, less asked closer found, rfl⟩ }

theorem quiet_unasked {phase : CloserPhase} (unasked : phase.isAsked = false) :
    processor.Quiet (processor.setPhase c phase) := by
  apply quiet_setPhase
  intro asked
  cases asked.symm.trans unasked

theorem Quiet.sendCmd (quiet : before.Quiet after) (plain : command.registers = none) :
    before.Quiet (after.sendCmd command) :=
  { quiet with
    registers := by simpa [Processor.sendCmd, queuedRegisters, plain] using quiet.registers }

theorem Quiet.closeReq (quiet : before.Quiet after) : before.Quiet (after.closeReq id) := by
  refine Quiet.sendCmd { quiet with asked := ?_ } rfl
  intro closer listed asked
  rcases List.mem_append.mp listed with old | new
  · exact quiet.asked closer old asked
  · rw [List.mem_singleton.mp new] at asked
    cases asked

theorem Quiet.unsubscribing (quiet : before.Quiet after) (under : after.Unsubscribing subId) :
    before.Unsubscribing subId := by
  rcases under with ⟨closer, listed, asked, given⟩ | ⟨frame, listed, gives⟩
  · obtain ⟨old, before_listed, before_asked, same⟩ := quiet.asked closer listed asked
    have identity := quiet.identity closer.id
    refine .inl ⟨old, before_listed, before_asked, ?_⟩
    rw [same, ← given]
    exact RequestOp.subID_eq_of_identity identity.symm
  · exact quiet.frames frame listed subId gives

theorem Quiet.trans {middle : Processor} (first : before.Quiet middle)
    (second : middle.Quiet after) : before.Quiet after where
  next := second.next.trans first.next
  registers := second.registers.trans first.registers
  requests := fun id listed => first.requests id (second.requests id listed)
  identity := fun id => (second.identity id).trans (first.identity id)
  subs := fun subId absent => second.subs subId (first.subs subId absent)
  asked := by
    intro closer listed asked
    obtain ⟨old, old_listed, old_asked, same⟩ := second.asked closer listed asked
    obtain ⟨oldest, oldest_listed, oldest_asked, also⟩ := first.asked old old_listed old_asked
    exact ⟨oldest, oldest_listed, oldest_asked, also.trans same⟩
  frames := fun frame listed subId gives =>
    first.unsubscribing (second.frames frame listed subId gives)

theorem quiet_doOnClose (found : processor.closers[c]? = some ⟨id, .answered true⟩) :
    processor.Quiet (processor.doOnClose getMethod c id) := by
  unfold doOnClose
  dsimp only
  split_ifs
  · exact quiet_unasked rfl
  · split
    · exact quiet_unasked rfl
    · have phase : processor.Quiet (processor.setPhase c .requesting) := by
        apply quiet_setPhase
        intro _ closer there
        rw [found] at there
        cases there
        rfl
      exact { phase with }

theorem quiet_drop {rest : List Frame} (queued : processor.writeEventsChan = frame :: rest) :
    processor.Quiet { processor with writeEventsChan := rest } :=
  { Quiet.refl processor with
    frames := by
      intro frame listed subId gives
      refine .inr ⟨frame, ?_, gives⟩
      rw [queued]
      exact List.mem_cons_of_mem _ listed }

theorem quiet_writeFrame {outcome : WriteOutcome} :
    processor.Quiet (processor.writeFrame outcome frame) := by
  have answers (id : ℕ) (written : Bool) : processor.Quiet (processor.answerSend id written) := by
    unfold answerSend
    split_ifs
    · exact { Quiet.refl processor with }
    · exact .refl _
  cases frame with
  | request id =>
    cases outcome with
    | written => exact { answers id true with }
    | expired | failed => exact answers id false
  | unsubscribe method subId => exact .refl _

theorem quiet_enqueue (known : ∀ subId, frame.givesUp = some subId → processor.Unsubscribing subId) :
    processor.Quiet
      { processor with writeEventsChan := processor.writeEventsChan ++ [frame] } :=
  { Quiet.refl processor with
    frames := by
      intro other listed subId gives
      rcases List.mem_append.mp listed with old | new
      · exact .inr ⟨other, old, gives⟩
      · rw [List.mem_singleton.mp new] at gives
        exact known subId gives }

theorem quiet_move {event : WsEvent} (move : processor.Move getMethod event after) :
    processor.Quiet after := by
  cases move with
  | idle => exact .refl _
  | @enqueueRequest id sending =>
    have silent (subId : List UInt8) (gives : (Frame.request id).givesUp = some subId) :
        processor.Unsubscribing subId := by cases gives
    exact { quiet_enqueue silent with }
  | accept answered | connect down | reply up | readStale => exact { Quiet.refl processor with }
  | abort sending | disconnected up => exact .sendCmd { Quiet.refl processor with } rfl
  | cancelContext => exact quiet_modifyOp fun _ => rfl
  | receive waiting watched => exact quiet_modifyOp fun _ => RequestOp.identity_receive
  | observeDone ended | cancel known => exact .closeReq { Quiet.refl processor with }
  | proceed told => exact quiet_doOnClose told
  | dismiss found untold => exact quiet_unasked rfl
  | enqueueUnsubscribe asked named =>
    refine .trans (quiet_enqueue ?_) (quiet_unasked rfl)
    intro subId gives
    exact .inl ⟨_, List.mem_of_getElem? asked, rfl, Option.some.inj gives⟩
  | @leave c id found =>
    have phase : processor.Quiet (processor.setPhase c .left) := quiet_unasked rfl
    have state : (processor.setPhase c .left).Quiet
        ((processor.setPhase c .left).modifyOp id (·.cancel)) := quiet_modifyOp fun _ => rfl
    exact { phase.trans state with }
  | write queued up => exact (quiet_drop queued).trans quiet_writeFrame
  | deliver read up =>
    refine .sendCmd { Quiet.refl processor with } ?_
    rw [WsResponse.command]
    split
    · rfl
    · rfl

/-- A request that is registered, or will be, was given no subscription id yet, and a
closer that is asked to unsubscribe closes an operation that was. -/
structure Coherent (processor : Processor) : Prop where
  once : processor.queuedRegisters.Nodup
  apart : ∀ id ∈ processor.queuedRegisters, id ∉ processor.registry.requests
  bound : ∀ id, id ∈ processor.registry.requests ∨ id ∈ processor.queuedRegisters →
    id < processor.next
  unset : ∀ id, id ∈ processor.registry.requests ∨ id ∈ processor.queuedRegisters ∨
    processor.next ≤ id → (processor.operation id).subIdAsBytes = []
  asked : ∀ closer ∈ processor.closers, closer.isAsked →
    (processor.operation closer.id).subIdAsBytes ≠ []

theorem coherent_empty : ({} : Processor).Coherent where
  once := List.nodup_nil
  apart := by simp [queuedRegisters]
  bound := by simp [queuedRegisters]
  unset := fun _ _ => rfl
  asked := by simp

theorem Quiet.bytes (quiet : before.Quiet after) (id : ℕ) :
    (after.operation id).subIdAsBytes = (before.operation id).subIdAsBytes :=
  congrArg Prod.snd (quiet.identity id)

theorem Coherent.quiet (coherent : before.Coherent) (quiet : before.Quiet after) :
    after.Coherent where
  once := by
    rw [quiet.registers]
    exact coherent.once
  apart := by
    intro id queued waits
    rw [quiet.registers] at queued
    exact coherent.apart id queued (quiet.requests id waits)
  bound := by
    intro id known
    rw [quiet.registers] at known
    rw [quiet.next]
    exact coherent.bound id (known.imp_left (quiet.requests id))
  unset := by
    intro id fresh
    rw [quiet.registers, quiet.next] at fresh
    rw [quiet.bytes]
    exact coherent.unset id (fresh.imp_left (quiet.requests id))
  asked := by
    intro closer listed asked
    obtain ⟨old, old_listed, old_asked, same⟩ := quiet.asked closer listed asked
    rw [quiet.bytes, ← same]
    exact coherent.asked old old_listed old_asked

theorem Coherent.lt_next (coherent : processor.Coherent)
    (given : (processor.operation id).subIdAsBytes ≠ []) : id < processor.next := by
  by_contra beyond
  exact given (coherent.unset id (.inr (.inr (Nat.not_lt.mp beyond))))

theorem operation_register (method subType : String) :
    (processor.step getMethod (.register method subType)).operation =
      Function.update processor.operation processor.next { method, subType } := rfl

theorem Coherent.bytes_register (coherent : processor.Coherent) (method subType : String) (id : ℕ) :
    ((processor.step getMethod (.register method subType)).operation id).subIdAsBytes =
      (processor.operation id).subIdAsBytes := by
  rw [operation_register]
  by_cases new : id = processor.next
  · rw [new, coherent.unset processor.next (.inr (.inr (Nat.le_refl _))), Function.update_self]
  · rw [Function.update_of_ne new]

theorem Coherent.register (coherent : processor.Coherent) (method subType : String) :
    (processor.step getMethod (.register method subType)).Coherent := by
  have queue : (processor.step getMethod (.register method subType)).queuedRegisters =
      processor.queuedRegisters ++ [processor.next] := by
    simp [step, sendCmd, queuedRegisters, RegistryCommand.registers]
  have fresh : ∀ id, id ∈ processor.registry.requests ∨ id ∈ processor.queuedRegisters →
      id ≠ processor.next := fun id known => Nat.ne_of_lt (coherent.bound id known)
  constructor
  · rw [queue]
    apply List.Nodup.append coherent.once (List.nodup_singleton _)
    intro id old new
    exact fresh id (.inr old) (List.mem_singleton.mp new)
  · intro id queued waits
    rw [queue] at queued
    rcases List.mem_append.mp queued with old | new
    · exact coherent.apart id old waits
    · exact fresh id (.inl waits) (List.mem_singleton.mp new)
  · intro id known
    rw [queue, List.mem_append, List.mem_singleton] at known
    show id < processor.next + 1
    rcases known with waits | old | new
    · exact Nat.lt_succ_of_lt (coherent.bound id (.inl waits))
    · exact Nat.lt_succ_of_lt (coherent.bound id (.inr old))
    · exact Nat.lt_succ_of_le (Nat.le_of_eq new)
  · intro id unset
    rw [queue, List.mem_append, List.mem_singleton] at unset
    rw [coherent.bytes_register]
    apply coherent.unset
    rcases unset with waits | (old | new) | beyond
    · exact .inl waits
    · exact .inr (.inl old)
    · exact .inr (.inr (Nat.le_of_eq new.symm))
    · exact .inr (.inr (Nat.le_of_succ_le beyond))
  · intro closer listed asked
    rw [coherent.bytes_register]
    exact coherent.asked closer listed asked

theorem quiet_pop (queued : processor.commands = command :: rest) (plain : command.registers = none) :
    processor.Quiet { processor with commands := rest } :=
  { Quiet.refl processor with registers := by simp [queuedRegisters, queued, plain] }

theorem Coherent.handleRegister (coherent : processor.Coherent)
    (queued : processor.commands = .register id :: rest) :
    Coherent { processor with commands := rest, registry := processor.registry.register id } := by
  have queue : processor.queuedRegisters = id :: rest.filterMap RegistryCommand.registers := by
    simp [queuedRegisters, queued, RegistryCommand.registers]
  have once := coherent.once
  rw [queue, List.nodup_cons] at once
  have moves (other : ℕ) (known : other ∈ (processor.registry.register id).requests) :
      other ∈ processor.registry.requests ∨ other ∈ processor.queuedRegisters := by
    rcases (GoSet.mem_add _ _ _).mp known with same | waits
    · exact .inr (by simp [queue, same])
    · exact .inl waits
  have stays (other : ℕ) (listed : other ∈ rest.filterMap RegistryCommand.registers) :
      other ∈ processor.queuedRegisters := by
    rw [queue]
    exact List.mem_cons_of_mem _ listed
  constructor
  · exact once.2
  · intro other listed known
    rcases (GoSet.mem_add _ _ _).mp known with same | waits
    · exact once.1 (same ▸ listed)
    · exact coherent.apart other (stays other listed) waits
  · intro other known
    apply coherent.bound
    rcases known with waits | listed
    · exact moves other waits
    · exact .inr (stays other listed)
  · intro other unset
    apply coherent.unset
    rcases unset with waits | listed | beyond
    · exact (moves other waits).imp_right .inl
    · exact .inr (.inl (stays other listed))
    · exact .inr (.inr beyond)
  · exact coherent.asked

theorem bytes_rpc {response : WsResponse}
    (kept : id = response.id → id ∉ processor.registry.requests) :
    ((processor.registry.rpc getMethod response cancelled).operation id).subIdAsBytes =
      (processor.operation id).subIdAsBytes := by
  have other : ¬(id = response.id ∧
      processor.registry.acknowledges getMethod response = true) := by
    rintro ⟨rfl, acknowledges⟩
    exact kept rfl (Registry.acknowledges_iff.mp acknowledges).1
  exact congrArg Prod.snd (Registry.identity_rpc.trans (if_neg other))

theorem Coherent.not_mem_requests (coherent : processor.Coherent)
    (given : (processor.operation id).subIdAsBytes ≠ []) : id ∉ processor.registry.requests :=
  fun waits => given (coherent.unset id (.inl waits))

theorem Coherent.rpc (coherent : processor.Coherent) (response : WsResponse) (cancelled : Bool) :
    Coherent { processor with
      registry := processor.registry.rpc getMethod response cancelled } := by
  have waits (id : ℕ)
      (listed : id ∈ (processor.registry.rpc getMethod response cancelled).requests) :
      id ∈ processor.registry.requests := (Registry.mem_requests_rpc.mp listed).2
  constructor
  · exact coherent.once
  · intro id queued listed
    exact coherent.apart id queued (waits id listed)
  · intro id known
    exact coherent.bound id (known.imp_left (waits id))
  · intro id unset
    refine (bytes_rpc ?_).trans (coherent.unset id (unset.imp_left (waits id)))
    -- the request that is answered waits no longer, and is not registered again
    rintro rfl waited
    rcases unset with listed | queued | beyond
    · exact (Registry.mem_requests_rpc.mp listed).1 rfl
    · exact coherent.apart _ queued waited
    · exact Nat.not_le_of_lt (coherent.bound _ (.inl waited)) beyond
  · intro closer listed asked
    have given := coherent.asked closer listed asked
    rw [operation, bytes_rpc fun _ => coherent.not_mem_requests given]
    exact given

theorem asked_answer {told : Closer} (found : processor.closers[c]? = some told) (doClose : Bool) :
    ∀ closer ∈ (processor.answer c doClose).closers, closer.isAsked →
      (∃ old ∈ processor.closers, old.isAsked ∧ old.id = closer.id) ∨
        (closer.id = told.id ∧ doClose = true) := by
  apply forall_modify
  · intro closer listed asked
    exact .inl ⟨closer, listed, asked, rfl⟩
  · intro closer there asked
    cases found.symm.trans there
    unfold Closer.answer at asked ⊢
    split_ifs at asked ⊢
    · cases doClose with
      | true => exact .inr ⟨rfl, rfl⟩
      | false => cases asked
    · exact .inl ⟨told, List.mem_of_getElem? found, asked, rfl⟩

section Finish

variable {c : ℕ} {told : Closer}

theorem asked_finish (found : processor.closers[c]? = some told) :
    ∀ closer ∈ (processor.finish c told).closers, closer.isAsked →
      (∃ old ∈ processor.closers, old.isAsked ∧ old.id = closer.id) ∨
        (closer.id = told.id ∧ (processor.registry.finish told.id).2 = true) :=
  asked_answer found _

theorem identity_finish (id : ℕ) :
    ((processor.finish c told).operation id).identity = (processor.operation id).identity :=
  Registry.identity_finish

theorem bytes_finish (id : ℕ) :
    ((processor.finish c told).operation id).subIdAsBytes =
      (processor.operation id).subIdAsBytes :=
  congrArg Prod.snd (identity_finish id)

theorem Coherent.finish (coherent : processor.Coherent)
    (found : processor.closers[c]? = some told) : (processor.finish c told).Coherent := by
  have requests : (processor.finish c told).registry.requests = processor.registry.requests :=
    Registry.requests_finish
  constructor
  · exact coherent.once
  · intro id queued waits
    rw [requests] at waits
    exact coherent.apart id queued waits
  · intro id known
    rw [requests] at known
    exact coherent.bound id known
  · intro id unset
    rw [requests] at unset
    rw [bytes_finish]
    exact coherent.unset id unset
  · intro closer listed asked
    rw [bytes_finish]
    rcases asked_finish found closer listed asked with ⟨old, before, also, same⟩ | ⟨same, doClose⟩
    · rw [← same]
      exact coherent.asked old before also
    · rw [same]
      intro empty
      obtain ⟨_, _, given, _⟩ := Registry.last_of_doClose doClose
      rw [RequestOp.subID] at given
      exact given (congrArg resultAsString empty)

theorem unsubscribing_finish (found : processor.closers[c]? = some told)
    (under : (processor.finish c told).Unsubscribing subId) :
    processor.Unsubscribing subId ∨
      ((processor.operation told.id).subID = subId ∧
        (processor.registry.finish told.id).2 = true) := by
  rcases under with ⟨closer, listed, asked, given⟩ | frames
  · rw [RequestOp.subID_eq_of_identity (identity_finish closer.id)] at given
    rcases asked_finish found closer listed asked with ⟨old, before, also, same⟩ | ⟨same, doClose⟩
    · exact .inl (.inl ⟨old, before, also, by rw [same, given]⟩)
    · exact .inr ⟨by rw [← same, given], doClose⟩
  · exact .inl (.inr frames)

end Finish

/-- No operation is attached to an id for which an unsubscribe request is on its way. -/
def Spared (processor : Processor) : Prop :=
  ∀ subId, processor.Unsubscribing subId → processor.registry.subs.lookup subId = none

theorem spared_empty : ({} : Processor).Spared := by
  rintro subId (⟨closer, listed, _⟩ | ⟨frame, listed, _⟩)
  · cases listed
  · cases listed

theorem Spared.quiet (spared : before.Spared) (quiet : before.Quiet after) : after.Spared := by
  intro subId under
  exact quiet.subs subId (spared subId (quiet.unsubscribing under))

theorem Spared.finish (spared : processor.Spared) {told : Closer}
    (found : processor.closers[c]? = some told) : (processor.finish c told).Spared := by
  intro subId under
  rcases unsubscribing_finish found under with already | ⟨given, doClose⟩
  · exact Registry.lookup_finish_of_none (spared subId already)
  · rw [← given]
    obtain ⟨_, _, _, _, gone, _⟩ := Registry.last_of_doClose doClose
    exact gone

theorem unsubscribing_of_bytes (coherent : before.Coherent) (under : after.Unsubscribing subId)
    (closers : after.closers = before.closers)
    (frames : after.writeEventsChan = before.writeEventsChan)
    (bytes : ∀ id, (before.operation id).subIdAsBytes ≠ [] →
      (after.operation id).subIdAsBytes = (before.operation id).subIdAsBytes) :
    before.Unsubscribing subId := by
  rcases under with ⟨closer, listed, asked, given⟩ | ⟨frame, listed, gives⟩
  · rw [closers] at listed
    refine .inl ⟨closer, listed, asked, ?_⟩
    rw [← given, RequestOp.subID, RequestOp.subID,
      bytes closer.id (coherent.asked closer listed asked)]
  · rw [frames] at listed
    exact .inr ⟨frame, listed, gives⟩

theorem Spared.register (spared : processor.Spared) (coherent : processor.Coherent)
    (method subType : String) : (processor.step getMethod (.register method subType)).Spared := by
  intro subId under
  apply spared subId
  exact unsubscribing_of_bytes coherent under rfl rfl
    fun id _ => coherent.bytes_register method subType id

/-- A reply cuts nobody off unless it adds an operation to an id that is being given up. -/
theorem Spared.rpc (spared : processor.Spared) (coherent : processor.Coherent)
    {response : WsResponse}
    (quietly : ∀ subId ∈ processor.registry.attaches getMethod response cancelled,
      ¬processor.Unsubscribing subId) :
    Spared { processor with
      registry := processor.registry.rpc getMethod response cancelled } := by
  intro subId under
  have already : processor.Unsubscribing subId :=
    unsubscribing_of_bytes coherent under rfl rfl
      fun _ given => bytes_rpc fun _ => coherent.not_mem_requests given
  have elsewhere : processor.registry.attaches getMethod response cancelled ≠ some subId :=
    fun here => quietly subId here already
  exact (Registry.lookup_subs_rpc subId).trans ((if_neg elsewhere).trans (spared subId already))

theorem quiet_registry {registry : Registry}
    (requests : ∀ id ∈ registry.requests, id ∈ processor.registry.requests)
    (identity : ∀ id, (registry.operation id).identity = (processor.operation id).identity)
    (subs : ∀ subId, processor.registry.subs.lookup subId = none →
      registry.subs.lookup subId = none) : processor.Quiet { processor with registry } :=
  { Quiet.refl processor with requests, identity, subs }

theorem quiet_handle (cancelled : Bool) (plain : command.isPlain = true) :
    processor.Quiet (processor.handleCommand getMethod cancelled command) := by
  cases command with
  | register id => cases plain
  | rpc response => cases plain
  | finish c => cases plain
  | abort id =>
    apply quiet_registry
    · exact fun _ => Registry.mem_requests_of_abort
    · exact fun _ => Registry.identity_abort
    · intro subId absent
      rwa [Registry.subs_abort]
  | subscription response =>
    exact quiet_registry (fun _ listed => listed) (fun _ => Registry.identity_subscription)
      fun _ absent => absent
  | cancelAll =>
    apply quiet_registry
    · intro id listed
      cases listed
    · exact fun _ => Registry.identity_cancelAll
    · exact fun _ _ => rfl

section

variable (coherent : processor.Coherent)
include coherent

theorem coherent_handle (cancelled : Bool) (queued : processor.commands = command :: rest) :
    (handleCommand { processor with commands := rest } getMethod cancelled command).Coherent := by
  cases command with
  | register id => exact coherent.handleRegister queued
  | rpc response => exact (coherent.quiet (quiet_pop queued rfl)).rpc response _
  | finish c =>
    have popped := coherent.quiet (quiet_pop queued rfl)
    simp only [handleCommand]
    split
    · rename_i told found
      exact popped.finish found
    · exact popped
  | _ => exact (coherent.quiet (quiet_pop queued rfl)).quiet (quiet_handle cancelled rfl)

theorem coherent_step (event : WsEvent) : (processor.step getMethod event).Coherent := by
  apply step_cases event
  · exact fun method subType _ => coherent.register method subType
  · exact fun cancelled _ _ _ queued => coherent_handle coherent cancelled queued
  · exact fun after move => coherent.quiet (quiet_move move)

theorem spared_handle (spared : processor.Spared) (queued : processor.commands = command :: rest)
    (quietly : ∀ response, command = .rpc response →
      ∀ subId ∈ processor.registry.attaches getMethod response
        (cancelled && processor.isLeaving response.id), ¬processor.Unsubscribing subId) :
    (handleCommand { processor with commands := rest } getMethod cancelled command).Spared := by
  cases command with
  | register id => exact spared
  | rpc response =>
    have quiet := quiet_pop queued rfl
    exact (spared.quiet quiet).rpc (coherent.quiet quiet) (quietly response rfl)
  | finish c =>
    have popped := spared.quiet (quiet_pop queued rfl)
    simp only [handleCommand]
    split
    · rename_i told found
      exact popped.finish found
    · exact popped
  | _ => exact (spared.quiet (quiet_pop queued rfl)).quiet (quiet_handle cancelled rfl)

/-- A step cuts nobody off if it adds no operation to an id that is being given up. -/
theorem spared_step (spared : processor.Spared) {event : WsEvent}
    (quietly : processor.AttachesQuietly getMethod event) :
    (processor.step getMethod event).Spared := by
  apply step_cases event
  · exact fun method subType _ => spared.register coherent method subType
  · rintro cancelled command rest rfl queued
    apply spared_handle coherent spared queued
    intro response reply subId here
    apply quietly subId
    rw [attaches, queued, reply]
    exact here
  · exact fun after move => spared.quiet (quiet_move move)

end

theorem sparesLive_step (spared : processor.Spared) (event : WsEvent) :
    processor.SparesLive event := by
  intro subId written id attached
  unfold unsubscribes at written
  split at written
  · split_ifs at written
    · obtain ⟨frame, queued, gives⟩ := Option.bind_eq_some_iff.mp written
      have absent := spared subId (.inr ⟨frame, List.mem_of_mem_head? queued, gives⟩)
      rw [Registry.attachedTo, absent] at attached
      cases attached
    · cases written
  · cases written

end Processor

/-- In every run in which operations are added to an id only while no unsubscribe request
for it is on its way, no unsubscribe request is written for an id with a live operation. -/
theorem unsubscribe_spares_live (getMethod : String → Option Method) (events : List WsEvent)
    (quietly : EachStep (Processor.step · getMethod) (Processor.AttachesQuietly · getMethod)
      {} events) : EachStep (Processor.step · getMethod) Processor.SparesLive {} events := by
  have spares (processor : Processor) (event : WsEvent)
      (holds : processor.Coherent ∧ processor.Spared)
      (_ : processor.AttachesQuietly getMethod event) : processor.SparesLive event :=
    Processor.sparesLive_step holds.2 event
  have keeps (processor : Processor) (event : WsEvent)
      (holds : processor.Coherent ∧ processor.Spared)
      (quietly : processor.AttachesQuietly getMethod event) :
      (processor.step getMethod event).Coherent ∧ (processor.step getMethod event).Spared :=
    ⟨Processor.coherent_step holds.1 event, Processor.spared_step holds.1 holds.2 quietly⟩
  exact eachStep_of_eachStep spares keeps
    ⟨Processor.coherent_empty, Processor.spared_empty⟩ quietly

def request (id : ℕ) : List WsEvent :=
  [.register "eth_subscribe" "newHeads", .handle false, .enqueueRequest id, .write .written]

/-- The upstream gives the request the id `1`, and the registry handles the reply. -/
def acknowledgement (id : ℕ) : List WsEvent :=
  [.reply { type := .jsonRpc, id, message := [34, 49, 34] }, .deliver, .handle false]

def finishing (id : ℕ) : List WsEvent := [.cancelContext id, .observeDone id, .handle false]

/-- The closer asks for the subscription to be given up, and the request is written. -/
def unsubscription (closer : ℕ) : List WsEvent :=
  [.proceed closer, .enqueueUnsubscribe closer, .write .written]

/-- Written before the second request is given the same id, the request does no harm. -/
theorem unsubscribe_spares_next :
    EachStep (Processor.step · subscribeOnly) Processor.SparesLive {}
      ([.connect] ++ request 0 ++ acknowledgement 0 ++ request 1 ++ finishing 0 ++
        unsubscription 0 ++ acknowledgement 1) :=
  unsubscribe_spares_live subscribeOnly _ (by decide +kernel)

/-- Written after it, the request cuts the second operation off. -/
theorem unsubscribe_cuts_off :
    ¬EachStep (Processor.step · subscribeOnly) Processor.SparesLive {}
      ([.connect] ++ request 0 ++ acknowledgement 0 ++ request 1 ++ finishing 0 ++
        acknowledgement 1 ++ unsubscription 0) := by
  decide +kernel

end Nodecore.Ws
