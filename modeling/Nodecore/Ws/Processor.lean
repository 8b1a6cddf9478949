/-
# The websocket processor of an upstream

The processor owns the connection: its loop reconnects, writes the frames others have
queued and passes what was read on to the registry.  Around it run a goroutine for each
operation, the callers that send requests, and the closers: a closer asks the registry
whether the subscription has to be given up, and if so queues the unsubscribe request.
The registry's decision and the write are different steps, with any others between them.

The model lets all of them take steps in any order, and a timeout at any time.  What the
upstream knows is kept beside the processor's own state: the requests written to it on the
present connection, the subscriptions it has confirmed there, and the ids it was asked to
give up since it last confirmed them.
-/

import Nodecore.Lib.Run
import Nodecore.Ws.RequestRegistry

namespace Nodecore.Ws

open Lib Specs

/-- A finish command carries the operation and the reply channel of the closer it names. -/
inductive RegistryCommand
  | register (id : ℕ)
  | abort (id : ℕ)
  | rpc (response : WsResponse)
  | subscription (response : WsResponse)
  | finish (closer : ℕ)
  | cancelAll
  deriving DecidableEq, Repr

/-- The commands that leave every operation with its id and its closer unanswered. -/
def RegistryCommand.isPlain : RegistryCommand → Bool
  | .abort _ => true
  | .subscription _ => true
  | .cancelAll => true
  | _ => false

/-- Replies and notifications go to the registry. -/
def WsResponse.command (response : WsResponse) : RegistryCommand :=
  match response.type with
  | .jsonRpc => .rpc response
  | .ws => .subscription response

theorem WsResponse.command_ne_cancelAll (response : WsResponse) :
    response.command ≠ .cancelAll := by
  unfold WsResponse.command
  split
  · simp
  · simp

/-- Where a closer is: it waits for the registry's answer, has it, wants to queue the
unsubscribe request, is about to cancel the operation, or is done. -/
inductive CloserPhase
  | waiting | answered (doClose : Bool) | requesting | leaving | left
  deriving DecidableEq, Repr

structure Closer where
  id : ℕ
  phase : CloserPhase := .waiting
  deriving DecidableEq, Repr

/-- The registry's answer reaches a closer that still waits for it. -/
def Closer.answer (closer : Closer) (doClose : Bool) : Closer :=
  if closer.phase = .waiting then { closer with phase := .answered doClose } else closer

theorem Closer.id_answer (closer : Closer) (doClose : Bool) :
    (closer.answer doClose).id = closer.id := by
  unfold Closer.answer
  split_ifs
  · rfl
  · rfl

/-- Where the caller of an operation is: it wants to queue its frame, waits for the
writer, has its answer, or has returned. -/
inductive SendPhase
  | sending | awaiting | answered (written : Bool) | returned
  deriving DecidableEq, Repr

inductive Frame
  | request (id : ℕ)
  | unsubscribe (method : String) (subId : List UInt8)
  deriving DecidableEq, Repr

/-- What became of a frame the writer took: its context was over, the connection refused
it, or it was written. -/
inductive WriteOutcome
  | expired | failed | written
  deriving DecidableEq, Repr

/-- The upstream's side of the present connection. -/
structure UpstreamView where
  written : List ℕ := []
  confirmed : List (ℕ × List UInt8) := []
  requested : List (List UInt8) := []
  deriving DecidableEq, Repr

structure Processor where
  registry : Registry := {}
  next : ℕ := 0
  sends : ℕ → SendPhase := fun _ => .returned
  watching : ℕ → Bool := fun _ => false
  allOps : GoSet ℕ := ∅
  commands : List RegistryCommand := []
  closers : List Closer := []
  writeEventsChan : List Frame := []
  readEventsChan : List WsResponse := []
  connected : Bool := false
  generation : ℕ := 0
  upstream : UpstreamView := {}

/-- What can happen.  `handle` says whether the cancellation of a leaving closer falls into
the handling of a reply; `readStale` is a reader of an earlier connection. -/
inductive WsEvent
  | register (method subType : String)
  | enqueueRequest (id : ℕ)
  | accept (id : ℕ)
  | abort (id : ℕ)
  | cancelContext (id : ℕ)
  | receive (id : ℕ)
  | observeDone (id : ℕ)
  | cancel (id : ℕ)
  | handle (cancelled : Bool)
  | proceed (closer : ℕ)
  | enqueueUnsubscribe (closer : ℕ)
  | abandon (closer : ℕ)
  | giveUp (closer : ℕ)
  | leave (closer : ℕ)
  | write (outcome : WriteOutcome)
  | disconnected (generation : ℕ)
  | connect
  | reply (response : WsResponse)
  | readStale (response : WsResponse)
  | deliver
  deriving DecidableEq, Repr

/-- Neither a registration nor a step of the registry. -/
def WsEvent.isOutside : WsEvent → Bool
  | .register _ _ => false
  | .handle _ => false
  | _ => true

namespace UpstreamView

variable (view : UpstreamView)

/-- A reply to a subscribe request that was written confirms a subscription. -/
def reply (isSubscribe : Bool) (response : WsResponse) : UpstreamView :=
  if response.type = .jsonRpc ∧ response.id ∈ view.written then
    if isSubscribe ∧ ¬response.hasError then
      { written := view.written.erase response.id
        confirmed := (response.id, resultAsString response.message) :: view.confirmed
        requested := view.requested.filter (· ≠ resultAsString response.message) }
    else { view with written := view.written.erase response.id }
  else view

end UpstreamView

namespace Processor

variable (processor : Processor)

def operation (id : ℕ) : RequestOp := processor.registry.operation id

def modifyOp (id : ℕ) (change : RequestOp → RequestOp) : Processor :=
  { processor with registry := processor.registry.modifyOp id change }

def sendCmd (command : RegistryCommand) : Processor :=
  { processor with commands := processor.commands ++ [command] }

def setSend (id : ℕ) (phase : SendPhase) : Processor :=
  { processor with sends := Function.update processor.sends id phase }

def setPhase (c : ℕ) (phase : CloserPhase) : Processor :=
  { processor with closers := processor.closers.modify c fun closer => { closer with phase } }

/-- Starts to close an operation: asks the registry to finish it. -/
def closeReq (id : ℕ) : Processor :=
  sendCmd { processor with closers := processor.closers ++ [{ id }] }
    (.finish processor.closers.length)

def answer (c : ℕ) (doClose : Bool) : Processor :=
  { processor with closers := processor.closers.modify c (·.answer doClose) }

def finish (c : ℕ) (closer : Closer) : Processor :=
  answer { processor with registry := (processor.registry.finish closer.id).1 } c
    (processor.registry.finish closer.id).2

/-- The closer asks for the subscription to be given up. -/
def doOnClose (getMethod : String → Option Method) (c id : ℕ) : Processor :=
  let op := processor.operation id
  if op.subIdAsBytes = [] then processor.setPhase c .leaving
  else
    match getUnsubscribeMethod getMethod op.method with
    | none => processor.setPhase c .leaving
    | some _ =>
      { processor.setPhase c .requesting with
        upstream :=
          { processor.upstream with requested := op.subID :: processor.upstream.requested } }

/-- A closer is about to cancel the operation. -/
def isLeaving (id : ℕ) : Bool :=
  processor.closers.any fun closer => closer.id = id ∧ closer.phase = .leaving

def handleCommand (getMethod : String → Option Method) (cancelled : Bool) :
    RegistryCommand → Processor
  | .register id => { processor with registry := processor.registry.register id }
  | .abort id => { processor with registry := processor.registry.abort id }
  | .rpc response =>
    { processor with
      registry := processor.registry.rpc getMethod response
        (cancelled && processor.isLeaving response.id) }
  | .subscription response =>
    { processor with registry := processor.registry.subscription response }
  | .finish c =>
    match processor.closers[c]? with
    | some closer => processor.finish c closer
    | none => processor
  | .cancelAll => { processor with registry := processor.registry.cancelAll }

/-- The writer answers a caller that still waits. -/
def answerSend (id : ℕ) (written : Bool) : Processor :=
  if processor.sends id = .awaiting then processor.setSend id (.answered written) else processor

def writeFrame (outcome : WriteOutcome) : Frame → Processor
  | .request id =>
    match outcome with
    | .written =>
      { processor.answerSend id true with
        upstream :=
          { processor.upstream with written := id :: processor.upstream.written } }
    | _ => processor.answerSend id false
  | .unsubscribe _ _ => processor

def step (getMethod : String → Option Method) : WsEvent → Processor
  | .register method subType =>
    sendCmd
      { processor with
        registry := processor.registry.modifyOp processor.next fun _ => { method, subType }
        next := processor.next + 1
        sends := Function.update processor.sends processor.next .sending
        watching := Function.update processor.watching processor.next true
        allOps := processor.allOps.add processor.next }
      (.register processor.next)
  | .enqueueRequest id =>
    if processor.sends id = .sending then
      { processor.setSend id .awaiting with
        writeEventsChan := processor.writeEventsChan ++ [.request id] }
    else processor
  | .accept id =>
    if processor.sends id = .answered true then processor.setSend id .returned else processor
  | .abort id =>
    if processor.sends id ≠ .returned then
      sendCmd { processor.setSend id .returned with allOps := processor.allOps.remove id }
        (.abort id)
    else processor
  | .cancelContext id => processor.modifyOp id (·.cancelContext)
  | .receive id =>
    match (processor.operation id).internalMessages with
    | [] => processor
    | message :: rest =>
      if processor.watching id then processor.modifyOp id (·.receive message rest)
      else processor
  | .observeDone id =>
    if processor.watching id ∧ (processor.operation id).state ≠ .running then
      closeReq { processor with watching := Function.update processor.watching id false } id
    else processor
  | .cancel id =>
    if id ∈ processor.allOps ∧ processor.sends id = .returned then
      closeReq { processor with allOps := processor.allOps.remove id } id
    else processor
  | .handle cancelled =>
    match processor.commands with
    | [] => processor
    | command :: rest =>
      handleCommand { processor with commands := rest } getMethod cancelled command
  | .proceed c =>
    match processor.closers[c]? with
    | some ⟨id, .answered true⟩ => processor.doOnClose getMethod c id
    | some ⟨_, .answered false⟩ => processor.setPhase c .leaving
    | _ => processor
  | .enqueueUnsubscribe c =>
    match processor.closers[c]? with
    | some ⟨id, .requesting⟩ =>
      match getUnsubscribeMethod getMethod (processor.operation id).method with
      | some method =>
        { processor.setPhase c .leaving with
          writeEventsChan := processor.writeEventsChan ++
            [.unsubscribe method (processor.operation id).subIdAsBytes] }
      | none => processor
    | _ => processor
  | .abandon c =>
    match processor.closers[c]? with
    | some ⟨_, .requesting⟩ => processor.setPhase c .leaving
    | _ => processor
  | .giveUp c =>
    match processor.closers[c]? with
    | some ⟨_, .waiting⟩ | some ⟨_, .answered _⟩ => processor.setPhase c .leaving
    | _ => processor
  | .leave c =>
    match processor.closers[c]? with
    | some ⟨id, .leaving⟩ =>
      { (processor.setPhase c .left).modifyOp id (·.cancel) with
        allOps := processor.allOps.remove id }
    | _ => processor
  | .write outcome =>
    match processor.writeEventsChan with
    | [] => processor
    | frame :: rest =>
      if processor.connected then
        writeFrame { processor with writeEventsChan := rest } outcome frame
      else processor
  | .disconnected generation =>
    if processor.connected ∧ generation = processor.generation then
      sendCmd { processor with connected := false, upstream := {} } .cancelAll
    else processor
  | .connect =>
    if processor.connected then processor
    else { processor with connected := true, generation := processor.generation + 1 }
  | .reply response =>
    if processor.connected then
      { processor with
        readEventsChan := processor.readEventsChan ++ [response]
        upstream := processor.upstream.reply
          (isSubscribeMethod getMethod (processor.operation response.id).method) response }
    else processor
  | .readStale response =>
    { processor with readEventsChan := processor.readEventsChan ++ [response] }
  | .deliver =>
    match processor.readEventsChan with
    | [] => processor
    | response :: rest =>
      if processor.connected then
        sendCmd { processor with readEventsChan := rest } response.command
      else processor

end Processor

namespace Processor

/-- What a step outside the registry finds, and leads to. -/
inductive Move (getMethod : String → Option Method) (processor : Processor) :
    WsEvent → Processor → Prop
  | idle {event : WsEvent} : Move getMethod processor event processor
  | enqueueRequest {id : ℕ} (sending : processor.sends id = .sending) :
      Move getMethod processor (.enqueueRequest id)
        { processor.setSend id .awaiting with
          writeEventsChan := processor.writeEventsChan ++ [.request id] }
  | accept {id : ℕ} (answered : processor.sends id = .answered true) :
      Move getMethod processor (.accept id) (processor.setSend id .returned)
  | abort {id : ℕ} (sending : processor.sends id ≠ .returned) :
      Move getMethod processor (.abort id)
        (sendCmd { processor.setSend id .returned with allOps := processor.allOps.remove id }
          (.abort id))
  | cancelContext {id : ℕ} :
      Move getMethod processor (.cancelContext id) (processor.modifyOp id (·.cancelContext))
  | receive {id : ℕ} {message : WsResponse} {rest : List WsResponse}
      (waiting : (processor.operation id).internalMessages = message :: rest)
      (watched : processor.watching id) :
      Move getMethod processor (.receive id) (processor.modifyOp id (·.receive message rest))
  | observeDone {id : ℕ}
      (ended : processor.watching id ∧ (processor.operation id).state ≠ .running) :
      Move getMethod processor (.observeDone id)
        (closeReq { processor with watching := Function.update processor.watching id false } id)
  | cancel {id : ℕ} (known : id ∈ processor.allOps ∧ processor.sends id = .returned) :
      Move getMethod processor (.cancel id)
        (closeReq { processor with allOps := processor.allOps.remove id } id)
  | proceed {c id : ℕ} (told : processor.closers[c]? = some ⟨id, .answered true⟩) :
      Move getMethod processor (.proceed c) (processor.doOnClose getMethod c id)
  | dismiss {event : WsEvent} {c : ℕ} {closer : Closer} (found : processor.closers[c]? = some closer)
      (untold : event = .giveUp c ∨ closer.phase ≠ .answered true) :
      Move getMethod processor event (processor.setPhase c .leaving)
  | enqueueUnsubscribe {c id : ℕ} {method : String}
      (asked : processor.closers[c]? = some ⟨id, .requesting⟩)
      (named : getUnsubscribeMethod getMethod (processor.operation id).method = some method) :
      Move getMethod processor (.enqueueUnsubscribe c)
        { processor.setPhase c .leaving with
          writeEventsChan := processor.writeEventsChan ++
            [.unsubscribe method (processor.operation id).subIdAsBytes] }
  | leave {c id : ℕ} (found : processor.closers[c]? = some ⟨id, .leaving⟩) :
      Move getMethod processor (.leave c)
        { (processor.setPhase c .left).modifyOp id (·.cancel) with
          allOps := processor.allOps.remove id }
  | write {outcome : WriteOutcome} {frame : Frame} {rest : List Frame}
      (queued : processor.writeEventsChan = frame :: rest) (up : processor.connected) :
      Move getMethod processor (.write outcome)
        (writeFrame { processor with writeEventsChan := rest } outcome frame)
  | disconnected {generation : ℕ}
      (up : processor.connected ∧ generation = processor.generation) :
      Move getMethod processor (.disconnected generation)
        (sendCmd { processor with connected := false, upstream := {} } .cancelAll)
  | connect (down : ¬processor.connected) :
      Move getMethod processor .connect
        { processor with connected := true, generation := processor.generation + 1 }
  | reply {response : WsResponse} (up : processor.connected) :
      Move getMethod processor (.reply response)
        { processor with
          readEventsChan := processor.readEventsChan ++ [response]
          upstream := processor.upstream.reply
            (isSubscribeMethod getMethod (processor.operation response.id).method) response }
  | readStale {response : WsResponse} :
      Move getMethod processor (.readStale response)
        { processor with readEventsChan := processor.readEventsChan ++ [response] }
  | deliver {response : WsResponse} {rest : List WsResponse}
      (read : processor.readEventsChan = response :: rest) (up : processor.connected) :
      Move getMethod processor .deliver
        (sendCmd { processor with readEventsChan := rest } response.command)

variable {getMethod : String → Option Method} {processor : Processor}

theorem Move.of_ite {event : WsEvent} {after : Processor} {enabled : Prop} [Decidable enabled]
    (moves : enabled → processor.Move getMethod event after) :
    processor.Move getMethod event (if enabled then after else processor) := by
  split_ifs with holds
  · exact moves holds
  · exact .idle

theorem move_step {event : WsEvent} (outside : event.isOutside = true) :
    processor.Move getMethod event (processor.step getMethod event) := by
  cases event with
  | register method subType | handle cancelled => cases outside
  | enqueueRequest id => exact .of_ite .enqueueRequest
  | accept id => exact .of_ite .accept
  | abort id => exact .of_ite .abort
  | cancelContext id => exact .cancelContext
  | receive id =>
    rw [step]
    split
    · exact .idle
    · rename_i message rest waiting
      exact .of_ite (.receive waiting)
  | observeDone id => exact .of_ite .observeDone
  | cancel id => exact .of_ite .cancel
  | proceed c =>
    rw [step]
    split
    · rename_i told
      exact .proceed told
    · rename_i found
      exact .dismiss found (.inr (by simp))
    · exact .idle
  | enqueueUnsubscribe c =>
    rw [step]
    split
    · rename_i asked
      split
      · rename_i named
        exact .enqueueUnsubscribe asked named
      · exact .idle
    · exact .idle
  | abandon c =>
    rw [step]
    split
    · rename_i found
      exact .dismiss found (.inr (by simp))
    · exact .idle
  | giveUp c =>
    rw [step]
    split
    · rename_i found
      exact .dismiss found (.inl rfl)
    · rename_i found
      exact .dismiss found (.inl rfl)
    · exact .idle
  | leave c =>
    rw [step]
    split
    · rename_i found
      exact .leave found
    · exact .idle
  | write outcome =>
    rw [step]
    split
    · exact .idle
    · rename_i queued
      exact .of_ite (.write queued)
  | disconnected generation => exact .of_ite .disconnected
  | connect =>
    rw [step]
    split_ifs with up
    · exact .idle
    · exact .connect up
  | reply response => exact .of_ite .reply
  | readStale response => exact .readStale
  | deliver =>
    rw [step]
    split
    · exact .idle
    · rename_i read
      exact .of_ite (.deliver read)

theorem step_cases {motive : Processor → Prop} (event : WsEvent)
    (registers : ∀ method subType, event = .register method subType →
      motive (processor.step getMethod (.register method subType)))
    (handles : ∀ cancelled command rest, event = .handle cancelled →
      processor.commands = command :: rest →
      motive (handleCommand { processor with commands := rest } getMethod cancelled command))
    (moves : ∀ after, processor.Move getMethod event after → motive after) :
    motive (processor.step getMethod event) := by
  cases event with
  | register method subType => exact registers method subType rfl
  | handle cancelled =>
    cases queued : processor.commands with
    | nil =>
      have same : processor.step getMethod (.handle cancelled) = processor := by
        rw [step, queued]
      rw [same]
      exact moves processor .idle
    | cons command rest =>
      rw [step, queued]
      exact handles cancelled command rest rfl queued
  | _ => exact moves _ (move_step rfl)

end Processor

end Nodecore.Ws
