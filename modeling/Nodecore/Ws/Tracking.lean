/-
# What the websocket processor keeps track of

An operation that is listed under a subscription id was given that id, is of a method
that subscribes, and will be finished once it is over: its goroutine watches its context,
or a closer has sent the finish command.  Only an operation that is over is excused from
giving its subscription up, and the upstream hears of requests only that were registered.
All this holds in every state, whatever the order of steps.
-/

import Nodecore.Ws.Unsubscribe

namespace Nodecore.Ws

open Lib Specs Registry

variable {id : ℕ} {rest : List RegistryCommand} {command : RegistryCommand}

namespace UpstreamView

variable {view : UpstreamView} {isSubscribe : Bool} {response : WsResponse}

theorem mem_written_of_reply (written : id ∈ (view.reply isSubscribe response).written) :
    id ∈ view.written := by
  unfold reply at written
  split_ifs at written
  · exact List.mem_of_mem_erase written
  · exact List.mem_of_mem_erase written
  · exact written

theorem mem_confirmed_of_reply {entry : ℕ × List UInt8}
    (confirmed : entry ∈ (view.reply isSubscribe response).confirmed) :
    entry ∈ view.confirmed ∨
      (entry.1 ∈ view.written ∧ isSubscribe = true ∧ entry.1 = response.id) := by
  unfold reply at confirmed
  split_ifs at confirmed with known subscribes
  · rcases List.mem_cons.mp confirmed with new | old
    · rw [new]
      exact .inr ⟨known.2, subscribes.1, rfl⟩
    · exact .inl old
  · exact .inl confirmed
  · exact .inl confirmed

end UpstreamView

namespace Processor

section Tracking

variable (getMethod : String → Option Method) (processor : Processor)

/-- Somebody will finish the operation once it is over. -/
def Watched (id : ℕ) : Prop :=
  processor.watching id ∨
    ∃ c, .finish c ∈ processor.commands ∧ ∃ closer ∈ processor.closers[c]?, closer.id = id

/-- The operation's frame is being sent, or was written, or its subscription confirmed. -/
def IsSent (id : ℕ) : Prop :=
  processor.sends id ≠ .returned ∨ .request id ∈ processor.writeEventsChan ∨
    id ∈ processor.upstream.written ∨ ∃ subId, (id, subId) ∈ processor.upstream.confirmed

def Subscribes (id : ℕ) : Prop := isSubscribeMethod getMethod (processor.operation id).method

/-- An operation in the list of an id: it has that id, it will be finished, and finishing
it may ask for the subscription to be given up. -/
structure Attached (subId : List UInt8) (id : ℕ) : Prop where
  subID : (processor.operation id).subID = subId
  subscribes : processor.Subscribes getMethod id
  closes : (processor.operation id).skipDoOnClose = false
  watched : processor.Watched id

structure Tracks : Prop where
  attached : ∀ subId ops, processor.registry.subs.lookup subId = some ops →
    subId ≠ [] ∧ ops.keys ≠ [] ∧ ∀ id ∈ ops, processor.Attached getMethod subId id
  alive : ∀ id < processor.next, (processor.operation id).isCompleted = false →
    processor.Watched id
  skipped : ∀ id, (processor.operation id).skipDoOnClose → (processor.operation id).isCompleted
  asked : ∀ closer ∈ processor.closers, closer.isAsked → processor.Subscribes getMethod closer.id
  sent : ∀ id, processor.IsSent id → id < processor.next
  confirmed : ∀ entry ∈ processor.upstream.confirmed, processor.Subscribes getMethod entry.1

theorem tracks_empty : ({} : Processor).Tracks getMethod where
  attached := by simp
  alive := by simp
  skipped := by simp [operation]
  asked := by simp
  sent := by simp [IsSent]
  confirmed := by simp

end Tracking

variable {getMethod : String → Option Method} {processor before after : Processor}

/-- Between the two states nobody stops being watched, nothing is marked, and only what
was sent is known to the upstream. -/
structure Steady (getMethod : String → Option Method) (before after : Processor) : Prop where
  subs : after.registry.subs = before.registry.subs
  keeps : before.registry.Keeps after.registry
  watched : ∀ id, before.Watched id → after.Watched id
  sent : ∀ id, after.IsSent id → before.IsSent id
  confirmed : ∀ entry ∈ after.upstream.confirmed,
    entry ∈ before.upstream.confirmed ∨ before.Subscribes getMethod entry.1

theorem Steady.refl (processor : Processor) : Steady getMethod processor processor where
  subs := rfl
  keeps := .of_eq rfl
  watched := fun _ watched => watched
  sent := fun _ sent => sent
  confirmed := fun _ listed => .inl listed

theorem Watched.sendCmd (watched : processor.Watched id) :
    (processor.sendCmd command).Watched id := by
  rcases watched with watching | ⟨c, queued, closer, found, same⟩
  · exact .inl watching
  · exact .inr ⟨c, List.mem_append_left _ queued, closer, found, same⟩

theorem Watched.closeReq {other : ℕ} (watched : processor.Watched id) :
    (processor.closeReq other).Watched id := by
  rcases watched with watching | ⟨c, queued, closer, found, same⟩
  · exact .inl watching
  · refine .inr ⟨c, List.mem_append_left _ queued, closer, ?_, same⟩
    exact (List.getElem?_append_left (List.getElem?_eq_some_iff.mp found).1).trans found

theorem watched_closeReq (id : ℕ) : (processor.closeReq id).Watched id := by
  refine .inr ⟨processor.closers.length, List.mem_append_right _ (List.mem_singleton_self _),
    { id }, ?_, rfl⟩
  exact List.getElem?_concat_length

theorem Watched.setPhase {c : ℕ} {phase : CloserPhase} (watched : processor.Watched id) :
    (processor.setPhase c phase).Watched id := by
  rcases watched with watching | ⟨d, queued, closer, found, same⟩
  · exact .inl watching
  · have there := List.getElem?_modify (fun closer : Closer => { closer with phase }) c
      processor.closers d
    rw [found] at there
    refine .inr ⟨d, queued, _, there, ?_⟩
    split_ifs
    · exact same
    · exact same

theorem steady_modifyOp {change : RequestOp → RequestOp} (benign : RequestOp.Benign change) :
    Steady getMethod processor (processor.modifyOp id change) :=
  { Steady.refl processor with keeps := Registry.Keeps.modifyOp (.of_eq rfl) id benign }

theorem isSent_of_update {other : ℕ} {phase : SendPhase} (known : before.IsSent id)
    (sends : after.sends = Function.update before.sends id phase)
    (rest : after.sends other = before.sends other → after.IsSent other → before.IsSent other)
    (sent : after.IsSent other) : before.IsSent other := by
  by_cases same : other = id
  · rwa [same]
  · apply rest _ sent
    rw [sends, Function.update_of_ne same]

theorem steady_doOnClose {c : ℕ} :
    Steady getMethod processor (processor.doOnClose getMethod c id) := by
  unfold doOnClose
  dsimp only
  split_ifs
  · exact { Steady.refl processor with watched := fun _ watched => watched.setPhase }
  · split
    all_goals exact { Steady.refl processor with watched := fun _ watched => watched.setPhase }

theorem steady_writeFrame {outcome : WriteOutcome} {frame : Frame} {rest : List Frame}
    (queued : processor.writeEventsChan = frame :: rest) :
    Steady getMethod processor
      (writeFrame { processor with writeEventsChan := rest } outcome frame) := by
  have left (id : ℕ) (listed : .request id ∈ rest) : .request id ∈ processor.writeEventsChan := by
    rw [queued]
    exact List.mem_cons_of_mem _ listed
  cases frame with
  | unsubscribe method subId =>
    refine { Steady.refl processor with sent := ?_ }
    exact fun id sent => sent.imp_right (Or.imp_left (left id))
  | request id =>
    have known : processor.IsSent id := .inr (.inl (by rw [queued]; exact List.mem_cons_self))
    have answers (written : Bool) : Steady getMethod processor
        (answerSend { processor with writeEventsChan := rest } id written) := by
      unfold answerSend
      split_ifs
      · refine { Steady.refl processor with sent := ?_ }
        intro other
        apply isSent_of_update known rfl
        exact fun same sent => sent.imp (same ▸ ·) (Or.imp_left (left other))
      · refine { Steady.refl processor with sent := ?_ }
        exact fun id sent => sent.imp_right (Or.imp_left (left id))
    cases outcome with
    | expired | failed => exact answers false
    | written =>
      have answered := answers true
      refine ⟨answered.subs, answered.keeps, answered.watched, ?_, fun _ listed => .inl listed⟩
      rintro other (sending | listed | written | confirmed)
      · exact answered.sent other (.inl sending)
      · exact answered.sent other (.inr (.inl listed))
      · rcases List.mem_cons.mp written with same | old
        · rwa [same]
        · exact .inr (.inr (.inl old))
      · exact .inr (.inr (.inr confirmed))

theorem steady_move {event : WsEvent} (move : processor.Move getMethod event after) :
    Steady getMethod processor after := by
  cases move with
  | idle => exact .refl _
  | @enqueueRequest id sending =>
    have known : processor.IsSent id := .inl (by rw [sending]; decide)
    refine { Steady.refl processor with sent := ?_ }
    intro other
    apply isSent_of_update known rfl
    rintro same (sends | queued | rest)
    · exact .inl (same ▸ sends)
    · rcases List.mem_append.mp queued with old | new
      · exact .inr (.inl old)
      · cases List.mem_singleton.mp new
        exact known
    · exact .inr (.inr rest)
  | accept answered =>
    refine { Steady.refl processor with sent := ?_ }
    intro other
    apply isSent_of_update (.inl (by rw [answered]; decide)) rfl
    exact fun same sent => sent.imp_left (same ▸ ·)
  | abort sending =>
    refine { Steady.refl processor with watched := fun _ watched => watched.sendCmd, sent := ?_ }
    intro other
    apply isSent_of_update (.inl sending) rfl
    exact fun same sent => sent.imp_left (same ▸ ·)
  | cancelContext => exact steady_modifyOp RequestOp.benign_cancelContext
  | receive waiting watched => exact steady_modifyOp (RequestOp.benign_receive _ _)
  | @observeDone id ended =>
    refine { Steady.refl processor with watched := ?_ }
    intro other watched
    by_cases same : other = id
    · rw [same]
      exact watched_closeReq id
    · apply Watched.closeReq
      exact watched.imp_left (Function.update_of_ne same false processor.watching).trans
  | cancel known => exact { Steady.refl processor with watched := fun _ watched => watched.closeReq }
  | proceed told => exact steady_doOnClose
  | dismiss found untold => exact { Steady.refl processor with watched := fun _ watched => watched.setPhase }
  | enqueueUnsubscribe asked named =>
    refine { Steady.refl processor with watched := fun _ watched => watched.setPhase, sent := ?_ }
    rintro id (sending | queued | rest)
    · exact .inl sending
    · rcases List.mem_append.mp queued with old | new
      · exact .inr (.inl old)
      · cases List.mem_singleton.mp new
    · exact .inr (.inr rest)
  | leave found =>
    exact
      { Steady.refl processor with
        keeps := Registry.Keeps.modifyOp (.of_eq rfl) _ RequestOp.benign_cancel
        watched := fun _ watched => watched.setPhase }
  | write queued up => exact steady_writeFrame queued
  | disconnected up =>
    refine { @Steady.refl getMethod processor with
      watched := fun _ watched => watched.sendCmd
      sent := ?_
      confirmed := fun _ listed => absurd listed List.not_mem_nil }
    rintro id (sending | queued | written | ⟨subId, confirmed⟩)
    · exact .inl sending
    · exact .inr (.inl queued)
    · cases written
    · cases confirmed
  | connect down | readStale => exact { Steady.refl processor with }
  | reply up =>
    refine { @Steady.refl getMethod processor with sent := ?_, confirmed := ?_ }
    · rintro id (sending | queued | written | ⟨subId, confirmed⟩)
      · exact .inl sending
      · exact .inr (.inl queued)
      · exact .inr (.inr (.inl (UpstreamView.mem_written_of_reply written)))
      · rcases UpstreamView.mem_confirmed_of_reply confirmed with old | ⟨written, _⟩
        · exact .inr (.inr (.inr ⟨subId, old⟩))
        · exact .inr (.inr (.inl written))
    · intro entry listed
      rcases UpstreamView.mem_confirmed_of_reply listed with old | ⟨_, subscribes, same⟩
      · exact .inl old
      · rw [Subscribes, same]
        exact .inr subscribes
  | deliver read up => exact { Steady.refl processor with watched := fun _ watched => watched.sendCmd }

section

variable (identity : (after.operation id).identity = (before.operation id).identity)
include identity

theorem subscribes_of_identity (subscribes : before.Subscribes getMethod id) :
    after.Subscribes getMethod id := by
  have method : (after.operation id).method = (before.operation id).method :=
    congrArg Prod.fst identity
  rwa [Subscribes, method]

theorem Attached.of_identity {subId : List UInt8} (was : before.Attached getMethod subId id)
    (closes : (after.operation id).skipDoOnClose = false) (watched : after.Watched id) :
    after.Attached getMethod subId id where
  subID := (RequestOp.subID_eq_of_identity identity).trans was.subID
  subscribes := subscribes_of_identity identity was.subscribes
  closes := closes
  watched := watched

end

theorem Tracks.owns (tracks : processor.Tracks getMethod) : processor.registry.Owned := by
  intro subId ops found
  obtain ⟨given, listed, attached⟩ := tracks.attached subId ops found
  exact ⟨given, listed, fun id there => (attached id there).subID⟩

theorem Tracks.skipped_keeps (tracks : processor.Tracks getMethod) {registry : Registry}
    (keeps : processor.registry.Keeps registry) (id : ℕ)
    (skips : (registry.operation id).skipDoOnClose) : (registry.operation id).isCompleted := by
  rw [(keeps id).1] at skips
  exact (keeps id).2 (tracks.skipped id skips)

theorem Tracks.steady (tracks : before.Tracks getMethod) (quiet : before.Quiet after)
    (steady : Steady getMethod before after) : after.Tracks getMethod where
  attached := by
    intro subId ops found
    rw [steady.subs] at found
    obtain ⟨given, listed, attached⟩ := tracks.attached subId ops found
    refine ⟨given, listed, fun id there => ?_⟩
    have was := attached id there
    exact was.of_identity (quiet.identity id) ((steady.keeps id).1.trans was.closes)
      (steady.watched id was.watched)
  alive := by
    intro id known runs
    rw [quiet.next] at known
    exact steady.watched id (tracks.alive id known (steady.keeps.runs runs))
  skipped := tracks.skipped_keeps steady.keeps
  asked := by
    intro closer listed asked
    obtain ⟨old, before_listed, before_asked, same⟩ := quiet.asked closer listed asked
    rw [← same]
    exact subscribes_of_identity (quiet.identity old.id)
      (tracks.asked old before_listed before_asked)
  sent := by
    intro id sent
    rw [quiet.next]
    exact tracks.sent id (steady.sent id sent)
  confirmed := by
    intro entry listed
    apply subscribes_of_identity (quiet.identity entry.1)
    rcases steady.confirmed entry listed with old | subscribes
    · exact tracks.confirmed entry old
    · exact subscribes

theorem Tracks.bytes_ne (tracks : processor.Tracks getMethod) {subId : List UInt8} {ops : GoSet ℕ}
    (found : processor.registry.subs.lookup subId = some ops) (there : id ∈ ops) :
    (processor.operation id).subIdAsBytes ≠ [] := by
  obtain ⟨named, _, attached⟩ := tracks.attached subId ops found
  intro empty
  apply named
  rw [← (attached id there).subID, RequestOp.subID, empty]
  rfl

theorem Tracks.register (tracks : processor.Tracks getMethod) (coherent : processor.Coherent)
    (method subType : String) :
    (processor.step getMethod (.register method subType)).Tracks getMethod := by
  have kept {id : ℕ} (known : id < processor.next) :
      (processor.step getMethod (.register method subType)).operation id =
        processor.operation id := by
    rw [operation_register, Function.update_of_ne (Nat.ne_of_lt known)]
  have watched {id : ℕ} (was : processor.Watched id) :
      (processor.step getMethod (.register method subType)).Watched id := by
    apply Watched.sendCmd
    refine was.imp_left fun watching => ?_
    by_cases same : id = processor.next
    · rw [same]
      exact Function.update_self ..
    · exact (Function.update_of_ne same ..).trans watching
  have subscribes {id : ℕ} (known : id < processor.next)
      (was : processor.Subscribes getMethod id) :
      (processor.step getMethod (.register method subType)).Subscribes getMethod id := by
    rwa [Subscribes, kept known]
  constructor
  · intro subId ops found
    obtain ⟨named, listed, attached⟩ := tracks.attached subId ops found
    refine ⟨named, listed, fun id there => ?_⟩
    have was := attached id there
    have known : id < processor.next := coherent.lt_next (tracks.bytes_ne found there)
    exact was.of_identity (by rw [kept known]) (by rw [kept known, was.closes])
      (watched was.watched)
  · intro id known runs
    by_cases same : id = processor.next
    · rw [same]
      exact .inl (Function.update_self ..)
    · have old : id < processor.next := Nat.lt_of_le_of_ne (Nat.le_of_lt_succ known) same
      rw [kept old] at runs
      exact watched (tracks.alive id old runs)
  · intro id skips
    rw [operation_register] at skips ⊢
    by_cases same : id = processor.next
    · rw [same, Function.update_self] at skips
      cases skips
    · rw [Function.update_of_ne same] at skips ⊢
      exact tracks.skipped id skips
  · intro closer listed asked
    exact subscribes (coherent.lt_next (coherent.asked closer listed asked))
      (tracks.asked closer listed asked)
  · rintro id (sending | rest)
    · by_cases same : id = processor.next
      · rw [same]
        exact Nat.lt_succ_self _
      · have was : processor.sends id ≠ .returned := by
          intro returned
          exact sending ((Function.update_of_ne same ..).trans returned)
        exact Nat.lt_succ_of_lt (tracks.sent id (.inl was))
    · exact Nat.lt_succ_of_lt (tracks.sent id (.inr rest))
  · intro entry listed
    exact subscribes (tracks.sent entry.1 (.inr (.inr (.inr ⟨entry.2, listed⟩))))
      (tracks.confirmed entry listed)

theorem Tracks.pop (tracks : processor.Tracks getMethod)
    (watched : ∀ id, processor.Watched id → Watched { processor with commands := rest } id) :
    Tracks getMethod { processor with commands := rest } :=
  { tracks with
    attached := by
      intro subId ops found
      obtain ⟨named, listed, attached⟩ := tracks.attached subId ops found
      refine ⟨named, listed, fun id there => ?_⟩
      have was := attached id there
      exact { was with watched := watched id was.watched }
    alive := fun id known runs => watched id (tracks.alive id known runs) }

theorem Watched.pop (queued : processor.commands = command :: rest)
    (finishes : ∀ c, command ≠ .finish c) (watched : processor.Watched id) :
    Watched { processor with commands := rest } id := by
  rcases watched with watching | ⟨c, listed, closer⟩
  · exact .inl watching
  · rw [queued] at listed
    rcases List.mem_cons.mp listed with here | later
    · exact absurd here.symm (finishes c)
    · exact .inr ⟨c, later, closer⟩

section

variable (tracks : processor.Tracks getMethod)
include tracks

theorem Tracks.withRegistry {registry : Registry}
    (identity : ∀ id, (registry.operation id).identity = (processor.operation id).identity)
    (subs : ∀ subId ops, registry.subs.lookup subId = some ops →
      processor.registry.subs.lookup subId = some ops ∧
        ∀ id ∈ ops, (registry.operation id).skipDoOnClose = false)
    (completed : ∀ id, (processor.operation id).isCompleted → (registry.operation id).isCompleted)
    (skipped : ∀ id, (registry.operation id).skipDoOnClose → (registry.operation id).isCompleted) :
    Tracks getMethod { processor with registry } where
  attached := by
    intro subId ops found
    obtain ⟨was_found, closes⟩ := subs subId ops found
    obtain ⟨named, listed, attached⟩ := tracks.attached subId ops was_found
    refine ⟨named, listed, fun id there => ?_⟩
    have was := attached id there
    exact was.of_identity (by exact identity id) (closes id there) was.watched
  alive := by
    intro id known runs
    apply tracks.alive id known
    by_contra ended
    rw [operation, completed id (by simpa using ended)] at runs
    cases runs
  skipped := skipped
  asked := fun closer listed asked =>
    subscribes_of_identity (identity closer.id) (tracks.asked closer listed asked)
  sent := tracks.sent
  confirmed := fun entry listed =>
    subscribes_of_identity (identity entry.1) (tracks.confirmed entry listed)

theorem Tracks.abort (coherent : processor.Coherent) (id : ℕ) :
    Tracks getMethod { processor with registry := processor.registry.abort id } := by
  by_cases waits : id ∈ processor.registry.requests
  · have changes (other : ℕ) : (processor.registry.abort id).operation other =
        if other = id then (processor.operation id).setSkipDoOnClose.cancel
        else processor.operation other := by
      rw [Registry.abort, if_pos waits]
      split_ifs with same
      · rw [same, Registry.operation_modifyOp_self]
        rfl
      · exact operation_modifyOp_of_ne same
    apply tracks.withRegistry
    · exact fun _ => identity_abort
    · intro subId ops found
      have was : processor.registry.subs.lookup subId = some ops := by
        rwa [subs_abort] at found
      refine ⟨was, fun other there => ?_⟩
      have differs : other ≠ id := by
        rintro rfl
        exact tracks.bytes_ne was there (coherent.unset other (.inl waits))
      obtain ⟨_, _, attached⟩ := tracks.attached subId ops was
      rw [changes, if_neg differs]
      exact (attached other there).closes
    · intro other ended
      rw [changes]
      split_ifs
      · rfl
      · exact ended
    · intro other skips
      rw [changes] at skips ⊢
      split_ifs at skips ⊢
      · rfl
      · exact tracks.skipped other skips
  · rw [Registry.abort, if_neg waits]
    exact tracks

theorem Tracks.subscription (response : WsResponse) :
    Tracks getMethod
      { processor with registry := processor.registry.subscription response } := by
  have keeps : processor.registry.Keeps (processor.registry.subscription response) :=
    keeps_subscription
  apply tracks.withRegistry
  · exact fun _ => identity_subscription
  · intro subId ops found
    obtain ⟨_, _, attached⟩ := tracks.attached subId ops found
    exact ⟨found, fun id there => (keeps id).1.trans (attached id there).closes⟩
  · exact fun id => (keeps id).2
  · exact tracks.skipped_keeps keeps

theorem Tracks.cancelAll :
    Tracks getMethod { processor with registry := processor.registry.cancelAll } := by
  apply tracks.withRegistry
  · exact fun _ => identity_cancelAll
  · intro subId ops found
    cases found
  · intro id ended
    show RequestOp.isCompleted (if _ then _ else _) = true
    split_ifs
    · rfl
    · exact ended
  · intro id skips
    change RequestOp.skipDoOnClose (if _ then _ else _) = true at skips
    show RequestOp.isCompleted (if _ then _ else _) = true
    split_ifs at skips ⊢
    · rfl
    · exact tracks.skipped id skips

theorem Tracks.rpc (coherent : processor.Coherent) (response : WsResponse) (cancelled : Bool) :
    Tracks getMethod { processor with
      registry := processor.registry.rpc getMethod response cancelled } := by
  have keeps : processor.registry.Keeps
      (processor.registry.rpc getMethod response cancelled) := keeps_rpc
  have subscribes {id : ℕ} (was : processor.Subscribes getMethod id) :
      Subscribes getMethod { processor with
        registry := processor.registry.rpc getMethod response cancelled } id := by
    rwa [Subscribes, operation, method_rpc]
  have owned : (processor.registry.rpc getMethod response cancelled).Owned :=
    tracks.owns.rpc fun found there => coherent.not_mem_requests (tracks.bytes_ne found there)
  constructor
  · intro subId ops found
    obtain ⟨named, listed, own⟩ := owned subId ops found
    refine ⟨named, listed, fun id there => ?_⟩
    rcases mem_entry_rpc found there with ⟨rfl, attaches⟩ | ⟨before, found, there⟩
    · obtain ⟨acknowledges, -, -⟩ := attaches_eq_some attaches
      obtain ⟨waits, runs, _, subscribing⟩ := acknowledges_iff.mp acknowledges
      refine ⟨own _ there, subscribes subscribing, (keeps response.id).1.trans ?_,
        tracks.alive _ (coherent.bound _ (.inl waits)) runs⟩
      by_contra marked
      cases (tracks.skipped response.id (Bool.of_not_eq_false marked)).symm.trans runs
    · have was := (tracks.attached subId before found).2.2 id there
      exact ⟨own id ‹_›, subscribes was.subscribes, (keeps id).1.trans was.closes, was.watched⟩
  · intro id known runs
    exact tracks.alive id known (keeps.runs runs)
  · exact tracks.skipped_keeps keeps
  · exact fun closer listed asked => subscribes (tracks.asked closer listed asked)
  · exact tracks.sent
  · exact fun entry listed => subscribes (tracks.confirmed entry listed)

theorem Tracks.finish {c : ℕ} {told : Closer}
    (queued : processor.commands = .finish c :: rest) (found : processor.closers[c]? = some told) :
    Tracks getMethod (Processor.finish { processor with commands := rest } c told) := by
  have keeps : processor.registry.Keeps (processor.registry.finish told.id).1 :=
    keeps_finish
  have identity (id : ℕ) : ((processor.registry.finish told.id).1.operation id).identity =
      (processor.operation id).identity := Registry.identity_finish
  -- whoever is not finished now is still watched
  have watched {id : ℕ} (other : id ≠ told.id) (was : processor.Watched id) :
      (Processor.finish { processor with commands := rest } c told).Watched id := by
    rcases was with watching | ⟨d, listed, closer, there, same⟩
    · exact .inl watching
    · rw [queued] at listed
      rcases List.mem_cons.mp listed with here | later
      · cases here
        cases found.symm.trans there
        exact absurd same.symm other
      · have moved := List.getElem?_modify
          (fun closer : Closer => closer.answer (processor.registry.finish told.id).2) c
          processor.closers d
        rw [there] at moved
        refine .inr ⟨d, later, _, moved, ?_⟩
        split_ifs
        · exact (Closer.id_answer closer _).trans same
        · exact same
  constructor
  · intro subId left there
    obtain ⟨ops, was_there, listed, from_ops⟩ := lookup_finish tracks.owns there
    obtain ⟨named, _, attached⟩ := tracks.attached subId ops was_there
    refine ⟨named, listed, fun id kept => ?_⟩
    have was := attached id (from_ops id kept).1
    exact was.of_identity (by exact identity id) ((keeps id).1.trans was.closes)
      (watched (from_ops id kept).2 was.watched)
  · intro id known runs
    have other : id ≠ told.id := by
      rintro rfl
      cases completed_finish.symm.trans runs
    exact watched other (tracks.alive id known (keeps.runs runs))
  · exact tracks.skipped_keeps keeps
  · intro closer listed asked
    have was : processor.Subscribes getMethod closer.id := by
      rcases asked_finish found closer listed asked with ⟨old, was, also, same⟩ | ⟨same, doClose⟩
      · rw [← same]
        exact tracks.asked old was also
      · obtain ⟨ops, there, -, gone, -⟩ := last_of_doClose doClose
        have listed := mem_of_last (tracks.owns _ ops there).2.1 gone
        rw [same]
        exact ((tracks.attached _ ops there).2.2 told.id listed).subscribes
    exact subscribes_of_identity (identity closer.id) was
  · exact tracks.sent
  · intro entry listed
    exact subscribes_of_identity (identity entry.1) (tracks.confirmed entry listed)

theorem tracks_handle (coherent : processor.Coherent)
    (cancelled : Bool) (queued : processor.commands = command :: rest) :
    (handleCommand { processor with commands := rest } getMethod cancelled command).Tracks
      getMethod := by
  by_cases finishes : ∃ c, command = .finish c
  · obtain ⟨c, rfl⟩ := finishes
    simp only [handleCommand]
    split
    · rename_i told found
      exact tracks.finish queued found
    · rename_i absent
      apply tracks.pop
      rintro id (watching | ⟨d, listed, closer, found, same⟩)
      · exact .inl watching
      · rw [queued] at listed
        rcases List.mem_cons.mp listed with here | later
        · cases here
          cases absent.symm.trans found
        · exact .inr ⟨d, later, closer, found, same⟩
  · have popped : Tracks getMethod { processor with commands := rest } :=
      tracks.pop fun _ watched => watched.pop queued fun c same => finishes ⟨c, same⟩
    cases command with
    | finish c => exact absurd ⟨c, rfl⟩ finishes
    | register id =>
      apply popped.withRegistry
      · exact fun _ => rfl
      · intro subId ops found
        obtain ⟨_, _, attached⟩ := popped.attached subId ops found
        exact ⟨found, fun id there => (attached id there).closes⟩
      · exact fun _ ended => ended
      · exact popped.skipped
    | abort id => exact popped.abort (coherent.quiet (quiet_pop queued rfl)) id
    | rpc response => exact popped.rpc (coherent.quiet (quiet_pop queued rfl)) response _
    | subscription response => exact popped.subscription response
    | cancelAll => exact popped.cancelAll

theorem tracks_step (coherent : processor.Coherent) (event : WsEvent) :
    (processor.step getMethod event).Tracks getMethod := by
  apply step_cases event
  · exact fun method subType _ => tracks.register coherent method subType
  · exact fun cancelled _ _ _ queued => tracks_handle tracks coherent cancelled queued
  · exact fun after move => tracks.steady (quiet_move move) (steady_move move)

end

end Processor

end Nodecore.Ws
