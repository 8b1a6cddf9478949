/-
# The request registry of an upstream's websocket connection

Every request sent over the connection is an operation, numbered by the protocol's
counter.  The registry keeps the operations that wait for their reply, and for every
subscription id of the upstream the operations its notifications go to.  It is owned by
one goroutine that handles commands; this module has what each command does.

Operations are shared with other goroutines: their contexts end, and they are
cancelled, at any time.  What a reply or a notification holds besides the fields read
here is left out.
-/

import Nodecore.Lib.Json.Grammar
import Nodecore.Specs.Method

namespace Nodecore.Ws

open Lib Lib.Json Specs

section Methods

variable (getMethod : String → Option Method)

def subscribeSettings (name : String) : Option Subscription :=
  (getMethod name).bind (·.subscription)

def isSubscribeMethod (name : String) : Bool :=
  match subscribeSettings getMethod name with
  | none => false
  | some settings => settings.isSubscribe

def getUnsubscribeMethod (name : String) : Option String :=
  (subscribeSettings getMethod name).map (·.unsubMethod)

theorem exists_unsubscribeMethod {name : String}
    (subscribes : isSubscribeMethod getMethod name = true) :
    ∃ method, getUnsubscribeMethod getMethod name = some method := by
  unfold isSubscribeMethod at subscribes
  split at subscribes
  · cases subscribes
  · rename_i settings found
    exact ⟨settings.unsubMethod, by rw [getUnsubscribeMethod, found]; rfl⟩

end Methods

def subscribeOnly (name : String) : Option Method :=
  if name = "eth_subscribe" then
    some { name, subscription := some ⟨true, name, "eth_unsubscribe"⟩ }
  else none

/-- The text of a result, without the quotes of a string. -/
def resultAsString (result : List UInt8) : List UInt8 :=
  if result.head? = some quote ∧ result.getLast? = some quote then result.tail.dropLast
  else result

inductive WsResponseType
  | jsonRpc | ws
  deriving DecidableEq, Repr

structure WsResponse where
  type : WsResponseType
  id : ℕ := 0
  message : List UInt8 := []
  subId : List UInt8 := []
  hasError : Bool := false
  deriving DecidableEq, Repr

/-- An operation runs until its context ends; completing it ends its context. -/
inductive OpState
  | running | ctxDone | completed
  deriving DecidableEq, Repr

def requestOpBufferSize (subType : String) : ℕ := if subType ≠ "" then 4096 else 50

structure RequestOp where
  method : String := ""
  subType : String := ""
  state : OpState := .running
  subIdAsBytes : List UInt8 := []
  skipDoOnClose : Bool := false
  internalMessages : List WsResponse := []

namespace RequestOp

variable (op : RequestOp)

def subID : List UInt8 := resultAsString op.subIdAsBytes

def isCompleted : Bool := op.state = .completed

def setSubID (subId : List UInt8) : RequestOp := { op with subIdAsBytes := subId }

def setSkipDoOnClose : RequestOp := { op with skipDoOnClose := true }

def cancel : RequestOp := { op with state := .completed }

def cancelContext : RequestOp :=
  { op with state := if op.state = .completed then .completed else .ctxDone }

/-- Hands a message to the operation's goroutine, unless the operation is done or its
buffer is full. -/
def write (message : WsResponse) : RequestOp :=
  if op.state = .running ∧ op.internalMessages.length < requestOpBufferSize op.subType then
    { op with internalMessages := op.internalMessages ++ [message] }
  else op

/-- The operation's goroutine takes a message and leaves the rest; an error ends the
operation. -/
def receive (message : WsResponse) (rest : List WsResponse) : RequestOp :=
  if message.hasError then cancel { op with internalMessages := rest }
  else { op with internalMessages := rest }

/-- What an operation asks for and what it was given: only a reply changes it. -/
def identity : String × List UInt8 := (op.method, op.subIdAsBytes)

variable {op} in
theorem subID_eq_of_identity {other : RequestOp} (same : op.identity = other.identity) :
    op.subID = other.subID := by
  have bytes : op.subIdAsBytes = other.subIdAsBytes := congrArg Prod.snd same
  rw [subID, bytes, subID]

variable {op} in
theorem identity_write {message : WsResponse} : (op.write message).identity = op.identity := by
  unfold write
  split_ifs
  · rfl
  · rfl

/-- A change that marks nothing and revives nothing. -/
structure Benign (change : RequestOp → RequestOp) : Prop where
  skips : ∀ op, (change op).skipDoOnClose = op.skipDoOnClose
  completed : ∀ op, op.isCompleted → (change op).isCompleted

theorem benign_write (message : WsResponse) : Benign (·.write message) where
  skips op := by
    unfold write
    split_ifs
    · rfl
    · rfl
  completed op ended := by
    unfold write
    split_ifs
    · exact ended
    · exact ended

theorem benign_cancel : Benign cancel := ⟨fun _ => rfl, fun _ _ => rfl⟩

theorem benign_setSubID (subId : List UInt8) : Benign (·.setSubID subId) :=
  ⟨fun _ => rfl, fun _ ended => ended⟩

theorem benign_cancelContext : Benign cancelContext where
  skips _ := rfl
  completed op ended := by simpa [cancelContext, isCompleted] using ended

theorem benign_receive (message : WsResponse) (rest : List WsResponse) :
    Benign (·.receive message rest) where
  skips op := by
    unfold receive
    split_ifs
    · rfl
    · rfl
  completed op ended := by
    unfold receive
    split_ifs
    · rfl
    · exact ended

variable {op} in
theorem identity_receive {message : WsResponse} {rest : List WsResponse} :
    (op.receive message rest).identity = op.identity := by
  unfold receive
  split_ifs
  · rfl
  · rfl

end RequestOp

structure Registry where
  operation : ℕ → RequestOp := fun _ => {}
  requests : GoSet ℕ := ∅
  subs : GoMap (List UInt8) (GoSet ℕ) := ∅

variable {subId : List UInt8} {before after : Registry}

namespace Registry

variable (registry : Registry)

def modifyOp (id : ℕ) (change : RequestOp → RequestOp) : Registry :=
  { registry with
    operation := Function.update registry.operation id (change (registry.operation id)) }

/-- The operations that get the notifications for an id. -/
def attachedTo (subId : List UInt8) : List ℕ :=
  match registry.subs.lookup subId with
  | none => []
  | some ops => ops.keys

def register (id : ℕ) : Registry := { registry with requests := registry.requests.add id }

def abort (id : ℕ) : Registry :=
  if id ∈ registry.requests then
    modifyOp { registry with requests := registry.requests.remove id } id
      (·.setSkipDoOnClose.cancel)
  else registry

def attach (id : ℕ) : Registry :=
  let subId := (registry.operation id).subID
  { registry with
    subs := registry.subs.insert subId (((registry.subs.lookup subId).getD ∅).add id) }

/-- A reply.  The operation may be cancelled by another goroutine just after its
subscription id was set, which is seen before it is added to the subscription. -/
def rpc (getMethod : String → Option Method) (response : WsResponse) (cancelled : Bool) :
    Registry :=
  if response.id ∈ registry.requests then
    let registry := { registry with requests := registry.requests.remove response.id }
    let op := registry.operation response.id
    if op.isCompleted then registry
    else if ¬response.hasError ∧ isSubscribeMethod getMethod op.method then
      let registry := registry.modifyOp response.id (·.setSubID response.message)
      if cancelled then registry.modifyOp response.id (·.cancel)
      else if (registry.operation response.id).subID ≠ [] then
        (registry.attach response.id).modifyOp response.id (·.write response)
      else registry.modifyOp response.id (·.write response)
    else registry.modifyOp response.id (·.write response)
  else registry

def subscription (response : WsResponse) : Registry :=
  { registry with
    operation := fun id =>
      if id ∈ registry.attachedTo response.subId then (registry.operation id).write response
      else registry.operation id }

/-- The operation is done.  The flag tells the caller to unsubscribe. -/
def finish (id : ℕ) : Registry × Bool :=
  let registry := registry.modifyOp id (·.cancel)
  let op := registry.operation id
  if op.subID = [] then (registry, false)
  else
    match registry.subs.lookup op.subID with
    | none => (registry, false)
    | some ops =>
      if (ops.remove id).keys ≠ [] then
        ({ registry with subs := registry.subs.insert op.subID (ops.remove id) }, false)
      else
        ({ registry with subs := registry.subs.erase op.subID }, !op.skipDoOnClose)

def cancelAll : Registry where
  operation id :=
    if id ∈ registry.requests ∨ ∃ entry ∈ registry.subs.entries, id ∈ entry.2 then
      (registry.operation id).setSkipDoOnClose.cancel
    else registry.operation id
  requests := ∅
  subs := ∅

section Effects

variable {registry} {getMethod : String → Option Method} {response : WsResponse}
  {cancelled : Bool} {id other : ℕ} {change : RequestOp → RequestOp}

@[simp]
theorem requests_modifyOp : (registry.modifyOp id change).requests = registry.requests := rfl

@[simp]
theorem subs_modifyOp : (registry.modifyOp id change).subs = registry.subs := rfl

@[simp]
theorem operation_modifyOp_self :
    (registry.modifyOp id change).operation id = change (registry.operation id) :=
  Function.update_self ..

theorem operation_modifyOp_of_ne (differs : other ≠ id) :
    (registry.modifyOp id change).operation other = registry.operation other :=
  Function.update_of_ne differs ..

theorem view_modifyOp {τ : Type*} {view : RequestOp → τ}
    (keeps : ∀ op, view (change op) = view op) :
    view ((registry.modifyOp id change).operation other) = view (registry.operation other) := by
  by_cases same : other = id
  · rw [same, operation_modifyOp_self, keeps]
  · rw [operation_modifyOp_of_ne same]

theorem identity_modifyOp (keeps : ∀ op, (change op).identity = op.identity) :
    ((registry.modifyOp id change).operation other).identity =
      (registry.operation other).identity :=
  view_modifyOp keeps

/-- No operation is marked or revived between the two states. -/
def Keeps (before after : Registry) : Prop :=
  ∀ id, (after.operation id).skipDoOnClose = (before.operation id).skipDoOnClose ∧
    ((before.operation id).isCompleted → (after.operation id).isCompleted)

theorem Keeps.of_eq (same : after.operation = before.operation) : before.Keeps after := by
  intro id
  rw [same]
  exact ⟨rfl, fun ended => ended⟩

theorem Keeps.runs (keeps : before.Keeps after) (runs : (after.operation id).isCompleted = false) :
    (before.operation id).isCompleted = false := by
  by_contra ended
  rw [(keeps id).2 (by simpa using ended)] at runs
  cases runs

theorem Keeps.modifyOp (keeps : before.Keeps after) (id : ℕ) (benign : RequestOp.Benign change) :
    before.Keeps (after.modifyOp id change) := by
  intro other
  by_cases same : other = id
  · rw [same, operation_modifyOp_self, benign.skips]
    exact ⟨(keeps id).1, fun ended => benign.completed _ ((keeps id).2 ended)⟩
  · rw [operation_modifyOp_of_ne same]
    exact keeps other

variable (registry getMethod response cancelled) in
/-- The reply is the one a subscribe request waits for. -/
def acknowledges : Bool :=
  response.id ∈ registry.requests ∧ ¬(registry.operation response.id).isCompleted ∧
    ¬response.hasError ∧ isSubscribeMethod getMethod (registry.operation response.id).method

variable (registry getMethod response cancelled) in
/-- The id to whose operations a reply adds one. -/
def attaches : Option (List UInt8) :=
  if registry.acknowledges getMethod response ∧ ¬cancelled ∧ resultAsString response.message ≠ []
  then some (resultAsString response.message)
  else none

theorem identity_abort :
    ((registry.abort id).operation other).identity = (registry.operation other).identity := by
  unfold abort
  split_ifs
  · exact identity_modifyOp fun _ => rfl
  · rfl

theorem mem_requests_of_abort (waits : other ∈ (registry.abort id).requests) :
    other ∈ registry.requests := by
  unfold abort at waits
  split_ifs at waits
  · exact ((GoSet.mem_remove _ _ _).mp waits).2
  · exact waits

theorem subs_abort : (registry.abort id).subs = registry.subs := by
  unfold abort
  split_ifs
  · rfl
  · rfl

theorem identity_subscription :
    ((registry.subscription response).operation other).identity =
      (registry.operation other).identity := by
  show RequestOp.identity (if _ then _ else _) = _
  split_ifs
  · exact RequestOp.identity_write
  · rfl

theorem identity_cancelAll :
    (registry.cancelAll.operation other).identity = (registry.operation other).identity := by
  show RequestOp.identity (if _ then _ else _) = _
  split_ifs
  · rfl
  · rfl

theorem mem_requests_rpc :
    other ∈ (registry.rpc getMethod response cancelled).requests ↔
      other ≠ response.id ∧ other ∈ registry.requests := by
  unfold rpc
  by_cases waits : response.id ∈ registry.requests
  · rw [if_pos waits]
    dsimp only
    split_ifs
    all_goals simp [attach]
  · rw [if_neg waits]
    constructor
    · intro listed
      exact ⟨fun same => waits (same ▸ listed), listed⟩
    · exact And.right

variable (registry response) in
/-- After a reply that was waited for, before the operation is added anywhere. -/
def acknowledged : Registry :=
  modifyOp { registry with requests := registry.requests.remove response.id } response.id
    (·.setSubID response.message)

theorem acknowledges_iff :
    registry.acknowledges getMethod response = true ↔
      response.id ∈ registry.requests ∧
        (registry.operation response.id).isCompleted = false ∧ response.hasError = false ∧
        isSubscribeMethod getMethod (registry.operation response.id).method = true := by
  simp [acknowledges]

theorem subs_attach_acknowledged :
    ((registry.acknowledged response).attach response.id).subs =
      registry.subs.insert (resultAsString response.message)
        (((registry.subs.lookup (resultAsString response.message)).getD ∅).add response.id) := by
  have given : ((registry.acknowledged response).operation response.id).subID =
      resultAsString response.message := by
    rw [acknowledged, operation_modifyOp_self]
    rfl
  unfold attach
  dsimp only
  rw [given]
  rfl

theorem rpc_of_acknowledges (acknowledges : registry.acknowledges getMethod response = true) :
    registry.rpc getMethod response cancelled =
      if cancelled then (registry.acknowledged response).modifyOp response.id (·.cancel)
      else if resultAsString response.message ≠ [] then
        ((registry.acknowledged response).attach response.id).modifyOp response.id
          (·.write response)
      else (registry.acknowledged response).modifyOp response.id (·.write response) := by
  obtain ⟨waits, runs, succeeds, subscribes⟩ := acknowledges_iff.mp acknowledges
  have given : ((registry.acknowledged response).operation response.id).subID =
      resultAsString response.message := by
    rw [acknowledged, operation_modifyOp_self]
    rfl
  rw [rpc, if_pos waits]
  dsimp only
  rw [if_neg (by simp [runs]), if_pos ⟨by simp [succeeds], subscribes⟩, ← given]
  rfl

theorem rpc_of_not_acknowledges (ignores : registry.acknowledges getMethod response = false) :
    (registry.rpc getMethod response cancelled).subs = registry.subs ∧
      registry.Keeps (registry.rpc getMethod response cancelled) ∧
      ∀ other, ((registry.rpc getMethod response cancelled).operation other).identity =
        (registry.operation other).identity := by
  have missing : response.id ∈ registry.requests →
      (registry.operation response.id).isCompleted = false →
        ¬(¬response.hasError = true ∧
          isSubscribeMethod getMethod (registry.operation response.id).method = true) := by
    intro waits runs both
    have all := acknowledges_iff.mpr ⟨waits, runs, by simpa using both.1, both.2⟩
    rw [all] at ignores
    cases ignores
  by_cases waits : response.id ∈ registry.requests
  · by_cases ended : (registry.operation response.id).isCompleted = true
    · rw [rpc, if_pos waits]
      dsimp only
      rw [if_pos ended]
      exact ⟨rfl, .of_eq rfl, fun _ => rfl⟩
    · rw [rpc, if_pos waits]
      dsimp only
      rw [if_neg ended, if_neg (missing waits (by simpa using ended))]
      exact ⟨rfl, Keeps.modifyOp (.of_eq rfl) _ (RequestOp.benign_write response),
        fun _ => identity_modifyOp fun _ => RequestOp.identity_write⟩
  · rw [rpc, if_neg waits]
    exact ⟨rfl, .of_eq rfl, fun _ => rfl⟩

theorem identity_rpc :
    ((registry.rpc getMethod response cancelled).operation other).identity =
      if other = response.id ∧ registry.acknowledges getMethod response then
        ((registry.operation response.id).method, response.message)
      else (registry.operation other).identity := by
  by_cases acknowledges : registry.acknowledges getMethod response = true
  · have given : ((registry.acknowledged response).operation other).identity =
        if other = response.id ∧ registry.acknowledges getMethod response then
          ((registry.operation response.id).method, response.message)
        else (registry.operation other).identity := by
      by_cases same : other = response.id
      · rw [if_pos ⟨same, acknowledges⟩, same, acknowledged, operation_modifyOp_self]
        rfl
      · rw [if_neg fun both => same both.1, acknowledged, operation_modifyOp_of_ne same]
    rw [rpc_of_acknowledges acknowledges, ← given]
    split_ifs
    · exact identity_modifyOp fun _ => rfl
    all_goals exact identity_modifyOp fun _ => RequestOp.identity_write
  · rw [if_neg fun both => acknowledges both.2]
    exact (rpc_of_not_acknowledges (by simpa using acknowledges)).2.2 other

theorem method_rpc : ((registry.rpc getMethod response cancelled).operation other).method =
    (registry.operation other).method := by
  have identity : ((registry.rpc getMethod response cancelled).operation other).identity = _ :=
    identity_rpc
  have first := congrArg Prod.fst identity
  split_ifs at first with given
  · rw [given.1] at first ⊢
    exact first
  · exact first

theorem bytes_of_acknowledges (acknowledges : registry.acknowledges getMethod response = true) :
    ((registry.rpc getMethod response cancelled).operation response.id).subIdAsBytes =
      response.message :=
  congrArg Prod.snd (identity_rpc.trans (if_pos ⟨rfl, acknowledges⟩))

theorem attaches_eq_some (here : registry.attaches getMethod response cancelled = some subId) :
    registry.acknowledges getMethod response = true ∧ subId ≠ [] ∧
      resultAsString response.message = subId := by
  unfold attaches at here
  split_ifs at here with meets
  cases here
  exact ⟨meets.1, meets.2.2, rfl⟩

theorem lookup_subs_rpc (subId : List UInt8) :
    (registry.rpc getMethod response cancelled).subs.lookup subId =
      if registry.attaches getMethod response cancelled = some subId then
        some (((registry.subs.lookup subId).getD ∅).add response.id)
      else registry.subs.lookup subId := by
  by_cases acknowledges : registry.acknowledges getMethod response = true
  · rw [rpc_of_acknowledges acknowledges]
    by_cases meets : ¬cancelled = true ∧ resultAsString response.message ≠ []
    · have here : registry.attaches getMethod response cancelled =
          some (resultAsString response.message) := if_pos ⟨acknowledges, meets⟩
      rw [if_neg meets.1, if_pos meets.2, here, subs_modifyOp, subs_attach_acknowledged]
      by_cases same : resultAsString response.message = subId
      · rw [same, if_pos rfl, AList.lookup_insert]
      · rw [if_neg fun equal => same (Option.some.inj equal),
          AList.lookup_insert_ne (Ne.symm same)]
    · have nowhere : registry.attaches getMethod response cancelled = none :=
        if_neg fun all => meets all.2
      rw [nowhere, if_neg (Option.some_ne_none subId).symm]
      split_ifs with raced given
      · rfl
      · exact absurd ⟨raced, given⟩ meets
      · rfl
  · have ignores : registry.acknowledges getMethod response = false := by
      simpa using acknowledges
    have nowhere : registry.attaches getMethod response cancelled = none :=
      if_neg fun all => acknowledges all.1
    rw [(rpc_of_not_acknowledges ignores).1, nowhere, if_neg (Option.some_ne_none subId).symm]

theorem keeps_rpc : registry.Keeps (registry.rpc getMethod response cancelled) := by
  by_cases acknowledges : registry.acknowledges getMethod response = true
  · have given : registry.Keeps (registry.acknowledged response) :=
      Keeps.modifyOp (.of_eq rfl) _ (RequestOp.benign_setSubID response.message)
    rw [rpc_of_acknowledges acknowledges]
    split_ifs
    · exact given.modifyOp _ RequestOp.benign_cancel
    · have attached : registry.Keeps ((registry.acknowledged response).attach response.id) := given
      exact attached.modifyOp _ (RequestOp.benign_write response)
    · exact given.modifyOp _ (RequestOp.benign_write response)
  · exact (rpc_of_not_acknowledges (by simpa using acknowledges)).2.1

theorem keeps_subscription : registry.Keeps (registry.subscription response) := by
  intro other
  show RequestOp.skipDoOnClose (if _ then _ else _) = _ ∧
    (_ → RequestOp.isCompleted (if _ then _ else _) = true)
  split_ifs
  · exact ⟨(RequestOp.benign_write response).skips _, (RequestOp.benign_write response).completed _⟩
  · exact ⟨rfl, fun ended => ended⟩

/-- How finishing an operation leaves the subscriptions. -/
inductive Finished (registry : Registry) (id : ℕ) : Registry × Bool → Prop
  | kept {after : Registry} (subs : after.subs = registry.subs)
      (absent : registry.subs.lookup (registry.operation id).subID = none ∨
        (registry.operation id).subID = []) : Finished registry id (after, false)
  | others {after : Registry} {ops : GoSet ℕ}
      (found : registry.subs.lookup (registry.operation id).subID = some ops)
      (stay : (ops.remove id).keys ≠ [])
      (subs : after.subs =
        registry.subs.insert (registry.operation id).subID (ops.remove id)) :
      Finished registry id (after, false)
  | last {after : Registry} {ops : GoSet ℕ}
      (found : registry.subs.lookup (registry.operation id).subID = some ops)
      (given : (registry.operation id).subID ≠ []) (gone : (ops.remove id).keys = [])
      (subs : after.subs = registry.subs.erase (registry.operation id).subID) :
      Finished registry id (after, !(registry.operation id).skipDoOnClose)

theorem finished_finish : registry.Finished id (registry.finish id) := by
  have same : ((registry.modifyOp id (·.cancel)).operation id).subID =
      (registry.operation id).subID := by
    rw [operation_modifyOp_self]
    rfl
  have skips : ((registry.modifyOp id (·.cancel)).operation id).skipDoOnClose =
      (registry.operation id).skipDoOnClose := by
    rw [operation_modifyOp_self]
    rfl
  unfold finish
  dsimp only
  rw [same, subs_modifyOp, skips]
  split_ifs with empty
  · exact .kept rfl (.inr empty)
  · split
    · rename_i absent
      exact .kept rfl (.inl absent)
    · rename_i ops found
      split_ifs with stay
      · exact .others found stay rfl
      · exact .last found empty (not_not.mp stay) rfl

theorem lookup_finish_of_ne (other : subId ≠ (registry.operation id).subID) :
    (registry.finish id).1.subs.lookup subId = registry.subs.lookup subId := by
  have finished : registry.Finished id (registry.finish id) := finished_finish
  generalize registry.finish id = result at finished
  cases finished with
  | kept subs => rw [subs]
  | others _ _ subs => rw [subs, AList.lookup_insert_ne other]
  | last _ _ _ subs => rw [subs, AList.lookup_erase_ne other]

theorem lookup_finish_of_none (absent : registry.subs.lookup subId = none) :
    (registry.finish id).1.subs.lookup subId = none := by
  by_cases same : subId = (registry.operation id).subID
  · subst same
    have finished : registry.Finished id (registry.finish id) := finished_finish
    generalize registry.finish id = result at finished
    cases finished with
    | kept subs => rwa [subs]
    | others found | last found => cases absent.symm.trans found
  · rwa [lookup_finish_of_ne same]

/-- Whoever is told to unsubscribe closed the last operation of an id, and was not to skip it. -/
theorem last_of_doClose (doClose : (registry.finish id).2 = true) :
    ∃ ops, registry.subs.lookup (registry.operation id).subID = some ops ∧
      (registry.operation id).subID ≠ [] ∧ (ops.remove id).keys = [] ∧
      (registry.finish id).1.subs.lookup (registry.operation id).subID = none ∧
      (registry.operation id).skipDoOnClose = false := by
  have finished : registry.Finished id (registry.finish id) := finished_finish
  generalize registry.finish id = result at finished doClose ⊢
  cases finished with
  | kept subs | others _ _ subs => cases doClose
  | last found given gone subs =>
    refine ⟨_, found, given, gone, ?_, by simpa using doClose⟩
    rw [subs, AList.lookup_erase]

theorem operation_finish :
    (registry.finish id).1.operation = (registry.modifyOp id (·.cancel)).operation := by
  unfold finish
  dsimp only
  split_ifs
  · rfl
  · split
    · rfl
    · split_ifs
      · rfl
      · rfl

theorem keeps_finish : registry.Keeps (registry.finish id).1 := by
  have cancelled : registry.Keeps (registry.modifyOp id (·.cancel)) :=
    Keeps.modifyOp (.of_eq rfl) id RequestOp.benign_cancel
  intro other
  rw [operation_finish]
  exact cancelled other

theorem requests_finish : (registry.finish id).1.requests = registry.requests := by
  unfold finish
  dsimp only
  split_ifs
  · rfl
  · split
    · rfl
    · split_ifs
      · rfl
      · rfl

variable (registry) in
/-- Every subscription has operations, and each operation is listed under its own id only. -/
def Owned : Prop :=
  ∀ subId ops, registry.subs.lookup subId = some ops →
    subId ≠ [] ∧ ops.keys ≠ [] ∧ ∀ id ∈ ops, (registry.operation id).subID = subId

variable {ops : GoSet ℕ}

theorem mem_entry_rpc
    (found : (registry.rpc getMethod response cancelled).subs.lookup subId = some ops)
    (there : id ∈ ops) :
    (id = response.id ∧ registry.attaches getMethod response cancelled = some subId) ∨
      ∃ before, registry.subs.lookup subId = some before ∧ id ∈ before := by
  rw [lookup_subs_rpc] at found
  split_ifs at found with attaches
  · cases found
    rcases (GoSet.mem_add _ _ _).mp there with same | there
    · exact .inl ⟨same, attaches⟩
    · cases before : registry.subs.lookup subId with
      | none =>
        rw [before] at there
        exact absurd there (AList.notMem_empty id)
      | some old =>
        rw [before] at there
        exact .inr ⟨old, rfl, there⟩
  · exact .inr ⟨ops, found, there⟩

/-- A reply lists its operation under the id it gives; the others keep theirs, as they wait
for no reply. -/
theorem Owned.rpc (owns : registry.Owned)
    (apart : ∀ {id subId ops}, registry.subs.lookup subId = some ops → id ∈ ops →
      id ∉ registry.requests) : (registry.rpc getMethod response cancelled).Owned := by
  intro subId ops found
  have given : subId ≠ [] ∧ ops.keys ≠ [] := by
    have lookup := found
    rw [lookup_subs_rpc] at lookup
    split_ifs at lookup with attaches
    · cases lookup
      have listed : response.id ∈ ((registry.subs.lookup subId).getD ∅).add response.id :=
        (GoSet.mem_add _ _ _).mpr (.inl rfl)
      exact ⟨(attaches_eq_some attaches).2.1, List.ne_nil_of_mem (AList.mem_keys.mp listed)⟩
    · exact ⟨(owns subId ops lookup).1, (owns subId ops lookup).2.1⟩
  refine ⟨given.1, given.2, fun id there => ?_⟩
  rcases mem_entry_rpc found there with ⟨rfl, attaches⟩ | ⟨before, was, there⟩
  · obtain ⟨acknowledges, -, message⟩ := attaches_eq_some attaches
    rw [RequestOp.subID, bytes_of_acknowledges acknowledges, message]
  · have untouched : ¬ (id = response.id ∧ registry.acknowledges getMethod response = true) := by
      rintro ⟨rfl, acknowledges⟩
      exact apart was there (acknowledges_iff.mp acknowledges).1
    rw [RequestOp.subID_eq_of_identity (identity_rpc.trans (if_neg untouched))]
    exact (owns subId before was).2.2 id there

/-- What is left of a subscription after finishing, if each operation is listed under its
own id only: operations that were there, and not the finished one. -/
theorem lookup_finish (owns : registry.Owned) {left : GoSet ℕ}
    (found : (registry.finish id).1.subs.lookup subId = some left) :
    ∃ ops, registry.subs.lookup subId = some ops ∧ left.keys ≠ [] ∧
      ∀ other ∈ left, other ∈ ops ∧ other ≠ id := by
  by_cases same : subId = (registry.operation id).subID
  · subst same
    have finished : registry.Finished id (registry.finish id) := finished_finish
    generalize registry.finish id = result at finished found
    cases finished with
    | kept subs absent =>
      rw [subs] at found
      rcases absent with none_there | empty
      · cases none_there.symm.trans found
      · exact absurd empty (owns _ left found).1
    | @others after ops there stay subs =>
      rw [subs, AList.lookup_insert] at found
      cases found
      exact ⟨ops, there, stay, fun other kept => ((GoSet.mem_remove _ _ _).mp kept).symm⟩
    | last there _ _ subs =>
      rw [subs, AList.lookup_erase] at found
      cases found
  · -- a subscription other than the operation's own is as it was
    rw [lookup_finish_of_ne same] at found
    obtain ⟨_, listed, own⟩ := owns subId left found
    refine ⟨left, found, listed, fun other there => ⟨there, ?_⟩⟩
    rintro rfl
    exact same (own other there).symm

theorem mem_of_last (some_listed : ops.keys ≠ [])
    (gone : (ops.remove id).keys = []) : id ∈ ops := by
  obtain ⟨other, listed⟩ := List.exists_mem_of_ne_nil _ some_listed
  by_contra absent
  have kept : other ∈ ops.remove id := by
    rw [GoSet.mem_remove]
    exact ⟨fun same => absent (same ▸ AList.mem_keys.mpr listed), AList.mem_keys.mpr listed⟩
  have none_left := AList.mem_keys.mp kept
  rw [gone] at none_left
  cases none_left

/-- What finishing does to a subscription: it stays, or its last operation was finished and
the caller is told to give it up. -/
theorem lookup_finish_or (owns : registry.Owned) (found : registry.subs.lookup subId = some ops) :
    (∃ left, (registry.finish id).1.subs.lookup subId = some left) ∨
      (id ∈ ops ∧ (registry.finish id).2 = !(registry.operation id).skipDoOnClose) := by
  by_cases same : subId = (registry.operation id).subID
  · subst same
    have finished : registry.Finished id (registry.finish id) := finished_finish
    generalize registry.finish id = result at finished
    cases finished with
    | kept subs => exact .inl ⟨ops, by rw [subs, found]⟩
    | others _ _ subs => exact .inl ⟨_, by rw [subs, AList.lookup_insert]⟩
    | last there given gone subs =>
      cases found.symm.trans there
      exact .inr ⟨mem_of_last (owns _ ops found).2.1 gone, rfl⟩
  · exact .inl ⟨ops, by rw [lookup_finish_of_ne same, found]⟩

theorem completed_finish : ((registry.finish id).1.operation id).isCompleted = true := by
  rw [operation_finish, operation_modifyOp_self]
  rfl

theorem identity_finish :
    ((registry.finish id).1.operation other).identity = (registry.operation other).identity := by
  rw [operation_finish]
  exact identity_modifyOp fun _ => rfl

end Effects

end Registry

end Nodecore.Ws
