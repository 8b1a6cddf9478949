/-
# The registry's subscriptions and their gauge

What the registry's commands do to its metric.  An entry of the subscriptions remembers
the type of the operation it was opened for, and a gauge counts the entries of each type.

A run lets the commands come in any order, with any replies, and lets operations end in
between.  Beside the registry it keeps what happened: which operations were registered,
which ones lost their place to an abort or a lost connection, how often an entry was
opened under each id, and the entries that were asked to be given up, each with the
number of its opening.
-/

import Nodecore.Lib.Run
import Nodecore.Ws.RequestRegistry

namespace Nodecore.Ws

open Lib Specs

/-- Commands, and what other goroutines do to an operation.  A reply says whether its
operation ends while it is handled. -/
inductive RegistryEvent
  | register (id : ℕ)
  | abort (id : ℕ)
  | rpc (response : WsResponse) (cancelled : Bool)
  | subscription (response : WsResponse)
  | finish (id : ℕ)
  | cancelAll
  | cancelContext (id : ℕ)
  | cancel (id : ℕ)
  | receive (id : ℕ)
  deriving DecidableEq, Repr

def RegistryEvent.registers : RegistryEvent → Option ℕ
  | .register id => some id
  | _ => none

namespace Registry

variable (registry : Registry)

/-- The operation's goroutine takes its next message. -/
def receive (id : ℕ) : Registry :=
  match (registry.operation id).internalMessages with
  | [] => registry
  | message :: rest => registry.modifyOp id (·.receive message rest)

/-- The flag is set for a finished operation whose subscription has to be given up. -/
def handle (getMethod : String → Option Method) : RegistryEvent → Registry × Bool
  | .register id => (registry.register id, false)
  | .abort id => (registry.abort id, false)
  | .rpc response cancelled => (registry.rpc getMethod response cancelled, false)
  | .subscription response => (registry.subscription response, false)
  | .finish id => registry.finish id
  | .cancelAll => (registry.cancelAll, false)
  | .cancelContext id => (registry.modifyOp id (·.cancelContext), false)
  | .cancel id => (registry.modifyOp id (·.cancel), false)
  | .receive id => (registry.receive id, false)

/-- The operations that an event takes out of the registry without their doing. -/
def removes : RegistryEvent → List ℕ
  | .abort id => if id ∈ registry.requests then [id] else []
  | .cancelAll => registry.requests.keys ++ registry.subs.entries.flatMap (·.2.keys)
  | _ => []

end Registry

/-- The registry with the type of each entry and the gauge of this upstream, by type. -/
structure MeteredRegistry extends Registry where
  subTypes : GoMap (List UInt8) String := ∅
  connections : String → ℤ := fun _ => 0

namespace MeteredRegistry

variable (registry : MeteredRegistry)

def typeOf (subId : List UInt8) : String := (registry.subTypes.lookup subId).getD ""

def count (connections : String → ℤ) (subType : String) (change : ℤ) : String → ℤ :=
  Function.update connections subType (connections subType + change)

/-- A reply that adds its operation to an id without an entry opens one. -/
def rpc (getMethod : String → Option Method) (response : WsResponse) (cancelled : Bool) :
    MeteredRegistry :=
  let after := registry.toRegistry.rpc getMethod response cancelled
  let subType := (registry.operation response.id).subType
  match registry.attaches getMethod response cancelled with
  | some subId =>
    if subId ∈ registry.subs then { registry with toRegistry := after }
    else
      { toRegistry := after
        subTypes := registry.subTypes.insert subId subType
        connections := count registry.connections subType 1 }
  | none => { registry with toRegistry := after }

/-- The entry of an operation goes with its last operation. -/
def finish (id : ℕ) : MeteredRegistry × Bool :=
  let result := registry.toRegistry.finish id
  let subId := (registry.operation id).subID
  if subId ∈ registry.subs ∧ subId ∉ result.1.subs then
    ({ toRegistry := result.1
       subTypes := registry.subTypes.erase subId
       connections := count registry.connections (registry.typeOf subId) (-1) }, result.2)
  else ({ registry with toRegistry := result.1 }, result.2)

def cancelAll : MeteredRegistry where
  toRegistry := registry.toRegistry.cancelAll
  connections := registry.subs.keys.foldl
    (fun connections subId => count connections (registry.typeOf subId) (-1)) registry.connections

def handle (getMethod : String → Option Method) : RegistryEvent → MeteredRegistry × Bool
  | .rpc response cancelled => (registry.rpc getMethod response cancelled, false)
  | .finish id => registry.finish id
  | .cancelAll => (registry.cancelAll, false)
  | event => ({ registry with toRegistry := (registry.toRegistry.handle getMethod event).1 }, false)

theorem toRegistry_handle (getMethod : String → Option Method) (event : RegistryEvent) :
    ((registry.handle getMethod event).1.toRegistry, (registry.handle getMethod event).2) =
      registry.toRegistry.handle getMethod event := by
  cases event with
  | rpc response cancelled =>
    simp only [handle, rpc, Registry.handle]
    split
    · split <;> rfl
    · rfl
  | finish id =>
    simp only [handle, finish, Registry.handle]
    split <;> rfl
  | _ => rfl

def entriesOf (subType : String) : ℕ :=
  registry.subs.keys.countP fun subId => registry.typeOf subId = subType

/-- The gauge shows the number of entries of each type. -/
def Gauged : Prop := ∀ subType, registry.connections subType = registry.entriesOf subType

end MeteredRegistry

variable {subId : List UInt8} {id : ℕ} {after : Registry}

namespace Registry

variable {registry : Registry}

/-- The operation waits for its reply or belongs to a subscription. -/
def Holds (registry : Registry) (id : ℕ) : Prop :=
  id ∈ registry.requests ∨ ∃ subId ops, registry.subs.lookup subId = some ops ∧ id ∈ ops

/-- Entries have operations of their own id; no operation with an entry waits for a reply; and
all that the registry holds was registered. -/
structure Sound (registry : Registry) (registered : List ℕ) : Prop where
  owned : registry.Owned
  apart : ∀ {id subId ops}, registry.subs.lookup subId = some ops → id ∈ ops →
    id ∉ registry.requests
  known : ∀ {id}, registry.Holds id → id ∈ registered

variable {registered : List ℕ}

section

variable (sound : registry.Sound registered)
  (identity : ∀ id, (after.operation id).identity = (registry.operation id).identity)
  (requests : ∀ id ∈ after.requests, id ∈ registry.requests)
include sound identity requests

theorem Sound.shrink (subs : ∀ subId left, after.subs.lookup subId = some left →
      ∃ ops, registry.subs.lookup subId = some ops ∧ left.keys ≠ [] ∧ ∀ id ∈ left, id ∈ ops) :
    after.Sound registered where
  owned := by
    intro subId left found
    obtain ⟨ops, before, listed, from_ops⟩ := subs subId left found
    obtain ⟨given, _, own⟩ := sound.owned subId ops before
    refine ⟨given, listed, fun id there => ?_⟩
    rw [RequestOp.subID_eq_of_identity (identity id)]
    exact own id (from_ops id there)
  apart := by
    intro id subId left found there waits
    obtain ⟨ops, before, _, from_ops⟩ := subs subId left found
    exact sound.apart before (from_ops id there) (requests id waits)
  known := by
    rintro id (waits | ⟨subId, left, found, there⟩)
    · exact sound.known (.inl (requests id waits))
    · obtain ⟨ops, before, _, from_ops⟩ := subs subId left found
      exact sound.known (.inr ⟨subId, ops, before, from_ops id there⟩)

theorem Sound.same_subs (subs : after.subs = registry.subs) : after.Sound registered := by
  apply sound.shrink identity requests
  intro subId left found
  rw [subs] at found
  exact ⟨left, found, (sound.owned subId left found).2.1, fun _ there => there⟩

end

theorem Sound.register (sound : registry.Sound registered) (fresh : id ∉ registered) :
    (registry.register id).Sound (registered ++ [id]) where
  owned := sound.owned
  apart := by
    intro other subId ops found there waits
    rcases (GoSet.mem_add _ _ _).mp waits with rfl | waits
    · exact fresh (sound.known (.inr ⟨subId, ops, found, there⟩))
    · exact sound.apart found there waits
  known := by
    rintro other (waits | held)
    · rcases (GoSet.mem_add _ _ _).mp waits with rfl | waits
      · simp
      · exact List.mem_append_left _ (sound.known (.inl waits))
    · exact List.mem_append_left _ (sound.known (.inr held))

section Reply

variable {getMethod : String → Option Method} {response : WsResponse} {cancelled : Bool}

theorem mem_requests_of_attaches
    (attaches : registry.attaches getMethod response cancelled = some subId) :
    response.id ∈ registry.requests :=
  (acknowledges_iff.mp (attaches_eq_some attaches).1).1

theorem Sound.rpc (sound : registry.Sound registered) :
    (registry.rpc getMethod response cancelled).Sound registered where
  owned := sound.owned.rpc sound.apart
  apart := by
    intro id subId ops found there waits
    obtain ⟨other, waits⟩ := mem_requests_rpc.mp waits
    rcases mem_entry_rpc found there with ⟨same, -⟩ | ⟨before, was, there⟩
    · exact other same
    · exact sound.apart was there waits
  known := by
    rintro id (waits | ⟨subId, ops, found, there⟩)
    · exact sound.known (.inl (mem_requests_rpc.mp waits).2)
    · rcases mem_entry_rpc found there with ⟨rfl, attaches⟩ | ⟨before, was, there⟩
      · exact sound.known (.inl (mem_requests_of_attaches attaches))
      · exact sound.known (.inr ⟨subId, before, was, there⟩)

end Reply

variable (getMethod : String → Option Method)

section

variable (sound : registry.Sound registered)
include sound

theorem Sound.finish (id : ℕ) : (registry.finish id).1.Sound registered := by
  apply sound.shrink (fun _ => identity_finish)
  · intro other waits
    rwa [requests_finish] at waits
  · intro subId left found
    obtain ⟨ops, was, listed, from_ops⟩ := lookup_finish sound.owned found
    exact ⟨ops, was, listed, fun other there => (from_ops other there).1⟩

theorem Sound.abort (id : ℕ) : (registry.abort id).Sound registered :=
  sound.same_subs (fun _ => identity_abort) (fun _ => mem_requests_of_abort) subs_abort

theorem Sound.cancelAll : registry.cancelAll.Sound registered := by
  apply sound.shrink (fun _ => identity_cancelAll)
  · intro id waits
    exact absurd waits (AList.notMem_empty id)
  · intro subId left found
    cases found

theorem Sound.modifyOp (id : ℕ)
    {change : RequestOp → RequestOp} (keeps : ∀ op, (change op).identity = op.identity) :
    (registry.modifyOp id change).Sound registered :=
  sound.same_subs (fun _ => identity_modifyOp keeps) (fun _ waits => waits) rfl

theorem Sound.receive (id : ℕ) : (registry.receive id).Sound registered := by
  unfold Registry.receive
  split
  · exact sound
  · exact sound.modifyOp id fun _ => RequestOp.identity_receive

/-- Every event keeps the registry in order, if it registers no operation a second time. -/
theorem Sound.handle {event : RegistryEvent}
    (fresh : ∀ id, event.registers = some id → id ∉ registered) :
    (registry.handle getMethod event).1.Sound (registered ++ event.registers.toList) := by
  have kept {after : Registry} (sound : after.Sound registered)
      (other : event.registers = none) : after.Sound (registered ++ event.registers.toList) := by
    rwa [other, Option.toList_none, List.append_nil]
  cases event with
  | register id => exact sound.register (fresh id rfl)
  | abort id => exact kept (sound.abort id) rfl
  | rpc response cancelled => exact kept sound.rpc rfl
  | subscription response =>
    exact kept (sound.same_subs (fun _ => identity_subscription) (fun _ waits => waits) rfl) rfl
  | finish id => exact kept (sound.finish id) rfl
  | cancelAll => exact kept sound.cancelAll rfl
  | cancelContext id | cancel id => exact kept (sound.modifyOp id fun _ => rfl) rfl
  | receive id => exact kept (sound.receive id) rfl

end

theorem keeps_receive (id : ℕ) : registry.Keeps (registry.receive id) := by
  unfold Registry.receive
  split
  · exact .of_eq rfl
  · exact Keeps.modifyOp (.of_eq rfl) id (RequestOp.benign_receive _ _)

/-- Nothing takes the mark off an operation that is not to unsubscribe, and what an event
removes gets it. -/
theorem skips_handle (event : RegistryEvent)
    (skips : (registry.operation id).skipDoOnClose = true ∨ id ∈ registry.removes event) :
    ((registry.handle getMethod event).1.operation id).skipDoOnClose = true := by
  have kept {after : Registry} (keeps : registry.Keeps after)
      (nothing : registry.removes event = []) : (after.operation id).skipDoOnClose = true := by
    rw [(keeps id).1]
    simpa [nothing] using skips
  cases event with
  | register other => exact kept (.of_eq rfl) rfl
  | rpc response cancelled => exact kept keeps_rpc rfl
  | subscription response => exact kept keeps_subscription rfl
  | finish other => exact kept keeps_finish rfl
  | cancelContext other =>
    exact kept (Keeps.modifyOp (.of_eq rfl) other RequestOp.benign_cancelContext) rfl
  | cancel other => exact kept (Keeps.modifyOp (.of_eq rfl) other RequestOp.benign_cancel) rfl
  | receive other => exact kept (keeps_receive other) rfl
  | abort other =>
    rw [removes] at skips
    simp only [handle, Registry.abort]
    by_cases waits : other ∈ registry.requests
    · rw [if_pos waits] at skips ⊢
      by_cases same : id = other
      · rw [same, operation_modifyOp_self]
        rfl
      · rw [operation_modifyOp_of_ne same]
        exact skips.resolve_right (by simpa using same)
    · rw [if_neg waits] at skips ⊢
      exact skips.resolve_right List.not_mem_nil
  | cancelAll =>
    change RequestOp.skipDoOnClose (if _ then _ else _) = true
    split_ifs with held
    · rfl
    · apply skips.resolve_right
      rw [removes, List.mem_append, List.mem_flatMap]
      exact held

end Registry

variable {m other : GoMap (List UInt8) (GoSet ℕ)}

theorem keys_perm_of_mem (same : ∀ subId, subId ∈ other ↔ subId ∈ m) : other.keys.Perm m.keys :=
  (List.perm_ext_iff_of_nodup other.keys_nodup m.keys_nodup).mpr same

theorem keys_perm_cons_of_mem {opened : List UInt8} (fresh : opened ∉ m)
    (more : ∀ subId, subId ∈ other ↔ subId = opened ∨ subId ∈ m) :
    other.keys.Perm (opened :: m.keys) := by
  apply (List.perm_ext_iff_of_nodup other.keys_nodup
    (List.nodup_cons.mpr ⟨fresh, m.keys_nodup⟩)).mpr
  intro subId
  rw [List.mem_cons]
  exact more subId

namespace MeteredRegistry

variable {registry : MeteredRegistry}

theorem Gauged.same (gauged : registry.Gauged)
    (same : ∀ subId, subId ∈ after.subs ↔ subId ∈ registry.subs) :
    Gauged { registry with toRegistry := after } := by
  intro subType
  have counted : entriesOf { registry with toRegistry := after } subType =
      registry.entriesOf subType := (keys_perm_of_mem same).countP_eq _
  rw [counted]
  exact gauged subType

theorem count_apply (connections : String → ℤ) (subType label : String) (change : ℤ) :
    count connections subType change label =
      connections label + if subType = label then change else 0 := by
  rw [count]
  by_cases same : subType = label
  · rw [same, Function.update_self, if_pos rfl]
  · rw [Function.update_of_ne (Ne.symm same), if_neg same, Int.add_zero]

theorem countP_opened {types before : List UInt8 → String} {subIds rest : List (List UInt8)}
    {opened : List UInt8} (perm : subIds.Perm (opened :: rest))
    (same : ∀ subId ∈ rest, types subId = before subId) (label : String) :
    subIds.countP (fun subId => types subId = label) =
      rest.countP (fun subId => before subId = label) + if types opened = label then 1 else 0 := by
  have others : rest.countP (fun subId => types subId = label) =
      rest.countP fun subId => before subId = label := by
    apply List.countP_congr
    intro subId listed
    rw [same subId listed]
  rw [perm.countP_eq, List.countP_cons, others]
  simp

theorem Gauged.opened (gauged : registry.Gauged) {after : MeteredRegistry}
    (fresh : subId ∉ registry.subs)
    (more : ∀ other, other ∈ after.subs ↔ other = subId ∨ other ∈ registry.subs)
    (types : ∀ other ∈ registry.subs.keys, after.typeOf other = registry.typeOf other)
    (gauge : after.connections = count registry.connections (after.typeOf subId) 1) :
    after.Gauged := by
  intro label
  have counted : after.entriesOf label =
      registry.entriesOf label + if after.typeOf subId = label then 1 else 0 :=
    countP_opened (keys_perm_cons_of_mem fresh more) types label
  rw [counted, gauge, count_apply, gauged label]
  split_ifs <;> omega

theorem Gauged.closed (gauged : registry.Gauged) {after : MeteredRegistry}
    (there : subId ∈ registry.subs) (gone : subId ∉ after.subs)
    (less : ∀ other, other ≠ subId → (other ∈ after.subs ↔ other ∈ registry.subs))
    (types : ∀ other ∈ after.subs.keys, registry.typeOf other = after.typeOf other)
    (gauge : after.connections = count registry.connections (registry.typeOf subId) (-1)) :
    after.Gauged := by
  intro label
  have more : ∀ other, other ∈ registry.subs ↔ other = subId ∨ other ∈ after.subs := by
    intro other
    by_cases same : other = subId
    · simp [same, there]
    · simp [same, less other same]
  have counted : registry.entriesOf label =
      after.entriesOf label + if registry.typeOf subId = label then 1 else 0 :=
    countP_opened (keys_perm_cons_of_mem gone more) types label
  rw [gauge, count_apply, gauged label, counted]
  split_ifs <;> omega

theorem mem_subs_rpc {getMethod : String → Option Method} {response : WsResponse} {cancelled : Bool} :
    subId ∈ (registry.toRegistry.rpc getMethod response cancelled).subs ↔
      registry.attaches getMethod response cancelled = some subId ∨ subId ∈ registry.subs := by
  rw [← AList.lookup_isSome, Registry.lookup_subs_rpc, ← AList.lookup_isSome]
  split_ifs with attaches
  · simp [attaches]
  · simp [attaches]

theorem Gauged.rpc (gauged : registry.Gauged) (getMethod : String → Option Method)
    (response : WsResponse) (cancelled : Bool) :
    (registry.rpc getMethod response cancelled).Gauged := by
  rw [MeteredRegistry.rpc]
  split
  · rename_i subId attaches
    split_ifs with there
    · apply gauged.same
      intro other
      rw [mem_subs_rpc, attaches]
      constructor
      · rintro (same | there)
        · rwa [← Option.some.inj same]
        · exact there
      · exact .inr
    · have self : ((registry.subTypes.insert subId
          (registry.operation response.id).subType).lookup subId).getD "" =
          (registry.operation response.id).subType := by simp
      apply gauged.opened there
      · intro other
        rw [mem_subs_rpc, attaches]
        simp [eq_comm]
      · intro other listed
        rw [typeOf, AList.lookup_insert_ne (ne_of_mem_of_not_mem listed there)]
        rfl
      · rw [typeOf, self]
  · rename_i nowhere
    apply gauged.same
    intro other
    rw [mem_subs_rpc, nowhere]
    simp

theorem mem_subs_finish (other : subId ≠ (registry.operation id).subID) :
    subId ∈ (registry.toRegistry.finish id).1.subs ↔ subId ∈ registry.subs := by
  rw [← AList.lookup_isSome, Registry.lookup_finish_of_ne other, AList.lookup_isSome]

theorem Gauged.finish (gauged : registry.Gauged) (id : ℕ) : (registry.finish id).1.Gauged := by
  rw [MeteredRegistry.finish]
  dsimp only
  split_ifs with gone
  · apply gauged.closed gone.1 gone.2
    · intro other apart
      exact mem_subs_finish apart
    · intro other listed
      rw [typeOf, typeOf, AList.lookup_erase_ne (ne_of_mem_of_not_mem listed gone.2)]
    · rfl
  · apply gauged.same
    intro other
    by_cases same : other = (registry.operation id).subID
    · subst same
      by_cases there : (registry.operation id).subID ∈ registry.subs
      · simpa [there] using gone
      · -- finishing opens no entry
        have absent := AList.lookup_eq_none.mpr there
        have still : (registry.toRegistry.finish id).1.subs.lookup _ = none :=
          Registry.lookup_finish_of_none absent
        simp [there, AList.lookup_eq_none.mp still]
    · exact mem_subs_finish same

theorem foldl_count (types : List UInt8 → String) (subIds : List (List UInt8))
    (connections : String → ℤ) (label : String) :
    subIds.foldl (fun connections subId => count connections (types subId) (-1)) connections label =
      connections label - subIds.countP fun subId => types subId = label := by
  induction subIds generalizing connections with
  | nil => simp
  | cons subId subIds ih =>
    rw [List.foldl_cons, ih, count_apply, List.countP_cons]
    simp only [decide_eq_true_eq]
    split_ifs <;> omega

theorem Gauged.cancelAll (gauged : registry.Gauged) : registry.cancelAll.Gauged := by
  intro label
  have cleared : registry.cancelAll.entriesOf label = 0 := rfl
  have left : registry.cancelAll.connections label =
      registry.connections label - registry.entriesOf label :=
    foldl_count registry.typeOf registry.subs.keys registry.connections label
  rw [left, cleared, gauged label]
  simp

theorem Gauged.handle (gauged : registry.Gauged) (getMethod : String → Option Method)
    (event : RegistryEvent) : (registry.handle getMethod event).1.Gauged := by
  cases event with
  | rpc response cancelled => exact gauged.rpc getMethod response cancelled
  | finish id => exact gauged.finish id
  | cancelAll => exact gauged.cancelAll
  | abort id =>
    apply gauged.same
    intro subId
    rw [Registry.handle, Registry.subs_abort]
  | receive id =>
    apply gauged.same
    intro subId
    simp only [Registry.handle, Registry.receive]
    split <;> rfl
  | register id | subscription response | cancelContext id | cancel id =>
    exact gauged.same fun _ => Iff.rfl

end MeteredRegistry

/-- A registry and what happened to it. -/
structure RegistryRun where
  registry : MeteredRegistry := {}
  registered : List ℕ := []
  removed : List ℕ := []
  opened : List UInt8 → ℕ := fun _ => 0
  unsubscribed : List (List UInt8 × ℕ) := []

namespace RegistryRun

/-- The entry that an event asks to give up, with the number of its opening. -/
def givesUp (getMethod : String → Option Method) (state : RegistryRun) (event : RegistryEvent) :
    Option (List UInt8 × ℕ) :=
  match event with
  | .finish id =>
    let subId := (state.registry.operation id).subID
    if (state.registry.handle getMethod event).2 then some (subId, state.opened subId) else none
  | _ => none

def step (getMethod : String → Option Method) (state : RegistryRun) (event : RegistryEvent) :
    RegistryRun :=
  let after := (state.registry.handle getMethod event).1
  { registry := after
    registered := state.registered ++ event.registers.toList
    removed := state.removed ++ state.registry.removes event
    opened := fun subId =>
      if subId ∉ state.registry.subs ∧ subId ∈ after.subs then state.opened subId + 1
      else state.opened subId
    unsubscribed := state.unsubscribed ++ (state.givesUp getMethod event).toList }

variable {getMethod : String → Option Method} {state : RegistryRun} {event : RegistryEvent}

theorem toRegistry_step (getMethod : String → Option Method) (state : RegistryRun)
    (event : RegistryEvent) : (state.step getMethod event).registry.toRegistry =
      (state.registry.toRegistry.handle getMethod event).1 :=
  congrArg Prod.fst (state.registry.toRegistry_handle getMethod event)

theorem givesUp_eq_some {given : List UInt8 × ℕ}
    (givesUp : state.givesUp getMethod event = some given) :
    given.2 = state.opened given.1 ∧ given.1 ∈ state.registry.subs ∧
      given.1 ∉ (state.step getMethod event).registry.subs := by
  unfold RegistryRun.givesUp at givesUp
  split at givesUp
  · rename_i id
    split_ifs at givesUp with doClose
    cases givesUp
    have same := state.registry.toRegistry_handle getMethod (.finish id)
    rw [toRegistry_step]
    obtain ⟨ops, found, -, -, gone, -⟩ := Registry.last_of_doClose
      ((congrArg Prod.snd same).symm.trans doClose)
    refine ⟨rfl, ?_, AList.lookup_eq_none.mp gone⟩
    exact AList.lookup_isSome.mp (Option.isSome_iff_exists.mpr ⟨ops, found⟩)
  · cases givesUp

theorem opened_le_step (subId : List UInt8) :
    state.opened subId ≤ (state.step getMethod event).opened subId := by
  simp only [step]
  split_ifs <;> omega

/-- No opening of an entry was given up twice, and one that is open has not been given up. -/
structure Spent (state : RegistryRun) : Prop where
  once : state.unsubscribed.Nodup
  past : ∀ given ∈ state.unsubscribed, given.2 ≤ state.opened given.1 ∧
    (given.1 ∈ state.registry.subs → given.2 < state.opened given.1)

theorem Spent.step (spent : state.Spent) (getMethod : String → Option Method)
    (event : RegistryEvent) : (state.step getMethod event).Spent where
  once := by
    apply List.Nodup.append spent.once (Option.toList_nodup _)
    intro given listed again
    obtain ⟨number, there, _⟩ := givesUp_eq_some (Option.mem_toList.mp again)
    have earlier := (spent.past given listed).2 there
    omega
  past := by
    intro given listed
    rcases List.mem_append.mp listed with listed | now
    · obtain ⟨bounded, closed⟩ := spent.past given listed
      have risen : state.opened given.1 ≤ (state.step getMethod event).opened given.1 :=
        opened_le_step given.1
      refine ⟨by omega, fun there => ?_⟩
      by_cases before : given.1 ∈ state.registry.subs
      · have earlier := closed before
        omega
      · have reopened : (state.step getMethod event).opened given.1 = state.opened given.1 + 1 :=
          if_pos ⟨before, there⟩
        omega
    · obtain ⟨number, _, gone⟩ := givesUp_eq_some (Option.mem_toList.mp now)
      have risen : state.opened given.1 ≤ (state.step getMethod event).opened given.1 :=
        opened_le_step given.1
      exact ⟨by omega, fun there => absurd there gone⟩

/-- Operations that lost their place are marked. -/
def Marked (state : RegistryRun) : Prop :=
  ∀ id ∈ state.removed, (state.registry.operation id).skipDoOnClose = true

theorem Marked.step (marked : state.Marked) (getMethod : String → Option Method)
    (event : RegistryEvent) : (state.step getMethod event).Marked := by
  intro id listed
  rw [toRegistry_step]
  apply Registry.skips_handle
  rcases List.mem_append.mp listed with earlier | now
  · exact .inl (marked id earlier)
  · exact .inr now

def Gauged (state : RegistryRun) : Prop := state.registry.Gauged

theorem Gauged.step (gauged : state.Gauged) (getMethod : String → Option Method)
    (event : RegistryEvent) : (state.step getMethod event).Gauged :=
  MeteredRegistry.Gauged.handle gauged getMethod event

theorem sound_run (getMethod : String → Option Method) {state : RegistryRun}
    (sound : state.registry.Sound state.registered) {events : List RegistryEvent}
    (fresh : (state.registered ++ events.filterMap RegistryEvent.registers).Nodup) :
    (run (step getMethod) state events).registry.Sound
      (run (step getMethod) state events).registered := by
  induction events generalizing state with
  | nil => exact sound
  | cons event events ih =>
    have split : (event :: events).filterMap RegistryEvent.registers =
        event.registers.toList ++ events.filterMap RegistryEvent.registers := by
      rw [List.filterMap_cons]
      cases event.registers <;> rfl
    rw [split, ← List.append_assoc] at fresh
    apply ih
    · rw [toRegistry_step]
      apply sound.handle
      intro id registers known
      have disjoint := (List.nodup_append.mp (List.nodup_append.mp fresh).1).2.2
      exact disjoint id known id (by simp [registers]) rfl
    · exact fresh

/-- The registry before its first command, whatever the operations to come. -/
def start (operation : ℕ → RequestOp) : RegistryRun where
  registry := { operation := operation }

theorem sound_start (operation : ℕ → RequestOp) :
    (start operation).registry.Sound (start operation).registered where
  owned := by
    intro subId ops found
    cases found
  apart := by
    intro id subId ops found
    cases found
  known := by
    rintro id (waits | ⟨subId, ops, found, _⟩)
    · exact absurd waits (AList.notMem_empty id)
    · cases found

/-- Whatever commands are handled, with each operation registered once: every entry of the
subscriptions has an operation, the gauge shows the number of entries, an operation is in one
entry at most and then does not wait for a reply, no opening of an entry is asked to be given up
twice, and no operation that lost its place to an abort or a lost connection is told to
unsubscribe. -/
theorem entries_in_order (getMethod : String → Option Method) (operation : ℕ → RequestOp)
    (events : List RegistryEvent) (fresh : (events.filterMap RegistryEvent.registers).Nodup) :
    let state := run (step getMethod) (start operation) events
    (∀ subId ops, state.registry.subs.lookup subId = some ops → ops.keys ≠ []) ∧
      (∀ subType, state.registry.connections subType = state.registry.entriesOf subType) ∧
      (∀ subId ops id, state.registry.subs.lookup subId = some ops → id ∈ ops →
        id ∉ state.registry.requests ∧
          ∀ other others, state.registry.subs.lookup other = some others → id ∈ others →
            other = subId) ∧
      state.unsubscribed.Nodup ∧
      EachStep (step getMethod)
        (fun state event => ∀ id, event = .finish id →
          (state.registry.handle getMethod event).2 = true → id ∉ state.removed)
        (start operation) events := by
  have sound := sound_run getMethod (sound_start operation) fresh
  have gauged : (run (step getMethod) (start operation) events).Gauged :=
    run_induction (fun _ event gauged => gauged.step getMethod event) (fun _ => rfl) events
  have spent : (run (step getMethod) (start operation) events).Spent :=
    run_induction (fun _ event spent => spent.step getMethod event)
      ⟨List.nodup_nil, fun _ listed => absurd listed List.not_mem_nil⟩ events
  refine ⟨fun subId ops found => (sound.owned subId ops found).2.1, gauged, ?_, spent.once, ?_⟩
  · intro subId ops id found there
    refine ⟨sound.apart found there, fun other others found' there' => ?_⟩
    have own := (sound.owned subId ops found).2.2 id there
    have own' := (sound.owned other others found').2.2 id there'
    exact own'.symm.trans own
  · have marked : (start operation).Marked := fun _ listed => absurd listed List.not_mem_nil
    have preserved : ∀ state event, Marked state → Marked (step getMethod state event) :=
      fun _ event marked => marked.step getMethod event
    refine eachStep_of_forall ?_ preserved marked events
    rintro state event marked id rfl doClose removed
    have same := state.registry.toRegistry_handle getMethod (.finish id)
    obtain ⟨_, _, _, _, _, unmarked⟩ := Registry.last_of_doClose
      ((congrArg Prod.snd same).symm.trans doClose)
    rw [marked id removed] at unmarked
    cases unmarked

def subscribed (id : ℕ) : RegistryEvent :=
  .rpc { type := .jsonRpc, id := id, message := [0x22, 0x37, 0x22] } false

/-- Two operations get one subscription, and are finished one after the other. -/
def sharing : List RegistryEvent :=
  [.register 0, .register 1, subscribed 0, subscribed 1, .finish 0, .finish 1]

def headsOnly : RegistryRun := start fun _ => { method := "eth_subscribe", subType := "newHeads" }

/-- The second of two operations is told to unsubscribe. -/
theorem entries_in_order_of_sharing :
    (run (step subscribeOnly) headsOnly sharing).unsubscribed = [([0x37], 1)] ∧
      (run (step subscribeOnly) headsOnly sharing).registry.connections "newHeads" =
        (run (step subscribeOnly) headsOnly sharing).registry.entriesOf "newHeads" := by
  constructor
  · decide +kernel
  · exact (entries_in_order subscribeOnly _ sharing (by decide)).2.1 "newHeads"

end RegistryRun

end Nodecore.Ws
