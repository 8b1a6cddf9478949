/-
# The cache processor

The processor hands a response to every policy, and each policy that keeps it writes
it to its connector under the key of the request.  A request is looked up with all
policies at once: the first object that arrives is the answer, and a lookup that takes
too long is a miss.

The connectors are what is left of earlier requests.  Here they start empty, and a
run stores responses, with connectors that may fail to write them, and loses objects in
any order, so that whatever a lookup finds was kept by a policy before.
-/

import Nodecore.Caches.CachePolicy
import Nodecore.Lib.Run

namespace Nodecore.Caches

open Lib Protocol

/-- What the connectors hold, by connector and key. -/
abbrev Contents := String → String → Option (List UInt8)

variable {contents : Contents} {request : RequestHolder} {object response : List UInt8}
  {env : Environment} {chain : Chain} {write : String → Except String Unit} {key id : String}

namespace Contents

def connector (contents : Contents) (write : Except String Unit) (id : String) :
    CacheConnector where
  store _ _ _ := write
  receive key := (contents id key).elim (.error "object not found") .ok

def put (contents : Contents) (id key : String) (object : Option (List UInt8)) : Contents :=
  fun other otherKey => if other = id ∧ otherKey = key then object else contents other otherKey

theorem put_eq_some {other otherKey : String} {object : Option (List UInt8)} {held : List UInt8}
    (isHeld : contents.put id key object other otherKey = some held) :
    (other = id ∧ otherKey = key ∧ object = some held) ∨ contents other otherKey = some held := by
  rw [put] at isHeld
  split_ifs at isHeld with here
  · exact .inl ⟨here.1, here.2, isHeld⟩
  · exact .inr isHeld

end Contents

/-- The policies, each with the connector it uses. -/
structure CacheProcessor where
  policies : List (CachePolicy × String)

/-- A response is offered to the policies, with what the write to each connector comes to, or an
object is lost: it expires or is evicted. -/
inductive CacheEvent
  | store (env : Environment) (chain : Chain) (request : RequestHolder) (response : List UInt8)
      (write : String → Except String Unit)
  | lose (connector key : String)

namespace CacheProcessor

def offer (env : Environment) (chain : Chain) (request : RequestHolder) (response : List UInt8)
    (write : String → Except String Unit) (contents : Contents) (policy : CachePolicy × String) :
    Contents :=
  match policy.1.store env (contents.connector (write policy.2) policy.2) chain request response with
  | .ok true =>
    contents.put policy.2 (CachePolicy.getCacheKey chain request.requestHash) (some response)
  | _ => contents

variable (cache : CacheProcessor)

def store (env : Environment) (chain : Chain) (request : RequestHolder) (response : List UInt8)
    (write : String → Except String Unit) (contents : Contents) : Contents :=
  cache.policies.foldl (offer env chain request response write) contents

/-- The lookup.  The policy whose object arrives first is given, unless the time is up
or all of them miss. -/
def receive (env : Environment) (chain : Chain) (request : RequestHolder) (contents : Contents)
    (first : Option ℕ) : Option (List UInt8) :=
  (first.bind (cache.policies[·]?)).bind fun policy =>
    (policy.1.receive env (contents.connector (.ok ()) policy.2) chain request).toOption.join

def step (contents : Contents) : CacheEvent → Contents
  | .store env chain request response write => cache.store env chain request response write contents
  | .lose connector key => contents.put connector key none

/-- A policy kept the object under the key when it was offered to it. -/
def Kept (key : String) (object : List UInt8) (event : CacheEvent) : Prop :=
  ∃ env chain request write, event = .store env chain request object write ∧
    CachePolicy.getCacheKey chain request.requestHash = key ∧
    ∃ policy ∈ cache.policies, ∃ connector,
      policy.1.store env connector chain request object = .ok true

variable {cache}

theorem offer_eq_some {policy : CachePolicy × String}
    (held : offer env chain request response write contents policy id key = some object) :
    (∃ connector, policy.1.store env connector chain request response = .ok true) ∧
        CachePolicy.getCacheKey chain request.requestHash = key ∧ response = object ∨
      contents id key = some object := by
  rw [offer] at held
  cases stored : policy.1.store env (contents.connector (write policy.2) policy.2) chain request
      response with
  | error panic =>
    rw [stored] at held
    exact .inr held
  | ok kept =>
    rw [stored] at held
    cases kept with
    | false => exact .inr held
    | true =>
      rcases Contents.put_eq_some held with ⟨_, isKey, isObject⟩ | before
      · exact .inl ⟨⟨_, stored⟩, isKey.symm, Option.some.inj isObject⟩
      · exact .inr before

theorem store_eq_some
    (held : cache.store env chain request response write contents id key = some object) :
    cache.Kept key object (.store env chain request response write) ∨
      contents id key = some object := by
  -- the policies one after another, each offered what the ones before it left
  have offered (policies : List (CachePolicy × String)) (included : policies ⊆ cache.policies)
      (before : Contents)
      (isHeld : policies.foldl (offer env chain request response write) before id key =
        some object) :
      cache.Kept key object (.store env chain request response write) ∨
        before id key = some object := by
    induction policies generalizing before with
    | nil => exact .inr isHeld
    | cons policy policies ih =>
      rcases ih (List.subset_of_cons_subset included) _ isHeld with kept | after
      · exact .inl kept
      · rcases offer_eq_some after with ⟨⟨connector, stored⟩, isKey, rfl⟩ | earlier
        · exact .inl ⟨env, chain, request, write, rfl, isKey, policy, included List.mem_cons_self,
            connector, stored⟩
        · exact .inr earlier
  exact offered cache.policies (List.Subset.refl _) contents held

theorem exists_kept_of_run {events : List CacheEvent}
    (held : run cache.step contents events id key = some object) :
    (∃ event ∈ events, cache.Kept key object event) ∨ contents id key = some object := by
  induction events generalizing contents with
  | nil => exact .inr held
  | cons event events ih =>
    rcases ih held with ⟨later, member, kept⟩ | after
    · exact .inl ⟨later, List.mem_cons_of_mem _ member, kept⟩
    · cases event with
      | store env chain request response write =>
        apply Or.imp_left _ (store_eq_some after)
        exact fun kept => ⟨_, List.mem_cons_self, kept⟩
      | lose connector lost =>
        rcases Contents.put_eq_some after with ⟨_, _, none⟩ | before
        · cases none
        · exact .inr before

theorem held_of_receive {policy : CachePolicy} {connector : CacheConnector}
    (received : policy.receive env connector chain request = .ok (some object)) :
    connector.receive (CachePolicy.getCacheKey chain request.requestHash) = .ok object := by
  unfold CachePolicy.receive at received
  split at received
  · cases received
  · cases received
  · split at received
    · cases received
    · rename_i kept held
      have isKept := Except.ok.inj received
      split_ifs at isKept
      rw [held, Option.some.inj isKept]

theorem exists_held_of_receive {first : Option ℕ}
    (received : cache.receive env chain request contents first = some object) :
    ∃ id, contents id (CachePolicy.getCacheKey chain request.requestHash) = some object := by
  obtain ⟨policy, _, answered⟩ := Option.bind_eq_some_iff.mp received
  refine ⟨policy.2, ?_⟩
  cases isReceived : policy.1.receive env (contents.connector (.ok ()) policy.2) chain request with
  | error panic =>
    rw [isReceived] at answered
    cases answered
  | ok found =>
    rw [isReceived] at answered
    have isFound : found = some object := answered
    rw [isFound] at isReceived
    have held := held_of_receive isReceived
    dsimp only [Contents.connector] at held
    cases isHeld : contents policy.2 (CachePolicy.getCacheKey chain request.requestHash) with
    | none =>
      rw [isHeld] at held
      cases held
    | some kept =>
      rw [isHeld] at held
      exact congrArg some (Except.ok.inj held)

theorem not_kept_of_empty {policy : CachePolicy} (refuses : policy.cacheEmpty = false)
    (isEmpty : response ∈ CachePolicy.emptyResponses) (env : Environment)
    (connector : CacheConnector) (chain : Chain) (request : RequestHolder) :
    policy.store env connector chain request response ≠ .ok true := by
  intro stored
  unfold CachePolicy.store at stored
  split at stored
  · cases stored
  · cases stored
  · simp [refuses, isEmpty] at stored

/-- After any run, a lookup finds only what a policy kept for the same request, and no empty
result unless a policy caches those. -/
theorem received_was_kept (events : List CacheEvent) (env : Environment) (first : Option ℕ)
    (received : cache.receive env chain request (run cache.step (fun _ _ => none) events) first =
      some object) :
    (∃ event ∈ events,
      cache.Kept (CachePolicy.getCacheKey chain request.requestHash) object event) ∧
    ((∀ policy ∈ cache.policies, policy.1.cacheEmpty = false) →
      object ∉ CachePolicy.emptyResponses) := by
  obtain ⟨id, held⟩ := exists_held_of_receive received
  have kept := (exists_kept_of_run held).resolve_right (by simp)
  refine ⟨kept, fun refuses isEmpty => ?_⟩
  obtain ⟨_, _, _, _, _, _, _, _, policy, member, _, stored⟩ := kept
  exact not_kept_of_empty (refuses policy member) isEmpty _ _ _ _ stored

open CachePolicy in
theorem received_was_kept_call :
    ∃ event ∈ [.store sampleEnvironment polygon (callWith [.string "0x10"]) [49] fun _ => .ok ()],
      Kept ⟨[(finalizedPolicy, "memory")]⟩
        (getCacheKey polygon (callWith [.string "0x10"]).requestHash) [49] event :=
  (received_was_kept _ sampleEnvironment (some 0) (by decide)).1

end CacheProcessor

end Nodecore.Caches
