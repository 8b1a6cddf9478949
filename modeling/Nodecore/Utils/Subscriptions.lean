/-
# Publishing to subscribers that come and go

A subscription manager keeps its subscribers in a concurrent map.  One lock orders
publications and registrations.  A subscriber registers under it with the last event
as its first, and a publication ranges over the map under it.  Unsubscribing deletes
the name from the map at any time and then closes the channel, under a lock of the
subscription that a publication takes for each send.

A range over the map visits every name that stays in it.  A name that is deleted
meanwhile may be visited or not, which is the only freedom a subscriber sees, and only
in the last event it could get.
-/

import Nodecore.Lib.GoMap
import Nodecore.Lib.Run

namespace Nodecore.Utils

open Lib

universe u

variable {E : Type u}

/-- A subscription, with what it was sent so far.  The two counts are there for the statements
below. -/
structure Subscription (E : Type u) where
  events : List E
  closed : Bool := false
  /-- How many events had been published when it was registered. -/
  seen : ℕ
  /-- Once its name is deleted: how many publications had ended then, and how many had begun. -/
  left : Option (ℕ × ℕ) := none

/-- Who holds the lock of the manager. -/
inductive Holder (E : Type u)
  | free
  /-- A publication that has yet to visit some names.  While it sends it also holds the lock of
  that subscription. -/
  | publishing (event : E) (toVisit : List String) (sending : Option String)
  /-- A subscriber with its channel, not in the map yet. -/
  | subscribing (name : String) (events : List E)

structure SubscriptionManager (E : Type u) where
  holder : Holder E := .free
  lastEvent : Option E := none
  /-- All subscriptions by name, deleted ones included. -/
  subscriptions : GoMap String (Subscription E) := ∅
  /-- The events in the order of their publication. -/
  published : List E := []
  /-- An event was sent on a closed channel. -/
  panicked : Bool := false

namespace SubscriptionManager

inductive Action (E : Type u)
  | publish (event : E)
  | visit (name : String)
  | send
  | endPublish
  | subscribe (name : String)
  | register
  | delete (name : String)
  | close (name : String)

def names (manager : SubscriptionManager E) : List String :=
  manager.subscriptions.keys.filter fun name =>
    (manager.subscriptions.lookup name).any (·.left.isNone)

def set (manager : SubscriptionManager E) (name : String) (subscription : Subscription E) :
    SubscriptionManager E :=
  { manager with subscriptions := manager.subscriptions.insert name subscription }

def ended (manager : SubscriptionManager E) : ℕ :=
  match manager.holder with
  | .publishing _ _ _ => manager.published.length - 1
  | _ => manager.published.length

def isSending (manager : SubscriptionManager E) (name : String) : Bool :=
  match manager.holder with
  | .publishing _ _ sending => sending = some name
  | _ => false

/-- One goroutine goes on.  An action that has to wait for a lock, or that no goroutine is about
to take, changes nothing; a name is used once. -/
def step (manager : SubscriptionManager E) : Action E → SubscriptionManager E
  | .publish event =>
    match manager.holder with
    | .free =>
      { manager with
        holder := .publishing event manager.names none
        lastEvent := some event
        published := manager.published ++ [event] }
    | _ => manager
  | .visit name =>
    match manager.holder, manager.subscriptions.lookup name with
    | .publishing event toVisit none, some subscription =>
      if name ∈ toVisit then
        if subscription.closed then
          { manager with holder := .publishing event (toVisit.erase name) none }
        else { manager with holder := .publishing event toVisit (some name) }
      else manager
    | _, _ => manager
  | .send =>
    match manager.holder with
    | .publishing event toVisit (some name) =>
      match manager.subscriptions.lookup name with
      | some subscription =>
        if subscription.closed then { manager with panicked := true }
        else
          { manager.set name { subscription with events := subscription.events ++ [event] } with
            holder := .publishing event (toVisit.erase name) none }
      | none => manager
    | _ => manager
  | .endPublish =>
    match manager.holder with
    | .publishing _ toVisit none =>
      -- the range has come to all names that are still there
      if ∀ name ∈ toVisit, name ∉ manager.names then { manager with holder := .free } else manager
    | _ => manager
  | .subscribe name =>
    match manager.holder with
    | .free =>
      if name ∈ manager.subscriptions then manager
      else { manager with holder := .subscribing name manager.lastEvent.toList }
    | _ => manager
  | .register =>
    match manager.holder with
    | .subscribing name events =>
      -- the lock is given back right after
      { manager.set name { events := events, seen := manager.published.length } with
        holder := .free }
    | _ => manager
  | .delete name =>
    match manager.subscriptions.lookup name with
    | some subscription =>
      if subscription.left.isNone then
        manager.set name
          { subscription with left := some (manager.ended, manager.published.length) }
      else manager
    | none => manager
  | .close name =>
    match manager.subscriptions.lookup name with
    | some subscription =>
      if subscription.left.isSome ∧ manager.isSending name = false then
        manager.set name { subscription with closed := true }
      else manager
    | none => manager

/-- The event of a publication that gets the lock. -/
def publishes (manager : SubscriptionManager E) : Action E → List E
  | .publish event =>
    match manager.holder with
    | .free => [event]
    | _ => []
  | _ => []

theorem published_step (manager : SubscriptionManager E) (action : Action E) :
    (manager.step action).published = manager.published ++ manager.publishes action := by
  cases action with
  | publish event =>
    rw [step, publishes]
    cases manager.holder <;> simp
  | visit | send | endPublish | subscribe | register | delete | close =>
    refine Eq.trans ?_ (List.append_nil _).symm
    simp only [step]
    repeat' split
    all_goals rfl

/-- The last event before a registration, and the first ones after it. -/
def received (published : List E) (seen count : ℕ) : List E :=
  (published.take seen).getLast?.toList ++ (published.drop seen).take count

variable {published : List E}

theorem received_append {seen count : ℕ} (within : seen + count ≤ published.length) (event : E) :
    received (published ++ [event]) seen count = received published seen count := by
  have before : (published ++ [event]).take seen = published.take seen :=
    List.take_append_of_le_length (by omega)
  have after : (published ++ [event]).drop seen = published.drop seen ++ [event] :=
    List.drop_append_of_le_length (by omega)
  have first : (published.drop seen ++ [event]).take count = (published.drop seen).take count :=
    List.take_append_of_le_length (by rw [List.length_drop]; omega)
  rw [received, before, after, first, received]

theorem received_succ {seen count : ℕ} {event : E} (last : published.getLast? = some event)
    (next : seen + count + 1 = published.length) :
    received published seen (count + 1) = received published seen count ++ [event] := by
  have found : (published.drop seen)[count]? = some event := by
    rw [List.getElem?_drop, ← last, List.getLast?_eq_getElem?]
    congr 1
    omega
  rw [received, List.take_add_one, found, ← List.append_assoc, received]
  rfl

/-- The names that the publication in progress has yet to visit. -/
def toVisit (manager : SubscriptionManager E) : List String :=
  match manager.holder with
  | .publishing _ toVisit _ => toVisit
  | _ => []

/-- What a subscription was sent, by the number of events after its registration: all that were
published, but for the one in progress if it is still to be visited, or all up to its end. -/
def Tracks (published : List E) (owed : Prop) (subscription : Subscription E) : Prop :=
  ∃ count, subscription.events = received published subscription.seen count ∧
    (owed → subscription.seen + count + 1 = published.length ∧
      subscription.left.getD (published.length - 1, published.length) =
        (published.length - 1, published.length)) ∧
    (¬ owed →
      (subscription.left.getD (published.length, published.length)).1 ≤
          subscription.seen + count ∧
        subscription.seen + count ≤
          (subscription.left.getD (published.length, published.length)).2 ∧
        (subscription.left.getD (published.length, published.length)).2 ≤ published.length)

variable {subscription : Subscription E}

theorem Tracks.drop {owed : Prop} (tracks : Tracks published owed subscription)
    (gone : owed → subscription.left.isSome) : Tracks published False subscription := by
  obtain ⟨count, events, pending, settled⟩ := tracks
  refine ⟨count, events, False.elim, fun _ => ?_⟩
  by_cases now : owed
  · obtain ⟨next, bounds⟩ := pending now
    obtain ⟨left, isLeft⟩ := Option.isSome_iff_exists.mp (gone now)
    rw [isLeft, Option.getD_some] at bounds
    rw [isLeft, Option.getD_some, bounds]
    dsimp only
    omega
  · exact settled now

/-- The holder of the lock is where the state says it is. -/
def Holding (manager : SubscriptionManager E) : Prop :=
  match manager.holder with
  | .publishing event toVisit sending =>
    manager.published.getLast? = some event ∧ toVisit.Nodup ∧
      ∀ name, sending = some name → name ∈ toVisit ∧
        ∃ subscription, manager.subscriptions.lookup name = some subscription ∧
          subscription.closed = false
  | .subscribing name events =>
    events = manager.lastEvent.toList ∧ manager.subscriptions.lookup name = none
  | _ => True

structure Sound (manager : SubscriptionManager E) : Prop where
  last : manager.lastEvent = manager.published.getLast?
  tracks : ∀ name subscription, manager.subscriptions.lookup name = some subscription →
    Tracks manager.published (name ∈ manager.toVisit) subscription
  closed : ∀ name subscription, manager.subscriptions.lookup name = some subscription →
    subscription.closed = true → subscription.left.isSome
  holding : manager.Holding
  calm : manager.panicked = false

variable {manager : SubscriptionManager E}

theorem lookup_set {name other : String} {changed found : Subscription E}
    (held : (manager.set name changed).subscriptions.lookup other = some found) :
    (other = name ∧ found = changed) ∨
      (other ≠ name ∧ manager.subscriptions.lookup other = some found) := by
  by_cases own : other = name
  · subst own
    rw [set, AList.lookup_insert] at held
    exact .inl ⟨rfl, (Option.some.inj held).symm⟩
  · rw [set, AList.lookup_insert_ne own] at held
    exact .inr ⟨own, held⟩

theorem left_isSome_of_notMem_names {name : String}
    (held : manager.subscriptions.lookup name = some subscription) (gone : name ∉ manager.names) :
    subscription.left.isSome := by
  have listed : name ∈ manager.subscriptions.keys :=
    AList.lookup_isSome.mp (by rw [held]; rfl)
  simpa [names, List.mem_filter, listed, held, Option.isSome_iff_ne_none] using gone

theorem left_eq_none_of_mem_names {name : String}
    (held : manager.subscriptions.lookup name = some subscription) (listed : name ∈ manager.names) :
    subscription.left = none := by
  have found := (List.mem_filter.mp listed).2
  simpa [held] using found

variable (manager) in
theorem ended_le : manager.ended ≤ manager.published.length := by
  unfold ended
  split
  · exact Nat.sub_le _ _
  · exact le_rfl

theorem ended_of_mem_toVisit {name : String} (listed : name ∈ manager.toVisit) :
    manager.ended = manager.published.length - 1 := by
  unfold ended
  unfold toVisit at listed
  split at listed
  · rfl
  · cases listed

variable {changed : Subscription E}

theorem Sound.set (sound : manager.Sound) {name : String}
    (tracks : Tracks manager.published (name ∈ manager.toVisit) changed)
    (closed : changed.closed = true → changed.left.isSome ∧ manager.isSending name = false)
    (known : name ∈ manager.subscriptions) : (manager.set name changed).Sound := by
  refine ⟨sound.last, fun other found held => ?_, fun other found held isClosed => ?_, ?_,
    sound.calm⟩
  · rcases lookup_set held with ⟨rfl, rfl⟩ | ⟨-, held⟩
    · exact tracks
    · exact sound.tracks other found held
  · rcases lookup_set held with ⟨rfl, rfl⟩ | ⟨-, held⟩
    · exact (closed isClosed).1
    · exact sound.closed other found held isClosed
  · have holding := sound.holding
    unfold Holding at holding ⊢
    simp only [SubscriptionManager.set]
    cases holder : manager.holder with
    | free => trivial
    | subscribing other events =>
      simp only [holder] at holding ⊢
      refine ⟨holding.1, ?_⟩
      rw [AList.lookup_insert_ne]
      · exact holding.2
      · rintro rfl
        exact AList.lookup_eq_none.mp holding.2 known
    | publishing event toVisit sending =>
      simp only [holder] at holding ⊢
      refine ⟨holding.1, holding.2.1, fun other isSent => ?_⟩
      obtain ⟨listed, found, held, isOpen⟩ := holding.2.2 other isSent
      refine ⟨listed, ?_⟩
      by_cases own : other = name
      · subst own
        refine ⟨changed, AList.lookup_insert _, ?_⟩
        by_contra isClosed
        have idle := (closed (Bool.of_not_eq_false isClosed)).2
        simp [isSending, holder, isSent] at idle
      · exact ⟨found, by rw [AList.lookup_insert_ne own, held], isOpen⟩

theorem Sound.hold (sound : manager.Sound) {holder : Holder E}
    (same : toVisit { manager with holder := holder } = manager.toVisit)
    (holding : Holding { manager with holder := holder }) :
    Sound { manager with holder := holder } := by
  refine ⟨sound.last, fun name subscription held => ?_, sound.closed, holding, sound.calm⟩
  rw [same]
  exact sound.tracks name subscription held

theorem Sound.visited (sound : manager.Sound) {event : E} {toVisit : List String}
    {sending : Option String} (holder : manager.holder = .publishing event toVisit sending)
    {name : String} {subscriptions : GoMap String (Subscription E)}
    (others : ∀ other found, subscriptions.lookup other = some found →
      (other = name ∧ found = changed) ∨
        (other ≠ name ∧ manager.subscriptions.lookup other = some found))
    (tracks : Tracks manager.published False changed)
    (closed : changed.closed = true → changed.left.isSome) :
    Sound { manager with
      subscriptions := subscriptions
      holder := .publishing event (toVisit.erase name) none } := by
  have holding := sound.holding
  simp only [Holding, holder] at holding
  refine ⟨sound.last, fun other found held => ?_, fun other found held isClosed => ?_, ?_,
    sound.calm⟩
  · change Tracks manager.published (other ∈ toVisit.erase name) found
    rcases others other found held with ⟨rfl, rfl⟩ | ⟨apart, held⟩
    · have gone : other ∉ toVisit.erase other := holding.2.1.not_mem_erase
      rwa [eq_false gone]
    · have same := sound.tracks other found held
      rw [SubscriptionManager.toVisit, holder] at same
      rwa [List.mem_erase_of_ne apart]
  · rcases others other found held with ⟨rfl, rfl⟩ | ⟨-, held⟩
    · exact closed isClosed
    · exact sound.closed other found held isClosed
  · exact ⟨holding.1, holding.2.1.erase name, fun _ none => absurd none.symm (Option.some_ne_none _)⟩

section Steps

variable (sound : manager.Sound) (name : String)

include sound

theorem Sound.publish (event : E) : (manager.step (.publish event)).Sound := by
  simp only [step]
  split
  case h_2 => exact sound
  case h_1 holder =>
    refine ⟨List.getLast?_concat.symm, fun name subscription held => ?_, sound.closed,
      ⟨List.getLast?_concat, manager.subscriptions.keys_nodup.filter _,
        fun _ none => absurd none.symm (Option.some_ne_none _)⟩, sound.calm⟩
    obtain ⟨count, events, -, settled⟩ := sound.tracks name subscription held
    have bounds := settled (by simp [toVisit, holder])
    have within : subscription.seen + count ≤ manager.published.length :=
      bounds.2.1.trans bounds.2.2
    refine ⟨count, events.trans (received_append within event).symm, fun listed => ?_,
      fun gone => ?_⟩
    · have inMap := left_eq_none_of_mem_names held listed
      rw [inMap, Option.getD_none] at bounds
      rw [inMap, Option.getD_none, List.length_append, List.length_singleton]
      exact ⟨by omega, rfl⟩
    · obtain ⟨left, isLeft⟩ := Option.isSome_iff_exists.mp (left_isSome_of_notMem_names held gone)
      rw [isLeft, Option.getD_some] at bounds ⊢
      rw [List.length_append, List.length_singleton]
      exact ⟨bounds.1, bounds.2.1, by omega⟩

theorem Sound.visit : (manager.step (.visit name)).Sound := by
  simp only [step]
  split
  case h_2 => exact sound
  case h_1 event toVisit subscription holder held =>
    split_ifs with listed closed
    · have gone := sound.closed name subscription held closed
      refine sound.visited holder (fun other found isFound => ?_)
        ((sound.tracks name subscription held).drop fun _ => gone) fun _ => gone
      by_cases own : other = name
      · subst own
        exact .inl ⟨rfl, Option.some.inj (isFound.symm.trans held)⟩
      · exact .inr ⟨own, isFound⟩
    · have holding := sound.holding
      simp only [Holding, holder] at holding
      refine sound.hold (by simp [SubscriptionManager.toVisit, holder])
        ⟨holding.1, holding.2.1, fun other isSent => ?_⟩
      obtain rfl := Option.some.inj isSent
      exact ⟨listed, subscription, held, Bool.of_not_eq_true closed⟩
    · exact sound

theorem Sound.send : (manager.step .send).Sound := by
  simp only [step]
  split
  case h_2 => exact sound
  case h_1 event toVisit name holder =>
    have holding := sound.holding
    simp only [Holding, holder] at holding
    obtain ⟨last, -, sending⟩ := holding
    obtain ⟨listed, subscription, held, isOpen⟩ := sending name rfl
    simp only [held, isOpen]
    rw [if_neg Bool.false_ne_true]
    refine sound.visited holder (fun _ _ => lookup_set) ?_ fun isClosed => ?_
    · obtain ⟨count, events, pending, -⟩ := sound.tracks name subscription held
      rw [SubscriptionManager.toVisit, holder] at pending
      obtain ⟨next, bounds⟩ := pending listed
      refine ⟨count + 1, ?_, False.elim, fun _ => ?_⟩
      · rw [received_succ last next, ← events]
      · cases left : subscription.left with
        | none => simp only [Option.getD_none]; omega
        | some ends =>
          rw [left, Option.getD_some] at bounds
          simp only [Option.getD_some, bounds]
          omega
    · cases isClosed

theorem Sound.endPublish : (manager.step .endPublish).Sound := by
  simp only [step]
  split
  case h_2 => exact sound
  case h_1 event toVisit holder =>
    split_ifs with gone
    · refine ⟨sound.last, fun name subscription held => ?_, sound.closed, trivial, sound.calm⟩
      have settled := (sound.tracks name subscription held).drop fun listed => by
        rw [SubscriptionManager.toVisit, holder] at listed
        exact left_isSome_of_notMem_names held (gone name listed)
      rwa [← eq_false List.not_mem_nil] at settled
    · exact sound

theorem Sound.subscribe : (manager.step (.subscribe name)).Sound := by
  simp only [step]
  split
  case h_2 => exact sound
  case h_1 holder =>
    split_ifs with known
    · exact sound
    · exact sound.hold (by simp [SubscriptionManager.toVisit, holder])
        ⟨rfl, AList.lookup_eq_none.mpr known⟩

theorem Sound.register : (manager.step .register).Sound := by
  simp only [step]
  split
  case h_2 => exact sound
  case h_1 name events holder =>
    have holding := sound.holding
    simp only [Holding, holder] at holding
    refine ⟨sound.last, fun other found held => ?_, fun other found held isClosed => ?_, trivial,
      sound.calm⟩
    · rcases lookup_set held with ⟨rfl, rfl⟩ | ⟨-, held⟩
      · refine ⟨0, ?_, fun listed => absurd listed List.not_mem_nil, fun _ => ?_⟩
        · rw [received, List.take_zero, List.append_nil]
          change events = (manager.published.take manager.published.length).getLast?.toList
          rw [List.take_length, ← sound.last, holding.1]
        · exact ⟨le_rfl, le_rfl, le_rfl⟩
      · have same := sound.tracks other found held
        rwa [SubscriptionManager.toVisit, holder] at same
    · rcases lookup_set held with ⟨rfl, rfl⟩ | ⟨-, held⟩
      · cases isClosed
      · exact sound.closed other found held isClosed

theorem Sound.delete : (manager.step (.delete name)).Sound := by
  simp only [step]
  split
  case h_2 => exact sound
  case h_1 subscription held =>
    split_ifs with inMap
    · rw [Option.isNone_iff_eq_none] at inMap
      have known : name ∈ manager.subscriptions := AList.lookup_isSome.mp (by rw [held]; rfl)
      refine sound.set ?_ (fun isClosed => ?_) known
      · obtain ⟨count, events, pending, settled⟩ := sound.tracks name subscription held
        refine ⟨count, events, fun listed => ⟨(pending listed).1, ?_⟩, fun passed => ?_⟩
        · rw [Option.getD_some, ended_of_mem_toVisit listed]
        · have all := settled passed
          rw [inMap, Option.getD_none] at all
          exact ⟨manager.ended_le.trans all.1, all.2.1, le_rfl⟩
      · have left := sound.closed name subscription held isClosed
        rw [inMap] at left
        cases left
    · exact sound

theorem Sound.close : (manager.step (.close name)).Sound := by
  simp only [step]
  split
  case h_2 => exact sound
  case h_1 subscription held =>
    split_ifs with unlocked
    · have known : name ∈ manager.subscriptions := AList.lookup_isSome.mp (by rw [held]; rfl)
      exact sound.set (sound.tracks name subscription held) (fun _ => unlocked) known
    · exact sound

end Steps

theorem sound_step (manager : SubscriptionManager E) (action : Action E) (sound : manager.Sound) :
    (manager.step action).Sound := by
  cases action with
  | publish event => exact sound.publish event
  | visit name => exact sound.visit name
  | send => exact sound.send
  | endPublish => exact sound.endPublish
  | subscribe name => exact sound.subscribe name
  | register => exact sound.register
  | delete name => exact sound.delete name
  | close name => exact sound.close name

/-- After any interleaving, the published events are those of the publications that got the lock, in
that order, and a subscriber was sent the last event before its registration, if there
was one, and then the first events after it in their order.  While it is in the map these are all
events, except that the one being published may be missing.  Once its name is deleted they go up to
the deletion, where a publication that was under way may or may not have reached it.  Nothing was
sent on a closed channel. -/
theorem subscriber_receives (actions : List (Action E)) :
    let manager := run step ({} : SubscriptionManager E) actions
    manager.published = collect step publishes {} actions ∧ manager.panicked = false ∧
      ∀ name subscription, manager.subscriptions.lookup name = some subscription →
        ∃ count, subscription.events = received manager.published subscription.seen count ∧
          (subscription.left.getD (manager.ended, manager.published.length)).1 ≤
            subscription.seen + count ∧
          subscription.seen + count ≤
            (subscription.left.getD (manager.ended, manager.published.length)).2 := by
  have initial : ({} : SubscriptionManager E).Sound := by
    refine ⟨rfl, fun name subscription held => ?_, fun name subscription held _ => ?_, trivial, rfl⟩
    · cases held
    · cases held
  have sound := run_induction sound_step initial actions
  refine ⟨run_eq_append_collect published published_step _ actions, sound.calm,
    fun name subscription held => ?_⟩
  obtain ⟨count, events, pending, settled⟩ := sound.tracks name subscription held
  refine ⟨count, events, ?_⟩
  have most := ended_le (run step ({} : SubscriptionManager E) actions)
  by_cases owed : name ∈ (run step ({} : SubscriptionManager E) actions).toVisit
  · obtain ⟨next, bounds⟩ := pending owed
    rw [ended_of_mem_toVisit owed, bounds]
    dsimp only
    omega
  · have bounds := settled owed
    cases left : subscription.left with
    | none =>
      rw [left, Option.getD_none] at bounds
      exact ⟨most.trans bounds.1, bounds.2.1⟩
    | some ends =>
      rw [left, Option.getD_some] at bounds
      exact ⟨bounds.1, bounds.2.1⟩

/-- A subscriber gets the event before it as a replay and the one after it, and has left when the
last one is published. -/
theorem subscriber_receives_replay :
    let actions : List (Action ℕ) :=
      [.publish 1, .endPublish, .publish 2, .endPublish, .subscribe "a", .register, .publish 3,
        .visit "a", .send, .endPublish, .delete "a", .publish 4, .endPublish, .close "a"]
    let manager := run step ({} : SubscriptionManager ℕ) actions
    manager.published = [1, 2, 3, 4] ∧ ∃ subscription,
      manager.subscriptions.lookup "a" = some subscription ∧ subscription.events = [2, 3] ∧
        ∃ count, subscription.events = received [1, 2, 3, 4] subscription.seen count := by
  intro actions manager
  obtain ⟨published, -, receives⟩ := subscriber_receives actions
  have all : manager.published = [1, 2, 3, 4] := published.trans (by decide +kernel)
  have events : (manager.subscriptions.lookup "a").map Subscription.events = some [2, 3] := by
    decide +kernel
  obtain ⟨subscription, held, sent⟩ := Option.map_eq_some_iff.mp events
  obtain ⟨count, received, -⟩ := receives "a" subscription held
  exact ⟨all, subscription, held, sent, count, all ▸ received⟩

end SubscriptionManager

end Nodecore.Utils
