/-
# The key service

Keys come from several sources: each owner's keys are polled, and each local key
is announced once.  A poll is compared with the owner's last list and becomes
updates and removals; the events of all sources are merged and applied to one
map of keys by value.  Events say nothing about their source, so that a removal
by one owner also removes what another source still lists.

For a value that only one source ever lists, the service finds the key exactly
as long as the source's latest list has it.
-/

import Nodecore.Lib.FanIn
import Nodecore.Lib.GoMap
import Nodecore.Lib.Run

namespace Nodecore.KeyManagement

open Lib

variable {κ Key Owner : Type*} [DecidableEq κ]

inductive KeyEvent (Key : Type*)
  | updatedKeyEvent (newKey : Key)
  | removedKeyEvent (removedKey : Key)

def KeyEvent.key : KeyEvent Key → Key
  | updatedKeyEvent newKey => newKey
  | removedKeyEvent removedKey => removedKey

variable {listed : List Key} {value : κ}

section Events

variable (getKeyValue : Key → κ)

/-- What the service does with an event. -/
def watchKey (keys : GoMap κ Key) : KeyEvent Key → GoMap κ Key
  | .updatedKeyEvent newKey => keys.insert (getKeyValue newKey) newKey
  | .removedKeyEvent removedKey => keys.erase (getKeyValue removedKey)

def actOn (value : κ) (held : Option Key) : KeyEvent Key → Option Key
  | .updatedKeyEvent newKey => if getKeyValue newKey = value then some newKey else held
  | .removedKeyEvent removedKey => if getKeyValue removedKey = value then none else held

theorem lookup_watchKey (value : κ) (keys : GoMap κ Key) (event : KeyEvent Key) :
    (watchKey getKeyValue keys event).lookup value =
      actOn getKeyValue value (keys.lookup value) event := by
  cases event with
  | updatedKeyEvent newKey =>
    rw [watchKey, actOn]
    split
    · rename_i same
      rw [← same, AList.lookup_insert]
    · rename_i distinct
      rw [AList.lookup_insert_ne (Ne.symm distinct)]
  | removedKeyEvent removedKey =>
    rw [watchKey, actOn]
    split
    · rename_i same
      rw [← same, AList.lookup_erase]
    · rename_i distinct
      rw [AList.lookup_erase_ne (Ne.symm distinct)]

theorem actOn_of_ne {event : KeyEvent Key} (distinct : getKeyValue event.key ≠ value)
    (held : Option Key) : actOn getKeyValue value held event = held := by
  cases event with
  | updatedKeyEvent newKey | removedKeyEvent removedKey => exact if_neg distinct

end Events

section Lists

variable {getKeyValue : Key → κ}

def lastListed (getKeyValue : Key → κ) (value : κ) (listed : List Key) : Option Key :=
  (listed.filter fun key => getKeyValue key = value).getLast?

theorem lastListed_cons (value : κ) (key : Key) (listed : List Key) :
    lastListed getKeyValue value (key :: listed) =
      (lastListed getKeyValue value listed).or
        (if getKeyValue key = value then some key else none) := by
  rw [lastListed, lastListed, List.filter_cons]
  split
  · rename_i same
    rw [if_pos (by simpa using same), List.getLast?_cons]
    cases (listed.filter fun key => getKeyValue key = value).getLast? <;> rfl
  · rename_i distinct
    rw [if_neg (by simpa using distinct), Option.or_none]

theorem mem_of_lastListed {key : Key} (isLast : lastListed getKeyValue value listed = some key) :
    key ∈ listed ∧ getKeyValue key = value := by
  have kept := List.mem_of_getLast? isLast
  simpa using List.mem_filter.mp kept

theorem isSome_lastListed :
    (lastListed getKeyValue value listed).isSome ↔ ∃ key ∈ listed, getKeyValue key = value := by
  rw [lastListed, Option.isSome_iff_ne_none, ne_eq, List.getLast?_eq_none_iff,
    List.filter_eq_nil_iff]
  simp

theorem lastListed_eq_none (unlisted : ∀ key ∈ listed, getKeyValue key ≠ value) :
    lastListed getKeyValue value listed = none := by
  rw [← Option.not_isSome_iff_eq_none, isSome_lastListed]
  rintro ⟨key, isListed, same⟩
  exact unlisted key isListed same

end Lists

/-- The owner's keys while a poll is compared with them, and the events so far. -/
structure Poll (κ Key : Type*) where
  currentKeys : GoMap κ Key
  events : List (KeyEvent Key)

/-- A key the owner had before: keys that are not in the polled list are removed. -/
def dropKey (newKeys : List κ) (poll : Poll κ Key) (entry : Entry κ Key) : Poll κ Key :=
  if entry.1 ∈ newKeys then poll
  else ⟨poll.currentKeys.erase entry.1, poll.events ++ [.removedKeyEvent entry.2]⟩

def Keyed (getKeyValue : Key → κ) (keys : GoMap κ Key) : Prop :=
  ∀ value key, keys.lookup value = some key → getKeyValue key = value

/-- The events say how the owner's keys changed since the start of the poll. -/
structure Follows (getKeyValue : Key → κ) (start : GoMap κ Key) (poll : Poll κ Key) : Prop where
  keyed : Keyed getKeyValue poll.currentKeys
  view : ∀ value, poll.events.foldl (actOn getKeyValue value) (start.lookup value) =
    poll.currentKeys.lookup value

variable (order : RangeOrder (Entry κ Key))

section Dropping

variable {getKeyValue : Key → κ} {start : GoMap κ Key} {poll : Poll κ Key}

theorem Follows.dropKey (follows : Follows getKeyValue start poll) (newKeys : List κ)
    {entry : Entry κ Key} (keyed : getKeyValue entry.2 = entry.1) :
    Follows getKeyValue start (dropKey newKeys poll entry) := by
  rw [KeyManagement.dropKey]
  split
  · exact follows
  · constructor
    · intro value found isFound
      by_cases same : value = entry.1
      · subst same
        rw [AList.lookup_erase] at isFound
        cases isFound
      · rw [AList.lookup_erase_ne same] at isFound
        exact follows.keyed value found isFound
    · intro value
      rw [List.foldl_append, follows.view, List.foldl_cons, List.foldl_nil, actOn, keyed]
      split
      · rename_i same
        rw [← same, AList.lookup_erase]
      · rename_i distinct
        rw [AList.lookup_erase_ne (Ne.symm distinct)]

theorem follows_foldl_dropKey (follows : Follows getKeyValue start poll) (newKeys : List κ)
    {entries : List (Entry κ Key)} (keyed : ∀ entry ∈ entries, getKeyValue entry.2 = entry.1) :
    Follows getKeyValue start (entries.foldl (KeyManagement.dropKey newKeys) poll) := by
  induction entries generalizing poll with
  | nil => exact follows
  | cons entry entries ih =>
    rw [List.forall_mem_cons] at keyed
    exact ih (follows.dropKey newKeys keyed.1) keyed.2

theorem lookup_foldl_dropKey (newKeys : List κ) (poll : Poll κ Key) (value : κ) :
    ((order.visit poll.currentKeys.entries).foldl (dropKey newKeys) poll).currentKeys.lookup value =
      if value ∈ newKeys then poll.currentKeys.lookup value else none := by
  have others : ∀ (poll : Poll κ Key) (entry : Entry κ Key), entry.1 ≠ value →
      (dropKey newKeys poll entry).currentKeys.lookup value = poll.currentKeys.lookup value := by
    intro poll entry distinct
    rw [dropKey]
    split
    · rfl
    · exact AList.lookup_erase_ne (Ne.symm distinct)
  have own : ∀ (poll : Poll κ Key) (key : Key),
      (dropKey newKeys poll ⟨value, key⟩).currentKeys.lookup value =
        if value ∈ newKeys then poll.currentKeys.lookup value else none := by
    intro poll key
    rw [dropKey]
    split
    · rfl
    · exact AList.lookup_erase value poll.currentKeys
  rw [GoMap.view_foldl_visit (fun poll : Poll κ Key => poll.currentKeys.lookup value)
    (fun _ held => if value ∈ newKeys then held else none) value others own]
  cases poll.currentKeys.lookup value with
  | none => simp
  | some key => rfl

end Dropping

section Noting

variable [DecidableEq Key]

/-- A key of the polled list: new and changed keys are announced. -/
def noteKey (getKeyValue : Key → κ) (poll : Poll κ Key) (key : Key) : Poll κ Key :=
  if poll.currentKeys.lookup (getKeyValue key) = some key then poll
  else ⟨poll.currentKeys.insert (getKeyValue key) key, poll.events ++ [.updatedKeyEvent key]⟩

def processKeys (getKeyValue : Key → κ) (order : RangeOrder (Entry κ Key))
    (currentKeys : GoMap κ Key) (ownerKeys : List Key) : Poll κ Key :=
  let noted := ownerKeys.foldl (noteKey getKeyValue) ⟨currentKeys, []⟩
  (order.visit noted.currentKeys.entries).foldl (dropKey (ownerKeys.map getKeyValue)) noted

variable {getKeyValue : Key → κ} {start : GoMap κ Key} {poll : Poll κ Key}

theorem lookup_noteKey (poll : Poll κ Key) (key : Key) (value : κ) :
    (noteKey getKeyValue poll key).currentKeys.lookup value =
      if getKeyValue key = value then some key else poll.currentKeys.lookup value := by
  rw [noteKey]
  by_cases same : getKeyValue key = value
  · subst same
    rw [if_pos rfl]
    split
    · assumption
    · exact AList.lookup_insert _
  · rw [if_neg same]
    split
    · rfl
    · exact AList.lookup_insert_ne (Ne.symm same)

theorem Follows.noteKey (follows : Follows getKeyValue start poll) (key : Key) :
    Follows getKeyValue start (noteKey getKeyValue poll key) where
  keyed value found isFound := by
    rw [lookup_noteKey] at isFound
    split at isFound
    · rename_i same
      rwa [← Option.some.inj isFound]
    · exact follows.keyed value found isFound
  view value := by
    rw [lookup_noteKey, KeyManagement.noteKey]
    split
    · rename_i held
      rw [follows.view]
      split
      · rename_i same
        rw [← same, held]
      · rfl
    · rw [List.foldl_append, follows.view]
      rfl

theorem follows_foldl_noteKey (follows : Follows getKeyValue start poll) (listed : List Key) :
    Follows getKeyValue start (listed.foldl (KeyManagement.noteKey getKeyValue) poll) := by
  induction listed generalizing poll with
  | nil => exact follows
  | cons key listed ih => exact ih (follows.noteKey key)

theorem follows_processKeys (keyed : Keyed getKeyValue start) (listed : List Key) :
    Follows getKeyValue start (processKeys getKeyValue order start listed) := by
  have unpolled : Follows getKeyValue start ⟨start, []⟩ := ⟨keyed, fun _ => rfl⟩
  have noted := follows_foldl_noteKey unpolled listed
  apply follows_foldl_dropKey noted
  intro entry visited
  exact noted.keyed entry.1 entry.2
    (AList.mem_lookup_iff.mpr ((order.mem_visit _ _).mp visited))

theorem lookup_foldl_noteKey (poll : Poll κ Key) (listed : List Key) (value : κ) :
    (listed.foldl (noteKey getKeyValue) poll).currentKeys.lookup value =
      (lastListed getKeyValue value listed).or (poll.currentKeys.lookup value) := by
  induction listed generalizing poll with
  | nil => rfl
  | cons key listed ih =>
    rw [List.foldl_cons, ih, lookup_noteKey, lastListed_cons, Option.or_assoc]
    split
    · rfl
    · rfl

theorem lookup_processKeys (start : GoMap κ Key) (listed : List Key) (value : κ) :
    (processKeys getKeyValue order start listed).currentKeys.lookup value =
      lastListed getKeyValue value listed := by
  rw [processKeys, lookup_foldl_dropKey, lookup_foldl_noteKey]
  split
  · rename_i isListed
    have found := isSome_lastListed.mpr (List.mem_map.mp isListed)
    obtain ⟨key, isLast⟩ := Option.isSome_iff_exists.mp found
    rw [isLast, Option.some_or]
  · rename_i unlisted
    refine (lastListed_eq_none fun key isListed same => unlisted ?_).symm
    exact List.mem_map.mpr ⟨key, isListed, same⟩

omit [DecidableEq κ] [DecidableEq Key] in
theorem ne_of_mem_foldl {α : Type*} {step : Poll κ Key → α → Poll κ Key} {value : κ}
    {items : List α}
    (each : ∀ item ∈ items, ∀ poll, (step poll item).events = poll.events ∨
      ∃ event, getKeyValue event.key ≠ value ∧ (step poll item).events = poll.events ++ [event])
    {poll : Poll κ Key} (before : ∀ event ∈ poll.events, getKeyValue event.key ≠ value) :
    ∀ event ∈ (items.foldl step poll).events, getKeyValue event.key ≠ value := by
  refine List.foldlRecOn (motive := fun poll => ∀ event ∈ poll.events, getKeyValue event.key ≠ value)
    items step before fun poll before item listed => ?_
  rcases each item listed poll with same | ⟨event, other, appended⟩
  · rw [same]
    exact before
  · rw [appended]
    exact List.forall_mem_append.mpr ⟨before, List.forall_mem_singleton.mpr other⟩

theorem ne_of_mem_processKeys (keyed : Keyed getKeyValue start) (unheld : start.lookup value = none)
    (unlisted : ∀ key ∈ listed, getKeyValue key ≠ value) :
    ∀ event ∈ (processKeys getKeyValue order start listed).events,
      getKeyValue event.key ≠ value := by
  rw [processKeys]
  apply ne_of_mem_foldl
  · intro entry visited poll
    rw [dropKey]
    split
    · exact .inl rfl
    · refine .inr ⟨.removedKeyEvent entry.2, ?_, rfl⟩
      intro same
      have held := AList.mem_lookup_iff.mpr ((order.mem_visit _ _).mp visited)
      have unpolled : Follows getKeyValue start ⟨start, []⟩ := ⟨keyed, fun _ => rfl⟩
      have isValue := (follows_foldl_noteKey unpolled listed).keyed entry.1 entry.2 held
      rw [KeyEvent.key] at same
      rw [lookup_foldl_noteKey, ← isValue, same, unheld, lastListed_eq_none unlisted] at held
      cases held
  · apply ne_of_mem_foldl
    · intro key isListed poll
      rw [noteKey]
      split
      · exact .inl rfl
      · exact .inr ⟨.updatedKeyEvent key, unlisted key isListed, rfl⟩
    · simp

end Noting

/-- Where events come from. -/
inductive Source (Owner : Type*)
  | owner (id : Owner)
  | localKey (index : ℕ)
  deriving DecidableEq

/-- The keys of each owner as last polled, the events on their way, and the keys the service
knows. -/
structure KeySystem (Owner κ Key : Type*) where
  ownerKeys : Owner → GoMap κ Key
  feed : FanIn (Source Owner) (KeyEvent Key) (GoMap κ Key)

/-- What happens: an owner is polled, which may fail, or the service takes the next event of a
source. -/
inductive KeyAction (Owner κ Key : Type*)
  | poll (owner : Owner) (result : Option (List Key)) (order : RangeOrder (Entry κ Key))
  | deliver (source : Source Owner)

section System

variable [DecidableEq Key] [DecidableEq Owner] (getKeyValue : Key → κ)

def KeySystem.start (localKeys : List Key) : KeySystem Owner κ Key where
  ownerKeys _ := ∅
  feed :=
    { queues := fun source =>
        match source with
        | .owner _ => []
        | .localKey index => (localKeys[index]?.map KeyEvent.updatedKeyEvent).toList
      state := ∅ }

def KeySystem.step (system : KeySystem Owner κ Key) :
    KeyAction Owner κ Key → KeySystem Owner κ Key
  | .poll _ none _ => system
  | .poll owner (some listed) order =>
    let polled := processKeys getKeyValue order (system.ownerKeys owner) listed
    { ownerKeys := Function.update system.ownerKeys owner polled.currentKeys
      feed := system.feed.send (.owner owner) polled.events }
  | .deliver source => { system with feed := system.feed.receive (watchKey getKeyValue) source }

def keySystem (localKeys : List Key) (actions : List (KeyAction Owner κ Key)) :
    KeySystem Owner κ Key :=
  run (KeySystem.step getKeyValue) (.start localKeys) actions

def KeySystem.getKey (system : KeySystem Owner κ Key) (value : κ) : Option Key :=
  system.feed.state.lookup value

/-- The latest list of an owner that was polled successfully; none is listed before. -/
def latest (actions : List (KeyAction Owner κ Key)) : Owner → List Key :=
  run (fun lists action =>
    match action with
    | .poll owner (some listed) _ => Function.update lists owner listed
    | _ => lists) (fun _ => []) actions

/-- A source lists a value at some time. -/
def Lists (localKeys : List Key) (actions : List (KeyAction Owner κ Key)) (value : κ) :
    Source Owner → Prop
  | .owner owner => ∃ listed order, .poll owner (some listed) order ∈ actions ∧
      ∃ key ∈ listed, getKeyValue key = value
  | .localKey index => ∃ key, localKeys[index]? = some key ∧ getKeyValue key = value

end System

section Finds

variable [DecidableEq Key] [DecidableEq Owner] {getKeyValue : Key → κ} {localKeys : List Key}
  {actions : List (KeyAction Owner κ Key)} {value : κ}

theorem keySystem_append (actions : List (KeyAction Owner κ Key)) (action : KeyAction Owner κ Key) :
    keySystem getKeyValue localKeys (actions ++ [action]) =
      (keySystem getKeyValue localKeys actions).step getKeyValue action :=
  run_append _ _ actions [action]

omit [DecidableEq κ] [DecidableEq Key] in
theorem latest_append (actions : List (KeyAction Owner κ Key)) (action : KeyAction Owner κ Key) :
    latest (actions ++ [action]) =
      match action with
      | .poll owner (some listed) _ => Function.update (latest actions) owner listed
      | _ => latest actions :=
  run_append _ _ actions [action]

variable {source : Source Owner}

omit [DecidableEq κ] [DecidableEq Key] [DecidableEq Owner] in
theorem Lists.append (listed : Lists getKeyValue localKeys actions value source)
    (action : KeyAction Owner κ Key) :
    Lists getKeyValue localKeys (actions ++ [action]) value source := by
  cases source with
  | owner owner =>
    obtain ⟨keys, order, isPoll, isListed⟩ := listed
    exact ⟨keys, order, List.mem_append_left _ isPoll, isListed⟩
  | localKey index => exact listed

theorem ownerKeys_keySystem (getKeyValue : Key → κ) (localKeys : List Key)
    (actions : List (KeyAction Owner κ Key))
    (owner : Owner) :
    Keyed getKeyValue ((keySystem getKeyValue localKeys actions).ownerKeys owner) ∧
      ∀ value, ((keySystem getKeyValue localKeys actions).ownerKeys owner).lookup value =
        lastListed getKeyValue value (latest actions owner) := by
  induction actions using List.reverseRecOn with
  | nil => exact ⟨fun _ _ found => absurd found (by simp [keySystem, KeySystem.start]), fun _ => rfl⟩
  | append_singleton actions action ih =>
    rw [keySystem_append, latest_append]
    cases action with
    | deliver source => exact ih
    | poll polled result order =>
      cases result with
      | none => exact ih
      | some listed =>
        simp only [KeySystem.step]
        by_cases same : owner = polled
        · subst same
          rw [Function.update_self, Function.update_self]
          exact ⟨(follows_processKeys order ih.1 listed).keyed,
            lookup_processKeys order _ listed⟩
        · rw [Function.update_of_ne same, Function.update_of_ne same]
          exact ih

omit [DecidableEq κ] [DecidableEq Key] in
theorem lists_of_mem_latest {owner : Owner} {key : Key} (isListed : key ∈ latest actions owner)
    (isValue : getKeyValue key = value) :
    Lists getKeyValue localKeys actions value (.owner owner) := by
  induction actions using List.reverseRecOn with
  | nil => cases isListed
  | append_singleton actions action ih =>
    rw [latest_append] at isListed
    cases action with
    | deliver source => exact (ih isListed).append _
    | poll polled result order =>
      cases result with
      | none => exact (ih isListed).append _
      | some listed =>
        by_cases same : owner = polled
        · subst same
          simp only [Function.update_self] at isListed
          exact ⟨listed, order, by simp, key, isListed, isValue⟩
        · simp only [Function.update_of_ne same] at isListed
          exact (ih isListed).append _

/-- What a source lists under a value. -/
def Source.view (getKeyValue : Key → κ) (localKeys : List Key) (system : KeySystem Owner κ Key)
    (value : κ) : Source Owner → Option Key
  | .owner id => (system.ownerKeys id).lookup value
  | .localKey index => localKeys[index]?.filter fun key => getKeyValue key = value

/-- A value that comes from one source: no other source has announced it, and when what the
source announced has arrived the service finds what the source lists. -/
structure Owned (getKeyValue : Key → κ) (localKeys : List Key) (system : KeySystem Owner κ Key)
    (value : κ) (source : Source Owner) : Prop where
  others : ∀ other, other ≠ source → ∀ event ∈ system.feed.queues other,
    getKeyValue event.key ≠ value
  arrives : system.feed.pending (actOn getKeyValue value) (fun keys => keys.lookup value) source =
    source.view getKeyValue localKeys system value

omit [DecidableEq Key] [DecidableEq Owner] in
theorem owned_start
    (only : ∀ other, Lists getKeyValue localKeys ([] : List (KeyAction Owner κ Key)) value other →
      other = source) : Owned getKeyValue localKeys (.start localKeys) value source where
  others other distinct event queued := by
    cases other with
    | owner owner => cases queued
    | localKey index =>
      obtain ⟨key, isKey, rfl⟩ :
          ∃ key, localKeys[index]? = some key ∧ .updatedKeyEvent key = event := by
        simpa [KeySystem.start] using queued
      intro isValue
      exact distinct (only _ ⟨key, isKey, isValue⟩)
  arrives := by
    cases source with
    | owner owner => rfl
    | localKey index =>
      simp only [FanIn.pending, KeySystem.start, Source.view]
      cases localKeys[index]? with
      | none => rfl
      | some key =>
        simp only [Option.map_some, Option.toList_some, List.foldl_cons, List.foldl_nil, actOn,
          Option.filter_some]
        split
        · rename_i same
          rw [if_pos (by simpa using same)]
        · rename_i distinct
          rw [if_neg (by simpa using distinct)]
          rfl

theorem owned_keySystem
    (only : ∀ other, Lists getKeyValue localKeys actions value other → other = source) :
    Owned getKeyValue localKeys (keySystem getKeyValue localKeys actions) value source := by
  induction actions using List.reverseRecOn with
  | nil => exact owned_start only
  | append_singleton actions action ih =>
    have before := ih fun other listed => only other (listed.append action)
    rw [keySystem_append]
    cases action with
    | deliver taken =>
      constructor
      · intro other distinct event queued
        exact before.others other distinct event (FanIn.mem_queues_of_receive _ queued)
      · by_cases same : source = taken
        · subst same
          exact (FanIn.pending_receive _ _ (lookup_watchKey getKeyValue value)).trans
            before.arrives
        · refine (FanIn.pending_receive_of_ne _ _ same (lookup_watchKey getKeyValue value)
            ?_).trans before.arrives
          intro event queued held
          exact actOn_of_ne getKeyValue (before.others taken (Ne.symm same) event queued) held
    | poll polled result order =>
      cases result with
      | none => exact before
      | some listed =>
        obtain ⟨keyed, held⟩ := ownerKeys_keySystem getKeyValue localKeys actions polled
        by_cases same : source = .owner polled
        · subst same
          constructor
          · intro other distinct event queued
            rcases FanIn.mem_queues_send _ queued with earlier | ⟨isPolled, -⟩
            · exact before.others other distinct event earlier
            · exact absurd isPolled distinct
          · have arrives := before.arrives
            simp only [KeySystem.step, FanIn.pending_send, Source.view] at arrives ⊢
            rw [arrives, Function.update_self]
            exact (follows_processKeys order keyed listed).view value
        · -- Another owner: neither this list nor the one before has the value.
          have unlisted : ∀ key ∈ listed, getKeyValue key ≠ value := by
            intro key isListed isValue
            exact same (only (.owner polled)
              ⟨listed, order, by simp, key, isListed, isValue⟩).symm
          have unheld := (held value).trans (lastListed_eq_none fun key isListed isValue =>
            same (only (.owner polled) ((lists_of_mem_latest isListed isValue).append _)).symm)
          constructor
          · intro other distinct event queued
            rcases FanIn.mem_queues_send _ queued with earlier | ⟨-, announced⟩
            · exact before.others other distinct event earlier
            · exact ne_of_mem_processKeys order keyed unheld unlisted event announced
          · simp only [KeySystem.step]
            rw [FanIn.pending_send_of_ne _ _ _ _ same, before.arrives]
            cases source with
            | localKey index => rfl
            | owner owner =>
              have distinct : owner ≠ polled := fun isOwner => same (isOwner ▸ rfl)
              simp only [Source.view, Function.update_of_ne distinct]

/-- When all events have arrived, the service finds a value that at most one source ever lists
exactly if that source lists it still, and finds a key that is listed. -/
theorem getKey_of_settled (getKeyValue : Key → κ) (localKeys : List Key)
    (actions : List (KeyAction Owner κ Key)) (value : κ)
    (single : ∀ source other, Lists getKeyValue localKeys actions value source →
      Lists getKeyValue localKeys actions value other → source = other)
    (settled : (keySystem getKeyValue localKeys actions).feed.Settled) :
    (((keySystem getKeyValue localKeys actions).getKey value).isSome ↔
        (∃ owner, ∃ key ∈ latest actions owner, getKeyValue key = value) ∨
          ∃ key ∈ localKeys, getKeyValue key = value) ∧
      ∀ key, (keySystem getKeyValue localKeys actions).getKey value = some key →
        getKeyValue key = value ∧ ((∃ owner, key ∈ latest actions owner) ∨ key ∈ localKeys) := by
  -- The source that lists the value, or one that lists nothing at all.
  obtain ⟨source, only⟩ : ∃ source : Source Owner, ∀ other,
      Lists getKeyValue localKeys actions value other → other = source := by
    by_cases some_source : ∃ source, Lists getKeyValue localKeys actions value source
    · obtain ⟨source, listed⟩ := some_source
      exact ⟨source, fun other listedOther => single other source listedOther listed⟩
    · exact ⟨.localKey 0, fun other listed => absurd ⟨other, listed⟩ some_source⟩
  have owned := owned_keySystem only
  have found : (keySystem getKeyValue localKeys actions).getKey value =
      source.view getKeyValue localKeys (keySystem getKeyValue localKeys actions) value := by
    rw [← owned.arrives, FanIn.pending, settled source]
    rfl
  rw [found]
  have listing : ∀ key,
      source.view getKeyValue localKeys (keySystem getKeyValue localKeys actions) value = some key →
      getKeyValue key = value ∧ ((∃ owner, key ∈ latest actions owner) ∨ key ∈ localKeys) := by
    intro key isKey
    cases source with
    | owner owner =>
      rw [Source.view, (ownerKeys_keySystem getKeyValue localKeys actions owner).2] at isKey
      obtain ⟨isListed, isValue⟩ := mem_of_lastListed isKey
      exact ⟨isValue, .inl ⟨owner, isListed⟩⟩
    | localKey index =>
      obtain ⟨isLocal, isValue⟩ := Option.filter_eq_some_iff.mp isKey
      exact ⟨by simpa using isValue, .inr (List.mem_of_getElem? isLocal)⟩
  refine ⟨?_, listing⟩
  constructor
  · intro isFound
    obtain ⟨key, isKey⟩ := Option.isSome_iff_exists.mp isFound
    obtain ⟨isValue, ⟨owner, isListed⟩ | isLocal⟩ := listing key isKey
    · exact .inl ⟨owner, key, isListed, isValue⟩
    · exact .inr ⟨key, isLocal, isValue⟩
  · rintro (⟨owner, key, isListed, isValue⟩ | ⟨key, isLocal, isValue⟩)
    · rw [← only (.owner owner) (lists_of_mem_latest isListed isValue), Source.view,
        (ownerKeys_keySystem getKeyValue localKeys actions owner).2]
      exact isSome_lastListed.mpr ⟨key, isListed, isValue⟩
    · obtain ⟨index, isKey⟩ := List.getElem?_of_mem isLocal
      rw [← only (.localKey index) ⟨key, isKey, isValue⟩, Source.view, isKey]
      simp [isValue]

end Finds

abbrev PlainKey := String × ℕ

abbrev PlainAction := KeyAction String String PlainKey

def listedOnce : List PlainAction :=
  [.poll "a" (some [("k", 1)]) (.stored _), .deliver (.owner "a")]

/-- Two owners list the key, and then the second does not list it any more. -/
def listedTwice : List PlainAction :=
  [.poll "a" (some [("k", 1)]) (.stored _), .poll "b" (some [("k", 1)]) (.stored _),
    .deliver (.owner "a"), .deliver (.owner "b"), .poll "b" (some []) (.stored _),
    .deliver (.owner "b")]

theorem key_of_one_owner : ((keySystem Prod.fst [] listedOnce).getKey "k").isSome := by
  refine (getKey_of_settled Prod.fst [] listedOnce "k" ?_ ?_).1.mpr
    (.inl ⟨"a", ("k", 1), by decide +kernel, rfl⟩)
  · intro source other listed listedOther
    cases source with
    | localKey index => simp [Lists] at listed
    | owner owner =>
      cases other with
      | localKey index => simp [Lists] at listedOther
      | owner second =>
        obtain ⟨_, _, polled, -⟩ := listed
        obtain ⟨_, _, polledSecond, -⟩ := listedOther
        simp only [listedOnce, List.mem_cons, KeyAction.poll.injEq, reduceCtorEq,
          List.not_mem_nil, or_false] at polled polledSecond
        rw [polled.1, polledSecond.1]
  · intro source
    by_cases isOwner : source = .owner "a"
    · subst isOwner
      decide +kernel
    · simp only [listedOnce, keySystem, run, List.foldl_cons, List.foldl_nil, KeySystem.step,
        FanIn.queues_receive_of_ne _ isOwner, FanIn.queues_send_of_ne _ isOwner]
      cases source <;> rfl

/-- All events have arrived and the first owner still lists the key, but the service does not
find it: the second owner's removal took it away. -/
theorem removal_hides_other_owner :
    (keySystem Prod.fst [] listedTwice).feed.Settled ∧
      ("k", 1) ∈ latest listedTwice "a" ∧
      (keySystem Prod.fst [] listedTwice).getKey "k" = none := by
  refine ⟨?_, by decide +kernel, by decide +kernel⟩
  intro source
  by_cases isFirst : source = .owner "a"
  · subst isFirst
    decide +kernel
  · by_cases isSecond : source = .owner "b"
    · subst isSecond
      decide +kernel
    · simp only [listedTwice, keySystem, run, List.foldl_cons, List.foldl_nil, KeySystem.step,
        FanIn.queues_receive_of_ne _ isFirst, FanIn.queues_send_of_ne _ isFirst,
        FanIn.queues_receive_of_ne _ isSecond, FanIn.queues_send_of_ne _ isSecond]
      cases source <;> rfl

end Nodecore.KeyManagement
