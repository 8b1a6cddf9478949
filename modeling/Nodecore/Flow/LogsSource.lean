/-
# The local source of logs

For each block that is announced the source fetches the logs of the block and emits
them, and it keeps the logs of the last thirty-two blocks it fetched.  When a block
is dropped, the logs kept for it are emitted again, marked as removed; what is kept
is not discarded then.

A subscriber that was there from the start should see the events of each log
alternate between added and removed.  That depends on what the cache still holds
when a block is dropped, so the results are about runs in which the cache and the
emitted events agree at each drop.
-/

import Nodecore.Subengine.BlockUpdates

namespace Nodecore.Flow

open Lib Protocol Subengine

abbrev RawLog := List UInt8

abbrev BlockHash := List UInt8

/-- How one attempt to get the logs of a block ends. -/
inductive FetchAttempt
  | noUpstream
  | upstreamError
  | unparsable
  | logs (logs : List RawLog)

def logsCacheSize : ℕ := 32

def logsFetchAttempts : ℕ := 3

/-- An error of an upstream leads on to the next one; anything else is final. -/
def firstAnswer : List FetchAttempt → Option (List RawLog)
  | [] => none
  | .noUpstream :: _ => none
  | .upstreamError :: attempts => firstAnswer attempts
  | .unparsable :: _ => none
  | .logs logs :: _ => some logs

/-- The logs of a block, given how the attempts would end; with no attempt at all the
request could not be built. -/
def fetchBlockLogs (attempts : List FetchAttempt) : Option (List RawLog) :=
  firstAnswer (attempts.take logsFetchAttempts)

structure LogCache where
  order : List BlockHash := []
  items : GoMap BlockHash (List RawLog) := ∅

namespace LogCache

variable (cache : LogCache)

def put (hash : BlockHash) (logs : List RawLog) : LogCache :=
  if hash ∈ cache.items then { cache with items := cache.items.insert hash logs }
  else
    match cache.order with
    | oldest :: rest =>
      if logsCacheSize ≤ cache.order.length then
        { order := rest ++ [hash], items := (cache.items.erase oldest).insert hash logs }
      else { order := cache.order ++ [hash], items := cache.items.insert hash logs }
    | [] => { order := [hash], items := cache.items.insert hash logs }

def get (hash : BlockHash) : Option (List RawLog) := cache.items.lookup hash

end LogCache

/-- A message to the subscribers: the log at a position of a block, and whether it was
marked as removed. -/
structure LogEvent where
  block : BlockHash
  position : ℕ
  message : RawLog
  removed : Bool
  deriving DecidableEq

/-- The source with all it has emitted; `failed` is set by the error that ends it. -/
structure LogsSource where
  cache : LogCache := {}
  emitted : List LogEvent := []
  failed : Bool := false
  running : Bool := true

/-- An update with how the attempts to fetch would end, whether the chain has lost its
logs by then, and after how many of the update's events the source is cancelled, if it
is; or the end of the updates. -/
inductive SourceInput
  | update (update : BlockUpdate) (attempts : List FetchAttempt) (logsLost : Bool)
      (cancelled : Option ℕ)
  | closed

def batch (hash : BlockHash) (removed : Bool) (messages : List RawLog) : List LogEvent :=
  messages.zipIdx.map fun entry => ⟨hash, entry.2, entry.1, removed⟩

/-- The logs once more, each marked as removed if that can be done. -/
def retraction (setRemoved : RawLog → Option RawLog) (hash : BlockHash) (logs : List RawLog) :
    List LogEvent :=
  logs.zipIdx.map fun entry =>
    match setRemoved entry.1 with
    | some message => ⟨hash, entry.2, message, true⟩
    | none => ⟨hash, entry.2, entry.1, false⟩

namespace LogsSource

def emit (source : LogsSource) (events : List LogEvent) : Option ℕ → LogsSource
  | none => { source with emitted := source.emitted ++ events }
  | some sent => { source with emitted := source.emitted ++ events.take sent, running := false }

/-- What the source does; `setRemoved` is the JSON library's part in marking a log. -/
def step (setRemoved : RawLog → Option RawLog) (source : LogsSource) (input : SourceInput) :
    LogsSource :=
  if !source.running then source
  else
    match input with
    | .closed => { source with running := false }
    | .update update attempts logsLost cancelled =>
      if logsLost then { source with failed := true, running := false }
      else
        match update.kind with
        | .blockNew =>
          match fetchBlockLogs attempts with
          | none => source
          | some logs =>
            { source with cache := source.cache.put update.block.hash logs }.emit
              (batch update.block.hash false logs) cancelled
        | .blockDrop =>
          match source.cache.get update.block.hash with
          | none => source
          | some logs => source.emit (retraction setRemoved update.block.hash logs) cancelled

end LogsSource

/-- The flags change at each step, beginning with `first`. -/
def Alternates : Bool → List Bool → Prop
  | _, [] => True
  | first, flag :: flags => flag = first ∧ Alternates (!first) flags

def logFlags (events : List LogEvent) (hash : BlockHash) (position : ℕ) : List Bool :=
  (events.filter fun event => event.block = hash ∧ event.position = position).map (·.removed)

/-- The events of a block that were not taken back since. -/
def outstanding (events : List LogEvent) (hash : BlockHash) : List LogEvent :=
  ((events.filter fun event => event.block = hash).reverse.takeWhile fun event =>
    !event.removed).reverse

section Alternation

variable {first flag : Bool} {flags more : List Bool}

theorem Alternates.of_append (alternates : Alternates first (flags ++ more)) :
    Alternates first flags := by
  induction flags generalizing first with
  | nil => trivial
  | cons flag flags ih => exact ⟨alternates.1, ih alternates.2⟩

theorem Alternates.concat (alternates : Alternates first flags)
    (turn : flag = (first ^^ flags.length % 2 == 1)) : Alternates first (flags ++ [flag]) := by
  induction flags generalizing first with
  | nil => exact ⟨by simpa using turn, trivial⟩
  | cons head flags ih =>
    refine ⟨alternates.1, ih alternates.2 ?_⟩
    rw [turn, List.length_cons]
    rcases Nat.mod_two_eq_zero_or_one flags.length with even | odd
    · simp [even, Nat.add_mod]
    · simp [odd, Nat.add_mod]

end Alternation

section Events

variable {events more : List LogEvent} {hash other : BlockHash} {position : ℕ} {removed : Bool}
  {messages : List RawLog}

theorem logFlags_append : logFlags (events ++ more) hash position =
    logFlags events hash position ++ logFlags more hash position := by
  simp [logFlags]

theorem logFlags_batch : logFlags (batch other removed messages) hash position =
    if other = hash ∧ position < messages.length then [removed] else [] := by
  have from_start : ∀ start, logFlags ((messages.zipIdx start).map fun entry =>
      ⟨other, entry.2, entry.1, removed⟩) hash position =
        if other = hash ∧ start ≤ position ∧ position < start + messages.length then [removed]
        else [] := by
    induction messages with
    | nil =>
      intro start
      rw [if_neg (by simp)]
      rfl
    | cons message messages ih =>
      intro start
      have rest := ih (start + 1)
      simp only [logFlags] at rest
      rw [logFlags, List.zipIdx_cons, List.map_cons, List.length_cons]
      by_cases same : other = hash
      · simp only [same, true_and] at rest ⊢
        by_cases here : start = position
        · rw [List.filter_cons_of_pos (by simpa using here), List.map_cons, rest,
            if_neg (by omega), if_pos (by omega)]
        · rw [List.filter_cons_of_neg (by simpa using here), rest]
          apply if_congr _ rfl rfl
          omega
      · simpa [same] using rest
  simpa [batch] using from_start 0

theorem batch_eq_nil_iff : batch hash removed messages = [] ↔ messages = [] := by
  simp [batch]

theorem mem_batch {event : LogEvent} (listed : event ∈ batch hash removed messages) :
    event.block = hash ∧ event.removed = removed := by
  obtain ⟨entry, _, rfl⟩ := List.mem_map.mp listed
  exact ⟨rfl, rfl⟩

theorem filter_block_batch : (batch other removed messages).filter (fun event =>
    event.block = hash) = if other = hash then batch other removed messages else [] := by
  split_ifs with same
  · rw [List.filter_eq_self]
    intro event listed
    simpa [same] using (mem_batch listed).1
  · rw [List.filter_eq_nil_iff]
    intro event listed
    simpa [(mem_batch listed).1] using same

theorem outstanding_append_added : outstanding (events ++ batch hash false messages) hash =
    outstanding events hash ++ batch hash false messages := by
  rw [outstanding, List.filter_append, filter_block_batch, if_pos rfl, List.reverse_append,
    List.takeWhile_append_of_pos]
  · simp [outstanding]
  · intro event listed
    simp [(mem_batch (List.mem_reverse.mp listed)).2]

theorem outstanding_append_removed (nonempty : messages ≠ []) :
    outstanding (events ++ batch hash true messages) hash = [] := by
  rw [outstanding, List.filter_append, filter_block_batch, if_pos rfl, List.reverse_append]
  cases shape : (batch hash true messages).reverse with
  | nil =>
    rw [List.reverse_eq_nil_iff, batch_eq_nil_iff] at shape
    exact absurd shape nonempty
  | cons event rest =>
    have listed : event ∈ batch hash true messages := by
      rw [← List.mem_reverse, shape]
      exact List.mem_cons_self
    simp [(mem_batch listed).2]

theorem retraction_eq_batch {setRemoved : RawLog → Option RawLog} {logs : List RawLog}
    (markable : ∀ raw ∈ logs, (setRemoved raw).isSome) :
    retraction setRemoved hash logs =
      batch hash true (logs.map fun raw => (setRemoved raw).getD raw) := by
  rw [retraction, batch, List.zipIdx_map, List.map_map]
  apply List.map_congr_left
  intro entry listed
  obtain ⟨message, marked⟩ := Option.isSome_iff_exists.mp
    (markable entry.1 (List.fst_mem_of_mem_zipIdx listed))
  simp [marked]

end Events

theorem LogCache.eq_or_get_of_get_put {cache : LogCache} {hash other : BlockHash}
    {logs found : List RawLog} (kept : (cache.put hash logs).get other = some found) :
    (other = hash ∧ found = logs) ∨ (other ≠ hash ∧ cache.get other = some found) := by
  by_cases same : other = hash
  · subst same
    refine .inl ⟨rfl, ?_⟩
    unfold put at kept
    split at kept
    · simpa [get, eq_comm] using kept
    · split at kept
      · split at kept
        all_goals simpa [get, eq_comm] using kept
      · simpa [get, eq_comm] using kept
  · refine .inr ⟨same, ?_⟩
    unfold put at kept
    split at kept
    · simpa [get, AList.lookup_insert_ne same] using kept
    · split at kept
      · rename_i oldest _ _
        split at kept
        · rw [get, AList.lookup_insert_ne same] at kept
          by_cases evicted : other = oldest
          · subst evicted
            simp at kept
          · rwa [AList.lookup_erase_ne evicted] at kept
        · simpa [get, AList.lookup_insert_ne same] using kept
      · simpa [get, AList.lookup_insert_ne same] using kept

def retract (setRemoved : RawLog → Option RawLog) (event : LogEvent) : LogEvent :=
  { event with message := (setRemoved event.message).getD event.message, removed := true }

/-- What becomes of events when the source is cancelled after some of them. -/
def sentUntil (events : List LogEvent) : Option ℕ → List LogEvent
  | none => events
  | some sent => events.take sent

namespace LogsSource

variable (setRemoved : RawLog → Option RawLog)

/-- A block is announced with its logs only when none of them stand, and its logs are
such that they can be marked; and a dropped block has logs in the cache exactly if
some of its logs stand. -/
def CacheFits (source : LogsSource) : SourceInput → Prop
  | .closed => True
  | .update update attempts _ _ =>
    match update.kind with
    | .blockNew =>
      match fetchBlockLogs attempts with
      | none => True
      | some logs =>
        outstanding source.emitted update.block.hash = [] ∧
          ∀ raw ∈ logs, (setRemoved raw).isSome = true
    | .blockDrop =>
      (source.cache.get update.block.hash).getD [] = [] ↔
        outstanding source.emitted update.block.hash = []

/-- Whatever part of the events a subscriber has received, those of each log alternate;
and a dropped block has the logs that stand taken back, all of them and no others. -/
structure Consistent (source : LogsSource) (input : SourceInput) : Prop where
  alternates : ∀ received, received <+: (source.step setRemoved input).emitted →
    ∀ hash position, Alternates false (logFlags received hash position)
  takesBack : ∀ block attempts cancelled,
    input = .update ⟨block, .blockDrop⟩ attempts false cancelled → source.running = true →
      (source.step setRemoved input).emitted = source.emitted ++
        sentUntil ((outstanding source.emitted block.hash).map (retract setRemoved)) cancelled

/-- The events so far are in order, and the cache has the logs that stand. -/
structure Agrees (source : LogsSource) : Prop where
  turn : ∀ hash position, (logFlags source.emitted hash position).length % 2 = 1 ↔
    position < (outstanding source.emitted hash).length
  alternates : ∀ hash position, Alternates false (logFlags source.emitted hash position)
  shape : ∀ hash, outstanding source.emitted hash =
    batch hash false ((outstanding source.emitted hash).map (·.message))
  cached : ∀ hash logs, source.cache.get hash = some logs →
    outstanding source.emitted hash ≠ [] →
      logs = (outstanding source.emitted hash).map (·.message)
  markable : ∀ hash logs, source.cache.get hash = some logs →
    ∀ raw ∈ logs, (setRemoved raw).isSome = true

variable {setRemoved} {source : LogsSource} {hash : BlockHash} {logs : List RawLog}

theorem map_message_batch {removed : Bool} : (batch hash removed logs).map (·.message) = logs := by
  rw [batch, List.map_map]
  exact List.zipIdx_map_fst 0 logs

theorem map_retract_batch : (batch hash false logs).map (retract setRemoved) =
    batch hash true (logs.map fun raw => (setRemoved raw).getD raw) := by
  rw [batch, batch, List.zipIdx_map, List.map_map, List.map_map]
  rfl

section

variable (agrees : source.Agrees setRemoved)
include agrees

/-- One more batch: it adds logs of a block none of whose logs stand, or takes back as
many as stand. -/
theorem Agrees.append {removed : Bool} {messages : List RawLog} {cache : LogCache}
    (stood : (outstanding source.emitted hash).length = if removed then messages.length else 0)
    (cached : ∀ found, cache.get hash = some found → removed = false → found = messages)
    (others : ∀ other ≠ hash, ∀ found, cache.get other = some found →
      source.cache.get other = some found)
    (markable : ∀ other found, cache.get other = some found →
      ∀ raw ∈ found, (setRemoved raw).isSome = true) :
    Agrees setRemoved { source with
      cache := cache, emitted := source.emitted ++ batch hash removed messages } := by
  have now : outstanding (source.emitted ++ batch hash removed messages) hash =
      batch hash false (if removed then [] else messages) := by
    cases removed with
    | false =>
      have clear : outstanding source.emitted hash = [] := by simpa using stood
      rw [outstanding_append_added, clear]
      rfl
    | true =>
      by_cases empty : messages = []
      · subst empty
        simpa [batch] using stood
      · exact outstanding_append_removed empty
  have elsewhere : ∀ {other}, other ≠ hash →
      outstanding (source.emitted ++ batch hash removed messages) other =
        outstanding source.emitted other :=
    fun apart => by simp [outstanding, filter_block_batch, apart.symm]
  constructor
  · intro other position
    dsimp only
    rw [logFlags_append, logFlags_batch, List.length_append]
    by_cases same : other = hash
    · subst same
      have before := agrees.turn other position
      rw [stood] at before
      rw [now, batch, List.length_map, List.length_zipIdx]
      cases removed with
      | false => grind
      | true => grind
    · rw [if_neg (by simp [Ne.symm same]), List.length_nil, Nat.add_zero, elsewhere same]
      exact agrees.turn other position
  · intro other position
    dsimp only
    rw [logFlags_append, logFlags_batch]
    split_ifs with here
    · obtain ⟨rfl, inside⟩ := here
      apply (agrees.alternates hash position).concat
      have before := agrees.turn hash position
      rw [stood] at before
      cases removed with
      | false => simpa using before
      | true => simpa [inside] using before
    · rw [List.append_nil]
      exact agrees.alternates other position
  · intro other
    dsimp only
    by_cases same : other = hash
    · subst same
      rw [now, map_message_batch]
    · rw [elsewhere same]
      exact agrees.shape other
  · intro other found kept stands
    dsimp only at kept stands ⊢
    by_cases same : other = hash
    · subst same
      rw [now] at stands ⊢
      cases removed with
      | false => rw [map_message_batch, cached found kept rfl, if_neg (by decide)]
      | true => simp [batch] at stands
    · rw [elsewhere same] at stands ⊢
      exact agrees.cached other found (others other same found kept) stands
  · exact markable

theorem Agrees.announce (clear : outstanding source.emitted hash = [])
    (markable : ∀ raw ∈ logs, (setRemoved raw).isSome = true) :
    Agrees setRemoved { source with
      cache := source.cache.put hash logs, emitted := source.emitted ++ batch hash false logs } := by
  apply agrees.append
  · simp [clear]
  · intro found kept _
    rcases LogCache.eq_or_get_of_get_put kept with ⟨_, same⟩ | ⟨apart, _⟩
    · exact same
    · exact absurd rfl apart
  · intro other apart found kept
    rcases LogCache.eq_or_get_of_get_put kept with ⟨same, _⟩ | ⟨_, before⟩
    · exact absurd same apart
    · exact before
  · intro other found kept
    rcases LogCache.eq_or_get_of_get_put kept with ⟨_, rfl⟩ | ⟨_, before⟩
    · exact markable
    · exact agrees.markable other found before

section

variable (kept : source.cache.get hash = some logs)
  (fits : logs = [] ↔ outstanding source.emitted hash = [])
include kept fits

theorem Agrees.outstanding_eq : outstanding source.emitted hash = batch hash false logs := by
  by_cases clear : outstanding source.emitted hash = []
  · rw [clear, fits.mpr clear]
    rfl
  · rw [agrees.shape hash, ← agrees.cached hash logs kept clear]

theorem Agrees.retraction_eq :
    retraction setRemoved hash logs =
      (outstanding source.emitted hash).map (retract setRemoved) := by
  rw [retraction_eq_batch (agrees.markable hash logs kept), agrees.outstanding_eq kept fits,
    map_retract_batch]

theorem Agrees.takeBack :
    Agrees setRemoved { source with
      emitted := source.emitted ++ retraction setRemoved hash logs } := by
  rw [retraction_eq_batch (agrees.markable hash logs kept)]
  apply agrees.append
  · rw [agrees.outstanding_eq kept fits]
    simp [batch]
  · simp
  · exact fun _ _ _ kept => kept
  · exact agrees.markable

end

end

/-- What holds of a source whose inputs all fitted. -/
structure InOrder (setRemoved : RawLog → Option RawLog) (source : LogsSource) : Prop where
  alternates : ∀ hash position, Alternates false (logFlags source.emitted hash position)
  agrees : source.running = true → source.Agrees setRemoved

theorem InOrder.emit {events : List LogEvent} {cancelled : Option ℕ}
    (agrees : Agrees setRemoved { source with emitted := source.emitted ++ events }) :
    InOrder setRemoved (source.emit events cancelled) := by
  cases cancelled with
  | none => exact ⟨agrees.alternates, fun _ => agrees⟩
  | some sent =>
    refine ⟨?_, by simp [LogsSource.emit]⟩
    intro hash position
    have whole := agrees.alternates hash position
    rw [← List.take_append_drop sent events] at whole
    dsimp only at whole
    rw [← List.append_assoc, logFlags_append] at whole
    exact whole.of_append

section

variable {input : SourceInput} (inOrder : source.InOrder setRemoved)
  (fits : source.CacheFits setRemoved input)
include inOrder fits

theorem inOrder_step : (source.step setRemoved input).InOrder setRemoved := by
  unfold step
  by_cases isRunning : source.running = true
  · have agrees := inOrder.agrees isRunning
    have stopped : ∀ failed, InOrder setRemoved { source with
        failed := failed, running := false } :=
      fun failed => ⟨agrees.alternates, by simp⟩
    rw [if_neg (by simp [isRunning])]
    cases input with
    | closed => exact stopped source.failed
    | update update attempts logsLost cancelled =>
      dsimp only
      split_ifs with lost
      · exact stopped true
      · obtain ⟨block, kind⟩ := update
        cases kind with
        | blockNew =>
          simp only [CacheFits] at fits ⊢
          cases fetched : fetchBlockLogs attempts with
          | none => exact inOrder
          | some logs =>
            rw [fetched] at fits
            exact InOrder.emit (agrees.announce fits.1 fits.2)
        | blockDrop =>
          simp only [CacheFits] at fits ⊢
          cases kept : source.cache.get block.hash with
          | none => exact inOrder
          | some logs =>
            rw [kept] at fits
            exact InOrder.emit (agrees.takeBack kept fits)
  · rw [if_pos (by simpa using isRunning)]
    exact inOrder

theorem consistent_of_cacheFits : source.Consistent setRemoved input := by
  have after := inOrder_step inOrder fits
  constructor
  · rintro received ⟨rest, whole⟩ hash position
    have alternates := after.alternates hash position
    rw [← whole, logFlags_append] at alternates
    exact alternates.of_append
  · rintro block attempts cancelled rfl isRunning
    have agrees := inOrder.agrees isRunning
    simp only [CacheFits] at fits
    simp only [step, isRunning, Bool.not_true, Bool.false_eq_true, if_false]
    cases kept : source.cache.get block.hash with
    | none =>
      rw [kept] at fits
      have clear : outstanding source.emitted block.hash = [] := fits.mp rfl
      cases cancelled with
      | none | some sent => simp [clear, sentUntil]
    | some logs =>
      rw [kept] at fits
      dsimp only
      rw [agrees.retraction_eq kept fits]
      cases cancelled <;> rfl

end

theorem inOrder_start : InOrder setRemoved {} where
  alternates := fun _ _ => trivial
  agrees := fun _ => by
    constructor
    · simp [logFlags, outstanding]
    · exact fun _ _ => trivial
    · exact fun _ => rfl
    all_goals
      intro hash logs kept
      cases kept

instance (source : LogsSource) (input : SourceInput) :
    Decidable (source.CacheFits setRemoved input) := by
  unfold CacheFits
  split
  · infer_instance
  · split
    · split
      · infer_instance
      · infer_instance
    · infer_instance

/-- A subscriber that was there from the start sees the events of each log alternate, and
exactly the logs that stand are taken back, as long as cache and events agree. -/
theorem logs_alternate (setRemoved : RawLog → Option RawLog) (inputs : List SourceInput)
    (fit : EachStep (step setRemoved) (CacheFits setRemoved) {} inputs) :
    EachStep (step setRemoved) (Consistent setRemoved) {} inputs := by
  have does_step : ∀ (source : LogsSource) (input : SourceInput), source.InOrder setRemoved →
      source.CacheFits setRemoved input → source.Consistent setRemoved input :=
    fun _ _ => consistent_of_cacheFits
  apply eachStep_of_eachStep does_step _ inOrder_start fit
  exact fun source input => inOrder_step

end LogsSource

namespace OneLog

def mark (raw : RawLog) : Option RawLog := some (raw ++ [1])

/-- The block of a height is announced, and its only log can be fetched or not. -/
def announce (height : UInt8) (attempts : List FetchAttempt) : SourceInput :=
  .update ⟨{ hash := [height] }, .blockNew⟩ attempts false none

def fetched (height : UInt8) : List FetchAttempt := [.upstreamError, .logs [[height]]]

def drop (height : UInt8) : SourceInput :=
  .update ⟨{ hash := [height] }, .blockDrop⟩ [] false none

def reorg : List SourceInput :=
  [announce 1 (fetched 1), announce 2 (fetched 2), drop 2, drop 1, announce 1 (fetched 1)]

def manyBlocks : List SourceInput :=
  (List.range 33).map fun height => announce height.toUInt8 (fetched height.toUInt8)

end OneLog

theorem logs_alternate_across_reorg :
    EachStep (LogsSource.step OneLog.mark) (LogsSource.CacheFits OneLog.mark) {} OneLog.reorg ∧
      EachStep (LogsSource.step OneLog.mark) (LogsSource.Consistent OneLog.mark) {}
        OneLog.reorg := by
  have fit : EachStep (LogsSource.step OneLog.mark) (LogsSource.CacheFits OneLog.mark) {}
      OneLog.reorg := by
    decide
  exact ⟨fit, LogsSource.logs_alternate OneLog.mark OneLog.reorg fit⟩

/-- A block that is dropped after thirty-two others were fetched keeps its log standing. -/
theorem evicted_logs_stand :
    let source := run (LogsSource.step OneLog.mark) {} OneLog.manyBlocks
    (outstanding source.emitted [0]).map (·.message) = [[0]] ∧
      ¬ source.Consistent OneLog.mark (OneLog.drop 0) := by
  intro source
  have stands : (outstanding source.emitted [0]).map (·.message) = [[0]] := by
    decide +kernel
  refine ⟨stands, fun consistent => ?_⟩
  have takesBack := consistent.takesBack { hash := [0] } [] none rfl (by decide +kernel)
  have silent : (source.step OneLog.mark (OneLog.drop 0)).emitted = source.emitted := by
    decide +kernel
  rw [silent, List.self_eq_append_right] at takesBack
  simp only [sentUntil, List.map_eq_nil_iff] at takesBack
  rw [takesBack] at stands
  cases stands

/-- The cache is not told of a drop: a block that comes back without its logs and is
dropped once more has them taken back twice. -/
example : logFlags (run (LogsSource.step OneLog.mark) {} [OneLog.announce 1 (OneLog.fetched 1),
    OneLog.drop 1, OneLog.announce 1 [.noUpstream], OneLog.drop 1]).emitted [1] 0 =
      [false, true, true] := by
  decide

end Nodecore.Flow
