/-
# The statistics service

Results of requests are counted by key in a holder that many requests write to
at once without a lock.  From time to time a flush puts a new holder in place,
waits until nobody writes to the old one and hands its counts over to be
uploaded.  Counts that could not be uploaded are put into an outbox and are tried
again later, several batches merged into one.
-/

import Nodecore.Lib.Run
import Nodecore.Lib.Totals

namespace Nodecore.Stats

open Lib

variable {κ ι : Type*} [DecidableEq κ]

def amount (stats : GoMap κ ℕ) (key : κ) : ℕ := (stats.lookup key).getD 0

/-- Stores the counts of one map over those of another, in the order in which it is
visited. -/
def storeAll (stats : GoMap κ ℕ) (entries : List (Entry κ ℕ)) : GoMap κ ℕ :=
  entries.foldl (fun stats entry => stats.insert entry.1 entry.2) stats

theorem lookup_storeAll (stats added : GoMap κ ℕ) (order : RangeOrder (Entry κ ℕ)) (key : κ) :
    (storeAll stats (order.visit added.entries)).lookup key =
      (added.lookup key).or (stats.lookup key) := by
  rw [storeAll, GoMap.view_foldl_visit (fun stats : GoMap κ ℕ => stats.lookup key)
    (fun count _ => some count) key]
  · cases added.lookup key <;> rfl
  · intro stats entry distinct
    exact AList.lookup_insert_ne (Ne.symm distinct)
  · intro stats count
    exact AList.lookup_insert stats

/-- A batch as it is persisted: the entries in the order in which the map was visited. -/
abbrev Batch (κ : Type*) := List (Entry κ ℕ)

def unmarshalStatsMap (batch : Batch κ) : GoMap κ ℕ := storeAll ∅ batch

abbrev Outbox (κ : Type*) := GoMap String (Batch κ)

/-- The storage behind the outbox: the hash that a batch is stored under, and whether a batch
replaces one that is stored under the same hash or is dropped. -/
structure Storage (κ : Type*) where
  hashToString : Batch κ → String
  overwrites : Bool

/-- Some of the stored items, as the storage lists them. -/
structure Listing (κ : Type*) where
  pick : List (Entry String (Batch κ)) → List (Entry String (Batch κ))
  subperm : ∀ items, (pick items).Subperm items
  few : ∀ items, (pick items).length ≤ 5

def Storage.set (storage : Storage κ) (outbox : Outbox κ) (batch : Batch κ) : Outbox κ :=
  if storage.overwrites ∨ storage.hashToString batch ∉ outbox then
    outbox.insert (storage.hashToString batch) batch
  else outbox

/-- The batches merged into one map: a count of a later batch replaces that of an earlier
one. -/
def mergeBatches (order : RangeOrder (Entry κ ℕ)) (items : List (Entry String (Batch κ))) :
    GoMap κ ℕ :=
  items.foldl
    (fun merged item => storeAll merged (order.visit (unmarshalStatsMap item.2).entries)) ∅

def batchAmount (key : κ) (batch : Batch κ) : ℕ := amount (unmarshalStatsMap batch) key

def waiting (outbox : Outbox κ) (key : κ) : ℕ := GoMap.total (batchAmount key) outbox

theorem batchAmount_visit (stats : GoMap κ ℕ) (order : RangeOrder (Entry κ ℕ)) (key : κ) :
    batchAmount key (order.visit stats.entries) = amount stats key := by
  rw [batchAmount, amount, unmarshalStatsMap, lookup_storeAll]
  simp [amount]

/-- The counts of a key in those listed batches after which another one has the key. -/
def overwritten (key : κ) : List (Entry String (Batch κ)) → ℕ
  | [] => 0
  | item :: later =>
    (if ∃ other ∈ later, key ∈ unmarshalStatsMap other.2 then batchAmount key item.2 else 0) +
      overwritten key later

/-- The count of a key in the last of the listed batches that has it. -/
def lastAmount (key : κ) (items : List (Entry String (Batch κ))) : ℕ :=
  (items.reverse.findSome? fun item => (unmarshalStatsMap item.2).lookup key).getD 0

theorem amount_mergeBatches (order : RangeOrder (Entry κ ℕ))
    (items : List (Entry String (Batch κ))) (key : κ) :
    amount (mergeBatches order items) key = lastAmount key items := by
  have loop : ∀ (items : List (Entry String (Batch κ))) (merged : GoMap κ ℕ),
      (items.foldl (fun merged item =>
          storeAll merged (order.visit (unmarshalStatsMap item.2).entries)) merged).lookup key =
        (items.reverse.findSome? fun item => (unmarshalStatsMap item.2).lookup key).or
          (merged.lookup key) := by
    intro items
    induction items with
    | nil => intro merged; rfl
    | cons item items ih =>
      intro merged
      rw [List.foldl_cons, ih, lookup_storeAll, List.reverse_cons, List.findSome?_append,
        List.findSome?_singleton, Option.or_assoc]
  rw [amount, mergeBatches, loop, AList.lookup_empty, Option.or_none, lastAmount]

/-- Of the counts in the listed batches one is kept, and all others are overwritten. -/
theorem lastAmount_add_overwritten (key : κ) (items : List (Entry String (Batch κ))) :
    lastAmount key items + overwritten key items =
      (items.map fun item => batchAmount key item.2).sum := by
  induction items with
  | nil => rfl
  | cons item later ih =>
    rw [lastAmount] at ih
    rw [lastAmount, overwritten, List.reverse_cons, List.findSome?_append,
      List.findSome?_singleton, List.map_cons, List.sum_cons]
    by_cases again : ∃ other ∈ later, key ∈ unmarshalStatsMap other.2
    · have found : (later.reverse.findSome? fun item =>
          (unmarshalStatsMap item.2).lookup key).isSome := by
        simpa [List.findSome?_isSome_iff, AList.lookup_isSome] using again
      obtain ⟨count, isCount⟩ := Option.isSome_iff_exists.mp found
      rw [isCount] at ih ⊢
      rw [if_pos again, Option.some_or]
      omega
    · have unfound : (later.reverse.findSome? fun item =>
          (unmarshalStatsMap item.2).lookup key) = none := by
        push Not at again
        rw [List.findSome?_eq_none_iff]
        intro item listed
        exact AList.lookup_eq_none.mpr (again item (List.mem_reverse.mp listed))
      rw [unfound] at ih ⊢
      rw [if_neg again, Option.none_or]
      change 0 + overwritten key later = _ at ih
      change batchAmount key item.2 + _ = _
      omega

/-- Nothing is overwritten exactly if no batch with counts of the key is followed by one that
has the key. -/
theorem overwritten_eq_zero_iff (key : κ) (items : List (Entry String (Batch κ))) :
    overwritten key items = 0 ↔ items.Pairwise fun earlier later =>
      0 < batchAmount key earlier.2 → key ∉ unmarshalStatsMap later.2 := by
  induction items with
  | nil => simp [overwritten]
  | cons item later ih =>
    rw [overwritten, Nat.add_eq_zero_iff, ih, List.pairwise_cons]
    refine and_congr_left fun _ => ?_
    by_cases again : ∃ other ∈ later, key ∈ unmarshalStatsMap other.2
    · rw [if_pos again]
      obtain ⟨other, listed, has⟩ := again
      constructor
      · intro none other _ counts
        omega
      · intro apart
        by_contra counts
        exact apart other listed (Nat.pos_of_ne_zero counts) has
    · rw [if_neg again]
      push Not at again
      exact iff_of_true rfl fun other listed _ => again other listed

structure StatsDataHolder (κ : Type*) where
  counter : ℤ := 0
  closed : Bool := false
  aggregated : GoMap κ ℕ := ∅

namespace StatsDataHolder

variable (holder : StatsDataHolder κ)

def enter : StatsDataHolder κ := { holder with counter := holder.counter + 1 }

def leave : StatsDataHolder κ := { holder with counter := holder.counter - 1 }

def close : StatsDataHolder κ := { holder with closed := true }

/-- A key that is not there is stored without counts. -/
def loadOrStore (key : κ) : StatsDataHolder κ :=
  { holder with aggregated := holder.aggregated.insert key (amount holder.aggregated key) }

def addRequest (key : κ) : StatsDataHolder κ :=
  { holder with aggregated := holder.aggregated.insert key (amount holder.aggregated key + 1) }

theorem amount_loadOrStore (key other : κ) :
    amount (holder.loadOrStore key).aggregated other = amount holder.aggregated other := by
  rw [loadOrStore, amount]
  by_cases same : other = key
  · subst same
    rw [AList.lookup_insert]
    rfl
  · rw [AList.lookup_insert_ne same]
    rfl

theorem amount_addRequest (key other : κ) :
    amount (holder.addRequest key).aggregated other =
      amount holder.aggregated other + if other = key then 1 else 0 := by
  rw [addRequest, amount]
  by_cases same : other = key
  · subst same
    rw [AList.lookup_insert, if_pos rfl]
    rfl
  · rw [AList.lookup_insert_ne same, if_neg same]
    rfl

end StatsDataHolder

/-- Where a writer of one result is.  Holders are known by their addresses. -/
inductive Writer (κ : Type*)
  | idle
  | loading (key : κ)
  | loaded (key : κ) (holder : ℕ)
  | unclosed (key : κ) (holder : ℕ)
  | counted (key : κ) (holder : ℕ)
  | confirmed (key : κ) (holder : ℕ)
  | stored (key : κ) (holder : ℕ)
  | added (holder : ℕ)
  | changed (key : κ) (holder : ℕ)

/-- Where the flush is. -/
inductive Flusher
  | idle
  | swapped (holder : ℕ)
  | waiting (holder : ℕ)
  | ready (holder : ℕ)
  deriving DecidableEq

inductive ProcessError
  | statsDataCorrupted
  | failed
  deriving DecidableEq

/-- How the upload of some counts ends: which keys got through, and the error. -/
structure Outcome (κ : Type*) where
  sent : κ → Bool
  error : Option ProcessError

/-- The service, with what was accepted and what was delivered so far. -/
structure StatsSystem (ι κ : Type*) where
  holders : ℕ → StatsDataHolder κ
  statsDataHolder : ℕ
  fresh : ℕ
  writers : ι → Writer κ
  flusher : Flusher
  outbox : Outbox κ
  accepted : κ → ℕ
  delivered : κ → ℕ

inductive StatsEvent (ι κ : Type*)
  /-- A request hands in a result of a key. -/
  | addRequestResult (writer : ι) (key : κ)
  /-- The next atomic step of a writer. -/
  | write (writer : ι)
  /-- The next atomic step of a flush; the last one uploads, and if that fails the batch is
  persisted in the order of a visit. -/
  | flush (outcome : Outcome κ) (order : RangeOrder (Entry κ ℕ))
  /-- Batches of the outbox are uploaded again. -/
  | flushUnprocessed (listing : Listing κ) (order : RangeOrder (Entry κ ℕ)) (outcome : Outcome κ)

namespace StatsSystem

def start (ι κ : Type*) : StatsSystem ι κ where
  holders _ := {}
  statsDataHolder := 0
  fresh := 1
  writers _ := .idle
  flusher := .idle
  outbox := ∅
  accepted _ := 0
  delivered _ := 0

section Steps

variable [DecidableEq ι] (system : StatsSystem ι κ)

/-- A writer moves on and leaves a holder behind. -/
def put (i : ι) (writer : Writer κ) (address : ℕ) (holder : StatsDataHolder κ) : StatsSystem ι κ :=
  { system with
    writers := Function.update system.writers i writer
    holders := Function.update system.holders address holder }

/-- The atomic steps of `AddRequestResults` for one result. -/
def write (i : ι) : StatsSystem ι κ :=
  match system.writers i with
  | .idle => system
  | .loading key =>
    system.put i (.loaded key system.statsDataHolder) system.statsDataHolder
      (system.holders system.statsDataHolder)
  | .loaded key h =>
    system.put i (if (system.holders h).closed then .loading key else .unclosed key h) h
      (system.holders h)
  | .unclosed key h =>
    system.put i (.counted key h) h (system.holders h).enter
  | .counted key h =>
    -- A holder that was changed meanwhile is left alone.
    system.put i (if system.statsDataHolder = h then .confirmed key h else .changed key h) h
      (system.holders h)
  | .changed key h =>
    system.put i (.loading key) h (system.holders h).leave
  | .confirmed key h =>
    system.put i (.stored key h) h ((system.holders h).loadOrStore key)
  | .stored key h =>
    { system.put i (.added h) h ((system.holders h).addRequest key) with
      accepted := Function.update system.accepted key (system.accepted key + 1) }
  | .added h =>
    system.put i .idle h (system.holders h).leave

def deliver (outcome : Outcome κ) (stats : GoMap κ ℕ) : κ → ℕ := fun key =>
  system.delivered key + if outcome.sent key then amount stats key else 0

/-- The atomic steps of a flush. -/
def flush (storage : Storage κ) (outcome : Outcome κ) (order : RangeOrder (Entry κ ℕ)) :
    StatsSystem ι κ :=
  match system.flusher with
  | .idle =>
    { system with
      holders := Function.update system.holders system.fresh {}
      statsDataHolder := system.fresh
      fresh := system.fresh + 1
      flusher := .swapped system.statsDataHolder }
  | .swapped h =>
    { system with
      holders := Function.update system.holders h (system.holders h).close
      flusher := .waiting h }
  | .waiting h =>
    if (system.holders h).counter = 0 then { system with flusher := .ready h } else system
  | .ready h =>
    { system with
      flusher := .idle
      delivered := system.deliver outcome (system.holders h).aggregated
      outbox :=
        if outcome.error = some .failed then
          storage.set system.outbox (order.visit (system.holders h).aggregated.entries)
        else system.outbox }

/-- Batches are tried again between two flushes; they are deleted when they got through. -/
def flushUnprocessed (listing : Listing κ) (order : RangeOrder (Entry κ ℕ)) (outcome : Outcome κ) :
    StatsSystem ι κ :=
  let items := listing.pick system.outbox.entries
  if system.flusher = .idle ∧ items ≠ [] then
    { system with
      delivered := system.deliver outcome (mergeBatches order items)
      outbox :=
        if outcome.error = none then
          (items.map Sigma.fst).foldl (fun left key => left.erase key) system.outbox
        else system.outbox }
  else system

def step (storage : Storage κ) : StatsEvent ι κ → StatsSystem ι κ
  | .addRequestResult i key =>
    match system.writers i with
    | .idle => { system with writers := Function.update system.writers i (.loading key) }
    | _ => system
  | .write i => system.write i
  | .flush outcome order => system.flush storage outcome order
  | .flushUnprocessed listing order outcome => system.flushUnprocessed listing order outcome

end Steps

end StatsSystem

end Nodecore.Stats
