/-
# The balance of the statistics service

Every accepted count is delivered, held or waiting in the outbox, up to what the
steps lose.  The first half shows that the writers and the flush do not get in
each other's way: whoever adds a count adds it to the holder in place or to one
that the flush still waits for.  The second half weighs one step after another.
-/

import Mathlib.Algebra.Order.BigOperators.Group.Finset
import Nodecore.Stats.StatsService

namespace Nodecore.Stats

open Lib StatsSystem

variable {κ ι : Type*}

variable {system : StatsSystem ι κ} {writer : Writer κ} {address h : ℕ} {i : ι}

namespace Writer

def inside : Writer κ → Option ℕ
  | idle | loading _ | loaded _ _ | unclosed _ _ => none
  | counted _ h | confirmed _ h | stored _ h | added h | changed _ h => some h

def adding : Writer κ → Option ℕ
  | confirmed _ h | stored _ h => some h
  | _ => none

def target : Writer κ → Option ℕ
  | idle | loading _ => none
  | loaded _ h | unclosed _ h | counted _ h | confirmed _ h | stored _ h | added h
  | changed _ h => some h

def window (writer : Writer κ) (h : ℕ) : ℤ := if writer.inside = some h then 1 else 0

theorem window_nonneg (writer : Writer κ) (h : ℕ) : 0 ≤ writer.window h := by
  rw [window]
  split
  · decide
  · decide

theorem inside_of_adding (adds : writer.adding = some h) : writer.inside = some h := by
  cases writer <;> first | exact adds | cases adds

theorem target_of_inside (isInside : writer.inside = some h) : writer.target = some h := by
  cases writer <;> first | exact isInside | cases isInside

end Writer

def Flusher.holder : Flusher → Option ℕ
  | idle => none
  | swapped h | waiting h | ready h => some h

/-- The flush still waits for writers of the holder. -/
def Flusher.Awaits (flusher : Flusher) (h : ℕ) : Prop := flusher = .swapped h ∨ flusher = .waiting h

section Soundness

variable [Fintype ι]

/-- The counters count the writers inside; whoever adds a count does so where it will still be
seen; and the flush works on another holder than the one in place. -/
structure Sound (system : StatsSystem ι κ) : Prop where
  counts : ∀ h, (system.holders h).counter = ∑ i, (system.writers i).window h
  alive : ∀ i h, (system.writers i).adding = some h →
    h = system.statsDataHolder ∨ system.flusher.Awaits h
  known : ∀ i h, (system.writers i).target = some h → h < system.fresh
  inPlace : system.statsDataHolder < system.fresh
  flushing : ∀ h, system.flusher.holder = some h → h < system.statsDataHolder

theorem sound_start : Sound (StatsSystem.start ι κ) where
  counts h := by simp [StatsSystem.start, Writer.window, Writer.inside]
  alive i h adds := by cases adds
  known i h isTarget := by cases isTarget
  inPlace := Nat.one_pos
  flushing h isHolder := by cases isHolder

/-- Nobody adds to a holder whose counter is zero. -/
theorem Sound.not_adding (sound : Sound system) (zero : (system.holders h).counter = 0) (i : ι) :
    (system.writers i).adding ≠ some h := by
  intro adds
  have none : ∀ j ∈ Finset.univ, (system.writers j).window h = 0 :=
    (Finset.sum_eq_zero_iff_of_nonneg fun j _ => (system.writers j).window_nonneg h).mp
      ((sound.counts h).symm.trans zero)
  have outside := none i (Finset.mem_univ i)
  rw [Writer.window, if_pos (Writer.inside_of_adding adds)] at outside
  cases outside

variable [DecidableEq ι]

theorem sum_window_update (writers : ι → Writer κ) (i : ι) (writer : Writer κ) (h : ℕ) :
    ∑ j, (Function.update writers i writer j).window h =
      (∑ j, (writers j).window h) + (writer.window h - (writers i).window h) := by
  have moved := sum_update_add (fun writer : Writer κ => writer.window h) writers i writer
  omega

theorem Sound.put (sound : Sound system) {holder : StatsDataHolder κ}
    (counter : ∀ h, writer.window h - (system.writers i).window h =
      if h = address then holder.counter - (system.holders address).counter else 0)
    (adds : ∀ h, writer.adding = some h → h = system.statsDataHolder ∨ system.flusher.Awaits h)
    (isTarget : ∀ h, writer.target = some h → h < system.fresh) :
    Sound (system.put i writer address holder) where
  counts h := by
    simp only [StatsSystem.put]
    rw [sum_window_update, ← sound.counts, counter h]
    by_cases same : h = address
    · subst same
      simp
    · simp [same]
  alive := (Function.forall_update_iff system.writers (p := fun _ writer => ∀ h,
      writer.adding = some h → h = system.statsDataHolder ∨ system.flusher.Awaits h)).mpr
    ⟨adds, fun j _ => sound.alive j⟩
  known := (Function.forall_update_iff system.writers
      (p := fun _ writer => ∀ h, writer.target = some h → h < system.fresh)).mpr
    ⟨isTarget, fun j _ => sound.known j⟩
  inPlace := sound.inPlace
  flushing := sound.flushing

theorem Sound.move (sound : Sound system) {holder : StatsDataHolder κ}
    (stays : writer.inside = (system.writers i).inside)
    (counter : holder.counter = (system.holders address).counter)
    (adds : ∀ h, writer.adding = some h → h = system.statsDataHolder ∨ system.flusher.Awaits h)
    (isTarget : ∀ h, writer.target = some h → h < system.fresh) :
    Sound (system.put i writer address holder) := by
  refine sound.put ?_ adds isTarget
  intro h
  rw [Writer.window, Writer.window, stays, counter]
  simp

section

variable (sound : Sound system) {before : Writer κ} (isBefore : system.writers i = before)
  {holder : StatsDataHolder κ}

include sound isBefore

theorem Sound.keep (stays : writer.inside = before.inside)
    (sameTarget : writer.target = before.target)
    (counter : holder.counter = (system.holders address).counter)
    (adds : ∀ h, writer.adding = some h → h = system.statsDataHolder ∨ system.flusher.Awaits h) :
    Sound (system.put i writer address holder) := by
  subst isBefore
  exact sound.move stays counter adds fun h isTarget => sound.known i h (sameTarget ▸ isTarget)

theorem Sound.leave (within : before.inside = some address) (outside : writer.inside = none)
    (notAdding : writer.adding = none) (noTarget : writer.target = none) :
    Sound (system.put i writer address (system.holders address).leave) := by
  refine sound.put ?_ (by simp [notAdding]) (by simp [noTarget])
  intro h
  rw [isBefore, Writer.window, Writer.window, within, outside]
  by_cases same : h = address
  · simp [StatsDataHolder.leave, same]
  · simp [same, Ne.symm same]

end

variable [DecidableEq κ]

theorem Sound.write (sound : Sound system) (i : ι) : Sound (system.write i) := by
  unfold StatsSystem.write
  cases isWriter : system.writers i with
  | idle => exact sound
  | loading key =>
    refine sound.move (by rw [isWriter]; rfl) rfl (fun h adds => by cases adds) ?_
    intro h isTarget
    exact Option.some.inj isTarget ▸ sound.inPlace
  | loaded key address =>
    simp only
    split
    · refine sound.move (by rw [isWriter]; rfl) rfl (fun h adds => by cases adds) ?_
      intro h isTarget
      cases isTarget
    · exact sound.keep isWriter rfl rfl rfl (fun h adds => by cases adds)
  | unclosed key address =>
    refine sound.put ?_ (fun h adds => by cases adds) ?_
    · intro h
      rw [isWriter, Writer.window, Writer.window]
      simp [Writer.inside, StatsDataHolder.enter, eq_comm]
    · intro h isTarget
      exact sound.known i h (isWriter ▸ isTarget)
  | counted key address =>
    simp only
    split
    · rename_i same
      refine sound.keep isWriter rfl rfl rfl ?_
      intro h adds
      exact .inl (Option.some.inj adds ▸ same.symm)
    · exact sound.keep isWriter rfl rfl rfl (fun h adds => by cases adds)
  | changed key address | added address => exact sound.leave isWriter rfl rfl rfl rfl
  | confirmed key address =>
    refine sound.keep isWriter rfl rfl rfl ?_
    intro h adds
    exact sound.alive i h (isWriter ▸ adds)
  | stored key address =>
    have moved : Sound (system.put i (.added address) address
        ((system.holders address).addRequest key)) :=
      sound.keep isWriter rfl rfl rfl (fun h adds => by cases adds)
    exact { moved with }

omit [DecidableEq ι] in
theorem Sound.flush {system : StatsSystem ι κ} (sound : Sound system) (storage : Storage κ)
    (outcome : Outcome κ) (order : RangeOrder (Entry κ ℕ)) :
    Sound (system.flush storage outcome order) := by
  have alive := sound.alive
  unfold Flusher.Awaits at alive
  unfold StatsSystem.flush
  cases isFlusher : system.flusher with
  | idle =>
    simp only [isFlusher, reduceCtorEq, or_false] at alive ⊢
    refine ⟨?_, ?_, ?_, Nat.lt_succ_self _, ?_⟩
    · intro h
      by_cases same : h = system.fresh
      · subst same
        simp only [Function.update_self]
        symm
        apply Finset.sum_eq_zero
        intro j _
        rw [Writer.window, if_neg]
        intro isInside
        exact absurd (sound.known j _ (Writer.target_of_inside isInside)) (lt_irrefl _)
      · simpa only [Function.update_of_ne same] using sound.counts h
    · intro i h adds
      exact .inr (.inl (alive i h adds ▸ rfl))
    · intro i h isTarget
      exact Nat.lt_succ_of_lt (sound.known i h isTarget)
    · intro h isHolder
      exact Option.some.inj isHolder ▸ sound.inPlace
  | swapped address =>
    simp only [isFlusher, reduceCtorEq, Flusher.swapped.injEq, or_false] at alive ⊢
    refine ⟨?_, ?_, sound.known, sound.inPlace, ?_⟩
    · intro h
      by_cases same : h = address
      · subst same
        simp only [Function.update_self]
        exact sound.counts h
      · simpa only [Function.update_of_ne same] using sound.counts h
    · intro i h adds
      exact (alive i h adds).imp_right fun awaited => .inr (congrArg Flusher.waiting awaited)
    · intro h isHolder
      exact sound.flushing h (isFlusher ▸ isHolder)
  | waiting address =>
    simp only [isFlusher, reduceCtorEq, Flusher.waiting.injEq, false_or] at alive ⊢
    split
    · rename_i zero
      refine ⟨sound.counts, ?_, sound.known, sound.inPlace, ?_⟩
      · intro i h adds
        refine (alive i h adds).imp_right fun awaited => ?_
        exact absurd (awaited ▸ adds) (sound.not_adding zero i)
      · intro h isHolder
        exact sound.flushing h (isFlusher ▸ isHolder)
    · exact sound
  | ready address =>
    simp only [isFlusher, reduceCtorEq, or_false] at alive
    refine ⟨sound.counts, ?_, sound.known, sound.inPlace, fun h isHolder => by cases isHolder⟩
    exact fun i h adds => .inl (alive i h adds)

theorem Sound.step (sound : Sound system) (storage : Storage κ) (event : StatsEvent ι κ) :
    Sound (system.step storage event) := by
  cases event with
  | addRequestResult i key =>
    unfold StatsSystem.step
    simp only
    split
    · rename_i isIdle
      have moved : Sound (system.put i (.loading key) 0 (system.holders 0)) :=
        sound.move (by rw [isIdle]; rfl) rfl (fun h adds => by cases adds)
          (fun h isTarget => by cases isTarget)
      simpa [StatsSystem.put] using moved
    · exact sound
  | write i => exact sound.write i
  | flush outcome order => exact sound.flush storage outcome order
  | flushUnprocessed listing order outcome =>
    unfold StatsSystem.step flushUnprocessed
    simp only
    split
    · exact { sound with }
    · exact sound

end Soundness

section Balance

variable [DecidableEq κ]

namespace StatsSystem

variable (system : StatsSystem ι κ) (key : κ)

def inFlush : ℕ :=
  match system.flusher.holder with
  | some h => amount (system.holders h).aggregated key
  | none => 0

def inHolder : ℕ := amount (system.holders system.statsDataHolder).aggregated key

/-- Where the accepted counts of a key are. -/
def accounted : ℕ :=
  system.delivered key + system.inHolder key + system.inFlush key + waiting system.outbox key

end StatsSystem

/-- What storing a batch drops: the batch that was under its hash, or else the batch itself. -/
def Storage.dropped (storage : Storage κ) (outbox : Outbox κ) (batch : Batch κ) (key : κ) : ℕ :=
  if storage.hashToString batch ∈ outbox then
    if storage.overwrites then
      ((outbox.lookup (storage.hashToString batch)).map (batchAmount key)).getD 0
    else batchAmount key batch
  else 0

variable [DecidableEq ι]

/-- The counts of a key that a step loses: what storing a failed batch drops, what a corrupted
snapshot or a successful upload leaves out, and what the batches of a retry overwrite. -/
def lostBy (storage : Storage κ) (system : StatsSystem ι κ) (key : κ) : StatsEvent ι κ → ℕ
  | .addRequestResult _ _ => 0
  | .write _ => 0
  | .flush outcome order =>
    match system.flusher with
    | .ready h =>
      if outcome.error = some .failed then
        storage.dropped system.outbox (order.visit (system.holders h).aggregated.entries) key
      else if outcome.sent key then 0 else amount (system.holders h).aggregated key
    | _ => 0
  | .flushUnprocessed listing _ outcome =>
    if system.flusher = .idle ∧ outcome.error = none then
      if outcome.sent key then overwritten key (listing.pick system.outbox.entries)
      else ((listing.pick system.outbox.entries).map fun item => batchAmount key item.2).sum
    else 0

/-- The counts of a key that a step delivers although they stay to be tried again. -/
def repeatedBy (system : StatsSystem ι κ) (key : κ) : StatsEvent ι κ → ℕ
  | .addRequestResult _ _ => 0
  | .write _ => 0
  | .flush outcome _ =>
    match system.flusher with
    | .ready h =>
      if outcome.error = some .failed ∧ outcome.sent key then
        amount (system.holders h).aggregated key
      else 0
    | _ => 0
  | .flushUnprocessed listing _ outcome =>
    if system.flusher = .idle ∧ outcome.error ≠ none ∧ outcome.sent key then
      lastAmount key (listing.pick system.outbox.entries)
    else 0

theorem waiting_set_add_dropped (storage : Storage κ) (outbox : Outbox κ) (batch : Batch κ)
    (key : κ) :
    waiting (storage.set outbox batch) key + storage.dropped outbox batch key =
      waiting outbox key + batchAmount key batch := by
  have erased := GoMap.total_erase_add (batchAmount key) outbox (storage.hashToString batch)
  rw [Storage.set, Storage.dropped]
  by_cases held : storage.hashToString batch ∈ outbox
  · by_cases overwrites : storage.overwrites = true
    · rw [if_pos (.inl overwrites), if_pos held, if_pos overwrites, waiting, GoMap.total_insert,
        waiting]
      omega
    · rw [if_neg (by simp [held, overwrites]), if_pos held, if_neg overwrites]
  · rw [if_pos (.inr held), if_neg held, waiting, GoMap.total_insert, waiting]
    rw [AList.lookup_eq_none.mpr held] at erased
    simp only [Option.map_none, Option.getD_none] at erased
    omega

theorem amount_put (system : StatsSystem ι κ) (i : ι) (writer : Writer κ) (address : ℕ)
    (holder : StatsDataHolder κ) (h : ℕ) (key : κ) :
    amount ((system.put i writer address holder).holders h).aggregated key =
      if h = address then amount holder.aggregated key
      else amount (system.holders h).aggregated key := by
  rw [StatsSystem.put]
  by_cases same : h = address
  · subst same
    simp
  · simp [same]

theorem accounted_put (system : StatsSystem ι κ) {holder : StatsDataHolder κ} {key : κ}
    (same : amount holder.aggregated key = amount (system.holders address).aggregated key) :
    (system.put i writer address holder).accounted key + system.accepted key =
      system.accounted key + (system.put i writer address holder).accepted key := by
  have kept : ∀ h, amount ((system.put i writer address holder).holders h).aggregated key =
      amount (system.holders h).aggregated key := by
    intro h
    rw [amount_put]
    split
    · rename_i isAddress
      rw [same, isAddress]
    · rfl
  have inHolder : (system.put i writer address holder).inHolder key = system.inHolder key :=
    kept system.statsDataHolder
  have inFlush : (system.put i writer address holder).inFlush key = system.inFlush key := by
    unfold inFlush
    have flusher : (system.put i writer address holder).flusher = system.flusher := rfl
    rw [flusher]
    split
    · exact kept _
    · rfl
  rw [accounted, accounted, inHolder, inFlush]
  rfl

theorem accounted_addRequest [Fintype ι] (sound : Sound system) {added key : κ}
    (alive : address = system.statsDataHolder ∨ system.flusher.Awaits address) :
    (system.put i writer address ((system.holders address).addRequest added)).accounted key =
      system.accounted key + if key = added then 1 else 0 := by
  have put := amount_put system i writer address ((system.holders address).addRequest added)
  simp only [accounted, inHolder, inFlush]
  have kept : (system.put i writer address ((system.holders address).addRequest added)).flusher =
      system.flusher := rfl
  have inPlace : (system.put i writer address
      ((system.holders address).addRequest added)).statsDataHolder = system.statsDataHolder := rfl
  have outbox : (system.put i writer address
      ((system.holders address).addRequest added)).outbox = system.outbox := rfl
  have delivered : (system.put i writer address
      ((system.holders address).addRequest added)).delivered = system.delivered := rfl
  rw [kept, inPlace, outbox, delivered, put, StatsDataHolder.amount_addRequest]
  rcases alive with rfl | awaits
  · rw [if_pos rfl]
    have other : ∀ h, system.flusher.holder = some h → h ≠ system.statsDataHolder := fun h isHolder =>
      (sound.flushing h isHolder).ne
    cases isHolder : system.flusher.holder with
    | none => simp only; omega
    | some h =>
      simp only
      rw [put, if_neg (other h isHolder)]
      omega
  · have isHolder : system.flusher.holder = some address := by
      rcases awaits with isFlusher | isFlusher
      · rw [isFlusher]; rfl
      · rw [isFlusher]; rfl
    rw [if_neg (sound.flushing address isHolder).ne', isHolder]
    simp only
    rw [put, if_pos rfl, StatsDataHolder.amount_addRequest]
    omega

theorem accounted_write [Fintype ι] (sound : Sound system) (i : ι) (key : κ) :
    (system.write i).accounted key + system.accepted key =
      system.accounted key + (system.write i).accepted key := by
  unfold StatsSystem.write
  cases isWriter : system.writers i with
  | idle => rfl
  | loading | loaded | unclosed | counted | changed | added => exact accounted_put system rfl
  | confirmed added h => exact accounted_put system ((system.holders h).amount_loadOrStore added key)
  | stored added h =>
    have alive := sound.alive i h (by rw [isWriter]; rfl)
    have counted : (system.put i (.added h) h ((system.holders h).addRequest added)).accounted key =
        system.accounted key + if key = added then 1 else 0 := accounted_addRequest sound alive
    change (system.put i (.added h) h ((system.holders h).addRequest added)).accounted key +
        system.accepted key = system.accounted key +
          Function.update system.accepted added (system.accepted added + 1) key
    rw [counted]
    by_cases same : key = added
    · subst same
      rw [if_pos rfl, Function.update_self]
      omega
    · rw [if_neg same, Function.update_of_ne same, Nat.add_zero]

omit [DecidableEq ι] in
theorem accounted_flush [Fintype ι] {system : StatsSystem ι κ} (sound : Sound system)
    (storage : Storage κ) (outcome : Outcome κ) (order : RangeOrder (Entry κ ℕ)) (key : κ) :
    (system.flush storage outcome order).accounted key +
        lostBy storage system key (.flush outcome order) =
      system.accounted key + repeatedBy system key (.flush outcome order) := by
  unfold StatsSystem.flush lostBy repeatedBy
  cases isFlusher : system.flusher with
  | idle =>
    -- The holder in place becomes the one of the flush, and the new one is empty.
    have old : system.statsDataHolder ≠ system.fresh := sound.inPlace.ne
    simp only [accounted, inHolder, inFlush, Flusher.holder,
      isFlusher, Function.update_self, Function.update_of_ne old]
    simp [amount]
  | swapped h =>
    have same : ∀ address, amount (Function.update system.holders h (system.holders h).close
        address).aggregated key = amount (system.holders address).aggregated key := by
      intro address
      by_cases isAddress : address = h
      · subst isAddress
        rw [Function.update_self]
        rfl
      · rw [Function.update_of_ne isAddress]
    simp only [accounted, inHolder, inFlush, Flusher.holder,
      isFlusher, same]
  | waiting h =>
    simp only
    split
    · simp only [accounted, inHolder, inFlush, Flusher.holder,
        isFlusher]
    · rfl
  | ready h =>
    have stored := waiting_set_add_dropped storage system.outbox
      (order.visit (system.holders h).aggregated.entries) key
    rw [batchAmount_visit] at stored
    simp only [accounted, inHolder, inFlush, Flusher.holder,
      isFlusher, deliver]
    by_cases failed : outcome.error = some .failed
    · simp only [failed, if_true, true_and]
      split
      · omega
      · omega
    · simp only [failed, if_false, false_and]
      split
      · omega
      · omega

omit [DecidableEq ι] in
theorem accounted_flushUnprocessed (system : StatsSystem ι κ) (storage : Storage κ)
    (listing : Listing κ) (order : RangeOrder (Entry κ ℕ)) (outcome : Outcome κ) (key : κ) :
    (system.flushUnprocessed listing order outcome).accounted key +
        lostBy storage system key (.flushUnprocessed listing order outcome) =
      system.accounted key +
        repeatedBy system key (.flushUnprocessed listing order outcome) := by
  have merged := lastAmount_add_overwritten key (listing.pick system.outbox.entries)
  have removed : waiting (((listing.pick system.outbox.entries).map Sigma.fst).foldl
        (fun left key => left.erase key) system.outbox) key +
      ((listing.pick system.outbox.entries).map fun item => batchAmount key item.2).sum =
        waiting system.outbox key :=
    GoMap.total_foldl_erase_add (batchAmount key) system.outbox
      (listing.subperm system.outbox.entries)
  unfold flushUnprocessed lostBy repeatedBy
  by_cases idle : system.flusher = .idle
  · by_cases unlisted : listing.pick system.outbox.entries = []
    · simp [unlisted, overwritten, lastAmount]
    · by_cases through : outcome.error = none
      · simp only [idle, unlisted, through, ne_eq, not_false_eq_true, not_true_eq_false, and_self,
          false_and, and_false, if_true, if_false, accounted, inHolder,
          inFlush, deliver, amount_mergeBatches]
        split
        · omega
        · omega
      · simp only [idle, unlisted, through, ne_eq, not_false_eq_true, true_and, and_true, and_false,
          if_true, if_false, accounted, inHolder, inFlush,
          deliver, amount_mergeBatches]
        split
        · omega
        · omega
  · simp [idle]

/-- The balance of one step: what is accounted for and what the step loses make up what was
accounted for, what it repeats and what it accepts. -/
theorem accounted_step [Fintype ι] (sound : Sound system) (storage : Storage κ)
    (event : StatsEvent ι κ) (key : κ) :
    (system.step storage event).accounted key + lostBy storage system key event +
        system.accepted key =
      system.accounted key + repeatedBy system key event +
        (system.step storage event).accepted key := by
  cases event with
  | addRequestResult i added =>
    unfold StatsSystem.step
    simp only
    split
    · rfl
    · rfl
  | write i => exact accounted_write sound i key
  | flush outcome order =>
    have accepted : (system.flush storage outcome order).accepted = system.accepted := by
      unfold StatsSystem.flush
      split
      · rfl
      · rfl
      · split
        · rfl
        · rfl
      · rfl
    have flushed := accounted_flush sound storage outcome order key
    simp only [StatsSystem.step, accepted]
    omega
  | flushUnprocessed listing order outcome =>
    have accepted : (system.flushUnprocessed listing order outcome).accepted = system.accepted := by
      unfold flushUnprocessed
      simp only
      split
      · rfl
      · rfl
    have retried := accounted_flushUnprocessed system storage listing order outcome key
    simp only [StatsSystem.step, accepted]
    omega

/-- What the steps of a run lose of a key, and what they repeat. -/
def drift (storage : Storage κ) (key : κ) : StatsSystem ι κ → List (StatsEvent ι κ) → ℕ × ℕ
  | _, [] => (0, 0)
  | system, event :: events =>
    (lostBy storage system key event, repeatedBy system key event) +
      drift storage key (system.step storage event) events

/-- However writers, flushes and retries interleave, and whatever part of an upload arrives,
the counts accounted for differ from the accepted ones by what the steps lost and repeated. -/
theorem ledger_balances [Fintype ι] (storage : Storage κ) (key : κ)
    (events : List (StatsEvent ι κ)) :
    let last := run (·.step storage) (StatsSystem.start ι κ) events
    let found := drift storage key (.start ι κ) events
    last.accounted key + found.1 = last.accepted key + found.2 := by
  have balances (system : StatsSystem ι κ) (sound : Sound system) :
      let last := run (·.step storage) system events
      let found := drift storage key system events
      last.accounted key + found.1 + system.accepted key =
        last.accepted key + found.2 + system.accounted key := by
    induction events generalizing system with
    | nil => simp [drift, Nat.add_comm]
    | cons event events ih =>
      have later := ih _ (sound.step storage event)
      have here := accounted_step sound storage event key
      simp only [run_cons, drift, Prod.fst_add, Prod.snd_add]
      omega
  exact balances _ sound_start

end Balance

/-- Events in which an upload delivers all that has an owner or nothing. -/
inductive WholeEvent (ι κ : Type*)
  | addRequestResult (writer : ι) (key : κ)
  | write (writer : ι)
  | flush (owned : κ → Bool) (error : Option ProcessError) (order : RangeOrder (Entry κ ℕ))
  | flushUnprocessed (listing : Listing κ) (order : RangeOrder (Entry κ ℕ)) (owned : κ → Bool)
      (error : Option ProcessError)

/-- Everything with an owner is delivered unless there is an error. -/
def wholly (owned : κ → Bool) (error : Option ProcessError) : Outcome κ :=
  ⟨fun key => error.isNone && owned key, error⟩

def WholeEvent.toEvent : WholeEvent ι κ → StatsEvent ι κ
  | addRequestResult writer key => .addRequestResult writer key
  | write writer => .write writer
  | flush owned error order => .flush (wholly owned error) order
  | flushUnprocessed listing order owned error =>
    .flushUnprocessed listing order (wholly owned error)

section Whole

variable [DecidableEq κ] [DecidableEq ι]

/-- What a step must meet so that no count of the key gets lost.  A snapshot with the key is
not reported corrupted, and its upload does not pass the key by; a failed batch finds no other
one under its hash; and of the batches of a retry no two have the key. -/
def Keeps (storage : Storage κ) (system : StatsSystem ι κ) (key : κ) : WholeEvent ι κ → Prop
  | .addRequestResult _ _ => True
  | .write _ => True
  | .flush owned error order => ∀ h, system.flusher = .ready h →
    let snapshot := (system.holders h).aggregated
    match error with
    | none => owned key = true ∨ amount snapshot key = 0
    | some .statsDataCorrupted => amount snapshot key = 0
    | some .failed =>
      ∀ stored ∈ system.outbox.lookup (storage.hashToString (order.visit snapshot.entries)),
        if storage.overwrites then batchAmount key stored = 0 else amount snapshot key = 0
  | .flushUnprocessed listing _ owned error => system.flusher = .idle → error = none →
    (owned key = true ∨ ∀ item ∈ listing.pick system.outbox.entries, batchAmount key item.2 = 0) ∧
      (listing.pick system.outbox.entries).Pairwise fun earlier later =>
        0 < batchAmount key earlier.2 → key ∉ unmarshalStatsMap later.2

omit [DecidableEq ι] in
theorem dropped_eq_zero_iff (storage : Storage κ) (outbox : Outbox κ) (batch : Batch κ) (key : κ) :
    storage.dropped outbox batch key = 0 ↔
      ∀ stored ∈ outbox.lookup (storage.hashToString batch),
        if storage.overwrites then batchAmount key stored = 0 else batchAmount key batch = 0 := by
  rw [Storage.dropped]
  cases found : outbox.lookup (storage.hashToString batch) with
  | none =>
    rw [if_neg (AList.lookup_eq_none.mp found)]
    simp
  | some stored =>
    rw [if_pos (AList.lookup_isSome.mp (found ▸ rfl))]
    cases storage.overwrites
    · simp
    · simp

omit [DecidableEq ι] in
theorem lostBy_eq_zero_iff (storage : Storage κ) (system : StatsSystem ι κ) (key : κ)
    (event : WholeEvent ι κ) :
    lostBy storage system key event.toEvent = 0 ↔ Keeps storage system key event := by
  cases event with
  | addRequestResult writer added => simp [WholeEvent.toEvent, lostBy, Keeps]
  | write writer => simp [WholeEvent.toEvent, lostBy, Keeps]
  | flush owned error order =>
    simp only [WholeEvent.toEvent, lostBy, Keeps, wholly]
    cases system.flusher with
    | ready h =>
      simp only [Flusher.ready.injEq, forall_eq']
      rcases error with _ | _ | _
      · by_cases isOwned : owned key = true <;> simp [isOwned]
      · simp
      · rw [if_pos rfl, dropped_eq_zero_iff, batchAmount_visit]
    | idle | swapped | waiting => simp
  | flushUnprocessed listing order owned error =>
    simp only [WholeEvent.toEvent, lostBy, Keeps, wholly]
    by_cases tried : system.flusher = .idle ∧ error = none
    · obtain ⟨idle, rfl⟩ := tried
      rw [if_pos ⟨idle, rfl⟩]
      simp only [idle, forall_const, Option.isNone_none, Bool.true_and]
      cases owned key
      · simp only [Bool.false_eq_true, if_false, false_or, List.sum_eq_zero_iff, List.forall_mem_map]
        refine (and_iff_left_of_imp fun none => ?_).symm
        refine List.pairwise_iff_forall_sublist.mpr fun {earlier later} taken counts => ?_
        rw [none earlier (taken.subset List.mem_cons_self)] at counts
        exact absurd counts (lt_irrefl _)
      · simp only [if_true, true_or, true_and, overwritten_eq_zero_iff]
    · rw [if_neg tried]
      exact iff_of_true rfl fun idle through => absurd ⟨idle, through⟩ tried

omit [DecidableEq ι] in
theorem repeatedBy_toEvent (system : StatsSystem ι κ) (key : κ) (event : WholeEvent ι κ) :
    repeatedBy system key event.toEvent = 0 := by
  cases event with
  | addRequestResult writer added => rfl
  | write writer => rfl
  | flush owned error order =>
    simp only [WholeEvent.toEvent, repeatedBy, wholly]
    split
    · cases error <;> simp
    · rfl
  | flushUnprocessed listing order owned error =>
    cases error <;> simp [WholeEvent.toEvent, repeatedBy, wholly]

/-- One step with such an upload. -/
def stepWhole (storage : Storage κ) (system : StatsSystem ι κ) (event : WholeEvent ι κ) :
    StatsSystem ι κ := system.step storage event.toEvent

/-- Along every interleaving of writers, flushes and retries the delivered, held and waiting
counts of a key make up the accepted ones exactly as long as every step keeps them. -/
theorem conserved_iff_nothing_lost [Fintype ι] (storage : Storage κ) (key : κ)
    (events : List (WholeEvent ι κ)) :
    AfterEach (stepWhole storage)
        (fun system => system.accounted key = system.accepted key)
        (StatsSystem.start ι κ) events ↔
      EachStep (stepWhole storage) (fun system event => Keeps storage system key event)
        (StatsSystem.start ι κ) events := by
  have preserved (system : StatsSystem ι κ) (event : WholeEvent ι κ) (sound : Sound system) :
      Sound (stepWhole storage system event) := sound.step storage event.toEvent
  refine afterEach_iff_eachStep preserved ?_ sound_start (by rfl) events
  intro system event sound balanced
  have step := accounted_step sound storage event.toEvent key
  rw [repeatedBy_toEvent] at step
  rw [stepWhole, ← lostBy_eq_zero_iff]
  omega

end Whole

def replacing : Storage ℕ where
  hashToString batch :=
    batch.foldl (fun text entry => text ++ toString entry.1 ++ ":" ++ toString entry.2 ++ ",") ""
  overwrites := true

def counts (key : ℕ) : List (WholeEvent Unit ℕ) :=
  .addRequestResult () key :: List.replicate 7 (.write ())

def failedFlush : List (WholeEvent Unit ℕ) :=
  List.replicate 4 (.flush (fun _ => true) (some .failed) (.stored _))

def firstFive : Listing κ where
  pick items := items.take 5
  subperm items := (List.take_sublist 5 items).subperm
  few items := List.length_take_le 5 items

/-- Two failed batches with the same counts are stored under one hash; and of two batches with
different counts of a key only one is delivered when both got through. -/
theorem failed_batches_lost :
    (let system := run (stepWhole replacing) (StatsSystem.start Unit ℕ)
        (counts 1 ++ failedFlush ++ counts 1 ++ failedFlush);
      system.accepted 1 = 2 ∧ system.accounted 1 = 1) ∧
    (let system := run (stepWhole replacing) (StatsSystem.start Unit ℕ)
        (counts 1 ++ failedFlush ++ counts 1 ++ counts 1 ++ failedFlush ++
          [.flushUnprocessed firstFive (.stored _) (fun _ => true) none]);
      system.accepted 1 = 3 ∧ system.accounted 1 < 3) := by
  decide +kernel

end Nodecore.Stats
