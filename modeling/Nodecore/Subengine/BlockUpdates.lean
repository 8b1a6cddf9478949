/-
# Block updates

The tracker turns the heads of a chain into announcements and drops of blocks.  It
remembers the block it announced last at a height, in a ring of eighteen slots
indexed by the height, and judges a head by what the ring has at the head's own
height or, for a direct successor of the tip, by the parent.

A reorg from some height drops what the ring has from there up to the tip, but no
further down than the seventeen heights below the tip, although after a gap in the
heights the ring still holds blocks from far below.  Only blocks are dropped that were
announced and still stood, from the highest down; the last result says when a reorg
leaves none of its orphans behind.
-/

import Nodecore.Lib.DirectMapped
import Nodecore.Lib.Run
import Nodecore.Protocol.Block

namespace Nodecore.Subengine

open Lib Protocol

inductive UpdateKind
  | blockNew | blockDrop
  deriving DecidableEq, Repr

structure BlockUpdate where
  block : Block
  kind : UpdateKind
  deriving DecidableEq, Repr

def historyRingSize : UInt64 := 18

def ringIndex (height : UInt64) : UInt64 := height % historyRingSize

/-- The hash announced last for a height. -/
abbrev HistoryRing := DirectMapped ringIndex (List UInt8)

/-- The ring, and the height of the tip once there is one. -/
structure BlockTracker where
  ring : HistoryRing
  tip : Option UInt64

def newBlockTracker : BlockTracker := ⟨.empty, none⟩

/-- The lowest announced height that a block orphans, if it orphans any. -/
def reorgPoint (ring : HistoryRing) (tipH : UInt64) (block : Block) : Option UInt64 :=
  if tipH < block.height then
    if block.height = tipH + 1 ∧ block.parentHash ≠ [] then
      match ring.get tipH with
      | some hash => if hash ≠ block.parentHash then some tipH else none
      | none => none
    else none
  else if (ring.get block.height).isSome then some block.height else none

/-- The lowest height a reorg drops. -/
def lowestDropped (tipH reorgFrom : UInt64) : UInt64 :=
  if historyRingSize ≤ tipH ∧ reorgFrom < tipH - historyRingSize + 1 then
    tipH - historyRingSize + 1
  else reorgFrom

def heightsDown (tipH low : UInt64) : List UInt64 :=
  (List.range (tipH.toNat + 1 - low.toNat)).map fun below => tipH - UInt64.ofNat below

def dropOf (height : UInt64) (hash : List UInt8) : BlockUpdate :=
  ⟨{ height := height, hash := hash }, .blockDrop⟩

def dropHeight (state : HistoryRing × List BlockUpdate) (height : UInt64) :
    HistoryRing × List BlockUpdate :=
  match state.1.get height with
  | some hash => (state.1.clearKept height, state.2 ++ [dropOf height hash])
  | none => state

def dropFrom (ring : HistoryRing) (tipH reorgFrom : UInt64) : HistoryRing × List BlockUpdate :=
  (heightsDown tipH (lowestDropped tipH reorgFrom)).foldl dropHeight (ring, [])

namespace BlockTracker

variable (tracker : BlockTracker) (block : Block)

/-- The block is announced and becomes the tip. -/
def announce (ring : HistoryRing) (drops : List BlockUpdate) : BlockTracker × List BlockUpdate :=
  (⟨ring.put block.height block.hash, some block.height⟩, drops ++ [⟨block, .blockNew⟩])

/-- The height from which a head is handled as a reorg. -/
def reorgsFrom : Option UInt64 :=
  match tracker.tip with
  | none => none
  | some tipH =>
    if block.hash = [] ∨ tracker.ring.get block.height = some block.hash then none
    else reorgPoint tracker.ring tipH block

def advance : BlockTracker × List BlockUpdate :=
  if block.hash = [] then (tracker, [])
  else
    match tracker.tip with
    | none => announce block tracker.ring []
    | some tipH =>
      if tracker.ring.get block.height = some block.hash then (tracker, [])
      else
        match reorgPoint tracker.ring tipH block with
        | some reorgFrom =>
          let dropped := dropFrom tracker.ring tipH reorgFrom
          announce block dropped.1 dropped.2
        | none =>
          if tipH < block.height then announce block tracker.ring [] else (tracker, [])

/-- The ways a head is handled. -/
inductive Advance : BlockTracker × List BlockUpdate → Prop
  | ignored (calm : tracker.reorgsFrom block = none) : Advance (tracker, [])
  | announces (calm : tracker.reorgsFrom block = none)
      (above : ∀ tipH, tracker.tip = some tipH → tipH < block.height) :
      Advance (announce block tracker.ring [])
  | reorgs {tipH reorgFrom : UInt64} (isTip : tracker.tip = some tipH)
      (point : reorgPoint tracker.ring tipH block = some reorgFrom)
      (starts : tracker.reorgsFrom block = some reorgFrom) :
      Advance (announce block (dropFrom tracker.ring tipH reorgFrom).1
        (dropFrom tracker.ring tipH reorgFrom).2)

theorem advance_cases : tracker.Advance block (tracker.advance block) := by
  rw [advance]
  cases isTip : tracker.tip with
  | none =>
    have calm : tracker.reorgsFrom block = none := by simp [reorgsFrom, isTip]
    dsimp only
    split_ifs with hashless
    · exact .ignored calm
    · exact .announces calm (by simp [isTip])
  | some tipH =>
    dsimp only
    by_cases skipped : block.hash = [] ∨ tracker.ring.get block.height = some block.hash
    · have calm : tracker.reorgsFrom block = none := by simp [reorgsFrom, isTip, skipped]
      rcases skipped with hashless | known
      · simpa [hashless] using Advance.ignored calm
      · simpa [known] using Advance.ignored calm
    · have judged : tracker.reorgsFrom block = reorgPoint tracker.ring tipH block := by
        simp [reorgsFrom, isTip, skipped]
      rw [not_or] at skipped
      rw [if_neg skipped.1, if_neg skipped.2]
      cases point : reorgPoint tracker.ring tipH block with
      | some reorgFrom => exact .reorgs isTip point (judged.trans point)
      | none =>
        dsimp only
        split_ifs with above
        · refine .announces (judged.trans point) ?_
          rintro _ isTip'
          cases isTip.symm.trans isTip'
          exact above
        · exact .ignored (judged.trans point)

end BlockTracker

theorem toNat_sub_ofNat {tipH : UInt64} {below : ℕ} (under : below ≤ tipH.toNat) :
    (tipH - UInt64.ofNat below).toNat = tipH.toNat - below := by
  have exactly : (UInt64.ofNat below).toNat = below :=
    UInt64.toNat_ofNat_of_lt' (under.trans_lt tipH.toNat_lt)
  rw [UInt64.toNat_sub_of_le _ _ (by rwa [UInt64.le_iff_toNat_le, exactly]), exactly]

theorem mem_heightsDown {tipH low height : UInt64} :
    height ∈ heightsDown tipH low ↔ low ≤ height ∧ height ≤ tipH := by
  simp only [heightsDown, List.mem_map, List.mem_range, UInt64.le_iff_toNat_le]
  constructor
  · rintro ⟨below, inside, rfl⟩
    rw [toNat_sub_ofNat (by omega)]
    omega
  · rintro ⟨above, under⟩
    refine ⟨tipH.toNat - height.toNat, by omega, UInt64.toNat_inj.mp ?_⟩
    rw [toNat_sub_ofNat (by omega)]
    omega

theorem pairwise_heightsDown (tipH low : UInt64) :
    (heightsDown tipH low).Pairwise fun first second => second < first := by
  rw [heightsDown, List.pairwise_map]
  apply List.pairwise_lt_range.imp_of_mem
  intro first second _ listed further
  rw [List.mem_range] at listed
  rw [UInt64.lt_iff_toNat_lt, toNat_sub_ofNat (by omega), toNat_sub_ofNat (by omega)]
  omega

theorem get_foldl_dropHeight (heights : List UInt64) (ring : HistoryRing)
    (drops : List BlockUpdate) (height : UInt64) :
    (heights.foldl dropHeight (ring, drops)).1.get height =
      if height ∈ heights then none else ring.get height := by
  induction heights generalizing ring drops with
  | nil => simp
  | cons first heights ih =>
    rw [List.foldl_cons, dropHeight]
    cases kept : ring.get first with
    | none =>
      by_cases same : height = first
      · subst same
        simp [ih, kept]
      · simp [ih, same]
    | some hash =>
      by_cases same : height = first
      · subst same
        simp [ih]
      · simp [ih, same, DirectMapped.get_clearKept_of_ne ring same]

theorem snd_foldl_dropHeight {heights : List UInt64} (nodup : heights.Nodup) (ring : HistoryRing)
    (drops : List BlockUpdate) :
    (heights.foldl dropHeight (ring, drops)).2 =
      drops ++ heights.filterMap fun height => (ring.get height).map (dropOf height) := by
  induction heights generalizing ring drops with
  | nil => simp
  | cons first heights ih =>
    obtain ⟨fresh, nodup⟩ := List.nodup_cons.mp nodup
    rw [List.foldl_cons, dropHeight]
    cases kept : ring.get first with
    | none => simp [ih nodup, kept]
    | some hash =>
      have rest : (heights.filterMap fun height =>
          ((ring.clearKept first).get height).map (dropOf height)) =
          heights.filterMap fun height => (ring.get height).map (dropOf height) := by
        apply List.filterMap_congr
        intro height listed
        rw [DirectMapped.get_clearKept_of_ne ring (ne_of_mem_of_not_mem listed fresh)]
      simp [ih nodup, kept, rest]

variable {update : BlockUpdate}

section

variable {ring : HistoryRing} {tipH reorgFrom height : UInt64}

theorem get_dropFrom : (dropFrom ring tipH reorgFrom).1.get height =
    if lowestDropped tipH reorgFrom ≤ height ∧ height ≤ tipH then none else ring.get height := by
  rw [dropFrom, get_foldl_dropHeight]
  simp only [mem_heightsDown]

theorem snd_dropFrom : (dropFrom ring tipH reorgFrom).2 =
    (heightsDown tipH (lowestDropped tipH reorgFrom)).filterMap fun height =>
      (ring.get height).map (dropOf height) := by
  have nodup : (heightsDown tipH (lowestDropped tipH reorgFrom)).Nodup :=
    (pairwise_heightsDown tipH _).imp fun above => (UInt64.ne_of_lt above).symm
  rw [dropFrom, snd_foldl_dropHeight nodup, List.nil_append]

theorem mem_dropFrom : update ∈ (dropFrom ring tipH reorgFrom).2 ↔
    ∃ height hash, (lowestDropped tipH reorgFrom ≤ height ∧ height ≤ tipH) ∧
      ring.get height = some hash ∧ update = dropOf height hash := by
  simp only [snd_dropFrom, List.mem_filterMap, mem_heightsDown, Option.map_eq_some_iff]
  constructor
  · rintro ⟨height, inside, hash, kept, rfl⟩
    exact ⟨height, hash, inside, kept, rfl⟩
  · rintro ⟨height, hash, inside, kept, rfl⟩
    exact ⟨height, inside, hash, kept, rfl⟩

theorem pairwise_dropFrom : (dropFrom ring tipH reorgFrom).2.Pairwise fun first second =>
    second.block.height < first.block.height := by
  rw [snd_dropFrom]
  apply (pairwise_heightsDown tipH _).filterMap
  intro first second above drop isDrop other isOther
  obtain ⟨_, _, rfl⟩ := Option.map_eq_some_iff.mp isDrop
  obtain ⟨_, _, rfl⟩ := Option.map_eq_some_iff.mp isOther
  exact above

theorem reorgPoint_cases {block : Block} (point : reorgPoint ring tipH block = some reorgFrom) :
    (reorgFrom = tipH ∧ tipH < block.height) ∨
      (reorgFrom = block.height ∧ block.height ≤ tipH ∧ (ring.get block.height).isSome) := by
  unfold reorgPoint at point
  split_ifs at point with above successor kept
  · split at point
    · split_ifs at point
      cases point
      exact .inl ⟨rfl, above⟩
    · cases point
  · cases point
    exact .inr ⟨rfl, UInt64.not_lt.mp above, kept⟩

theorem lt_window_iff (deep : historyRingSize ≤ tipH) :
    reorgFrom < tipH - historyRingSize + 1 ↔
      reorgFrom.toNat + historyRingSize.toNat ≤ tipH.toNat := by
  have difference := UInt64.toNat_sub_of_le tipH historyRingSize deep
  have bound := tipH.toNat_lt
  simp only [historyRingSize, UInt64.le_iff_toNat_le, UInt64.lt_iff_toNat_lt, UInt64.toNat_add,
    UInt64.reduceToNat] at *
  omega

theorem lowestDropped_of_window (window : tipH.toNat < reorgFrom.toNat + historyRingSize.toNat) :
    lowestDropped tipH reorgFrom = reorgFrom := by
  rw [lowestDropped, if_neg]
  rintro ⟨deep, cut⟩
  rw [lt_window_iff deep] at cut
  omega

theorem lt_lowestDropped (below : reorgFrom.toNat + historyRingSize.toNat ≤ tipH.toNat) :
    reorgFrom < lowestDropped tipH reorgFrom := by
  have deep : historyRingSize ≤ tipH := by
    rw [UInt64.le_iff_toNat_le]
    omega
  have cut := (lt_window_iff deep).mpr below
  rwa [lowestDropped, if_pos ⟨deep, cut⟩]

end

/-- A tracker with all updates it has put out. -/
structure TrackerRun where
  tracker : BlockTracker := newBlockTracker
  updates : List BlockUpdate := []

def TrackerRun.step (state : TrackerRun) (head : Block) : TrackerRun where
  tracker := (state.tracker.advance head).1
  updates := state.updates ++ (state.tracker.advance head).2

/-- The block was announced and not dropped since. -/
def standing (updates : List BlockUpdate) (height : UInt64) (hash : List UInt8) : Bool :=
  updates.foldl (fun live update =>
    if update.block.height = height ∧ update.block.hash = hash then update.kind == .blockNew
    else live) false

section

variable {updates more : List BlockUpdate} {height : UInt64} {hash : List UInt8}

theorem standing_append_of_ne (others : ∀ update ∈ more, update.block.height ≠ height) :
    standing (updates ++ more) height hash = standing updates height hash := by
  rw [standing, List.foldl_append]
  change more.foldl _ (standing updates height hash) = _
  generalize standing updates height hash = live
  induction more with
  | nil => rfl
  | cons update more ih =>
    have apart := others update List.mem_cons_self
    simp only [List.foldl_cons, apart, false_and, if_false]
    exact ih fun update listed => others update (List.mem_cons_of_mem _ listed)

/-- The updates end with an announcement of the block that no drop of it follows. -/
def Matched (updates : List BlockUpdate) (height : UInt64) (hash : List UInt8) : Prop :=
  ∃ before block after, updates = before ++ ⟨block, .blockNew⟩ :: after ∧
    block.height = height ∧ block.hash = hash ∧
    ∀ update ∈ after, update.kind = .blockDrop →
      ¬ (update.block.height = height ∧ update.block.hash = hash)

theorem Matched.append_singleton (matched : Matched updates height hash)
    (other : ¬ (update.block.height = height ∧ update.block.hash = hash)) :
    Matched (updates ++ [update]) height hash := by
  obtain ⟨before, block, after, rfl, sameHeight, sameHash, kept⟩ := matched
  refine ⟨before, block, after ++ [update], by simp, sameHeight, sameHash, ?_⟩
  intro later listed isDrop
  rcases List.mem_append.mp listed with listed | isLast
  · exact kept later listed isDrop
  · rwa [List.mem_singleton.mp isLast]

theorem matched_of_standing (stands : standing updates height hash = true) :
    Matched updates height hash := by
  induction updates using List.reverseRecOn with
  | nil => cases stands
  | append_singleton updates update ih =>
    rw [standing, List.foldl_append, List.foldl_cons, List.foldl_nil] at stands
    split_ifs at stands with about
    · obtain ⟨block, kind⟩ := update
      cases kind with
      | blockNew => exact ⟨updates, block, [], rfl, about.1, about.2, by simp⟩
      | blockDrop => cases stands
    · exact (ih stands).append_singleton about

end

namespace BlockTracker

variable {tracker : BlockTracker} {block : Block} {height : UInt64} {hash : List UInt8}

theorem get_announce {ring : HistoryRing} {drops : List BlockUpdate}
    (kept : (announce block ring drops).1.ring.get height = some hash) :
    (height = block.height ∧ hash = block.hash) ∨
      (height ≠ block.height ∧ ring.get height = some hash) :=
  DirectMapped.eq_or_get_of_get_put ring kept

theorem standing_advance {updates : List BlockUpdate}
    (stands : ∀ {height hash}, tracker.ring.get height = some hash →
      standing updates height hash = true)
    (kept : (tracker.advance block).1.ring.get height = some hash) :
    standing (updates ++ (tracker.advance block).2) height hash = true := by
  have handled := tracker.advance_cases block
  generalize tracker.advance block = outcome at handled kept
  cases handled with
  | ignored => simpa using stands kept
  | announces =>
    rcases get_announce kept with ⟨rfl, rfl⟩ | ⟨apart, kept⟩
    · rw [announce, List.nil_append]
      simp [standing]
    · rw [announce, standing_append_of_ne (by simpa using apart.symm)]
      exact stands kept
  | @reorgs tipH reorgFrom =>
    rcases get_announce kept with ⟨rfl, rfl⟩ | ⟨apart, kept⟩
    · rw [announce, ← List.append_assoc]
      simp [standing]
    · rw [get_dropFrom] at kept
      split_ifs at kept with dropped
      rw [announce, standing_append_of_ne]
      · exact stands kept
      · intro update listed
        rcases List.mem_append.mp listed with isDrop | isNew
        · obtain ⟨height', _, inside, _, rfl⟩ := mem_dropFrom.mp isDrop
          rintro rfl
          exact dropped inside
        · rw [List.mem_singleton.mp isNew]
          exact apart.symm

/-- The ring reaches no higher than the tip. -/
def Below (tracker : BlockTracker) : Prop :=
  ∀ height hash, tracker.ring.get height = some hash →
    ∃ tipH, tracker.tip = some tipH ∧ height ≤ tipH

/-- A head handled as a reorg is at most seventeen blocks below the tip. -/
def InWindow (tracker : BlockTracker) (head : Block) : Prop :=
  match tracker.tip, tracker.reorgsFrom head with
  | some tipH, some reorgFrom => tipH.toNat < reorgFrom.toNat + historyRingSize.toNat
  | _, _ => True

instance : Decidable (tracker.InWindow block) := by
  unfold InWindow
  split
  · infer_instance
  · infer_instance

/-- A head handled as a reorg drops all that the ring has from there on before it is
announced, and no block is replaced at its height without having been dropped. -/
structure Reconciles (tracker : BlockTracker) (head : Block) : Prop where
  orphans : ∀ {reorgFrom height hash}, tracker.reorgsFrom head = some reorgFrom →
    reorgFrom ≤ height → tracker.ring.get height = some hash →
      ∃ drops, (tracker.advance head).2 = drops ++ [⟨head, .blockNew⟩] ∧
        dropOf height hash ∈ drops
  overwritten : ∀ {hash}, tracker.ring.get head.height = some hash →
    (tracker.advance head).1.ring.get head.height ≠ some hash →
      dropOf head.height hash ∈ (tracker.advance head).2

theorem mem_dropFrom_of_window {tipH reorgFrom : UInt64} (below : tracker.Below)
    (isTip : tracker.tip = some tipH)
    (window : tipH.toNat < reorgFrom.toNat + historyRingSize.toNat) (above : reorgFrom ≤ height)
    (kept : tracker.ring.get height = some hash) :
    dropOf height hash ∈ (dropFrom tracker.ring tipH reorgFrom).2 := by
  obtain ⟨_, isTip', under⟩ := below height hash kept
  cases isTip.symm.trans isTip'
  rw [mem_dropFrom, lowestDropped_of_window window]
  exact ⟨height, hash, ⟨above, under⟩, kept, rfl⟩

theorem reconciles_of_inWindow (below : tracker.Below) (window : tracker.InWindow block) :
    tracker.Reconciles block := by
  have handled := tracker.advance_cases block
  rw [InWindow] at window
  constructor
  · intro reorgFrom height hash starts above kept
    generalize tracker.advance block = outcome at handled
    cases handled with
    | ignored calm | announces calm => simp [starts] at calm
    | reorgs isTip _ starts' =>
      cases starts.symm.trans starts'
      rw [isTip, starts] at window
      exact ⟨_, rfl, mem_dropFrom_of_window below isTip window above kept⟩
  · intro hash kept replaced
    generalize tracker.advance block = outcome at handled replaced
    cases handled with
    | ignored calm => exact absurd kept replaced
    | announces calm above =>
      obtain ⟨tipH, isTip, under⟩ := below block.height hash kept
      exact absurd under (UInt64.not_le.mpr (above tipH isTip))
    | reorgs isTip point starts =>
      rw [isTip, starts] at window
      apply List.mem_append_left
      apply mem_dropFrom_of_window below isTip window _ kept
      rcases reorgPoint_cases point with ⟨rfl, above⟩ | ⟨rfl, _⟩
      · exact UInt64.le_of_lt above
      · exact UInt64.le_refl _

theorem inWindow_of_reconciles (reconciles : tracker.Reconciles block) :
    tracker.InWindow block := by
  rw [InWindow]
  split
  · rename_i tipH reorgFrom isTip starts
    by_contra deep
    rw [Nat.not_lt] at deep
    have handled := tracker.advance_cases block
    have orphans := @reconciles.orphans
    generalize tracker.advance block = outcome at handled orphans
    cases handled with
    | ignored calm | announces calm => simp [starts] at calm
    | reorgs isTip' point starts' =>
      cases starts.symm.trans starts'
      cases isTip.symm.trans isTip'
      -- Such a reorg starts at a block of its own height, which is below what is dropped.
      rcases reorgPoint_cases point with ⟨rfl, _⟩ | ⟨rfl, _, kept⟩
      · have size : 0 < historyRingSize.toNat := by decide
        omega
      · obtain ⟨hash, kept⟩ := Option.isSome_iff_exists.mp kept
        obtain ⟨drops, shape, listed⟩ := orphans starts (UInt64.le_refl _) kept
        obtain rfl := List.append_cancel_right shape
        obtain ⟨height, _, inside, _, same⟩ := mem_dropFrom.mp listed
        cases same
        exact absurd inside.1 (UInt64.not_le.mpr (lt_lowestDropped deep))
  · trivial

theorem below_advance (below : tracker.Below) (window : tracker.InWindow block) :
    (tracker.advance block).1.Below := by
  have handled := tracker.advance_cases block
  rw [InWindow] at window
  generalize tracker.advance block = outcome at handled
  intro height hash kept
  cases handled with
  | ignored calm => exact below height hash kept
  | announces calm above =>
    refine ⟨block.height, rfl, ?_⟩
    rcases get_announce kept with ⟨rfl, _⟩ | ⟨_, kept⟩
    · exact UInt64.le_refl _
    · obtain ⟨tipH, isTip, under⟩ := below height hash kept
      exact UInt64.le_trans under (UInt64.le_of_lt (above tipH isTip))
  | reorgs isTip point starts =>
    refine ⟨block.height, rfl, ?_⟩
    rw [isTip, starts] at window
    rcases get_announce kept with ⟨rfl, _⟩ | ⟨_, kept⟩
    · exact UInt64.le_refl _
    · rw [get_dropFrom, lowestDropped_of_window window] at kept
      split_ifs at kept with dropped
      obtain ⟨_, isTip', under⟩ := below height hash kept
      cases isTip.symm.trans isTip'
      rcases reorgPoint_cases point with ⟨rfl, above⟩ | ⟨rfl, _⟩
      · exact UInt64.le_trans under (UInt64.le_of_lt above)
      · exact UInt64.le_of_lt (UInt64.not_le.mp fun above => dropped ⟨above, under⟩)

end BlockTracker

/-- What the ring holds was announced and not dropped since. -/
def TrackerRun.RingStands (state : TrackerRun) : Prop :=
  ∀ height hash, state.tracker.ring.get height = some hash →
    standing state.updates height hash = true

def TrackerRun.Below (state : TrackerRun) : Prop := state.tracker.Below

theorem TrackerRun.RingStands.step {state : TrackerRun} (stands : state.RingStands) (head : Block) :
    (state.step head).RingStands :=
  fun _ _ kept => BlockTracker.standing_advance (stands _ _) kept

theorem ringStands_start : TrackerRun.RingStands {} := by
  intro height hash kept
  cases kept

/-- Drops from the highest block down and then the announcement of the head, or nothing. -/
def TopDown (head : Block) (updates : List BlockUpdate) : Prop :=
  updates = [] ∨ ∃ drops : List BlockUpdate, updates = drops ++ [⟨head, .blockNew⟩] ∧
    (∀ drop ∈ drops, drop.kind = .blockDrop) ∧
    drops.Pairwise fun first second => second.block.height < first.block.height

theorem topDown_advance (tracker : BlockTracker) (head : Block) :
    TopDown head (tracker.advance head).2 := by
  have handled := tracker.advance_cases head
  generalize tracker.advance head = outcome at handled
  cases handled with
  | ignored => exact .inl rfl
  | announces => exact .inr ⟨[], rfl, by simp, .nil⟩
  | reorgs =>
    refine .inr ⟨_, rfl, ?_, pairwise_dropFrom⟩
    intro drop listed
    obtain ⟨_, _, _, _, rfl⟩ := mem_dropFrom.mp listed
    rfl

theorem get_of_mem_advance {tracker : BlockTracker} {head : Block} {drop : BlockUpdate}
    (listed : drop ∈ (tracker.advance head).2) (isDrop : drop.kind = .blockDrop) :
    tracker.ring.get drop.block.height = some drop.block.hash := by
  have handled := tracker.advance_cases head
  generalize tracker.advance head = outcome at handled listed
  cases handled with
  | ignored => cases listed
  | announces =>
    rw [List.mem_singleton.mp listed] at isDrop
    cases isDrop
  | reorgs =>
    rcases List.mem_append.mp listed with listed | isLast
    · obtain ⟨_, _, _, kept, rfl⟩ := mem_dropFrom.mp listed
      exact kept
    · rw [List.mem_singleton.mp isLast] at isDrop
      cases isDrop

theorem split_append {old new before after : List BlockUpdate}
    (split : old ++ new = before ++ update :: after) :
    (∃ rest, old = before ++ update :: rest) ∨
      ∃ earlier, before = old ++ earlier ∧ new = earlier ++ update :: after := by
  rcases List.append_eq_append_iff.mp split with ⟨earlier, isBefore, isNew⟩ | ⟨rest, isOld, ends⟩
  · exact .inr ⟨earlier, isBefore, isNew⟩
  · cases rest with
    | nil => exact .inr ⟨[], by simpa using isOld.symm, by simpa using ends.symm⟩
    | cons first rest =>
      obtain ⟨rfl, -⟩ := List.cons.inj ends
      exact .inl ⟨rest, isOld⟩

theorem TopDown.ne_of_split {head : Block} {updates before after : List BlockUpdate}
    {drop : BlockUpdate} (topDown : TopDown head updates)
    (split : updates = before ++ drop :: after) (isDrop : drop.kind = .blockDrop) :
    ∀ update ∈ before, update.block.height ≠ drop.block.height := by
  intro update listed
  rcases topDown with rfl | ⟨drops, rfl, -, down⟩
  · cases before <;> cases split
  · rcases split_append split with ⟨rest, rfl⟩ | ⟨earlier, -, isNew⟩
    · have above := (List.pairwise_append.mp down).2.2 update listed drop List.mem_cons_self
      exact (UInt64.ne_of_lt above).symm
    · have isHead : drop ∈ [(⟨head, .blockNew⟩ : BlockUpdate)] := by simp [isNew]
      rw [List.mem_singleton.mp isHead] at isDrop
      cases isDrop

/-- Every drop is of a block that stood before it. -/
def TrackerRun.DropsMatched (state : TrackerRun) : Prop :=
  ∀ before drop after, state.updates = before ++ drop :: after → drop.kind = .blockDrop →
    Matched before drop.block.height drop.block.hash

theorem TrackerRun.DropsMatched.step {state : TrackerRun} (stands : state.RingStands)
    (matched : state.DropsMatched) (head : Block) : (state.step head).DropsMatched := by
  intro before drop after split isDrop
  rcases split_append split with ⟨rest, isOld⟩ | ⟨earlier, rfl, isNew⟩
  · exact matched before drop rest isOld isDrop
  · -- The ring still has the block, so it stood; the drops before it are of other heights.
    have listed : drop ∈ (state.tracker.advance head).2 := by simp [isNew]
    have kept := stands _ _ (get_of_mem_advance listed isDrop)
    have others := (topDown_advance state.tracker head).ne_of_split isNew isDrop
    apply matched_of_standing
    rw [standing_append_of_ne others]
    exact kept

/-- What the ring holds stands, and all that was dropped did. -/
structure TrackerRun.Consistent (state : TrackerRun) : Prop where
  stands : state.RingStands
  matched : state.DropsMatched

theorem consistent_run (heads : List Block) : (run TrackerRun.step {} heads).Consistent := by
  apply run_induction
  · intro state head consistent
    exact ⟨consistent.stands.step head, consistent.matched.step consistent.stands head⟩
  · refine ⟨ringStands_start, ?_⟩
    intro before drop after split
    cases before <;> cases split

/-- Along every sequence of heads, a block is dropped only after an announcement of the same
height and hash that no drop has followed yet; and what one head leads to is its drops, from
the highest block down, and then its announcement. -/
theorem drops_match_announcements (heads : List Block) :
    (run TrackerRun.step {} heads).DropsMatched ∧
      ∀ head, TopDown head ((run TrackerRun.step {} heads).tracker.advance head).2 :=
  ⟨(consistent_run heads).matched, topDown_advance _⟩

/-- Along every sequence of heads, what the ring holds was announced and not dropped
since; and every reorg drops all its orphans in the ring, with no block replaced at its
height before it is dropped, exactly when every reorg starts within the window. -/
theorem reorgs_reconcile_iff (heads : List Block) :
    (run TrackerRun.step {} heads).RingStands ∧
      (EachStep TrackerRun.step (fun state head => state.tracker.Reconciles head) {} heads ↔
        EachStep TrackerRun.step (fun state head => state.tracker.InWindow head) {} heads) := by
  refine ⟨(consistent_run heads).stands, ?_⟩
  have exact_step : ∀ (state : TrackerRun) (head : Block), state.Below →
      (state.tracker.Reconciles head ↔ state.tracker.InWindow head) := by
    intro state head below
    exact ⟨BlockTracker.inWindow_of_reconciles, BlockTracker.reconciles_of_inWindow below⟩
  have preserved : ∀ (state : TrackerRun) (head : Block), state.Below →
      state.tracker.InWindow head → (state.step head).Below :=
    fun state head => BlockTracker.below_advance
  apply eachStep_iff_eachStep exact_step preserved
  intro height hash kept
  cases kept

example : EachStep TrackerRun.step (fun state head => state.tracker.InWindow head) {}
    [{ height := 5, hash := [1] }, { height := 22, hash := [2] }, { height := 5, hash := [3] }] := by
  decide

/-- After a gap in the heights, a block far below the tip is replaced by another one of
its height and never dropped. -/
theorem gap_hides_orphan :
    let state := run TrackerRun.step {} [{ height := 3, hash := [1] }, { height := 100, hash := [2] }]
    let head : Block := { height := 3, hash := [3] }
    state.tracker.ring.get 3 = some [1] ∧ state.tracker.reorgsFrom head = some 3 ∧
      (state.tracker.advance head).2 = [dropOf 100 [2], ⟨head, .blockNew⟩] ∧
      (state.tracker.advance head).1.ring.get 3 = some [3] := by
  decide

end Nodecore.Subengine
