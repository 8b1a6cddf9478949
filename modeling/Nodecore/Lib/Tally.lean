/-
# Tallies

Items are counted under a key each, and the busiest key is the one most items
have.  When one assignment of keys is coarser than another, its busiest key has
at least as many items.  It has as many exactly when some busiest coarse key
gathers the items of a single fine key.
-/

import Nodecore.Lib.GoMap

namespace Nodecore.Lib

variable {α κ μ : Type*} [DecidableEq κ] [DecidableEq μ]

def tallied (key : α → κ) (items : List α) (k : κ) : ℕ :=
  items.countP fun item => key item = k

def busiest (key : α → κ) (items : List α) : ℕ :=
  maxRank (fun item => tallied key items (key item)) items

section OneAssignment

variable {key : α → κ} {items : List α}

@[simp]
theorem tallied_append_singleton (key : α → κ) (items : List α) (item : α) (k : κ) :
    tallied key (items ++ [item]) k = tallied key items k + if key item = k then 1 else 0 := by
  simp [tallied, List.countP_append, List.countP_singleton]

theorem tallied_pos_iff {k : κ} : 0 < tallied key items k ↔ ∃ item ∈ items, key item = k := by
  simp [tallied, List.countP_pos_iff]

theorem tallied_le_busiest (key : α → κ) (items : List α) (k : κ) :
    tallied key items k ≤ busiest key items := by
  rcases Nat.eq_zero_or_pos (tallied key items k) with none | some
  · exact none ▸ Nat.zero_le _
  · obtain ⟨item, listed, rfl⟩ := tallied_pos_iff.mp some
    exact rank_le_maxRank (fun item => tallied key items (key item)) listed

theorem exists_tallied_eq_busiest (key : α → κ) (nonempty : items ≠ []) :
    ∃ item ∈ items, tallied key items (key item) = busiest key items := by
  obtain ⟨item, listed⟩ := List.exists_mem_of_ne_nil items nonempty
  have positive : 0 < tallied key items (key item) := tallied_pos_iff.mpr ⟨item, listed, rfl⟩
  exact exists_rank_eq_maxRank (fun item => tallied key items (key item))
    (positive.trans_le (tallied_le_busiest key items (key item)))

theorem busiest_le_iff {bound : ℕ} :
    busiest key items ≤ bound ↔ ∀ k, tallied key items k ≤ bound := by
  constructor
  · intro bounded k
    exact (tallied_le_busiest key items k).trans bounded
  · intro bounded
    by_cases nonempty : items = []
    · subst nonempty
      exact Nat.zero_le _
    · obtain ⟨item, -, top⟩ := exists_tallied_eq_busiest key nonempty
      exact top ▸ bounded (key item)

end OneAssignment

section Coarser

variable {fine : α → κ} {coarse : α → μ} {items : List α}

section

variable (coarser : ∀ item other, fine item = fine other → coarse item = coarse other)
include coarser

theorem tallied_le_tallied_coarse (item : α) :
    tallied fine items (fine item) ≤ tallied coarse items (coarse item) := by
  apply List.countP_mono_left
  intro other _ same
  simpa using coarser other item (by simpa using same)

/-- A fine key has as many items as its coarse key exactly when it has all of them. -/
theorem tallied_eq_tallied_coarse_iff (item : α) :
    tallied fine items (fine item) = tallied coarse items (coarse item) ↔
      ∀ other ∈ items, coarse other = coarse item → fine other = fine item := by
  have implied : ∀ other ∈ items, fine other = fine item → coarse other = coarse item :=
    fun other _ same => coarser other item same
  constructor
  · intro same
    have filtered : items.filter (fun other => fine other = fine item) =
        items.filter (fun other => coarse other = coarse item) := by
      apply List.Sublist.eq_of_length
      · apply List.monotone_filter_right items
        intro other finely
        simpa using coarser other item (by simpa using finely)
      · simpa [tallied, List.countP_eq_length_filter] using same
    intro other listed coarsely
    have kept : other ∈ items.filter (fun other => fine other = fine item) := by
      rw [filtered]
      exact List.mem_filter.mpr ⟨listed, by simpa using coarsely⟩
    simpa using (List.mem_filter.mp kept).2
  · intro all
    apply List.countP_congr
    intro other listed
    simpa using ⟨implied other listed, all other listed⟩

theorem busiest_le_busiest_coarse : busiest fine items ≤ busiest coarse items := by
  by_cases nonempty : items = []
  · subst nonempty
    exact le_rfl
  · obtain ⟨item, -, top⟩ := exists_tallied_eq_busiest fine nonempty
    calc busiest fine items = tallied fine items (fine item) := top.symm
      _ ≤ tallied coarse items (coarse item) := tallied_le_tallied_coarse coarser item
      _ ≤ busiest coarse items := tallied_le_busiest coarse items _

/-- The busiest keys have as many items each exactly when some busiest coarse key gathers
the items of one fine key. -/
theorem busiest_coarse_eq_iff [Nonempty μ] :
    busiest coarse items = busiest fine items ↔
      ∃ k, tallied coarse items k = busiest coarse items ∧
        ∀ item ∈ items, ∀ other ∈ items, coarse item = k → coarse other = k →
          fine other = fine item := by
  by_cases nonempty : items = []
  · subst nonempty
    exact iff_of_true rfl ⟨Classical.arbitrary μ, rfl, fun _ listed => absurd listed (by simp)⟩
  constructor
  · intro same
    obtain ⟨item, listed, top⟩ := exists_tallied_eq_busiest fine nonempty
    have below : tallied fine items (fine item) ≤ tallied coarse items (coarse item) :=
      tallied_le_tallied_coarse coarser item
    have bound := tallied_le_busiest coarse items (coarse item)
    have whole : tallied fine items (fine item) = tallied coarse items (coarse item) := by omega
    have gathered := (tallied_eq_tallied_coarse_iff coarser item).mp whole
    refine ⟨coarse item, by omega, ?_⟩
    intro first listedFirst second listedSecond firstKey secondKey
    rw [gathered first listedFirst firstKey, gathered second listedSecond secondKey]
  · rintro ⟨k, top, gathered⟩
    obtain ⟨busy, listedBusy, topBusy⟩ := exists_tallied_eq_busiest coarse nonempty
    have positive : 0 < tallied coarse items (coarse busy) :=
      tallied_pos_iff.mpr ⟨busy, listedBusy, rfl⟩
    obtain ⟨item, listed, rfl⟩ : ∃ item ∈ items, coarse item = k :=
      tallied_pos_iff.mp (by omega)
    have whole : tallied fine items (fine item) = tallied coarse items (coarse item) :=
      (tallied_eq_tallied_coarse_iff coarser item).mpr fun other listedOther same =>
        gathered item listed other listedOther rfl same
    have bound := tallied_le_busiest fine items (fine item)
    exact le_antisymm (by omega) (busiest_le_busiest_coarse coarser)

end

end Coarser

end Nodecore.Lib
