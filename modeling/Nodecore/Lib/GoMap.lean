/-
# Finite maps and sets visited in an arbitrary order

A map of the source language holds one value per key and has no order of its
own: a loop over it visits the entries in an order the runtime picks anew each
time.  `GoMap` is an association list without duplicate keys, and a
`RangeOrder` is one such pick.  Results that must not depend on the pick are
stated for every `RangeOrder`.
-/

import Mathlib.Data.List.AList
import Mathlib.Data.List.Perm.Basic
import Mathlib.Data.List.Rotate
import Mathlib.Order.Lattice

namespace Nodecore.Lib

universe u v

/-- A finite map: an association list with at most one value per key. -/
abbrev GoMap (κ : Type u) (ν : Type v) := AList fun _ : κ => ν

abbrev Entry (κ : Type u) (ν : Type v) := (_ : κ) × ν

/-- A set is a map that stores nothing with its keys. -/
abbrev GoSet (κ : Type u) := GoMap κ Unit

/-- The order the runtime picks for one loop over a collection. -/
structure RangeOrder (α : Type u) where
  visit : List α → List α
  perm : ∀ items, (visit items).Perm items

/-- The order in which the representation happens to hold the items. -/
def RangeOrder.stored (α : Type u) : RangeOrder α := ⟨id, fun _ => .refl _⟩

@[simp]
theorem RangeOrder.mem_visit {α : Type u} (order : RangeOrder α) (items : List α) (a : α) :
    a ∈ order.visit items ↔ a ∈ items := (order.perm items).mem_iff

theorem RangeOrder.exists_cons {α : Type u} {items : List α} {item : α} (listed : item ∈ items) :
    ∃ (order : RangeOrder α) (rest : List α), order.visit items = item :: rest := by
  obtain ⟨before, after, rfl⟩ := List.append_of_mem listed
  exact ⟨⟨(·.rotate before.length), fun items => List.rotate_perm items _⟩, after ++ before,
    List.rotate_append_length_eq before (item :: after)⟩

theorem RangeOrder.exists_concat {α : Type u} {items : List α} {item : α} (listed : item ∈ items) :
    ∃ (order : RangeOrder α) (rest : List α), order.visit items = rest ++ [item] := by
  obtain ⟨order, rest, visits⟩ := exists_cons listed
  refine ⟨⟨fun items => (order.visit items).reverse,
    fun items => (List.reverse_perm _).trans (order.perm items)⟩, rest.reverse, ?_⟩
  dsimp only
  rw [visits, List.reverse_cons]

namespace GoMap

variable {κ : Type u} {ν : Type v} [DecidableEq κ]

def values (m : GoMap κ ν) : List ν := m.entries.map (·.2)

theorem mem_values_of_lookup {m : GoMap κ ν} {key : κ} {value : ν}
    (found : m.lookup key = some value) : value ∈ values m :=
  List.mem_map_of_mem (f := (·.2)) (AList.mem_lookup_iff.mp found)

theorem exists_lookup_of_mem_values {m : GoMap κ ν} {value : ν} (listed : value ∈ values m) :
    ∃ key, m.lookup key = some value := by
  obtain ⟨entry, there, rfl⟩ := List.mem_map.mp listed
  exact ⟨entry.1, AList.mem_lookup_iff.mpr there⟩

theorem mem_values_iff (m : GoMap κ ν) (value : ν) :
    value ∈ values m ↔ ∃ key, m.lookup key = some value :=
  ⟨exists_lookup_of_mem_values, fun found => mem_values_of_lookup found.choose_spec⟩

/-- Equality of maps as the standard library compares them: the same number of
entries, and every key of the first holds an equal value in the second. -/
def equalFunc (eq : ν → ν → Bool) (first second : GoMap κ ν) : Bool :=
  first.entries.length == second.entries.length &&
    first.entries.all fun entry =>
      match second.lookup entry.1 with
      | some value => eq entry.2 value
      | none => false

/-- Maps that compare equal hold the same under every key, as far as the comparison of
values looks. -/
theorem lookup_of_equalFunc {ν' : Type*} {eq : ν → ν → Bool} (read : ν → ν')
    (reads : ∀ value other, eq value other = true → read value = read other)
    {first second : GoMap κ ν} (equal : equalFunc eq first second = true) (key : κ) :
    (first.lookup key).map read = (second.lookup key).map read := by
  simp only [equalFunc, Bool.and_eq_true, beq_iff_eq, List.all_eq_true] at equal
  obtain ⟨sameLength, found⟩ := equal
  have included : first.keys ⊆ second.keys := by
    intro key listed
    obtain ⟨entry, there, rfl⟩ := List.mem_map.mp listed
    have matched := found entry there
    cases there' : second.lookup entry.1 with
    | none => simp [there'] at matched
    | some value => exact AList.lookup_isSome.mp (by rw [there']; rfl)
  have sameKeys : first.keys.Perm second.keys :=
    (List.subperm_of_subset first.keys_nodup included).perm_of_length_le
      (by simp [AList.keys, List.keys, sameLength])
  cases held : first.lookup key with
  | none =>
    have absent : key ∉ second :=
      fun listed => AList.lookup_eq_none.mp held (sameKeys.mem_iff.mpr listed)
    rw [AList.lookup_eq_none.mpr absent]
  | some value =>
    have matched := found ⟨key, value⟩ (AList.mem_lookup_iff.mp held)
    cases held' : second.lookup key with
    | none => simp [held'] at matched
    | some other =>
      simp only [held'] at matched
      exact congrArg some (reads value other matched)

theorem equalFunc_beq_iff [DecidableEq ν] (first second : GoMap κ ν) :
    equalFunc (· == ·) first second = true ↔ ∀ key, first.lookup key = second.lookup key := by
  constructor
  · intro equal key
    simpa using lookup_of_equalFunc id (fun _ _ => eq_of_beq) equal key
  · intro same
    have perm : first.entries.Perm second.entries :=
      List.lookup_ext first.nodupKeys second.nodupKeys fun key value => by
        rw [← AList.lookup, ← AList.lookup, same key]
    simp only [equalFunc, Bool.and_eq_true, beq_iff_eq, List.all_eq_true]
    refine ⟨perm.length_eq, fun entry listed => ?_⟩
    have held : first.lookup entry.1 = some entry.2 := AList.mem_lookup_iff.mpr listed
    simp [← same, held]

theorem entries_erase (m : GoMap κ ν) (key : κ) :
    (m.erase key).entries = m.entries.filter fun entry => entry.1 ≠ key := by
  have nodup : ∀ entries : List (Entry κ ν), entries.NodupKeys →
      entries.kerase key = entries.filter fun entry => entry.1 ≠ key := by
    intro entries
    induction entries with
    | nil => intro _; rfl
    | cons entry entries ih =>
      intro hnodup
      rw [List.nodupKeys_cons] at hnodup
      by_cases hkey : key = entry.1
      · have absent : ∀ other ∈ entries, other.1 ≠ key := by
          intro other hother heq
          exact hnodup.1 (hkey ▸ heq ▸ List.mem_keys_of_mem hother)
        rw [List.kerase_cons_eq hkey, List.filter_cons_of_neg (by simp [hkey])]
        exact (List.filter_eq_self.mpr (by simpa using absent)).symm
      · rw [List.kerase_cons_ne hkey, List.filter_cons_of_pos (by simpa using Ne.symm hkey),
          ih hnodup.2]
  exact nodup m.entries m.nodupKeys

theorem entries_foldl_erase (keys : List κ) (m : GoMap κ ν) :
    (keys.foldl (fun left key => left.erase key) m).entries =
      m.entries.filter fun entry => entry.1 ∉ keys := by
  induction keys generalizing m with
  | nil => simp
  | cons key keys ih =>
    rw [List.foldl_cons, ih, entries_erase, List.filter_filter]
    congr 1
    funext entry
    simp [Bool.and_comm]

section Loop

variable {σ τ : Type*} {step : σ → Entry κ ν → σ} (view : σ → τ) (change : ν → τ → τ) (key : κ)

theorem view_foldl_of_nodupKeys {entries : List (Entry κ ν)}
    (others : ∀ state, ∀ entry ∈ entries, entry.1 ≠ key → view (step state entry) = view state)
    (own : ∀ state value, view (step state ⟨key, value⟩) = change value (view state))
    (nodup : entries.NodupKeys) (start : σ) :
    view (entries.foldl step start) =
      (entries.dlookup key).elim (view start) fun value => change value (view start) := by
  induction entries generalizing start with
  | nil => rfl
  | cons entry entries ih =>
    rw [List.nodupKeys_cons] at nodup
    have later (state : σ) (other : Entry κ ν) (listed : other ∈ entries) :=
      others state other (List.mem_cons_of_mem entry listed)
    rw [List.foldl_cons, ih later nodup.2]
    obtain ⟨key', value⟩ := entry
    by_cases same : key' = key
    · subst same
      rw [List.dlookup_eq_none.mpr nodup.1, List.dlookup_cons_eq]
      exact own start value
    · rw [List.dlookup_cons_ne _ _ (Ne.symm same),
        others start ⟨key', value⟩ List.mem_cons_self same]

/-- A loop over a map changes what belongs to one key only at that key, in whatever
order it visits the entries. -/
theorem view_foldl_visit_of_mem (m : GoMap κ ν)
    (others : ∀ state, ∀ entry ∈ m.entries, entry.1 ≠ key → view (step state entry) = view state)
    (own : ∀ state value, view (step state ⟨key, value⟩) = change value (view state))
    (order : RangeOrder (Entry κ ν)) (start : σ) :
    view ((order.visit m.entries).foldl step start) =
      (m.lookup key).elim (view start) fun value => change value (view start) := by
  have nodup : (order.visit m.entries).NodupKeys :=
    (List.perm_nodupKeys (order.perm m.entries)).mpr m.nodupKeys
  have visited (state : σ) (entry : Entry κ ν) (listed : entry ∈ order.visit m.entries) :=
    others state entry ((order.mem_visit _ _).mp listed)
  rw [view_foldl_of_nodupKeys view change key visited own nodup,
    List.perm_dlookup key nodup (order.perm m.entries)]
  rfl

theorem view_foldl_visit
    (others : ∀ state (entry : Entry κ ν), entry.1 ≠ key → view (step state entry) = view state)
    (own : ∀ state value, view (step state ⟨key, value⟩) = change value (view state))
    (order : RangeOrder (Entry κ ν)) (m : GoMap κ ν) (start : σ) :
    view ((order.visit m.entries).foldl step start) =
      (m.lookup key).elim (view start) fun value => change value (view start) :=
  view_foldl_visit_of_mem view change key m (fun state entry _ => others state entry) own order
    start

end Loop

end GoMap

namespace GoSet

variable {κ : Type u} [DecidableEq κ]

def add (s : GoSet κ) (a : κ) : GoSet κ := AList.insert a () s

def remove (s : GoSet κ) (a : κ) : GoSet κ := AList.erase a s

def contains (s : GoSet κ) (a : κ) : Bool := decide (a ∈ s)

/-- The elements in the order the runtime picks. -/
def toSlice (order : RangeOrder κ) (s : GoSet κ) : List κ := order.visit s.keys

def ofList (items : List κ) : GoSet κ := items.foldl add ∅

def union (s t : GoSet κ) : GoSet κ := t.keys.foldl add s

/-- Equality as sets, whatever the stored order. -/
def equal (s t : GoSet κ) : Bool :=
  s.keys.length == t.keys.length && s.keys.all fun a => contains t a

theorem contains_iff (s : GoSet κ) (a : κ) : contains s a = true ↔ a ∈ s := by
  simp [contains]

@[simp]
theorem mem_add (s : GoSet κ) (a b : κ) : b ∈ add s a ↔ b = a ∨ b ∈ s := by
  simp [add, AList.mem_insert]

@[simp]
theorem mem_remove (s : GoSet κ) (a b : κ) : b ∈ remove s a ↔ b ≠ a ∧ b ∈ s := by
  simp [remove, AList.mem_erase]

theorem mem_foldl_add (items : List κ) (start : GoSet κ) (a : κ) :
    a ∈ items.foldl add start ↔ a ∈ start ∨ a ∈ items := by
  induction items generalizing start with
  | nil => simp
  | cons first items ih =>
    rw [List.foldl_cons, ih, mem_add, List.mem_cons, or_assoc, or_left_comm]

@[simp]
theorem mem_ofList (items : List κ) (a : κ) : a ∈ ofList items ↔ a ∈ items := by
  rw [ofList, mem_foldl_add]
  simp

theorem mem_foldl_union {α : Type*} (sets : α → GoSet κ) (items : List α) (start : GoSet κ)
    (a : κ) : a ∈ items.foldl (fun all item => all.union (sets item)) start ↔
      a ∈ start ∨ ∃ item ∈ items, a ∈ sets item := by
  induction items generalizing start with
  | nil => simp
  | cons first items ih =>
    rw [List.foldl_cons, ih, union, mem_foldl_add, ← AList.mem_keys]
    simp [or_assoc]

theorem equal_iff (s t : GoSet κ) : equal s t = true ↔ ∀ a, a ∈ s ↔ a ∈ t := by
  have inSecond (a : κ) : contains t a = true ↔ a ∈ t.keys := contains_iff t a
  simp only [equal, Bool.and_eq_true, beq_iff_eq, List.all_eq_true, inSecond]
  constructor
  · rintro ⟨length, subset⟩ a
    exact ((List.subperm_of_subset s.keys_nodup subset).perm_of_length_le length.ge).mem_iff
  · intro same
    exact ⟨((List.perm_ext_iff_of_nodup s.keys_nodup t.keys_nodup).mpr same).length_eq,
      fun a listed => (same a).mp listed⟩

omit [DecidableEq κ] in
@[simp]
theorem mem_toSlice (order : RangeOrder κ) (s : GoSet κ) (a : κ) : a ∈ toSlice order s ↔ a ∈ s := by
  simp [toSlice, AList.mem_keys]

end GoSet

theorem forall_modify {α : Type*} {items : List α} {i : ℕ} {change : α → α} {holds : α → Prop}
    (before : ∀ item ∈ items, holds item)
    (changed : ∀ item, items[i]? = some item → holds (change item)) :
    ∀ item ∈ items.modify i change, holds item := by
  intro item listed
  obtain ⟨j, found⟩ := List.mem_iff_getElem?.mp listed
  rw [List.getElem?_modify] at found
  obtain ⟨original, there, rfl⟩ := Option.map_eq_some_iff.mp found
  by_cases here : i = j
  · rw [if_pos here]
    exact changed original (by rwa [here])
  · rw [if_neg here]
    exact before original (List.mem_of_getElem? there)

theorem mem_modify_of_mem {α : Type*} {items : List α} {i : ℕ} {change : α → α} {item : α}
    (listed : item ∈ items) : items[i]? = some item ∨ item ∈ items.modify i change := by
  obtain ⟨j, found⟩ := List.mem_iff_getElem?.mp listed
  by_cases here : i = j
  · exact .inl (by rwa [here])
  · refine .inr (List.mem_of_getElem? (i := j) ?_)
    rw [List.getElem?_modify_ne _ _ here, found]

section KeepHigher

variable {α : Type u} (rank : α → ℕ)

/-- One step of a loop that keeps the item of greatest rank.  Which of several maximal
items the loop ends at depends on the visiting order; the rank it reaches does not. -/
def keepHigher (candidate item : α) : α :=
  if rank candidate < rank item then item else candidate

theorem rank_keepHigher (candidate item : α) :
    rank (keepHigher rank candidate item) = max (rank candidate) (rank item) := by
  unfold keepHigher
  split
  · omega
  · omega

/-- The greatest rank among the items, zero when there are none. -/
def maxRank (items : List α) : ℕ := (items.map rank).foldl max 0

theorem rank_foldl_keepHigher (items : List α) (start : α) :
    rank (items.foldl (keepHigher rank) start) =
      (items.map rank).foldl max (rank start) := by
  induction items generalizing start with
  | nil => rfl
  | cons item items ih =>
    simp [ih, rank_keepHigher rank]

theorem foldl_keepHigher_eq_or_lt (items : List α) (start : α) :
    items.foldl (keepHigher rank) start = start ∨
      rank start < rank (items.foldl (keepHigher rank) start) := by
  induction items generalizing start with
  | nil => exact .inl rfl
  | cons item items ih =>
    rw [List.foldl_cons, keepHigher]
    split_ifs with higher
    · right
      rcases ih item with kept | reached
      · rwa [kept]
      · exact higher.trans reached
    · exact ih start

theorem maxRank_cons (item : α) (items : List α) :
    maxRank rank (item :: items) = max (rank item) (maxRank rank items) := by
  calc (items.map rank).foldl max (max 0 (rank item))
      = (items.map rank).foldl max (max (rank item) 0) := by rw [max_comm]
    _ = max (rank item) (maxRank rank items) := List.foldl_assoc

variable {items : List α}

theorem rank_le_maxRank {item : α} (listed : item ∈ items) : rank item ≤ maxRank rank items := by
  induction items with
  | nil => cases listed
  | cons first items ih =>
    rw [maxRank_cons]
    rcases List.mem_cons.mp listed with rfl | later
    · exact le_max_left _ _
    · exact (ih later).trans (le_max_right _ _)

theorem maxRank_le_iff {bound : ℕ} :
    maxRank rank items ≤ bound ↔ ∀ item ∈ items, rank item ≤ bound := by
  induction items with
  | nil => simp [maxRank]
  | cons item items ih => rw [maxRank_cons, sup_le_iff, ih, List.forall_mem_cons]

theorem maxRank_congr {first second : List α} (same : ∀ item, item ∈ first ↔ item ∈ second) :
    maxRank rank first = maxRank rank second := by
  refine eq_of_forall_ge_iff fun bound => ?_
  simp only [maxRank_le_iff, same]

theorem exists_rank_eq_maxRank (positive : 0 < maxRank rank items) :
    ∃ item ∈ items, rank item = maxRank rank items := by
  induction items with
  | nil => cases positive
  | cons item items ih =>
    rw [maxRank_cons] at positive ⊢
    by_cases higher : maxRank rank items ≤ rank item
    · exact ⟨item, List.mem_cons_self, (max_eq_left higher).symm⟩
    · rw [max_eq_right (Nat.le_of_not_le higher)] at positive ⊢
      obtain ⟨found, listed, same⟩ := ih positive
      exact ⟨found, List.mem_cons_of_mem _ listed, same⟩

end KeepHigher

end Nodecore.Lib
