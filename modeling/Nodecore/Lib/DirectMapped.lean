/-
# Direct-mapped stores

A store with one slot for each value of a slot function: a key can only ever be
kept in its own slot, and putting it there evicts whatever other key shares the
slot.  A slot never holds a key of another slot, which the type enforces, so that
a store is determined by what it answers for each key.
-/

import Mathlib.Logic.Function.Basic
import Mathlib.Tactic.SplitIfs

namespace Nodecore.Lib

universe u v w

/-- Slots are numbered by `ι`, and `slotOf` names the slot of a key. -/
structure DirectMapped {κ : Type u} {ι : Type v} (slotOf : κ → ι) (α : Type w) where
  slots : ι → Option (κ × α)
  placed : ∀ {slot key value}, slots slot = some (key, value) → slotOf key = slot

namespace DirectMapped

variable {κ : Type u} {ι : Type v} {slotOf : κ → ι} {α : Type w}

def empty : DirectMapped slotOf α := ⟨fun _ => none, by simp⟩

variable [DecidableEq κ]

/-- The value kept under the key, if its slot holds that very key. -/
def get (store : DirectMapped slotOf α) (key : κ) : Option α :=
  match store.slots (slotOf key) with
  | some (kept, value) => if kept = key then some value else none
  | none => none

theorem get_eq_some_iff (store : DirectMapped slotOf α) {key : κ} {value : α} :
    store.get key = some value ↔ store.slots (slotOf key) = some (key, value) := by
  rw [get]
  cases store.slots (slotOf key) with
  | none => simp
  | some entry =>
    obtain ⟨kept, found⟩ := entry
    by_cases same : kept = key
    · simp [same]
    · simp [same]

variable [DecidableEq ι]

def put (store : DirectMapped slotOf α) (key : κ) (value : α) : DirectMapped slotOf α where
  slots := Function.update store.slots (slotOf key) (some (key, value))
  placed := by
    intro slot kept other found
    by_cases here : slot = slotOf key
    · subst here
      rw [Function.update_self] at found
      cases found
      rfl
    · rw [Function.update_of_ne here] at found
      exact store.placed found

/-- Empties the slot of the key, whatever it holds. -/
def clear (store : DirectMapped slotOf α) (key : κ) : DirectMapped slotOf α where
  slots := Function.update store.slots (slotOf key) none
  placed := by
    intro slot kept other found
    by_cases here : slot = slotOf key
    · subst here
      rw [Function.update_self] at found
      cases found
    · rw [Function.update_of_ne here] at found
      exact store.placed found

/-- Empties the slots of those keys that are kept. -/
def clearKept (store : DirectMapped slotOf α) (key : κ) : DirectMapped slotOf α :=
  if (store.get key).isSome then store.clear key else store

variable (store : DirectMapped slotOf α) {key other : κ} {value : α}

@[simp]
theorem get_put_self : (store.put key value).get key = some value := by
  rw [get_eq_some_iff]
  exact Function.update_self ..

theorem eq_or_get_of_get_put {found : α} (kept : (store.put key value).get other = some found) :
    (other = key ∧ found = value) ∨ (other ≠ key ∧ store.get other = some found) := by
  by_cases same : other = key
  · subst same
    rw [get_put_self] at kept
    exact .inl ⟨rfl, (Option.some.inj kept).symm⟩
  · by_cases shares : slotOf other = slotOf key
    · simp [get, put, shares, Ne.symm same] at kept
    · simp only [get, put, Function.update_of_ne shares] at kept
      exact .inr ⟨same, kept⟩

@[simp]
theorem get_clearKept_self : (store.clearKept key).get key = none := by
  rw [clearKept]
  split_ifs with kept
  · simp [get, clear]
  · simpa using kept

theorem get_clearKept_of_ne (different : other ≠ key) :
    (store.clearKept key).get other = store.get other := by
  rw [clearKept]
  split_ifs with kept
  · by_cases shares : slotOf other = slotOf key
    · obtain ⟨value, found⟩ := Option.isSome_iff_exists.mp kept
      rw [get_eq_some_iff] at found
      simp [get, clear, shares, found, different.symm]
    · simp [get, clear, Function.update_of_ne shares]
  · rfl

end DirectMapped

end Nodecore.Lib
