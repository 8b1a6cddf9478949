/-
# Totals

The values of a map or the members of a family are weighed and added up.
Replacing or removing one changes the total by the weight of what was there.
-/

import Mathlib.Algebra.GroupWithZero.Nat
import Mathlib.Data.Fintype.BigOperators
import Nodecore.Lib.GoMap

namespace Nodecore.Lib

open Finset in
theorem sum_update_add {ι α M : Type*} [Fintype ι] [DecidableEq ι] [AddCommMonoid M]
    (weight : α → M) (family : ι → α) (i : ι) (a : α) :
    ∑ j, weight (Function.update family i a j) + weight (family i) =
      ∑ j, weight (family j) + weight a := by
  have rest : ∑ j ∈ univ.erase i, weight (Function.update family i a j) =
      ∑ j ∈ univ.erase i, weight (family j) := by
    refine sum_congr rfl fun j other => ?_
    rw [Function.update_of_ne (ne_of_mem_erase other)]
  rw [← add_sum_erase univ _ (mem_univ i), ← add_sum_erase univ (fun j => weight (family j))
    (mem_univ i), rest, Function.update_self, add_comm, ← add_assoc, add_right_comm]

namespace GoMap

variable {κ ν : Type*} [DecidableEq κ] (weight : ν → ℕ)

def total (m : GoMap κ ν) : ℕ := (m.entries.map fun entry => weight entry.2).sum

variable (m : GoMap κ ν)

theorem total_erase_add (key : κ) :
    total weight (m.erase key) + ((m.lookup key).map weight).getD 0 = total weight m := by
  by_cases held : key ∈ m
  · obtain ⟨value, before, after, -, entries, erased⟩ :=
      List.exists_of_kerase (AList.mem_keys.mp held)
    have found : m.lookup key = some value := by
      apply AList.mem_lookup_iff.mpr
      rw [entries]
      simp
    have isErased : (m.erase key).entries = before ++ after := erased
    rw [total, total, isErased, entries, found]
    simp only [List.map_append, List.map_cons, List.sum_append, List.sum_cons, Option.map_some,
      Option.getD_some]
    omega
  · have same : (m.erase key).entries = m.entries :=
      List.kerase_of_notMem_keys fun listed => held (AList.mem_keys.mpr listed)
    rw [total, total, same, AList.lookup_eq_none.mpr held]
    rfl

theorem total_insert (key : κ) (value : ν) :
    total weight (m.insert key value) = weight value + total weight (m.erase key) := by
  rw [total, AList.entries_insert, List.map_cons, List.sum_cons]
  rfl

theorem total_foldl_erase_add [DecidableEq ν] {picked : List (Entry κ ν)}
    (listed : picked.Subperm m.entries) :
    total weight ((picked.map Sigma.fst).foldl (fun left key => left.erase key) m) +
        (picked.map fun entry => weight entry.2).sum = total weight m := by
  have nodup : m.entries.Nodup := m.nodupKeys.nodup
  have pickedNodup : picked.Nodup := by
    obtain ⟨sorted, perm, sub⟩ := listed
    exact perm.nodup_iff.mp (sub.nodup nodup)
  have taken : (m.entries.filter fun entry => entry.1 ∈ picked.map Sigma.fst).Perm picked := by
    rw [List.perm_ext_iff_of_nodup (nodup.filter _) pickedNodup]
    intro entry
    rw [List.mem_filter, decide_eq_true_eq, List.mem_map]
    constructor
    · rintro ⟨held, other, isPicked, same⟩
      have key : other = entry := List.NodupKeys.eq_of_fst_eq m.nodupKeys
        (listed.subset isPicked) held same
      exact key ▸ isPicked
    · intro isPicked
      exact ⟨listed.subset isPicked, entry, isPicked, rfl⟩
  have split := List.filter_append_perm (fun entry : Entry κ ν => entry.1 ∈ picked.map Sigma.fst)
    m.entries
  rw [total, total, entries_foldl_erase, ← (taken.map fun entry => weight entry.2).sum_eq,
    ← (split.map fun entry => weight entry.2).sum_eq, List.map_append, List.sum_append,
    Nat.add_comm]
  simp

end GoMap

end Nodecore.Lib
