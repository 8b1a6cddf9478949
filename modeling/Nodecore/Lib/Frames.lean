/-
# Framed sections

A section is written as a tag, the length of its data in eight bytes and the data.  However many
sections of whatever contents are written one after the other, they can be read back, since
every section says where it ends.
-/

import Mathlib.Algebra.Group.Nat.Defs
import Nodecore.Lib.Bytes

namespace Nodecore.Lib

def putUint64 (n : ℕ) : Bytes := (List.range 8).reverse.map fun i => (n / 256 ^ i).toUInt8

theorem putUint64_inj {n m : ℕ} (bound : n < 2 ^ 64) (bound' : m < 2 ^ 64)
    (same : putUint64 n = putUint64 m) : n = m := by
  have digits : ∀ i < 8, n / 256 ^ i % 256 = m / 256 ^ i % 256 := by
    intro i small
    have here := List.map_inj_left.mp same i (by simpa using small)
    simpa [Nat.toUInt8, ← UInt8.toNat_inj] using here
  have := digits 0
  have := digits 1
  have := digits 2
  have := digits 3
  have := digits 4
  have := digits 5
  have := digits 6
  have := digits 7
  omega

def writeSection (tag : UInt8) (data : Bytes) : Bytes := tag :: (putUint64 data.length ++ data)

theorem writeSection_append_inj {tag tag' : UInt8} {data data' rest rest' : Bytes}
    (bound : data.length < 2 ^ 64) (bound' : data'.length < 2 ^ 64)
    (same : writeSection tag data ++ rest = writeSection tag' data' ++ rest') :
    tag = tag' ∧ data = data' ∧ rest = rest' := by
  rw [writeSection, writeSection, List.cons_append, List.cons_append, List.append_assoc,
    List.append_assoc, List.cons.injEq] at same
  obtain ⟨sameLength, later⟩ := List.append_inj same.2 (by simp [putUint64])
  obtain ⟨sameData, sameRest⟩ := List.append_inj later (putUint64_inj bound bound' sameLength)
  exact ⟨same.1, sameData, sameRest⟩

theorem sections_inj {sections others : List (UInt8 × Bytes)}
    (bound : ∀ part ∈ sections, part.2.length < 2 ^ 64)
    (bound' : ∀ part ∈ others, part.2.length < 2 ^ 64)
    (same : sections.flatMap (fun part => writeSection part.1 part.2) =
      others.flatMap fun part => writeSection part.1 part.2) : sections = others := by
  induction sections generalizing others with
  | nil =>
    cases others with
    | nil => rfl
    | cons other others => simp [writeSection] at same
  | cons part sections ih =>
    cases others with
    | nil => simp [writeSection] at same
    | cons other others =>
      rw [List.forall_mem_cons] at bound bound'
      rw [List.flatMap_cons, List.flatMap_cons] at same
      obtain ⟨sameTag, sameData, later⟩ := writeSection_append_inj bound.1 bound'.1 same
      rw [ih bound.2 bound'.2 later, Prod.ext sameTag sameData]

end Nodecore.Lib
