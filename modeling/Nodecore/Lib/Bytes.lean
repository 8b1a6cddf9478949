/-
# Byte strings

A string of the source language is a sequence of bytes.  This module has the operations
on such strings that the standard library is used for: trimming white space, and cutting,
splitting and joining at a byte.
-/

import Mathlib.Data.List.TakeWhile
import Mathlib.Logic.Function.Iterate

namespace Nodecore.Lib

abbrev Bytes := List UInt8

instance : LawfulBEq Bytes := inferInstance

def bytes (text : String) : Bytes := text.toUTF8.data.toList

theorem bytes_injective : Function.Injective bytes := fun _ _ same =>
  String.toByteArray_inj.mp (ByteArray.ext (Array.toList_inj.mp same))

def byte (char : Char) : UInt8 := char.toNat.toUInt8

theorem forall_byte {holds : UInt8 → Prop} (all : ∀ n < 256, holds n.toUInt8) (b : UInt8) :
    holds b := by
  have here := all b.toNat b.toNat_lt
  rwa [Nat.toUInt8, UInt8.ofNat_toNat] at here

/-- The characters the standard library takes for white space. -/
def spaceChars : List Char :=
  ([0x09, 0x0a, 0x0b, 0x0c, 0x0d, 0x20, 0x85, 0xa0, 0x1680] ++
    (List.range 11).map (0x2000 + ·) ++ [0x2028, 0x2029, 0x202f, 0x205f, 0x3000]).map Char.ofNat

def spaces : List Bytes := spaceChars.map fun char => bytes char.toString

/-- Cuts off the first of some texts that comes first. -/
def cutOne (texts : List Bytes) (bytes : Bytes) : Bytes :=
  (texts.findSome? fun text =>
    if text.isPrefixOf bytes then some (bytes.drop text.length) else none).getD bytes

/-- Cuts them off as long as there are any. -/
def cutAll (texts : List Bytes) (bytes : Bytes) : Bytes := (cutOne texts)^[bytes.length] bytes

def trimSpace (bytes : Bytes) : Bytes :=
  let front := cutAll spaces bytes
  (cutAll (spaces.map List.reverse) front.reverse).reverse

section Cut

variable {separator : UInt8} {text rest : Bytes}

/-- What comes before the first separator and what comes after it. -/
def cut (separator : UInt8) (text : Bytes) : Bytes × Bytes :=
  (text.takeWhile (· != separator), (text.dropWhile (· != separator)).drop 1)

theorem forall_bne_of_not_mem (absent : separator ∉ text) :
    ∀ b ∈ text, (b != separator) = true := by
  intro b member
  exact bne_iff_ne.mpr fun same => absent (same ▸ member)

theorem cut_of_not_mem (absent : separator ∉ text) : cut separator text = (text, []) := by
  have all := forall_bne_of_not_mem absent
  rw [cut, List.takeWhile_eq_self_iff.mpr all, List.dropWhile_eq_nil_iff.mpr all, List.drop_nil]

theorem cut_append_cons (absent : separator ∉ text) :
    cut separator (text ++ separator :: rest) = (text, rest) := by
  have all := forall_bne_of_not_mem absent
  rw [cut, List.takeWhile_append_of_pos all, List.dropWhile_append_of_pos all]
  simp

theorem eq_or_eq_of_cut (separator : UInt8) (text : Bytes) :
    separator ∉ (cut separator text).1 ∧
      ((separator ∉ text ∧ text = (cut separator text).1) ∨
        text = (cut separator text).1 ++ separator :: (cut separator text).2) := by
  by_cases present : separator ∈ text
  · obtain ⟨before, after, rfl, absent⟩ := List.eq_append_cons_of_mem present
    rw [cut_append_cons absent]
    exact ⟨absent, .inr rfl⟩
  · rw [cut_of_not_mem present]
    exact ⟨present, .inl ⟨present, rfl⟩⟩

end Cut

theorem intercalate_map_splitOn {α β : Type*} [BEq α] [LawfulBEq α] (separator : α)
    (rewritten : α → List β) (joint : List β) (text : List α) :
    joint.intercalate ((text.splitOn separator).map (·.flatMap rewritten)) =
      text.flatMap fun a => if a == separator then joint else rewritten a := by
  induction text with
  | nil => simp
  | cons a text ih =>
    obtain ⟨part, parts, parted⟩ :=
      List.exists_cons_of_ne_nil (List.splitOnP_ne_nil (· == separator) text)
    rw [List.splitOn_eq_splitOnP, parted] at ih
    rw [List.splitOn_eq_splitOnP, List.splitOnP_cons_eq_if_modifyHead, parted, List.flatMap_cons,
      ← ih]
    split
    · simp
    · cases parts <;> simp

section Parts

variable {α : Type*} {separator a : α} {part : List α} {parts : List (List α)}

theorem eq_or_mem_of_mem_intercalate (member : a ∈ [separator].intercalate parts) :
    a = separator ∨ ∃ part ∈ parts, a ∈ part := by
  induction parts with
  | nil => simp at member
  | cons part parts ih =>
    by_cases last : parts = []
    · subst last
      rw [List.intercalate_singleton] at member
      exact .inr ⟨part, List.mem_cons_self, member⟩
    · rw [List.intercalate_cons_of_ne_nil last, List.mem_append, List.mem_append,
        List.mem_singleton] at member
      rcases member with (here | mark) | later
      · exact .inr ⟨part, List.mem_cons_self, here⟩
      · exact .inl mark
      · rcases ih later with mark | ⟨other, listed, here⟩
        · exact .inl mark
        · exact .inr ⟨other, List.mem_cons_of_mem _ listed, here⟩

theorem mem_intercalate_of_mem (listed : part ∈ parts) (member : a ∈ part) :
    a ∈ [separator].intercalate parts := by
  induction parts with
  | nil => cases listed
  | cons first parts ih =>
    by_cases last : parts = []
    · subst last
      rw [List.mem_singleton] at listed
      rwa [List.intercalate_singleton, ← listed]
    · rw [List.intercalate_cons_of_ne_nil last, List.mem_append, List.mem_append]
      rcases List.mem_cons.mp listed with rfl | later
      · exact .inl (.inl member)
      · exact .inr (ih later)

theorem not_mem_of_mem_splitOn [BEq α] [LawfulBEq α] {text : List α}
    (listed : part ∈ text.splitOn separator) : separator ∉ part := by
  induction text generalizing part with
  | nil =>
    rw [List.splitOn_nil, List.mem_singleton] at listed
    simp [listed]
  | cons b text ih =>
    rw [List.splitOn_cons_eq_if_modifyHead] at listed
    split at listed
    · rcases List.mem_cons.mp listed with rfl | later
      · exact List.not_mem_nil
      · exact ih later
    · rename_i other
      obtain ⟨first, parts, parted⟩ :=
        List.exists_cons_of_ne_nil (List.splitOn_ne_nil separator text)
      rw [parted, List.modifyHead_cons, List.mem_cons] at listed
      rw [parted] at ih
      rcases listed with rfl | later
      · rw [List.mem_cons, not_or]
        exact ⟨fun same => other (beq_iff_eq.mpr same.symm), ih List.mem_cons_self⟩
      · exact ih (List.mem_cons_of_mem _ later)

end Parts

end Nodecore.Lib
