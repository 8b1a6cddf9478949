/-
# Readers

A reader is asked for at most as many bytes as a buffer has room for.  It gives some
of them, possibly none, and it may tell with them or later that it has come to its
end.  Readers are put one behind another, read until a buffer is full and read to
the end.  What they give when they are read to the end is their content, in
whatever pieces it came.
-/

import Mathlib.Data.List.Infix

namespace Nodecore.Lib

variable {β σ : Type*}

inductive IoError
  | eof
  | unexpectedEof
  | failed
  deriving DecidableEq

/-- What one read gives, and the reader after it. -/
structure Reading (β σ : Type*) where
  bytes : List β
  error : Option IoError
  next : σ
  deriving DecidableEq

/-- Readers one behind another: a reader that has ended is dropped, and its end is told only
if it was the last. -/
def multiRead (read : σ → ℕ → Reading β σ) : List σ → ℕ → Reading β (List σ)
  | [], _ => ⟨[], some .eof, []⟩
  | reader :: readers, size =>
    let reading := read reader size
    if reading.error = some .eof then
      if reading.bytes.isEmpty then multiRead read readers size
      else ⟨reading.bytes, if readers.isEmpty then some .eof else none, readers⟩
    else ⟨reading.bytes, reading.error, reading.next :: readers⟩

/-- Reads on until the buffer is full or there is an error. -/
def gather (read : σ → ℕ → Reading β σ) : ℕ → σ → ℕ → Reading β σ
  | 0, reader, _ => ⟨[], none, reader⟩
  | fuel + 1, reader, size =>
    if size = 0 then ⟨[], none, reader⟩
    else
      let reading := read reader size
      match reading.error with
      | none =>
        let rest := gather read fuel reading.next (size - reading.bytes.length)
        ⟨reading.bytes ++ rest.bytes, rest.error, rest.next⟩
      | some error => ⟨reading.bytes, some error, reading.next⟩

/-- Fills a buffer.  An error does not count when the buffer is full, and an end after some
bytes is unexpected. -/
def readFull (read : σ → ℕ → Reading β σ) (fuel : ℕ) (reader : σ) (size : ℕ) : Reading β σ :=
  let reading := gather read fuel reader size
  { reading with
    error :=
      if size ≤ reading.bytes.length then none
      else if reading.error = some .eof ∧ ¬ reading.bytes.isEmpty then some .unexpectedEof
      else reading.error }

/-- Reads into buffers of the given sizes until there is an error. -/
def drain (read : σ → ℕ → Reading β σ) : List ℕ → σ → List β × Option IoError
  | [], _ => ([], none)
  | size :: sizes, reader =>
    let reading := read reader size
    match reading.error with
    | none =>
      let rest := drain read sizes reading.next
      (reading.bytes ++ rest.1, rest.2)
    | some error => (reading.bytes, some error)

/-- A read gives a part of the content, at least one byte unless it tells the end, and the rest
is still to come. -/
structure Reading.Delivers (content : σ → List β) (valid : σ → Prop) (reader : σ) (size : ℕ)
    (reading : Reading β σ) : Prop where
  fits : reading.bytes.length ≤ size
  delivers : reading.error = none ∧ reading.bytes ≠ [] ∧ valid reading.next ∧
      content reader = reading.bytes ++ content reading.next ∨
    reading.error = some .eof ∧ content reader = reading.bytes

/-- Every read of a valid reader delivers. -/
def Delivers (read : σ → ℕ → Reading β σ) (content : σ → List β) (valid : σ → Prop) : Prop :=
  ∀ reader size, valid reader → 0 < size → (read reader size).Delivers content valid reader size

/-- After its end a reader is still a valid one, without content. -/
def Rests (read : σ → ℕ → Reading β σ) (content : σ → List β) (valid : σ → Prop) : Prop :=
  ∀ reader size, valid reader → (read reader size).error = some .eof →
    valid (read reader size).next ∧ content (read reader size).next = []

section Rules

variable {read : σ → ℕ → Reading β σ} {content : σ → List β} {valid : σ → Prop}

theorem Delivers.multiRead (delivers : Delivers read content valid) :
    Delivers (multiRead read) (List.flatMap content) (fun readers => ∀ reader ∈ readers,
      valid reader) := by
  intro readers size allValid positive
  induction readers with
  | nil => exact ⟨Nat.zero_le _, .inr ⟨rfl, rfl⟩⟩
  | cons reader readers ih =>
    rw [List.forall_mem_cons] at allValid
    obtain ⟨fits, goesOn | ⟨isEof, whole⟩⟩ := delivers reader size allValid.1 positive
    · obtain ⟨noError, some, stays, split⟩ := goesOn
      rw [Lib.multiRead, if_neg (by simp [noError])]
      refine ⟨fits, .inl ⟨noError, some, ?_, ?_⟩⟩
      · exact List.forall_mem_cons.mpr ⟨stays, allValid.2⟩
      · rw [List.flatMap_cons, List.flatMap_cons, split, List.append_assoc]
    · rw [Lib.multiRead, if_pos isEof]
      split
      · rename_i isEmpty
        obtain ⟨restFits, rest⟩ := ih allValid.2
        rw [List.isEmpty_iff.mp isEmpty] at whole
        refine ⟨restFits, ?_⟩
        rw [List.flatMap_cons, whole, List.nil_append]
        exact rest
      · rename_i nonempty
        refine ⟨fits, ?_⟩
        rw [List.flatMap_cons, whole]
        cases readers with
        | nil => exact .inr ⟨rfl, List.append_nil _⟩
        | cons second others =>
          exact .inl ⟨rfl, fun isNil => nonempty (by rw [isNil]; rfl), allValid.2, rfl⟩

theorem multiRead_next_of_eof {readers : List σ} {size : ℕ}
    (isEof : (multiRead read readers size).error = some .eof) :
    (multiRead read readers size).next = [] := by
  induction readers with
  | nil => rfl
  | cons reader readers ih =>
    rw [multiRead] at isEof ⊢
    split at isEof
    · rename_i ended
      rw [if_pos ended]
      split at isEof
      · rename_i isEmpty
        rw [if_pos isEmpty]
        exact ih isEof
      · rename_i nonempty
        rw [if_neg nonempty]
        cases readers with
        | nil => rfl
        | cons second others => cases isEof
    · rename_i goesOn
      exact absurd isEof goesOn

theorem multiRead_rests :
    Rests (multiRead read) (List.flatMap content) (fun readers => ∀ reader ∈ readers,
      valid reader) := by
  intro readers size _ isEof
  rw [multiRead_next_of_eof isEof]
  exact ⟨by simp, rfl⟩

section

variable (delivers : Delivers read content valid) (rests : Rests read content valid) {fuel size : ℕ}
  (enough : size ≤ fuel) {reader : σ} (isValid : valid reader)
include delivers rests enough isValid

theorem Delivers.gather :
    content reader = (gather read fuel reader size).bytes ++
        content (gather read fuel reader size).next ∧
      valid (gather read fuel reader size).next ∧
      (gather read fuel reader size).bytes.length ≤ size ∧
      ((gather read fuel reader size).bytes.length = size ∨
        (gather read fuel reader size).error = some .eof ∧
          content (gather read fuel reader size).next = []) := by
  induction fuel generalizing reader size with
  | zero =>
    obtain rfl : size = 0 := Nat.le_zero.mp enough
    exact ⟨rfl, isValid, Nat.le_refl _, .inl rfl⟩
  | succ fuel ih =>
    rw [Lib.gather]
    by_cases full : size = 0
    · rw [if_pos full]
      exact ⟨rfl, isValid, Nat.zero_le _, .inl full.symm⟩
    · rw [if_neg full]
      obtain ⟨fits, goesOn | ⟨isEof, whole⟩⟩ :=
        delivers reader size isValid (Nat.pos_of_ne_zero full)
      · obtain ⟨noError, some, stays, split⟩ := goesOn
        have progress := List.length_pos_iff.mpr some
        have less : size - (read reader size).bytes.length ≤ fuel := by omega
        obtain ⟨rest, restValid, restFits, restEnd⟩ := ih less stays
        simp only [noError]
        refine ⟨?_, restValid, ?_, ?_⟩
        · rw [split, List.append_assoc, ← rest]
        · rw [List.length_append]
          omega
        · rw [List.length_append]
          exact restEnd.imp (fun isFull => by omega) id
      · obtain ⟨stays, empty⟩ := rests reader size isValid isEof
        simp only [isEof]
        exact ⟨by rw [empty, List.append_nil, whole], stays, fits, .inr ⟨trivial, empty⟩⟩

theorem Delivers.readFull :
    content reader = (readFull read fuel reader size).bytes ++
        content (readFull read fuel reader size).next ∧
      valid (readFull read fuel reader size).next ∧
      ((readFull read fuel reader size).error = none ∧
          (readFull read fuel reader size).bytes.length = size ∨
        ((readFull read fuel reader size).error = some .eof ∨
          (readFull read fuel reader size).error = some .unexpectedEof) ∧
          (readFull read fuel reader size).bytes.length < size ∧
          content (readFull read fuel reader size).next = []) := by
  obtain ⟨split, stays, fits, ended⟩ := delivers.gather rests enough isValid
  refine ⟨split, stays, ?_⟩
  simp only [Lib.readFull]
  by_cases full : size ≤ (Lib.gather read fuel reader size).bytes.length
  · rw [if_pos full]
    exact .inl ⟨rfl, Nat.le_antisymm fits full⟩
  · rw [if_neg full]
    obtain ⟨isEof, empty⟩ := ended.resolve_left (fun isFull => full isFull.ge)
    refine .inr ⟨?_, by omega, empty⟩
    split
    · exact .inr rfl
    · exact .inl isEof

end

/-- Reading ends with all of the content, or every read so far has given a part of it. -/
theorem Delivers.drain (delivers : Delivers read content valid) {sizes : List ℕ}
    (positive : ∀ size ∈ sizes, 0 < size) {reader : σ} (isValid : valid reader) :
    drain read sizes reader = (content reader, some .eof) ∨
      (drain read sizes reader).2 = none ∧ (drain read sizes reader).1 <+: content reader ∧
        sizes.length ≤ (drain read sizes reader).1.length := by
  induction sizes generalizing reader with
  | nil => exact .inr ⟨rfl, List.nil_prefix, Nat.le_refl _⟩
  | cons size sizes ih =>
    rw [List.forall_mem_cons] at positive
    rw [Lib.drain]
    obtain ⟨-, goesOn | ⟨isEof, whole⟩⟩ := delivers reader size isValid positive.1
    · obtain ⟨noError, some, stays, split⟩ := goesOn
      have progress := List.length_pos_iff.mpr some
      simp only [noError]
      rcases ih positive.2 stays with ended | ⟨unended, isPrefix, long⟩
      · rw [ended, split]
        exact .inl rfl
      · refine .inr ⟨unended, ?_, ?_⟩
        · rw [split]
          exact (List.prefix_append_right_inj _).mpr isPrefix
        · rw [List.length_cons, List.length_append]
          omega
    · simp only [isEof, whole]
      exact .inl trivial

end Rules

/-- A reader of some bytes.  The plan says how many bytes the next reads give at most, where
nothing at all is possible; after it they give what there is.  The end may be told together
with the last bytes. -/
structure Source (β : Type*) where
  rest : List β
  plan : List ℕ := []
  eager : Bool := false
  ending : IoError := .eof
  deriving DecidableEq

namespace Source

def read (source : Source β) (size : ℕ) : Reading β (Source β) :=
  match source.plan with
  | 0 :: plan => ⟨[], none, { source with plan := plan }⟩
  | plan =>
    if source.rest.isEmpty then ⟨[], some source.ending, source⟩
    else
      let count := min size (plan.headD size)
      let left := source.rest.drop count
      ⟨source.rest.take count, if left.isEmpty && source.eager then some source.ending else none,
        { source with rest := left, plan := plan.tail }⟩

def readAll (source : Source β) : Except IoError (List β) :=
  match source.ending with
  | .eof => .ok source.rest
  | error => .error error

/-- The reads give at least one byte each until the end comes. -/
def Steady (source : Source β) : Prop := source.ending = .eof ∧ 0 ∉ source.plan

instance (source : Source β) : Decidable source.Steady := inferInstanceAs (Decidable (_ ∧ _))

def ofBytes (bytes : List β) : Source β := { rest := bytes }

def single (b : β) : Source β := { rest := [b], eager := true }

theorem steady_ofBytes (bytes : List β) : (ofBytes bytes).Steady := ⟨rfl, by simp [ofBytes]⟩

theorem steady_single (b : β) : (single b).Steady := ⟨rfl, by simp [single]⟩

theorem delivers : Delivers (read : Source β → ℕ → Reading β (Source β)) rest Steady := by
  rintro ⟨rest, plan, eager, ending⟩ size ⟨isEof, noEmpty⟩ positive
  simp only at isEof noEmpty
  subst isEof
  have first : plan.headD size ≠ 0 := by
    cases plan with
    | nil => exact Nat.pos_iff_ne_zero.mp positive
    | cons most plan => exact fun isZero => noEmpty (by simp [← isZero])
  have unplanned : read ⟨rest, plan, eager, .eof⟩ size =
      if rest.isEmpty then ⟨[], some .eof, ⟨rest, plan, eager, .eof⟩⟩
      else ⟨rest.take (min size (plan.headD size)),
        if (rest.drop (min size (plan.headD size))).isEmpty && eager then some .eof else none,
        ⟨rest.drop (min size (plan.headD size)), plan.tail, eager, .eof⟩⟩ := by
    unfold read
    split
    · rename_i isPlan
      simp only at isPlan
      simp [isPlan] at first
    · rfl
  rw [unplanned]
  cases rest with
  | nil => exact ⟨Nat.zero_le _, .inr ⟨rfl, rfl⟩⟩
  | cons b rest =>
    have count : 0 < min size (plan.headD size) := by omega
    have kept : (⟨(b :: rest).drop (min size (plan.headD size)), plan.tail, eager, .eof⟩ :
        Source β).Steady := ⟨rfl, fun listed => noEmpty (List.mem_of_mem_tail listed)⟩
    have nonempty : (b :: rest).take (min size (plan.headD size)) ≠ [] := by
      apply List.ne_nil_of_length_pos
      rw [List.length_take, List.length_cons]
      omega
    rw [if_neg (by simp)]
    refine ⟨(List.length_take_le _ _).trans (Nat.min_le_left _ _), ?_⟩
    split
    · rename_i ended
      have empty := List.isEmpty_iff.mp (Bool.and_eq_true_iff.mp ended).1
      refine .inr ⟨rfl, ?_⟩
      conv_lhs => rw [← List.take_append_drop (min size (plan.headD size)) (b :: rest)]
      rw [empty, List.append_nil]
    · exact .inl ⟨rfl, nonempty, kept, (List.take_append_drop _ _).symm⟩

end Source

end Nodecore.Lib
