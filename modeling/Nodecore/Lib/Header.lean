/-
# HTTP headers

The standard library keeps headers under the canonical spelling of their names: the first
letter and every letter after a hyphen in upper case, the rest in lower case.  A name with
a byte that no header name can have is left as it is.
-/

import Nodecore.Lib.Bytes
import Nodecore.Lib.GoMap

namespace Nodecore.Lib

def upperByte (b : UInt8) : UInt8 := if 0x61 ≤ b ∧ b ≤ 0x7a then b - 0x20 else b

def lowerByte (b : UInt8) : UInt8 := if 0x41 ≤ b ∧ b ≤ 0x5a then b + 0x20 else b

def isLetterOrDigit (b : UInt8) : Bool :=
  (0x61 ≤ b && b ≤ 0x7a) || (0x41 ≤ b && b ≤ 0x5a) || (0x30 ≤ b && b ≤ 0x39)

def validHeaderFieldByte (b : UInt8) : Bool :=
  isLetterOrDigit b || (bytes "!#$%&'*+-.^_`|~").contains b

/-- Sets the case of the letters, the first one to upper case if `upper`. -/
def canonicalLetters : Bool → Bytes → Bytes
  | _, [] => []
  | upper, b :: rest =>
    let cased := if upper then upperByte b else lowerByte b
    cased :: canonicalLetters (cased == byte '-') rest

def canonicalHeaderKey (key : Bytes) : Bytes :=
  if key.all validHeaderFieldByte then canonicalLetters true key else key

variable (key : Bytes)

theorem canonicalLetters_idem (upper : Bool) :
    canonicalLetters upper (canonicalLetters upper key) = canonicalLetters upper key := by
  have upper_idem : ∀ b, upperByte (upperByte b) = upperByte b := forall_byte (by decide +kernel)
  have lower_idem : ∀ b, lowerByte (lowerByte b) = lowerByte b := forall_byte (by decide +kernel)
  induction key generalizing upper with
  | nil => rfl
  | cons b rest ih =>
    cases upper with
    | true => simp [canonicalLetters, upper_idem, ih]
    | false => simp [canonicalLetters, lower_idem, ih]

theorem all_valid_canonicalLetters (upper : Bool) {key : Bytes}
    (valid : key.all validHeaderFieldByte = true) :
    (canonicalLetters upper key).all validHeaderFieldByte = true := by
  have upper_valid : ∀ b, validHeaderFieldByte b = true →
      validHeaderFieldByte (upperByte b) = true := forall_byte (by decide +kernel)
  have lower_valid : ∀ b, validHeaderFieldByte b = true →
      validHeaderFieldByte (lowerByte b) = true := forall_byte (by decide +kernel)
  induction key generalizing upper with
  | nil => rfl
  | cons b rest ih =>
    obtain ⟨first, later⟩ := Bool.and_eq_true_iff.mp valid
    rw [canonicalLetters, List.all_cons, ih _ later, Bool.and_true]
    cases upper with
    | true => exact upper_valid b first
    | false => exact lower_valid b first

@[simp]
theorem canonicalHeaderKey_idem :
    canonicalHeaderKey (canonicalHeaderKey key) = canonicalHeaderKey key := by
  by_cases valid : key.all validHeaderFieldByte = true
  · rw [canonicalHeaderKey, canonicalHeaderKey, if_pos valid,
      if_pos (all_valid_canonicalLetters true valid), canonicalLetters_idem]
  · rw [canonicalHeaderKey, canonicalHeaderKey, if_neg valid, if_neg valid]

/-- The values under each canonical name, in order. -/
abbrev Header := Bytes → List Bytes

/-- What a server makes of the header lines of a request. -/
def readHeader (lines : List (Bytes × Bytes)) : Header := fun key =>
  lines.filterMap fun line => if canonicalHeaderKey line.1 = key then some line.2 else none

namespace Header

variable (header : Header)

def values (key : Bytes) : List Bytes := header (canonicalHeaderKey key)

def get (key : Bytes) : Bytes := (header.values key).head?.getD []

def set (key value : Bytes) : Header := Function.update header (canonicalHeaderKey key) [value]

def add (key value : Bytes) : Header :=
  Function.update header (canonicalHeaderKey key) (header.values key ++ [value])

theorem foldl_add (values : List Bytes) :
    values.foldl (fun header value => header.add key value) header =
      Function.update header (canonicalHeaderKey key) (header.values key ++ values) := by
  induction values generalizing header with
  | nil => simp [Header.values]
  | cons value values ih =>
    rw [List.foldl_cons, ih]
    simp [add, Header.values]

end Header

def addLine (headers : GoMap Bytes (List Bytes)) (line : Bytes × Bytes) :
    GoMap Bytes (List Bytes) :=
  let key := canonicalHeaderKey line.1
  headers.insert key ((headers.lookup key).getD [] ++ [line.2])

/-- The header lines of a request as a map from the canonical names. -/
def readHeaders (lines : List (Bytes × Bytes)) : GoMap Bytes (List Bytes) := lines.foldl addLine ∅

variable (lines : List (Bytes × Bytes))

theorem lookup_foldl_addLine (headers : GoMap Bytes (List Bytes)) :
    ((lines.foldl addLine headers).lookup key).getD [] =
      (headers.lookup key).getD [] ++ readHeader lines key := by
  induction lines generalizing headers with
  | nil => simp [readHeader]
  | cons line lines ih =>
    rw [List.foldl_cons, ih]
    by_cases same : canonicalHeaderKey line.1 = key
    · subst same
      simp [readHeader, addLine]
    · simp [readHeader, addLine, same, AList.lookup_insert_ne (Ne.symm same)]

theorem lookup_readHeaders : ((readHeaders lines).lookup key).getD [] = readHeader lines key := by
  rw [readHeaders, lookup_foldl_addLine]
  simp

theorem canonical_foldl_addLine {lines : List (Bytes × Bytes)}
    {headers : GoMap Bytes (List Bytes)} (canonical : ∀ key ∈ headers, canonicalHeaderKey key = key) :
    ∀ key ∈ lines.foldl addLine headers, canonicalHeaderKey key = key := by
  induction lines generalizing headers with
  | nil => exact canonical
  | cons line lines ih =>
    refine ih ?_
    intro key member
    rcases (AList.mem_insert _).mp member with same | earlier
    · rw [same, canonicalHeaderKey_idem]
    · exact canonical key earlier

theorem canonical_readHeaders : ∀ key ∈ readHeaders lines, canonicalHeaderKey key = key :=
  canonical_foldl_addLine fun key member => absurd member (AList.notMem_empty key)

end Nodecore.Lib
