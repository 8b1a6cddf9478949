/-
# Strings among JSON texts

A value is a string exactly when it opens with a quote, and the body of a string
holds no further quote that is not escaped.  From these two facts follows what
becomes of a text that is cut before its last byte and closed again with a quote
after some plain letters: the outcome is a text again if and only if the byte cut
off was the closing quote of a string.
-/

import Mathlib.Data.List.Induction
import Nodecore.Lib.Json.Grammar

namespace Nodecore.Lib.Json

def isLetter (b : UInt8) : Bool := decide (32 ≤ b) && b != quote && b != backslash

variable {text front before letters : List UInt8}

theorem isStringBody_of_letters (letters : ∀ b ∈ text, isLetter b) : IsStringBody text := by
  induction text with
  | nil => exact .nil
  | cons b rest ih =>
    have letter := letters b List.mem_cons_self
    simp only [isLetter, Bool.and_eq_true, decide_eq_true_eq, bne_iff_ne] at letter
    exact .plain letter.1.1 letter.1.2 letter.2
      (ih fun c member => letters c (List.mem_cons_of_mem b member))

variable {back : List UInt8}

theorem IsStringBody.append (isFront : IsStringBody front)
    (isBack : IsStringBody back) : IsStringBody (front ++ back) := by
  induction isFront with
  | nil => exact isBack
  | plain printable notQuote notBackslash _ ih =>
    exact .plain printable notQuote notBackslash ih
  | escaped isEscaped _ ih => exact .escaped isEscaped ih
  | codePoint first second third fourth _ ih => exact .codePoint first second third fourth ih

theorem IsStringBody.not_append_quote (isFront : IsStringBody front) :
    ¬ IsStringBody (front ++ quote :: back) := by
  induction isFront with
  | nil =>
    intro isBody
    cases isBody with
    | plain _ notQuote => exact notQuote rfl
  | @plain _ rest _ _ notBackslash _ ih =>
    simp only [List.cons_append]
    generalize rest ++ quote :: back = tail at ih ⊢
    intro isBody
    cases isBody with
    | plain _ _ _ more => exact ih more
    | escaped | codePoint => exact notBackslash rfl
  | @escaped _ rest isEscaped _ ih =>
    simp only [List.cons_append]
    generalize rest ++ quote :: back = tail at ih ⊢
    intro isBody
    cases isBody with
    | plain _ _ notBackslash => exact notBackslash rfl
    | escaped _ more => exact ih more
    | codePoint => exact absurd isEscaped (by decide)
  | @codePoint _ _ _ _ rest _ _ _ _ _ ih =>
    simp only [List.cons_append]
    generalize rest ++ quote :: back = tail at ih ⊢
    intro isBody
    cases isBody with
    | plain _ _ notBackslash => exact notBackslash rfl
    | escaped isEscaped => exact absurd isEscaped (by decide)
    | codePoint _ _ _ _ more => exact ih more

theorem IsScalar.exists_first (scalar : IsScalar text) :
    ∃ first rest, text = first :: rest ∧ isSpace first = false ∧ first ≠ quote := by
  cases text with
  | nil => exact absurd rfl scalar.ne_nil
  | cons first rest =>
    have scalarByte := scalar.forall_isScalarByte first List.mem_cons_self
    have notSpace : isSpace first = false := by
      have noDelimiter := not_isDelimiter_of_isScalarByte scalarByte
      simp only [isDelimiter, Bool.or_eq_false_iff] at noDelimiter
      exact noDelimiter.2
    have plain := isPlain_of_isScalarByte scalarByte
    simp only [isPlain, Bool.and_eq_true, bne_iff_ne] at plain
    exact ⟨first, rest, rfl, notSpace, plain.1.1.1.1⟩

theorem Derives.exists_first (value : Derives .value text) :
    ∃ first rest, text = first :: rest ∧ isSpace first = false ∧
      (first = quote → ∃ body, IsStringBody body ∧ rest = body ++ [quote]) := by
  cases value with
  | scalar isScalar =>
    obtain ⟨first, rest, shape, notSpace, notQuote⟩ := isScalar.exists_first
    exact ⟨first, rest, shape, notSpace, fun isQuote => absurd isQuote notQuote⟩
  | string isBody => exact ⟨quote, _, rfl, rfl, fun _ => ⟨_, isBody, rfl⟩⟩
  | emptyArray | array =>
    exact ⟨openBracket, _, rfl, rfl, fun isQuote => absurd isQuote (by decide)⟩
  | emptyObject | object =>
    exact ⟨openBrace, _, rfl, rfl, fun isQuote => absurd isQuote (by decide)⟩

theorem spaces_append_inj {spaces spaces' rest rest' : List UInt8} {b b' : UInt8}
    (isSpaces : IsSpaces spaces) (isSpaces' : IsSpaces spaces') (notSpace : isSpace b = false)
    (notSpace' : isSpace b' = false) (same : spaces ++ b :: rest = spaces' ++ b' :: rest') :
    spaces = spaces' ∧ b = b' ∧ rest = rest' := by
  induction spaces generalizing spaces' with
  | nil =>
    cases spaces' with
    | nil => exact ⟨rfl, List.cons.inj same⟩
    | cons c spaces' =>
      obtain ⟨rfl, _⟩ := List.cons.inj same
      exact absurd (isSpaces' b List.mem_cons_self) (by simp [notSpace])
  | cons c spaces ih =>
    cases spaces' with
    | nil =>
      obtain ⟨rfl, _⟩ := List.cons.inj same
      exact absurd (isSpaces c List.mem_cons_self) (by simp [notSpace'])
    | cons c' spaces' =>
      obtain ⟨rfl, tails⟩ := List.cons.inj same
      have ofTail := ih (fun d member => isSpaces d (List.mem_cons_of_mem c member))
        (fun d member => isSpaces' d (List.mem_cons_of_mem c member)) tails
      exact ⟨by rw [ofTail.1], ofTail.2⟩

theorem IsDocument.ne_nil (document : IsDocument text) : text ≠ [] := by
  obtain ⟨before, value, after, rfl, _, isValue, _⟩ := document
  obtain ⟨first, rest, rfl, _⟩ := isValue.exists_first
  simp

theorem IsDocument.string_of_quote {rest : List UInt8} (spaces : IsSpaces before)
    (document : IsDocument (before ++ quote :: rest)) :
    ∃ body after, IsStringBody body ∧ IsSpaces after ∧ rest = body ++ quote :: after := by
  obtain ⟨before', value, after, shape, spaces', isValue, spacesAfter⟩ := document
  obtain ⟨first, valueRest, rfl, notSpace, ofQuote⟩ := isValue.exists_first
  rw [List.append_assoc, List.cons_append] at shape
  obtain ⟨_, rfl, rfl⟩ := spaces_append_inj spaces spaces' rfl notSpace shape
  obtain ⟨body, isBody, rfl⟩ := ofQuote rfl
  exact ⟨body, after, isBody, spacesAfter, by simp⟩

theorem isDocument_string {body : List UInt8} (spaces : IsSpaces before)
    (isBody : IsStringBody body) : IsDocument (before ++ quote :: body ++ [quote]) :=
  ⟨before, quote :: body ++ [quote], [], by simp, spaces, .string isBody, isSpaces_nil⟩

theorem IsScalar.quote_not_mem (scalar : IsScalar text) : quote ∉ text := by
  intro member
  exact absurd (scalar.forall_isScalarByte quote member) (by decide)

theorem getLast_ne_quote {b : UInt8} (other : b ≠ quote) :
    (front ++ [b]).getLast? ≠ some quote := by
  rw [List.getLast?_concat]
  exact fun same => other (Option.some.inj same)

theorem Derives.string_of_getLast (value : Derives .value text)
    (closes : text.getLast? = some quote) :
    ∃ body, IsStringBody body ∧ text = quote :: body ++ [quote] := by
  cases value with
  | scalar isScalar =>
    exact absurd (List.mem_of_getLast? closes) isScalar.quote_not_mem
  | string isBody => exact ⟨_, isBody, rfl⟩
  | emptyArray | array | emptyObject | object => exact absurd closes (getLast_ne_quote (by decide))

theorem IsDocument.string_of_getLast (document : IsDocument text)
    (closes : text.getLast? = some quote) :
    ∃ before body, IsSpaces before ∧ IsStringBody body ∧
      text = before ++ quote :: body ++ [quote] := by
  obtain ⟨before, value, after, rfl, spaces, isValue, spacesAfter⟩ := document
  cases after using List.reverseRecOn with
  | nil =>
    obtain ⟨first, rest, rfl, _⟩ := isValue.exists_first
    rw [List.append_nil, List.getLast?_append_of_ne_nil _ (List.cons_ne_nil _ _)] at closes
    obtain ⟨body, isBody, shape⟩ := isValue.string_of_getLast closes
    exact ⟨before, body, spaces, isBody, by rw [shape]; simp⟩
  | append_singleton after last =>
    obtain rfl : last = quote := by simpa using closes
    exact absurd (spacesAfter quote (by simp)) (by decide)

/-- The text with its last byte replaced by some letters and a closing quote. -/
def insertBeforeLast (text letters : List UInt8) : List UInt8 :=
  text.dropLast ++ letters ++ [quote]

theorem isDocument_insertBeforeLast (document : IsDocument text)
    (isLetters : ∀ b ∈ letters, isLetter b) (closes : text.getLast? = some quote) :
    IsDocument (insertBeforeLast text letters) := by
  obtain ⟨before, body, spaces, isBody, rfl⟩ := document.string_of_getLast closes
  have cut := isDocument_string spaces (isBody.append (isStringBody_of_letters isLetters))
  rw [insertBeforeLast, List.dropLast_concat]
  simpa using cut

theorem exists_of_append_letters (isLetters : ∀ b ∈ letters, isLetter b)
    (same : front ++ letters = before ++ quote :: back) :
    ∃ inner, front = before ++ quote :: inner ∧ back = inner ++ letters := by
  rcases List.append_eq_append_iff.mp same with ⟨skipped, reached, letters'⟩ | ⟨inner, reached, cut⟩
  · have member : quote ∈ letters := by rw [letters']; simp
    exact absurd (isLetters quote member) (by decide)
  · cases inner with
    | nil =>
      have member : quote ∈ letters := by rw [← List.nil_append letters, ← cut]; simp
      exact absurd (isLetters quote member) (by decide)
    | cons b inner =>
      obtain ⟨rfl, rest⟩ := List.cons.inj cut
      exact ⟨inner, reached, rest⟩

theorem getLast_of_isDocument_insertBeforeLast (document : IsDocument text)
    (isLetters : ∀ b ∈ letters, isLetter b) (outcome : IsDocument (insertBeforeLast text letters)) :
    text.getLast? = some quote := by
  obtain ⟨before, body, spaces, isBody, shape⟩ :=
    outcome.string_of_getLast (List.getLast?_concat ..)
  obtain ⟨inner, kept, rfl⟩ :=
    exists_of_append_letters isLetters (List.append_cancel_right shape)
  rcases List.eq_nil_or_concat text with rfl | ⟨front, last, rfl⟩
  · exact absurd rfl document.ne_nil
  rw [List.concat_eq_append, List.dropLast_concat] at kept
  subst kept
  -- The text itself opens with that quote, so it is a string up to whitespace.
  have opens : IsDocument (before ++ quote :: (inner ++ [last])) := by simpa using document
  obtain ⟨body', after, isBody', spacesAfter, rest⟩ := opens.string_of_quote spaces
  cases after using List.reverseRecOn with
  | nil =>
    obtain ⟨_, closes⟩ := List.append_inj' rest rfl
    obtain rfl : last = quote := by simpa using closes
    rw [List.concat_eq_append, List.getLast?_concat]
  | append_singleton after space _ =>
    have split : inner ++ [last] = (body' ++ quote :: after) ++ [space] := by simpa using rest
    obtain ⟨rfl, _⟩ := List.append_inj' split rfl
    rw [List.append_assoc, List.cons_append] at isBody
    exact absurd isBody isBody'.not_append_quote

end Nodecore.Lib.Json
