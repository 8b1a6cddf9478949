/-
# Anchored regular expressions

Regular expressions of the form `^ … $` over single characters and the dot, each of them
with or without a star.  Such an expression is a list of items, and a text matches if the
items match it from its start to its end, one after another.

The syntax is that of the standard library: a character that means something else is
written with a backslash.  Expressions of another form are not read here; what the
library does with them is left open, and an engine is any function that agrees with the
items wherever an expression is of this form.
-/

import Mathlib.Data.List.Basic

namespace Nodecore.Lib

namespace Regexp

/-- What one character is compared with.  The dot does not match the end of a line. -/
inductive Atom
  | char (c : Char)
  | any
  deriving DecidableEq, Repr

def Atom.accepts : Atom → Char → Bool
  | char expected, c => expected == c
  | any, c => c != '\n'

inductive Item
  | once (atom : Atom)
  | many (atom : Atom)
  deriving DecidableEq, Repr

/-- Accepted characters, as many as needed, and then the rest. -/
def matchMany (accepts : Char → Bool) (rest : List Char → Bool) : List Char → Bool
  | [] => rest []
  | c :: text => rest (c :: text) || (accepts c && matchMany accepts rest text)

def matchOnce (accepts : Char → Bool) (rest : List Char → Bool) : List Char → Bool
  | [] => false
  | c :: text => accepts c && rest text

/-- Whether a whole text matches. -/
def matchItems : List Item → List Char → Bool
  | [] => List.isEmpty
  | .once atom :: items => matchOnce atom.accepts (matchItems items)
  | .many atom :: items => matchMany atom.accepts (matchItems items)

theorem matchMany_iff {accepts : Char → Bool} {rest : List Char → Bool} {text : List Char} :
    matchMany accepts rest text = true ↔
      ∃ filled left, text = filled ++ left ∧ (∀ c ∈ filled, accepts c = true) ∧
        rest left = true := by
  induction text with
  | nil => simp [matchMany]
  | cons c text ih =>
    rw [matchMany, Bool.or_eq_true, Bool.and_eq_true, ih]
    constructor
    · rintro (here | ⟨accepted, filled, left, rfl, all, later⟩)
      · exact ⟨[], c :: text, rfl, by simp, here⟩
      · exact ⟨c :: filled, left, rfl, List.forall_mem_cons.mpr ⟨accepted, all⟩, later⟩
    · rintro ⟨filled, left, same, all, later⟩
      cases filled with
      | nil =>
        rw [List.nil_append] at same
        exact .inl (same ▸ later)
      | cons d filled =>
        obtain ⟨rfl, rfl⟩ := List.cons.inj same
        rw [List.forall_mem_cons] at all
        exact .inr ⟨all.1, filled, left, rfl, all.2, later⟩

/-- The characters that mean something else than themselves. -/
def isSpecial (c : Char) : Bool := "\\.+*?()|[\x7b^$".toList.contains c

/-- The characters that a backslash may precede to mean themselves. -/
def isEscapable (c : Char) : Bool := c.toNat < 0x80 && !c.isAlphanum

inductive Token
  | atom (atom : Atom)
  | star
  | endText
  deriving DecidableEq, Repr

def token : Char → Option Token
  | '.' => some (.atom .any)
  | '*' => some .star
  | '$' => some .endText
  | c => if isSpecial c then none else some (.atom (.char c))

def escaped (c : Char) : Option Token :=
  if isEscapable c then some (.atom (.char c)) else none

def tokens : List Char → Option (List Token)
  | [] => some []
  | '\\' :: c :: rest => (escaped c).bind fun first => (tokens rest).map (first :: ·)
  | c :: rest => (token c).bind fun first => (tokens rest).map (first :: ·)

def items : List Token → Option (List Item)
  | [.endText] => some []
  | .atom atom :: .star :: rest => (items rest).map (.many atom :: ·)
  | .atom atom :: rest => (items rest).map (.once atom :: ·)
  | _ => none

/-- Reads an expression of the form treated here. -/
def parse : List Char → Option (List Item)
  | '^' :: rest => (tokens rest).bind items
  | _ => none

def quoteChar (c : Char) : List Char :=
  if "\\.+*?()|[]\x7b\x7d^$".toList.contains c then ['\\', c] else [c]

/-- A text as an expression that matches nothing else. -/
def quoteMeta (text : List Char) : List Char := text.flatMap quoteChar

/-- The matching function of a library, as far as expressions of this form go. -/
structure Engine where
  matchString : (pattern value : List Char) → Bool
  agrees : ∀ {pattern : List Char} {items : List Item}, parse pattern = some items →
    ∀ value, matchString pattern value = matchItems items value

/-- The engine that reads nothing else. -/
def Engine.anchored : Engine where
  matchString pattern value := (parse pattern).any (matchItems · value)
  agrees parsed value := by rw [parsed, Option.any_some]

theorem items_atom_cons (atom : Atom) {rest : List Token} (unstarred : rest.head? ≠ some .star) :
    items (.atom atom :: rest) = (items rest).map (.once atom :: ·) := by
  rw [items]
  rintro later rfl
  exact unstarred rfl

theorem tokens_cons {c : Char} (unescaped : c ≠ '\\') (rest : List Char) :
    tokens (c :: rest) = (token c).bind fun first => (tokens rest).map (first :: ·) := by
  rw [tokens]
  exact fun _ _ same => absurd same unescaped

theorem token_of_not_isSpecial {c : Char} (plain : isSpecial c = false) :
    token c = some (.atom (.char c)) := by
  unfold token
  split
  · cases plain
  · cases plain
  · cases plain
  · rw [plain]
    rfl

theorem tokens_cons_of_not_isSpecial {c : Char} (plain : isSpecial c = false) (rest : List Char) :
    tokens (c :: rest) = (tokens rest).map (.atom (.char c) :: ·) := by
  have unescaped : c ≠ '\\' := by
    rintro rfl
    cases plain
  rw [tokens_cons unescaped, token_of_not_isSpecial plain, Option.bind_some]

theorem tokens_quoteChar_append (c : Char) (rest : List Char) :
    tokens (quoteChar c ++ rest) = (tokens rest).map (.atom (.char c) :: ·) := by
  have escapable : "\\.+*?()|[]\x7b\x7d^$".toList.all isEscapable = true := by decide
  have quoted : "\\.+*?()|[\x7b^$".toList ⊆ "\\.+*?()|[]\x7b\x7d^$".toList := by decide
  rw [quoteChar]
  split_ifs with special
  · rw [List.cons_append, List.cons_append, List.nil_append, tokens, escaped,
      if_pos (List.all_eq_true.mp escapable c (by simpa using special)), Option.bind_some]
  · apply tokens_cons_of_not_isSpecial
    rw [Bool.eq_false_iff]
    intro isSpecial
    exact special (List.contains_iff_mem.mpr (quoted (List.contains_iff_mem.mp isSpecial)))

end Regexp

end Nodecore.Lib
