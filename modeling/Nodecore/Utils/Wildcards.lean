/-
# Patterns with wildcards

Allowed origins may be given with stars, each standing for any text.  A pattern is turned
into a regular expression: what stands between the stars is quoted and the stars become
`.*`.  A pattern without a star is not quoted.  It is put between the anchors as it is, so
that its own dots, brackets and bars keep their meaning in regular expressions.
-/

import Mathlib.Data.List.Forall2
import Nodecore.Lib.Bytes
import Nodecore.Lib.Regexp

namespace Nodecore.Utils

open Lib Regexp

/-- What a value with wildcards stands for: every star for some text, and every other
character for itself. -/
inductive Expands : List Char → List Char → Prop
  | nil : Expands [] []
  | char {c : Char} {pattern value : List Char} (plain : c ≠ '*') (rest : Expands pattern value) :
      Expands (c :: pattern) (c :: value)
  | star {pattern value : List Char} (filled : List Char) (rest : Expands pattern value) :
      Expands ('*' :: pattern) (filled ++ value)

variable {pattern value : List Char}

theorem expands_iff_eq (plain : '*' ∉ pattern) : Expands pattern value ↔ value = pattern := by
  induction pattern generalizing value with
  | nil =>
    constructor
    · rintro ⟨⟩
      rfl
    · rintro rfl
      exact .nil
  | cons c pattern ih =>
    rw [List.mem_cons, not_or] at plain
    constructor
    · intro expands
      cases expands with
      | char _ rest => rw [(ih plain.2).mp rest]
      | star filled rest => exact absurd rfl plain.1
    · rintro rfl
      exact .char (Ne.symm plain.1) ((ih plain.2).mpr rfl)

def wildcardToRegex (pattern : List Char) : List Char :=
  let components := pattern.splitOn '*'
  if components.length = 1 then '^' :: pattern ++ ['$']
  else '^' :: ['.', '*'].intercalate (components.map quoteMeta) ++ ['$']

def matchWildcards (engine : Regexp.Engine) (pattern value : List Char) : Bool :=
  engine.matchString (wildcardToRegex pattern) value

/-- The headers a response gets for the origin of its request. -/
def setCorsHeaders (engine : Regexp.Engine) (corsOrigins : List (List Char)) (origin : List Char) :
    List (String × List Char) :=
  if corsOrigins.isEmpty then [("Access-Control-Allow-Origin", ['*'])]
  else if corsOrigins.any (matchWildcards engine · origin) then
    [("Access-Control-Allow-Origin", origin), ("Vary", "Origin".toList)]
  else []

/-- What a pattern is meant to be as an expression. -/
def itemsOf (pattern : List Char) : List Regexp.Item :=
  pattern.map fun c => if c = '*' then .many .any else .once (.char c)

theorem itemsOf_star (pattern : List Char) :
    itemsOf ('*' :: pattern) = .many .any :: itemsOf pattern := rfl

theorem itemsOf_cons {c : Char} (plain : c ≠ '*') (pattern : List Char) :
    itemsOf (c :: pattern) = .once (.char c) :: itemsOf pattern := by
  rw [itemsOf, List.map_cons, if_neg plain]
  rfl

theorem matchItems_itemsOf (oneLine : '\n' ∉ value) :
    matchItems (itemsOf pattern) value = true ↔ Expands pattern value := by
  induction pattern generalizing value with
  | nil =>
    constructor
    · intro isEmpty
      rw [List.isEmpty_iff.mp isEmpty]
      exact .nil
    · rintro ⟨⟩
      rfl
  | cons c pattern ih =>
    by_cases isStar : c = '*'
    · subst isStar
      rw [itemsOf_star, matchItems, matchMany_iff]
      constructor
      · rintro ⟨filled, left, rfl, -, matched⟩
        rw [List.mem_append, not_or] at oneLine
        exact .star filled ((ih oneLine.2).mp matched)
      · intro expands
        cases expands with
        | char plain rest => exact absurd rfl plain
        | @star pattern value filled rest =>
          rw [List.mem_append, not_or] at oneLine
          refine ⟨filled, value, rfl, ?_, (ih oneLine.2).mpr rest⟩
          intro d member
          simpa [Regexp.Atom.accepts] using fun same : d = '\n' => oneLine.1 (same ▸ member)
    · rw [itemsOf_cons isStar, matchItems]
      constructor
      · intro matched
        cases value with
        | nil => cases matched
        | cons d value =>
          rw [matchOnce, Bool.and_eq_true] at matched
          rw [List.mem_cons, not_or] at oneLine
          rw [← eq_of_beq matched.1]
          exact .char isStar ((ih oneLine.2).mp matched.2)
      · intro expands
        cases expands with
        | char plain rest =>
          rw [List.mem_cons, not_or] at oneLine
          rw [matchOnce, (ih oneLine.2).mpr rest]
          simp [Regexp.Atom.accepts]
        | star filled rest => exact absurd rfl isStar

/-- The tokens of a pattern, each star being a dot with a star. -/
def tokensOf (pattern : List Char) : List Regexp.Token :=
  pattern.flatMap fun c => if c = '*' then [.atom .any, .star] else [.atom (.char c)]

theorem tokensOf_star (pattern : List Char) :
    tokensOf ('*' :: pattern) = .atom .any :: .star :: tokensOf pattern := rfl

theorem tokensOf_cons {c : Char} (plain : c ≠ '*') (pattern : List Char) :
    tokensOf (c :: pattern) = .atom (.char c) :: tokensOf pattern := by
  rw [tokensOf, List.flatMap_cons, if_neg plain]
  rfl

theorem head?_tokensOf_append_ne_star (pattern : List Char) :
    (tokensOf pattern ++ [Regexp.Token.endText]).head? ≠ some .star := by
  cases pattern with
  | nil => decide
  | cons c pattern =>
    by_cases isStar : c = '*'
    · simp [isStar, tokensOf_star]
    · simp [tokensOf_cons isStar]

theorem items_tokensOf (pattern : List Char) :
    items (tokensOf pattern ++ [.endText]) = some (itemsOf pattern) := by
  induction pattern with
  | nil => rfl
  | cons c pattern ih =>
    by_cases isStar : c = '*'
    · rw [isStar, tokensOf_star, itemsOf_star, List.cons_append, List.cons_append, items,
        ih, Option.map_some]
    · rw [tokensOf_cons isStar, itemsOf_cons isStar, List.cons_append,
        items_atom_cons _ (head?_tokensOf_append_ne_star pattern), ih, Option.map_some]

/-- What is put between the anchors: the pattern with its stars replaced, and quoted if it
has any. -/
theorem wildcardToRegex_eq (pattern : List Char) :
    wildcardToRegex pattern =
      '^' :: (if '*' ∈ pattern then
        pattern.flatMap fun c => if c == '*' then ['.', '*'] else quoteChar c
      else pattern) ++ ['$'] := by
  rw [wildcardToRegex]
  by_cases hasStar : '*' ∈ pattern
  · have several : (pattern.splitOn '*').length ≠ 1 := by
      obtain ⟨before, after, rfl⟩ := List.append_of_mem hasStar
      have first := List.length_pos_iff.mpr (List.splitOnP_ne_nil (· == '*') before)
      have second := List.length_pos_iff.mpr (List.splitOnP_ne_nil (· == '*') after)
      rw [List.splitOn_eq_splitOnP, List.splitOnP_append_cons _ _ (by rfl), List.length_append]
      omega
    rw [if_neg several, if_pos hasStar, ← intercalate_map_splitOn]
    rfl
  · have one : (['*'].intercalate [pattern]).splitOn '*' = [pattern] :=
      List.splitOn_intercalate '*' (by simpa using hasStar) (List.cons_ne_nil _ _)
    rw [List.intercalate_singleton] at one
    rw [if_pos (by rw [one]; rfl), if_neg hasStar]

theorem tokens_replaced (pattern rest : List Char) :
    tokens (pattern.flatMap (fun c =>
        if c == '*' then ['.', '*'] else quoteChar c) ++ rest) =
      (tokens rest).map (tokensOf pattern ++ ·) := by
  induction pattern with
  | nil => simp [tokensOf]
  | cons c pattern ih =>
    rw [List.flatMap_cons, List.append_assoc]
    by_cases isStar : c = '*'
    · have dot : token '.' = some (.atom .any) := rfl
      have star : token '*' = some .star := rfl
      rw [isStar, if_pos (beq_self_eq_true _), List.cons_append, List.cons_append, List.nil_append,
        tokens_cons (by decide), tokens_cons (by decide), dot, star, ih,
        tokensOf_star]
      simp [Function.comp_def]
    · rw [if_neg (by simpa using isStar), tokens_quoteChar_append, ih, tokensOf_cons isStar]
      simp [Function.comp_def]

/-- What a character without quotes is compared with: a dot with anything. -/
def atomOf (c : Char) : Regexp.Atom := if c = '.' then .any else .char c

theorem tokens_unquoted {pattern : List Char} (known : ∀ c ∈ pattern, c = '.' ∨ isSpecial c = false)
    (rest : List Char) :
    tokens (pattern ++ rest) = (tokens rest).map (pattern.map (fun c => .atom (atomOf c)) ++ ·) := by
  induction pattern with
  | nil => simp
  | cons c pattern ih =>
    rw [List.forall_mem_cons] at known
    have isToken : tokens (c :: (pattern ++ rest)) =
        (tokens (pattern ++ rest)).map (.atom (atomOf c) :: ·) := by
      rcases known.1 with rfl | plain
      · exact tokens_cons (by decide) _
      · have noDot : c ≠ '.' := by
          rintro rfl
          cases plain
        rw [tokens_cons_of_not_isSpecial plain, atomOf, if_neg noDot]
    rw [List.cons_append, isToken, ih known.2]
    simp [Function.comp_def]

theorem items_atoms (atoms : List Regexp.Atom) :
    items (atoms.map .atom ++ [.endText]) = some (atoms.map .once) := by
  induction atoms with
  | nil => rfl
  | cons atom atoms ih =>
    rw [List.map_cons, List.cons_append, items_atom_cons, ih]
    · rfl
    · cases atoms <;> simp

theorem matchItems_once (atoms : List Regexp.Atom) (value : List Char) :
    matchItems (atoms.map .once) value = true ↔
      List.Forall₂ (fun atom c => atom.accepts c = true) atoms value := by
  induction atoms generalizing value with
  | nil => cases value <;> simp [matchItems]
  | cons atom atoms ih => cases value <;> simp [matchItems, matchOnce, ih]

theorem matchWildcards_quoted (engine : Regexp.Engine) (hasStar : '*' ∈ pattern)
    (oneLine : '\n' ∉ value) :
    matchWildcards engine pattern value = true ↔ Expands pattern value := by
  have parsed : parse (wildcardToRegex pattern) = some (itemsOf pattern) := by
    rw [wildcardToRegex_eq, if_pos hasStar, List.cons_append, parse, tokens_replaced]
    exact items_tokensOf pattern
  rw [matchWildcards, engine.agrees parsed, matchItems_itemsOf oneLine]

theorem matchWildcards_unquoted (engine : Regexp.Engine) (noStar : '*' ∉ pattern)
    (known : ∀ c ∈ pattern, c = '.' ∨ isSpecial c = false) :
    matchWildcards engine pattern value = true ↔
      List.Forall₂ (fun c d => (atomOf c).accepts d = true) pattern value := by
  have parsed : parse (wildcardToRegex pattern) = some ((pattern.map atomOf).map .once) := by
    have isTokens : pattern.map (fun c => .atom (atomOf c)) = (pattern.map atomOf).map Token.atom := by
      rw [List.map_map]
      rfl
    rw [wildcardToRegex_eq, if_neg noStar, List.cons_append, parse, tokens_unquoted known, isTokens]
    exact items_atoms _
  rw [matchWildcards, engine.agrees parsed, matchItems_once, List.forall₂_map_left_iff]

theorem accepts_atomOf {c d : Char} (noDot : c ≠ '.') : (atomOf c).accepts d = true ↔ c = d := by
  rw [atomOf, if_neg noDot, Regexp.Atom.accepts, beq_iff_eq]

theorem forall₂_atomOf_iff (noDot : '.' ∉ pattern) :
    List.Forall₂ (fun c d => (atomOf c).accepts d = true) pattern value ↔ value = pattern := by
  induction pattern generalizing value with
  | nil => rw [List.forall₂_nil_left_iff]
  | cons c pattern ih =>
    rw [List.mem_cons, not_or] at noDot
    rw [List.forall₂_cons_left_iff]
    constructor
    · rintro ⟨d, left, accepted, later, rfl⟩
      rw [(accepts_atomOf (Ne.symm noDot.1)).mp accepted, (ih noDot.2).mp later]
    · rintro rfl
      exact ⟨c, pattern, (accepts_atomOf (Ne.symm noDot.1)).mpr rfl, (ih noDot.2).mpr rfl, rfl⟩

theorem break_mem_of_forall₂
    (admitted : List.Forall₂ (fun c d => (atomOf c).accepts d = true) pattern value)
    (broken : '\n' ∈ pattern) : '\n' ∈ value := by
  induction admitted with
  | nil => exact broken
  | cons accepted _ ih =>
    rcases List.mem_cons.mp broken with rfl | later
    · exact List.mem_cons.mpr (.inl ((accepts_atomOf (by decide)).mp accepted))
    · exact List.mem_cons_of_mem _ (ih later)

/-- For a pattern with a star, or with nothing but dots to be quoted: it admits exactly what it
stands for, on one line, if and only if it has a star or no dot (or a line break, so that it
stands for nothing on one line).  Without a star it stands for itself alone. -/
theorem match_wildcards_iff (engine : Regexp.Engine) (pattern : List Char)
    (known : '*' ∈ pattern ∨ ∀ c ∈ pattern, c = '.' ∨ isSpecial c = false) :
    ((∀ value, '\n' ∉ value →
        (matchWildcards engine pattern value = true ↔ Expands pattern value)) ↔
      '*' ∈ pattern ∨ '\n' ∈ pattern ∨ '.' ∉ pattern) ∧
      ('*' ∉ pattern → ∀ value, Expands pattern value ↔ value = pattern) := by
  refine ⟨?_, fun noStar value => expands_iff_eq noStar⟩
  by_cases hasStar : '*' ∈ pattern
  · simpa [hasStar] using fun value oneLine => matchWildcards_quoted engine hasStar oneLine
  have known := known.resolve_left hasStar
  simp only [matchWildcards_unquoted engine hasStar known, expands_iff_eq hasStar, hasStar,
    false_or]
  constructor
  · intro exactly
    by_contra other
    rw [not_or, not_not] at other
    -- the pattern with its dots replaced is admitted too
    have same := (exactly (pattern.map fun c => if c = '.' then '-' else c) ?_).mp ?_
    · obtain ⟨c, -, isDot⟩ := List.mem_map.mp (same ▸ other.2)
      split_ifs at isDot with here
      · cases isDot
      · exact here isDot
    · intro broken
      obtain ⟨c, listed, isBreak⟩ := List.mem_map.mp broken
      split_ifs at isBreak
      · cases isBreak
      · exact other.1 (isBreak ▸ listed)
    · rw [List.forall₂_map_right_iff, List.forall₂_same]
      intro c _
      by_cases isDot : c = '.'
      · simp [atomOf, isDot, Regexp.Atom.accepts]
      · simp [atomOf, isDot, Regexp.Atom.accepts]
  · rintro (broken | noDot) value oneLine
    · constructor
      · exact fun admitted => absurd (break_mem_of_forall₂ admitted broken) oneLine
      · rintro rfl
        exact absurd broken oneLine
    · exact forall₂_atomOf_iff noDot

/-- A pattern with a star is quoted, so that its dot stands for itself. -/
theorem wildcard_admits_subdomain :
    matchWildcards .anchored "*.io".toList "a.io".toList = true :=
  ((match_wildcards_iff .anchored "*.io".toList (.inl (by decide))).1.mpr (.inl (by decide))
    "a.io".toList (by decide)).mpr (.star ['a'] ((expands_iff_eq (by decide)).mpr rfl))

/-- The dot of an origin without a star admits another origin. -/
theorem plain_origin_admits_other :
    ¬ Expands "http://a.io".toList "http://a-io".toList ∧
      matchWildcards .anchored "http://a.io".toList "http://a-io".toList = true ∧
      setCorsHeaders .anchored ["http://a.io".toList] "http://a-io".toList =
        [("Access-Control-Allow-Origin", "http://a-io".toList), ("Vary", "Origin".toList)] := by
  refine ⟨?_, by decide +kernel, by decide +kernel⟩
  rw [expands_iff_eq (by decide)]
  decide

end Nodecore.Utils
