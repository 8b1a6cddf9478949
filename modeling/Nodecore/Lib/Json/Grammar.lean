/-
# The grammar of JSON texts over bytes

A JSON text is a list of bytes.  `Derives` is the grammar of values, of the
elements of an array and of the members of an object, each with the whitespace
around its parts.  Strings are taken bytewise: any byte from the space upwards
may stand for itself, so that the encoding of the text above ASCII plays no
role.

The lemmas are the facts a scanner needs: which bytes a scalar can hold, and
what may follow a value.
-/

import Mathlib.Data.List.Basic

namespace Nodecore.Lib.Json

abbrev quote : UInt8 := 34
abbrev backslash : UInt8 := 92
abbrev comma : UInt8 := 44
abbrev colon : UInt8 := 58
abbrev openBrace : UInt8 := 123
abbrev closeBrace : UInt8 := 125
abbrev openBracket : UInt8 := 91
abbrev closeBracket : UInt8 := 93
abbrev minus : UInt8 := 45
abbrev plus : UInt8 := 43
abbrev dot : UInt8 := 46
abbrev zero : UInt8 := 48

def isSpace (b : UInt8) : Bool := b == 32 || b == 9 || b == 13 || b == 10

def isDigit (b : UInt8) : Bool := decide (48 ≤ b) && decide (b ≤ 57)

def isHexDigit (b : UInt8) : Bool :=
  isDigit b || (decide (97 ≤ b) && decide (b ≤ 102)) || (decide (65 ≤ b) && decide (b ≤ 70))

def isExponent (b : UInt8) : Bool := b == 101 || b == 69

/-- The bytes that may follow a value. -/
def isDelimiter (b : UInt8) : Bool :=
  b == comma || b == closeBrace || b == closeBracket || isSpace b

/-- The bytes that may follow a backslash, apart from the `u` of a code point. -/
def isEscaped (b : UInt8) : Bool :=
  b == quote || b == backslash || b == 47 || b == 98 || b == 102 || b == 110 || b == 114 ||
    b == 116

def IsSpaces (text : List UInt8) : Prop := ∀ b ∈ text, isSpace b

theorem isSpaces_nil : IsSpaces [] := by simp [IsSpaces]

/-- The text is over, or goes on with a byte that ends a value. -/
def Delimited (text : List UInt8) : Prop := ∀ b ∈ text.head?, isDelimiter b

def IsDigits (text : List UInt8) : Prop := text ≠ [] ∧ ∀ b ∈ text, isDigit b

/-- The integer part: a lone zero, or digits that do not start with one. -/
inductive IsInteger : List UInt8 → Prop
  | zero : IsInteger [zero]
  | digits {first : UInt8} {rest : List UInt8} (nonzero : first ≠ zero)
      (digit : isDigit first) (digits : ∀ b ∈ rest, isDigit b) : IsInteger (first :: rest)

inductive IsFraction : List UInt8 → Prop
  | absent : IsFraction []
  | present {digits : List UInt8} (isDigits : IsDigits digits) : IsFraction (dot :: digits)

inductive IsExponentPart : List UInt8 → Prop
  | absent : IsExponentPart []
  | unsigned {mark : UInt8} {digits : List UInt8} (isMark : isExponent mark)
      (isDigits : IsDigits digits) : IsExponentPart (mark :: digits)
  | signed {mark sign : UInt8} {digits : List UInt8} (isMark : isExponent mark)
      (isSign : sign = plus ∨ sign = minus) (isDigits : IsDigits digits) :
      IsExponentPart (mark :: sign :: digits)

/-- A number: an optional sign, an integer part, a fraction and an exponent. -/
inductive IsNumber : List UInt8 → Prop
  | positive {integer fraction exponent : List UInt8} (isInteger : IsInteger integer)
      (isFraction : IsFraction fraction) (isExponent : IsExponentPart exponent) :
      IsNumber (integer ++ fraction ++ exponent)
  | negative {integer fraction exponent : List UInt8} (isInteger : IsInteger integer)
      (isFraction : IsFraction fraction) (isExponent : IsExponentPart exponent) :
      IsNumber (minus :: (integer ++ fraction ++ exponent))

def trueText : List UInt8 := [116, 114, 117, 101]

def falseText : List UInt8 := [102, 97, 108, 115, 101]

def nullText : List UInt8 := [110, 117, 108, 108]

/-- What stands between the quotes of a string. -/
inductive IsStringBody : List UInt8 → Prop
  | nil : IsStringBody []
  | plain {b : UInt8} {rest : List UInt8} (printable : 32 ≤ b) (notQuote : b ≠ quote)
      (notBackslash : b ≠ backslash) (more : IsStringBody rest) : IsStringBody (b :: rest)
  | escaped {b : UInt8} {rest : List UInt8} (isEscaped : isEscaped b)
      (more : IsStringBody rest) : IsStringBody (backslash :: b :: rest)
  | codePoint {a b c d : UInt8} {rest : List UInt8} (first : isHexDigit a)
      (second : isHexDigit b) (third : isHexDigit c) (fourth : isHexDigit d)
      (more : IsStringBody rest) : IsStringBody (backslash :: 117 :: a :: b :: c :: d :: rest)

inductive IsScalar : List UInt8 → Prop
  | trueText : IsScalar trueText
  | falseText : IsScalar falseText
  | nullText : IsScalar nullText
  | number {text : List UInt8} (isNumber : IsNumber text) : IsScalar text

/-- What precedes the value of a member: its key and the colon. -/
def memberHead (before key gap gap' : List UInt8) : List UInt8 :=
  before ++ quote :: key ++ quote :: gap ++ colon :: gap'

/-- The kinds of text the grammar derives. -/
inductive Phrase
  | value | elements | members

inductive Derives : Phrase → List UInt8 → Prop
  | scalar {text : List UInt8} (isScalar : IsScalar text) : Derives .value text
  | string {body : List UInt8} (isBody : IsStringBody body) :
      Derives .value (quote :: body ++ [quote])
  | emptyArray {inner : List UInt8} (spaces : IsSpaces inner) :
      Derives .value (openBracket :: inner ++ [closeBracket])
  | array {inner : List UInt8} (elements : Derives .elements inner) :
      Derives .value (openBracket :: inner ++ [closeBracket])
  | emptyObject {inner : List UInt8} (spaces : IsSpaces inner) :
      Derives .value (openBrace :: inner ++ [closeBrace])
  | object {inner : List UInt8} (members : Derives .members inner) :
      Derives .value (openBrace :: inner ++ [closeBrace])
  | lastElement {before value after : List UInt8} (spaces : IsSpaces before)
      (isValue : Derives .value value) (spaces' : IsSpaces after) :
      Derives .elements (before ++ value ++ after)
  | moreElements {before value after rest : List UInt8} (spaces : IsSpaces before)
      (isValue : Derives .value value) (spaces' : IsSpaces after)
      (more : Derives .elements rest) :
      Derives .elements (before ++ value ++ after ++ comma :: rest)
  | lastMember {before key gap gap' value after : List UInt8} (spaces : IsSpaces before)
      (isKey : IsStringBody key) (spacesGap : IsSpaces gap) (spacesGap' : IsSpaces gap')
      (isValue : Derives .value value) (spaces' : IsSpaces after) :
      Derives .members (memberHead before key gap gap' ++ value ++ after)
  | moreMembers {before key gap gap' value after rest : List UInt8} (spaces : IsSpaces before)
      (isKey : IsStringBody key) (spacesGap : IsSpaces gap) (spacesGap' : IsSpaces gap')
      (isValue : Derives .value value) (spaces' : IsSpaces after)
      (more : Derives .members rest) :
      Derives .members (memberHead before key gap gap' ++ value ++ after ++ comma :: rest)

variable {text : List UInt8} {b : UInt8} {offset : ℕ}

/-- Induction over the members of an object from the first to the last, with their
values taken as they are. -/
@[elab_as_elim]
theorem Derives.members_induction {motive : List UInt8 → Prop}
    (last : ∀ {before key gap gap' value after : List UInt8}, IsSpaces before →
      IsStringBody key → IsSpaces gap → IsSpaces gap' → Derives .value value →
      IsSpaces after → motive (memberHead before key gap gap' ++ value ++ after))
    (more : ∀ {before key gap gap' value after rest : List UInt8}, IsSpaces before →
      IsStringBody key → IsSpaces gap → IsSpaces gap' → Derives .value value →
      IsSpaces after → Derives .members rest → motive rest →
      motive (memberHead before key gap gap' ++ value ++ after ++ comma :: rest))
    (members : Derives .members text) : motive text := by
  generalize hphrase : Phrase.members = phrase at members
  induction members with
  | lastMember spaces isKey spacesGap spacesGap' isValue spaces' =>
    exact last spaces isKey spacesGap spacesGap' isValue spaces'
  | moreMembers spaces isKey spacesGap spacesGap' isValue spaces' rest _ ih =>
    exact more spaces isKey spacesGap spacesGap' isValue spaces' rest (ih rfl)
  | _ => cases hphrase

/-- A whole text: one value between whitespace. -/
def IsDocument (text : List UInt8) : Prop :=
  ∃ before value after, text = before ++ value ++ after ∧ IsSpaces before ∧
    Derives .value value ∧ IsSpaces after

/-- Complete members, each with the comma after it. -/
inductive EarlierMembers : List UInt8 → Prop
  | none : EarlierMembers []
  | more {earlier before key gap gap' value after : List UInt8}
      (earlierMembers : EarlierMembers earlier) (spaces : IsSpaces before)
      (isKey : IsStringBody key) (spacesGap : IsSpaces gap) (spacesGap' : IsSpaces gap')
      (isValue : Derives .value value) (spaces' : IsSpaces after) :
      EarlierMembers (earlier ++ memberHead before key gap gap' ++ value ++ after ++ [comma])

/-- What may follow the value of a member of a top-level object. -/
inductive AfterMember : List UInt8 → Prop
  | last {after tail : List UInt8} (spaces : IsSpaces after) (spaces' : IsSpaces tail) :
      AfterMember (after ++ closeBrace :: tail)
  | more {after rest tail : List UInt8} (spaces : IsSpaces after)
      (members : Derives .members rest) (spaces' : IsSpaces tail) :
      AfterMember (after ++ comma :: rest ++ closeBrace :: tail)

/-- The top-level object of `text` has a member with this key whose value starts
at byte `start`. -/
structure MemberAt (text key value : List UInt8) (start : ℕ) : Prop where
  intro ::
  isKey : IsStringBody key
  isValue : Derives .value value
  placed : ∃ outer earlier before gap gap' later,
    text = outer ++ openBrace :: earlier ++ memberHead before key gap gap' ++ value ++ later ∧
      start = (outer ++ openBrace :: earlier ++ memberHead before key gap gap').length ∧
      IsSpaces outer ∧ EarlierMembers earlier ∧ IsSpaces before ∧ IsSpaces gap ∧
      IsSpaces gap' ∧ AfterMember later

/-- A member as it stands in a text: its key, the offset behind the key, its
value, and the offset of the value. -/
structure Entry where
  key : List UInt8
  keyEnd : ℕ
  value : List UInt8
  start : ℕ

def Entry.placed (offset : ℕ) (before key gap gap' value : List UInt8) : Entry :=
  { key
    keyEnd := offset + (before.length + key.length + 2)
    value
    start := offset + (memberHead before key gap gap').length }

/-- The members of an object whose first starts at byte `offset`. -/
inductive Lists : ℕ → List UInt8 → List Entry → Prop
  | last {offset : ℕ} {before key gap gap' value after : List UInt8} (spaces : IsSpaces before)
      (isKey : IsStringBody key) (spacesGap : IsSpaces gap) (spacesGap' : IsSpaces gap')
      (isValue : Derives .value value) (spaces' : IsSpaces after) :
      Lists offset (memberHead before key gap gap' ++ value ++ after)
        [.placed offset before key gap gap' value]
  | more {offset : ℕ} {before key gap gap' value after rest : List UInt8} {entries : List Entry}
      (spaces : IsSpaces before) (isKey : IsStringBody key) (spacesGap : IsSpaces gap)
      (spacesGap' : IsSpaces gap') (isValue : Derives .value value) (spaces' : IsSpaces after)
      (others : Lists (offset + (memberHead before key gap gap' ++ value ++ after ++
        [comma]).length) rest entries) :
      Lists offset (memberHead before key gap gap' ++ value ++ after ++ comma :: rest)
        (.placed offset before key gap gap' value :: entries)

def IsObject (text : List UInt8) (entries : List Entry) : Prop :=
  ∃ outer inner tail, text = outer ++ openBrace :: (inner ++ closeBrace :: tail) ∧
    IsSpaces outer ∧ IsSpaces tail ∧
    (IsSpaces inner ∧ entries = [] ∨ Lists (outer.length + 1) inner entries)

variable {entries : List Entry}

theorem Derives.exists_lists (members : Derives .members text) :
    ∀ offset, ∃ entries, Lists offset text entries := by
  refine members_induction ?last ?more members
  case last =>
    intro _ _ _ _ _ _ spaces isKey spacesGap spacesGap' isValue spaces' offset
    exact ⟨_, .last spaces isKey spacesGap spacesGap' isValue spaces'⟩
  case more =>
    intro _ _ _ _ _ _ _ spaces isKey spacesGap spacesGap' isValue spaces' _ ih offset
    obtain ⟨entries, others⟩ := ih _
    exact ⟨_, .more spaces isKey spacesGap spacesGap' isValue spaces' others⟩

theorem Lists.derives (lists : Lists offset text entries) : Derives .members text := by
  induction lists with
  | last spaces isKey spacesGap spacesGap' isValue spaces' =>
    exact .lastMember spaces isKey spacesGap spacesGap' isValue spaces'
  | more spaces isKey spacesGap spacesGap' isValue spaces' _ ih =>
    exact .moreMembers spaces isKey spacesGap spacesGap' isValue spaces' ih

theorem Lists.exists_placed (lists : Lists offset text entries) {outer earlier tail : List UInt8}
    (placed : offset = (outer ++ openBrace :: earlier).length)
    (earlierMembers : EarlierMembers earlier) (spacesTail : IsSpaces tail) {entry : Entry}
    (listed : entry ∈ entries) :
    ∃ earlier' before gap gap' later,
      outer ++ openBrace :: earlier ++ (text ++ closeBrace :: tail) = outer ++ openBrace ::
        earlier' ++ memberHead before entry.key gap gap' ++ entry.value ++ later ∧
      entry = .placed (outer ++ openBrace :: earlier').length before entry.key gap gap'
        entry.value ∧
      EarlierMembers earlier' ∧ IsSpaces before ∧ IsStringBody entry.key ∧ IsSpaces gap ∧
      IsSpaces gap' ∧ Derives .value entry.value ∧ AfterMember later := by
  induction lists generalizing earlier with
  | last spaces isKey spacesGap spacesGap' isValue spaces' =>
    obtain rfl := List.mem_singleton.mp listed
    exact ⟨earlier, _, _, _, _, by simp [Entry.placed], by rw [placed]; rfl, earlierMembers, spaces,
      isKey, spacesGap, spacesGap', isValue, .last spaces' spacesTail⟩
  | @more offset before key gap gap' value after rest entries spaces isKey spacesGap spacesGap'
      isValue spaces' others ih =>
    rcases List.mem_cons.mp listed with rfl | listed
    · exact ⟨earlier, _, _, _, _, by simp [Entry.placed], by rw [placed]; rfl, earlierMembers,
        spaces, isKey, spacesGap, spacesGap', isValue, .more spaces' others.derives spacesTail⟩
    · obtain ⟨earlier', before', gap₀, gap₁, later, shape, rest⟩ := ih (by simp [placed]; omega)
        (.more earlierMembers spaces isKey spacesGap spacesGap' isValue spaces') listed
      exact ⟨earlier', before', gap₀, gap₁, later, by rw [← shape]; simp, rest⟩

theorem IsObject.memberAt (object : IsObject text entries) {entry : Entry}
    (listed : entry ∈ entries) :
    MemberAt text entry.key entry.value entry.start ∧
      ∃ front gap gap' later, text = front ++ (gap ++ colon :: gap' ++ (entry.value ++ later)) ∧
        entry.keyEnd = front.length ∧
        entry.start = entry.keyEnd + (gap ++ colon :: gap').length ∧
        IsSpaces gap ∧ IsSpaces gap' ∧ AfterMember later := by
  obtain ⟨outer, inner, tail, rfl, spacesOuter, spacesTail, members⟩ := object
  rcases members with ⟨_, rfl⟩ | lists
  · cases listed
  obtain ⟨earlier, before, gap, gap', later, shape, placed, earlierMembers, spaces, isKey,
    spacesGap, spacesGap', isValue, afterMember⟩ :=
      lists.exists_placed (show _ = (outer ++ openBrace :: []).length by simp) .none spacesTail listed
  have whole : outer ++ openBrace :: (inner ++ closeBrace :: tail) =
      outer ++ openBrace :: earlier ++ memberHead before entry.key gap gap' ++ entry.value ++
        later := by
    rw [← shape]
    simp
  refine ⟨⟨isKey, isValue, outer, earlier, before, gap, gap', later, whole, ?_, spacesOuter,
    earlierMembers, spaces, spacesGap, spacesGap', afterMember⟩, outer ++ openBrace :: earlier ++
    before ++ quote :: entry.key ++ [quote], gap, gap', later, ?_, ?_, ?_, spacesGap, spacesGap',
    afterMember⟩
  · rw [placed]
    simp [Entry.placed]
    omega
  · rw [whole]
    simp [memberHead]
  · rw [placed]
    simp [Entry.placed]
    omega
  · rw [placed]
    simp [Entry.placed, memberHead]
    omega

theorem Lists.ordered (lists : Lists offset text entries) :
    (∀ entry ∈ entries, offset < entry.keyEnd ∧ entry.keyEnd ≤ entry.start) ∧
      entries.Pairwise fun earlier later => earlier.start < later.keyEnd := by
  have bounds : ∀ (offset : ℕ) (before key gap gap' value : List UInt8),
      offset < (Entry.placed offset before key gap gap' value).keyEnd ∧
        (Entry.placed offset before key gap gap' value).keyEnd ≤
          (Entry.placed offset before key gap gap' value).start := by
    intro offset before key gap gap' value
    simp only [Entry.placed, memberHead, List.length_append, List.length_cons]
    omega
  induction lists with
  | last => simp [bounds]
  | more _ _ _ _ _ _ _ ih =>
    refine ⟨List.forall_mem_cons.mpr ⟨bounds .., fun entry listed => ?_⟩,
      List.pairwise_cons.mpr ⟨fun later hlater => ?_, ih.2⟩⟩
    · have behind := ih.1 entry listed
      omega
    · have behind := (ih.1 later hlater).1
      simp only [Entry.placed, List.length_append] at behind ⊢
      omega

/-- The bytes of numbers and of the three literal names. -/
def isScalarByte (b : UInt8) : Bool :=
  isDigit b || isExponent b || b == minus || b == plus || b == dot ||
    b ∈ trueText || b ∈ falseText || b ∈ nullText

/-- The bytes that neither open, close nor quote anything. -/
def isPlain (b : UInt8) : Bool :=
  b != quote && b != openBrace && b != closeBrace && b != openBracket && b != closeBracket

theorem ne_of_class {p : UInt8 → Bool} {c : UInt8} (inside : p b) (outside : p c = false) :
    b ≠ c := by
  rintro rfl
  exact absurd inside (by simp [outside])

theorem isPlain_of_isScalarByte (hb : isScalarByte b) : isPlain b := by
  simp only [isPlain, Bool.and_eq_true, bne_iff_ne]
  exact ⟨⟨⟨⟨ne_of_class hb rfl, ne_of_class hb rfl⟩, ne_of_class hb rfl⟩, ne_of_class hb rfl⟩,
    ne_of_class hb rfl⟩

theorem isPlain_of_isSpace (hb : isSpace b) : isPlain b := by
  simp only [isSpace, Bool.or_eq_true, beq_iff_eq] at hb
  rcases hb with ((rfl | rfl) | rfl) | rfl <;> rfl

theorem not_isDelimiter_of_isScalarByte (hb : isScalarByte b) : isDelimiter b = false := by
  by_contra delimiter
  simp only [isDelimiter, isSpace, Bool.not_eq_false, Bool.or_eq_true, beq_iff_eq] at delimiter
  rcases delimiter with ((rfl | rfl) | rfl) | (((rfl | rfl) | rfl) | rfl)
  all_goals exact absurd hb (by decide)

theorem isScalarByte_of_isDigit (hb : isDigit b) : isScalarByte b := by
  simp [isScalarByte, hb]

theorem isScalarByte_of_isExponent (hb : isExponent b) : isScalarByte b := by
  simp [isScalarByte, hb]

theorem IsDigits.forall_isScalarByte (digits : IsDigits text) : ∀ b ∈ text, isScalarByte b :=
  fun b hb => isScalarByte_of_isDigit (digits.2 b hb)

theorem IsInteger.forall_isScalarByte (integer : IsInteger text) : ∀ b ∈ text, isScalarByte b := by
  cases integer with
  | zero => exact List.all_eq_true.mp rfl
  | digits _ digit digits =>
    rw [List.forall_mem_cons]
    exact ⟨isScalarByte_of_isDigit digit, fun b hb => isScalarByte_of_isDigit (digits b hb)⟩

theorem IsFraction.forall_isScalarByte (fraction : IsFraction text) :
    ∀ b ∈ text, isScalarByte b := by
  cases fraction with
  | absent => simp
  | present digits => exact List.forall_mem_cons.mpr ⟨by decide, digits.forall_isScalarByte⟩

theorem IsExponentPart.forall_isScalarByte (exponent : IsExponentPart text) :
    ∀ b ∈ text, isScalarByte b := by
  cases exponent with
  | absent => simp
  | unsigned mark digits =>
    rw [List.forall_mem_cons]
    exact ⟨isScalarByte_of_isExponent mark, digits.forall_isScalarByte⟩
  | signed mark sign digits =>
    rw [List.forall_mem_cons, List.forall_mem_cons]
    refine ⟨isScalarByte_of_isExponent mark, ?_, digits.forall_isScalarByte⟩
    rcases sign with rfl | rfl <;> decide

theorem IsNumber.forall_isScalarByte (number : IsNumber text) : ∀ b ∈ text, isScalarByte b := by
  have parts : ∀ {integer fraction exponent : List UInt8}, IsInteger integer →
      IsFraction fraction → IsExponentPart exponent →
      ∀ b ∈ integer ++ fraction ++ exponent, isScalarByte b := by
    intro integer fraction exponent isInteger isFraction isExponent
    rw [List.forall_mem_append, List.forall_mem_append]
    exact ⟨⟨isInteger.forall_isScalarByte, isFraction.forall_isScalarByte⟩,
      isExponent.forall_isScalarByte⟩
  cases number with
  | positive isInteger isFraction isExponent => exact parts isInteger isFraction isExponent
  | negative isInteger isFraction isExponent =>
    exact List.forall_mem_cons.mpr ⟨by decide, parts isInteger isFraction isExponent⟩

theorem IsScalar.forall_isScalarByte (scalar : IsScalar text) : ∀ b ∈ text, isScalarByte b := by
  cases scalar with
  | trueText | falseText | nullText => exact List.all_eq_true.mp rfl
  | number isNumber => exact isNumber.forall_isScalarByte

theorem isDelimiter_of_isSpace (hb : isSpace b) : isDelimiter b := by
  simp [isDelimiter, hb]

theorem isDelimiter_comma : isDelimiter comma := rfl

theorem isDelimiter_closeBrace : isDelimiter closeBrace := rfl

theorem isDelimiter_closeBracket : isDelimiter closeBracket := rfl

theorem delimited_append {spaces rest : List UInt8} (isSpaces : IsSpaces spaces)
    (delimiter : isDelimiter b) : Delimited (spaces ++ b :: rest) := by
  cases spaces with
  | nil => simpa [Delimited] using delimiter
  | cons first spaces =>
    have firstSpace := isSpaces first List.mem_cons_self
    simpa [Delimited] using isDelimiter_of_isSpace firstSpace

theorem delimited_of_isSpaces {spaces : List UInt8} (isSpaces : IsSpaces spaces) :
    Delimited spaces :=
  fun b hb => isDelimiter_of_isSpace (isSpaces b (List.mem_of_mem_head? hb))

theorem AfterMember.delimited {later : List UInt8} (afterMember : AfterMember later) :
    later ≠ [] ∧ Delimited later := by
  cases afterMember with
  | last spaces _ => exact ⟨by simp, delimited_append spaces isDelimiter_closeBrace⟩
  | more spaces _ _ =>
    rw [List.append_assoc, List.cons_append]
    exact ⟨by simp, delimited_append spaces isDelimiter_comma⟩

theorem MemberAt.exists_split {key value : List UInt8} {start : ℕ}
    (located : MemberAt text key value start) :
    ∃ front later, text = front ++ (value ++ later) ∧ start = front.length ∧
      later ≠ [] ∧ Delimited later := by
  obtain ⟨outer, earlier, before, gap, gap', later, shape, placed, _, _, _, _, _, afterMember⟩ :=
    located.placed
  exact ⟨_, later, by rw [shape, List.append_assoc _ value], placed, afterMember.delimited⟩

theorem IsNumber.exists_cons (number : IsNumber text) :
    ∃ first rest, text = first :: rest ∧ (first = minus ∨ isDigit first) := by
  cases number with
  | positive isInteger =>
    cases isInteger with
    | zero => exact ⟨zero, _, rfl, .inr (by decide)⟩
    | digits _ digit => exact ⟨_, _, rfl, .inr digit⟩
  | negative => exact ⟨_, _, rfl, .inl rfl⟩

theorem IsScalar.ne_nil (scalar : IsScalar text) : text ≠ [] := by
  cases scalar with
  | trueText => decide
  | falseText => decide
  | nullText => decide
  | number isNumber =>
    obtain ⟨first, rest, rfl, _⟩ := isNumber.exists_cons
    simp

end Nodecore.Lib.Json
