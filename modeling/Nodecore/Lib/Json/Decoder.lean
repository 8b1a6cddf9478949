/-
# A token decoder over a truncated text

The decoder of the standard library hands out one token at a time and tracks
with a state and a stack which token may come next.  It is modelled over the
bytes still unread.

Two kinds of lemmas describe it.  On a text of the grammar it hands out exactly
the tokens that stand there.  And a decoder that sees only a prefix of a text does
what it does on the whole text, unless it runs out of bytes: of the scanners, only
the one for numbers takes the end of the input for the end of a token.
-/

import Nodecore.Lib.Json.Grammar

namespace Nodecore.Lib.Json

/-- Where the scanner stands inside a string: on plain bytes, after a backslash,
or before the given number of further hexadecimal digits. -/
inductive StringState
  | plain | escape | hex (left : ℕ)
  deriving DecidableEq, Repr

def StringState.step : StringState → UInt8 → Option StringState
  | .plain, b =>
    if b = backslash then some .escape else if b < 32 then none else some .plain
  | .escape, b =>
    if isEscaped b then some .plain else if b = 117 then some (.hex 3) else none
  | .hex left, b =>
    if isHexDigit b then
      match left with
      | 0 => some .plain
      | left + 1 => some (.hex left)
    else none

/-- The rest of a string up to its closing quote, and what follows the quote. -/
def scanString : StringState → List UInt8 → Option (List UInt8 × List UInt8)
  | _, [] => none
  | state, b :: rest =>
    if state = .plain ∧ b = quote then some ([], rest)
    else
      (state.step b).bind fun next =>
        (scanString next rest).map fun scanned => (b :: scanned.1, scanned.2)

/-- Where the scanner stands inside a number. -/
inductive NumberState
  | start | neg | zero | digits | dot | fraction | mark | sign | exponent
  deriving DecidableEq, Repr

def NumberState.step (state : NumberState) (b : UInt8) : Option NumberState :=
  let afterInteger : Option NumberState :=
    if b = Json.dot then some .dot else if isExponent b then some .mark else none
  match state with
  | .start =>
    if b = minus then some .neg
    else if b = Json.zero then some .zero
    else if isDigit b then some .digits
    else none
  | .neg =>
    if b = Json.zero then some .zero else if isDigit b then some .digits else none
  | .zero => afterInteger
  | .digits => if isDigit b then some .digits else afterInteger
  | .dot => if isDigit b then some .fraction else none
  | .fraction =>
    if isDigit b then some .fraction else if isExponent b then some .mark else none
  | .mark =>
    if b = plus ∨ b = minus then some .sign
    else if isDigit b then some .exponent
    else none
  | .sign => if isDigit b then some .exponent else none
  | .exponent => if isDigit b then some .exponent else none

/-- Whether the number may end here. -/
def NumberState.isDone : NumberState → Bool
  | .zero | .digits | .fraction | .exponent => true
  | _ => false

/-- The longest number at the front, and what follows it.  The end of the input
ends a number as any other byte does. -/
def scanNumber : NumberState → List UInt8 → Option (List UInt8 × List UInt8)
  | state, [] => if state.isDone then some ([], []) else none
  | state, b :: rest =>
    match state.step b with
    | some next => (scanNumber next rest).map fun scanned => (b :: scanned.1, scanned.2)
    | none => if state.isDone then some ([], b :: rest) else none

/-- What follows a name that is spelled out at the front. -/
def scanName : List UInt8 → List UInt8 → Option (List UInt8)
  | [], rest => some rest
  | _ :: _, [] => none
  | expected :: name, b :: rest => if b = expected then scanName name rest else none

/-- What follows a scalar at the front.  `fits` tells which numbers the target
type can hold; decoding any other is an error. -/
def scanScalar (fits : List UInt8 → Bool) (text : List UInt8) : Option (List UInt8) :=
  match text.head? with
  | none => none
  | some b =>
    if b = 116 then scanName trueText text
    else if b = 102 then scanName falseText text
    else if b = 110 then scanName nullText text
    else
      (scanNumber .start text).bind fun scanned =>
        if fits scanned.1 then some scanned.2 else none

def hexValue (b : UInt8) : ℕ :=
  if isDigit b then b.toNat - 48
  else if 97 ≤ b then b.toNat - 87
  else b.toNat - 55

/-- The bytes of a code point; one that is none becomes the replacement. -/
def encodeRune (code : ℕ) : List UInt8 :=
  if code < 128 then [code.toUInt8]
  else if code < 2048 then [(192 + code / 64).toUInt8, (128 + code % 64).toUInt8]
  else if 55296 ≤ code ∧ code < 57344 ∨ 1114111 < code then [239, 191, 189]
  else if code < 65536 then
    [(224 + code / 4096).toUInt8, (128 + code / 64 % 64).toUInt8, (128 + code % 64).toUInt8]
  else
    [(240 + code / 262144).toUInt8, (128 + code / 4096 % 64).toUInt8,
      (128 + code / 64 % 64).toUInt8, (128 + code % 64).toUInt8]

/-- The code point spelled out by an escape at the front, if there is one. -/
def escapedRune : List UInt8 → Option ℕ
  | x :: u :: a :: b :: c :: d :: _ =>
    if x = backslash ∧ u = 117 then
      some (((hexValue a * 16 + hexValue b) * 16 + hexValue c) * 16 + hexValue d)
    else none
  | _ => none

def unescape (b : UInt8) : UInt8 :=
  if b = 98 then 8 else if b = 102 then 12 else if b = 110 then 10
  else if b = 114 then 13 else if b = 116 then 9 else b

/-- The string a body stands for.  Two escapes that form a surrogate pair are one
code point. -/
def unquoteFrom : ℕ → List UInt8 → List UInt8
  | 0, _ => []
  | _, [] => []
  | fuel + 1, b :: rest =>
    if b = backslash then
      match escapedRune (b :: rest) with
      | some high =>
        match escapedRune (rest.drop 5) with
        | some low =>
          if 55296 ≤ high ∧ high < 56320 ∧ 56320 ≤ low ∧ low < 57344 then
            encodeRune ((high - 55296) * 1024 + (low - 56320) + 65536) ++
              unquoteFrom fuel (rest.drop 11)
          else encodeRune high ++ unquoteFrom fuel (rest.drop 5)
        | none => encodeRune high ++ unquoteFrom fuel (rest.drop 5)
      | none =>
        match rest with
        | [] => []
        | e :: rest => unescape e :: unquoteFrom fuel rest
    else b :: unquoteFrom fuel rest

def unquote (body : List UInt8) : List UInt8 := unquoteFrom body.length body

/-- What may come next. -/
inductive TokenState
  | topValue | arrayStart | arrayValue | arrayComma
  | objectStart | objectKey | objectColon | objectValue | objectComma
  deriving DecidableEq, Repr

inductive Token
  | delim (b : UInt8)
  | string (decoded : List UInt8)
  | scalar
  deriving DecidableEq, Repr

structure Decoder where
  rest : List UInt8
  state : TokenState := .topValue
  stack : List TokenState := []
  deriving DecidableEq, Repr

namespace TokenState

def valueAllowed : TokenState → Bool
  | .topValue | .arrayStart | .arrayValue | .objectValue => true
  | _ => false

def valueEnd : TokenState → TokenState
  | .arrayStart | .arrayValue => .arrayComma
  | .objectValue => .objectComma
  | state => state

end TokenState

namespace Decoder

/-- The decoder before the next byte that is not whitespace. -/
def peeked (decoder : Decoder) : Decoder :=
  { decoder with rest := decoder.rest.dropWhile isSpace }

def more (decoder : Decoder) : Bool :=
  match decoder.peeked.rest with
  | [] => false
  | b :: _ => b != closeBracket && b != closeBrace

/-- Pass the separator the state asks for.  The loop in `Token` goes round for a
colon or a comma at most once: the state after one of them admits no other. -/
def separated (decoder : Decoder) : Decoder :=
  match decoder.peeked.rest with
  | [] => decoder.peeked
  | b :: rest =>
    if b = colon ∧ decoder.state = .objectColon then
      peeked { decoder with rest := rest, state := .objectValue }
    else if b = comma ∧ decoder.state = .arrayComma then
      peeked { decoder with rest := rest, state := .arrayValue }
    else if b = comma ∧ decoder.state = .objectComma then
      peeked { decoder with rest := rest, state := .objectKey }
    else decoder.peeked

def opened (decoder : Decoder) (b : UInt8) (rest : List UInt8) (inside : TokenState) :
    Option (Token × Decoder) :=
  if decoder.state.valueAllowed then
    some (.delim b, ⟨rest, inside, decoder.state :: decoder.stack⟩)
  else none

def closed (decoder : Decoder) (b : UInt8) (rest : List UInt8) (start comma : TokenState) :
    Option (Token × Decoder) :=
  if decoder.state = start ∨ decoder.state = comma then
    match decoder.stack with
    | [] => none
    | outer :: stack => some (.delim b, ⟨rest, outer.valueEnd, stack⟩)
  else none

/-- A string or scalar value; `rest` are the bytes from `b` on. -/
def decoded (fits : List UInt8 → Bool) (decoder : Decoder) (b : UInt8) (rest : List UInt8) :
    Option (Token × Decoder) :=
  if decoder.state.valueAllowed then
    if b = quote then
      (scanString .plain rest).map fun scanned =>
        (.string (unquote scanned.1),
          { decoder with rest := scanned.2, state := decoder.state.valueEnd })
    else
      (scanScalar fits (b :: rest)).map fun after =>
        (.scalar, { decoder with rest := after, state := decoder.state.valueEnd })
  else none

/-- The token at the front, separators passed. -/
def tokenHere (fits : List UInt8 → Bool) (decoder : Decoder) : Option (Token × Decoder) :=
  match decoder.rest with
  | [] => none
  | b :: rest =>
    if b = openBracket then decoder.opened b rest .arrayStart
    else if b = closeBracket then decoder.closed b rest .arrayStart .arrayComma
    else if b = openBrace then decoder.opened b rest .objectStart
    else if b = closeBrace then decoder.closed b rest .objectStart .objectComma
    else if b = colon ∨ b = comma then none
    else if b = quote ∧ (decoder.state = .objectStart ∨ decoder.state = .objectKey) then
      (scanString .plain rest).map fun scanned =>
        (.string (unquote scanned.1),
          { decoder with rest := scanned.2, state := .objectColon })
    else decoder.decoded fits b rest

def token (fits : List UInt8 → Bool) (decoder : Decoder) : Option (Token × Decoder) :=
  decoder.separated.tokenHere fits

theorem tokenHere_quote (fits : List UInt8 → Bool) (rest : List UInt8) (state : TokenState)
    (stack : List TokenState) : tokenHere fits ⟨quote :: rest, state, stack⟩ =
    if quote = quote ∧ (state = .objectStart ∨ state = .objectKey) then
      (scanString .plain rest).map fun scanned =>
        (.string (unquote scanned.1), ⟨scanned.2, .objectColon, stack⟩)
    else decoded fits ⟨quote :: rest, state, stack⟩ quote rest := rfl

end Decoder

def fitsAll : List UInt8 → Bool := fun _ => true

theorem scanString_of_isStringBody {body : List UInt8} (isBody : IsStringBody body)
    (after : List UInt8) : scanString .plain (body ++ quote :: after) = some (body, after) := by
  have notEnd : backslash ≠ quote := by decide
  have notEscaped : isEscaped 117 = false := by decide
  induction isBody with
  | nil => simp [scanString]
  | @plain b _ printable notQuote notBackslash _ ih =>
    have notControl : ¬ b < 32 := UInt8.not_lt.mpr printable
    simp [scanString, StringState.step, notQuote, notBackslash, notControl, ih]
  | escaped isEscaped _ ih => simp [scanString, StringState.step, notEnd, isEscaped, ih]
  | codePoint first second third fourth _ ih =>
    simp [scanString, StringState.step, notEnd, notEscaped, first, second, third, fourth, ih]

theorem scanName_append (name after : List UInt8) : scanName name (name ++ after) = some after := by
  induction name with
  | nil => rfl
  | cons expected name ih => simpa [scanName] using ih

variable {state : NumberState} {text : List UInt8} {b : UInt8}

namespace NumberState

/-- The state after the bytes, if the number goes on through all of them. -/
def run : NumberState → List UInt8 → Option NumberState
  | state, [] => some state
  | state, b :: rest => (state.step b).bind fun next => next.run rest

theorem run_append_of_eq {middle : NumberState} {first : List UInt8}
    (ran : state.run first = some middle) (second : List UInt8) :
    state.run (first ++ second) = middle.run second := by
  induction first generalizing state with
  | nil =>
    obtain rfl : state = middle := by simpa [run] using ran
    rfl
  | cons b first ih =>
    simp only [run, Option.bind_eq_some_iff] at ran
    obtain ⟨next, stepped, ranRest⟩ := ran
    simp only [List.cons_append, run, stepped, Option.bind_some]
    exact ih ranRest

theorem run_digits (stays : ∀ b, isDigit b → state.step b = some state)
    {digits : List UInt8} (isDigits : ∀ b ∈ digits, isDigit b) : state.run digits = some state := by
  induction digits with
  | nil => rfl
  | cons b digits ih =>
    simp only [run, stays b (isDigits b List.mem_cons_self), Option.bind_some]
    exact ih fun b' hb => isDigits b' (List.mem_cons_of_mem b hb)

theorem run_isDigits {next : NumberState}
    (enters : ∀ b, isDigit b → state.step b = some next)
    (stays : ∀ b, isDigit b → next.step b = some next) {digits : List UInt8}
    (isDigits : IsDigits digits) : state.run digits = some next := by
  obtain ⟨first, digits, rfl⟩ := List.exists_cons_of_ne_nil isDigits.1
  simp only [run, enters first (isDigits.2 first List.mem_cons_self), Option.bind_some]
  exact run_digits stays fun b hb => isDigits.2 b (List.mem_cons_of_mem first hb)

def IsIntegerEnd (state : NumberState) : Prop := state = .zero ∨ state = .digits

theorem digits_step (digit : isDigit b) : digits.step b = some .digits := by
  simp [step, digit]

theorem run_integer (entry : state = .start ∨ state = .neg) {integer : List UInt8}
    (isInteger : IsInteger integer) :
    ∃ final, state.run integer = some final ∧ final.IsIntegerEnd := by
  cases isInteger with
  | zero =>
    refine ⟨.zero, ?_, .inl rfl⟩
    rcases entry with rfl | rfl <;> rfl
  | @digits first rest nonzero digit digits =>
    have notMinus : first ≠ minus := ne_of_class digit rfl
    have stepped : state.step first = some .digits := by
      rcases entry with rfl | rfl
      · simp [step, nonzero, digit, notMinus]
      · simp [step, nonzero, digit]
    refine ⟨.digits, ?_, .inr rfl⟩
    simp only [run, stepped, Option.bind_some]
    exact run_digits (fun b hb => digits_step hb) digits

theorem run_fraction (entry : state.IsIntegerEnd) {fraction : List UInt8}
    (isFraction : IsFraction fraction) :
    ∃ final, state.run fraction = some final ∧ (final.IsIntegerEnd ∨ final = .fraction) := by
  cases isFraction with
  | absent => exact ⟨state, rfl, .inl entry⟩
  | present isDigits =>
    refine ⟨.fraction, ?_, .inr rfl⟩
    have stepped : state.step Json.dot = some .dot := by
      rcases entry with rfl | rfl <;> rfl
    simp only [run, stepped, Option.bind_some]
    apply run_isDigits _ _ isDigits
    all_goals
      intro b digit
      simp [step, digit]

theorem run_exponent (entry : state.IsIntegerEnd ∨ state = .fraction)
    {exponent : List UInt8} (isExponentPart : IsExponentPart exponent) :
    ∃ final, state.run exponent = some final ∧ final.isDone := by
  have toMark : ∀ {mark}, isExponent mark → state.step mark = some .mark := by
    intro mark isMark
    simp only [isExponent, Bool.or_eq_true, beq_iff_eq] at isMark
    rcases isMark with rfl | rfl <;> rcases entry with (rfl | rfl) | rfl <;> rfl
  have stays : ∀ b, isDigit b → NumberState.exponent.step b = some .exponent := by
    intro b digit
    simp [step, digit]
  cases isExponentPart with
  | absent =>
    refine ⟨state, rfl, ?_⟩
    rcases entry with (rfl | rfl) | rfl <;> rfl
  | unsigned isMark isDigits =>
    refine ⟨.exponent, ?_, rfl⟩
    simp only [run, toMark isMark, Option.bind_some]
    apply run_isDigits _ stays isDigits
    intro b digit
    have notPlus : b ≠ plus := ne_of_class digit rfl
    have notMinus : b ≠ minus := ne_of_class digit rfl
    simp [step, digit, notPlus, notMinus]
  | @signed _ sign _ isMark isSign isDigits =>
    have toSign : mark.step sign = some .sign := if_pos isSign
    refine ⟨.exponent, ?_, rfl⟩
    simp only [run, toMark isMark, toSign, Option.bind_some]
    apply run_isDigits _ stays isDigits
    intro b digit
    simp [step, digit]

theorem run_number (isNumber : IsNumber text) :
    ∃ final, start.run text = some final ∧ final.isDone := by
  have parts : ∀ state : NumberState, state = .start ∨ state = .neg →
      ∀ {integer fraction exponent : List UInt8}, IsInteger integer → IsFraction fraction →
      IsExponentPart exponent →
      ∃ final, state.run (integer ++ fraction ++ exponent) = some final ∧ final.isDone := by
    intro state entry integer fraction exponent isInteger isFraction isExponent
    obtain ⟨first, ranInteger, integerEnd⟩ := run_integer entry isInteger
    obtain ⟨second, ranFraction, fractionEnd⟩ := run_fraction integerEnd isFraction
    obtain ⟨final, ranExponent, done⟩ := run_exponent fractionEnd isExponent
    refine ⟨final, ?_, done⟩
    rw [List.append_assoc, run_append_of_eq ranInteger, run_append_of_eq ranFraction]
    exact ranExponent
  cases isNumber with
  | positive isInteger isFraction isExponent =>
    exact parts .start (.inl rfl) isInteger isFraction isExponent
  | negative isInteger isFraction isExponent =>
    exact parts .neg (.inr rfl) isInteger isFraction isExponent

theorem step_delimiter (state : NumberState) (delimiter : isDelimiter b) :
    state.step b = none := by
  simp only [isDelimiter, isSpace, Bool.or_eq_true, beq_iff_eq] at delimiter
  rcases delimiter with ((rfl | rfl) | rfl) | (((rfl | rfl) | rfl) | rfl) <;> cases state <;> rfl

end NumberState

theorem scanNumber_of_run {final : NumberState} {after : List UInt8}
    (ran : state.run text = some final) (done : final.isDone) (delimited : Delimited after) :
    scanNumber state (text ++ after) = some (text, after) := by
  induction text generalizing state with
  | nil =>
    obtain rfl : state = final := by simpa [NumberState.run] using ran
    cases after with
    | nil => simp [scanNumber, done]
    | cons b after =>
      have delimiter : isDelimiter b := delimited b rfl
      simp [scanNumber, state.step_delimiter delimiter, done]
  | cons b text ih =>
    simp only [NumberState.run, Option.bind_eq_some_iff] at ran
    obtain ⟨next, stepped, ranRest⟩ := ran
    simp [scanNumber, stepped, ih ranRest]

theorem scanScalar_of_isScalar {after : List UInt8} (isScalar : IsScalar text)
    (delimited : Delimited after) : scanScalar fitsAll (text ++ after) = some after := by
  cases isScalar with
  | trueText => exact scanName_append trueText after
  | falseText => exact scanName_append falseText after
  | nullText => exact scanName_append nullText after
  | number isNumber =>
    obtain ⟨final, ran, done⟩ := NumberState.run_number isNumber
    have scans := scanNumber_of_run ran done delimited
    obtain ⟨first, digits, rfl, startsNumber⟩ := isNumber.exists_cons
    have notName : first ≠ 116 ∧ first ≠ 102 ∧ first ≠ 110 := by
      rcases startsNumber with rfl | digit
      · decide
      · exact ⟨ne_of_class digit rfl, ne_of_class digit rfl, ne_of_class digit rfl⟩
    rw [List.cons_append] at scans ⊢
    simp [scanScalar, notName, scans, fitsAll]

section Prefix

variable {rest rest' : List UInt8}

theorem scanString_extend {state : StringState} {scanned : List UInt8}
    (result : scanString state rest = some (scanned, rest')) (beyond : List UInt8) :
    scanString state (rest ++ beyond) = some (scanned, rest' ++ beyond) := by
  induction rest generalizing state scanned with
  | nil => simp [scanString] at result
  | cons b rest ih =>
    rw [List.cons_append, scanString]
    rw [scanString] at result
    split_ifs at result ⊢
    · obtain ⟨rfl, rfl⟩ := Prod.mk.inj (Option.some.inj result)
      rfl
    · simp only [Option.bind_eq_some_iff, Option.map_eq_some_iff, Prod.exists,
        Prod.mk.injEq] at result
      obtain ⟨next, stepped, scannedTail, _, resultTail, rfl, rfl⟩ := result
      simp [stepped, ih resultTail]

theorem scanName_extend {name : List UInt8} (result : scanName name rest = some rest')
    (beyond : List UInt8) : scanName name (rest ++ beyond) = some (rest' ++ beyond) := by
  induction name generalizing rest with
  | nil =>
    obtain rfl : rest = rest' := by simpa [scanName] using result
    rfl
  | cons expected name ih =>
    cases rest with
    | nil => simp [scanName] at result
    | cons b rest =>
      simp only [scanName, Option.ite_none_right_eq_some] at result
      simp [scanName, result.1, ih result.2]

theorem scanNumber_extend {scanned : List UInt8}
    (result : scanNumber state rest = some (scanned, rest')) (visible : rest' ≠ [])
    (beyond : List UInt8) :
    scanNumber state (rest ++ beyond) = some (scanned, rest' ++ beyond) := by
  induction rest generalizing state scanned with
  | nil =>
    simp only [scanNumber, Option.ite_none_right_eq_some, Option.some.injEq,
      Prod.mk.injEq] at result
    exact absurd result.2.2.symm visible
  | cons b rest ih =>
    rw [List.cons_append, scanNumber]
    rw [scanNumber] at result
    cases stepped : state.step b with
    | some next =>
      simp only [stepped, Option.map_eq_some_iff, Prod.exists, Prod.mk.injEq] at result
      obtain ⟨scannedTail, _, resultTail, rfl, rfl⟩ := result
      simp [ih resultTail]
    | none =>
      simp only [stepped, Option.ite_none_right_eq_some, Option.some.injEq,
        Prod.mk.injEq] at result
      obtain ⟨done, rfl, rfl⟩ := result
      simp [done]

theorem scanScalar_extend {fits : List UInt8 → Bool} (result : scanScalar fits rest = some rest')
    (visible : rest' ≠ []) (beyond : List UInt8) :
    scanScalar fitsAll (rest ++ beyond) = some (rest' ++ beyond) := by
  cases rest with
  | nil => simp [scanScalar] at result
  | cons b rest =>
    simp only [scanScalar, List.cons_append, List.head?_cons] at result ⊢
    simp only [← List.cons_append]
    split_ifs at result ⊢
    · exact scanName_extend result beyond
    · exact scanName_extend result beyond
    · exact scanName_extend result beyond
    · simp only [Option.bind_eq_some_iff, Option.ite_none_right_eq_some, Option.some.injEq,
        Prod.exists] at result
      obtain ⟨scanned, _, scans, _, rfl⟩ := result
      rw [scanNumber_extend scans visible beyond]
      rfl

end Prefix

/-- The separator and whitespace the decoder passes from one state to another
before the next token. -/
inductive Leads : TokenState → List UInt8 → TokenState → Prop
  | spaces {state : TokenState} {lead : List UInt8} (isSpaces : IsSpaces lead) :
      Leads state lead state
  | colon {before after : List UInt8} (isSpaces : IsSpaces before)
      (isSpaces' : IsSpaces after) :
      Leads .objectColon (before ++ colon :: after) .objectValue
  | arrayComma {before after : List UInt8} (isSpaces : IsSpaces before)
      (isSpaces' : IsSpaces after) : Leads .arrayComma (before ++ comma :: after) .arrayValue
  | objectComma {before after : List UInt8} (isSpaces : IsSpaces before)
      (isSpaces' : IsSpaces after) : Leads .objectComma (before ++ comma :: after) .objectKey

/-- The bytes a token may start with. -/
def StartsToken (b : UInt8) : Prop := isSpace b = false ∧ b ≠ comma ∧ b ≠ colon
  deriving Decidable

theorem startsToken_of_isScalarByte (hb : isScalarByte b) : StartsToken b := by
  refine ⟨?_, ne_of_class hb rfl, ne_of_class hb rfl⟩
  have inside := not_isDelimiter_of_isScalarByte hb
  simp only [isDelimiter, Bool.or_eq_false_iff] at inside
  exact inside.2

theorem Leads.append_spaces {state final : TokenState} {lead spaces : List UInt8}
    (leads : Leads state lead final) (isSpaces : IsSpaces spaces) :
    Leads state (lead ++ spaces) final := by
  have joined : ∀ {first : List UInt8}, IsSpaces first → IsSpaces (first ++ spaces) := by
    intro first isFirst b hb
    rcases List.mem_append.mp hb with hfirst | hspaces
    · exact isFirst b hfirst
    · exact isSpaces b hspaces
  cases leads with
  | spaces isLead => exact .spaces (joined isLead)
  | colon isBefore isAfter =>
    rw [List.append_assoc]
    exact .colon isBefore (joined isAfter)
  | arrayComma isBefore isAfter =>
    rw [List.append_assoc]
    exact .arrayComma isBefore (joined isAfter)
  | objectComma isBefore isAfter =>
    rw [List.append_assoc]
    exact .objectComma isBefore (joined isAfter)

theorem dropWhile_isSpace_append {spaces : List UInt8} (isSpaces : IsSpaces spaces)
    (outside : isSpace b = false) (text : List UInt8) :
    (spaces ++ b :: text).dropWhile isSpace = b :: text := by
  rw [List.dropWhile_append_of_pos isSpaces, List.dropWhile_cons_of_neg (by simp [outside])]

namespace Decoder

/-- The brackets of a container with the states inside it. -/
inductive Container : UInt8 → UInt8 → TokenState → TokenState → Prop
  | array : Container openBracket closeBracket .arrayStart .arrayComma
  | object : Container openBrace closeBrace .objectStart .objectComma

section Exact

variable {fits : List UInt8 → Bool} {lead after : List UInt8} {b : UInt8}
  {state final : TokenState} {stack : List TokenState}

theorem separated_of_leads (leads : Leads state lead final) (starts : StartsToken b) :
    separated ⟨lead ++ b :: after, state, stack⟩ = ⟨b :: after, final, stack⟩ := by
  cases leads with
  | spaces isSpaces =>
    simp [separated, peeked, dropWhile_isSpace_append isSpaces starts.1, starts.2.1, starts.2.2]
  | colon isSpaces isSpaces' | arrayComma isSpaces isSpaces' | objectComma isSpaces isSpaces' =>
    simp [separated, peeked, dropWhile_isSpace_append isSpaces,
      dropWhile_isSpace_append isSpaces' starts.1, show isSpace colon = false from rfl,
      show isSpace comma = false from rfl]

theorem token_of_leads (leads : Leads state lead final) (starts : StartsToken b) :
    token fits ⟨lead ++ b :: after, state, stack⟩ =
      tokenHere fits ⟨b :: after, final, stack⟩ := by
  rw [token, separated_of_leads leads starts]

theorem token_of_isScalar (isScalar : IsScalar text) (leads : Leads state lead final)
    (allowed : final.valueAllowed) (delimited : Delimited after) :
    token fitsAll ⟨lead ++ (text ++ after), state, stack⟩ =
      some (.scalar, ⟨after, final.valueEnd, stack⟩) := by
  have scans := scanScalar_of_isScalar isScalar delimited
  obtain ⟨b, text, rfl⟩ := List.exists_cons_of_ne_nil isScalar.ne_nil
  have scalarByte := isScalar.forall_isScalarByte b List.mem_cons_self
  have starts := startsToken_of_isScalarByte scalarByte
  have other : b ≠ openBracket ∧ b ≠ closeBracket ∧ b ≠ openBrace ∧ b ≠ closeBrace ∧ b ≠ quote :=
    ⟨ne_of_class scalarByte rfl, ne_of_class scalarByte rfl, ne_of_class scalarByte rfl,
      ne_of_class scalarByte rfl, ne_of_class scalarByte rfl⟩
  rw [List.cons_append] at scans ⊢
  rw [token_of_leads leads starts]
  simp [tokenHere, other, starts.2, decoded, allowed, scans]

theorem token_of_isStringBody {body : List UInt8} (isBody : IsStringBody body)
    (leads : Leads state lead final) (allowed : final.valueAllowed) :
    token fits ⟨lead ++ (quote :: body ++ [quote] ++ after), state, stack⟩ =
      some (.string (unquote body), ⟨after, final.valueEnd, stack⟩) := by
  have notKey : ¬ (final = .objectStart ∨ final = .objectKey) := by
    rintro (rfl | rfl) <;> simp [TokenState.valueAllowed] at allowed
  have scans := scanString_of_isStringBody isBody after
  simp [token_of_leads leads (show StartsToken quote by decide), tokenHere_quote, notKey, decoded,
    allowed, scans]

theorem token_of_key {key : List UInt8} (isKey : IsStringBody key)
    (leads : Leads state lead final) (keyDue : final = .objectStart ∨ final = .objectKey) :
    token fits ⟨lead ++ (quote :: key ++ quote :: after), state, stack⟩ =
      some (.string (unquote key), ⟨after, .objectColon, stack⟩) := by
  have scans := scanString_of_isStringBody isKey after
  simp [token_of_leads leads (show StartsToken quote by decide), tokenHere_quote, keyDue, scans]

section

variable {left right : UInt8} {start comma : TokenState} (container : Container left right start comma)
include container

theorem tokenHere_left : tokenHere fits ⟨left :: after, state, stack⟩ =
    opened ⟨left :: after, state, stack⟩ left after start := by
  cases container <;> rfl

theorem tokenHere_right : tokenHere fits ⟨right :: after, state, stack⟩ =
    closed ⟨right :: after, state, stack⟩ right after start comma := by
  cases container <;> rfl

theorem token_of_opening (leads : Leads state lead final) (allowed : final.valueAllowed) :
    token fits ⟨lead ++ left :: after, state, stack⟩ =
      some (.delim left, ⟨after, start, final :: stack⟩) := by
  have starts : StartsToken left := by cases container <;> decide
  rw [token_of_leads leads starts, tokenHere_left container, opened, if_pos allowed]

theorem token_of_closing {outer : TokenState} (inside : state = start ∨ state = comma)
    (isSpaces : IsSpaces lead) :
    token fits ⟨lead ++ right :: after, state, outer :: stack⟩ =
      some (.delim right, ⟨after, outer.valueEnd, stack⟩) := by
  have starts : StartsToken right := by cases container <;> decide
  rw [token_of_leads (.spaces isSpaces) starts, tokenHere_right container, closed, if_pos inside]

theorem not_more_of_closing (isSpaces : IsSpaces lead) :
    more ⟨lead ++ right :: after, state, stack⟩ = false := by
  have outside : isSpace right = false := by cases container <;> rfl
  cases container <;> simp [more, peeked, dropWhile_isSpace_append isSpaces outside]

end

theorem more_of_leads (leads : Leads state lead final) (starts : StartsToken b)
    (notClosing : b ≠ closeBracket ∧ b ≠ closeBrace) : more ⟨lead ++ b :: after, state, stack⟩ := by
  cases leads with
  | spaces isSpaces =>
    simp [more, peeked, dropWhile_isSpace_append isSpaces starts.1, notClosing]
  | colon isSpaces isSpaces' | arrayComma isSpaces isSpaces' | objectComma isSpaces isSpaces' =>
    rw [List.append_assoc, List.cons_append, more, peeked, dropWhile_isSpace_append isSpaces rfl]
    rfl

end Exact

section Prefix

variable {fits : List UInt8 → Bool} {decoder next : Decoder} {handed : Token}
  (beyond : List UInt8)

def extend (decoder : Decoder) : Decoder := { decoder with rest := decoder.rest ++ beyond }

theorem peeked_nil (exhausted : decoder.rest = []) : decoder.peeked.rest = [] := by
  simp [peeked, exhausted]

theorem separated_nil (exhausted : decoder.peeked.rest = []) : decoder.separated.rest = [] := by
  simp [separated, exhausted]

theorem token_nil (exhausted : decoder.peeked.rest = []) : decoder.token fits = none := by
  simp [token, tokenHere, separated_nil exhausted]

theorem more_nil (exhausted : decoder.peeked.rest = []) : decoder.more = false := by
  simp [more, exhausted]

theorem peeked_extend (visible : decoder.peeked.rest ≠ []) :
    (decoder.extend beyond).peeked = decoder.peeked.extend beyond := by
  have nonempty : (decoder.rest.dropWhile isSpace).isEmpty = false :=
    List.isEmpty_eq_false_iff.mpr visible
  simp [peeked, extend, List.dropWhile_append, nonempty]

theorem more_extend (visible : decoder.peeked.rest ≠ []) :
    (decoder.extend beyond).more = decoder.more := by
  obtain ⟨b, rest, hpeeked⟩ := List.exists_cons_of_ne_nil visible
  rw [more, more, peeked_extend beyond visible]
  simp [extend, hpeeked]

theorem separated_extend (visible : decoder.separated.rest ≠ []) :
    (decoder.extend beyond).separated = decoder.separated.extend beyond := by
  have peeks : decoder.peeked.rest ≠ [] := fun exhausted => visible (separated_nil exhausted)
  obtain ⟨b, rest, hpeeked⟩ := List.exists_cons_of_ne_nil peeks
  have passed : ∀ next : TokenState,
      (peeked { decoder with rest := rest, state := next }).rest ≠ [] →
      peeked { decoder with rest := rest ++ beyond, state := next } =
        (peeked { decoder with rest := rest, state := next }).extend beyond :=
    fun next => peeked_extend beyond
  have extended : (decoder.peeked.extend beyond).rest = b :: (rest ++ beyond) := by
    simp [extend, hpeeked]
  rw [separated, hpeeked] at visible
  rw [separated, separated, peeked_extend beyond peeks, extended, hpeeked]
  simp only [show (decoder.extend beyond).state = decoder.state from rfl] at visible ⊢
  split_ifs at visible ⊢
  · exact passed _ visible
  · exact passed _ visible
  · exact passed _ visible
  · rfl

theorem tokenHere_extend (token : decoder.tokenHere fits = some (handed, next)) :
    (handed = .scalar ∧ next.rest = [] ∧ decoder.state.valueAllowed) ∨
      (decoder.extend beyond).tokenHere fitsAll = some (handed, next.extend beyond) := by
  obtain ⟨rest, state, stack⟩ := decoder
  cases rest with
  | nil => simp [tokenHere] at token
  | cons b rest =>
    have quoted : ∀ after : TokenState,
        ((scanString .plain rest).map fun scanned =>
          (Token.string (unquote scanned.1), (⟨scanned.2, after, stack⟩ : Decoder))) =
            some (handed, next) →
        ((scanString .plain (rest ++ beyond)).map fun scanned =>
          (Token.string (unquote scanned.1), (⟨scanned.2, after, stack⟩ : Decoder))) =
            some (handed, next.extend beyond) := by
      intro after scans
      simp only [Option.map_eq_some_iff, Prod.exists, Prod.mk.injEq] at scans
      obtain ⟨scanned, rest', scans, rfl, rfl⟩ := scans
      simp [scanString_extend scans beyond, extend]
    have opens : ∀ inside, opened ⟨b :: rest, state, stack⟩ b rest inside = some (handed, next) →
        opened ⟨b :: (rest ++ beyond), state, stack⟩ b (rest ++ beyond) inside =
          some (handed, next.extend beyond) := by
      intro inside opens
      simp only [opened, Option.ite_none_right_eq_some, Option.some.injEq, Prod.mk.injEq] at opens
      obtain ⟨allowed, rfl, rfl⟩ := opens
      simp [opened, allowed, extend]
    have closes : ∀ start comma,
        closed ⟨b :: rest, state, stack⟩ b rest start comma = some (handed, next) →
        closed ⟨b :: (rest ++ beyond), state, stack⟩ b (rest ++ beyond) start comma =
          some (handed, next.extend beyond) := by
      intro start comma closes
      simp only [closed, Option.ite_none_right_eq_some] at closes
      cases stack with
      | nil => exact absurd closes.2 (by simp)
      | cons outer stack =>
        obtain ⟨rfl, rfl⟩ := Prod.mk.inj (Option.some.inj closes.2)
        simp [closed, closes.1, extend]
    rw [show extend beyond ⟨b :: rest, state, stack⟩ = ⟨b :: (rest ++ beyond), state, stack⟩ from rfl]
    simp only [tokenHere] at token ⊢
    split_ifs at token ⊢
    · exact .inr (opens _ token)
    · exact .inr (closes _ _ token)
    · exact .inr (opens _ token)
    · exact .inr (closes _ _ token)
    · exact .inr (quoted _ token)
    · simp only [decoded] at token ⊢
      split_ifs at token ⊢ with allowed
      · exact .inr (quoted _ token)
      · simp only [Option.map_eq_some_iff, Prod.mk.injEq] at token
        obtain ⟨rest', scans, rfl, rfl⟩ := token
        by_cases visible : rest' = []
        · exact .inl ⟨rfl, visible, allowed⟩
        · have scansAll := scanScalar_extend scans visible beyond
          rw [List.cons_append] at scansAll
          right
          simp [scansAll, extend]

/-- A token read from a prefix is read from the whole text too, unless it is a
scalar that reaches up to the end of the prefix. -/
theorem token_extend (token : decoder.token fits = some (handed, next)) :
    (handed = .scalar ∧ next.rest = [] ∧ (decoder.extend beyond).separated.state.valueAllowed) ∨
      (decoder.extend beyond).token fitsAll = some (handed, next.extend beyond) := by
  have visible : decoder.separated.rest ≠ [] := by
    intro exhausted
    simp [Decoder.token, tokenHere, exhausted] at token
  rw [Decoder.token, separated_extend beyond visible]
  exact tokenHere_extend beyond token

end Prefix

end Decoder

theorem Derives.exists_cons {value : List UInt8} (isValue : Derives .value value) :
    ∃ first rest, value = first :: rest ∧ StartsToken first ∧
      first ≠ closeBracket ∧ first ≠ closeBrace := by
  cases isValue with
  | scalar isScalar =>
    obtain ⟨first, rest, rfl⟩ := List.exists_cons_of_ne_nil isScalar.ne_nil
    have scalarByte := isScalar.forall_isScalarByte first List.mem_cons_self
    exact ⟨first, rest, rfl, startsToken_of_isScalarByte scalarByte,
      ne_of_class scalarByte rfl, ne_of_class scalarByte rfl⟩
  | string => exact ⟨quote, _, List.cons_append, by decide⟩
  | emptyArray | array => exact ⟨openBracket, _, List.cons_append, by decide⟩
  | emptyObject | object => exact ⟨openBrace, _, List.cons_append, by decide⟩

theorem Derives.length_pos {value : List UInt8} (isValue : Derives .value value) :
    0 < value.length := by
  obtain ⟨first, text, rfl, _⟩ := isValue.exists_cons
  exact Nat.succ_pos _

end Nodecore.Lib.Json
