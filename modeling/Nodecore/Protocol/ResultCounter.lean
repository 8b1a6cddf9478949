/-
# Finding the end of a value byte by byte

`ResultCounter` decides, one byte at a time, where a JSON value ends.  It knows
only the kind of the value: brackets are counted outside string literals, a
string ends at its closing quote, and a scalar ends before the first byte that
cannot belong to it.

The main results relate the automaton to the grammar.  Primed for the first byte
of a value, it goes on through every proper part of the value and stops exactly
at its end.
-/

import Nodecore.Lib.Json.Grammar

namespace Nodecore.Protocol

open Lib.Json

/-- How the bytes are read.  The zero value of the type has no kind. -/
inductive CounterKind
  | unset | object | array | string | scalar
  deriving DecidableEq, Repr

structure ResultCounter where
  kind : CounterKind := .unset
  depth : ℕ := 0
  inStr : Bool := false
  escape : Bool := false
  deriving DecidableEq, Repr

/-- What to do with the byte just fed. -/
inductive StepResult
  | stepContinue | stepFinishHere | stepStopBefore
  deriving DecidableEq, Repr

variable {counter : ResultCounter} {text inner body : List UInt8} {b : UInt8}

namespace ResultCounter

open StepResult

def stepBracket (counter : ResultCounter) (b opening closing : UInt8) :
    StepResult × ResultCounter :=
  if counter.inStr then
    if counter.escape then (stepContinue, { counter with escape := false })
    else if b = backslash then (stepContinue, { counter with escape := true })
    else if b = quote then (stepContinue, { counter with inStr := false })
    else (stepContinue, counter)
  else if b = quote then (stepContinue, { counter with inStr := true })
  else if b = opening then (stepContinue, { counter with depth := counter.depth + 1 })
  else if b = closing then
    if 0 < counter.depth then
      if counter.depth - 1 = 0 then
        (stepFinishHere, { counter with depth := counter.depth - 1 })
      else (stepContinue, { counter with depth := counter.depth - 1 })
    else (stepContinue, counter)
  else (stepContinue, counter)

def stepString (counter : ResultCounter) (b : UInt8) : StepResult × ResultCounter :=
  if counter.escape then (stepContinue, { counter with escape := false })
  else if b = backslash then (stepContinue, { counter with escape := true })
  else if b = quote then
    if counter.inStr then (stepFinishHere, counter)
    else (stepContinue, { counter with inStr := true })
  else (stepContinue, counter)

def stepScalar (counter : ResultCounter) (b : UInt8) : StepResult × ResultCounter :=
  if isDelimiter b then (stepStopBefore, counter) else (stepContinue, counter)

def step (counter : ResultCounter) (b : UInt8) : StepResult × ResultCounter :=
  match counter.kind with
  | .object => counter.stepBracket b openBrace closeBrace
  | .array => counter.stepBracket b openBracket closeBracket
  | .string => counter.stepString b
  | .scalar => counter.stepScalar b
  | .unset => (stepFinishHere, counter)

/-- The counter primed for a value that starts with this byte. -/
def primed (first : UInt8) : ResultCounter :=
  if first = openBrace then { kind := .object }
  else if first = openBracket then { kind := .array }
  else if first = quote then { kind := .string }
  else { kind := .scalar }

/-- How a scan over a buffer ends: the buffer ends inside the value, at the
value's last byte, or before the first byte after the value. -/
inductive ScanEnd
  | overflow (counter : ResultCounter)
  | finishHere
  | stopBefore
  deriving DecidableEq, Repr

/-- The bytes of the value at the front of a buffer. -/
def scan (counter : ResultCounter) : List UInt8 → List UInt8 × ScanEnd
  | [] => ([], .overflow counter)
  | b :: rest =>
    match counter.step b with
    | (stepContinue, next) =>
      let scanned := next.scan rest
      (b :: scanned.1, scanned.2)
    | (stepFinishHere, _) => ([b], .finishHere)
    | (stepStopBefore, _) => ([], .stopBefore)

/-- The counter after the bytes, if every one of them is to be continued. -/
def feed (counter : ResultCounter) : List UInt8 → Option ResultCounter
  | [] => some counter
  | b :: rest =>
    match counter.step b with
    | (stepContinue, next) => next.feed rest
    | _ => none

@[simp]
theorem feed_nil (counter : ResultCounter) : counter.feed [] = some counter := rfl

theorem feed_cons {next : ResultCounter} (continues : counter.step b = (stepContinue, next))
    (rest : List UInt8) : counter.feed (b :: rest) = next.feed rest := by
  simp only [feed, continues]

theorem feed_append (counter : ResultCounter) (first second : List UInt8) :
    counter.feed (first ++ second) = (counter.feed first).bind (·.feed second) := by
  induction first generalizing counter with
  | nil => rfl
  | cons b first ih =>
    simp only [List.cons_append, feed]
    split
    · exact ih _
    · rfl

theorem feed_append_of_eq {middle : ResultCounter} {first : List UInt8}
    (fed : counter.feed first = some middle) (second : List UInt8) :
    counter.feed (first ++ second) = middle.feed second := by
  rw [feed_append, fed, Option.bind_some]

theorem feed_of_forall_step (still : ∀ b ∈ text, counter.step b = (stepContinue, counter)) :
    counter.feed text = some counter := by
  induction text with
  | nil => rfl
  | cons b text ih =>
    rw [feed_cons (still b List.mem_cons_self)]
    exact ih fun b' hb => still b' (List.mem_cons_of_mem b hb)

/-- The counter goes through the value and stops exactly at its end: at the last
byte, or before the first delimiter after it. -/
inductive EndsWith : ResultCounter → List UInt8 → Prop
  | closing {counter inside : ResultCounter} {body : List UInt8} {last : UInt8}
      (fed : counter.feed body = some inside) (finish : (inside.step last).1 = stepFinishHere) :
      EndsWith counter (body ++ [last])
  | delimited {counter inside : ResultCounter} {text : List UInt8}
      (fed : counter.feed text = some inside)
      (stop : ∀ b, isDelimiter b → (inside.step b).1 = stepStopBefore) :
      EndsWith counter text

/-- The counter is inside a string literal: only a quote can end it, and a
backslash takes the next byte with it. -/
structure InLiteral (counter : ResultCounter) : Prop where
  plain : ∀ b, b ≠ quote → b ≠ backslash → counter.step b = (stepContinue, counter)
  escape : ∃ escaping, counter.step backslash = (stepContinue, escaping) ∧
    ∀ b, escaping.step b = (stepContinue, counter)

theorem InLiteral.feed_escaped (literal : counter.InLiteral) (b : UInt8) (rest : List UInt8) :
    counter.feed (backslash :: b :: rest) = counter.feed rest := by
  obtain ⟨escaping, enter, leave⟩ := literal.escape
  rw [feed_cons enter, feed_cons (leave b)]

theorem InLiteral.feed_hexDigit (literal : counter.InLiteral) (hex : isHexDigit b)
    (rest : List UInt8) : counter.feed (b :: rest) = counter.feed rest :=
  feed_cons (literal.plain b (ne_of_class hex rfl) (ne_of_class hex rfl)) rest

theorem InLiteral.feed_body (literal : counter.InLiteral) (isBody : IsStringBody body) :
    counter.feed body = some counter := by
  induction isBody with
  | nil => rfl
  | plain _ notQuote notBackslash _ ih =>
    rw [feed_cons (literal.plain _ notQuote notBackslash)]
    exact ih
  | escaped _ _ ih =>
    rw [literal.feed_escaped]
    exact ih
  | codePoint first second third fourth _ ih =>
    rw [literal.feed_escaped, literal.feed_hexDigit first, literal.feed_hexDigit second,
      literal.feed_hexDigit third, literal.feed_hexDigit fourth]
    exact ih

def IsBrackets : CounterKind → UInt8 → UInt8 → Prop
  | .object, opening, closing => opening = openBrace ∧ closing = closeBrace
  | .array, opening, closing => opening = openBracket ∧ closing = closeBracket
  | _, _, _ => False

def bracketed (kind : CounterKind) (depth : ℕ) : ResultCounter := { kind := kind, depth := depth }

section Brackets

variable {kind : CounterKind} {opening closing : UInt8}

theorem IsBrackets.eq_or_eq (brackets : IsBrackets kind opening closing) :
    (kind = .object ∧ opening = openBrace ∧ closing = closeBrace) ∨
      (kind = .array ∧ opening = openBracket ∧ closing = closeBracket) := by
  cases kind with
  | object => exact .inl ⟨rfl, brackets⟩
  | array => exact .inr ⟨rfl, brackets⟩
  | unset | string | scalar => exact brackets.elim

section

variable (brackets : IsBrackets kind opening closing)

include brackets

theorem IsBrackets.distinct : opening ≠ quote ∧ closing ≠ quote ∧ closing ≠ opening := by
  rcases brackets.eq_or_eq with ⟨-, rfl, rfl⟩ | ⟨-, rfl, rfl⟩ <;> decide

theorem IsBrackets.same_or_apart {other : CounterKind} {left right : UInt8}
    (otherBrackets : IsBrackets other left right) :
    (left = opening ∧ right = closing) ∨
      ∀ b, b = left ∨ b = right → b ≠ quote ∧ b ≠ opening ∧ b ≠ closing := by
  rcases brackets.eq_or_eq with ⟨-, rfl, rfl⟩ | ⟨-, rfl, rfl⟩
  · rcases otherBrackets.eq_or_eq with ⟨-, same⟩ | ⟨-, rfl, rfl⟩
    · exact .inl same
    · right
      rintro b (rfl | rfl) <;> decide
  · rcases otherBrackets.eq_or_eq with ⟨-, rfl, rfl⟩ | ⟨-, same⟩
    · right
      rintro b (rfl | rfl) <;> decide
    · exact .inl same

theorem step_of_isBrackets (hkind : counter.kind = kind) (b : UInt8) :
    counter.step b = counter.stepBracket b opening closing := by
  rcases brackets.eq_or_eq with ⟨rfl, rfl, rfl⟩ | ⟨rfl, rfl, rfl⟩
  · simp only [step, hkind]
  · simp only [step, hkind]

section

variable (depth : ℕ)
include depth

theorem inLiteral_of_isBrackets :
    InLiteral { kind := kind, depth := depth, inStr := true } where
  plain b notQuote notBackslash := by
    rw [step_of_isBrackets brackets rfl]
    simp [stepBracket, notQuote, notBackslash]
  escape := by
    refine ⟨{ kind := kind, depth := depth, inStr := true, escape := true }, ?_, ?_⟩
    · rw [step_of_isBrackets brackets rfl]
      simp [stepBracket]
    · intro b
      rw [step_of_isBrackets brackets rfl]
      simp [stepBracket]

theorem step_bracketed_uncounted (uncounted : b ≠ quote ∧ b ≠ opening ∧ b ≠ closing) :
    (bracketed kind depth).step b = (stepContinue, bracketed kind depth) := by
  rw [step_of_isBrackets brackets rfl]
  simp [stepBracket, bracketed, uncounted]

theorem step_bracketed_of_isPlain (plain : isPlain b) :
    (bracketed kind depth).step b = (stepContinue, bracketed kind depth) := by
  apply step_bracketed_uncounted brackets
  simp only [isPlain, Bool.and_eq_true, bne_iff_ne] at plain
  rcases brackets.eq_or_eq with ⟨-, rfl, rfl⟩ | ⟨-, rfl, rfl⟩
  · exact ⟨plain.1.1.1.1, plain.1.1.1.2, plain.1.1.2⟩
  · exact ⟨plain.1.1.1.1, plain.1.2, plain.2⟩

theorem feed_bracketed_of_isPlain (plain : ∀ b ∈ text, isPlain b) :
    (bracketed kind depth).feed text = some (bracketed kind depth) :=
  feed_of_forall_step fun b hb => step_bracketed_of_isPlain brackets depth (plain b hb)

theorem feed_bracketed_spaces (spaces : IsSpaces text) :
    (bracketed kind depth).feed text = some (bracketed kind depth) :=
  feed_bracketed_of_isPlain brackets depth fun b hb => isPlain_of_isSpace (spaces b hb)

theorem feed_bracketed_string (isBody : IsStringBody body) :
    (bracketed kind depth).feed (quote :: body ++ [quote]) = some (bracketed kind depth) := by
  have literal := inLiteral_of_isBrackets brackets depth
  have enter : (bracketed kind depth).step quote =
      (stepContinue, { kind := kind, depth := depth, inStr := true }) := by
    rw [step_of_isBrackets brackets rfl]
    simp [stepBracket, bracketed]
  have leave : ({ kind := kind, depth := depth, inStr := true } : ResultCounter).step quote =
      (stepContinue, bracketed kind depth) := by
    have notBackslash : quote ≠ backslash := by decide
    rw [step_of_isBrackets brackets rfl]
    simp [stepBracket, bracketed, notBackslash]
  rw [List.cons_append, feed_cons enter, feed_append_of_eq (literal.feed_body isBody),
    feed_cons leave]
  rfl

theorem feed_bracketed_counted
    (through : ∀ depth, (bracketed kind (depth + 1)).feed inner =
      some (bracketed kind (depth + 1))) :
    (bracketed kind depth).feed (opening :: inner) = some (bracketed kind (depth + 1)) ∧
      (bracketed kind (depth + 1)).step closing =
        (if depth = 0 then stepFinishHere else stepContinue, bracketed kind depth) := by
  have distinct := brackets.distinct
  constructor
  · have enter : (bracketed kind depth).step opening =
        (stepContinue, bracketed kind (depth + 1)) := by
      rw [step_of_isBrackets brackets rfl]
      simp [stepBracket, bracketed, distinct.1]
    rw [feed_cons enter]
    exact through depth
  · rw [step_of_isBrackets brackets rfl]
    by_cases hdepth : depth = 0
    all_goals simp [stepBracket, bracketed, distinct, hdepth]

theorem feed_bracketed_container {other : CounterKind} {left right : UInt8}
    (otherBrackets : IsBrackets other left right)
    (through : ∀ depth, (bracketed kind (depth + 1)).feed inner =
      some (bracketed kind (depth + 1))) :
    (bracketed kind (depth + 1)).feed (left :: inner ++ [right]) =
      some (bracketed kind (depth + 1)) := by
  rcases brackets.same_or_apart otherBrackets with ⟨rfl, rfl⟩ | apart
  · obtain ⟨opened, closed⟩ := feed_bracketed_counted brackets (depth + 1) through
    rw [feed_append_of_eq opened, feed_cons closed]
    rfl
  · have neutral : ∀ b, b = left ∨ b = right →
        (bracketed kind (depth + 1)).step b = (stepContinue, bracketed kind (depth + 1)) := by
      intro b hb
      exact step_bracketed_uncounted brackets (depth + 1) (apart b hb)
    rw [List.cons_append, feed_cons (neutral left (.inl rfl)), feed_append_of_eq (through depth),
      feed_cons (neutral right (.inr rfl))]
    rfl

theorem feed_bracketed_memberHead {before key gap gap' : List UInt8} (spaces : IsSpaces before)
    (isKey : IsStringBody key) (spacesGap : IsSpaces gap) (spacesGap' : IsSpaces gap') :
    (bracketed kind depth).feed (memberHead before key gap gap') =
      some (bracketed kind depth) := by
  have pieces : memberHead before key gap gap' =
      before ++ ((quote :: key ++ [quote]) ++ (gap ++ ([colon] ++ gap'))) := by
    simp [memberHead]
  have colonPlain : ∀ b ∈ [colon], isPlain b := List.all_eq_true.mp rfl
  rw [pieces, feed_append_of_eq (feed_bracketed_spaces brackets depth spaces),
    feed_append_of_eq (feed_bracketed_string brackets depth isKey),
    feed_append_of_eq (feed_bracketed_spaces brackets depth spacesGap),
    feed_append_of_eq (feed_bracketed_of_isPlain brackets depth colonPlain)]
  exact feed_bracketed_spaces brackets depth spacesGap'

end

/-- Inside its brackets the counter goes through every text of the grammar and
ends as it began. -/
theorem feed_bracketed_derives {phrase : Phrase} (derives : Derives phrase text) (depth : ℕ) :
    (bracketed kind (depth + 1)).feed text = some (bracketed kind (depth + 1)) := by
  have spaced : ∀ {text : List UInt8}, IsSpaces text → ∀ depth,
      (bracketed kind (depth + 1)).feed text = some (bracketed kind (depth + 1)) :=
    fun spaces depth => feed_bracketed_spaces brackets (depth + 1) spaces
  have commaThrough (depth : ℕ) : (bracketed kind (depth + 1)).step comma =
      (stepContinue, bracketed kind (depth + 1)) :=
    step_bracketed_of_isPlain brackets (depth + 1) (by decide)
  have arrays : IsBrackets .array openBracket closeBracket := ⟨rfl, rfl⟩
  have objects : IsBrackets .object openBrace closeBrace := ⟨rfl, rfl⟩
  induction derives generalizing depth with
  | scalar isScalar =>
    exact feed_bracketed_of_isPlain brackets _ fun b hb =>
      isPlain_of_isScalarByte (isScalar.forall_isScalarByte b hb)
  | string isBody => exact feed_bracketed_string brackets _ isBody
  | emptyArray spaces => exact feed_bracketed_container brackets depth arrays (spaced spaces)
  | array _ ih => exact feed_bracketed_container brackets depth arrays ih
  | emptyObject spaces => exact feed_bracketed_container brackets depth objects (spaced spaces)
  | object _ ih => exact feed_bracketed_container brackets depth objects ih
  | lastElement spaces _ spaces' ih =>
    rw [List.append_assoc, feed_append_of_eq (spaced spaces depth),
      feed_append_of_eq (ih depth)]
    exact spaced spaces' depth
  | moreElements spaces _ spaces' _ ihValue ihRest =>
    rw [List.append_assoc, List.append_assoc, feed_append_of_eq (spaced spaces depth),
      feed_append_of_eq (ihValue depth), feed_append_of_eq (spaced spaces' depth),
      feed_cons (commaThrough depth)]
    exact ihRest depth
  | lastMember spaces isKey spacesGap spacesGap' _ spaces' ih =>
    rw [List.append_assoc, feed_append_of_eq
        (feed_bracketed_memberHead brackets _ spaces isKey spacesGap spacesGap'),
      feed_append_of_eq (ih depth)]
    exact spaced spaces' depth
  | moreMembers spaces isKey spacesGap spacesGap' _ spaces' _ ihValue ihRest =>
    rw [List.append_assoc, List.append_assoc, feed_append_of_eq
        (feed_bracketed_memberHead brackets _ spaces isKey spacesGap spacesGap'),
      feed_append_of_eq (ihValue depth), feed_append_of_eq (spaced spaces' depth),
      feed_cons (commaThrough depth)]
    exact ihRest depth

theorem endsWith_container
    (through : ∀ depth, (bracketed kind (depth + 1)).feed inner =
      some (bracketed kind (depth + 1))) :
    EndsWith (bracketed kind 0) (opening :: inner ++ [closing]) := by
  obtain ⟨opened, closed⟩ := feed_bracketed_counted brackets 0 through
  exact .closing opened (by rw [closed]; rfl)

end

end Brackets

theorem endsWith_string (isBody : IsStringBody body) :
    EndsWith { kind := .string } (quote :: body ++ [quote]) := by
  have literal : InLiteral { kind := .string, inStr := true } := by
    refine ⟨?_, { kind := .string, inStr := true, escape := true }, by decide, ?_⟩
    · intro b notQuote notBackslash
      simp [step, stepString, notQuote, notBackslash]
    · intro b
      simp [step, stepString]
  have enter : ({ kind := .string } : ResultCounter).step quote =
      (stepContinue, { kind := .string, inStr := true }) := by decide
  have opened : ({ kind := .string } : ResultCounter).feed (quote :: body) =
      some { kind := .string, inStr := true } := by
    rw [feed_cons enter]
    exact literal.feed_body isBody
  exact .closing opened (by decide)

theorem endsWith_scalar (isScalar : IsScalar text) : EndsWith { kind := .scalar } text := by
  have through : ({ kind := .scalar } : ResultCounter).feed text = some { kind := .scalar } := by
    apply feed_of_forall_step
    intro b hb
    have inside := not_isDelimiter_of_isScalarByte (isScalar.forall_isScalarByte b hb)
    simp [step, stepScalar, inside]
  refine .delimited through ?_
  intro b delimiter
  simp [step, stepScalar, delimiter]

theorem primed_of_isScalarByte (hb : isScalarByte b) : primed b = { kind := .scalar } := by
  have notBrace : b ≠ openBrace := ne_of_class hb rfl
  have notBracket : b ≠ openBracket := ne_of_class hb rfl
  have notQuote : b ≠ quote := ne_of_class hb rfl
  simp [primed, notBrace, notBracket, notQuote]

/-- Primed with the first byte of a value, the counter stops exactly at the end
of the value. -/
theorem endsWith_of_derives {value : List UInt8} (isValue : Derives .value value) :
    ∃ first rest, value = first :: rest ∧ EndsWith (primed first) value := by
  have arrays : IsBrackets .array openBracket closeBracket := ⟨rfl, rfl⟩
  have objects : IsBrackets .object openBrace closeBrace := ⟨rfl, rfl⟩
  cases isValue with
  | scalar isScalar =>
    obtain ⟨first, rest, rfl⟩ := List.exists_cons_of_ne_nil isScalar.ne_nil
    refine ⟨first, rest, rfl, ?_⟩
    rw [primed_of_isScalarByte (isScalar.forall_isScalarByte first List.mem_cons_self)]
    exact endsWith_scalar isScalar
  | string isBody => exact ⟨_, _, List.cons_append, endsWith_string isBody⟩
  | emptyArray spaces =>
    exact ⟨_, _, List.cons_append, endsWith_container arrays fun depth =>
      feed_bracketed_spaces arrays (depth + 1) spaces⟩
  | array elements =>
    exact ⟨_, _, List.cons_append, endsWith_container arrays
      (feed_bracketed_derives arrays elements)⟩
  | emptyObject spaces =>
    exact ⟨_, _, List.cons_append, endsWith_container objects fun depth =>
      feed_bracketed_spaces objects (depth + 1) spaces⟩
  | object members =>
    exact ⟨_, _, List.cons_append, endsWith_container objects
      (feed_bracketed_derives objects members)⟩

theorem scan_append {middle : ResultCounter} {front : List UInt8}
    (fed : counter.feed front = some middle) (rest : List UInt8) :
    counter.scan (front ++ rest) = (front ++ (middle.scan rest).1, (middle.scan rest).2) := by
  induction front generalizing counter with
  | nil =>
    rw [feed_nil, Option.some.injEq] at fed
    rw [List.nil_append, List.nil_append, fed]
  | cons b front ih =>
    simp only [feed] at fed
    split at fed
    · rename_i next continues
      simp [scan, continues, ih fed]
    · cases fed

theorem scan_of_feed {next : ResultCounter} {buf : List UInt8} (fed : counter.feed buf = some next) :
    counter.scan buf = (buf, .overflow next) := by
  simpa [scan] using scan_append fed []

theorem length_scan_le (counter : ResultCounter) (buf : List UInt8) :
    (counter.scan buf).1.length ≤ buf.length := by
  induction buf generalizing counter with
  | nil => exact Nat.le_refl 0
  | cons b buf ih =>
    rw [scan]
    split
    · exact Nat.succ_le_succ (ih _)
    · simp
    · simp

theorem EndsWith.scan {value later buf rest : List UInt8} (ends : EndsWith counter value)
    (delimited : Delimited later) (placed : value ++ later = buf ++ rest) :
    (∃ next left, value = buf ++ left ∧ counter.scan buf = (buf, .overflow next) ∧
        EndsWith next left) ∨
      ∃ final, counter.scan buf = (value, final) ∧
        (final = .finishHere ∨ final = .stopBefore) := by
  cases ends with
  | @closing inside body last fed finish =>
    have atLast (beyond : List UInt8) :
        counter.scan (body ++ [last] ++ beyond) = (body ++ [last], .finishHere) := by
      obtain ⟨next, hstep⟩ : ∃ next, inside.step last = (stepFinishHere, next) :=
        ⟨_, Prod.ext finish rfl⟩
      rw [List.append_assoc, List.singleton_append, scan_append fed]
      simp only [ResultCounter.scan, hstep]
    rcases List.append_eq_append_iff.mp placed with ⟨beyond, rfl, _⟩ | ⟨left, hvalue, _⟩
    · exact .inr ⟨.finishHere, atLast beyond, .inl rfl⟩
    · rcases List.eq_nil_or_concat' left with rfl | ⟨inner, last', rfl⟩
      · rw [List.append_nil] at hvalue
        have ended := atLast []
        rw [List.append_nil, hvalue] at ended
        exact .inr ⟨.finishHere, by rw [hvalue]; exact ended, .inl rfl⟩
      · rw [← List.append_assoc] at hvalue
        obtain ⟨rfl, hlast⟩ := List.append_inj' hvalue rfl
        obtain rfl : last = last' := by simpa using hlast
        obtain ⟨next, fedBuf, fedInner⟩ := Option.bind_eq_some_iff.mp (feed_append .. ▸ fed)
        exact .inl ⟨next, inner ++ [last], List.append_assoc .., scan_of_feed fedBuf,
          .closing fedInner finish⟩
  | @delimited inside _ fed stop =>
    rcases List.append_eq_append_iff.mp placed with ⟨beyond, rfl, hlater⟩ | ⟨left, rfl, _⟩
    · cases beyond with
      | nil =>
        rw [List.append_nil]
        exact .inl ⟨inside, [], by simp, scan_of_feed fed, .delimited rfl stop⟩
      | cons b beyond =>
        have isDelimiter : isDelimiter b := delimited b (by simp [hlater])
        obtain ⟨next, hstep⟩ : ∃ next, inside.step b = (stepStopBefore, next) :=
          ⟨_, Prod.ext (stop b isDelimiter) rfl⟩
        refine .inr ⟨.stopBefore, ?_, .inr rfl⟩
        rw [scan_append fed]
        simp [ResultCounter.scan, hstep]
    · obtain ⟨next, fedBuf, fedLeft⟩ := Option.bind_eq_some_iff.mp (feed_append .. ▸ fed)
      exact .inl ⟨next, left, rfl, scan_of_feed fedBuf, .delimited fedLeft stop⟩

end ResultCounter

end Nodecore.Protocol
