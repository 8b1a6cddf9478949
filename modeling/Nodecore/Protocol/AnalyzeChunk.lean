/-
# Locating the result in the first chunk of a response

The first chunk of a JSON-RPC response is walked once with a token decoder.  The
walk finds where the value of the top-level key `result` starts, primes a byte
counter for it, and gives up if it meets a top-level key `error`.  The chunk is
usually truncated somewhere inside the result, which just ends the walk.

The walk is compared with a walk over the list of the top-level members, wherever
the chunk was cut.  A chunk reported as streamable then has a top-level member
`result` whose value starts at the reported offset of the whole response; and if
the keys are distinct, every chunk that shows the first byte of the result and no
key `error` is reported.
-/

import Mathlib.Data.List.TakeWhile
import Nodecore.Lib.Json.Decoder
import Nodecore.Protocol.ResultCounter

namespace Nodecore.Protocol

open Lib.Json Decoder

def maxChunkSize : ℕ := 8192

structure FirstChunkAnalysis where
  streamable : Bool := false
  resultStart : ℤ := -1
  counter : ResultCounter := {}
  deriving DecidableEq, Repr

def errorKey : List UInt8 := [101, 114, 114, 111, 114]

def resultKey : List UInt8 := [114, 101, 115, 117, 108, 116]

section

variable (fits : List UInt8 → Bool)

-- The decoder consumes at least one byte with every token, so fuel beyond twice the
-- number of unread bytes is never used up.
mutual

def skipNextValue : ℕ → Decoder → Option Decoder
  | 0, _ => none
  | fuel + 1, dec =>
    match dec.token fits with
    | none => none
    | some (tok, dec) =>
      if tok = .delim openBrace then skipMembers fuel dec
      else if tok = .delim openBracket then skipElements fuel dec
      else some dec

def skipMembers : ℕ → Decoder → Option Decoder
  | 0, _ => none
  | fuel + 1, dec =>
    if dec.more then
      match dec.token fits with
      | none => none
      | some (_, dec) =>
        match skipNextValue fuel dec with
        | none => none
        | some dec => skipMembers fuel dec
    else (dec.token fits).map (·.2)

def skipElements : ℕ → Decoder → Option Decoder
  | 0, _ => none
  | fuel + 1, dec =>
    if dec.more then
      match skipNextValue fuel dec with
      | none => none
      | some dec => skipElements fuel dec
    else (dec.token fits).map (·.2)

end

/-- Where the value after a key starts, and the counter primed for it. -/
def resultValueStart (buf : List UInt8) (offsetAfterKey : ℕ) : Option (ℕ × ResultCounter) :=
  match (buf.drop offsetAfterKey).dropWhile isSpace with
  | [] => none
  | b :: rest =>
    if b = colon then
      match rest.dropWhile isSpace with
      | [] => none
      | first :: value => some (buf.length - (first :: value).length, .primed first)
    else none

/-- Where the value that starts here ends, and whether it does within `buf`. -/
def skipResultValueBytes (buf : List UInt8) (start : ℕ) (counter : ResultCounter) : ℕ × Bool :=
  match counter.scan (buf.drop start) with
  | (_, .overflow _) => (buf.length, false)
  | (taken, _) => (start + taken.length, true)

/-- How many bytes of `buf` the decoder has consumed. -/
def inputOffset (buf : List UInt8) (dec : Decoder) : ℕ := buf.length - dec.rest.length

def conclude (res : FirstChunkAnalysis) : FirstChunkAnalysis :=
  { res with streamable := decide (0 ≤ res.resultStart) }

/-- Record where the value starts if the key just read is `result`. -/
def recordResult (buf key : List UInt8) (dec : Decoder) (res : FirstChunkAnalysis) :
    Option FirstChunkAnalysis :=
  if key = resultKey then
    (resultValueStart buf (inputOffset buf dec)).map fun found =>
      { res with resultStart := found.1, counter := found.2 }
  else some res

/-- Whether the recorded value is not over within the chunk. -/
def overflows (buf : List UInt8) (res : FirstChunkAnalysis) : Bool :=
  !(skipResultValueBytes buf res.resultStart.toNat res.counter).2

def analyzeMembers (buf : List UInt8) : ℕ → Decoder → FirstChunkAnalysis → FirstChunkAnalysis
  | 0, _, res => conclude res
  | fuel + 1, dec, res =>
    if dec.more then
      match dec.token fits with
      | none => conclude res
      | some (.string key, dec) =>
        if key = errorKey then {}
        else
          match recordResult buf key dec res with
          | none => {}
          | some res =>
            -- a value that overflows the chunk leaves no room for a later `error`
            if key = resultKey ∧ overflows buf res then { res with streamable := true }
            else
              match skipNextValue fits (2 * buf.length + 2) dec with
              | none => conclude res
              | some dec => analyzeMembers buf fuel dec res
      | some (_, _) => {}
    else conclude res

def analyzeChunk (buf : List UInt8) : FirstChunkAnalysis :=
  match token fits { rest := buf } with
  | some (.delim b, dec) =>
    if b = openBrace then analyzeMembers fits buf (buf.length + 1) dec {} else {}
  | _ => {}

end

variable {entries : List Entry} {dec : Decoder} {offset keyEnd : ℕ}
  {text body later value : List UInt8}

section Prefix

variable {fits : List UInt8 → Bool} {beyond : List UInt8}

/-- What a run over a prefix yields, the run over the whole text yields as well,
unless the prefix is used up. -/
def Agrees (beyond : List UInt8) (part whole : Option Decoder) : Prop :=
  ∀ dec, part = some dec → dec.rest = [] ∨ whole = some (dec.extend beyond)

theorem skip_nil (exhausted : dec.peeked.rest = []) (fuel : ℕ) :
    skipNextValue fits fuel dec = none ∧ skipMembers fits fuel dec = none ∧
      skipElements fits fuel dec = none := by
  cases fuel with
  | zero => exact ⟨rfl, rfl, rfl⟩
  | succ fuel =>
    simp [skipNextValue, skipMembers, skipElements, more_nil exhausted,
      token_nil exhausted]

theorem agrees_token (dec : Decoder) :
    Agrees beyond ((dec.token fits).map (·.2))
      (((dec.extend beyond).token fitsAll).map (·.2)) := by
  intro next handed
  simp only [Option.map_eq_some_iff, Prod.exists] at handed
  obtain ⟨tok, _, token, rfl⟩ := handed
  rcases token_extend beyond token with ⟨_, exhausted, _⟩ | whole
  · exact .inl exhausted
  · exact .inr (by simp [whole])

theorem agrees_skip (beyond : List UInt8) (fuel : ℕ) :
    ∀ (fuel' : ℕ), fuel ≤ fuel' → ∀ dec : Decoder,
    Agrees beyond (skipNextValue fits fuel dec)
      (skipNextValue fitsAll fuel' (dec.extend beyond)) ∧
    Agrees beyond (skipMembers fits fuel dec) (skipMembers fitsAll fuel' (dec.extend beyond)) ∧
    Agrees beyond (skipElements fits fuel dec)
      (skipElements fitsAll fuel' (dec.extend beyond)) := by
  induction fuel with
  | zero => simp [Agrees, skipNextValue, skipMembers, skipElements]
  | succ fuel ih =>
    intro fuel' enough dec
    obtain ⟨fuel', rfl⟩ : ∃ fuel, fuel' = fuel + 1 := ⟨fuel' - 1, by omega⟩
    replace ih := ih fuel' (Nat.le_of_succ_le_succ enough)
    refine ⟨?value, ?members, ?elements⟩
    case value =>
      intro dec' skipped
      rw [skipNextValue] at skipped
      split at skipped
      · cases skipped
      · rename_i handed next token
        rcases token_extend beyond token with ⟨rfl, exhausted, _⟩ | whole
        · obtain rfl : next = dec' := by simpa using skipped
          exact .inl exhausted
        · rw [skipNextValue, whole]
          dsimp only
          split_ifs at skipped ⊢
          · exact (ih next).2.1 dec' skipped
          · exact (ih next).2.2 dec' skipped
          · exact .inr (congrArg (Option.map (extend beyond)) skipped)
    case members =>
      intro dec' skipped
      have visible : dec.peeked.rest ≠ [] := by
        intro exhausted
        simp [(skip_nil exhausted _).2.1] at skipped
      rw [skipMembers] at skipped
      rw [skipMembers, more_extend beyond visible]
      split_ifs at skipped ⊢
      · split at skipped
        · cases skipped
        · rename_i handed keyed token
          split at skipped
          · cases skipped
          · rename_i next skipsValue
            rcases token_extend beyond token with ⟨_, exhausted, _⟩ | whole
            · simp [(skip_nil (peeked_nil exhausted) _).1] at skipsValue
            · rcases (ih keyed).1 next skipsValue with exhausted | wholeValue
              · simp [(skip_nil (peeked_nil exhausted) _).2.1] at skipped
              · simpa only [whole, wholeValue] using (ih next).2.1 dec' skipped
      · exact agrees_token dec dec' skipped
    case elements =>
      intro dec' skipped
      have visible : dec.peeked.rest ≠ [] := by
        intro exhausted
        simp [(skip_nil exhausted _).2.2] at skipped
      rw [skipElements] at skipped
      rw [skipElements, more_extend beyond visible]
      split_ifs at skipped ⊢
      · split at skipped
        · cases skipped
        · rename_i next skipsValue
          rcases (ih dec).1 next skipsValue with exhausted | wholeValue
          · simp [(skip_nil (peeked_nil exhausted) _).2.2] at skipped
          · simpa only [wholeValue] using (ih next).2.2 dec' skipped
      · exact agrees_token dec dec' skipped

end Prefix

section Skip

/-- Skipping passes exactly over a phrase, if there is fuel for its length. -/
def Skips : Phrase → List UInt8 → Prop
  | .value, text => ∀ fuel lead state final stack after, text.length ≤ fuel →
      Leads state lead final → final.valueAllowed → Delimited after →
      skipNextValue fitsAll fuel ⟨lead ++ (text ++ after), state, stack⟩ =
        some ⟨after, final.valueEnd, stack⟩
  | .elements, text => ∀ fuel lead state final outer stack after, text.length < fuel →
      Leads state lead final → (final = .arrayStart ∨ final = .arrayValue) →
      skipElements fitsAll fuel ⟨lead ++ (text ++ closeBracket :: after), state, outer :: stack⟩ =
        some ⟨after, outer.valueEnd, stack⟩
  | .members, text => ∀ fuel lead state final outer stack after, text.length < fuel →
      Leads state lead final → (final = .objectStart ∨ final = .objectKey) →
      skipMembers fitsAll fuel ⟨lead ++ (text ++ closeBrace :: after), state, outer :: stack⟩ =
        some ⟨after, outer.valueEnd, stack⟩

variable {fuel : ℕ} {lead before value rest after : List UInt8} {state final outer : TokenState}
  {stack : List TokenState}

/-- The loop over what a container holds, and how it is entered and left. -/
structure IsLoop (left right : UInt8) (start comma : TokenState)
    (loop : ℕ → Decoder → Option Decoder) : Prop where
  container : Decoder.Container left right start comma
  opens : ∀ fuel dec next, dec.token fitsAll = some (.delim left, next) →
    skipNextValue fitsAll (fuel + 1) dec = loop fuel next
  closes : ∀ fuel dec, dec.more = false → loop (fuel + 1) dec = (dec.token fitsAll).map (·.2)

theorem isLoop_elements : IsLoop openBracket closeBracket .arrayStart .arrayComma
    (skipElements fitsAll) where
  container := .array
  opens := fun _ _ _ opens => by simp [skipNextValue, opens, show openBracket ≠ openBrace by decide]
  closes := fun _ _ noMore => by simp [skipElements, noMore]

theorem isLoop_members : IsLoop openBrace closeBrace .objectStart .objectComma
    (skipMembers fitsAll) where
  container := .object
  opens := fun _ _ _ opens => by simp [skipNextValue, opens]
  closes := fun _ _ noMore => by simp [skipMembers, noMore]

section

variable {left right : UInt8} {start comma : TokenState} {loop : ℕ → Decoder → Option Decoder}
  (isLoop : IsLoop left right start comma loop)
include isLoop

theorem IsLoop.close (isSpaces : IsSpaces before) (inside : state = start ∨ state = comma)
    (enough : 0 < fuel) :
    loop fuel ⟨before ++ right :: after, state, outer :: stack⟩ =
      some ⟨after, outer.valueEnd, stack⟩ := by
  obtain ⟨fuel, rfl⟩ := Nat.exists_eq_add_one_of_ne_zero (Nat.ne_of_gt enough)
  rw [isLoop.closes _ _ (not_more_of_closing isLoop.container isSpaces),
    token_of_closing isLoop.container inside isSpaces]
  rfl

theorem IsLoop.skip (leads : Leads state lead final) (allowed : final.valueAllowed)
    {inner : List UInt8} (enough : (left :: inner ++ [right]).length ≤ fuel)
    (inside : ∀ fuel, inner.length < fuel →
      loop fuel ⟨inner ++ right :: after, start, final :: stack⟩ =
        some ⟨after, final.valueEnd, stack⟩) :
    skipNextValue fitsAll fuel ⟨lead ++ (left :: inner ++ [right] ++ after), state, stack⟩ =
      some ⟨after, final.valueEnd, stack⟩ := by
  simp only [List.cons_append, List.length_cons, List.length_append, List.length_nil] at enough
  obtain ⟨fuel, rfl⟩ : ∃ fuel', fuel = fuel' + 1 := ⟨fuel - 1, by omega⟩
  simp only [List.cons_append, List.append_assoc, List.nil_append]
  rw [isLoop.opens _ _ _ (token_of_opening isLoop.container leads allowed)]
  exact inside fuel (by omega)

end

theorem skip_element (isValue : Derives .value value) (skips : Skips .value value)
    (spaces : IsSpaces before) (leads : Leads state lead final)
    (inArray : final = .arrayStart ∨ final = .arrayValue) (delimited : Delimited rest)
    (enough : value.length < fuel) :
    ∃ fuel', fuel = fuel' + 1 ∧
      skipElements fitsAll fuel ⟨lead ++ (before ++ value ++ rest), state, stack⟩ =
        skipElements fitsAll fuel' ⟨rest, .arrayComma, stack⟩ := by
  obtain ⟨fuel, rfl⟩ := Nat.exists_eq_add_one_of_ne_zero (Nat.ne_of_gt (Nat.zero_lt_of_lt enough))
  have leads' := leads.append_spaces spaces
  have allowed : final.valueAllowed ∧ final.valueEnd = .arrayComma := by
    rcases inArray with rfl | rfl <;> exact ⟨rfl, rfl⟩
  have passes := skips fuel _ state final stack rest (Nat.le_of_lt_succ enough) leads' allowed.1
    delimited
  obtain ⟨first, text, rfl, starts, notClosing⟩ := isValue.exists_cons
  have more : more ⟨lead ++ before ++ first :: (text ++ rest), state, stack⟩ :=
    more_of_leads leads' starts notClosing
  refine ⟨fuel, rfl, ?_⟩
  simp only [List.append_assoc, List.cons_append] at passes more ⊢
  simp only [skipElements, more, if_true, passes, allowed.2]

theorem skip_member {key gap gap' : List UInt8} (skips : Skips .value value)
    (spaces : IsSpaces before) (isKey : IsStringBody key) (spacesGap : IsSpaces gap)
    (spacesGap' : IsSpaces gap') (leads : Leads state lead final)
    (inObject : final = .objectStart ∨ final = .objectKey) (delimited : Delimited rest)
    (enough : value.length < fuel) :
    ∃ fuel', fuel = fuel' + 1 ∧ skipMembers fitsAll fuel
        ⟨lead ++ (memberHead before key gap gap' ++ value ++ rest), state, stack⟩ =
      skipMembers fitsAll fuel' ⟨rest, .objectComma, stack⟩ := by
  obtain ⟨fuel, rfl⟩ := Nat.exists_eq_add_one_of_ne_zero (Nat.ne_of_gt (Nat.zero_lt_of_lt enough))
  have leads' := leads.append_spaces spaces
  have token : token fitsAll ⟨lead ++ before ++
      (quote :: key ++ quote :: (gap ++ colon :: gap' ++ (value ++ rest))), state, stack⟩ = _ :=
    token_of_key isKey leads' inObject
  have passes := skips fuel _ _ _ stack rest (Nat.le_of_lt_succ enough)
    (.colon spacesGap spacesGap') rfl delimited
  have more : more ⟨lead ++ before ++
      quote :: (key ++ quote :: (gap ++ colon :: gap' ++ (value ++ rest))), state, stack⟩ :=
    more_of_leads leads' (by decide) (by decide)
  refine ⟨fuel, rfl, ?_⟩
  simp only [memberHead, List.append_assoc, List.cons_append] at token passes more ⊢
  simp only [skipMembers, more, if_true, token, passes]
  rfl

theorem skips_of_derives {phrase : Phrase} (derives : Derives phrase text) : Skips phrase text := by
  induction derives with
  | scalar isScalar =>
    intro fuel lead state final stack after enough leads allowed delimited
    have nonempty := Derives.length_pos (.scalar isScalar)
    obtain ⟨fuel, rfl⟩ : ∃ fuel', fuel = fuel' + 1 := ⟨fuel - 1, by omega⟩
    simp [skipNextValue, token_of_isScalar isScalar leads allowed delimited]
  | string isBody =>
    intro fuel lead state final stack after enough leads allowed _
    have nonempty := Derives.length_pos (.string isBody)
    obtain ⟨fuel, rfl⟩ : ∃ fuel', fuel = fuel' + 1 := ⟨fuel - 1, by omega⟩
    simp only [skipNextValue, token_of_isStringBody isBody leads allowed, reduceCtorEq,
      if_false]
  | emptyArray spaces =>
    intro fuel lead state final stack after enough leads allowed _
    exact isLoop_elements.skip leads allowed enough fun fuel inner =>
      isLoop_elements.close spaces (.inl rfl) (Nat.zero_lt_of_lt inner)
  | array _ ih =>
    intro fuel lead state final stack after enough leads allowed _
    exact isLoop_elements.skip leads allowed enough fun fuel inner =>
      ih fuel [] _ _ _ _ _ inner (.spaces isSpaces_nil) (.inl rfl)
  | emptyObject spaces =>
    intro fuel lead state final stack after enough leads allowed _
    exact isLoop_members.skip leads allowed enough fun fuel inner =>
      isLoop_members.close spaces (.inl rfl) (Nat.zero_lt_of_lt inner)
  | object _ ih =>
    intro fuel lead state final stack after enough leads allowed _
    exact isLoop_members.skip leads allowed enough fun fuel inner =>
      ih fuel [] _ _ _ _ _ inner (.spaces isSpaces_nil) (.inl rfl)
  | @lastElement before value spacesAfter spaces isValue spaces' ih =>
    intro fuel lead state final outer stack after enough leads inArray
    have nonempty := isValue.length_pos
    simp only [List.length_append] at enough
    have delimited : Delimited (spacesAfter ++ closeBracket :: after) :=
      delimited_append spaces' isDelimiter_closeBracket
    obtain ⟨fuel, rfl, passes⟩ := skip_element isValue ih spaces leads inArray delimited
      (show value.length < fuel by omega)
    rw [List.append_assoc _ spacesAfter, passes]
    exact isLoop_elements.close spaces' (.inr rfl) (by omega)
  | @moreElements before value spacesAfter rest spaces isValue spaces' _ ih ihRest =>
    intro fuel lead state final outer stack after enough leads inArray
    simp only [List.length_append, List.length_cons] at enough
    have delimited : Delimited (spacesAfter ++ comma :: (rest ++ closeBracket :: after)) :=
      delimited_append spaces' isDelimiter_comma
    obtain ⟨fuel, rfl, passes⟩ := skip_element isValue ih spaces leads inArray delimited
      (show value.length < fuel by omega)
    have others := ihRest fuel (spacesAfter ++ comma :: []) _ _ outer stack after (by omega)
      (.arrayComma spaces' isSpaces_nil) (.inr rfl)
    simp only [List.append_assoc, List.cons_append, List.nil_append] at passes others ⊢
    rw [passes, others]
  | @lastMember before key gap gap' value spacesAfter spaces isKey spacesGap spacesGap' isValue
      spaces' ih =>
    intro fuel lead state final outer stack after enough leads inObject
    have nonempty := isValue.length_pos
    simp only [List.length_append] at enough
    have delimited : Delimited (spacesAfter ++ closeBrace :: after) :=
      delimited_append spaces' isDelimiter_closeBrace
    obtain ⟨fuel, rfl, passes⟩ := skip_member ih spaces isKey spacesGap spacesGap' leads inObject
      delimited (show value.length < fuel by omega)
    rw [List.append_assoc _ spacesAfter, passes]
    exact isLoop_members.close spaces' (.inr rfl) (by omega)
  | @moreMembers before key gap gap' value spacesAfter rest spaces isKey spacesGap spacesGap'
      isValue spaces' _ ih ihRest =>
    intro fuel lead state final outer stack after enough leads inObject
    simp only [List.length_append, List.length_cons] at enough
    have delimited : Delimited (spacesAfter ++ comma :: (rest ++ closeBrace :: after)) :=
      delimited_append spaces' isDelimiter_comma
    obtain ⟨fuel, rfl, passes⟩ := skip_member ih spaces isKey spacesGap spacesGap' leads inObject
      delimited (show value.length < fuel by omega)
    have others := ihRest fuel (spacesAfter ++ comma :: []) _ _ outer stack after (by omega)
      (.objectComma spaces' isSpaces_nil) (.inr rfl)
    simp only [List.append_assoc, List.cons_append, List.nil_append] at passes others ⊢
    rw [passes, others]

end Skip

/-! ## The walk over the top-level members -/

/-- The analysis points at the value of a top-level member `result`, with the
counter primed for it. -/
def Located (body : List UInt8) (res : FirstChunkAnalysis) : Prop :=
  ∃ key first rest, unquote key = resultKey ∧ 0 ≤ res.resultStart ∧
    MemberAt body key (first :: rest) res.resultStart.toNat ∧ res.counter = .primed first

/-- The walk over the first `size` bytes, told by the members alone: it goes on to
the last key that is complete, refuses a key `error` and a key `result` without a
value, and records every other `result`. -/
def walk (size : ℕ) : List Entry → FirstChunkAnalysis → FirstChunkAnalysis
  | [], res => conclude res
  | entry :: entries, res =>
    if size < entry.keyEnd then conclude res
    else if unquote entry.key = errorKey then {}
    else if unquote entry.key = resultKey then
      if size ≤ entry.start then {}
      else
        walk size entries
          { res with resultStart := entry.start, counter := .primed (entry.value.headD 0) }
    else walk size entries res

theorem exists_of_append_eq {α : Type} {rest beyond front back : List α}
    (placed : rest ++ beyond = front ++ back) (visible : front.length ≤ rest.length) :
    ∃ seen, rest = front ++ seen ∧ seen ++ beyond = back := by
  have starts : front <+: rest :=
    List.prefix_of_prefix_length_le ⟨back, rfl⟩ ⟨beyond, placed⟩ visible
  obtain ⟨seen, rfl⟩ := starts
  rw [List.append_assoc] at placed
  exact ⟨seen, rfl, List.append_cancel_left placed⟩

section Walk

variable {fits : List UInt8 → Bool} {buf beyond : List UInt8}

theorem analyzeMembers_of_not_more (noMore : dec.more = false) (fuel : ℕ) (res : FirstChunkAnalysis) :
    analyzeMembers fits buf fuel dec res = conclude res := by
  cases fuel with
  | zero => rfl
  | succ fuel => simp [analyzeMembers, noMore]

/-- The walk stands before a member whose text starts at byte `offset`; `lead` is
the separator and whitespace still to pass. -/
structure AtMember (buf beyond : List UInt8) (dec : Decoder) (offset : ℕ) (text : List UInt8) :
    Prop where
  intro ::
  placed : ∃ done lead final, buf = done ++ dec.rest ∧ dec.rest ++ beyond = lead ++ text ∧
    offset = (done ++ lead).length ∧ Leads dec.state lead final ∧
      (final = .objectStart ∨ final = .objectKey)

/-- The decoder behind the key that ends at byte `keyEnd`. -/
def keyed (buf : List UInt8) (keyEnd : ℕ) (stack : List TokenState) : Decoder :=
  ⟨buf.drop keyEnd, .objectColon, stack⟩

theorem key_cases (fits : List UInt8 → Bool) {before key gap gap' : List UInt8}
    (atMember : AtMember buf beyond dec offset (memberHead before key gap gap' ++ later))
    (spaces : IsSpaces before) (isKey : IsStringBody key)
    (hend : keyEnd = offset + (before.length + key.length + 2)) :
    (buf.length < keyEnd ∧ ∀ fuel res, analyzeMembers fits buf fuel dec res = conclude res) ∨
      (keyEnd ≤ buf.length ∧ dec.more ∧
        dec.token fits = some (.string (unquote key), keyed buf keyEnd dec.stack) ∧
        buf.drop keyEnd ++ beyond = gap ++ colon :: gap' ++ later) := by
  obtain ⟨done, lead, final, hbuf, placed, hoffset, leads, keyDue⟩ := atMember.placed
  obtain ⟨rest, state, stack⟩ := dec
  dsimp only at hbuf placed leads
  have leads' := leads.append_spaces spaces
  have placedKey : rest ++ beyond =
      (lead ++ before ++ quote :: key ++ [quote]) ++ (gap ++ colon :: gap' ++ later) := by
    rw [placed]
    simp [memberHead]
  have hkeyEnd : keyEnd = (done ++ (lead ++ before ++ quote :: key ++ [quote])).length := by
    simp [hend, hoffset]
    omega
  have hsize : buf.length = done.length + rest.length := by simp [hbuf]
  by_cases visible : (lead ++ before ++ quote :: key ++ [quote]).length ≤ rest.length
  · right
    obtain ⟨seen, rfl, hseen⟩ := exists_of_append_eq placedKey visible
    have dropped : buf.drop keyEnd = seen := by
      rw [hbuf, hkeyEnd, ← List.append_assoc done _ seen, List.drop_left]
    have token : token fits ⟨lead ++ before ++ (quote :: key ++ quote :: seen), state,
        stack⟩ = _ := token_of_key isKey leads' keyDue
    have more : more ⟨lead ++ before ++ quote :: (key ++ quote :: seen), state, stack⟩ :=
      more_of_leads leads' (by decide) (by decide)
    simp only [List.append_assoc, List.cons_append, List.nil_append] at token more ⊢
    refine ⟨?_, more, ?_, ?_⟩
    · rw [List.length_append] at hkeyEnd
      omega
    · rw [token, keyed, dropped]
    · rw [dropped, hseen]
      simp
  · left
    rw [List.length_append] at hkeyEnd
    refine ⟨by omega, fun fuel res => ?_⟩
    cases htoken : token fits ⟨rest, state, stack⟩ with
    | none =>
      cases fuel with
      | zero => rfl
      | succ fuel => simp [analyzeMembers, htoken]
    | some result =>
      -- a key that was read would be the one that stands there
      exfalso
      obtain ⟨handed, next⟩ := result
      have whole : extend beyond ⟨rest, state, stack⟩ =
          ⟨lead ++ before ++ (quote :: key ++ quote :: (gap ++ colon :: gap' ++ later)), state,
            stack⟩ := by
        simp only [extend, placedKey]
        simp
      rcases token_extend beyond htoken with ⟨_, _, allowed⟩ | token
      · rw [whole, List.cons_append, separated_of_leads leads' (by decide)] at allowed
        rcases keyDue with rfl | rfl <;> cases allowed
      · rw [whole, token_of_key isKey leads' keyDue, Option.some.injEq] at token
        have unread : next.rest ++ beyond = gap ++ colon :: gap' ++ later :=
          (congrArg (·.2.rest) token).symm
        have lengths := congrArg List.length placedKey
        have shorter := congrArg List.length unread
        simp only [List.length_append] at lengths shorter visible
        omega

section Value

variable {keyEnd : ℕ} {gap gap' value later : List UInt8}
  (placed : buf.drop keyEnd ++ beyond = gap ++ colon :: gap' ++ (value ++ later))
  (complete : keyEnd ≤ buf.length) (spacesGap : IsSpaces gap) (spacesGap' : IsSpaces gap')
  (isValue : Derives .value value) (delimited : Delimited later)

include placed complete spacesGap spacesGap' isValue in
theorem resultValueStart_eq :
    resultValueStart buf keyEnd =
      if buf.length ≤ keyEnd + (gap ++ colon :: gap').length then none
      else some (keyEnd + (gap ++ colon :: gap').length, .primed (value.headD 0)) := by
  obtain ⟨first, text, rfl, starts, _⟩ := isValue.exists_cons
  have hlength : (buf.drop keyEnd).length = buf.length - keyEnd := List.length_drop
  split_ifs with cut
  · -- what the whole text holds after the whitespace is not in sight
    have lengths := congrArg List.length placed
    rw [List.append_assoc, List.cons_append] at placed
    cases hcolon : (buf.drop keyEnd).dropWhile isSpace with
    | nil => simp [resultValueStart, hcolon]
    | cons b left =>
      have seen := congrArg (List.dropWhile isSpace) placed
      rw [dropWhile_isSpace_append spacesGap rfl, List.dropWhile_append, hcolon] at seen
      obtain ⟨rfl, placedLeft⟩ : b = colon ∧ left ++ beyond = gap' ++ (first :: text ++ later) :=
        List.cons.inj seen
      cases hvalue : left.dropWhile isSpace with
      | nil => simp [resultValueStart, hcolon, hvalue]
      | cons b' left' =>
        have seenValue := congrArg (List.dropWhile isSpace) placedLeft
        rw [List.cons_append, dropWhile_isSpace_append spacesGap' starts.1, List.dropWhile_append,
          hvalue] at seenValue
        have shorter : (b' :: left' ++ beyond).length = (first :: (text ++ later)).length :=
          congrArg List.length seenValue
        simp only [List.length_append, List.length_cons, List.cons_append] at lengths shorter cut
        omega
  · obtain ⟨seen, hseen, hvisible⟩ := exists_of_append_eq placed (by omega)
    cases seen with
    | nil =>
      rw [hseen, List.append_nil] at hlength
      omega
    | cons b seen =>
      obtain ⟨rfl, _⟩ := List.cons.inj hvisible
      rw [hseen, List.append_assoc, List.cons_append, List.length_append] at hlength
      have rest : (buf.drop keyEnd).dropWhile isSpace = colon :: (gap' ++ b :: seen) := by
        rw [hseen, List.append_assoc, List.cons_append, dropWhile_isSpace_append spacesGap rfl]
      simp only [resultValueStart, rest, if_true, dropWhile_isSpace_append spacesGap' starts.1,
        List.headD_cons, Option.some.injEq, Prod.mk.injEq, and_true]
      simp only [List.length_append, List.length_cons] at hlength ⊢
      omega

end Value

theorem skipNextValue_cases (fits : List UInt8 → Bool) {head : List UInt8}
    (placed : buf.drop keyEnd ++ beyond = head ++ (value ++ later))
    (leads : Leads .objectColon head .objectValue) (isValue : Derives .value value)
    (delimited : Delimited later) (stack : List TokenState) :
    let stop := keyEnd + (head.length + value.length)
    let skipped := skipNextValue fits (2 * buf.length + 2) (keyed buf keyEnd stack)
    (stop ≤ buf.length → fits = fitsAll →
      skipped = some ⟨buf.drop stop, .objectComma, stack⟩) ∧
    ∀ dec, skipped = some dec → (dec.rest = [] ∧ (fits = fitsAll → buf.length ≤ stop)) ∨
      (dec = ⟨buf.drop stop, .objectComma, stack⟩ ∧ stop ≤ buf.length ∧
        buf.drop stop ++ beyond = later) := by
  intro stop skipped
  have skips := skips_of_derives isValue
  have visible : stop ≤ buf.length →
      buf.drop keyEnd = head ++ (value ++ buf.drop stop) ∧ buf.drop stop ++ beyond = later := by
    intro within
    rw [← List.append_assoc] at placed
    obtain ⟨seen, hseen, hlater⟩ := exists_of_append_eq placed
      (by rw [List.length_append, List.length_drop]; omega)
    have dropped : buf.drop stop = seen := by
      rw [← List.drop_drop, hseen, ← List.length_append, List.drop_left]
    rw [dropped, hseen, List.append_assoc]
    exact ⟨rfl, hlater⟩
  have passes : stop ≤ buf.length → fits = fitsAll →
      skipped = some ⟨buf.drop stop, .objectComma, stack⟩ := by
    rintro within rfl
    obtain ⟨hrest, hlater⟩ := visible within
    have delimitedSeen : Delimited (buf.drop stop) := by
      intro b hb
      apply delimited b
      rw [← hlater]
      cases hdrop : buf.drop stop with
      | nil => simp [hdrop] at hb
      | cons b' seen => simpa [hdrop] using hb
    show skipNextValue fitsAll _ ⟨buf.drop keyEnd, _, _⟩ = _
    rw [hrest]
    exact skips _ _ _ _ stack _ (by omega) leads rfl delimitedSeen
  refine ⟨passes, fun dec hdec => ?_⟩
  -- the run over the whole text has fuel for the whole value
  have agrees := (agrees_skip beyond (2 * buf.length + 2) (2 * buf.length + 2 + value.length)
    (Nat.le_add_right _ _) (keyed buf keyEnd stack)).1 dec hdec
  rcases agrees with exhausted | whole
  · refine .inl ⟨exhausted, fun all => ?_⟩
    by_contra beyondStop
    have reached := (passes (by omega) all).symm.trans hdec
    rw [Option.some.injEq] at reached
    rw [← reached, List.drop_eq_nil_iff] at exhausted
    omega
  · have unread : extend beyond (keyed buf keyEnd stack) =
        ⟨head ++ (value ++ later), .objectColon, stack⟩ := by
      rw [keyed, extend, placed]
    rw [unread, skips _ _ _ _ stack later (Nat.le_add_left _ _) leads rfl delimited,
      Option.some.injEq] at whole
    obtain ⟨rest, state, stack'⟩ := dec
    simp only [extend, Decoder.mk.injEq] at whole
    obtain ⟨hlater, rfl, rfl⟩ := whole
    have lengths := congrArg List.length placed
    simp only [hlater, List.length_append, List.length_drop] at lengths
    have nonempty := isValue.length_pos
    have within : stop ≤ buf.length := by omega
    have reached := (visible within).2
    obtain rfl : buf.drop stop = rest := List.append_cancel_right (reached.trans hlater)
    exact .inr ⟨rfl, within, reached⟩

theorem skipResultValueBytes_cases {start : ℕ} (placed : buf.drop start ++ beyond = value ++ later)
    (isValue : Derives .value value) (delimited : Delimited later) (within : start < buf.length) :
    let scanned := skipResultValueBytes buf start (.primed (value.headD 0))
    scanned = (start + value.length, true) ∧ start + value.length ≤ buf.length ∨
      scanned.2 = false ∧ buf.length ≤ start + value.length := by
  obtain ⟨first, rest, rfl, ends⟩ := ResultCounter.endsWith_of_derives isValue
  have hlength : (buf.drop start).length = buf.length - start := List.length_drop
  rcases ends.scan delimited placed.symm with ⟨next, left, hvalue, scans, _⟩ | ⟨final, scans, isEnd⟩
  · have longer := congrArg List.length hvalue
    rw [List.length_append] at longer
    refine .inr ⟨by simp [skipResultValueBytes, scans], by omega⟩
  · have taken := ResultCounter.length_scan_le (.primed first) (buf.drop start)
    simp only [scans] at taken
    refine .inl ⟨?_, by omega⟩
    rcases isEnd with rfl | rfl <;> simp [skipResultValueBytes, scans]

/-- What a walk finds is what the walk told by the members finds, up to a member
whose value cannot be decoded. -/
def WalksAs (fits : List UInt8 → Bool) (size : ℕ) (entries : List Entry)
    (res found : FirstChunkAnalysis) : Prop :=
  ∃ seen, seen <+: entries ∧ found = walk size seen res ∧
    (fits = fitsAll → found = walk size entries res)

section WalksAs

variable {size : ℕ} {entry : Entry} {entries : List Entry} {res recorded found : FirstChunkAnalysis}

theorem walksAs_of_eq (same : found = walk size entries res) :
    WalksAs fits size entries res found :=
  ⟨entries, List.prefix_refl _, same, fun _ => same⟩

theorem walksAs_conclude (same : fits = fitsAll → walk size entries res = conclude res) :
    WalksAs fits size entries res (conclude res) :=
  ⟨[], List.nil_prefix, rfl, fun all => (same all).symm⟩

theorem WalksAs.cons (passes : ∀ others, walk size (entry :: others) res = walk size others recorded)
    (walks : WalksAs fits size entries recorded found) :
    WalksAs fits size (entry :: entries) res found := by
  obtain ⟨seen, isPrefix, same, whole⟩ := walks
  exact ⟨entry :: seen, List.cons_prefix_cons.mpr ⟨rfl, isPrefix⟩, by rw [passes, same],
    fun all => by rw [passes, whole all]⟩

theorem walk_of_lt (lists : Lists offset text entries) (cut : size ≤ offset)
    (res : FirstChunkAnalysis) : walk size entries res = conclude res := by
  have behind := lists.ordered.1
  cases entries with
  | nil => rfl
  | cons entry entries =>
    have keyBehind := (behind entry List.mem_cons_self).1
    exact if_pos (Nat.lt_of_le_of_lt cut keyBehind)

end WalksAs

theorem walksAs_close {after tail : List UInt8} (spaces : IsSpaces after)
    (reached : dec.rest ++ beyond = after ++ closeBrace :: tail) (fuel : ℕ)
    (res : FirstChunkAnalysis) :
    WalksAs fits buf.length [] res (analyzeMembers fits buf fuel dec res) := by
  have noMore : dec.more = false := by
    by_cases visible : dec.peeked.rest = []
    · exact more_nil visible
    · rw [← more_extend beyond visible, extend, reached]
      exact not_more_of_closing .object spaces
  exact walksAs_of_eq (analyzeMembers_of_not_more noMore fuel res)

theorem walksAs_skip {fuel : ℕ} {head : List UInt8} {stack : List TokenState}
    {recorded : FirstChunkAnalysis} (placed : buf.drop keyEnd ++ beyond = head ++ (value ++ later))
    (leads : Leads .objectColon head .objectValue) (isValue : Derives .value value)
    (delimited : Delimited later) {stop : ℕ} (hstop : stop = keyEnd + (head.length + value.length))
    (goOn : stop ≤ buf.length → buf.drop stop ++ beyond = later →
      WalksAs fits buf.length entries recorded
        (analyzeMembers fits buf fuel ⟨buf.drop stop, .objectComma, stack⟩ recorded))
    (cut : buf.length ≤ stop → walk buf.length entries recorded = conclude recorded) :
    WalksAs fits buf.length entries recorded
      (match skipNextValue fits (2 * buf.length + 2) (keyed buf keyEnd stack) with
        | none => conclude recorded
        | some dec => analyzeMembers fits buf fuel dec recorded) := by
  obtain ⟨within, skipped⟩ := skipNextValue_cases fits placed leads isValue delimited stack
  rw [← hstop] at within skipped
  cases hskip : skipNextValue fits (2 * buf.length + 2) (keyed buf keyEnd stack) with
  | none =>
    refine walksAs_conclude fun all => cut ?_
    by_contra visible
    exact absurd (hskip.symm.trans (within (by omega) all)) (by simp)
  | some next =>
    rcases skipped next hskip with ⟨exhausted, beyondStop⟩ | ⟨rfl, visible, reached⟩
    · dsimp only
      rw [analyzeMembers_of_not_more (more_nil (peeked_nil exhausted))]
      exact walksAs_conclude fun all => cut (beyondStop all)
    · exact goOn visible reached

theorem walksAs_member {fuel : ℕ} {before key gap gap' : List UInt8} (res : FirstChunkAnalysis)
    (atMember : AtMember buf beyond dec offset (memberHead before key gap gap' ++ (value ++ later)))
    (enough : buf.length < offset + fuel) (spaces : IsSpaces before) (isKey : IsStringBody key)
    (spacesGap : IsSpaces gap) (spacesGap' : IsSpaces gap') (isValue : Derives .value value)
    (delimited : Delimited later) :
    let stop := offset + ((memberHead before key gap gap').length + value.length)
    (∀ fuel' recorded, fuel = fuel' + 1 → stop ≤ buf.length → buf.drop stop ++ beyond = later →
      WalksAs fits buf.length entries recorded
        (analyzeMembers fits buf fuel' ⟨buf.drop stop, .objectComma, dec.stack⟩ recorded)) →
    (∀ recorded, buf.length ≤ stop → walk buf.length entries recorded = conclude recorded) →
    WalksAs fits buf.length (.placed offset before key gap gap' value :: entries) res
      (analyzeMembers fits buf fuel dec res) := by
  intro stop goOn cut
  obtain ⟨entry, hentry⟩ : ∃ entry, entry = Entry.placed offset before key gap gap' value :=
    ⟨_, rfl⟩
  obtain ⟨rfl, rfl⟩ : entry.key = key ∧ entry.value = value := by simp [hentry, Entry.placed]
  have hend : entry.keyEnd = offset + (before.length + entry.key.length + 2) := by
    rw [hentry, Entry.placed]
  have hstart : entry.start = entry.keyEnd + (gap ++ colon :: gap').length := by
    rw [hend, hentry]
    simp only [Entry.placed, memberHead, List.length_append, List.length_cons]
    omega
  have hstop : stop = entry.keyEnd + ((gap ++ colon :: gap').length + entry.value.length) := by
    simp only [stop, hend, memberHead, List.length_append, List.length_cons]
    omega
  rw [← hentry]
  rcases key_cases fits atMember spaces isKey hend with
    ⟨short, concludes⟩ | ⟨complete, more, token, placed⟩
  · rw [concludes]
    exact walksAs_conclude fun _ => if_pos short
  have notShort : ¬ buf.length < entry.keyEnd := Nat.not_lt.mpr complete
  obtain ⟨fuel, rfl⟩ : ∃ fuel', fuel = fuel' + 1 := ⟨fuel - 1, by omega⟩
  have goesOn recorded := walksAs_skip placed (.colon spacesGap spacesGap') isValue delimited
    hstop (goOn fuel recorded rfl) (cut recorded)
  have offsetEq : inputOffset buf (keyed buf entry.keyEnd dec.stack) = entry.keyEnd := by
    simp only [inputOffset, keyed, List.length_drop]
    omega
  have found := resultValueStart_eq placed complete spacesGap spacesGap' isValue
  rw [← hstart] at found
  rw [analyzeMembers, if_pos more, token]
  dsimp only
  split_ifs with isError
  · exact walksAs_of_eq (by rw [walk, if_neg notShort, if_pos isError])
  by_cases isResult : unquote entry.key = resultKey
  · rw [recordResult, if_pos isResult, offsetEq, found]
    by_cases missing : buf.length ≤ entry.start
    · refine walksAs_of_eq ?_
      rw [if_pos missing, walk, if_neg notShort, if_neg isError, if_pos isResult, if_pos missing]
      rfl
    · rw [if_neg missing]
      have passes others : walk buf.length (entry :: others) res = walk buf.length others
          { res with resultStart := entry.start, counter := .primed (entry.value.headD 0) } := by
        rw [walk, if_neg notShort, if_neg isError, if_pos isResult, if_neg missing]
      refine .cons passes ?_
      dsimp only [Option.map_some]
      split_ifs with overflow
      · -- the value does not end before the chunk does
        obtain ⟨seen, hseen, hlater⟩ := exists_of_append_eq placed (by rw [List.length_drop]; omega)
        have atStart : buf.drop entry.start ++ beyond = entry.value ++ later := by
          rw [hstart, ← List.drop_drop, hseen, List.drop_left, hlater]
        rcases skipResultValueBytes_cases atStart isValue delimited (by omega) with
          ⟨ended, _⟩ | ⟨_, beyondStop⟩
        · have within := overflow.2
          simp only [overflows, Int.toNat_natCast, ended, Bool.not_true] at within
          cases within
        · have streams : true = decide (0 ≤ (entry.start : ℤ)) := by simp
          rw [streams]
          exact walksAs_conclude fun _ => cut _ (by omega)
      · exact goesOn _
  · rw [recordResult, if_neg isResult]
    dsimp only
    rw [if_neg fun overflow => isResult overflow.1]
    refine .cons (fun others => ?_) (goesOn res)
    rw [walk, if_neg notShort, if_neg isError, if_neg isResult]

theorem walksAs_analyzeMembers (lists : Lists offset text entries) :
    ∀ (fuel : ℕ) (dec : Decoder) (res : FirstChunkAnalysis)
      (tail : List UInt8), AtMember buf beyond dec offset (text ++ closeBrace :: tail) →
      buf.length < offset + fuel →
      WalksAs fits buf.length entries res (analyzeMembers fits buf fuel dec res) := by
  induction lists with
  | @last offset before key gap gap' value after spaces isKey spacesGap spacesGap' isValue spaces' =>
    intro fuel dec res tail atMember enough
    refine walksAs_member res (by simpa using atMember) enough spaces isKey spacesGap spacesGap'
      isValue (delimited_append spaces' isDelimiter_closeBrace) ?_ fun _ _ => rfl
    intro fuel recorded _ _ reached
    exact walksAs_close spaces' reached fuel recorded
  | @more offset before key gap gap' value after rest entries spaces isKey spacesGap spacesGap'
      isValue spaces' others ih =>
    intro fuel dec res tail atMember enough
    refine walksAs_member res (by simpa using atMember) enough spaces isKey spacesGap spacesGap'
      isValue (delimited_append spaces' isDelimiter_comma) ?_ fun recorded cut =>
        walk_of_lt others (by simp only [List.length_append]; omega) recorded
    intro fuel recorded hfuel visible reached
    generalize hstop : offset + ((memberHead before key gap gap').length + value.length) = stop
      at visible reached ⊢
    have hoffset : offset + (memberHead before key gap gap' ++ value ++ after ++ [comma]).length =
        stop + (after.length + 1) := by
      simp only [List.length_append, List.length_singleton]
      omega
    refine ih fuel _ recorded tail ⟨buf.take stop, after ++ comma :: [], .objectKey,
      (List.take_append_drop stop buf).symm, by simpa using reached, ?_,
      .objectComma spaces' isSpaces_nil, .inr rfl⟩ (by omega)
    rw [hoffset, List.length_append, List.length_take, Nat.min_eq_left visible]
    simp

theorem walksAs_analyzeChunk (fits : List UInt8 → Bool) (object : IsObject body entries)
    (cut : body = buf ++ beyond) : WalksAs fits buf.length entries {} (analyzeChunk fits buf) := by
  obtain ⟨outer, inner, tail, shape, spacesOuter, _, members⟩ := object
  have leads : Leads .topValue outer .topValue := .spaces spacesOuter
  have placed : buf ++ beyond = (outer ++ [openBrace]) ++ (inner ++ closeBrace :: tail) := by
    rw [← cut, shape]
    simp
  by_cases visible : (outer ++ [openBrace]).length ≤ buf.length
  · obtain ⟨seen, hbuf, reached⟩ := exists_of_append_eq placed visible
    have opens : token fits ⟨buf, .topValue, []⟩ =
        some (.delim openBrace, ⟨seen, .objectStart, [.topValue]⟩) := by
      rw [hbuf, List.append_assoc, List.singleton_append]
      exact token_of_opening .object leads rfl
    rw [analyzeChunk, opens]
    dsimp only
    rw [if_pos rfl]
    rcases members with ⟨spaces, rfl⟩ | lists
    · exact walksAs_close spaces reached _ _
    · exact walksAs_analyzeMembers lists _ _ _ tail ⟨outer ++ [openBrace], [], .objectStart, hbuf,
        reached, by simp, .spaces isSpaces_nil, .inl rfl⟩ (by omega)
  · have short : buf.length ≤ outer.length := by
      rw [List.length_append, List.length_singleton] at visible
      omega
    have blank : IsSpaces buf := by
      have starts : buf <+: outer := List.prefix_of_prefix_length_le ⟨beyond, placed⟩
        ⟨[openBrace] ++ (inner ++ closeBrace :: tail), (List.append_assoc ..).symm⟩ short
      exact fun b hb => spacesOuter b (starts.subset hb)
    have noToken : token fits ⟨buf, .topValue, []⟩ = none :=
      token_nil (List.dropWhile_eq_nil_iff.mpr blank)
    rw [analyzeChunk, noToken]
    refine walksAs_conclude fun _ => ?_
    rcases members with ⟨_, rfl⟩ | lists
    · rfl
    · exact walk_of_lt lists (by omega) _

theorem walk_found {size : ℕ} (entries : List Entry) (res : FirstChunkAnalysis)
    (streamable : (walk size entries res).streamable) :
    0 ≤ (walk size entries res).resultStart ∧
      ((walk size entries res).resultStart = res.resultStart ∧
          (walk size entries res).counter = res.counter ∨
        ∃ entry ∈ entries, unquote entry.key = resultKey ∧ entry.start < size ∧
          (walk size entries res).resultStart = entry.start ∧
          (walk size entries res).counter = .primed (entry.value.headD 0)) := by
  induction entries generalizing res with
  | nil => exact ⟨of_decide_eq_true streamable, .inl ⟨rfl, rfl⟩⟩
  | cons entry entries ih =>
    rw [walk] at streamable ⊢
    split_ifs at streamable ⊢ with cut isError isResult missing
    · exact ⟨of_decide_eq_true streamable, .inl ⟨rfl, rfl⟩⟩
    · obtain ⟨nonneg, same | ⟨later, listed, found⟩⟩ := ih _ streamable
      · refine ⟨nonneg, .inr ⟨entry, List.mem_cons_self, isResult, Nat.not_le.mp missing, same.1,
          same.2⟩⟩
      · exact ⟨nonneg, .inr ⟨later, List.mem_cons_of_mem entry listed, found⟩⟩
    · obtain ⟨nonneg, same | ⟨later, listed, found⟩⟩ := ih _ streamable
      · exact ⟨nonneg, .inl same⟩
      · exact ⟨nonneg, .inr ⟨later, List.mem_cons_of_mem entry listed, found⟩⟩

theorem exists_isObject (document : IsDocument body) (cut : body = buf ++ beyond)
    (opens : token fits ⟨buf, .topValue, []⟩ = some (.delim openBrace, dec)) :
    ∃ entries, IsObject body entries := by
  obtain ⟨before, value, after, shape, spaces, isValue, spaces'⟩ := document
  have leads : Leads .topValue before .topValue := .spaces spaces
  have whole := (token_extend beyond opens).resolve_left fun scalar => by cases scalar.1
  rw [extend, ← cut, shape, List.append_assoc] at whole
  cases isValue with
  | scalar isScalar =>
    rw [token_of_isScalar isScalar leads rfl (delimited_of_isSpaces spaces')] at whole
    cases whole
  | string isBody =>
    rw [token_of_isStringBody isBody leads rfl] at whole
    cases whole
  | emptyArray | array =>
    rw [List.cons_append, List.cons_append, token_of_opening .array leads rfl] at whole
    cases whole
  | @emptyObject inner spacesInner =>
    exact ⟨[], before, inner, after, by simp [shape], spaces, spaces', .inl ⟨spacesInner, rfl⟩⟩
  | @object inner members =>
    obtain ⟨entries, lists⟩ := members.exists_lists (before.length + 1)
    exact ⟨entries, before, inner, after, by simp [shape], spaces, spaces', .inr lists⟩

/-- What the analysis of a first chunk reports as streamable is located: the
response has a top-level member `result` whose value starts at the reported
offset, within the chunk, and the counter is primed for it. -/
theorem located_analyzeChunk (document : IsDocument body) (size : ℕ)
    (streamable : (analyzeChunk fits (body.take size)).streamable) :
    Located body (analyzeChunk fits (body.take size)) ∧
      (analyzeChunk fits (body.take size)).resultStart.toNat ≤ (body.take size).length := by
  have cut : body = body.take size ++ body.drop size := (List.take_append_drop size body).symm
  generalize body.take size = buf, body.drop size = beyond at cut streamable ⊢
  obtain ⟨entries, object⟩ : ∃ entries, IsObject body entries := by
    rw [analyzeChunk] at streamable
    split at streamable
    · split_ifs at streamable with isBrace
      rename_i opens
      exact exists_isObject document cut (isBrace ▸ opens)
    · cases streamable
  obtain ⟨seen, isPrefix, same, _⟩ := walksAs_analyzeChunk fits object cut
  rw [same] at streamable ⊢
  obtain ⟨nonneg, missing | ⟨entry, listed, isResult, within, hstart, hcounter⟩⟩ :=
    walk_found seen {} streamable
  · rw [missing.1] at nonneg
    cases nonneg
  have located := (object.memberAt (isPrefix.subset listed)).1
  obtain ⟨first, rest, hvalue, _⟩ := located.isValue.exists_cons
  rw [hvalue] at located hcounter
  rw [hstart, Int.toNat_natCast]
  exact ⟨⟨entry.key, first, rest, isResult, nonneg, by rwa [hstart, Int.toNat_natCast],
    hcounter⟩, Nat.le_of_lt within⟩

/-- If the keys are distinct, the walk reports the one `result` whose first byte
lies within the first `size` bytes, unless a key `error` is complete there. -/
theorem walk_streamable_iff {size : ℕ} (bounds : ∀ entry ∈ entries, entry.keyEnd ≤ entry.start)
    (ordered : entries.Pairwise fun earlier later => earlier.start < later.keyEnd)
    (distinct : entries.Pairwise fun earlier later => unquote earlier.key ≠ unquote later.key)
    (res : FirstChunkAnalysis)
    (fresh : 0 ≤ res.resultStart → ∀ entry ∈ entries, unquote entry.key ≠ resultKey) :
    (walk size entries res).streamable ↔
      (0 ≤ res.resultStart ∨
        ∃ entry ∈ entries, unquote entry.key = resultKey ∧ entry.start < size) ∧
      ∀ entry ∈ entries, unquote entry.key = errorKey → size < entry.keyEnd := by
  induction entries generalizing res with
  | nil => simp [walk, conclude]
  | cons entry entries ih =>
    obtain ⟨entryBounds, bounds⟩ := List.forall_mem_cons.mp bounds
    obtain ⟨before, ordered⟩ := List.pairwise_cons.mp ordered
    obtain ⟨apart, distinct⟩ := List.pairwise_cons.mp distinct
    replace ih := ih bounds ordered distinct
    rw [walk]
    split_ifs with cut isError isResult missing
    · -- the later keys are not complete either
      have behind : ∀ later ∈ entry :: entries, size < later.keyEnd ∧ ¬ later.start < size := by
        intro later hlater
        rcases List.mem_cons.mp hlater with rfl | hlater
        · exact ⟨cut, by omega⟩
        · have := before later hlater
          have := bounds later hlater
          omega
      rw [conclude, decide_eq_true_iff]
      constructor
      · exact fun nonneg => ⟨.inl nonneg, fun later hlater _ => (behind later hlater).1⟩
      · rintro ⟨nonneg | ⟨later, hlater, _, shown⟩, _⟩
        · exact nonneg
        · exact absurd shown (behind later hlater).2
    · refine iff_of_false (by simp) ?_
      rintro ⟨_, errors⟩
      exact cut (errors entry List.mem_cons_self isError)
    · refine iff_of_false (by simp) ?_
      rintro ⟨nonneg | ⟨later, hlater, isLater, shown⟩, _⟩
      · exact fresh nonneg entry List.mem_cons_self isResult
      · rcases List.mem_cons.mp hlater with rfl | hlater
        · omega
        · exact apart later hlater (isResult.trans isLater.symm)
    · rw [ih _ fun _ later hlater isLater => apart later hlater (isResult.trans isLater.symm),
        List.forall_mem_cons]
      constructor
      · rintro ⟨_, errors⟩
        exact ⟨.inr ⟨entry, List.mem_cons_self, isResult, Nat.not_le.mp missing⟩,
          fun error => absurd error isError, errors⟩
      · rintro ⟨_, _, errors⟩
        exact ⟨.inl (Int.natCast_nonneg _), errors⟩
    · rw [ih res fun nonneg => (List.forall_mem_cons.mp (fresh nonneg)).2]
      simp [isError, isResult]

/-- For every prefix of an object whose keys are distinct: the analysis reports it as
streamable exactly if it shows the first byte of the value of the top-level `result` and
no complete top-level key `error`, and then reports the offset of that byte.  Whatever
member the counter is primed for, it ends the value where the decoder does, and if it
finds no end, the decoder finds none before the end of the prefix. -/
theorem analyzeChunk_streamable_iff {body front : List UInt8} {entries : List Entry}
    (object : IsObject body entries)
    (distinct : (entries.map fun entry => unquote entry.key).Nodup) (isPrefix : front <+: body) :
    let found := analyzeChunk fitsAll front
    (found.streamable ↔
      (∃ entry ∈ entries, unquote entry.key = resultKey ∧ entry.start < front.length) ∧
        ¬ ∃ entry ∈ entries, unquote entry.key = errorKey ∧ entry.keyEnd ≤ front.length) ∧
    (found.streamable → ∃ entry ∈ entries,
      unquote entry.key = resultKey ∧ found.resultStart = entry.start) ∧
    ∀ entry ∈ entries, entry.start < front.length → ∀ stack,
      let scanned := skipResultValueBytes front entry.start (.primed (entry.value.headD 0))
      let skipped := skipNextValue fitsAll (2 * front.length + 2) (keyed front entry.keyEnd stack)
      if scanned.2 then skipped = some ⟨front.drop scanned.1, .objectComma, stack⟩
      else ∀ dec, skipped = some dec → dec.rest = [] := by
  obtain ⟨beyond, cut⟩ := isPrefix
  obtain ⟨_, _, _, walks⟩ := walksAs_analyzeChunk fitsAll object cut.symm
  have ordered : (∀ entry ∈ entries, entry.keyEnd ≤ entry.start) ∧
      entries.Pairwise fun earlier later => earlier.start < later.keyEnd := by
    obtain ⟨_, _, _, _, _, _, ⟨_, rfl⟩ | lists⟩ := object
    · simp
    · exact ⟨fun entry listed => (lists.ordered.1 entry listed).2, lists.ordered.2⟩
  refine ⟨?_, ?_, ?_⟩
  · rw [walks rfl, walk_streamable_iff ordered.1 ordered.2 (List.pairwise_map.mp distinct) {}
      fun nonneg => by cases nonneg]
    simp only [not_exists, not_and, Nat.not_le]
    refine and_congr_left fun _ => or_iff_right ?_
    decide
  · rw [walks rfl]
    intro streamable
    obtain ⟨nonneg, missing | ⟨entry, listed, isResult, _, hstart, _⟩⟩ :=
      walk_found entries {} streamable
    · rw [missing.1] at nonneg
      cases nonneg
    · exact ⟨entry, listed, isResult, hstart⟩
  · intro entry listed within stack
    obtain ⟨located, before, gap, gap', later, shape, hend, hstart, spacesGap, spacesGap',
      afterMember⟩ := object.memberAt listed
    have delimited := afterMember.delimited.2
    have bound : entry.keyEnd ≤ entry.start := ordered.1 entry listed
    have placed : front.drop entry.keyEnd ++ beyond =
        gap ++ colon :: gap' ++ (entry.value ++ later) := by
      rw [← List.drop_append_of_le_length (by omega), cut, shape, hend, List.drop_left]
    have atStart : front.drop entry.start ++ beyond = entry.value ++ later := by
      rw [← List.drop_append_of_le_length (by omega), cut, shape, hstart, ← List.drop_drop, hend,
        List.drop_left, List.drop_left]
    obtain ⟨passes, stops⟩ := skipNextValue_cases fitsAll placed (.colon spacesGap spacesGap')
      located.isValue delimited stack
    rw [← Nat.add_assoc, ← hstart] at passes stops
    dsimp only
    rcases skipResultValueBytes_cases atStart located.isValue delimited within with
      ⟨ended, visible⟩ | ⟨goesOn, beyondStop⟩
    · rw [ended]
      exact passes visible rfl
    · rw [if_neg (Bool.eq_false_iff.mp goesOn)]
      intro dec skipped
      rcases stops dec skipped with ⟨exhausted, _⟩ | ⟨rfl, visible, _⟩
      · exact exhausted
      · exact List.drop_eq_nil_of_le beyondStop

end Walk

theorem isStringBody_resultKey : IsStringBody resultKey := by
  repeat
    apply IsStringBody.plain
    · decide
    · decide
    · decide
  exact .nil

/-- The object `{"result":[]}`, cut behind the opening bracket of the list. -/
theorem analyzeChunk_of_cut_list :
    let member : Entry := .placed 1 [] resultKey [] [] (openBracket :: [] ++ [closeBracket])
    let found := analyzeChunk fitsAll
      (openBrace :: (memberHead [] resultKey [] [] ++ [openBracket]))
    found.streamable ∧ found.resultStart = member.start := by
  intro member found
  have object : IsObject (openBrace :: (memberHead [] resultKey [] [] ++
      (openBracket :: [] ++ [closeBracket]) ++ [] ++ [closeBrace])) [member] :=
    ⟨[], _, [], rfl, isSpaces_nil, isSpaces_nil, .inr (.last isSpaces_nil isStringBody_resultKey
      isSpaces_nil isSpaces_nil (.emptyArray isSpaces_nil) isSpaces_nil)⟩
  have isPrefix : openBrace :: (memberHead [] resultKey [] [] ++ [openBracket]) <+: _ :=
    ⟨[closeBracket, closeBrace], rfl⟩
  obtain ⟨reports, located, _⟩ := analyzeChunk_streamable_iff object (by simp) isPrefix
  have streamable := reports.mpr ⟨⟨member, List.mem_singleton_self _, by decide, by decide⟩, by
    rintro ⟨_, listed, isError, _⟩
    rw [List.mem_singleton.mp listed] at isError
    exact absurd isError (by decide)⟩
  obtain ⟨_, listed, _, hstart⟩ := located streamable
  exact ⟨streamable, List.mem_singleton.mp listed ▸ hstart⟩

end Nodecore.Protocol
