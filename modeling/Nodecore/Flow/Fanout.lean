/-
# Fan-out to the collected upstreams

A fan-out sends the request to all collected upstreams at once.  The replies arrive in any
order and are kept by upstream; when all are in, they are recorded in the order of the
list.  Broadcast keeps the first success, maximum-value the first of those with the largest
quantity.  An error response stands in for a missing success, the first one, and without
one the request fails with the error that was recorded last.

How `%q` writes a text into an error is a parameter.  A result is a JSON text, so it is
never a single quote.
-/

import Mathlib.Data.Int.ConditionallyCompleteOrder
import Mathlib.Data.List.MinMax
import Mathlib.Order.CompletePartialOrder
import Mathlib.Order.ConditionallyCompleteLattice.Basic
import Nodecore.Flow.NotNull

namespace Nodecore.Flow

open Lib Protocol Specs

def hexDigit? (b : UInt8) : Option ℕ :=
  if byte '0' ≤ b ∧ b ≤ byte '9' then some (b - byte '0').toNat
  else if byte 'a' ≤ b ∧ b ≤ byte 'f' then some ((b - byte 'a').toNat + 10)
  else if byte 'A' ≤ b ∧ b ≤ byte 'F' then some ((b - byte 'A').toNat + 10)
  else none

def hexNumber? (digits : Bytes) : Option ℕ :=
  if digits.isEmpty then none
  else digits.foldlM (fun value b => (hexDigit? b).map (value * 16 + ·)) 0

/-- `SetString` of a big number in base sixteen, which takes a sign. -/
def setString? : Bytes → Option ℤ
  | b :: digits =>
    if b = byte '-' then (hexNumber? digits).map fun value : ℕ => -(value : ℤ)
    else if b = byte '+' then (hexNumber? digits).map Nat.cast
    else (hexNumber? (b :: digits)).map Nat.cast
  | [] => none

def responseResultString (response : DispatchResponse) : Except Failure Bytes :=
  match response.responseResult with
  | b :: rest =>
    if b = byte '"' ∧ rest.getLast? = some (byte '"') then .ok rest.dropLast
    else .error (.other "result is not a string")
  | [] => .error (.other "result is not a string")

def parseHexQuantityResult (quoted : Bytes → String) (response : DispatchResponse) :
    Except Failure ℤ := do
  let str := trimSpace (← responseResultString response)
  if str = [] then .error (.other "empty quantity result")
  else if ¬ (str.take 2 = bytes "0x" ∨ str.take 2 = bytes "0X") then
    .error (.other ("invalid hex quantity result " ++ quoted str ++ ": missing 0x prefix"))
  else if str.drop 2 = [] then .error (.other "empty hex quantity result")
  else
    match setString? (str.drop 2) with
    | some value => .ok value
    | none => .error (.other ("invalid hex quantity result " ++ quoted (str.drop 2)))

/-- What a reply counts as: a failure, the error response of an upstream, or a success with a
value. -/
inductive Recorded (ν : Type)
  | failure (err : Failure)
  | fallback (response : DispatchResponse)
  | value (best : ν) (response : DispatchResponse)

namespace Recorded

variable {ν : Type}

def failure? : Recorded ν → Option Failure
  | failure err => some err
  | _ => none

def fallback? : Recorded ν → Option DispatchResponse
  | fallback response => some response
  | _ => none

def value? : Recorded ν → Option (ν × DispatchResponse)
  | value best response => some (best, response)
  | _ => none

end Recorded

/-- The checks of `Record`, in their order. -/
def Reply.recorded {ν : Type} (streaming : String) (measure : DispatchResponse → Except Failure ν) :
    Reply → Recorded ν
  | .unknown => .failure (.responseError .noAvailableUpstreamsError)
  | .failed err => .failure err
  | .empty => .failure (.other "fan-out upstream returned empty response")
  | .response _ answer =>
    if answer.hasStream then .failure (.other streaming)
    else if answer.hasError then .fallback answer
    else
      match measure answer with
      | .error err => .failure err
      | .ok value => .value value answer

/-- `Record` of the broadcast counts all successes alike. -/
def broadcastRecorded : Reply → Recorded Unit :=
  Reply.recorded "fan-out broadcast received streaming response" fun _ => .ok ()

def maximumValueRecorded (quoted : Bytes → String) : Reply → Recorded ℤ :=
  Reply.recorded "fan-out maximum-value received streaming response"
    (parseHexQuantityResult quoted)

structure Aggregator (ν : Type) where
  selected : Option (ν × DispatchResponse) := none
  fallback : Option DispatchResponse := none
  lastErr : Option Failure := none

namespace Aggregator

variable {ν : Type} [LinearOrder ν]

/-- A success is selected if there is none yet, or if its value is larger. -/
def record (aggregator : Aggregator ν) : Recorded ν → Aggregator ν
  | .failure err => { aggregator with lastErr := some err }
  | .fallback response => { aggregator with fallback := aggregator.fallback.or (some response) }
  | .value value response =>
    match aggregator.selected with
    | none => { aggregator with selected := some (value, response) }
    | some best =>
      if best.1 < value then { aggregator with selected := some (value, response) }
      else aggregator

def final (aggregator : Aggregator ν) : Except Failure DispatchResponse :=
  match aggregator.selected, aggregator.fallback, aggregator.lastErr with
  | some selected, _, _ => .ok selected.2
  | none, some response, _ => .ok response
  | none, none, some err => .error err
  | none, none, none => .error (.responseError .noAvailableUpstreamsError)

/-- What is kept: the first of the largest values, the first fallback, the last error. -/
theorem foldl_record (recorded : List (Recorded ν)) :
    recorded.foldl record {} =
      { selected := (recorded.filterMap Recorded.value?).argmax Prod.fst
        fallback := recorded.findSome? Recorded.fallback?
        lastErr := (recorded.filterMap Recorded.failure?).getLast? } := by
  induction recorded using List.reverseRecOn with
  | nil => rfl
  | append_singleton recorded last ih =>
    rw [List.foldl_concat, ih, List.filterMap_append, List.filterMap_append, List.findSome?_append]
    cases last with
    | failure err | fallback response =>
      simp [record, Recorded.failure?, Recorded.fallback?, Recorded.value?, List.filterMap_cons]
    | value best response =>
      have isLast : [Recorded.value best response].filterMap Recorded.value? =
          [(best, response)] := rfl
      rw [isLast, List.argmax_concat, record]
      cases (recorded.filterMap Recorded.value?).argmax Prod.fst with
      | none => simp [Recorded.failure?, Recorded.fallback?]
      | some earlier =>
        dsimp only
        split_ifs
        all_goals simp [Recorded.failure?, Recorded.fallback?]

end Aggregator

/-- The loop over the replies as they arrive.  The context may be done before any of them. -/
def gather (cancelled : ℕ → Option String) (round : ℕ) (collectedResults : GoMap String Reply)
    (arrivals : List (String × Reply)) : Except Failure (GoMap String Reply) :=
  match cancelled round, arrivals with
  | some text, _ => .error (.other text)
  | none, [] => .ok collectedResults
  | none, (upstreamID, reply) :: later =>
    gather cancelled (round + 1) (collectedResults.insert upstreamID reply) later

/-- What the collected results come to, recorded in the order of the list. -/
def aggregate (quoted : Bytes → String) (dispatch : DispatchPolicy) (upstreamIDs : List String)
    (collectedResults : GoMap String Reply) : Except Failure DispatchResponse :=
  let replies := upstreamIDs.filterMap collectedResults.lookup
  match dispatch with
  | .dispatchMaximumValue =>
    ((replies.map (maximumValueRecorded quoted)).foldl Aggregator.record {}).final
  | _ => ((replies.map broadcastRecorded).foldl Aggregator.record {}).final

/-- The fan-out to some upstreams whose replies arrive in an order of their own. -/
def fanOut (quoted : Bytes → String) (dispatch : DispatchPolicy) (cancelled : ℕ → Option String)
    (reply : String → Reply) (order : RangeOrder (String × Reply)) (upstreamIDs : List String) :
    Except Failure DispatchResponse := do
  let arrivals := order.visit (upstreamIDs.map fun upstreamID => (upstreamID, reply upstreamID))
  aggregate quoted dispatch upstreamIDs (← gather cancelled 0 ∅ arrivals)

theorem exists_gather {reply : String → Reply} {arrivals : List (String × Reply)}
    (replies : ∀ arrival ∈ arrivals, arrival.2 = reply arrival.1) (round : ℕ)
    (collectedResults : GoMap String Reply) :
    ∃ results, gather (fun _ => none) round collectedResults arrivals = .ok results ∧
      ∀ id, results.lookup id =
        if ∃ arrival ∈ arrivals, arrival.1 = id then some (reply id)
        else collectedResults.lookup id := by
  induction arrivals generalizing round collectedResults with
  | nil => exact ⟨collectedResults, rfl, by simp⟩
  | cons arrival later ih =>
    rw [List.forall_mem_cons] at replies
    obtain ⟨results, gathered, found⟩ := ih replies.2 (round + 1)
      (collectedResults.insert arrival.1 arrival.2)
    refine ⟨results, gathered, fun id => ?_⟩
    rw [found]
    rcases eq_or_ne arrival.1 id with rfl | differs
    · rw [AList.lookup_insert, replies.1, ite_self, if_pos ⟨arrival, List.mem_cons_self, rfl⟩]
    · simp only [List.mem_cons, exists_eq_or_imp, differs, false_or,
        AList.lookup_insert_ne differs.symm]

theorem exists_aggregate (quoted : Bytes → String) (dispatch : DispatchPolicy)
    (reply : String → Reply) (order : RangeOrder (String × Reply)) (upstreamIDs : List String) :
    ∃ results, fanOut quoted dispatch (fun _ => none) reply order upstreamIDs =
        aggregate quoted dispatch upstreamIDs results ∧
      upstreamIDs.filterMap (AList.lookup · results) = upstreamIDs.map reply := by
  have replies : ∀ arrival ∈ order.visit (upstreamIDs.map fun id => (id, reply id)),
      arrival.2 = reply arrival.1 := by
    intro arrival arrived
    rw [order.mem_visit] at arrived
    obtain ⟨id, -, rfl⟩ := List.mem_map.mp arrived
    rfl
  obtain ⟨results, gathered, found⟩ := exists_gather replies 0 ∅
  refine ⟨results, ?_, ?_⟩
  · rw [fanOut, gathered]
    rfl
  · rw [← List.filterMap_eq_map]
    apply List.filterMap_congr
    intro id listed
    rw [found, if_pos ⟨(id, reply id), by simpa using listed, rfl⟩]
    rfl

/-- A success if there is one, an error response if there is one, or else the last failure. -/
def settle (success errorResponse : Option DispatchResponse) (failures : List Failure) :
    Except Failure DispatchResponse :=
  match success.or errorResponse with
  | some response => .ok response
  | none => .error (failures.getLast?.getD (.responseError .noAvailableUpstreamsError))

theorem final_foldl_record {ν : Type} [LinearOrder ν] (recorded : List (Recorded ν)) :
    (recorded.foldl Aggregator.record {}).final =
      settle (((recorded.filterMap Recorded.value?).argmax Prod.fst).map Prod.snd)
        (recorded.findSome? Recorded.fallback?) (recorded.filterMap Recorded.failure?) := by
  rw [Aggregator.foldl_record, Aggregator.final, settle]
  cases (recorded.filterMap Recorded.value?).argmax Prod.fst with
  | some best => rfl
  | none =>
    cases recorded.findSome? Recorded.fallback? with
    | some response => rfl
    | none => cases (recorded.filterMap Recorded.failure?).getLast? <;> rfl

theorem argmax_unit (items : List (Unit × DispatchResponse)) :
    items.argmax Prod.fst = items.head? := by
  cases items with
  | nil => rfl
  | cons first items =>
    rw [List.argmax_cons, List.head?_cons]
    cases items.argmax Prod.fst with
    | none => rfl
    | some other => exact if_neg (lt_irrefl ())

/-- A response that is neither a stream nor an error. -/
def IsSuccess (reply : Reply) (response : DispatchResponse) : Prop :=
  (∃ isSent, reply = .response isSent response) ∧ response.hasStream = false ∧
    response.hasError = false

def IsErrorResponse (reply : Reply) (response : DispatchResponse) : Prop :=
  (∃ isSent, reply = .response isSent response) ∧ response.hasStream = false ∧
    response.hasError = true

def IsHexDigit (b : UInt8) (digit : ℕ) : Prop :=
  (bytes "0123456789abcdef")[digit]? = some b ∨ (bytes "0123456789ABCDEF")[digit]? = some b

instance (b : UInt8) (digit : ℕ) : Decidable (IsHexDigit b digit) :=
  inferInstanceAs (Decidable (_ ∨ _))

def IsHexNumber (text : Bytes) (number : ℕ) : Prop :=
  text ≠ [] ∧ ∃ digits, List.Forall₂ IsHexDigit text digits ∧
    number = digits.foldl (fun value digit => value * 16 + digit) 0

def IsSignedNumber (text : Bytes) (value : ℤ) : Prop :=
  ∃ sign digits number, text = sign ++ digits ∧ IsHexNumber digits number ∧
    ((sign = [] ∨ sign = [byte '+']) ∧ value = number ∨ sign = [byte '-'] ∧ value = -number)

/-- A quoted text with `0x` and a number, and maybe white space around. -/
def IsHexQuantity (result : Bytes) (value : ℤ) : Prop :=
  ∃ inner mark number, result = byte '"' :: (inner ++ [byte '"']) ∧
    trimSpace inner = mark ++ number ∧ mark ∈ [bytes "0x", bytes "0X"] ∧
    IsSignedNumber number value

theorem hexDigit?_eq_some_iff (b : UInt8) (digit : ℕ) :
    hexDigit? b = some digit ↔ IsHexDigit b digit := by
  constructor
  · have all : ∀ n < 256, (hexDigit? n.toUInt8).all (IsHexDigit n.toUInt8 ·) = true := by
      decide +kernel
    intro found
    have here := @forall_byte (fun b => (hexDigit? b).all (IsHexDigit b ·) = true) all b
    rw [found, Option.all_some] at here
    exact of_decide_eq_true here
  · intro isDigit
    have small : digit < 16 :=
      isDigit.elim (fun lower => (List.getElem?_eq_some_iff.mp lower).1) fun upper =>
        (List.getElem?_eq_some_iff.mp upper).1
    have all : ∀ digit < 16,
        (bytes "0123456789abcdef")[digit]?.bind hexDigit? = some digit ∧
          (bytes "0123456789ABCDEF")[digit]?.bind hexDigit? = some digit := by decide +kernel
    obtain ⟨lower, upper⟩ := all digit small
    rcases isDigit with found | found
    · rwa [found, Option.bind_some] at lower
    · rwa [found, Option.bind_some] at upper

theorem foldlM_hexDigit? (text : Bytes) (value number : ℕ) :
    text.foldlM (fun value b => (hexDigit? b).map (value * 16 + ·)) value = some number ↔
      ∃ digits, List.Forall₂ IsHexDigit text digits ∧
        number = digits.foldl (fun value digit => value * 16 + digit) value := by
  induction text generalizing value with
  | nil => simp [eq_comm]
  | cons b text ih =>
    simp only [List.foldlM_cons, Option.bind_eq_bind, Option.bind_eq_some_iff, Option.map_eq_some_iff,
      hexDigit?_eq_some_iff, List.forall₂_cons_left_iff]
    constructor
    · rintro ⟨_, ⟨digit, isDigit, rfl⟩, later⟩
      obtain ⟨digits, areDigits, rfl⟩ := (ih _).mp later
      exact ⟨digit :: digits, ⟨digit, digits, isDigit, areDigits, rfl⟩, rfl⟩
    · rintro ⟨_, ⟨digit, digits, isDigit, areDigits, rfl⟩, rfl⟩
      exact ⟨_, ⟨digit, isDigit, rfl⟩, (ih _).mpr ⟨digits, areDigits, rfl⟩⟩

theorem hexNumber?_eq_some_iff (text : Bytes) (number : ℕ) :
    hexNumber? text = some number ↔ IsHexNumber text number := by
  rw [hexNumber?, IsHexNumber, ← foldlM_hexDigit?]
  cases text <;> simp

/-- A sign is no digit, so what is read of a text without one starts with a digit. -/
theorem setString?_eq_some_iff (text : Bytes) (value : ℤ) :
    setString? text = some value ↔ IsSignedNumber text value := by
  constructor
  · intro read
    cases text with
    | nil => cases read
    | cons b digits =>
      rw [setString?] at read
      split_ifs at read with minus plus
      all_goals
        obtain ⟨number, isNumber, rfl⟩ := Option.map_eq_some_iff.mp read
        rw [hexNumber?_eq_some_iff] at isNumber
      · exact ⟨[b], digits, number, rfl, isNumber, .inr ⟨by rw [minus], rfl⟩⟩
      · exact ⟨[b], digits, number, rfl, isNumber, .inl ⟨.inr (by rw [plus]), rfl⟩⟩
      · exact ⟨[], b :: digits, number, rfl, isNumber, .inl ⟨.inl rfl, rfl⟩⟩
  · rintro ⟨sign, digits, number, rfl, isNumber, (⟨rfl | rfl, rfl⟩ | ⟨rfl, rfl⟩)⟩
    all_goals rw [← hexNumber?_eq_some_iff] at isNumber
    · cases digits with
      | nil => simp [hexNumber?] at isNumber
      | cons b digits =>
        obtain ⟨-, digits', areDigits, -⟩ := (hexNumber?_eq_some_iff _ _).mp isNumber
        cases areDigits with
        | @cons _ digit _ _ isDigit _ =>
          rw [← hexDigit?_eq_some_iff] at isDigit
          have unsigned : b ≠ byte '-' ∧ b ≠ byte '+' := by
            constructor
            all_goals
              rintro rfl
              cases isDigit
          rw [List.nil_append, setString?, if_neg unsigned.1, if_neg unsigned.2, isNumber]
          rfl
    · rw [List.singleton_append, setString?, if_neg (by decide), if_pos rfl, isNumber]
      rfl
    · rw [List.singleton_append, setString?, if_pos rfl, isNumber]
      rfl

theorem responseResultString_eq_ok_iff (response : DispatchResponse) (inner : Bytes) :
    responseResultString response = .ok inner ↔
      response.responseResult = byte '"' :: (inner ++ [byte '"']) := by
  rw [responseResultString]
  cases response.responseResult with
  | nil => simp
  | cons b rest =>
    rcases rest.eq_nil_or_concat with rfl | ⟨front, last, rfl⟩
    · simp
    · by_cases quotes : b = byte '"' ∧ last = byte '"'
      · obtain ⟨rfl, rfl⟩ := quotes
        simp
      · simp only [List.getLast?_concat, Option.some.injEq, List.cons.injEq, List.concat_eq_append,
          if_neg quotes, reduceCtorEq, false_iff]
        rintro ⟨opens, same⟩
        exact quotes ⟨opens, List.singleton_inj.mp (List.append_inj_right' same rfl)⟩

theorem parseHexQuantityResult_eq_ok_iff (quoted : Bytes → String) (response : DispatchResponse)
    (value : ℤ) : parseHexQuantityResult quoted response = .ok value ↔
      IsHexQuantity response.responseResult value := by
  constructor
  · intro read
    cases isInner : responseResultString response with
    | error err => simp [parseHexQuantityResult, isInner, bind, Except.bind] at read
    | ok inner =>
      simp only [parseHexQuantityResult, isInner, bind, Except.bind] at read
      split_ifs at read with blank mark bare
      cases isNumber : setString? ((trimSpace inner).drop 2) with
      | none => simp [isNumber] at read
      | some number =>
        rw [isNumber] at read
        cases read
        refine ⟨inner, (trimSpace inner).take 2, (trimSpace inner).drop 2,
          (responseResultString_eq_ok_iff _ _).mp isInner, (List.take_append_drop 2 _).symm, ?_,
          (setString?_eq_some_iff _ _).mp isNumber⟩
        exact List.mem_pair.mpr mark
  · rintro ⟨inner, mark, number, isResult, isInner, isMark, isNumber⟩
    have length : mark.length = 2 := by
      rcases List.mem_pair.mp isMark with rfl | rfl <;> rfl
    have some := (setString?_eq_some_iff _ _).mpr isNumber
    have digits : number ≠ [] := by
      rintro rfl
      cases some
    have isMark' : mark = bytes "0x" ∨ mark = bytes "0X" := List.mem_pair.mp isMark
    simp only [parseHexQuantityResult, (responseResultString_eq_ok_iff _ _).mpr isResult, bind,
      Except.bind, isInner, ← length, List.take_left, List.drop_left, isMark', not_true, if_false,
      List.append_eq_nil_iff, digits, and_false, some]

/-- The first reply that counts, if any does. -/
def IsFirst (counts : Reply → DispatchResponse → Prop) (replies : List Reply) :
    Option DispatchResponse → Prop
  | none => ∀ reply ∈ replies, ∀ response, ¬ counts reply response
  | some response => ∃ before reply after, replies = before ++ reply :: after ∧
      counts reply response ∧ ∀ other ∈ before, ∀ response', ¬ counts other response'

/-- The reply that counts with the largest value, if any does, and the first one of several. -/
def IsFirstLargest {ν : Type} [LinearOrder ν] (counts : Reply → ν → DispatchResponse → Prop)
    (replies : List Reply) : Option (ν × DispatchResponse) → Prop
  | none => ∀ reply ∈ replies, ∀ value response, ¬ counts reply value response
  | some (value, response) => ∃ before reply after, replies = before ++ reply :: after ∧
      counts reply value response ∧
      (∀ other ∈ before, ∀ value' response', counts other value' response' → value' < value) ∧
      ∀ other ∈ after, ∀ value' response', counts other value' response' → value' ≤ value

def IsMeasured (reply : Reply) (value : ℤ) (response : DispatchResponse) : Prop :=
  IsSuccess reply response ∧ IsHexQuantity response.responseResult value

section Recorded

variable {ν : Type}

theorem isFirst_findSome? {counts : Reply → DispatchResponse → Prop}
    {response? : Reply → Option DispatchResponse}
    (reads : ∀ reply response, response? reply = some response ↔ counts reply response)
    (replies : List Reply) : IsFirst counts replies (replies.findSome? response?) := by
  have reads' (reply : Reply) : response? reply = none ↔ ∀ response, ¬ counts reply response := by
    simp only [Option.eq_none_iff_forall_ne_some, ne_eq, reads]
  cases first : replies.findSome? response? with
  | none => simpa only [IsFirst, List.findSome?_eq_none_iff, reads'] using first
  | some response => simpa only [IsFirst, List.findSome?_eq_some_iff, reads, reads'] using first

section

variable [LinearOrder ν] {counts : Reply → ν → DispatchResponse → Prop} {replies : List Reply}
  {last : Reply} {best : Option (ν × DispatchResponse)} (isBest : IsFirstLargest counts replies best)
include isBest

theorem IsFirstLargest.pass (smaller : ∀ value response, counts last value response →
    ∃ item ∈ best, value ≤ item.1) : IsFirstLargest counts (replies ++ [last]) best := by
  cases best with
  | none =>
    have ignored : ∀ value response, ¬ counts last value response := by
      intro value response counted
      obtain ⟨item, isItem, -⟩ := smaller value response counted
      cases isItem
    simpa [IsFirstLargest, or_imp, forall_and, ignored] using isBest
  | some best =>
    obtain ⟨before, reply, after, rfl, counted, first, largest⟩ := isBest
    refine ⟨before, reply, after ++ [last], by simp, counted, first, ?_⟩
    rw [List.forall_mem_append, List.forall_mem_singleton]
    refine ⟨largest, fun value response later => ?_⟩
    obtain ⟨item, isItem, bounded⟩ := smaller value response later
    cases isItem
    exact bounded

theorem IsFirstLargest.replace {value : ν} {response : DispatchResponse}
    (unique : ∀ reply value value' response response', counts reply value response →
      counts reply value' response' → value = value')
    (counted : counts last value response) (larger : ∀ item ∈ best, item.1 < value) :
    IsFirstLargest counts (replies ++ [last]) (some (value, response)) := by
  refine ⟨replies, last, [], rfl, counted, ?_, by simp⟩
  intro other listed value' response' earlier
  cases best with
  | none => exact absurd earlier (isBest other listed value' response')
  | some best =>
    have larger := larger best rfl
    obtain ⟨before, reply, after, rfl, isCounted, first, largest⟩ := isBest
    rcases List.mem_append.mp listed with early | late
    · exact (first other early value' response' earlier).trans larger
    rcases List.mem_cons.mp late with rfl | late
    · exact unique _ _ _ _ _ isCounted earlier ▸ larger
    · exact (largest other late value' response' earlier).trans_lt larger

end

theorem isFirstLargest_argmax [LinearOrder ν] {counts : Reply → ν → DispatchResponse → Prop}
    {value? : Reply → Option (ν × DispatchResponse)}
    (reads : ∀ reply value response, value? reply = some (value, response) ↔
      counts reply value response) (replies : List Reply) :
    IsFirstLargest counts replies ((replies.filterMap value?).argmax Prod.fst) := by
  have unique : ∀ reply value value' response response', counts reply value response →
      counts reply value' response' → value = value' := by
    intro reply value value' response response' counted counted'
    rw [← reads] at counted counted'
    exact congrArg Prod.fst (Option.some.inj (counted.symm.trans counted'))
  induction replies using List.reverseRecOn with
  | nil => simp [IsFirstLargest]
  | append_singleton replies last ih =>
    rw [List.filterMap_append]
    cases isLast : value? last with
    | none =>
      rw [show [last].filterMap value? = [] by simp [isLast], List.append_nil]
      refine ih.pass fun value response counted => ?_
      rw [(reads ..).mpr counted] at isLast
      cases isLast
    | some item =>
      have counted := (reads last item.1 item.2).mp isLast
      rw [show [last].filterMap value? = [item] by simp [isLast], List.argmax_concat]
      cases isBest : (replies.filterMap value?).argmax Prod.fst with
      | none =>
        rw [isBest] at ih
        exact ih.replace unique counted (by simp)
      | some best =>
        rw [isBest] at ih
        dsimp only
        split_ifs with larger
        · exact ih.replace unique counted (by simpa using larger)
        · refine ih.pass fun value response counted' => ⟨best, rfl, ?_⟩
          rw [unique _ _ _ _ _ counted' counted]
          exact not_lt.mp larger

variable {streaming : String} {measure : DispatchResponse → Except Failure ν} (reply : Reply)

theorem value?_recorded (value : ν) (response : DispatchResponse) :
    (reply.recorded streaming measure).value? = some (value, response) ↔
      IsSuccess reply response ∧ measure response = .ok value := by
  cases reply with
  | unknown | failed | empty => simp [Reply.recorded, Recorded.value?, IsSuccess]
  | response isSent answer =>
    rw [Reply.recorded, IsSuccess]
    constructor
    · intro counted
      split_ifs at counted with stream err
      · cases counted
      · cases counted
      · cases measured : measure answer with
        | error => simp [measured, Recorded.value?] at counted
        | ok best =>
          simp only [measured, Recorded.value?, Option.some.injEq, Prod.mk.injEq] at counted
          obtain ⟨rfl, rfl⟩ := counted
          exact ⟨⟨⟨isSent, rfl⟩, Bool.not_eq_true _ ▸ stream, Bool.not_eq_true _ ▸ err⟩, measured⟩
    · rintro ⟨⟨⟨isSent', isAnswer⟩, stream, err⟩, measured⟩
      cases isAnswer
      simp [stream, err, measured, Recorded.value?]

theorem fallback?_recorded (response : DispatchResponse) :
    (reply.recorded streaming measure).fallback? = some response ↔
      IsErrorResponse reply response := by
  cases reply with
  | unknown | failed | empty => simp [Reply.recorded, Recorded.fallback?, IsErrorResponse]
  | response isSent answer =>
    rw [Reply.recorded, IsErrorResponse]
    constructor
    · intro counted
      split_ifs at counted with stream err
      · cases counted
      · cases counted
        exact ⟨⟨isSent, rfl⟩, Bool.not_eq_true _ ▸ stream, err⟩
      · cases measured : measure answer <;> simp [measured, Recorded.fallback?] at counted
    · rintro ⟨⟨isSent', isAnswer⟩, stream, err⟩
      cases isAnswer
      simp [stream, err, Recorded.fallback?]

end Recorded

/-- In whatever order the replies arrive, a fan-out returns what the list of the upstreams and
their replies decide: broadcast the first success, maximum-value the first of the successes with
the largest quantity, and only without one the first error response, or else a failure with the
error recorded last.  A stream is a failure for both, and a result that is not a quantity is one
for maximum-value. -/
theorem fanOut_returns (quoted : Bytes → String) (reply : String → Reply)
    (order : RangeOrder (String × Reply)) (upstreamIDs : List String) :
    let replies := upstreamIDs.map reply
    ∃ errorResponse, IsFirst IsErrorResponse replies errorResponse ∧
      (∃ success, IsFirst IsSuccess replies success ∧
        fanOut quoted .dispatchBroadcast (fun _ => none) reply order upstreamIDs =
          settle success errorResponse
            (replies.filterMap fun reply => (broadcastRecorded reply).failure?)) ∧
      ∃ largest, IsFirstLargest IsMeasured replies largest ∧
        fanOut quoted .dispatchMaximumValue (fun _ => none) reply order upstreamIDs =
          settle (largest.map Prod.snd) errorResponse
            (replies.filterMap fun reply => (maximumValueRecorded quoted reply).failure?) := by
  intro replies
  refine ⟨replies.findSome? fun reply => (broadcastRecorded reply).fallback?,
    isFirst_findSome? (fun reply => fallback?_recorded reply) replies, ?_, ?_⟩
  · obtain ⟨results, isAggregate, all⟩ := exists_aggregate quoted .dispatchBroadcast reply order
      upstreamIDs
    change _ = replies at all
    refine ⟨replies.findSome? fun reply => (broadcastRecorded reply).value?.map Prod.snd,
      isFirst_findSome? (fun reply response => ?_) replies, ?_⟩
    · simp [Option.map_eq_some_iff, broadcastRecorded, value?_recorded]
    · rw [isAggregate]
      simp only [aggregate, all, final_foldl_record, argmax_unit, List.head?_filterMap,
        List.findSome?_map, List.filterMap_map, List.map_findSome?]
      rfl
  · obtain ⟨results, isAggregate, all⟩ := exists_aggregate quoted .dispatchMaximumValue reply order
      upstreamIDs
    change _ = replies at all
    have sameFallback : (Recorded.fallback? ∘ maximumValueRecorded quoted) =
        Recorded.fallback? ∘ broadcastRecorded := by
      funext reply
      exact Option.ext fun response =>
        (fallback?_recorded reply response).trans (fallback?_recorded reply response).symm
    refine ⟨(replies.filterMap (Recorded.value? ∘ maximumValueRecorded quoted)).argmax Prod.fst,
      isFirstLargest_argmax (fun reply value response => ?_) replies, ?_⟩
    · rw [Function.comp_apply, maximumValueRecorded, value?_recorded,
        parseHexQuantityResult_eq_ok_iff, IsMeasured]
    · rw [isAggregate]
      simp only [aggregate, all, final_foldl_record, List.findSome?_map, List.filterMap_map,
        sameFallback]
      rfl

/-- Three upstreams, two of which answer with a quantity; the replies arrive from the last to the
first. -/
theorem fanOut_returns_larger :
    let answer (upstreamId result : String) : Reply :=
      .response true { upstreamId := upstreamId, responseResult := bytes result }
    let reply (id : String) : Reply :=
      if id = "a" then answer id "\"0x9\"" else if id = "b" then answer id "12" else answer id "\"0x1F\""
    let larger : DispatchResponse := { upstreamId := "c", responseResult := bytes "\"0x1F\"" }
    let order : RangeOrder (String × Reply) := ⟨List.reverse, List.reverse_perm⟩
    fanOut (fun _ => "") .dispatchMaximumValue (fun _ => none) reply order ["a", "b", "c"] =
        .ok larger ∧
      ∃ value, IsFirstLargest IsMeasured (["a", "b", "c"].map reply) (some (value, larger)) := by
  intro answer reply larger order
  obtain ⟨errorResponse, -, -, largest, isLargest, returns⟩ :=
    fanOut_returns (fun _ => "") reply order ["a", "b", "c"]
  have evaluated : fanOut (fun _ => "") .dispatchMaximumValue (fun _ => none) reply order
      ["a", "b", "c"] = .ok larger := rfl
  refine ⟨evaluated, ?_⟩
  cases largest with
  | none =>
    have isQuantity : IsHexQuantity larger.responseResult 31 :=
      (parseHexQuantityResult_eq_ok_iff (fun _ => "") larger 31).mp rfl
    exact absurd ⟨⟨⟨true, rfl⟩, rfl, rfl⟩, isQuantity⟩ (isLargest (reply "c") (by simp) 31 larger)
  | some best =>
    have same : best.2 = larger := Except.ok.inj (returns.symm.trans evaluated)
    exact ⟨best.1, same ▸ isLargest⟩

end Nodecore.Flow
