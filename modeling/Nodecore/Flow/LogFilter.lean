/-
# Filters of log subscriptions

A client that subscribes to logs gives a filter: which contracts the logs may be
of, and which topics they may have at each position.  One local source carries
the logs of all blocks, and each client's filter picks its own.

The filter is untyped JSON with several forms for each part.  The first half
reads it as the gateway does.  The second half is the meaning of such a filter
at a node, and the two are compared: they agree on all logs exactly for the
filters in which no null hides behind another form, no part is malformed and
the last position asks for a topic.
-/

import Nodecore.Lib.GoMap
import Nodecore.Lib.Json.Value

namespace Nodecore.Flow

open Lib Lib.JsonValue

/-- The library functions that a filter is read with. -/
structure FilterReader where
  /-- Whether the decoder takes a key for a field; it does so in any case. -/
  sameField : (key field : String) → Bool
  /-- What the decoder leaves in a field of raw text when it reads null: the text null, or
  no text at all. -/
  rawNull : Option JsonValue
  rawNull_eq : rawNull = none ∨ rawNull = some .null
  /-- The texts in lower case, rune by rune. -/
  toLower : String → String
  length_toLower : ∀ text, (toLower text).length = text.length

/-- The parts of a filter as raw texts, each of which may be missing. -/
structure RawLogFilter where
  address : Option JsonValue := none
  topics : List (Option JsonValue) := []

section Reading

variable (reader : FilterReader)

def decodeRaw : JsonValue → Option JsonValue
  | .null => reader.rawNull
  | value => some value

/-- The decoder goes over the members of an object, so that a later one replaces an
earlier one. -/
def decodeMember (filter : RawLogFilter) (member : String × JsonValue) :
    Except String RawLogFilter :=
  if reader.sameField member.1 "address" then
    .ok { filter with address := decodeRaw reader member.2 }
  else if reader.sameField member.1 "topics" then
    match member.2 with
    | .array items => .ok { filter with topics := items.map (decodeRaw reader) }
    | .null => .ok { filter with topics := [] }
    | _ => .error "mismatched type"
  else .ok filter

def decodeRawLogFilter : JsonValue → Except String RawLogFilter
  | .object members => members.foldlM (decodeMember reader) {}
  | .null => .ok {}
  | _ => .error "mismatched type"

/-- An item of a list of strings; null leaves the empty string. -/
def decodeString : JsonValue → Option String
  | .string text => some text
  | .null => some ""
  | _ => none

/-- A missing value, a string or a list of strings. -/
def parseStringOrArray : Option JsonValue → Option (List String)
  | none => some []
  | some (.array items) => items.mapM decodeString
  | some value => (decodeString value).map ([·])

/-- One position of a topic filter. -/
structure TopicFilter where
  any : Bool
  set : GoSet String

structure LogFilter where
  addresses : GoSet String
  topics : List TopicFilter

def parseTopic (topic : Option JsonValue) : TopicFilter :=
  match topic with
  | none => ⟨true, ∅⟩
  | some .null => ⟨true, ∅⟩
  | some value =>
    match parseStringOrArray (some value) with
    | some (first :: rest) => ⟨false, GoSet.ofList ((first :: rest).map reader.toLower)⟩
    | _ => ⟨true, ∅⟩

def parseRawLogFilter (raw : RawLogFilter) : Except String LogFilter :=
  match parseStringOrArray raw.address with
  | none => .error "malformed address in logs filter"
  | some addrs =>
    .ok ⟨GoSet.ofList (addrs.map reader.toLower), raw.topics.map (parseTopic reader)⟩

/-- The filter of a request, which is its second parameter.  Without one the filter matches
everything. -/
def parseLogFilter (body : Except String JsonValue) : Except String LogFilter := do
  let value ← body
  match resolve [.key "params", .index 1] value with
  | none => .ok ⟨∅, []⟩
  | some given => decodeRawLogFilter reader given >>= parseRawLogFilter reader

/-- The parts of the filter of a request; without a filter there are none. -/
def rawLogFilter (body : Except String JsonValue) : Except String RawLogFilter := do
  let value ← body
  match resolve [.key "params", .index 1] value with
  | none => .ok {}
  | some given => decodeRawLogFilter reader given

theorem parseLogFilter_eq (body : Except String JsonValue) :
    parseLogFilter reader body = rawLogFilter reader body >>= parseRawLogFilter reader := by
  cases body with
  | error failure => rfl
  | ok value =>
    simp only [parseLogFilter, rawLogFilter, bind, Except.bind]
    split
    · rfl
    · rfl

/-- The address and the topics of a log. -/
structure Log where
  address : String
  topics : List String

structure ParsedLog where
  address : String
  topics : List String

def parseLogEvent (log : Log) : ParsedLog :=
  ⟨reader.toLower log.address, log.topics.map reader.toLower⟩

def TopicFilter.matches (filter : TopicFilter) (topic : Option String) : Bool :=
  filter.any || topic.any fun topic => GoSet.contains filter.set topic

/-- The positions of a filter one after another; a position that takes anything asks for
no topic. -/
def topicsMatch : List TopicFilter → List String → Bool
  | [], _ => true
  | filter :: filters, topics => filter.matches topics.head? && topicsMatch filters topics.tail

/-- No filter takes every event, and a filter takes no event that was not parsed. -/
def logMatches : Option LogFilter → Option ParsedLog → Bool
  | none, _ => true
  | some _, none => false
  | some filter, some log =>
    (filter.addresses.keys.isEmpty || GoSet.contains filter.addresses log.address) &&
      topicsMatch filter.topics log.topics

end Reading

/-- Which texts are addresses and which are hashes. -/
structure HexForms where
  isAddress : String → Bool
  isHash : String → Bool

abbrev OneOf := Option (List String)

structure EthFilter where
  address : OneOf
  topics : List OneOf

section Meaning

variable (forms : HexForms)

/-- The texts of a list, if all its items are texts of a form. -/
def textsOf (isForm : String → Bool) : List JsonValue → Option (List String)
  | [] => some []
  | .string text :: items =>
    if isForm text then (textsOf isForm items).map (text :: ·) else none
  | _ :: _ => none

/-- A missing value, null and the empty list stand for anything. -/
def ethAddress : Option JsonValue → Option OneOf
  | none => some none
  | some .null => some none
  | some (.string text) => if forms.isAddress text then some (some [text]) else none
  | some (.array []) => some none
  | some (.array items) => (textsOf forms.isAddress items).map some
  | some _ => none

def isNull : JsonValue → Bool
  | .null => true
  | _ => false

/-- As for addresses, and a null in a list stands for anything, too. -/
def ethTopic : Option JsonValue → Option OneOf
  | none => some none
  | some .null => some none
  | some (.string text) => if forms.isHash text then some (some [text]) else none
  | some (.array []) => some none
  | some (.array items) =>
    (textsOf forms.isHash (items.filter fun item => !isNull item)).map fun texts =>
      if items.any isNull then none else some texts
  | some _ => none

/-- What a filter asks for, unless a part of it is malformed. -/
def ethFilter (raw : RawLogFilter) : Option EthFilter := do
  let address ← ethAddress forms raw.address
  let topics ← raw.topics.mapM (ethTopic forms)
  pure ⟨address, topics⟩

/-- Texts are compared in any case. -/
def OneOf.admits (toLower : String → String) : OneOf → String → Bool
  | none, _ => true
  | some texts, text => texts.any fun expected => toLower expected == toLower text

/-- There is a topic at each position, and one that the position takes. -/
def OneOf.admitAll (toLower : String → String) (positions : List OneOf) (topics : List String) :
    Bool :=
  positions.length ≤ topics.length &&
    (positions.zip topics).all fun (position, topic) => OneOf.admits toLower position topic

/-- The log is of one of the contracts and has one of the topics at each position. -/
def EthFilter.matches (toLower : String → String) (filter : EthFilter) (log : Log) : Bool :=
  OneOf.admits toLower filter.address log.address &&
    OneOf.admitAll toLower filter.topics log.topics

end Meaning

variable {address : Option JsonValue}

section Parts

variable {reader : FilterReader} {forms : HexForms}

theorem contains_ofList_map (texts : List String) (text : String) :
    GoSet.contains (GoSet.ofList (texts.map reader.toLower)) (reader.toLower text) =
      OneOf.admits reader.toLower (some texts) text := by
  rw [Bool.eq_iff_iff, GoSet.contains_iff, GoSet.mem_ofList, OneOf.admits, List.any_eq_true,
    List.mem_map]
  simp only [beq_iff_eq]

theorem mapM_decodeString {isForm : String → Bool} {items : List JsonValue} {texts : List String}
    (read : textsOf isForm items = some texts) : items.mapM decodeString = some texts := by
  induction items generalizing texts with
  | nil => exact read
  | cons item items ih =>
    cases item with
    | string text =>
      rw [textsOf] at read
      split at read
      · obtain ⟨rest, isRest, rfl⟩ := Option.map_eq_some_iff.mp read
        rw [List.mapM_cons, ih isRest]
        rfl
      · cases read
    | _ => cases read

theorem exists_fresh (reader : FilterReader) (texts : List String) :
    ∃ text, OneOf.admits reader.toLower (some texts) text = false := by
  obtain ⟨length, longer⟩ : ∃ length, ∀ text ∈ texts, text.length < length := by
    induction texts with
    | nil => exact ⟨0, List.forall_mem_nil _⟩
    | cons text texts ih =>
      obtain ⟨length, longer⟩ := ih
      refine ⟨max (text.length + 1) length, List.forall_mem_cons.mpr ⟨by omega, ?_⟩⟩
      intro other listed
      have := longer other listed
      omega
  refine ⟨String.ofList (List.replicate length 'a'), ?_⟩
  rw [OneOf.admits, List.any_eq_false]
  intro text listed same
  have lengths := congrArg String.length (eq_of_beq same)
  rw [reader.length_toLower, reader.length_toLower, String.length_ofList,
    List.length_replicate] at lengths
  exact Nat.ne_of_lt (longer text listed) lengths

theorem exists_mapM_decodeString {isForm : String → Bool} {items : List JsonValue}
    (read : (textsOf isForm (items.filter fun item => !isNull item)).isSome = true) :
    ∃ texts, items.mapM decodeString = some texts ∧ texts.length = items.length := by
  induction items with
  | nil => exact ⟨[], rfl, rfl⟩
  | cons item items ih =>
    cases item with
    | null =>
      obtain ⟨texts, isTexts, length⟩ := ih read
      exact ⟨"" :: texts, by rw [List.mapM_cons, isTexts]; rfl, congrArg (· + 1) length⟩
    | string text =>
      rw [List.filter_cons_of_pos rfl, textsOf] at read
      split_ifs at read
      · obtain ⟨texts, isTexts, length⟩ := ih (by simpa using read)
        exact ⟨text :: texts, by rw [List.mapM_cons, isTexts]; rfl, congrArg (· + 1) length⟩
      · cases read
    | _ => cases read

/-- What a position of the gateway's filter takes is what the position of the node's
takes; and only a position that takes anything takes a missing topic. -/
structure Agrees (reader : FilterReader) (filter : TopicFilter) (position : OneOf) : Prop where
  some : ∀ topic, filter.matches (some (reader.toLower topic)) =
    OneOf.admits reader.toLower position topic
  none : filter.matches none = position.isNone

theorem agrees_any : Agrees reader ⟨true, ∅⟩ none := ⟨fun _ => rfl, rfl⟩

theorem agrees_ofList (texts : List String) :
    Agrees reader ⟨false, GoSet.ofList (texts.map reader.toLower)⟩ (some texts) where
  some topic := contains_ofList_map texts topic
  none := rfl

/-- A list with a null is taken for the texts in it, where a node takes anything. -/
theorem exists_matches_of_null (reader : FilterReader) {items : List JsonValue} {position : OneOf}
    (read : ethTopic forms (some (.array items)) = some position)
    (isNull : items.any isNull = true) :
    position = none ∧ ∃ text, (parseTopic reader (some (.array items))).matches
      (some (reader.toLower text)) = false := by
  cases items with
  | nil => cases isNull
  | cons item items =>
    obtain ⟨texts, isTexts, rfl⟩ := Option.map_eq_some_iff.mp read
    obtain ⟨decoded, isDecoded, length⟩ :=
      exists_mapM_decodeString (Option.isSome_iff_exists.mpr ⟨texts, isTexts⟩)
    refine ⟨if_pos isNull, ?_⟩
    cases decoded with
    | nil => cases length
    | cons first rest =>
      obtain ⟨text, fresh⟩ := exists_fresh reader (first :: rest)
      refine ⟨text, ?_⟩
      simp only [parseTopic, parseStringOrArray, isDecoded]
      rw [(agrees_ofList _).some, fresh]

theorem agrees_parseTopic {topic : Option JsonValue} {position : OneOf}
    (read : ethTopic forms topic = some position)
    (plain : ∀ items, topic = some (.array items) → items.any isNull = false) :
    Agrees reader (parseTopic reader topic) position := by
  cases topic with
  | none => exact Option.some.inj read ▸ agrees_any
  | some value =>
    cases value with
    | null => exact Option.some.inj read ▸ agrees_any
    | string text =>
      rw [ethTopic] at read
      split at read
      · exact Option.some.inj read ▸ agrees_ofList [text]
      · cases read
    | array items =>
      cases items with
      | nil => exact Option.some.inj read ▸ agrees_any
      | cons item items =>
        have noNull := plain _ rfl
        have all : (item :: items).filter (fun item => !isNull item) = item :: items := by
          simpa [List.filter_eq_self] using noNull
        obtain ⟨texts, isTexts, rfl⟩ := Option.map_eq_some_iff.mp read
        rw [all] at isTexts
        have decoded := mapM_decodeString isTexts
        obtain ⟨first, rest, rfl⟩ : ∃ first rest, texts = first :: rest := by
          cases texts with
          | nil => simp [List.mapM_cons, Option.bind_eq_some_iff] at decoded
          | cons first rest => exact ⟨first, rest, rfl⟩
        simp only [parseTopic, parseStringOrArray, decoded, noNull, Bool.false_eq_true,
          if_false]
        exact agrees_ofList (first :: rest)
    | _ => cases read

theorem addresses_admit (reader : FilterReader) {position : OneOf}
    (read : ethAddress forms address = some position) (notNull : address ≠ some .null) :
    ∃ addrs, parseStringOrArray address = some addrs ∧
      ∀ text, ((GoSet.ofList (addrs.map reader.toLower)).keys.isEmpty ||
        GoSet.contains (GoSet.ofList (addrs.map reader.toLower)) (reader.toLower text)) =
          OneOf.admits reader.toLower position text := by
  have listed : ∀ (first : String) (rest : List String) (text : String),
      ((GoSet.ofList ((first :: rest).map reader.toLower)).keys.isEmpty ||
        GoSet.contains (GoSet.ofList ((first :: rest).map reader.toLower))
          (reader.toLower text)) =
        OneOf.admits reader.toLower (some (first :: rest)) text := by
    intro first rest text
    have nonempty : (GoSet.ofList ((first :: rest).map reader.toLower)).keys.isEmpty = false := by
      have there : reader.toLower first ∈ GoSet.ofList ((first :: rest).map reader.toLower) :=
        (GoSet.mem_ofList _ _).mpr List.mem_cons_self
      rw [List.isEmpty_eq_false_iff]
      exact List.ne_nil_of_mem (AList.mem_keys.mp there)
    rw [nonempty, Bool.false_or, contains_ofList_map]
  cases address with
  | none => exact ⟨[], rfl, fun _ => Option.some.inj read ▸ rfl⟩
  | some value =>
    cases value with
    | null => exact absurd rfl notNull
    | string text =>
      rw [ethAddress] at read
      split at read
      · exact ⟨[text], rfl, Option.some.inj read ▸ listed text []⟩
      · cases read
    | array items =>
      cases items with
      | nil => exact ⟨[], rfl, fun _ => Option.some.inj read ▸ rfl⟩
      | cons item items =>
        obtain ⟨texts, isTexts, rfl⟩ := Option.map_eq_some_iff.mp read
        have decoded := mapM_decodeString isTexts
        refine ⟨texts, decoded, ?_⟩
        cases texts with
        | nil => simp [List.mapM_cons, Option.bind_eq_some_iff] at decoded
        | cons first rest => exact listed first rest
    | _ => cases read

end Parts

section Whole

variable {reader : FilterReader} {forms : HexForms} {positions : List OneOf}

/-- The positions that the log has a topic for are compared with it; the others must all
take anything. -/
theorem topicsMatch_eq {filters : List TopicFilter}
    (agree : List.Forall₂ (Agrees reader) filters positions) (topics : List String) :
    topicsMatch filters (topics.map reader.toLower) =
      ((positions.zip topics).all (fun (position, topic) =>
          OneOf.admits reader.toLower position topic) &&
        (positions.drop topics.length).all Option.isNone) := by
  induction agree generalizing topics with
  | nil => simp [topicsMatch]
  | cons here _ ih =>
    cases topics with
    | nil =>
      have rest := ih []
      simp only [List.map_nil, List.zip_nil_right, List.all_nil, List.length_nil,
        List.drop_zero, Bool.true_and] at rest
      simp [topicsMatch, here.none, rest]
    | cons topic topics =>
      simp [topicsMatch, here.some topic, ih topics, Bool.and_assoc]

theorem all_isNone_drop_eq {count : ℕ}
    (last : positions.length ≤ count ∨ positions.getLast? ≠ some none) :
    (positions.drop count).all Option.isNone = decide (positions.length ≤ count) := by
  by_cases enough : positions.length ≤ count
  · simp [enough, List.drop_eq_nil_of_le enough]
  · have concrete := last.resolve_left enough
    simp only [enough, decide_false, List.all_eq_false]
    have nonempty : positions.drop count ≠ [] := by simpa using Nat.lt_of_not_le enough
    refine ⟨(positions.drop count).getLast nonempty, List.getLast_mem nonempty, ?_⟩
    intro isNone
    have ends : (positions.drop count).getLast? = positions.getLast? := by
      rw [List.getLast?_drop, if_neg enough]
    rw [← ends, List.getLast?_eq_some_getLast nonempty,
      Option.isNone_iff_eq_none.mp isNone] at concrete
    exact concrete rfl

abbrev AreRead (forms : HexForms) : List (Option JsonValue) → List OneOf → Prop :=
  List.Forall₂ fun topic position => ethTopic forms topic = some position

theorem areRead_of_mapM {topics : List (Option JsonValue)}
    (read : topics.mapM (ethTopic forms) = some positions) :
    AreRead forms topics positions := by
  induction topics generalizing positions with
  | nil => exact Option.some.inj read ▸ .nil
  | cons topic topics ih =>
    rw [List.mapM_cons] at read
    obtain ⟨position, here, later⟩ := Option.bind_eq_some_iff.mp read
    obtain ⟨rest, isRest, same⟩ := Option.bind_eq_some_iff.mp later
    exact Option.some.inj same ▸ .cons here (ih isRest)

theorem forall₂_agrees (reader : FilterReader) {topics : List (Option JsonValue)}
    (read : AreRead forms topics positions)
    (plain : ∀ items, some (.array items) ∈ topics → items.any isNull = false) :
    List.Forall₂ (Agrees reader) (topics.map (parseTopic reader)) positions := by
  induction read with
  | nil => exact .nil
  | cons here _ ih =>
    apply List.Forall₂.cons
    · apply agrees_parseTopic here
      rintro items rfl
      exact plain items List.mem_cons_self
    · exact ih fun items listed => plain items (List.mem_cons_of_mem _ listed)

/-- What can stand for addresses: nothing, null, a text, or a list of texts and nulls. -/
def isAddressType : Option JsonValue → Bool
  | none => true
  | some (.array items) => items.all fun item => (decodeString item).isSome
  | some value => (decodeString value).isSome

theorem isSome_mapM_decodeString (items : List JsonValue) :
    (items.mapM decodeString).isSome = items.all fun item => (decodeString item).isSome := by
  induction items with
  | nil => rfl
  | cons item items ih =>
    rw [List.mapM_cons, List.all_cons, ← ih]
    cases decodeString item with
    | none => rfl
    | some text => cases items.mapM decodeString <;> rfl

theorem isSome_parseStringOrArray (address : Option JsonValue) :
    (parseStringOrArray address).isSome = isAddressType address := by
  cases address with
  | none => rfl
  | some value =>
    cases value with
    | array items => exact isSome_mapM_decodeString items
    | _ => rfl

def OneOf.sample : OneOf → String
  | some (text :: _) => text
  | _ => ""

theorem admits_sample (reader : FilterReader) {position : OneOf} (inhabited : position ≠ some []) :
    OneOf.admits reader.toLower position position.sample = true := by
  match position with
  | none => rfl
  | some [] => exact absurd rfl inhabited
  | some (text :: texts) => simp [OneOf.sample, OneOf.admits]

theorem textsOf_ne_nil {isForm : String → Bool} {item : JsonValue} {items : List JsonValue} :
    textsOf isForm (item :: items) ≠ some [] := by
  intro read
  cases item with
  | string text =>
    rw [textsOf] at read
    split_ifs at read
    obtain ⟨texts, -, same⟩ := Option.map_eq_some_iff.mp read
    cases same
  | _ => cases read

theorem ne_nil_of_ethAddress {position : OneOf} (read : ethAddress forms address = some position) :
    position ≠ some [] := by
  rintro rfl
  match address with
  | none | some .null | some (.array []) => cases read
  | some (.bool _) | some (.number _) | some (.object _) => cases read
  | some (.string text) =>
    rw [ethAddress] at read
    split_ifs at read
    cases read
  | some (.array (item :: items)) =>
    obtain ⟨texts, isTexts, same⟩ := Option.map_eq_some_iff.mp read
    cases same
    exact textsOf_ne_nil isTexts

theorem ne_nil_of_ethTopic {topic : Option JsonValue} {position : OneOf}
    (read : ethTopic forms topic = some position) : position ≠ some [] := by
  rintro rfl
  match topic with
  | none | some .null | some (.array []) => cases read
  | some (.bool _) | some (.number _) | some (.object _) => cases read
  | some (.string text) =>
    rw [ethTopic] at read
    split_ifs at read
    cases read
  | some (.array (item :: items)) =>
    obtain ⟨texts, isTexts, same⟩ := Option.map_eq_some_iff.mp read
    split_ifs at same with noNull
    cases same
    rw [List.filter_eq_self.mpr (by simpa using noNull)] at isTexts
    exact textsOf_ne_nil isTexts

theorem ne_nil_of_areRead {topics : List (Option JsonValue)}
    (read : AreRead forms topics positions) : ∀ position ∈ positions, position ≠ some [] := by
  induction read with
  | nil => exact List.forall_mem_nil _
  | cons here _ ih => exact List.forall_mem_cons.mpr ⟨ne_nil_of_ethTopic here, ih⟩

theorem all_admits_sample (reader : FilterReader)
    (inhabited : ∀ position ∈ positions, position ≠ some []) (rest : List OneOf) :
    (((positions ++ rest).zip (positions.map OneOf.sample)).all fun (position, topic) =>
      OneOf.admits reader.toLower position topic) = true := by
  induction positions with
  | nil => simp
  | cons position positions ih =>
    obtain ⟨here, later⟩ := List.forall_mem_cons.mp inhabited
    simp [admits_sample reader here, ih later]

theorem admitAll_sample (reader : FilterReader)
    (inhabited : ∀ position ∈ positions, position ≠ some []) :
    OneOf.admitAll reader.toLower positions (positions.map OneOf.sample) = true := by
  have all := all_admits_sample reader inhabited []
  rw [List.append_nil] at all
  rw [OneOf.admitAll, all, List.length_map, decide_eq_true (Nat.le_refl _)]
  rfl

theorem exists_topics_of_null (reader : FilterReader) {topics : List (Option JsonValue)}
    (read : AreRead forms topics positions) {items : List JsonValue}
    (listed : some (.array items) ∈ topics) (hasNull : items.any isNull = true) :
    ∃ texts, OneOf.admitAll reader.toLower positions texts = true ∧
      topicsMatch (topics.map (parseTopic reader)) (texts.map reader.toLower) = false := by
  induction read with
  | nil => cases listed
  | @cons topic position topics positions here later ih =>
    rcases List.mem_cons.mp listed with rfl | listed
    · obtain ⟨rfl, text, refused⟩ := exists_matches_of_null reader here hasNull
      have rest := admitAll_sample reader (ne_nil_of_areRead later)
      refine ⟨text :: positions.map OneOf.sample, ?_, ?_⟩
      · simpa [OneOf.admitAll, OneOf.admits] using rest
      · simp [topicsMatch, refused]
    · obtain ⟨texts, admitted, refused⟩ := ih listed
      refine ⟨position.sample :: texts, ?_, ?_⟩
      · simpa [OneOf.admitAll, admits_sample reader (ne_nil_of_ethTopic here)] using admitted
      · simp [topicsMatch, refused]

def filterOf (reader : FilterReader) (raw : RawLogFilter) (addrs : List String) : LogFilter :=
  ⟨GoSet.ofList (addrs.map reader.toLower), raw.topics.map (parseTopic reader)⟩

/-- What the gateway picks with a filter is what a node picks. -/
def PicksAsNode (reader : FilterReader) (forms : HexForms) (raw : RawLogFilter)
    (filter : LogFilter) : Prop :=
  ∃ eth, ethFilter forms raw = some eth ∧ ∀ log,
    logMatches (some filter) (some (parseLogEvent reader log)) = eth.matches reader.toLower log

/-- A filter is well formed, with no null stored for its address and none in a list of topics. -/
structure IsPlainFilter (forms : HexForms) (raw : RawLogFilter) (eth : EthFilter) : Prop where
  read : ethFilter forms raw = some eth
  address : raw.address ≠ some .null
  listed : ∀ items, some (.array items) ∈ raw.topics → items.any isNull = false

section Raw

variable {raw : RawLogFilter} {eth : EthFilter} {addrs : List String}

theorem reads_of_ethFilter (read : ethFilter forms raw = some eth) :
    ethAddress forms raw.address = some eth.address ∧
      AreRead forms raw.topics eth.topics := by
  obtain ⟨position, isPosition, later⟩ := Option.bind_eq_some_iff.mp read
  obtain ⟨positions, isPositions, same⟩ := Option.bind_eq_some_iff.mp later
  cases same
  exact ⟨isPosition, areRead_of_mapM isPositions⟩

theorem logMatches_filterOf (reader : FilterReader) (plain : IsPlainFilter forms raw eth)
    (isAddrs : parseStringOrArray raw.address = some addrs) (log : Log) :
    logMatches (some (filterOf reader raw addrs)) (some (parseLogEvent reader log)) =
      (OneOf.admits reader.toLower eth.address log.address &&
        ((eth.topics.zip log.topics).all (fun (position, topic) =>
            OneOf.admits reader.toLower position topic) &&
          (eth.topics.drop log.topics.length).all Option.isNone)) := by
  obtain ⟨address, topics⟩ := reads_of_ethFilter plain.read
  obtain ⟨addrs', isAddrs', admits⟩ := addresses_admit reader address plain.address
  rw [isAddrs] at isAddrs'
  cases isAddrs'
  rw [logMatches]
  simp only [parseLogEvent, filterOf]
  rw [admits log.address, topicsMatch_eq (forall₂_agrees reader topics plain.listed)]

/-- Where the log has a topic at each position, or the last one asks for a topic, the gateway
picks as a node does. -/
theorem logMatches_eq (reader : FilterReader) (plain : IsPlainFilter forms raw eth)
    (isAddrs : parseStringOrArray raw.address = some addrs) {log : Log}
    (enough : eth.topics.length ≤ log.topics.length ∨ eth.topics.getLast? ≠ some none) :
    logMatches (some (filterOf reader raw addrs)) (some (parseLogEvent reader log)) =
      eth.matches reader.toLower log := by
  rw [logMatches_filterOf reader plain isAddrs, all_isNone_drop_eq enough, EthFilter.matches,
    OneOf.admitAll, Bool.and_comm (decide _)]

/-- A filter with which the gateway picks as a node does is plain, and its last position asks for
a topic. -/
theorem isPlainFilter_of_picksAsNode {reader : FilterReader}
    (isAddrs : parseStringOrArray raw.address = some addrs) (isEth : ethFilter forms raw = some eth)
    (picks : ∀ log, logMatches (some (filterOf reader raw addrs))
      (some (parseLogEvent reader log)) = eth.matches reader.toLower log) :
    IsPlainFilter forms raw eth ∧ eth.topics.getLast? ≠ some none := by
  obtain ⟨address, topics⟩ := reads_of_ethFilter isEth
  have inhabited := ne_nil_of_areRead topics
  have ofAddress := admits_sample reader (ne_nil_of_ethAddress address)
  have plain : IsPlainFilter forms raw eth := by
    refine ⟨isEth, ?_, ?_⟩
    · -- A null that is stored is taken for the empty address.
      intro isNull
      rw [isNull] at isAddrs address
      cases isAddrs
      obtain ⟨text, fresh⟩ := exists_fresh reader [""]
      have same := picks ⟨text, eth.topics.map OneOf.sample⟩
      rw [EthFilter.matches, ← Option.some.inj address, admitAll_sample reader inhabited] at same
      simp only [logMatches, parseLogEvent, filterOf, contains_ofList_map, fresh] at same
      cases same
    · intro items listed
      rw [Bool.eq_false_iff]
      intro hasNull
      obtain ⟨texts, admitted, refused⟩ := exists_topics_of_null reader topics listed hasNull
      have same := picks ⟨eth.address.sample, texts⟩
      rw [EthFilter.matches, ofAddress, admitted] at same
      simp only [logMatches, parseLogEvent, filterOf, refused, Bool.and_false] at same
      cases same
  refine ⟨plain, ?_⟩
  -- A log that ends before the last position is picked by the gateway only.
  intro ends
  obtain ⟨front, isTopics⟩ := List.getLast?_eq_some_iff.mp ends
  have same := picks ⟨eth.address.sample, front.map OneOf.sample⟩
  rw [isTopics] at inhabited
  have front_taken := all_admits_sample reader
    (fun position listed => inhabited position (List.mem_append_left _ listed)) [none]
  rw [logMatches_filterOf reader plain isAddrs, EthFilter.matches, ofAddress, OneOf.admitAll,
    isTopics, front_taken] at same
  simp only [List.length_append, List.length_singleton, List.length_map, List.drop_left,
    decide_eq_false (Nat.not_succ_le_self front.length), Bool.false_and, Bool.and_false] at same
  cases same

end Raw

/-- A filter is rejected exactly if its addresses are of another type.  What the gateway picks with
a filter that it accepts is what a node picks from all logs exactly if the filter is plain and
its last position asks for a topic; and for any plain filter it is what a node picks from the logs
that have a topic at each position. -/
theorem picks_as_node (reader : FilterReader) (forms : HexForms) (body : Except String JsonValue)
    (raw : RawLogFilter) (isRaw : rawLogFilter reader body = .ok raw) :
    ((∃ filter, parseLogFilter reader body = .ok filter) ↔ isAddressType raw.address = true) ∧
    ((∀ filter, parseLogFilter reader body = .ok filter → PicksAsNode reader forms raw filter) ↔
      (isAddressType raw.address = true →
        ∃ eth, IsPlainFilter forms raw eth ∧ eth.topics.getLast? ≠ some none)) ∧
    ∀ eth filter, IsPlainFilter forms raw eth → parseLogFilter reader body = .ok filter →
      ∀ log : Log, eth.topics.length ≤ log.topics.length →
        logMatches (some filter) (some (parseLogEvent reader log)) =
          eth.matches reader.toLower log := by
  have accepted (filter : LogFilter) : parseLogFilter reader body = .ok filter ↔
      ∃ addrs, parseStringOrArray raw.address = some addrs ∧ filterOf reader raw addrs = filter := by
    rw [parseLogFilter_eq, isRaw]
    simp only [bind, Except.bind, parseRawLogFilter]
    cases parseStringOrArray raw.address with
    | none => simp
    | some addrs => simp [filterOf]
  rw [← isSome_parseStringOrArray, Option.isSome_iff_exists]
  refine ⟨?_, ?_, ?_⟩
  · simp [accepted]
  · constructor
    · rintro picks ⟨addrs, isAddrs⟩
      obtain ⟨eth, isEth, same⟩ := picks _ ((accepted _).mpr ⟨addrs, isAddrs, rfl⟩)
      exact ⟨eth, isPlainFilter_of_picksAsNode isAddrs isEth same⟩
    · intro plain filter isFilter
      obtain ⟨addrs, isAddrs, rfl⟩ := (accepted filter).mp isFilter
      obtain ⟨eth, isPlain, last⟩ := plain ⟨addrs, isAddrs⟩
      exact ⟨eth, isPlain.read, fun log => logMatches_eq reader isPlain isAddrs (.inr last)⟩
  · intro eth filter plain isFilter log enough
    obtain ⟨addrs, isAddrs, rfl⟩ := (accepted filter).mp isFilter
    exact logMatches_eq reader plain isAddrs (.inl enough)

end Whole

/-- A reader that stores no text for null, and takes every text for an address and for a
hash. -/
def plainReader : FilterReader where
  sameField key field := key == field
  rawNull := none
  rawNull_eq := .inl rfl
  toLower text := String.ofList (text.toList.map Char.toLower)
  length_toLower text := by rw [String.length_ofList, List.length_map, String.length_toList]

def anyText : HexForms := ⟨fun _ => true, fun _ => true⟩

def logsRequest (filter : JsonValue) : Except String JsonValue :=
  .ok (.object [("params", .array [.string "logs", filter])])

/-- Whether the gateway picks a log for a request; nothing if it rejects the filter. -/
def gatewayPicks (reader : FilterReader) (body : Except String JsonValue) (log : Log) :
    Option Bool :=
  (parseLogFilter reader body).toOption.map fun filter =>
    logMatches (some filter) (some (parseLogEvent reader log))

/-- Whether a node picks it; nothing if the filter is malformed. -/
def nodePicks (reader : FilterReader) (forms : HexForms) (body : Except String JsonValue)
    (log : Log) : Option Bool :=
  ((rawLogFilter reader body).toOption.bind (ethFilter forms)).map fun filter =>
    filter.matches reader.toLower log

def secondTopic : JsonValue :=
  .object [("address", .string "0xAB"), ("topics", .array [.null, .array [.string "0xC"]])]

theorem second_topic_picked :
    ∃ filter, parseLogFilter plainReader (logsRequest secondTopic) = .ok filter ∧
      PicksAsNode plainReader anyText ⟨some (.string "0xAB"), [none, some (.array [.string "0xC"])]⟩
        filter := by
  obtain ⟨accepted, picks, -⟩ := picks_as_node plainReader anyText (logsRequest secondTopic)
    ⟨some (.string "0xAB"), [none, some (.array [.string "0xC"])]⟩ rfl
  obtain ⟨filter, isFilter⟩ := accepted.mpr rfl
  have plain : IsPlainFilter anyText
      ⟨some (.string "0xAB"), [none, some (.array [.string "0xC"])]⟩
      ⟨some ["0xAB"], [none, some ["0xC"]]⟩ := ⟨rfl, by simp, by simp [isNull]⟩
  exact ⟨filter, isFilter, picks.mpr (fun _ => ⟨_, plain, by simp⟩) filter isFilter⟩

/-- A number in place of a topic is taken for anything; a null in a list of topics is taken
for the empty text; and a log without a topic at the second position is picked where any
topic is asked for there. -/
theorem malformed_topic_picks_all :
    (gatewayPicks plainReader (logsRequest (.object [("topics", .array [.number "5"])]))
          ⟨"0xa", ["0xb"]⟩ = some true ∧
        nodePicks plainReader anyText (logsRequest (.object [("topics", .array [.number "5"])]))
          ⟨"0xa", ["0xb"]⟩ = none) ∧
      (gatewayPicks plainReader (logsRequest (.object [("topics", .array [.array [.null]])]))
          ⟨"0xa", ["0xb"]⟩ = some false ∧
        nodePicks plainReader anyText (logsRequest (.object [("topics", .array [.array [.null]])]))
          ⟨"0xa", ["0xb"]⟩ = some true) ∧
      (gatewayPicks plainReader
          (logsRequest (.object [("topics", .array [.string "0xb", .null])]))
          ⟨"0xa", ["0xb"]⟩ = some true ∧
        nodePicks plainReader anyText
          (logsRequest (.object [("topics", .array [.string "0xb", .null])]))
          ⟨"0xa", ["0xb"]⟩ = some false) := by
  decide +kernel

end Nodecore.Flow
