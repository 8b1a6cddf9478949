/-
# Escapes and queries

A byte that would mean something else at its place in a URL is written as a percent sign
and two hexadecimal digits.  Which bytes these are depends on the place.  In a query a
space is written as a plus sign.

A query is a list of parameters, several of which may have one key.  Written, they are
joined by ampersands, sorted by key; read, whatever is malformed is left out.
-/

import Mathlib.Data.List.Dedup
import Mathlib.Data.List.Sort
import Nodecore.Lib.Header

namespace Nodecore.Lib.Url

/-- The place a text is written at. -/
inductive Encoding
  | path | query | fragment
  deriving DecidableEq, Repr

def isUnreserved (b : UInt8) : Bool := isLetterOrDigit b || (bytes "-_.~").contains b

/-- The bytes besides the unreserved ones that stand for themselves. -/
def allowed : Encoding → Bytes
  | .path => bytes "$&+,/:;=@"
  | .query => []
  | .fragment => bytes "$&+,/:;=?@!()*"

def shouldEscape (mode : Encoding) (b : UInt8) : Bool :=
  !(isUnreserved b || (allowed mode).contains b)

def hexDigit (n : ℕ) : UInt8 := if n < 10 then (0x30 + n).toUInt8 else (0x37 + n).toUInt8

def unhex (b : UInt8) : Option ℕ :=
  if 0x30 ≤ b.toNat ∧ b.toNat ≤ 0x39 then some (b.toNat - 0x30)
  else if 0x61 ≤ b.toNat ∧ b.toNat ≤ 0x66 then some (b.toNat - 0x57)
  else if 0x41 ≤ b.toNat ∧ b.toNat ≤ 0x46 then some (b.toNat - 0x37)
  else none

def escapeByte (mode : Encoding) (b : UInt8) : Bytes :=
  if shouldEscape mode b then
    if mode = .query ∧ b = byte ' ' then [byte '+']
    else [byte '%', hexDigit (b.toNat / 16), hexDigit (b.toNat % 16)]
  else [b]

def escape (mode : Encoding) (text : Bytes) : Bytes := text.flatMap (escapeByte mode)

/-- A byte that is not part of an escape. -/
def plainByte (mode : Encoding) (b : UInt8) : UInt8 :=
  if mode = .query ∧ b = byte '+' then byte ' ' else b

def unhexByte (high low : UInt8) : Option UInt8 :=
  match unhex high, unhex low with
  | some first, some second => some (16 * first + second).toUInt8
  | _, _ => none

def unescape (mode : Encoding) : Bytes → Option Bytes
  | [] => some []
  | 0x25 :: high :: low :: rest =>
    (unhexByte high low).bind fun value => (unescape mode rest).map (value :: ·)
  | 0x25 :: _ => none
  | b :: rest => (unescape mode rest).map (plainByte mode b :: ·)

variable {mode : Encoding} {b : UInt8} {text : Bytes}

theorem unescape_cons (mode : Encoding) (unescaped : b ≠ byte '%') (rest : Bytes) :
    unescape mode (b :: rest) = (unescape mode rest).map (plainByte mode b :: ·) := by
  rw [unescape]
  · exact fun _ _ _ same => absurd same unescaped
  · exact fun same => absurd same unescaped

theorem unhex_hexDigit {n : ℕ} (digit : n < 16) : unhex (hexDigit n) = some n := by
  have all : ∀ n < 16, unhex (hexDigit n) = some n := by decide
  exact all n digit

theorem unhexByte_hexDigit (b : UInt8) :
    unhexByte (hexDigit (b.toNat / 16)) (hexDigit (b.toNat % 16)) = some b := by
  have small : b.toNat < 256 := b.toNat_lt
  rw [unhexByte, unhex_hexDigit (by omega), unhex_hexDigit (by omega)]
  dsimp only
  rw [Nat.div_add_mod, Nat.toUInt8, UInt8.ofNat_toNat]

theorem unescape_escapeByte_append (mode : Encoding) (b : UInt8) (rest : Bytes) :
    unescape mode (escapeByte mode b ++ rest) = (unescape mode rest).map (b :: ·) := by
  unfold escapeByte
  split_ifs with escaped space
  · obtain ⟨rfl, rfl⟩ := space
    rw [List.singleton_append, unescape_cons .query (by decide)]
    rfl
  · show unescape mode (0x25 :: hexDigit (b.toNat / 16) :: hexDigit (b.toNat % 16) :: rest) = _
    rw [unescape, unhexByte_hexDigit, Option.bind_some]
  · have unescaped : b ≠ byte '%' := by
      rintro rfl
      revert escaped
      cases mode <;> decide
    have isPlain : plainByte mode b = b := by
      rw [plainByte, if_neg]
      rintro ⟨rfl, rfl⟩
      revert escaped
      decide
    rw [List.singleton_append, unescape_cons mode unescaped, isPlain]

theorem unescape_escape (mode : Encoding) (text : Bytes) :
    unescape mode (escape mode text) = some text := by
  induction text with
  | nil => rfl
  | cons b text ih =>
    rw [escape, List.flatMap_cons, unescape_escapeByte_append]
    exact congrArg (Option.map (b :: ·)) ih

theorem unescape_append {read : Bytes} (isRead : unescape mode text = some read) (rest : Bytes) :
    unescape mode (text ++ rest) = (unescape mode rest).map (read ++ ·) := by
  fun_induction unescape mode text generalizing read with
  | case1 =>
    cases isRead
    simp
  | case2 high low text ih =>
    obtain ⟨value, isValue, later⟩ := Option.bind_eq_some_iff.mp isRead
    obtain ⟨tail, isTail, rfl⟩ := Option.map_eq_some_iff.mp later
    show unescape mode (0x25 :: high :: low :: (text ++ rest)) = _
    rw [unescape, isValue, Option.bind_some, ih isTail, Option.map_map]
    rfl
  | case3 text short => cases isRead
  | case4 b text long short ih =>
    obtain ⟨tail, isTail, rfl⟩ := Option.map_eq_some_iff.mp isRead
    rw [List.cons_append, unescape_cons mode (fun same => short same), ih isTail, Option.map_map]
    rfl

theorem exists_of_unescape_concat (unescaped : b ≠ byte '%') (noDigit : unhex b = none)
    {read : Bytes} (isRead : unescape mode (text ++ [b]) = some read) :
    ∃ front, unescape mode text = some front ∧ read = front ++ [plainByte mode b] := by
  fun_induction unescape mode text generalizing read with
  | case1 =>
    rw [List.nil_append, unescape_cons mode unescaped] at isRead
    exact ⟨[], rfl, (Option.some.inj isRead).symm⟩
  | case2 high low text ih =>
    rw [List.cons_append, List.cons_append, List.cons_append, unescape] at isRead
    obtain ⟨value, isValue, later⟩ := Option.bind_eq_some_iff.mp isRead
    obtain ⟨tail, isTail, rfl⟩ := Option.map_eq_some_iff.mp later
    obtain ⟨front, isFront, rfl⟩ := ih isTail
    exact ⟨value :: front, by rw [isValue, isFront]; rfl, rfl⟩
  | case3 text short =>
    -- an escape that is cut short is not completed by a byte that is no digit
    exfalso
    cases text with
    | nil => cases isRead
    | cons high text =>
      cases text with
      | nil =>
        have incomplete : unhexByte high b = none := by
          unfold unhexByte
          rw [noDigit]
          cases unhex high <;> rfl
        rw [List.cons_append, List.cons_append, List.nil_append, unescape, incomplete] at isRead
        cases isRead
      | cons low text => exact short high low text rfl
  | case4 a text long short ih =>
    rw [List.cons_append, unescape_cons mode (fun same => short same)] at isRead
    obtain ⟨tail, isTail, rfl⟩ := Option.map_eq_some_iff.mp isRead
    obtain ⟨front, isFront, rfl⟩ := ih isTail
    exact ⟨plainByte mode a :: front, by rw [isFront]; rfl, rfl⟩

/-- The bytes that an escaped text consists of. -/
def isWritten (mode : Encoding) (b : UInt8) : Bool :=
  !shouldEscape mode b || b == byte '%' || (mode == .query && b == byte '+')

theorem isWritten_of_mem_escape (written : b ∈ escape mode text) : isWritten mode b = true := by
  obtain ⟨a, -, member⟩ := List.mem_flatMap.mp written
  have digit {n : ℕ} (small : n < 16) : isWritten mode (hexDigit n) = true := by
    have unreserved : ∀ n < 16, isUnreserved (hexDigit n) = true := by decide
    simp [isWritten, shouldEscape, unreserved n small]
  have high : a.toNat / 16 < 16 := by have := a.toNat_lt; omega
  have low : a.toNat % 16 < 16 := Nat.mod_lt _ (by decide)
  unfold escapeByte at member
  split_ifs at member with escaped space
  · obtain ⟨rfl, rfl⟩ := space
    rw [List.mem_singleton.mp member]
    rfl
  · simp only [List.mem_cons, List.not_mem_nil, or_false] at member
    rcases member with rfl | rfl | rfl
    · simp [isWritten]
    · exact digit high
    · exact digit low
  · rw [List.mem_singleton.mp member]
    simp [isWritten, escaped]

theorem not_mem_escape (unwritten : isWritten mode b = false) (text : Bytes) :
    b ∉ escape mode text := by
  intro member
  rw [isWritten_of_mem_escape member] at unwritten
  cases unwritten

abbrev Query := List (Bytes × Bytes)

namespace Query

variable (query extra : Query)

def keys : List Bytes := (query.map Prod.fst).dedup

def values (key : Bytes) : List Bytes :=
  query.filterMap fun parameter => if parameter.1 = key then some parameter.2 else none

def grouped : Query :=
  ((keys query).insertionSort (· ≤ ·)).flatMap fun key => (values query key).map (key, ·)

/-- The query with the values of another for the keys that one has. -/
def override : Query :=
  query.filter (fun parameter => parameter.1 ∉ keys extra) ++ extra

end Query

def encodeParameter (parameter : Bytes × Bytes) : Bytes :=
  escape .query parameter.1 ++ byte '=' :: escape .query parameter.2

def encodeQuery (query : Query) : Bytes :=
  [byte '&'].intercalate (query.grouped.map encodeParameter)

def parseParameter (text : Bytes) : Option (Bytes × Bytes) :=
  if text.contains (byte ';') then none
  else
    let parts := cut (byte '=') text
    match unescape .query parts.1, unescape .query parts.2 with
    | some key, some value => some (key, value)
    | _, _ => none

def parameters (rawQuery : Bytes) : List Bytes :=
  (rawQuery.splitOn (byte '&')).filter fun text => !text.isEmpty

/-- The parameters of a query that can be read. -/
def parseQuery (rawQuery : Bytes) : Query := (parameters rawQuery).filterMap parseParameter

def isReadable (rawQuery : Bytes) : Bool :=
  (parameters rawQuery).all fun text => (parseParameter text).isSome

theorem not_mem_encodeParameter (unwritten : isWritten .query b = false) (other : b ≠ byte '=')
    (parameter : Bytes × Bytes) : b ∉ encodeParameter parameter := by
  rw [encodeParameter, List.mem_append, List.mem_cons, not_or, not_or]
  exact ⟨not_mem_escape unwritten _, other, not_mem_escape unwritten _⟩

theorem parseParameter_encodeParameter (parameter : Bytes × Bytes) :
    parseParameter (encodeParameter parameter) = some parameter := by
  have single : (encodeParameter parameter).contains (byte ';') = false := by
    rw [Bool.eq_false_iff, ne_eq, List.contains_iff_mem]
    exact not_mem_encodeParameter (by decide) (by decide) parameter
  have parts : cut (byte '=') (encodeParameter parameter) =
      (escape .query parameter.1, escape .query parameter.2) :=
    cut_append_cons (not_mem_escape (by decide) _)
  rw [parseParameter, single, parts]
  simp [unescape_escape]

theorem parameters_intercalate (query : Query) :
    parameters ([byte '&'].intercalate (query.map encodeParameter)) =
      query.map encodeParameter := by
  cases query with
  | nil => rfl
  | cons parameter query =>
    rw [parameters, List.splitOn_intercalate (byte '&') _ (by simp), List.filter_eq_self]
    · intro text member
      obtain ⟨written, -, rfl⟩ := List.mem_map.mp member
      simp [encodeParameter]
    · intro text member
      obtain ⟨written, -, rfl⟩ := List.mem_map.mp member
      exact not_mem_encodeParameter (by decide) (by decide) written

theorem parseQuery_encodeQuery (query : Query) :
    parseQuery (encodeQuery query) = query.grouped := by
  rw [parseQuery, encodeQuery, parameters_intercalate, List.filterMap_map]
  have read : parseParameter ∘ encodeParameter = some := funext parseParameter_encodeParameter
  rw [read, List.filterMap_some]

theorem isReadable_encodeQuery (query : Query) : isReadable (encodeQuery query) = true := by
  rw [isReadable, encodeQuery, parameters_intercalate, List.all_map, List.all_eq_true]
  intro parameter _
  simp [parseParameter_encodeParameter]

namespace Query

variable {query extra : Query} {key : Bytes}

theorem mem_keys : key ∈ keys query ↔ values query key ≠ [] := by
  rw [ne_eq, values, List.filterMap_eq_nil_iff, keys, List.mem_dedup, List.mem_map]
  simp

theorem values_append (first second : Query) (key : Bytes) :
    values (first ++ second) key = values first key ++ values second key :=
  List.filterMap_append

theorem values_map_pair (texts : List Bytes) (key other : Bytes) :
    values (texts.map (other, ·)) key = if other = key then texts else [] := by
  rw [values, List.filterMap_map]
  split_ifs with same
  · simp [same]
  · simp [same]

theorem values_flatMap {listed : List Bytes} (nodup : listed.Nodup) (query : Query) (key : Bytes) :
    values (listed.flatMap fun other => (values query other).map (other, ·)) key =
      if key ∈ listed then values query key else [] := by
  induction listed with
  | nil => rfl
  | cons other listed ih =>
    rw [List.nodup_cons] at nodup
    rw [List.flatMap_cons, values_append, values_map_pair, ih nodup.2]
    by_cases same : other = key
    · subst same
      simp [nodup.1]
    · simp [same, Ne.symm same]

theorem values_grouped (query : Query) (key : Bytes) :
    values (grouped query) key = values query key := by
  have perm := List.perm_insertionSort (· ≤ ·) (keys query)
  rw [grouped, values_flatMap (perm.nodup_iff.mpr (List.nodup_dedup _))]
  split_ifs with listed
  · rfl
  · rw [perm.mem_iff, mem_keys, not_not] at listed
    exact listed.symm

theorem values_filter (query : Query) (keeps : Bytes → Bool) (key : Bytes) :
    values (query.filter fun parameter => keeps parameter.1) key =
      if keeps key then values query key else [] := by
  rw [values, List.filterMap_filter]
  split_ifs with kept
  · apply List.filterMap_congr
    intro parameter _
    by_cases same : parameter.1 = key
    · simp [same, kept]
    · simp [same]
  · rw [List.filterMap_eq_nil_iff]
    intro parameter _
    by_cases same : parameter.1 = key
    · simp [same, kept]
    · simp [same]

theorem values_override (query extra : Query) (key : Bytes) :
    values (override query extra) key =
      if key ∈ keys extra then values extra key else values query key := by
  rw [override, values_append, values_filter query (fun key => decide (key ∉ keys extra))]
  by_cases listed : key ∈ keys extra
  · simp [listed]
  · have none : values extra key = [] := by rwa [mem_keys, not_not] at listed
    simp [listed, none]

end Query

end Nodecore.Lib.Url
