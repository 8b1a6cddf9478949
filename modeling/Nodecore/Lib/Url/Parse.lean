/-
# Reading and writing URLs

A URL that a request can be sent to has a scheme and an authority, then a path and
possibly a query and a fragment.  The standard library cuts it at the delimiters in a fixed
order: the fragment first, then the scheme, the query, and the authority.  What it reads is
therefore decided by the first occurrence of each delimiter, wherever the byte came from.

URLs of another form can be read by the library, but no request can be sent to them; they
are not read here.  How an authority is read and written is left open, up to what the
library guarantees about it.
-/

import Nodecore.Lib.Url.Escape

namespace Nodecore.Lib.Url

def isControl (b : UInt8) : Bool := b < 0x20 || b == 0x7f

/-- What a byte may be that stands in a part and is none of some delimiters. -/
def isPlain (delimiters : String) (b : UInt8) : Bool :=
  !isControl b && !(bytes delimiters).contains b

/-- A text with escapes that can be read. -/
@[ext]
structure Escaped (mode : Encoding) where
  text : Bytes
  readable : (unescape mode text).isSome = true

namespace Escaped

variable {mode : Encoding}

def read? (mode : Encoding) (text : Bytes) : Option (Escaped mode) :=
  if readable : (unescape mode text).isSome = true then some ⟨text, readable⟩ else none

def decoded (escaped : Escaped mode) : Bytes := (unescape mode escaped.text).get escaped.readable

def isValid (mode : Encoding) (text : Bytes) : Bool :=
  text.all fun b => (bytes "!$&'()*+,;=:@[]%").contains b || !shouldEscape mode b

/-- A text is written the way it was read, if that is a valid way. -/
def print (escaped : Escaped mode) : Bytes :=
  if isValid mode escaped.text then escaped.text else escape mode escaped.decoded

end Escaped

/-- How the standard library reads and writes authorities.  What it has read it writes in a
form that is read in the same way, with no delimiter of other parts in it. -/
structure AuthorityCodec (α : Type) where
  parse : (scheme text : Bytes) → Option α
  print : α → Bytes
  parse_print : ∀ {scheme text authority}, parse scheme text = some authority →
    parse scheme (print authority) = some authority
  print_nil : ∀ {scheme authority}, parse scheme [] = some authority → print authority = []
  plain : ∀ authority, (print authority).all (isPlain "/?#") = true

/-- Authorities that are kept as they are written. -/
def plainAuthority : AuthorityCodec {text : Bytes // text.all (isPlain "/?#") = true} where
  parse _ text := if plain : text.all (isPlain "/?#") = true then some ⟨text, plain⟩ else none
  print := Subtype.val
  parse_print := by
    intro scheme text authority _
    exact dif_pos authority.2
  print_nil := by
    intro scheme authority parsed
    have plain : List.all [] (isPlain "/?#") = true := rfl
    rw [dif_pos plain] at parsed
    rw [← Option.some.inj parsed]
  plain := Subtype.property

end Url

open Url

structure Url (α : Type) where
  scheme : Bytes
  authority : α
  path : Escaped .path
  forceQuery : Bool
  rawQuery : Bytes
  fragment : Escaped .fragment

namespace Url

def isLetter (b : UInt8) : Bool := (0x61 ≤ b && b ≤ 0x7a) || (0x41 ≤ b && b ≤ 0x5a)

def isSchemeByte (b : UInt8) : Bool := isLetterOrDigit b || (bytes "+-.").contains b

def isScheme (text : Bytes) : Bool := text.head?.any isLetter && text.all isSchemeByte

def getScheme (rawURL : Bytes) : Option (Bytes × Bytes) :=
  match rawURL.dropWhile isSchemeByte with
  | 0x3a :: rest =>
    let scheme := rawURL.takeWhile isSchemeByte
    if scheme.head?.any isLetter then some (scheme, rest) else none
  | _ => none

/-- The part before the query, whether there is a question mark without one, and the
query. -/
def splitQuery (rest : Bytes) : Bytes × Bool × Bytes :=
  if rest.getLast? = some (byte '?') ∧ rest.count (byte '?') = 1 then (rest.dropLast, true, [])
  else
    let parts := cut (byte '?') rest
    (parts.1, false, parts.2)

variable {α : Type} (codec : AuthorityCodec α)

/-- The parts after the scheme. -/
def parseRest (scheme : Bytes) (split : Bytes × Bool × Bytes) (fragment : Bytes) : Option (Url α) :=
  match split.1 with
  | 0x2f :: 0x2f :: rest =>
    (codec.parse scheme (rest.takeWhile (· != byte '/'))).bind fun authority =>
      (Escaped.read? .path (rest.dropWhile (· != byte '/'))).bind fun path =>
        (Escaped.read? .fragment fragment).map fun fragment =>
          { scheme := scheme
            authority := authority
            path := path
            forceQuery := split.2.1
            rawQuery := split.2.2
            fragment := fragment }
  | _ => none

def parse (rawURL : Bytes) : Option (Url α) :=
  let parts := cut (byte '#') rawURL
  if parts.1.any isControl then none
  else
    (getScheme parts.1).bind fun found =>
      parseRest codec (found.1.map lowerByte) (splitQuery found.2) parts.2

/-- A URL as it is written, without a fragment. -/
structure Written where
  scheme : Bytes
  authority : Bytes
  path : Bytes
  query : Option Bytes

def Written.text (written : Written) : Bytes :=
  written.scheme ++ bytes "://" ++ written.authority ++ written.path ++
    written.query.elim [] (byte '?' :: ·)

def written (url : Url α) : Written where
  scheme := url.scheme
  authority := codec.print url.authority
  path := url.path.print
  query := if url.forceQuery || !url.rawQuery.isEmpty then some url.rawQuery else none

def print (url : Url α) : Bytes :=
  (url.written codec).text ++
    if url.fragment.decoded.isEmpty then [] else byte '#' :: url.fragment.print

def query (url : Url α) : Query := parseQuery url.rawQuery

/-- The parts are free of the delimiters that are looked for before their end. -/
structure Written.Ok (written : Written) : Prop where
  scheme : isScheme written.scheme = true
  authority : written.authority.all (isPlain "/?#") = true
  path : written.path = [] ∨ written.path.head? = some (byte '/')
  pathPlain : written.path.all (isPlain "?#") = true
  query : (written.query.getD []).all (isPlain "#") = true

theorem isPlain_iff {delimiters : String} {b : UInt8} :
    isPlain delimiters b = true ↔ isControl b = false ∧ b ∉ bytes delimiters := by
  simp [isPlain]

theorem not_mem_of_all_isPlain {delimiters : String} {text : Bytes} {b : UInt8}
    (plain : text.all (isPlain delimiters) = true) (delimiter : isPlain delimiters b = false) :
    b ∉ text := by
  intro member
  rw [List.all_eq_true.mp plain b member] at delimiter
  cases delimiter

theorem getScheme_append {scheme : Bytes} (isScheme : isScheme scheme = true) (rest : Bytes) :
    getScheme (scheme ++ byte ':' :: rest) = some (scheme, rest) := by
  obtain ⟨letter, all⟩ := Bool.and_eq_true_iff.mp isScheme
  rw [List.all_eq_true] at all
  have colon : ¬ isSchemeByte (byte ':') = true := by decide
  have after : (scheme ++ byte ':' :: rest).dropWhile isSchemeByte = 0x3a :: rest := by
    rw [List.dropWhile_append_of_pos all, List.dropWhile_cons_of_neg colon]
    rfl
  have before : (scheme ++ byte ':' :: rest).takeWhile isSchemeByte = scheme := by
    rw [List.takeWhile_append_of_pos all, List.takeWhile_cons_of_neg colon, List.append_nil]
  rw [getScheme, after, before]
  exact if_pos letter

theorem getScheme_eq_some {rawURL scheme rest : Bytes}
    (found : getScheme rawURL = some (scheme, rest)) :
    rawURL = scheme ++ byte ':' :: rest ∧ isScheme scheme = true := by
  unfold getScheme at found
  split at found
  · rename_i after isAfter
    dsimp only at found
    split_ifs at found with letter
    cases found
    constructor
    · calc rawURL = rawURL.takeWhile isSchemeByte ++ rawURL.dropWhile isSchemeByte :=
            List.takeWhile_append_dropWhile.symm
        _ = rawURL.takeWhile isSchemeByte ++ byte ':' :: rest := by rw [isAfter]; rfl
    · rw [isScheme, letter, List.all_takeWhile]
      rfl
  · cases found

theorem splitQuery_append {text : Bytes} (absent : byte '?' ∉ text) (query : Option Bytes) :
    splitQuery (text ++ query.elim [] (byte '?' :: ·)) =
      (text, decide (query = some []), query.getD []) := by
  cases query with
  | none =>
    have noMark : ¬ (text.getLast? = some (byte '?') ∧ text.count (byte '?') = 1) :=
      fun mark => absent (List.mem_of_getLast? mark.1)
    rw [Option.elim_none, List.append_nil, splitQuery, if_neg noMark, cut_of_not_mem absent]
    rfl
  | some query =>
    have count : (text ++ byte '?' :: query).count (byte '?') = query.count (byte '?') + 1 := by
      rw [List.count_append, List.count_eq_zero_of_not_mem absent, List.count_cons_self,
        Nat.zero_add]
    rw [Option.elim_some, splitQuery, count]
    cases query with
    | nil => simp
    | cons b query =>
      -- a question mark at the end is not the only one
      have noMark : ¬ ((text ++ byte '?' :: b :: query).getLast? = some (byte '?') ∧
          (b :: query).count (byte '?') + 1 = 1) := by
        rintro ⟨last, once⟩
        rw [List.getLast?_append_cons, List.getLast?_cons_cons] at last
        have some_mark := List.count_pos_iff.mpr (List.mem_of_getLast? last)
        omega
      rw [if_neg noMark, cut_append_cons absent]
      simp

namespace Escaped

variable {mode : Encoding} {text : Bytes} {escaped : Escaped mode}

theorem read?_eq_some : read? mode text = some escaped ↔ escaped.text = text := by
  unfold read?
  split_ifs with readable
  · rw [Option.some_inj, Escaped.ext_iff, eq_comm]
  · refine iff_of_false (by simp) ?_
    rintro rfl
    exact readable escaped.readable

theorem unescape_eq (escaped : Escaped mode) : unescape mode escaped.text = some escaped.decoded :=
  (Option.some_get escaped.readable).symm

theorem decoded_eq {read : Bytes} (isRead : unescape mode escaped.text = some read) :
    escaped.decoded = read := by
  rw [unescape_eq] at isRead
  exact Option.some.inj isRead

theorem unescape_print (escaped : Escaped mode) :
    unescape mode escaped.print = some escaped.decoded := by
  unfold print
  split_ifs
  · exact unescape_eq escaped
  · exact unescape_escape mode _

end Escaped

theorem isPlain_of_isSchemeByte : ∀ b, isSchemeByte b = true → isPlain "#" b = true :=
  forall_byte (by decide +kernel)

theorem isPlain_of_authority : ∀ b, isPlain "/?#" b = true → isPlain "#" b = true :=
  forall_byte (by decide +kernel)

theorem isPlain_of_path : ∀ b, isPlain "?#" b = true → isPlain "#" b = true :=
  forall_byte (by decide +kernel)

theorem all_imp {holds weaker : UInt8 → Bool} (weaken : ∀ b, holds b = true → weaker b = true)
    {text : Bytes} (all : text.all holds = true) : text.all weaker = true := by
  rw [List.all_eq_true] at all ⊢
  exact fun b member => weaken b (all b member)

namespace Written

variable {written : Written}

def middle (written : Written) : Bytes :=
  byte '/' :: byte '/' :: (written.authority ++ written.path)

theorem text_eq (written : Written) : written.text =
    written.scheme ++ byte ':' :: (written.middle ++ written.query.elim [] (byte '?' :: ·)) := by
  have marks : bytes "://" = [byte ':', byte '/', byte '/'] := by decide
  rw [text, middle, marks]
  simp

theorem Ok.isPlain_text (ok : written.Ok) : written.text.all (isPlain "#") = true := by
  have scheme := all_imp isPlain_of_isSchemeByte (Bool.and_eq_true_iff.mp ok.scheme).2
  have query : (written.query.elim [] (byte '?' :: ·)).all (isPlain "#") = true := by
    cases isQuery : written.query with
    | none => rfl
    | some query =>
      have plain := ok.query
      rw [isQuery, Option.getD_some] at plain
      rw [Option.elim_some, List.all_cons, plain]
      rfl
  rw [text, List.all_append, List.all_append, List.all_append, List.all_append, scheme,
    all_imp isPlain_of_authority ok.authority, all_imp isPlain_of_path ok.pathPlain, query]
  decide

theorem Ok.mark_not_mem_middle (ok : written.Ok) : byte '?' ∉ written.middle := by
  have authority := not_mem_of_all_isPlain ok.authority (b := byte '?') (by decide)
  have path := not_mem_of_all_isPlain ok.pathPlain (b := byte '?') (by decide)
  simp only [middle, List.mem_cons, List.mem_append, not_or]
  exact ⟨by decide, by decide, authority, path⟩

theorem Ok.takeWhile_dropWhile (ok : written.Ok) :
    (written.authority ++ written.path).takeWhile (· != byte '/') = written.authority ∧
      (written.authority ++ written.path).dropWhile (· != byte '/') = written.path := by
  have all := forall_bne_of_not_mem (not_mem_of_all_isPlain ok.authority (b := byte '/') (by decide))
  rw [List.takeWhile_append_of_pos all, List.dropWhile_append_of_pos all]
  rcases ok.path with isNil | slash
  · rw [isNil]
    simp
  · obtain ⟨path, isPath⟩ := List.head?_eq_some_iff.mp slash
    rw [isPath, List.takeWhile_cons_of_neg (by simp), List.dropWhile_cons_of_neg (by simp)]
    simp

/-- The parts of what follows the two slashes. -/
def cutPath (scheme rest : Bytes) (query : Option Bytes) : Written where
  scheme := scheme
  authority := rest.takeWhile (· != byte '/')
  path := rest.dropWhile (· != byte '/')
  query := query

theorem middle_cutPath (scheme rest : Bytes) (query : Option Bytes) :
    (cutPath scheme rest query).middle = byte '/' :: byte '/' :: rest := by
  rw [middle, cutPath, List.takeWhile_append_dropWhile]

theorem ok_cutPath {scheme rest : Bytes} {query : Option Bytes} (isScheme : isScheme scheme = true)
    (absent : byte '?' ∉ rest) (plain : rest.all (isPlain "#") = true)
    (queryPlain : (query.getD []).all (isPlain "#") = true) : (cutPath scheme rest query).Ok := by
  have inside {b : UInt8} (member : b ∈ rest) : isPlain "?#" b = true := by
    obtain ⟨calm, unmarked⟩ := isPlain_iff.mp (List.all_eq_true.mp plain b member)
    refine isPlain_iff.mpr ⟨calm, ?_⟩
    have marks : bytes "?#" = byte '?' :: bytes "#" := by decide
    rw [marks, List.mem_cons, not_or]
    exact ⟨fun same => absent (same ▸ member), unmarked⟩
  refine ⟨isScheme, ?_, ?_, ?_, queryPlain⟩
  · rw [List.all_eq_true]
    intro b member
    obtain ⟨calm, unmarked⟩ := isPlain_iff.mp (inside (List.takeWhile_subset _ member))
    refine isPlain_iff.mpr ⟨calm, ?_⟩
    have marks : bytes "/?#" = byte '/' :: bytes "?#" := by decide
    rw [marks, List.mem_cons, not_or]
    have unslashed : (b != byte '/') = true := List.all_eq_true.mp List.all_takeWhile b member
    exact ⟨bne_iff_ne.mp unslashed, unmarked⟩
  · cases isPath : rest.dropWhile (· != byte '/') with
    | nil => exact .inl isPath
    | cons b path =>
      have stops := List.head?_dropWhile_not (· != byte '/') rest
      rw [isPath] at stops
      exact .inr (by simpa [cutPath, isPath] using stops)
  · rw [List.all_eq_true]
    exact fun b member => inside (List.dropWhile_subset _ member)

end Written

theorem parse_text {written : Written} (ok : written.Ok) :
    parse codec written.text =
      (codec.parse (written.scheme.map lowerByte) written.authority).bind fun authority =>
        (Escaped.read? .path written.path).map fun path =>
          { scheme := written.scheme.map lowerByte
            authority := authority
            path := path
            forceQuery := decide (written.query = some [])
            rawQuery := written.query.getD []
            fragment := ⟨[], rfl⟩ } := by
  have plain := ok.isPlain_text
  have calm : written.text.any isControl = false := by
    rw [List.any_eq_false]
    intro b member
    have isPlain := List.all_eq_true.mp plain b member
    rw [Url.isPlain, Bool.and_eq_true, Bool.not_eq_true'] at isPlain
    simp [isPlain.1]
  have whole := cut_of_not_mem (not_mem_of_all_isPlain plain (b := byte '#') (by decide))
  rw [parse, whole]
  dsimp only
  rw [calm, if_neg Bool.false_ne_true, written.text_eq, getScheme_append ok.scheme,
    Option.bind_some, splitQuery_append ok.mark_not_mem_middle, Written.middle]
  change (codec.parse _ ((written.authority ++ written.path).takeWhile (· != byte '/'))).bind _ = _
  rw [ok.takeWhile_dropWhile.1, ok.takeWhile_dropWhile.2]
  have noFragment : Escaped.read? .fragment [] = some ⟨[], rfl⟩ := rfl
  simp only [noFragment, Option.map_eq_bind]
  rfl

variable {url : Url α}

theorem parse_cut {rawURL : Bytes} (parsed : parse codec rawURL = some url) :
    parse codec (cut (byte '#') rawURL).1 = some { url with fragment := ⟨[], rfl⟩ } ∧
      (cut (byte '#') rawURL).1.any isControl = false := by
  rw [parse] at parsed ⊢
  rw [cut_of_not_mem (eq_or_eq_of_cut _ rawURL).1]
  dsimp only at parsed ⊢
  split_ifs at parsed ⊢ with control
  refine ⟨?_, Bool.eq_false_iff.mpr control⟩
  obtain ⟨found, isFound, isRest⟩ := Option.bind_eq_some_iff.mp parsed
  rw [isFound, Option.bind_some]
  unfold parseRest at isRest ⊢
  split at isRest
  · obtain ⟨authority, isAuthority, isRest⟩ := Option.bind_eq_some_iff.mp isRest
    obtain ⟨path, isPath, isRest⟩ := Option.bind_eq_some_iff.mp isRest
    obtain ⟨fragment, -, rfl⟩ := Option.map_eq_some_iff.mp isRest
    rw [isAuthority, Option.bind_some, isPath, Option.bind_some]
    rfl
  · cases isRest

theorem exists_written {rawURL : Bytes} (parsed : parse codec rawURL = some url)
    (whole : byte '#' ∉ rawURL) :
    ∃ written : Written, written.Ok ∧ rawURL = written.text ∧
      url.scheme = written.scheme.map lowerByte ∧
      codec.parse url.scheme written.authority = some url.authority ∧
      url.path.text = written.path ∧ url.rawQuery = written.query.getD [] := by
  rw [parse, cut_of_not_mem whole] at parsed
  dsimp only at parsed
  split_ifs at parsed with control
  obtain ⟨⟨scheme, rest⟩, found, isRest⟩ := Option.bind_eq_some_iff.mp parsed
  obtain ⟨rfl, isScheme⟩ := getScheme_eq_some found
  -- the rest is cut at its first question mark
  obtain ⟨text, query, absent, rfl⟩ : ∃ text query, byte '?' ∉ text ∧
      rest = text ++ Option.elim query [] (byte '?' :: ·) := by
    obtain ⟨absent, ⟨-, same⟩ | same⟩ := eq_or_eq_of_cut (byte '?') rest
    · exact ⟨_, none, absent, by simpa using same⟩
    · exact ⟨_, some _, absent, same⟩
  rw [splitQuery_append absent] at isRest
  unfold parseRest at isRest
  split at isRest
  · rename_i rest isText
    obtain ⟨authority, isAuthority, isRest⟩ := Option.bind_eq_some_iff.mp isRest
    obtain ⟨path, isPath, isRest⟩ := Option.bind_eq_some_iff.mp isRest
    obtain ⟨fragment, -, rfl⟩ := Option.map_eq_some_iff.mp isRest
    have isWhole : text = byte '/' :: byte '/' :: rest := isText
    have plain : (text ++ Option.elim query [] (byte '?' :: ·)).all (isPlain "#") = true := by
      rw [List.all_eq_true]
      intro b member
      have inside : b ∈ scheme ++ byte ':' :: (text ++ Option.elim query [] (byte '?' :: ·)) :=
        List.mem_append_right _ (List.mem_cons_of_mem _ member)
      have marks : bytes "#" = [byte '#'] := by decide
      rw [isPlain_iff, marks, List.mem_singleton, ← Bool.not_eq_true]
      exact ⟨fun isControl => control (List.any_eq_true.mpr ⟨b, inside, isControl⟩),
        fun same => whole (same ▸ inside)⟩
    rw [List.all_append, Bool.and_eq_true] at plain
    refine ⟨.cutPath scheme rest query, Written.ok_cutPath isScheme ?_ ?_ ?_, ?_, rfl, isAuthority,
      Escaped.read?_eq_some.mp isPath, rfl⟩
    · exact fun member => absent (isWhole ▸ List.mem_cons_of_mem _ (List.mem_cons_of_mem _ member))
    · have restPlain := plain.1
      rw [isWhole, List.all_cons, List.all_cons] at restPlain
      simp_all
    · cases query with
      | none => rfl
      | some query => exact (Bool.and_eq_true_iff.mp plain.2).2
    · rw [Written.text_eq, Written.middle_cutPath, isWhole]
      rfl
  · cases isRest

/-- What a URL is like that was read without a fragment. -/
structure IsRead (url : Url α) : Prop where
  scheme : isScheme url.scheme = true
  lower : url.scheme.map lowerByte = url.scheme
  authority : ∃ text, codec.parse url.scheme text = some url.authority
  path : url.path.text = [] ∨ url.path.text.head? = some (byte '/')
  pathPlain : url.path.text.all (isPlain "?#") = true
  query : url.rawQuery.all (isPlain "#") = true

theorem isScheme_map_lowerByte {scheme : Bytes} (isScheme : isScheme scheme = true) :
    Url.isScheme (scheme.map lowerByte) = true := by
  have letter : ∀ b, isLetter b = true → isLetter (lowerByte b) = true :=
    forall_byte (by decide +kernel)
  have schemeByte : ∀ b, isSchemeByte b = true → isSchemeByte (lowerByte b) = true :=
    forall_byte (by decide +kernel)
  obtain ⟨first, all⟩ := Bool.and_eq_true_iff.mp isScheme
  rw [Url.isScheme, List.head?_map, List.all_map, Bool.and_eq_true]
  refine ⟨?_, all_imp schemeByte all⟩
  cases scheme with
  | nil => cases first
  | cons b scheme => exact letter b first

theorem map_lowerByte_idem (text : Bytes) :
    (text.map lowerByte).map lowerByte = text.map lowerByte := by
  have idem : ∀ b, lowerByte (lowerByte b) = lowerByte b := forall_byte (by decide +kernel)
  rw [List.map_map]
  exact List.map_congr_left fun b _ => idem b

variable {codec} in
theorem isRead_of_parse {rawURL : Bytes} (parsed : parse codec rawURL = some url) :
    url.IsRead codec := by
  obtain ⟨written, ok, -, scheme, authority, path, query⟩ :=
    exists_written codec (parse_cut codec parsed).1 (eq_or_eq_of_cut _ rawURL).1
  dsimp only at scheme authority path query
  constructor
  · rw [scheme]
    exact isScheme_map_lowerByte ok.scheme
  · rw [scheme]
    exact map_lowerByte_idem written.scheme
  · exact ⟨written.authority, authority⟩
  · rw [path]
    exact ok.path
  · rw [path]
    exact ok.pathPlain
  · rw [query]
    exact ok.query

theorem print_path {path : Escaped .path} (shape : path.text = [] ∨ path.text.head? = some (byte '/'))
    (plain : path.text.all (isPlain "?#") = true) :
    (path.print = [] ∨ path.print.head? = some (byte '/')) ∧
      path.print.all (isPlain "?#") = true := by
  unfold Escaped.print
  split_ifs
  · exact ⟨shape, plain⟩
  · have written : ∀ b, isWritten .path b = true → isPlain "?#" b = true :=
      forall_byte (by decide +kernel)
    refine ⟨?_, List.all_eq_true.mpr fun b member => written b (isWritten_of_mem_escape member)⟩
    have read := path.unescape_eq
    rcases shape with isNil | slash
    · rw [isNil] at read
      rw [← Option.some.inj read]
      exact .inl rfl
    · obtain ⟨rest, isText⟩ := List.head?_eq_some_iff.mp slash
      rw [isText, unescape_cons .path (by decide)] at read
      obtain ⟨later, -, isDecoded⟩ := Option.map_eq_some_iff.mp read
      rw [← isDecoded]
      exact .inr rfl

variable {codec} in
theorem IsRead.ok_written (read : url.IsRead codec) : (url.written codec).Ok := by
  obtain ⟨shape, plain⟩ := print_path read.path read.pathPlain
  refine ⟨read.scheme, codec.plain url.authority, shape, plain, ?_⟩
  rw [written]
  dsimp only
  split_ifs
  · exact read.query
  · rfl

variable {codec} in
theorem parse_print (read : url.IsRead codec) (whole : url.fragment.decoded = []) :
    ∃ again, parse codec (url.print codec) = some again ∧ again.scheme = url.scheme ∧
      again.authority = url.authority ∧ again.path.decoded = url.path.decoded ∧
      again.rawQuery = url.rawQuery ∧ again.fragment.decoded = [] := by
  obtain ⟨text, isAuthority⟩ := read.authority
  have authority : codec.parse (url.scheme.map lowerByte) (codec.print url.authority) =
      some url.authority := by
    rw [read.lower]
    exact codec.parse_print isAuthority
  have readable : (unescape .path url.path.print).isSome = true := by
    rw [url.path.unescape_print]
    rfl
  have path : Escaped.read? .path url.path.print = some ⟨url.path.print, readable⟩ :=
    Escaped.read?_eq_some.mpr rfl
  have query : (url.written codec).query.getD [] = url.rawQuery := by
    rw [written]
    dsimp only
    split_ifs with written
    · rfl
    · simp_all
  have parsed := parse_text codec read.ok_written
  rw [show (url.written codec).scheme = url.scheme from rfl,
    show (url.written codec).authority = codec.print url.authority from rfl, authority,
    show (url.written codec).path = url.path.print from rfl, path, query] at parsed
  rw [print, whole, List.isEmpty_nil, if_pos rfl, List.append_nil, parsed]
  exact ⟨_, rfl, read.lower, rfl, Escaped.decoded_eq url.path.unescape_print, rfl, rfl⟩

variable {codec} in
theorem mark_not_mem_print (read : url.IsRead codec)
    (whole : url.fragment.decoded = []) : byte '#' ∉ url.print codec := by
  rw [print, whole]
  simpa using not_mem_of_all_isPlain read.ok_written.isPlain_text (b := byte '#') (by decide)

theorem isPlain_encodeQuery (query : Query) : (encodeQuery query).all (isPlain "#") = true := by
  have written : ∀ b, isWritten .query b = true → isPlain "#" b = true :=
    forall_byte (by decide +kernel)
  rw [List.all_eq_true]
  intro b member
  rcases eq_or_mem_of_mem_intercalate member with rfl | ⟨text, listed, inside⟩
  · decide
  · obtain ⟨parameter, -, rfl⟩ := List.mem_map.mp listed
    rw [encodeParameter, List.mem_append, List.mem_cons] at inside
    rcases inside with key | rfl | value
    · exact written b (isWritten_of_mem_escape key)
    · decide
    · exact written b (isWritten_of_mem_escape value)

end Url

end Nodecore.Lib
