/-
# The block parameter of a request

A method's tag-parser picks, with a jq program, the value among a request's
parameters that says which block or blocks the request is about, and the value
is then read as a number, a tag, a hash or a range.  An omitted parameter, one
that the program fails on and one that cannot be read all come out as `none`.

The jq engine and the JSON-RPC library's number format are parameters.
-/

import Nodecore.Lib.Json.Value
import Nodecore.Specs.Method

namespace Nodecore.Specs

open Lib

structure BlockNumberOrHash where
  blockNumber : Option Int64 := none
  blockHash : Option String := none
  deriving DecidableEq, Repr

/-- Block numbers as the JSON-RPC library has them: the numbers that stand for
tags, and what a quoted text is unmarshalled to. -/
structure RpcBlocks where
  safeBlockNumber : Int64
  latestBlockNumber : Int64
  pendingBlockNumber : Int64
  finalizedBlockNumber : Int64
  earliestBlockNumber : Int64
  unmarshalBlockNumber : String → Option Int64
  unmarshalBlockNumberOrHash : String → Option BlockNumberOrHash

/-- What the jq engine puts out for a program on some data, in order. -/
abbrev Gojq := (path : String) → (data : JsonValue) → List (Except String JsonValue)

namespace RpcBlocks

variable (rpc : RpcBlocks)

def isBlockTagNumber (number : Int64) : Bool :=
  number == rpc.safeBlockNumber || number == rpc.latestBlockNumber ||
    number == rpc.pendingBlockNumber || number == rpc.finalizedBlockNumber ||
    number == rpc.earliestBlockNumber

/-- The documented range of the format: a text is a tag or names a number that
is not negative. -/
structure Documented : Prop where
  number : ∀ {text number}, rpc.unmarshalBlockNumber text = some number →
    rpc.isBlockTagNumber number = true ∨ 0 ≤ number
  reference : ∀ {text reference number}, rpc.unmarshalBlockNumberOrHash text = some reference →
    reference.blockNumber = some number → rpc.isBlockTagNumber number = true ∨ 0 ≤ number

end RpcBlocks

inductive MethodParam
  | blockNumber (number : Int64)
  | blockRange (fromBlock toBlock : Option Int64)
  | hashTag (hash : String)
  | string (value : String)
  deriving DecidableEq, Repr

def isBlockTag (param : String) : Bool :=
  param ∈ ["latest", "earliest", "pending", "finalized", "safe"]

def isHexNumberOrTag (param : String) : Bool :=
  "0x".toList.isPrefixOf param.toList || isBlockTag param

/-- One side of a range: absent, a number, or (the outer `none`) unreadable.  A
value that is not a text is formatted as one that no number has. -/
def parseBound (rpc : RpcBlocks) : Option JsonValue → Option (Option Int64)
  | none | some .null => some none
  | some (.string text) => (rpc.unmarshalBlockNumber text).map some
  | some _ => none

/-- A hash if the text is one, else the number or tag. -/
def parseReference (rpc : RpcBlocks) (param : String) : Option MethodParam :=
  match rpc.unmarshalBlockNumberOrHash param with
  | none => none
  | some ⟨_, some hash⟩ => some (.hashTag hash)
  | some ⟨blockNumber, none⟩ => blockNumber.map .blockNumber

def parseRange (rpc : RpcBlocks) (range : JsonValue) : Option MethodParam :=
  match parseBound rpc (range.member? "from"), parseBound rpc (range.member? "to") with
  | some fromBlock, some toBlock => some (.blockRange fromBlock toBlock)
  | _, _ => none

def parseTag (rpc : RpcBlocks) (returnType : ParserReturnType) : JsonValue → Option MethodParam
  | .string param =>
    if returnType = .blockNumberType ∧ isHexNumberOrTag param then
      (rpc.unmarshalBlockNumber param).map .blockNumber
    else if returnType = .blockRefType then parseReference rpc param
    else if returnType = .stringType then some (.string param)
    else none
  | .object members =>
    if returnType = .blockRangeType then parseRange rpc (.object members) else none
  | .null | .bool _ | .number _ | .array _ => none

/-- The first thing the program puts out decides. -/
def jqParse : List (Except String JsonValue) → Except String JsonValue
  | [] => .error "no parsed value"
  | output :: _ => output

/-- The parameter of a request for the method.  The error is the panic on a
return type that does not exist; of an object the entry visited first counts. -/
def Method.parse (gojq : Gojq) (rpc : RpcBlocks) (method : Method) (data : JsonValue) :
    Except String (Option MethodParam) :=
  match method.parser with
  | none => .ok none
  | some parser =>
    match jqParse (gojq parser.path data) with
    | .ok (.string param) => .ok (parseTag rpc parser.returnType (.string param))
    | .ok (.object ((key, value) :: _)) =>
      if parser.returnType ≠ .objectType then .ok none
      else
        match ParserReturnType.ofString? key with
        | none => .error ("wrong return type of tag-parser - " ++ key)
        | some returnType => .ok (parseTag rpc returnType value)
    | _ => .ok none

/-- A tag-parser that reads a block number, a block reference or a block range,
directly or as what its objects are declared to hold. -/
def TagParser.ReadsBlock (gojq : Gojq) (parser : TagParser) : Prop :=
  match parser.returnType with
  | .blockNumberType | .blockRefType | .blockRangeType => True
  | .stringType => False
  | .objectType =>
    ∀ {data key value members}, jqParse (gojq parser.path data) =
      .ok (.object ((key, value) :: members)) → key ≠ ParserReturnType.stringType.toString

/-- The block numbers of a parameter, tags among them. -/
def MethodParam.numbers : MethodParam → List Int64
  | .blockNumber number => [number]
  | .blockRange fromBlock toBlock => fromBlock.toList ++ toBlock.toList
  | .hashTag _ => []
  | .string _ => []

variable {param : MethodParam} {number : Int64} {method : Method}

section Reading

variable {gojq : Gojq} {rpc : RpcBlocks}

section

variable (documented : rpc.Documented)
include documented

theorem parseBound_documented {value : Option JsonValue} {bound : Option Int64}
    (parsed : parseBound rpc value = some bound)
    (mem : number ∈ bound.toList) : rpc.isBlockTagNumber number = true ∨ 0 ≤ number := by
  unfold parseBound at parsed
  split at parsed
  · cases parsed
    cases mem
  · cases parsed
    cases mem
  · obtain ⟨read, unmarshalled, rfl⟩ := Option.map_eq_some_iff.mp parsed
    obtain rfl : number = read := by simpa using mem
    exact documented.number unmarshalled
  · cases parsed

theorem parseReference_documented {text : String} (parsed : parseReference rpc text = some param)
    (mem : number ∈ param.numbers) : rpc.isBlockTagNumber number = true ∨ 0 ≤ number := by
  unfold parseReference at parsed
  split at parsed
  · cases parsed
  · cases parsed
    cases mem
  · rename_i blockNumber unmarshalled
    obtain ⟨read, rfl, rfl⟩ := Option.map_eq_some_iff.mp parsed
    obtain rfl : number = read := by simpa [MethodParam.numbers] using mem
    exact documented.reference unmarshalled rfl

theorem parseRange_documented {range : JsonValue} (parsed : parseRange rpc range = some param)
    (mem : number ∈ param.numbers) : rpc.isBlockTagNumber number = true ∨ 0 ≤ number := by
  unfold parseRange at parsed
  split at parsed
  · rename_i fromBlock toBlock readFrom readTo
    cases parsed
    rcases List.mem_append.mp mem with side | side
    · exact parseBound_documented documented readFrom side
    · exact parseBound_documented documented readTo side
  · cases parsed

theorem parseTag_documented {returnType : ParserReturnType} {value : JsonValue}
    (parsed : parseTag rpc returnType value = some param)
    (mem : number ∈ param.numbers) : rpc.isBlockTagNumber number = true ∨ 0 ≤ number := by
  cases value with
  | string text =>
    rw [parseTag] at parsed
    split_ifs at parsed
    · obtain ⟨read, unmarshalled, rfl⟩ := Option.map_eq_some_iff.mp parsed
      obtain rfl : number = read := by simpa [MethodParam.numbers] using mem
      exact documented.number unmarshalled
    · exact parseReference_documented documented parsed mem
    · cases parsed
      cases mem
  | object members =>
    rw [parseTag] at parsed
    split_ifs at parsed
    exact parseRange_documented documented parsed mem
  | _ => cases parsed

end

theorem returnType_of_parseTag_string {returnType : ParserReturnType} {value : JsonValue}
    {text : String} (parsed : parseTag rpc returnType value = some (.string text)) :
    returnType = .stringType := by
  cases value with
  | string param =>
    rw [parseTag] at parsed
    split_ifs at parsed with _ _ isString
    · simp at parsed
    · simp only [parseReference] at parsed
      split at parsed <;> simp at parsed
    · exact isString
  | object members =>
    rw [parseTag] at parsed
    split_ifs at parsed
    simp only [parseRange] at parsed
    split at parsed <;> simp at parsed
  | _ => cases parsed

/-- What a method reads is what `parseTag` makes of some value under the
parser's return type, or under the one its object declares. -/
theorem Method.parse_eq_some {data : JsonValue}
    (parsed : method.parse gojq rpc data = .ok (some param)) :
    ∃ parser, method.parser = some parser ∧
      ((∃ value, parseTag rpc parser.returnType value = some param) ∨
        parser.returnType = .objectType ∧ ∃ key value members returnType,
          jqParse (gojq parser.path data) = .ok (.object ((key, value) :: members)) ∧
            ParserReturnType.ofString? key = some returnType ∧
            parseTag rpc returnType value = some param) := by
  unfold Method.parse at parsed
  split at parsed
  · cases parsed
  · rename_i parser hasParser
    refine ⟨parser, hasParser, ?_⟩
    split at parsed
    · exact .inl ⟨_, Except.ok.inj parsed⟩
    · rename_i key value members output
      split_ifs at parsed with kind
      · cases parsed
      · split at parsed
        · cases parsed
        · rename_i returnType named
          exact .inr ⟨not_not.mp kind, key, value, members, returnType, output, named,
            Except.ok.inj parsed⟩
    · cases parsed

theorem Method.parse_documented (documented : rpc.Documented) {data : JsonValue}
    (parsed : method.parse gojq rpc data = .ok (some param)) (mem : number ∈ param.numbers) :
    rpc.isBlockTagNumber number = true ∨ 0 ≤ number := by
  obtain ⟨parser, _, ⟨value, read⟩ | ⟨_, _, value, _, _, _, _, read⟩⟩ := Method.parse_eq_some parsed
  all_goals exact parseTag_documented documented read mem

theorem Method.parse_ne_string {parser : TagParser} (hasParser : method.parser = some parser)
    (reads : parser.ReadsBlock gojq) (data : JsonValue) (text : String) :
    method.parse gojq rpc data ≠ .ok (some (.string text)) := by
  intro parsed
  obtain ⟨other, same, outcome⟩ := Method.parse_eq_some parsed
  obtain rfl := Option.some.inj (hasParser.symm.trans same)
  rcases outcome with ⟨value, read⟩ | ⟨isObject, key, value, members, returnType, output, named, read⟩
  · rw [TagParser.ReadsBlock, returnType_of_parseTag_string read] at reads
    exact reads
  · rw [TagParser.ReadsBlock, isObject] at reads
    obtain rfl := returnType_of_parseTag_string read
    have key_eq := List.find?_some named
    exact reads output (of_decide_eq_true key_eq).symm

end Reading

end Nodecore.Specs
