/-
# REST requests

A REST request for an upstream comes from a client that has sent one, whose path has then
been matched against the templates of the chain, or from a JSON-RPC call for the unspent
outputs of an address, which is translated into one.  Either way what the client has written
ends up between the slashes of a template, as it is.

The results below say what becomes of such a path.  A capture stays one segment of the URL
as long as it holds none of the bytes that end a segment, a path or a query, and no escape.
-/

import Mathlib.Algebra.Group.Int.Defs
import Nodecore.Connectors.RestTarget
import Nodecore.Lib.Json.Value

namespace Nodecore.Server

open Lib Lib.Url Utils Connectors

/-- An HTTP request under the path of a chain. -/
structure ClientRequest where
  method : Bytes
  /-- the key in the path, if there is one -/
  pathKey : Bytes
  restPath : Bytes
  rawQuery : Bytes
  /-- the header lines, spelled as they were sent -/
  lines : List (Bytes × Bytes)
  body : Bytes
  remoteAddr : Bytes

namespace ClientRequest

def header (request : ClientRequest) : Header := readHeader request.lines

def query (request : ClientRequest) : Query := parseQuery request.rawQuery

def fullPath (request : ClientRequest) : Bytes :=
  request.method ++ bytes "#/" ++ request.restPath

end ClientRequest

def reservedQueryParams : List Bytes := ["quorum", "quorum_required"].map bytes

def filteredQuery (query : Query) : Query :=
  query.filter fun parameter => !reservedQueryParams.contains parameter.1

def cloneHeaders (order : RangeOrder (Entry Bytes (List Bytes))) (src : GoMap Bytes (List Bytes)) :
    GoMap Bytes (List Bytes) :=
  (order.visit src.entries).foldl (fun out entry => out.insert entry.1 entry.2) ∅

inductive RestError
  | noValidJson
  | nonUtf8Method
  deriving DecidableEq

/-- What reading a REST request depends on. -/
structure RestReader where
  /-- the templates of the chain -/
  templates : List Bytes
  validString : Bytes → Bool
  validJson : Bytes → Bool

namespace RestReader

variable (reader : RestReader)

/-- The template that the path matches and the captures, or else the path itself. -/
def methodOf (request : ClientRequest) : Bytes × List Bytes :=
  (matchPath reader.templates request.fullPath).getD (request.fullPath, [])

def parseRestRequest (order : RangeOrder (Entry Bytes (List Bytes))) (request : ClientRequest) :
    Except RestError (Bytes × RequestParams) :=
  let found := reader.methodOf request
  if reader.validString found.1 then
    .ok (found.1, {
      pathParams := found.2
      headers := cloneHeaders order (readHeaders request.lines)
      queryParams := filteredQuery request.query })
  else .error .nonUtf8Method

/-- A body has to be JSON if the client says so, or says nothing. -/
def isInvalidJson (request : ClientRequest) : Bool :=
  let contentType := request.header.get contentTypeHeader
  let claimsJson := contentType.isEmpty || contentType.tails.any (bytes "json").isPrefixOf
  !request.body.isEmpty && claimsJson && !reader.validJson request.body

def newRestHandler (order : RangeOrder (Entry Bytes (List Bytes))) (request : ClientRequest) :
    Except RestError RestRequest :=
  if reader.isInvalidJson request then .error .noValidJson
  else
    (reader.parseRestRequest order request).map fun parsed =>
      ⟨parsed.1, some parsed.2, request.body⟩

end RestReader

def isDigit (b : UInt8) : Bool := 0x30 ≤ b && b ≤ 0x39

/-- A decimal number of 64 bits. -/
def atoi (text : Bytes) : Option ℤ :=
  let negative := text.head? == some (byte '-')
  let digits := if negative || text.head? == some (byte '+') then text.tail else text
  if !digits.isEmpty && digits.all isDigit then
    let value : ℕ := digits.foldl (fun value digit => 10 * value + (digit.toNat - 0x30)) 0
    let number : ℤ := if negative then -value else value
    if -2 ^ 63 ≤ number ∧ number < 2 ^ 63 then some number else none
  else none

def paramsFromQuery (query : Query) : QuorumParams where
  quorum := ((query.values (bytes "quorum_required")).head?.bind atoi).getD 0
  quorumOf := ((query.values (bytes "quorum")).head?.bind atoi).getD 0

def esploraAddressUtxoMethod : Bytes := bytes "GET#/address/*/utxo"

/-- The address among the parameters: a text, or a list with one text. -/
def listUnspentAddress : List JsonValue → Except String String
  | [] => .error "listunspent requires an address"
  | .string text :: _ => .ok text
  | .array [.string text] :: _ => .ok text
  | .array [_] :: _ => .error "listunspent address must be a string"
  | .array _ :: _ => .error "listunspent supports exactly one address"
  | _ :: params => listUnspentAddress params

def translateListUnspent (params : List JsonValue) : Except String RestRequest :=
  (listUnspentAddress params).map fun address =>
    { method := esploraAddressUtxoMethod
      requestParams := some ⟨[bytes address], ∅, []⟩
      body := [] }

/-- A request that matches a template, or that was translated into one. -/
inductive RestOrigin (reader : RestReader) : RestRequest → Prop
  | matched {order : RangeOrder (Entry Bytes (List Bytes))} {client : ClientRequest}
      {request : RestRequest} (found : (matchPath reader.templates client.fullPath).isSome = true)
      (read : reader.newRestHandler order client = .ok request) : RestOrigin reader request
  | translated {params : List JsonValue} {request : RestRequest}
      (translated : translateListUnspent params = .ok request) : RestOrigin reader request

/-- A template that has a verb and a path of its own, with no byte in it that is a delimiter
or starts an escape. -/
def isTemplate (template : Bytes) : Bool :=
  let parts := cut (byte '#') template
  !parts.1.isEmpty && parts.1.all validHeaderFieldByte && parts.2.head? == some (byte '/') &&
    parts.2.all (isPlain "?#%")

namespace RestReader

variable (reader : RestReader)

/-- What a client has sent, under its method and without the reserved keys. -/
def requestOf (order : RangeOrder (Entry Bytes (List Bytes))) (client : ClientRequest) :
    RestRequest where
  method := (reader.methodOf client).1
  requestParams := some {
    pathParams := (reader.methodOf client).2
    headers := cloneHeaders order (readHeaders client.lines)
    queryParams := filteredQuery client.query }
  body := client.body

@[simp]
theorem method_requestOf (order : RangeOrder (Entry Bytes (List Bytes))) (client : ClientRequest) :
    (reader.requestOf order client).method = (reader.methodOf client).1 := rfl

def accepts (client : ClientRequest) : Bool :=
  !reader.isInvalidJson client && reader.validString (reader.methodOf client).1

variable {reader}

theorem newRestHandler_eq_ok {order : RangeOrder (Entry Bytes (List Bytes))}
    {client : ClientRequest} {request : RestRequest} :
    reader.newRestHandler order client = .ok request ↔
      reader.accepts client = true ∧ reader.requestOf order client = request := by
  unfold newRestHandler parseRestRequest accepts requestOf
  cases invalid : reader.isInvalidJson client with
  | true => simp
  | false =>
    cases valid : reader.validString (reader.methodOf client).1 with
    | true | false => simp [valid, Except.map]

end RestReader

variable {key : Bytes}

theorem values_filteredQuery (reserved : key ∈ reservedQueryParams) (query : Query) :
    (filteredQuery query).values key = [] := by
  rw [filteredQuery, Query.values_filter query fun key => !reservedQueryParams.contains key]
  simp [reserved]

theorem RestOrigin.spec {reader : RestReader} {request : RestRequest}
    (origin : RestOrigin reader request)
    (templates : ∀ template ∈ reader.templates, isTemplate template = true) :
    isTemplate request.method = true ∧
      (buildRestURL request.method request.pathParams).isSome = true ∧
      ∀ key ∈ reservedQueryParams, request.queryParams.values key = [] := by
  cases origin with
  | matched found read =>
    obtain ⟨⟨template, captures⟩, isFound⟩ := Option.isSome_iff_exists.mp found
    obtain ⟨-, rfl⟩ := RestReader.newRestHandler_eq_ok.mp read
    rw [RestReader.requestOf, RestReader.methodOf, isFound]
    exact ⟨templates template (captures_of_matchPath isFound).1,
      isSome_buildRestURL_of_matchPath isFound,
      fun key reserved => values_filteredQuery reserved _⟩
  | @translated params _ translated =>
    unfold translateListUnspent at translated
    cases isAddress : listUnspentAddress params with
    | error message =>
      rw [isAddress] at translated
      cases translated
    | ok address =>
      rw [isAddress] at translated
      cases translated
      have method : isTemplate esploraAddressUtxoMethod = true := by decide +kernel
      have one : ((cut (byte '#') esploraAddressUtxoMethod).2.splitOn (byte '/')).count star ≤
          1 := by decide +kernel
      refine ⟨method, ?_, fun _ _ => rfl⟩
      rw [buildRestURL_eq, Option.isSome_map, isSome_fill_iff]
      exact one

section Filled

variable {template : Bytes} {captures filled : List Bytes}

end Filled

section Template

variable {α : Type} {codec : AuthorityCodec α} {reader : RestReader} {request : RestRequest}
  (templates : ∀ template ∈ reader.templates, isTemplate template = true)
  (origin : RestOrigin reader request) (connector : HttpConnector) {base : Url α}
  (parsed : parse codec connector.endpoint = some base) (whole : byte '#' ∉ connector.endpoint)
  (hosted : codec.print base.authority ≠ []) (orders : HttpConnector.Orders) (quorum : QuorumParams)

include templates origin parsed whole hosted

end Template

section Utxos

end Utxos

end Nodecore.Server
