/-
# The HTTP connector

A connector sends the requests for one upstream to its endpoint.  For a REST request it
builds the URL as a text, out of the configured endpoint, the path of the method and the
queries of the client and of the gateway, and the library reads that text again when the
request is made.  The headers are the configured ones with those of the client laid over
them.

Which of several values wins is decided separately for the two: a configured header wins
over the client's, and a later query over an earlier one.
-/

import Nodecore.Lib.Url.Parse
import Nodecore.Utils.Path

namespace Nodecore.Connectors

open Lib Lib.Url Utils

structure ApiConnectorConfig where
  url : Bytes
  headers : GoMap Bytes Bytes

def insertCanonical (headers : GoMap Bytes Bytes) (entry : Entry Bytes Bytes) : GoMap Bytes Bytes :=
  headers.insert (canonicalHeaderKey entry.1) entry.2

/-- The configured headers under their canonical names.  Of two spellings of one name the
one that is visited later wins. -/
def canonicalizeHeaders (order : RangeOrder (Entry Bytes Bytes)) (headers : GoMap Bytes Bytes) :
    GoMap Bytes Bytes :=
  (order.visit headers.entries).foldl insertCanonical ∅

theorem mem_foldl_insertCanonical (entries : List (Entry Bytes Bytes)) (headers : GoMap Bytes Bytes)
    (key : Bytes) :
    key ∈ entries.foldl insertCanonical headers ↔
      key ∈ headers ∨ ∃ entry ∈ entries, canonicalHeaderKey entry.1 = key := by
  induction entries generalizing headers with
  | nil => simp
  | cons entry entries ih =>
    rw [List.foldl_cons, ih, insertCanonical, AList.mem_insert, List.exists_mem_cons_iff,
      @eq_comm _ key]
    tauto

theorem lookup_foldl_insertCanonical {entries : List (Entry Bytes Bytes)}
    {headers : GoMap Bytes Bytes} {key value : Bytes}
    (same : ∀ entry ∈ entries, canonicalHeaderKey entry.1 = key → entry.2 = value)
    (earlier : ∀ other, headers.lookup key = some other → other = value) :
    ∀ other, (entries.foldl insertCanonical headers).lookup key = some other → other = value := by
  induction entries generalizing headers with
  | nil => exact earlier
  | cons entry entries ih =>
    rw [List.forall_mem_cons] at same
    refine ih same.2 ?_
    intro other found
    by_cases isKey : canonicalHeaderKey entry.1 = key
    · rw [insertCanonical, isKey, AList.lookup_insert] at found
      exact Option.some.inj found ▸ same.1 isKey
    · rw [insertCanonical, AList.lookup_insert_ne (Ne.symm isKey)] at found
      exact earlier other found

section Canonical

variable (order : RangeOrder (Entry Bytes Bytes)) {headers : GoMap Bytes Bytes} {key value : Bytes}

theorem mem_canonicalizeHeaders :
    key ∈ canonicalizeHeaders order headers ↔
      ∃ spelling ∈ headers, canonicalHeaderKey spelling = key := by
  rw [canonicalizeHeaders, mem_foldl_insertCanonical]
  simp only [AList.notMem_empty, false_or, RangeOrder.mem_visit]
  constructor
  · rintro ⟨entry, listed, isKey⟩
    exact ⟨entry.1, List.mem_keys_of_mem listed, isKey⟩
  · rintro ⟨spelling, listed, isKey⟩
    obtain ⟨value, there⟩ := List.exists_of_mem_keys listed
    exact ⟨⟨spelling, value⟩, there, isKey⟩

/-- All spellings of a configured header have the value. -/
def IsOnlyValue (headers : GoMap Bytes Bytes) (key value : Bytes) : Prop :=
  ∀ spelling other, headers.lookup spelling = some other →
    canonicalHeaderKey spelling = canonicalHeaderKey key → other = value

theorem lookup_canonicalizeHeaders (found : headers.lookup key = some value)
    (only : IsOnlyValue headers key value) :
    (canonicalizeHeaders order headers).lookup (canonicalHeaderKey key) = some value := by
  have listed : key ∈ headers := AList.lookup_isSome.mp (found ▸ rfl)
  have held : canonicalHeaderKey key ∈ canonicalizeHeaders order headers :=
    (mem_canonicalizeHeaders order).mpr ⟨key, listed, rfl⟩
  obtain ⟨other, isOther⟩ := Option.isSome_iff_exists.mp (AList.lookup_isSome.mpr held)
  have same : ∀ entry ∈ order.visit headers.entries,
      canonicalHeaderKey entry.1 = canonicalHeaderKey key → entry.2 = value := by
    intro entry visited isKey
    exact only entry.1 entry.2 (AList.mem_lookup_iff.mpr ((order.mem_visit _ _).mp visited)) isKey
  have isValue := lookup_foldl_insertCanonical same (fun _ absurdity => by cases absurdity) other
    isOther
  rw [isOther, isValue]

/-- The spelling that is visited last decides. -/
theorem exists_lookup_canonicalizeHeaders (found : headers.lookup key = some value) :
    ∃ order, (canonicalizeHeaders order headers).lookup (canonicalHeaderKey key) = some value := by
  obtain ⟨order, rest, visits⟩ := RangeOrder.exists_concat (AList.mem_lookup_iff.mp found)
  refine ⟨order, ?_⟩
  rw [canonicalizeHeaders, visits, List.foldl_append, List.foldl_cons, List.foldl_nil,
    insertCanonical, AList.lookup_insert]

theorem canonical_canonicalizeHeaders (listed : key ∈ canonicalizeHeaders order headers) :
    canonicalHeaderKey key = key := by
  obtain ⟨spelling, -, rfl⟩ := (mem_canonicalizeHeaders order).mp listed
  exact canonicalHeaderKey_idem spelling

end Canonical

/-- A connector, with its headers under canonical names. -/
structure HttpConnector where
  endpoint : Bytes
  upstreamId : String
  additionalHeaders : GoMap Bytes Bytes
  canonical : ∀ key ∈ additionalHeaders, canonicalHeaderKey key = key

def newHttpConnector (order : RangeOrder (Entry Bytes Bytes)) (config : ApiConnectorConfig)
    (upstreamId : String) : HttpConnector where
  endpoint := config.url
  upstreamId := upstreamId
  additionalHeaders := canonicalizeHeaders order config.headers
  canonical _ := canonical_canonicalizeHeaders order

/-- What a client has sent with a REST request besides the body. -/
structure RequestParams where
  pathParams : List Bytes
  headers : GoMap Bytes (List Bytes)
  queryParams : Query

structure RestRequest where
  method : Bytes
  requestParams : Option RequestParams
  body : Bytes

namespace RestRequest

def pathParams (request : RestRequest) : List Bytes :=
  request.requestParams.elim [] RequestParams.pathParams

def queryParams (request : RestRequest) : Query :=
  request.requestParams.elim [] RequestParams.queryParams

end RestRequest

/-- How many upstreams are to answer, and how many of them alike. -/
structure QuorumParams where
  quorum : ℤ
  quorumOf : ℤ
  deriving DecidableEq

namespace QuorumParams

def requested (params : QuorumParams) : Bool :=
  0 < params.quorum && 0 < params.quorumOf && params.quorum ≤ params.quorumOf

def query (params : QuorumParams) : Query :=
  if params.requested then
    [(bytes "quorum", bytes (toString params.quorumOf)),
      (bytes "quorum_required", bytes (toString params.quorum))]
  else []

end QuorumParams

inductive SendError
  | needsMorePathParams (template : Bytes) (provided : ℕ)
  | noMethodAndPath
  | invalidUrl (upstreamId : String)
  | creatingRequest
  deriving DecidableEq

/-- The HTTP request that goes to an upstream. -/
@[ext]
structure UpstreamRequest (α : Type) where
  verb : Bytes
  url : Url α
  header : Header
  body : Bytes

def joinEndpointAndPath (endpoint path : Bytes) : Bytes :=
  let parts := cut (byte '?') endpoint
  let base :=
    if parts.1.getLast? = some (byte '/') ∧ path.head? = some (byte '/') then parts.1.dropLast
    else parts.1
  base ++ path ++ if parts.2.isEmpty then [] else byte '?' :: parts.2

section Send

variable {α : Type} (codec : AuthorityCodec α) (validJson : Bytes → Bool)

/-- Puts a query over that of a URL. -/
def appendQuery (rawURL extraQuery : Bytes) : Option Bytes :=
  if extraQuery.isEmpty then some rawURL
  else
    (parse codec rawURL).bind fun url =>
      if isReadable extraQuery then
        let query := url.query.override (parseQuery extraQuery)
        some (print codec { url with rawQuery := encodeQuery query })
      else none

/-- The text of the URL, with the query of the client and then that of the gateway. -/
def targetOf (endpoint path : Bytes) (queryParams quorum : Query) : Option Bytes :=
  (appendQuery codec (joinEndpointAndPath endpoint path) (encodeQuery queryParams)).bind
    fun target => appendQuery codec target (encodeQuery quorum)

def defaultRequestHeaderDeny : List Bytes :=
  ["Connection", "Keep-Alive", "Proxy-Authenticate", "Proxy-Authorization", "Te", "Trailer",
    "Trailers", "Transfer-Encoding", "Upgrade", "Host", "Content-Length", "Accept-Encoding"].map
    bytes

def contentTypeHeader : Bytes := bytes "Content-Type"

def clientContentTypeWins (clientContentType body : Bytes) : Bool :=
  clientContentType.tails.any (bytes "json").isPrefixOf || !validJson body

namespace HttpConnector

variable (connector : HttpConnector)

def applyConfigHeaders (order : RangeOrder (Entry Bytes Bytes)) (header : Header) : Header :=
  (order.visit connector.additionalHeaders.entries).foldl
    (fun header entry => header.set entry.1 entry.2)
    (header.set contentTypeHeader (bytes "application/json"))

def applyClientHeader (body : Bytes) (header : Header) (entry : Entry Bytes (List Bytes)) :
    Header :=
  let canonical := canonicalHeaderKey entry.1
  if defaultRequestHeaderDeny.contains canonical then header
  else if canonical ∈ connector.additionalHeaders then header
  else if canonical = contentTypeHeader ∧ entry.2 ≠ [] then
    -- one value only, in the place of the default
    let value := entry.2.head?.getD []
    if clientContentTypeWins validJson value body then header.set canonical value else header
  else entry.2.foldl (fun header value => header.add entry.1 value) header

def applyClientHeaders (order : RangeOrder (Entry Bytes (List Bytes))) (body : Bytes)
    (headers : GoMap Bytes (List Bytes)) (header : Header) : Header :=
  (order.visit headers.entries).foldl (connector.applyClientHeader validJson body) header

/-- The orders that one request visits its maps in. -/
structure Orders where
  config : RangeOrder (Entry Bytes Bytes)
  client : RangeOrder (Entry Bytes (List Bytes))

def restHeader (orders : Orders) (request : RestRequest) : Header :=
  let header := connector.applyConfigHeaders orders.config fun _ => []
  request.requestParams.elim header fun params =>
    connector.applyClientHeaders validJson orders.client request.body params.headers header

def newRequest (verb target : Bytes) (header : Header) (body : Bytes) :
    Option (UpstreamRequest α) :=
  if verb.all validHeaderFieldByte then
    (parse codec target).map fun url => ⟨verb, url, header, body⟩
  else none

def sendRest (orders : Orders) (quorum : Query) (request : RestRequest) :
    Except SendError (UpstreamRequest α) :=
  match buildRestURL request.method request.pathParams with
  | none => .error (.needsMorePathParams request.method request.pathParams.length)
  | some (verb, path) =>
    if verb.isEmpty || path.isEmpty then .error .noMethodAndPath
    else
      match targetOf codec connector.endpoint path request.queryParams quorum with
      | none => .error (.invalidUrl connector.upstreamId)
      | some target =>
        match newRequest codec verb target (connector.restHeader validJson orders request)
          request.body with
        | none => .error .creatingRequest
        | some sent => .ok sent

def configHeader (key : Bytes) : List Bytes :=
  (connector.additionalHeaders.lookup key).elim
    (if key = contentTypeHeader then [bytes "application/json"] else []) fun value => [value]

theorem applyConfigHeaders_apply (order : RangeOrder (Entry Bytes Bytes)) (key : Bytes) :
    connector.applyConfigHeaders order (fun _ => []) key = connector.configHeader key := by
  -- the names are canonical, so that setting one is an update at the name itself
  have step : connector.applyConfigHeaders order (fun _ => []) =
      (order.visit connector.additionalHeaders.entries).foldl
        (fun (header : Header) entry => Function.update header entry.1 [entry.2])
        (Header.set (fun _ => []) contentTypeHeader (bytes "application/json")) := by
    refine List.foldl_ext _ _ _ ?_
    intro header entry visited
    have listed := List.mem_keys_of_mem ((order.mem_visit _ _).mp visited)
    rw [Header.set, connector.canonical entry.1 listed]
  have default : canonicalHeaderKey contentTypeHeader = contentTypeHeader := by decide
  rw [step, GoMap.view_foldl_visit (fun header : Header => header key) (fun value _ => [value]) key]
  · rw [Header.set, default, Function.update_apply, configHeader]
  · exact fun header entry other => Function.update_of_ne (Ne.symm other) _ _
  · exact fun header value => Function.update_self ..

/-- The values under a name after the client's for that name. -/
def forwarded (body key : Bytes) (values earlier : List Bytes) : List Bytes :=
  if defaultRequestHeaderDeny.contains key then earlier
  else if key ∈ connector.additionalHeaders then earlier
  else if key = contentTypeHeader ∧ values ≠ [] then
    let value := values.head?.getD []
    if clientContentTypeWins validJson value body then [value] else earlier
  else earlier ++ values

theorem forwarded_of_mem {key : Bytes} (configured : key ∈ connector.additionalHeaders)
    (body : Bytes) (values earlier : List Bytes) :
    connector.forwarded validJson body key values earlier = earlier := by
  simp [forwarded, configured]

theorem applyClientHeader_eq (body : Bytes) (header : Header) (entry : Entry Bytes (List Bytes)) :
    connector.applyClientHeader validJson body header entry =
      Function.update header (canonicalHeaderKey entry.1)
        (connector.forwarded validJson body (canonicalHeaderKey entry.1) entry.2
          (header (canonicalHeaderKey entry.1))) := by
  unfold applyClientHeader forwarded
  dsimp only
  split_ifs
  · rw [Function.update_eq_self]
  · rw [Function.update_eq_self]
  · rw [Header.set, canonicalHeaderKey_idem]
  · rw [Function.update_eq_self]
  · exact header.foldl_add entry.1 entry.2

theorem restHeader_of_lookup {key value : Bytes}
    (configured : connector.additionalHeaders.lookup key = some value) (orders : Orders)
    (request : RestRequest) : connector.restHeader validJson orders request key = [value] := by
  have listed : key ∈ connector.additionalHeaders := AList.lookup_isSome.mp (configured ▸ rfl)
  have start : connector.applyConfigHeaders orders.config (fun _ => []) key = [value] := by
    rw [applyConfigHeaders_apply, configHeader, configured, Option.elim_some]
  have kept (entries : List (Entry Bytes (List Bytes))) (header : Header) :
      entries.foldl (connector.applyClientHeader validJson request.body) header key =
        header key := by
    induction entries generalizing header with
    | nil => rfl
    | cons entry entries ih =>
      rw [List.foldl_cons, ih, applyClientHeader_eq]
      by_cases same : key = canonicalHeaderKey entry.1
      · rw [← same, Function.update_self, forwarded_of_mem _ _ listed]
      · rw [Function.update_of_ne same]
  unfold restHeader
  cases request.requestParams with
  | none => exact start
  | some params => exact (kept _ _).trans start

theorem restHeader_apply (orders : Orders) {request : RestRequest} {params : RequestParams}
    (isParams : request.requestParams = some params)
    (canonical : ∀ key ∈ params.headers, canonicalHeaderKey key = key) (key : Bytes) :
    connector.restHeader validJson orders request key =
      connector.forwarded validJson request.body key ((params.headers.lookup key).getD [])
        (connector.configHeader key) := by
  have step (header : Header) :
      connector.applyClientHeaders validJson orders.client request.body params.headers header =
        (orders.client.visit params.headers.entries).foldl
          (fun header entry => Function.update header entry.1
            (connector.forwarded validJson request.body entry.1 entry.2 (header entry.1))) header := by
    refine List.foldl_ext _ _ _ ?_
    intro header entry visited
    have listed := List.mem_keys_of_mem ((orders.client.mem_visit _ _).mp visited)
    rw [applyClientHeader_eq, canonical entry.1 listed]
  rw [restHeader, isParams, Option.elim_some, step,
    GoMap.view_foldl_visit (fun header : Header => header key)
      (connector.forwarded validJson request.body key) key,
    applyConfigHeaders_apply]
  · cases params.headers.lookup key with
    | none => simp [forwarded]
    | some values => rw [Option.elim_some, Option.getD_some]
  · exact fun header entry other => Function.update_of_ne (Ne.symm other) _ _
  · exact fun header values => Function.update_self ..

end HttpConnector

end Send

end Nodecore.Connectors
