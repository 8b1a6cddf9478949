/-
# The credentials of clients

A client shows the gateway a token, a key, or both, in headers of their own.  They are meant
for the gateway.  The results below compare two requests that differ in nothing else: if what
is sent to an upstream differs, a credential has left the gateway.

No header of the gateway is among those that are withheld from an upstream.  A credential is
withheld only by a connector that has a value of its own configured under the name.
-/

import Nodecore.Server.RestRequests
import Nodecore.Utils.ClientIp

namespace Nodecore.Server

open Lib Lib.Url Utils Connectors

def xNodecoreToken : Bytes := bytes "X-Nodecore-Token"

def xNodecoreKey : Bytes := bytes "X-Nodecore-Key"

inductive AuthRequestStrategy
  | noop
  | token (value : Bytes)
  | jwt (parses : Bytes → Bool)

def AuthRequestStrategy.authenticateRequest (strategy : AuthRequestStrategy)
    (client : ClientRequest) : Bool :=
  match strategy with
  | .noop => true
  | .token value => client.header.get xNodecoreToken == value
  | .jwt parses =>
    let authHeader := client.header.get (bytes "Authorization")
    let mark := bytes "Bearer "
    mark.isPrefixOf authHeader && mark.length < authHeader.length &&
      parses (trimSpace (authHeader.drop mark.length))

/-- What is checked with a key: the addresses of the client, and the method and the body of
the request. -/
structure ApiKey where
  preCheckSetting : GoSet Bytes → Bool
  postCheckSetting : (method body : Bytes) → Bool

inductive AuthProcessor
  | noop
  | simple (strategy : AuthRequestStrategy)
  | basic (strategy : AuthRequestStrategy) (getKey : Bytes → Option ApiKey)

def getPayloadKey (client : ClientRequest) : Bytes :=
  if client.pathKey.isEmpty then client.header.get xNodecoreKey else client.pathKey

/-- The checks of a processor, before and after the request is read. -/
def AuthProcessor.admits (processor : AuthProcessor) (ips : GoSet Bytes) (client : ClientRequest)
    (method : Bytes) : Bool :=
  match processor with
  | .noop => true
  | .simple strategy => strategy.authenticateRequest client
  | .basic strategy getKey =>
    let key := getPayloadKey client
    strategy.authenticateRequest client && !key.isEmpty &&
      (getKey key).any fun key =>
        key.preCheckSetting ips && key.postCheckSetting method client.body

structure Gateway where
  reader : RestReader
  netip : Netip
  trustedProxies : List Prefix
  auth : AuthProcessor

/-- The orders that the maps of one request are visited in. -/
structure RequestOrders where
  clone : RangeOrder (Entry Bytes (List Bytes))
  send : HttpConnector.Orders

namespace Gateway

variable {α : Type} (gateway : Gateway) (codec : AuthorityCodec α) (connector : HttpConnector)

def ips (client : ClientRequest) : GoSet Bytes :=
  gateway.netip.contextWithIps ⟨client.remoteAddr, client.header⟩ gateway.trustedProxies

/-- What becomes of a request at a connector, if it is admitted. -/
def forward (orders : RequestOrders) (client : ClientRequest) :
    Option (Except SendError (UpstreamRequest α)) :=
  match gateway.reader.newRestHandler orders.clone client with
  | .error _ => none
  | .ok request =>
    if gateway.auth.admits (gateway.ips client) client request.method then
      some (connector.sendRest codec gateway.reader.validJson orders.send
        (paramsFromQuery client.query).query request)
    else none

def admits (client : ClientRequest) : Bool :=
  gateway.reader.accepts client &&
    gateway.auth.admits (gateway.ips client) client (gateway.reader.methodOf client).1

variable {gateway codec connector} in
theorem forward_eq_some {orders : RequestOrders} {client : ClientRequest}
    {result : Except SendError (UpstreamRequest α)} :
    gateway.forward codec connector orders client = some result ↔
      gateway.admits client = true ∧
        connector.sendRest codec gateway.reader.validJson orders.send
          (paramsFromQuery client.query).query (gateway.reader.requestOf orders.clone client) =
          result := by
  unfold forward admits
  cases read : gateway.reader.newRestHandler orders.clone client with
  | error error =>
    have refused : gateway.reader.accepts client = false := by
      rw [Bool.eq_false_iff]
      intro accepted
      rw [RestReader.newRestHandler_eq_ok.mpr ⟨accepted, rfl⟩] at read
      cases read
    simp [refused]
  | ok request =>
    obtain ⟨accepted, rfl⟩ := RestReader.newRestHandler_eq_ok.mp read
    rw [accepted, Bool.true_and]
    dsimp only
    rw [RestReader.method_requestOf]
    split_ifs with admitted
    · simp [admitted]
    · simp [admitted]

end Gateway

def credentialHeaders : List Bytes := [xNodecoreToken, xNodecoreKey]

/-- Two lines are the same, except for the value of a credential in whatever spelling. -/
def LineAlike (line other : Bytes × Bytes) : Prop :=
  line.1 = other.1 ∧ (line.2 = other.2 ∨ canonicalHeaderKey line.1 ∈ credentialHeaders)

theorem readHeader_eq_of_lineAlike {lines others : List (Bytes × Bytes)}
    (alike : List.Forall₂ LineAlike lines others) {key : Bytes} (other : key ∉ credentialHeaders) :
    readHeader lines key = readHeader others key := by
  induction alike with
  | nil => rfl
  | @cons line changed lines others alike _ ih =>
    obtain ⟨name, value⟩ := alike
    unfold readHeader at ih ⊢
    by_cases isKey : canonicalHeaderKey line.1 = key
    · have same : line.2 = changed.2 := value.resolve_right fun credential =>
        other (isKey ▸ credential)
      simp [← name, isKey, same, ih]
    · simp [← name, isKey, ih]

/-- Two requests that differ only in the values of credentials. -/
def DifferInCredentials (first second : ClientRequest) : Prop :=
  ∃ lines, second = { first with lines := lines } ∧ List.Forall₂ LineAlike first.lines lines

variable (order : RangeOrder (Entry Bytes (List Bytes))) (key : Bytes)

theorem lookup_cloneHeaders (src : GoMap Bytes (List Bytes)) :
    (cloneHeaders order src).lookup key = src.lookup key := by
  rw [cloneHeaders, GoMap.view_foldl_visit (fun out : GoMap Bytes (List Bytes) => out.lookup key)
    (fun values _ => some values) key]
  · cases src.lookup key <;> rfl
  · exact fun out entry other => AList.lookup_insert_ne (Ne.symm other)
  · exact fun out values => AList.lookup_insert _

theorem canonical_cloneHeaders (lines : List (Bytes × Bytes)) :
    ∀ key ∈ cloneHeaders order (readHeaders lines), canonicalHeaderKey key = key := by
  intro key listed
  refine canonical_readHeaders lines key ?_
  rw [← AList.lookup_isSome, ← lookup_cloneHeaders order, AList.lookup_isSome]
  exact listed

theorem restHeader_requestOf (connector : HttpConnector) (reader : RestReader)
    (orders : RequestOrders) (client : ClientRequest) :
    connector.restHeader reader.validJson orders.send (reader.requestOf orders.clone client) key =
      connector.forwarded reader.validJson client.body key (client.header key)
        (connector.configHeader key) := by
  rw [connector.restHeader_apply reader.validJson orders.send rfl
    (canonical_cloneHeaders orders.clone client.lines), lookup_cloneHeaders, lookup_readHeaders]
  rfl

variable {connector : HttpConnector}

theorem sendRest_eq_of_differ {α : Type} (codec : AuthorityCodec α) (gateway : Gateway)
    (configured : ∀ name ∈ credentialHeaders, name ∈ connector.additionalHeaders)
    {first second : ClientRequest} (differ : DifferInCredentials first second)
    (orders others : RequestOrders) (quorum : Query) :
    connector.sendRest codec gateway.reader.validJson orders.send quorum
        (gateway.reader.requestOf orders.clone first) =
      connector.sendRest codec gateway.reader.validJson others.send quorum
        (gateway.reader.requestOf others.clone second) := by
  obtain ⟨lines, rfl, alike⟩ := differ
  refine HttpConnector.sendRest_congr codec quorum rfl rfl rfl rfl ?_
  funext key
  rw [restHeader_requestOf, restHeader_requestOf]
  by_cases credential : key ∈ credentialHeaders
  · rw [HttpConnector.forwarded_of_mem _ _ (configured key credential),
      HttpConnector.forwarded_of_mem _ _ (configured key credential)]
  · have same : ClientRequest.header first key =
        ClientRequest.header { first with lines := lines } key :=
      readHeader_eq_of_lineAlike alike credential
    rw [same]

/-- A request with two more lines of one name, the first of them empty. -/
def attach (client : ClientRequest) (name value : Bytes) : ClientRequest :=
  { client with lines := client.lines ++ [(name, []), (name, value)] }

section Attach

variable {client : ClientRequest} {name : Bytes} (value : Bytes)

theorem header_attach :
    (attach client name value).header key =
      client.header key ++ if canonicalHeaderKey name = key then [[], value] else [] := by
  unfold ClientRequest.header attach readHeader
  rw [List.filterMap_append]
  split_ifs with isKey <;> simp [isKey]

theorem get_attach : (attach client name value).header.get key = client.header.get key := by
  unfold Header.get Header.values
  rw [header_attach]
  cases client.header (canonicalHeaderKey key) with
  | nil => split_ifs <;> rfl
  | cons first later => rfl

theorem authenticateRequest_attach (strategy : AuthRequestStrategy) :
    strategy.authenticateRequest (attach client name value) =
      strategy.authenticateRequest client := by
  cases strategy with
  | noop => rfl
  | token expected | jwt parses => rw [AuthRequestStrategy.authenticateRequest, get_attach]; rfl

theorem ips_attach (gateway : Gateway) (credential : name ∈ credentialHeaders) :
    gateway.ips (attach client name value) = gateway.ips client := by
  have other : ∀ name ∈ credentialHeaders, canonicalHeaderKey name ≠
      canonicalHeaderKey (bytes "X-Forwarded-For") := by decide +kernel
  refine Netip.contextWithIps_congr rfl ?_
  unfold forwardedForIPs Header.values
  dsimp only
  rw [header_attach, if_neg (other name credential), List.append_nil]

theorem admits_attach (gateway : Gateway) (credential : name ∈ credentialHeaders) :
    gateway.admits (attach client name value) = gateway.admits client := by
  have accepts : gateway.reader.accepts (attach client name value) =
      gateway.reader.accepts client := by
    unfold RestReader.accepts RestReader.isInvalidJson
    rw [get_attach]
    rfl
  have key : getPayloadKey (attach client name value) = getPayloadKey client := by
    unfold getPayloadKey
    rw [get_attach]
    rfl
  unfold Gateway.admits
  rw [accepts, ips_attach value gateway credential]
  unfold AuthProcessor.admits
  cases gateway.auth with
  | noop => rfl
  | simple strategy => dsimp only; rw [authenticateRequest_attach]
  | basic strategy getKey => dsimp only; rw [authenticateRequest_attach, key]; rfl

end Attach

theorem sendRest_attach_ne {α : Type} {codec : AuthorityCodec α} {gateway : Gateway}
    {orders : RequestOrders} {quorum : Query} {client : ClientRequest} {sent : UpstreamRequest α}
    {name value other : Bytes} (credential : name ∈ credentialHeaders)
    (free : name ∉ connector.additionalHeaders)
    (isSent : connector.sendRest codec gateway.reader.validJson orders.send quorum
      (gateway.reader.requestOf orders.clone client) = .ok sent) (differ : value ≠ other) :
    connector.sendRest codec gateway.reader.validJson orders.send quorum
        (gateway.reader.requestOf orders.clone (attach client name value)) ≠
      connector.sendRest codec gateway.reader.validJson orders.send quorum
        (gateway.reader.requestOf orders.clone (attach client name other)) := by
  have plain : ∀ name ∈ credentialHeaders, canonicalHeaderKey name = name ∧
      defaultRequestHeaderDeny.contains name = false ∧ name ≠ contentTypeHeader := by
    decide +kernel
  obtain ⟨canonical, allowed, noContentType⟩ := plain name credential
  have header (value : Bytes) :
      connector.restHeader gateway.reader.validJson orders.send
          (gateway.reader.requestOf orders.clone (attach client name value)) name =
        connector.configHeader name ++ (client.header name ++ [[], value]) := by
    rw [restHeader_requestOf, header_attach, if_pos canonical, HttpConnector.forwarded, allowed]
    simp [free, noContentType]
  have result (value : Bytes) := HttpConnector.sendRest_eq_map codec gateway.reader.validJson
    connector connector orders.send orders.send quorum rfl rfl
    (show (gateway.reader.requestOf orders.clone (attach client name value)).method =
      (gateway.reader.requestOf orders.clone client).method from rfl) rfl rfl
  intro same
  rw [result value, result other, isSent] at same
  have headers := congrArg (fun sent : UpstreamRequest α => sent.header name)
    (Except.ok.inj same)
  dsimp only at headers
  rw [header, header, List.append_cancel_left_eq, List.append_cancel_left_eq] at headers
  exact differ (by simpa using headers)

/-- Two admitted requests that differ only in credentials lead to the same request at an
upstream, as soon as it is sent any, exactly if the connector has values of its own
configured for all credentials. -/
theorem credentials_confined_iff {α : Type} {codec : AuthorityCodec α} (gateway : Gateway)
    (order : RangeOrder (Entry Bytes Bytes)) (config : ApiConnectorConfig) (upstreamId : String)
    {orders : RequestOrders} {client : ClientRequest} {sent : UpstreamRequest α}
    (isSent : gateway.forward codec (newHttpConnector order config upstreamId) orders client =
      some (.ok sent)) :
    (∀ first second, DifferInCredentials first second → ∀ firstOrders secondOrders result result',
      gateway.forward codec (newHttpConnector order config upstreamId) firstOrders first =
        some result →
      gateway.forward codec (newHttpConnector order config upstreamId) secondOrders second =
        some result' → result = result') ↔
    ∀ name ∈ credentialHeaders, ∃ spelling ∈ config.headers, canonicalHeaderKey spelling = name := by
  have configured (name : Bytes) :
      name ∈ (newHttpConnector order config upstreamId).additionalHeaders ↔
        ∃ spelling ∈ config.headers, canonicalHeaderKey spelling = name :=
    mem_canonicalizeHeaders order
  constructor
  · intro confined name credential
    rw [← configured]
    by_contra free
    obtain ⟨admitted, isResult⟩ := Gateway.forward_eq_some.mp isSent
    have lines : DifferInCredentials (attach client name (bytes "a"))
        (attach client name (bytes "b")) := by
      have canonical : ∀ name ∈ credentialHeaders, canonicalHeaderKey name ∈ credentialHeaders := by
        decide +kernel
      refine ⟨client.lines ++ [(name, []), (name, bytes "b")], rfl, ?_⟩
      refine List.rel_append (List.forall₂_same.mpr fun line _ => ⟨rfl, .inl rfl⟩) ?_
      exact .cons ⟨rfl, .inl rfl⟩ (.cons ⟨rfl, .inr (canonical name credential)⟩ .nil)
    have admits (value : Bytes) : gateway.admits (attach client name value) = true := by
      rw [admits_attach value gateway credential, admitted]
    have distinct : bytes "a" ≠ bytes "b" := by decide
    exact sendRest_attach_ne credential free isResult distinct
      (confined _ _ lines orders orders _ _ (Gateway.forward_eq_some.mpr ⟨admits _, rfl⟩)
        (Gateway.forward_eq_some.mpr ⟨admits _, rfl⟩))
  · intro all first second differ firstOrders secondOrders result result' isFirst isSecond
    obtain ⟨-, rfl⟩ := Gateway.forward_eq_some.mp isFirst
    obtain ⟨-, rfl⟩ := Gateway.forward_eq_some.mp isSecond
    have query : second.query = first.query := by
      obtain ⟨lines, rfl, -⟩ := differ
      rfl
    rw [query]
    exact sendRest_eq_of_differ codec gateway
      (fun name credential => (configured name).mpr (all name credential)) differ _ _ _

section TwoKeys

def twoKeys : Gateway where
  reader := ⟨[bytes "GET#/a/*"], fun _ => true, fun _ => true⟩
  netip := ⟨fun _ => none, fun _ => none, fun _ => none, fun _ => []⟩
  trustedProxies := []
  auth := .basic .noop fun key =>
    if [bytes "1", bytes "2"].contains key then some ⟨fun _ => true, fun _ _ => true⟩ else none

def withKey (key : String) : ClientRequest where
  method := bytes "GET"
  pathKey := []
  restPath := bytes "a/b"
  rawQuery := []
  lines := [(bytes "x-nodecore-key", bytes key)]
  body := []
  remoteAddr := []

def withCredentials : ApiConnectorConfig where
  url := keyed.url
  headers := (AList.singleton (bytes "X-Nodecore-Token") (bytes "t")).insert
    (bytes "x-nodecore-key") (bytes "k")

def forwardKey (config : ApiConnectorConfig) (key : String) :
    Option (Except SendError (UpstreamRequest {text : Bytes // text.all (isPlain "/?#") = true})) :=
  twoKeys.forward plainAuthority (newHttpConnector (.stored _) config "u")
    ⟨.stored _, ⟨.stored _, .stored _⟩⟩ (withKey key)

theorem differ_withKey : DifferInCredentials (withKey "1") (withKey "2") :=
  ⟨_, rfl, .cons ⟨rfl, .inr (by decide +kernel)⟩ .nil⟩

theorem both_keys_withheld :
    ∃ sent, forwardKey withCredentials "1" = some (.ok sent) ∧
      forwardKey withCredentials "2" = some (.ok sent) := by
  have isOk (key : String) (known : ((forwardKey withCredentials key).bind
      Except.toOption).isSome = true) :
      ∃ sent, forwardKey withCredentials key = some (.ok sent) := by
    obtain ⟨sent, isSent⟩ := Option.isSome_iff_exists.mp known
    obtain ⟨result, isResult, isOk⟩ := Option.bind_eq_some_iff.mp isSent
    cases result with
    | error error => cases isOk
    | ok result => exact ⟨result, isResult⟩
  obtain ⟨first, isFirst⟩ := isOk "1" (by decide +kernel)
  obtain ⟨second, isSecond⟩ := isOk "2" (by decide +kernel)
  have same := (credentials_confined_iff twoKeys (.stored _) withCredentials "u" isFirst).mpr
    (by decide +kernel) (withKey "1") (withKey "2") differ_withKey _ _ _ _ isFirst isSecond
  exact ⟨first, isFirst, by rw [isSecond, same]⟩

/-- The upstream learns the key of the client. -/
theorem key_leaves_gateway :
    DifferInCredentials (withKey "1") (withKey "2") ∧
      ["1", "2"].map (fun key => ((forwardKey keyed key).bind Except.toOption).map fun sent =>
        sent.header xNodecoreKey) = [some [bytes "1"], some [bytes "2"]] :=
  ⟨differ_withKey, by decide +kernel⟩

end TwoKeys

end Nodecore.Server
