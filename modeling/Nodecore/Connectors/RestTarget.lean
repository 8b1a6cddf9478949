/-
# The URL of a REST request

The URL for an upstream is put together as a text.  What the upstream is asked for is what
the library reads in that text.  The results below follow the text through the steps of the
connector: as long as the path in it is free of the delimiters of a URL, it is read as the
endpoint with the path behind its own, and each query that is put over it changes the values
of its own keys and nothing else.
-/

import Nodecore.Connectors.HttpConnector

namespace Nodecore.Connectors

open Lib Lib.Url Utils

variable {α : Type} {codec : AuthorityCodec α}

/-- The path of an endpoint that others are put behind. -/
def basePath (base : Url α) : Bytes :=
  if base.path.text.getLast? = some (byte '/') then base.path.decoded.dropLast
  else base.path.decoded

/-- A URL is an endpoint with a path behind its own and with other values in its query, which is
the text of the endpoint unless it was written anew. -/
structure Extends (base : Url α) (path : Bytes) (values : Bytes → List Bytes) (rewritten : Bool)
    (url : Url α) : Prop where
  scheme : url.scheme = base.scheme
  authority : url.authority = base.authority
  path : url.path.decoded = basePath base ++ path
  query : ∀ key, url.query.values key = values key
  kept : rewritten = false → url.rawQuery = base.rawQuery
  readable : rewritten = true → isReadable url.rawQuery = true
  fragment : url.fragment.decoded = []

/-- A text without a fragment that is read as such a URL. -/
structure IsTarget (codec : AuthorityCodec α) (base : Url α) (path : Bytes)
    (values : Bytes → List Bytes) (rewritten : Bool) (target : Bytes) : Prop where
  whole : byte '#' ∉ target
  read : ∃ url, parse codec target = some url ∧ Extends base path values rewritten url

def trimSlash (path : Bytes) : Bytes :=
  if path.getLast? = some (byte '/') then path.dropLast else path

theorem trimSlash_prefix (path : Bytes) : trimSlash path <+: path := by
  unfold trimSlash
  split_ifs
  · exact List.dropLast_prefix path
  · exact List.prefix_rfl

theorem unescape_trimSlash (path : Escaped .path) :
    unescape .path (trimSlash path.text) =
      some (if path.text.getLast? = some (byte '/') then path.decoded.dropLast
        else path.decoded) := by
  unfold trimSlash
  split_ifs with slash
  · obtain ⟨front, isText⟩ := List.getLast?_eq_some_iff.mp slash
    have isRead := path.unescape_eq
    rw [isText] at isRead
    obtain ⟨decoded, isFront, isDecoded⟩ :=
      exists_of_unescape_concat (by decide) (by decide) isRead
    rw [isText, List.dropLast_concat, isFront, isDecoded, List.dropLast_concat]
  · exact path.unescape_eq

namespace Written

variable {written : Written}

def front (written : Written) : Bytes :=
  written.scheme ++ bytes "://" ++ written.authority ++ written.path

theorem plain_front (ok : written.Ok) : (front written).all (isPlain "?#") = true := by
  have schemeByte : ∀ b, isSchemeByte b = true → isPlain "?#" b = true :=
    forall_byte (by decide +kernel)
  have authorityByte : ∀ b, isPlain "/?#" b = true → isPlain "?#" b = true :=
    forall_byte (by decide +kernel)
  rw [front, List.all_append, List.all_append, List.all_append,
    all_imp schemeByte (Bool.and_eq_true_iff.mp ok.scheme).2, all_imp authorityByte ok.authority,
    ok.pathPlain]
  decide

theorem cut_text (ok : written.Ok) :
    cut (byte '?') written.text = (front written, written.query.getD []) := by
  have absent := not_mem_of_all_isPlain (plain_front ok) (b := byte '?') (by decide)
  rw [Written.text, ← front]
  cases written.query with
  | none => rw [Option.elim_none, List.append_nil, cut_of_not_mem absent, Option.getD_none]
  | some query => rw [Option.elim_some, cut_append_cons absent, Option.getD_some]

/-- Only a slash of the path is at the end of what has an authority. -/
theorem trimSlash_front (ok : written.Ok) (hosted : written.authority ≠ []) :
    trimSlash (front written) =
      written.scheme ++ bytes "://" ++ written.authority ++ trimSlash written.path := by
  unfold trimSlash front
  cases isPath : written.path with
  | nil =>
    have absent := not_mem_of_all_isPlain ok.authority (b := byte '/') (by decide)
    have last : (written.scheme ++ bytes "://" ++ written.authority).getLast? ≠
        some (byte '/') := by
      rw [List.getLast?_append_of_ne_nil _ hosted]
      exact fun isLast => absent (List.mem_of_getLast? isLast)
    rw [List.append_nil, if_neg last]
    simp
  | cons b path =>
    rw [List.getLast?_append_cons, List.dropLast_append_cons]
    split_ifs <;> rfl

/-- The endpoint with another path behind its own. -/
def behind (written : Written) (path : Bytes) : Written :=
  { written with
    path := trimSlash written.path ++ path
    query := if (written.query.getD []).isEmpty then none else written.query }

theorem joinEndpointAndPath_text (ok : written.Ok) (hosted : written.authority ≠ []) {path : Bytes}
    (slash : path.head? = some (byte '/')) :
    joinEndpointAndPath written.text path = (behind written path).text := by
  have trimmed := trimSlash_front ok hosted
  unfold trimSlash at trimmed
  rw [joinEndpointAndPath, cut_text ok]
  simp only [slash, and_true, trimmed]
  rw [behind, Written.text]
  cases written.query with
  | none => simp [trimSlash]
  | some query => cases query <;> simp [trimSlash]

theorem isPath_behind (ok : written.Ok) {path : Bytes} (slash : path.head? = some (byte '/'))
    (plain : path.all (isPlain "?#") = true) :
    (trimSlash written.path ++ path).head? = some (byte '/') ∧
      (trimSlash written.path ++ path).all (isPlain "?#") = true := by
  obtain ⟨rest, isPath⟩ := trimSlash_prefix written.path
  constructor
  · cases isTrimmed : trimSlash written.path with
    | nil => exact slash
    | cons b front =>
      rw [isTrimmed] at isPath
      rcases ok.path with isNil | starts
      · rw [isNil] at isPath
        cases isPath
      · rw [← isPath] at starts
        exact starts
  · have pathPlain := ok.pathPlain
    rw [← isPath, List.all_append, Bool.and_eq_true] at pathPlain
    rw [List.all_append, plain, pathPlain.1]
    rfl

theorem ok_behind (ok : written.Ok) {path : Bytes} (slash : path.head? = some (byte '/'))
    (plain : path.all (isPlain "?#") = true) : (behind written path).Ok := by
  obtain ⟨starts, pathPlain⟩ := isPath_behind ok slash plain
  refine ⟨ok.scheme, ok.authority, .inr starts, pathPlain, ?_⟩
  · have queryPlain := ok.query
    rw [behind]
    dsimp only
    split_ifs
    · rfl
    · exact queryPlain

end Written

variable {base : Url α} {endpoint path decoded : Bytes}

theorem isTarget_joinEndpointAndPath (parsed : parse codec endpoint = some base)
    (whole : byte '#' ∉ endpoint) (hosted : codec.print base.authority ≠ [])
    (slash : path.head? = some (byte '/')) (plain : path.all (isPlain "?#") = true)
    (isRead : unescape .path path = some decoded) :
    IsTarget codec base decoded base.query.values false (joinEndpointAndPath endpoint path) := by
  obtain ⟨written, ok, rfl, isScheme, isAuthority, isPath, isQuery⟩ :=
    exists_written codec parsed whole
  have host : written.authority ≠ [] := by
    intro isNil
    rw [isNil] at isAuthority
    exact hosted (codec.print_nil isAuthority)
  have ok' := Written.ok_behind ok slash plain
  have isDecoded : unescape .path (trimSlash written.path ++ path) =
      some (basePath base ++ decoded) := by
    rw [← isPath, unescape_append (unescape_trimSlash base.path), isRead]
    rfl
  have readable : (unescape .path (trimSlash written.path ++ path)).isSome = true := by
    rw [isDecoded]
    rfl
  have isPath' : Escaped.read? .path (trimSlash written.path ++ path) = some ⟨_, readable⟩ :=
    Escaped.read?_eq_some.mpr rfl
  have again := parse_text codec ok'
  rw [show (Written.behind written path).scheme = written.scheme from rfl, ← isScheme,
    show (Written.behind written path).authority = written.authority from rfl, isAuthority,
    show (Written.behind written path).path = trimSlash written.path ++ path from rfl,
    isPath'] at again
  rw [Written.joinEndpointAndPath_text ok host slash]
  have sameQuery : (Written.behind written path).query.getD [] = base.rawQuery := by
    rw [isQuery, Written.behind]
    dsimp only
    split_ifs with isNil
    · rw [List.isEmpty_iff.mp isNil]
      rfl
    · rfl
  refine ⟨not_mem_of_all_isPlain ok'.isPlain_text (by decide), _, again, rfl, rfl,
    Escaped.decoded_eq isDecoded, ?_, fun _ => sameQuery, (by intro rewritten; cases rewritten), rfl⟩
  intro key
  rw [Url.query, Url.query, ← sameQuery]

/-- The values with those of another query for the keys that one has. -/
def overridden (values : Bytes → List Bytes) (extra : Query) (key : Bytes) : List Bytes :=
  if key ∈ extra.keys then extra.values key else values key

theorem eq_nil_of_encodeQuery {extra : Query} (isNil : encodeQuery extra = []) : extra = [] := by
  have grouped := parseQuery_encodeQuery extra
  rw [isNil] at grouped
  have none (key : Bytes) : extra.values key = [] := by
    rw [← Query.values_grouped, ← grouped]
    rfl
  cases extra with
  | nil => rfl
  | cons parameter extra =>
    have isHead := none parameter.1
    simp [Query.values] at isHead

theorem IsTarget.appendQuery {path target : Bytes} {values : Bytes → List Bytes} {rewritten : Bool}
    (isTarget : IsTarget codec base path values rewritten target) (extra : Query) :
    ∃ target', Connectors.appendQuery codec target (encodeQuery extra) = some target' ∧
      IsTarget codec base path (overridden values extra) (rewritten || !extra.isEmpty) target' := by
  obtain ⟨url, parsed, same⟩ := isTarget.read
  rw [Connectors.appendQuery]
  by_cases isEmpty : (encodeQuery extra).isEmpty = true
  · rw [if_pos isEmpty]
    obtain rfl := eq_nil_of_encodeQuery (List.isEmpty_iff.mp isEmpty)
    rw [List.isEmpty_nil, Bool.not_true, Bool.or_false]
    exact ⟨target, rfl, isTarget⟩
  · have given : (!extra.isEmpty) = true := by
      cases extra with
      | nil => exact absurd rfl isEmpty
      | cons => rfl
    rw [given, Bool.or_true]
    rw [if_neg isEmpty, parsed, Option.bind_some, isReadable_encodeQuery, if_pos rfl]
    have read := isRead_of_parse parsed
    have read' : IsRead codec { url with
        rawQuery := encodeQuery (url.query.override (parseQuery (encodeQuery extra))) } :=
      ⟨read.scheme, read.lower, read.authority, read.path, read.pathPlain, isPlain_encodeQuery _⟩
    obtain ⟨again, parsed', scheme, authority, isPath, rawQuery, fragment⟩ :=
      parse_print read' same.fragment
    refine ⟨_, rfl, mark_not_mem_print read' same.fragment, again, parsed', ?_, ?_, ?_, ?_,
      (by intro kept; cases kept), ?_, fragment⟩
    · rw [scheme, same.scheme]
    · rw [authority, same.authority]
    · rw [isPath, same.path]
    · intro key
      have keys : key ∈ (parseQuery (encodeQuery extra)).keys ↔ key ∈ extra.keys := by
        rw [parseQuery_encodeQuery, Query.mem_keys, Query.values_grouped, ← Query.mem_keys]
      rw [Url.query, rawQuery, parseQuery_encodeQuery, Query.values_grouped, Query.values_override,
        overridden, ← same.query]
      simp only [keys]
      rw [parseQuery_encodeQuery, Query.values_grouped]
    · intro _
      rw [rawQuery, isReadable_encodeQuery]

theorem isTarget_targetOf (parsed : parse codec endpoint = some base) (whole : byte '#' ∉ endpoint)
    (hosted : codec.print base.authority ≠ []) (slash : path.head? = some (byte '/'))
    (plain : path.all (isPlain "?#") = true) (isRead : unescape .path path = some decoded)
    (queryParams quorum : Query) :
    ∃ target, targetOf codec endpoint path queryParams quorum = some target ∧
      IsTarget codec base decoded (overridden (overridden base.query.values queryParams) quorum)
        (!queryParams.isEmpty || !quorum.isEmpty) target := by
  have joined := isTarget_joinEndpointAndPath parsed whole hosted slash plain isRead
  obtain ⟨first, isFirst, isTarget⟩ := joined.appendQuery queryParams
  obtain ⟨second, isSecond, isTarget⟩ := isTarget.appendQuery quorum
  exact ⟨second, by rw [targetOf, isFirst, Option.bind_some, isSecond], isTarget⟩

/-- A path that stands in a URL as it is. -/
structure IsPath (path : Bytes) : Prop where
  slash : path.head? = some (byte '/')
  plain : path.all (isPlain "?#") = true
  readable : (unescape .path path).isSome = true

namespace HttpConnector

variable {validJson : Bytes → Bool} {connector : HttpConnector} {orders : Orders} {quorum : Query}
  {request : RestRequest} {sent : UpstreamRequest α} {first second : RestRequest}

theorem sendRest_eq_map (codec : AuthorityCodec α) (validJson : Bytes → Bool)
    (connector connector' : HttpConnector) (orders other : Orders) (quorum : Query)
    (endpoint : connector.endpoint = connector'.endpoint)
    (upstreamId : connector.upstreamId = connector'.upstreamId)
    (method : first.method = second.method) (pathParams : first.pathParams = second.pathParams)
    (queryParams : first.queryParams = second.queryParams) :
    connector.sendRest codec validJson orders quorum first =
      (connector'.sendRest codec validJson other quorum second).map fun sent =>
        { sent with
          header := connector.restHeader validJson orders first
          body := first.body } := by
  unfold sendRest
  rw [endpoint, upstreamId, method, pathParams, queryParams]
  split
  · rfl
  · split_ifs
    · rfl
    · split
      · rfl
      · unfold newRequest
        split_ifs
        · cases parse codec _ <;> rfl
        · rfl

theorem sendRest_congr (codec : AuthorityCodec α) {validJson : Bytes → Bool}
    {connector : HttpConnector} {orders other : Orders} (quorum : Query)
    (method : first.method = second.method) (pathParams : first.pathParams = second.pathParams)
    (queryParams : first.queryParams = second.queryParams) (body : first.body = second.body)
    (header : connector.restHeader validJson orders first =
      connector.restHeader validJson other second) :
    connector.sendRest codec validJson orders quorum first =
      connector.sendRest codec validJson other quorum second := by
  rw [sendRest_eq_map codec validJson connector connector orders other quorum rfl rfl method
    pathParams queryParams, header, body]
  exact (sendRest_eq_map codec validJson connector _ other other quorum rfl rfl rfl rfl rfl).symm

theorem exists_of_sendRest
    (isSent : connector.sendRest codec validJson orders quorum request = .ok sent) :
    ∃ verb path target, buildRestURL request.method request.pathParams = some (verb, path) ∧
      verb ≠ [] ∧ verb.all validHeaderFieldByte = true ∧
      sent.header = connector.restHeader validJson orders request ∧
      targetOf codec connector.endpoint path request.queryParams quorum = some target ∧
      parse codec target = some sent.url := by
  unfold sendRest at isSent
  split at isSent
  · cases isSent
  · rename_i verb path built
    split_ifs at isSent with given
    split at isSent
    · cases isSent
    · rename_i target isTarget
      split at isSent
      · cases isSent
      · rename_i isRequest
        cases isSent
        rw [newRequest] at isRequest
        split_ifs at isRequest with token
        obtain ⟨url, isUrl, rfl⟩ := Option.map_eq_some_iff.mp isRequest
        have named : verb ≠ [] := by
          rintro rfl
          exact given rfl
        exact ⟨verb, path, target, built, named, token, rfl, isTarget, isUrl⟩

theorem exists_sendRest (connector : HttpConnector)
    (parsed : parse codec connector.endpoint = some base) (whole : byte '#' ∉ connector.endpoint)
    (hosted : codec.print base.authority ≠ []) {verb path decoded : Bytes}
    (built : buildRestURL request.method request.pathParams = some (verb, path)) (named : verb ≠ [])
    (token : verb.all validHeaderFieldByte = true) (isPath : IsPath path)
    (isDecoded : unescape .path path = some decoded) :
    ∃ sent, connector.sendRest codec validJson orders quorum request = .ok sent ∧
      Extends base decoded (overridden (overridden base.query.values request.queryParams) quorum)
        (!request.queryParams.isEmpty || !quorum.isEmpty) sent.url := by
  obtain ⟨target, isTarget, -, url, isUrl, same⟩ := isTarget_targetOf parsed whole hosted
    isPath.slash isPath.plain isDecoded request.queryParams quorum
  have some_path : path ≠ [] := by
    rintro rfl
    cases isPath.slash
  have given : ¬ (verb.isEmpty || path.isEmpty) = true := by simp [named, some_path]
  refine ⟨⟨verb, url, connector.restHeader validJson orders request, request.body⟩, ?_, same⟩
  unfold sendRest
  rw [built]
  dsimp only
  rw [if_neg given, isTarget]
  dsimp only
  rw [newRequest, if_pos token, isUrl]
  rfl

end HttpConnector

/-- The headers that the transport does not take from a request but writes itself. -/
def transportHeaders : List Bytes :=
  ["Host", "Content-Length", "Transfer-Encoding", "Trailer"].map bytes

/-- The headers of a request that reach the upstream. -/
def wireHeader (header : Header) : Header := fun key =>
  if transportHeaders.contains key then [] else header key

/-- A parameter that is written in the query of an endpoint arrives: with all values of its key,
and as it is written if it cannot be read. -/
def Arrives (base url : Url α) (text : Bytes) : Prop :=
  match parseParameter text with
  | some (key, _) => url.query.values key = base.query.values key
  | none => text ∈ parameters url.rawQuery

/-- Neither the gateway nor, failing that, the client sets the key of a parameter to other values.
What cannot be read is dropped with any other parameter. -/
def LeftAlone (base : Url α) (client quorum : Query) (text : Bytes) : Prop :=
  match parseParameter text with
  | some (key, _) =>
    if key ∈ quorum.keys then quorum.values key = base.query.values key
    else key ∈ client.keys → client.values key = base.query.values key
  | none => client = [] ∧ quorum = []

theorem arrives_iff_leftAlone {path text : Bytes} {client quorum : Query} {url : Url α}
    (same : Extends base path (overridden (overridden base.query.values client) quorum)
      (!client.isEmpty || !quorum.isEmpty) url) (configured : text ∈ parameters base.rawQuery) :
    Arrives base url text ↔ LeftAlone base client quorum text := by
  rw [Arrives, LeftAlone]
  cases isRead : parseParameter text with
  | some parameter =>
    dsimp only
    rw [same.query, overridden, overridden]
    split_ifs with ofGateway ofClient
    · exact Iff.rfl
    · exact ⟨fun same _ => same, fun all => all ofClient⟩
    · exact iff_of_true rfl fun ofClient' => absurd ofClient' ofClient
  | none =>
    dsimp only
    constructor
    · intro arrived
      by_contra given
      have rewritten : (!client.isEmpty || !quorum.isEmpty) = true := by
        cases client <;> cases quorum <;> simp_all
      have isRead' := List.all_eq_true.mp (same.readable rewritten) text arrived
      rw [isRead] at isRead'
      cases isRead'
    · rintro ⟨rfl, rfl⟩
      rw [same.kept rfl]
      exact configured

theorem exists_sendRest_order {config : ApiConnectorConfig} {upstreamId : String}
    {order : RangeOrder (Entry Bytes Bytes)} {validJson : Bytes → Bool} {orders : HttpConnector.Orders}
    {quorum : Query} {request : RestRequest} {sent : UpstreamRequest α}
    (isSent : (newHttpConnector order config upstreamId).sendRest codec validJson orders quorum
      request = .ok sent) (other : RangeOrder (Entry Bytes Bytes)) :
    ∃ again, (newHttpConnector other config upstreamId).sendRest codec validJson orders quorum
      request = .ok again := by
  have same := HttpConnector.sendRest_eq_map codec validJson
    (newHttpConnector other config upstreamId) (newHttpConnector order config upstreamId) orders
    orders quorum rfl rfl (rfl : request.method = request.method) rfl rfl
  rw [isSent] at same
  exact ⟨_, same⟩

theorem wireHeader_of_lookup {connector : HttpConnector} {validJson : Bytes → Bool}
    {orders : HttpConnector.Orders} {quorum : Query} {request : RestRequest} {key value : Bytes}
    {sent : UpstreamRequest α}
    (isSent : connector.sendRest codec validJson orders quorum request = .ok sent)
    (taken : key ∉ transportHeaders) (configured : connector.additionalHeaders.lookup key = some value) :
    wireHeader sent.header key = [value] := by
  obtain ⟨-, -, -, -, -, -, isHeader, -, -⟩ := HttpConnector.exists_of_sendRest isSent
  rw [wireHeader, if_neg (mt List.contains_iff_mem.mp taken), isHeader]
  exact HttpConnector.restHeader_of_lookup validJson _ configured orders request

/-- A configured header arrives with its value, in all orders in which the connector can be made,
exactly if the transport does not write it itself and no other spelling has another value.  A
parameter in the query of the endpoint arrives exactly if it is left alone. -/
theorem configured_arrives_iff {order : RangeOrder (Entry Bytes Bytes)} {config : ApiConnectorConfig}
    {upstreamId : String} {validJson : Bytes → Bool} {orders : HttpConnector.Orders} {quorum : Query}
    {request : RestRequest} {sent : UpstreamRequest α}
    (isSent : (newHttpConnector order config upstreamId).sendRest codec validJson orders quorum
      request = .ok sent) :
    (∀ key value, config.headers.lookup key = some value →
      ((∀ other again, (newHttpConnector other config upstreamId).sendRest codec validJson orders
          quorum request = .ok again → wireHeader again.header (canonicalHeaderKey key) = [value]) ↔
        canonicalHeaderKey key ∉ transportHeaders ∧ IsOnlyValue config.headers key value)) ∧
    ∀ base verb path, parse codec config.url = some base → byte '#' ∉ config.url →
      codec.print base.authority ≠ [] →
      buildRestURL request.method request.pathParams = some (verb, path) → IsPath path →
      ∀ text ∈ parameters base.rawQuery,
        (Arrives base sent.url text ↔ LeftAlone base request.queryParams quorum text) := by
  constructor
  · intro key value found
    constructor
    · intro arrives
      have taken : canonicalHeaderKey key ∉ transportHeaders := by
        intro owned
        have none := arrives order sent isSent
        rw [wireHeader, if_pos (List.contains_iff_mem.mpr owned)] at none
        cases none
      refine ⟨taken, ?_⟩
      -- The connector that comes to the other spelling last sends its value.
      intro spelling value' found' isKey
      obtain ⟨other, last⟩ := exists_lookup_canonicalizeHeaders found'
      obtain ⟨again, isAgain⟩ := exists_sendRest_order isSent other
      rw [isKey] at last
      have isValue := arrives _ again isAgain
      rw [wireHeader_of_lookup isAgain taken last] at isValue
      exact List.head_eq_of_cons_eq isValue
    · rintro ⟨taken, only⟩ other again isAgain
      exact wireHeader_of_lookup isAgain taken (lookup_canonicalizeHeaders other found only)
  · intro base verb' path' parsed whole hosted built' isPath text configured
    obtain ⟨verb, path, -, built, named, token, -, -, -⟩ := HttpConnector.exists_of_sendRest isSent
    rw [built, Option.some_inj, Prod.mk.injEq] at built'
    obtain ⟨rfl, rfl⟩ := built'
    obtain ⟨decoded, isDecoded⟩ := Option.isSome_iff_exists.mp isPath.readable
    obtain ⟨again, isAgain, same⟩ := HttpConnector.exists_sendRest
      (newHttpConnector order config upstreamId) parsed whole hosted built named token isPath
      isDecoded
    rw [isSent, Except.ok.injEq] at isAgain
    rw [isAgain]
    exact arrives_iff_leftAlone same configured

section Keyed

def keyed : ApiConnectorConfig where
  url := bytes "http://h/v1?key=x"
  headers := AList.singleton (bytes "Authorization") (bytes "t")

def keyedConnector : HttpConnector := newHttpConnector (.stored _) keyed "u"

def keyedUrl : Url {text : Bytes // text.all (isPlain "/?#") = true} :=
  (parse plainAuthority keyed.url).get (by decide +kernel)

def asking (query : Query) : RestRequest where
  method := bytes "GET#/a/*"
  requestParams := some {
    pathParams := [bytes "b"]
    headers := AList.singleton (bytes "authorization") [bytes "u"]
    queryParams := query }
  body := []

def sendKeyed (query : Query) :
    Except SendError (UpstreamRequest {text : Bytes // text.all (isPlain "/?#") = true}) :=
  keyedConnector.sendRest plainAuthority (fun _ => true) ⟨.stored _, .stored _⟩ [] (asking query)

theorem parse_keyed : parse plainAuthority keyed.url = some keyedUrl := (Option.some_get _).symm

theorem isPath_b : IsPath (bytes "/a/b") :=
  ⟨by decide +kernel, by decide +kernel, by decide +kernel⟩

theorem exists_sendKeyed (query : Query) :
    ∃ sent, sendKeyed query = .ok sent ∧
      Extends keyedUrl (bytes "/a/b") (overridden (overridden keyedUrl.query.values query) [])
        (!query.isEmpty || false) sent.url := by
  have built : buildRestURL (bytes "GET#/a/*") [bytes "b"] = some (bytes "GET", bytes "/a/b") := by
    decide +kernel
  exact HttpConnector.exists_sendRest keyedConnector parse_keyed (by decide +kernel)
    (by decide +kernel) built (by decide +kernel) (by decide +kernel) isPath_b (by decide +kernel)

theorem key_and_token_arrive :
    ∃ sent, sendKeyed [(bytes "q", bytes "1")] = .ok sent ∧
      wireHeader sent.header (bytes "Authorization") = [bytes "t"] ∧
      sent.url.query.values (bytes "key") = [bytes "x"] := by
  obtain ⟨sent, isSent, -⟩ := exists_sendKeyed [(bytes "q", bytes "1")]
  obtain ⟨headers, query⟩ := configured_arrives_iff isSent
  refine ⟨sent, isSent, ?_, ?_⟩
  · refine (headers (bytes "Authorization") (bytes "t") (by decide +kernel)).mpr
      ⟨by decide +kernel, ?_⟩ _ _ isSent
    intro spelling other found _
    have isEntry := AList.mem_lookup_iff.mp found
    cases List.mem_singleton.mp isEntry
    rfl
  · have arrives := (query keyedUrl (bytes "GET") (bytes "/a/b") parse_keyed (by decide +kernel)
      (by decide +kernel) (by decide +kernel) isPath_b (bytes "key=x") (by decide +kernel)).mpr
    have isRead : parseParameter (bytes "key=x") = some (bytes "key", bytes "x") := by
      decide +kernel
    rw [Arrives, LeftAlone, isRead] at arrives
    exact (arrives (by decide +kernel)).trans (by decide +kernel)

/-- A client that sends the key of the endpoint replaces it. -/
theorem client_replaces_key :
    keyedUrl.query.values (bytes "key") = [bytes "x"] ∧
      ∃ sent, sendKeyed [(bytes "key", bytes "y")] = .ok sent ∧
        sent.url.query.values (bytes "key") = [bytes "y"] := by
  refine ⟨by decide +kernel, ?_⟩
  obtain ⟨sent, isSent, same⟩ := exists_sendKeyed [(bytes "key", bytes "y")]
  refine ⟨sent, isSent, ?_⟩
  rw [same.query]
  decide +kernel

end Keyed

end Nodecore.Connectors
