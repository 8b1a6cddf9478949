/-
# Signed replies of a native call

A native call holds several items.  Each item becomes one request, and the
responses come back in any order.  An item may carry a nonce; its reply is then
to be signed with that nonce, and a reply to an item without one is not signed.

Responses are tied back to their items by a map from the request id, which is
the item's id in decimal.  Items with equal ids share an entry of the map: the
item built last leaves its nonce there, and the replies to all of them are signed
with it.
-/

import Nodecore.Emerald.ResultStream
import Nodecore.Quorum.Signatures

namespace Nodecore.Emerald

open Lib Protocol

structure Signature where
  value : Bytes
  keyID : UInt64
  deriving DecidableEq, Repr

inductive SigningError
  | errSigningNotConfigured
  | unableToSign (cause : String)
  deriving DecidableEq, Repr

structure ResponseSigner where
  enabled : Bool
  sign : (nonce : UInt64) → (message : Bytes) → (source : String) → Except SigningError Signature

def signingUnavailable (nonce : UInt64) (signer : ResponseSigner) : Bool :=
  nonce != 0 && !signer.enabled

structure NativeCallReplySignature where
  nonce : UInt64
  signature : Bytes
  keyId : UInt64
  upstreamId : String
  deriving DecidableEq, Repr

/-- The signature of a result; nonce zero asks for none. -/
def buildReplySignature (signer : ResponseSigner) (nonce : UInt64) (result : Bytes)
    (source : String) : Except SigningError (Option NativeCallReplySignature) :=
  if nonce = 0 then .ok none
  else (signer.sign nonce result source).map fun sig =>
    some ⟨nonce, sig.value, sig.keyID, source⟩

structure ResponseFailure where
  message : String
  code : ℤ
  data : String := ""
  deriving DecidableEq, Repr

def clientError (cause : String) : ResponseFailure := ⟨"client error - " ++ cause, 400, ""⟩

def serverError : ResponseFailure := ⟨"internal server error", 500, ""⟩

def serverErrorWithCause (cause : String) : ResponseFailure :=
  ⟨"internal server error: " ++ cause, 500, ""⟩

def signingNotConfigured : String :=
  "Response signing requested via nonce but signing key is not configured"

/-- An item of the reply stream with its signature, or the failure it reports. -/
structure CallReply extends NativeCallReplyItem where
  signature : Option NativeCallReplySignature := none
  failure : Option ResponseFailure := none
  errorAsIs : Bytes := []
  deriving DecidableEq, Repr

def nativeCallErrorItem (requestID : UInt32) (failure : ResponseFailure)
    (metadata : ReplyMetadata) (errorAsIs : Bytes) : CallReply :=
  { toReplyMetadata := metadata, id := requestID, succeed := false, payload := [],
    chunked := false, finalChunk := false, failure := some failure, errorAsIs }

def nativeCallSuccessItem (requestID : UInt32) (metadata : ReplyMetadata) (payload : Bytes)
    (signature : Option NativeCallReplySignature) : CallReply :=
  { toReplyMetadata := metadata, id := requestID, succeed := true, payload,
    chunked := false, finalChunk := false, signature }

def noUpstream : ReplyMetadata := { upstreamId := "NoUpstream" }

structure RestData where
  pathParams : List String
  headers : List KeyValue
  queryParams : List KeyValue
  payload : Bytes
  deriving DecidableEq, Repr

structure NativeCallItem where
  id : UInt32
  method : String
  payload : Bytes
  nonce : UInt64
  restData : Option RestData := none
  deriving DecidableEq, Repr

/-- What the builders take from elsewhere: which payloads are JSON, and what mapping the
selectors of an item complains about. -/
structure CallContext where
  validJson : Bytes → Bool
  selectorFailure : NativeCallItem → Option String

structure BuiltRequest where
  id : String
  method : String
  payload : Bytes
  restData : Option RestData
  stream : Bool
  deriving DecidableEq, Repr

/-- `VERB#/path`, both halves nonempty. -/
def validRestMethodTemplate (method : String) : Bool :=
  let halves := cut (byte '#') (bytes method)
  !halves.1.isEmpty && !halves.2.isEmpty

/-- No payload stands for no parameters. -/
def jsonRpcPayload (item : NativeCallItem) : Bytes :=
  if item.payload.isEmpty then bytes "[]" else item.payload

section Build

variable (context : CallContext) (signer : ResponseSigner) (chunkSize : UInt32)

/-- The request of an item, or why there is none.  The checks of the two kinds of items
differ; both end with the selectors. -/
def buildRequest (item : NativeCallItem) : Except ResponseFailure BuiltRequest :=
  match item.restData with
  | some restData =>
    if validRestMethodTemplate item.method then
      match context.selectorFailure item with
      | some cause => .error (clientError cause)
      | none => .ok ⟨toString item.id.toNat, item.method, restData.payload, some restData,
          0 < chunkSize⟩
    else .error (clientError
      ("rest method must be in form VERB#path, got \"" ++ item.method ++ "\""))
  | none =>
    if context.validJson (jsonRpcPayload item) then
      match context.selectorFailure item with
      | some cause => .error (clientError cause)
      | none => .ok ⟨toString item.id.toNat, item.method, jsonRpcPayload item, none,
          0 < chunkSize⟩
    else .error (clientError "payload is not a valid JSON value")

/-- How an item is answered before any request is sent, or the request it becomes. -/
def prepare (item : NativeCallItem) : Except CallReply BuiltRequest :=
  if signingUnavailable item.nonce signer then
    .error (nativeCallErrorItem item.id (serverErrorWithCause signingNotConfigured) noUpstream [])
  else (buildRequest context chunkSize item).mapError fun failure =>
    nativeCallErrorItem item.id failure noUpstream []

/-- What a request id stands for while replies come back. -/
structure CallEntry where
  mode : StreamMode
  nonce : UInt64
  deriving DecidableEq, Repr

def entryOf (item : NativeCallItem) : CallEntry where
  mode := if item.restData.isSome then .passThroughStream else .unwrapJsonRpcResultStream
  nonce := item.nonce

def built (items : List NativeCallItem) : List (NativeCallItem × BuiltRequest) :=
  items.filterMap fun item =>
    (prepare context signer chunkSize item).toOption.map fun request => (item, request)

def preResponses (items : List NativeCallItem) : List CallReply :=
  items.filterMap fun item =>
    match prepare context signer chunkSize item with
    | .error reply => some reply
    | .ok _ => none

/-- One entry for each request id, replaced by each item of the same id. -/
def callEntries (requests : List (NativeCallItem × BuiltRequest)) : GoMap String CallEntry :=
  requests.foldl (fun entries (item, request) => entries.insert request.id (entryOf item)) ∅

end Build

structure StreamBody where
  reader : Reader
  resultStart : ℤ
  resultCounter : ResultCounter

structure UpstreamResponse where
  error : Option ResponseFailure
  stream : Option StreamBody
  result : Bytes
  headers : List (String × List String)

structure ResponseHolderWrapper where
  requestId : String
  upstreamId : String
  upstreamNodeVersion : String
  finalization : Option FinalizationData
  response : UpstreamResponse
  /-- What sending the next chunk of a streamed body returns. -/
  send : ℕ → Option String := fun _ => none
  cancelled : Option ℕ := none

def parseCallItemID (requestID : String) : UInt32 :=
  ((Quorum.parseUint 32 (bytes requestID)).map UInt32.ofNat).getD 0

namespace ResponseHolderWrapper

variable (wrapper : ResponseHolderWrapper)

/-- The call as the streaming of a body sees it. -/
def call : NativeCall where
  requestID := parseCallItemID wrapper.requestId
  upstreamID := wrapper.upstreamId
  upstreamNodeVersion := wrapper.upstreamNodeVersion
  finalization := wrapper.finalization
  header := wrapper.response.headers
  send := wrapper.send
  cancelled := wrapper.cancelled

def metadata : ReplyMetadata := wrapper.call.metadata

end ResponseHolderWrapper

def sendReply (signer : ResponseSigner) (wrapper : ResponseHolderWrapper) (nonce : UInt64)
    (mode : StreamMode) : List CallReply :=
  let requestID := parseCallItemID wrapper.requestId
  match wrapper.response.error, wrapper.response.stream with
  | some failure, _ =>
    [nativeCallErrorItem requestID failure wrapper.metadata wrapper.response.result]
  | none, some body =>
    let (emitter, err) := streamNativeCallBody wrapper.call body.reader mode body.resultStart
      body.resultCounter
    let chunks := emitter.items.map fun item => { toNativeCallReplyItem := item }
    match err with
    | some cause =>
      chunks ++ [nativeCallErrorItem requestID (serverErrorWithCause cause) wrapper.metadata []]
    | none => chunks
  | none, none =>
    match buildReplySignature signer nonce wrapper.response.result wrapper.upstreamId with
    | .error .errSigningNotConfigured =>
      [nativeCallErrorItem requestID (serverErrorWithCause signingNotConfigured)
        wrapper.metadata []]
    | .error (.unableToSign _) =>
      [nativeCallErrorItem requestID serverError wrapper.metadata []]
    | .ok signature =>
      [nativeCallSuccessItem requestID wrapper.metadata wrapper.response.result signature]

/-- The replies to one response.  A response of an unknown id is answered with an error. -/
def replyTo (signer : ResponseSigner) (entries : GoMap String CallEntry)
    (wrapper : ResponseHolderWrapper) : List CallReply :=
  match entries.lookup wrapper.requestId with
  | none => [nativeCallErrorItem (parseCallItemID wrapper.requestId) serverError
      { upstreamId := wrapper.upstreamId } []]
  | some entry => sendReply signer wrapper entry.nonce entry.mode

/-- What is sent: the answers given at once, then the replies to the responses in the order
in which they arrive. -/
def nativeCall (context : CallContext) (signer : ResponseSigner) (chunkSize : UInt32)
    (items : List NativeCallItem) (responses : List ResponseHolderWrapper) :
    List CallReply × List (List CallReply) :=
  (preResponses context signer chunkSize items,
    responses.map (replyTo signer (callEntries (built context signer chunkSize items))))

section Nonces

variable {context : CallContext} {signer : ResponseSigner} {chunkSize : UInt32}
  {request : BuiltRequest}

theorem id_of_buildRequest {item : NativeCallItem}
    (isBuilt : buildRequest context chunkSize item = .ok request) :
    request.id = toString item.id.toNat := by
  unfold buildRequest at isBuilt
  split at isBuilt
  all_goals
    split at isBuilt
    · split at isBuilt
      · cases isBuilt
      · exact Except.ok.inj isBuilt ▸ rfl
    · cases isBuilt

variable {items : List NativeCallItem}

theorem of_mem_built {item : NativeCallItem}
    (listed : (item, request) ∈ built context signer chunkSize items) :
    request.id = toString item.id.toNat ∧ (item.nonce ≠ 0 → signer.enabled = true) := by
  obtain ⟨found, -, isFound⟩ := List.mem_filterMap.mp listed
  obtain ⟨made, isMade, same⟩ := Option.map_eq_some_iff.mp isFound
  obtain ⟨rfl, rfl⟩ := Prod.mk.inj same
  unfold prepare at isMade
  split at isMade
  · cases isMade
  · rename_i available
    constructor
    · cases isBuilt : buildRequest context chunkSize found with
      | error failure => rw [isBuilt] at isMade; cases isMade
      | ok request =>
        rw [isBuilt] at isMade
        exact Option.some.inj isMade ▸ id_of_buildRequest isBuilt
    · intro asked
      simpa [signingUnavailable, asked] using available

theorem lookup_callEntries {requests : List (NativeCallItem × BuiltRequest)} {id : String}
    (some_item : ∃ pair ∈ requests, pair.2.id = id) :
    ∃ pair ∈ requests, pair.2.id = id ∧
      (callEntries requests).lookup id = some (entryOf pair.1) := by
  induction requests using List.reverseRecOn with
  | nil => simp at some_item
  | append_singleton requests pair ih =>
    obtain ⟨item, request⟩ := pair
    rw [callEntries, List.foldl_append, List.foldl_cons, List.foldl_nil]
    by_cases same : request.id = id
    · subst same
      exact ⟨(item, request), by simp, rfl, AList.lookup_insert _⟩
    · have earlier : ∃ pair ∈ requests, pair.2.id = id := by
        obtain ⟨found, listed, isId⟩ := some_item
        rcases List.mem_append.mp listed with before | last
        · exact ⟨found, before, isId⟩
        · rw [List.mem_singleton.mp last] at isId
          exact absurd isId same
      obtain ⟨found, listed, isId, entry⟩ := ih earlier
      refine ⟨found, List.mem_append_left _ listed, isId, ?_⟩
      rw [AList.lookup_insert_ne (Ne.symm same)]
      exact entry

/-- A response together with the item and the request it is for. -/
structure Arrival where
  item : NativeCallItem
  request : BuiltRequest
  response : ResponseHolderWrapper
  isFor : response.requestId = request.id

/-- A successful reply to the item is signed with its nonce over its payload, or not at all
if the nonce is zero. -/
def SignedAsAsked (signer : ResponseSigner) (item : NativeCallItem) (reply : CallReply) : Prop :=
  reply.succeed = true →
    (item.nonce ≠ 0 → ∃ sig, signer.sign item.nonce reply.payload reply.upstreamId = .ok sig ∧
      reply.signature = some ⟨item.nonce, sig.value, sig.keyID, reply.upstreamId⟩) ∧
    (item.nonce = 0 → reply.signature = none)

theorem signedAsAsked_sendReply {wrapper : ResponseHolderWrapper}
    (buffered : wrapper.response.stream = none) (item : NativeCallItem) (mode : StreamMode)
    {reply : CallReply} (sent : reply ∈ sendReply signer wrapper item.nonce mode) :
    SignedAsAsked signer item reply := by
  unfold sendReply at sent
  simp only [buffered] at sent
  split at sent
  · rw [List.mem_singleton.mp sent]
    intro succeed
    cases succeed
  · rename_i isStream
    cases isStream
  · split at sent
    · rw [List.mem_singleton.mp sent]
      intro succeed
      cases succeed
    · rw [List.mem_singleton.mp sent]
      intro succeed
      cases succeed
    · rename_i signature isSignature
      rw [List.mem_singleton.mp sent]
      intro _
      unfold buildReplySignature at isSignature
      split at isSignature
      · rename_i zero
        exact ⟨fun asked => absurd zero asked, fun _ => (Except.ok.inj isSignature).symm⟩
      · rename_i asked
        refine ⟨fun _ => ?_, fun zero => absurd zero asked⟩
        cases signs : signer.sign item.nonce wrapper.response.result wrapper.upstreamId with
        | error failure => rw [signs] at isSignature; cases isSignature
        | ok sig =>
          rw [signs] at isSignature
          exact ⟨sig, signs, (Except.ok.inj isSignature).symm⟩

theorem id_eq_of_mem_built {first second : NativeCallItem × BuiltRequest}
    (firstBuilt : first ∈ built context signer chunkSize items)
    (secondBuilt : second ∈ built context signer chunkSize items) :
    first.2.id = second.2.id ↔ first.1.id = second.1.id := by
  rw [(of_mem_built firstBuilt).1, (of_mem_built secondBuilt).1]
  constructor
  · intro same
    have digits := congrArg String.toList same
    simp only [Nat.toString_eq_repr, Nat.toList_repr] at digits
    have numbers := congrArg (Nat.ofDigitChars 10 · 0) digits
    exact UInt32.toNat_inj.mp (by simpa using numbers)
  · intro same
    rw [same]

def emptyResponse (request : BuiltRequest) : ResponseHolderWrapper where
  requestId := request.id
  upstreamId := ""
  upstreamNodeVersion := ""
  finalization := none
  response := ⟨none, none, [], []⟩

theorem nonce_eq_of_signedAsAsked {item other : NativeCallItem} {mode : StreamMode}
    (signs : other.nonce ≠ 0 → ∃ sig, signer.sign other.nonce [] "" = .ok sig)
    (asked : ∀ reply ∈ sendReply signer (emptyResponse request) other.nonce mode,
      SignedAsAsked signer item reply) : other.nonce = item.nonce := by
  by_cases zero : other.nonce = 0
  · have reply := asked (nativeCallSuccessItem (parseCallItemID request.id)
      (emptyResponse request).metadata [] none)
      (by simp [sendReply, emptyResponse, buildReplySignature, zero]) rfl
    rw [zero]
    by_contra nonzero
    obtain ⟨sig, -, signed⟩ := reply.1 (Ne.symm nonzero)
    cases signed
  · obtain ⟨sig, isSig⟩ := signs zero
    have reply := asked (nativeCallSuccessItem (parseCallItemID request.id)
      (emptyResponse request).metadata [] (some ⟨other.nonce, sig.value, sig.keyID, ""⟩))
      (by simp [sendReply, emptyResponse, buildReplySignature, zero, isSig, Except.map]) rfl
    by_cases unasked : item.nonce = 0
    · cases reply.2 unasked
    · obtain ⟨other, -, signed⟩ := reply.1 unasked
      exact congrArg NativeCallReplySignature.nonce (Option.some.inj signed)

/-- Whatever arrives in whatever order, the replies are signed as their items asked exactly
when items of equal ids that became requests carry equal nonces. -/
theorem signed_as_asked_iff (context : CallContext) (signer : ResponseSigner)
    (chunkSize : UInt32) (items : List NativeCallItem)
    (canSign : signer.enabled = true →
      ∀ nonce message source, ∃ sig, signer.sign nonce message source = .ok sig) :
    (∀ arrivals : List Arrival,
        (∀ arrival ∈ arrivals,
          (arrival.item, arrival.request) ∈ built context signer chunkSize items ∧
            arrival.response.response.stream = none) →
        List.Forall₂ (fun arrival replies =>
            ∀ reply ∈ replies, SignedAsAsked signer arrival.item reply)
          arrivals
          (nativeCall context signer chunkSize items (arrivals.map Arrival.response)).2) ↔
      ∀ first ∈ built context signer chunkSize items,
        ∀ second ∈ built context signer chunkSize items,
          first.1.id = second.1.id → first.1.nonce = second.1.nonce := by
  simp only [nativeCall, List.map_map, List.forall₂_map_right_iff, List.forall₂_same]
  constructor
  · intro all
    -- Every item of a request id has the nonce of the entry under that id.
    have entryNonce : ∀ first ∈ built context signer chunkSize items,
        ∀ second ∈ built context signer chunkSize items, second.2.id = first.2.id →
        (callEntries (built context signer chunkSize items)).lookup first.2.id =
          some (entryOf second.1) → second.1.nonce = first.1.nonce := by
      intro first firstBuilt second secondBuilt sameId entry
      have asked := all [⟨first.1, first.2, emptyResponse first.2, rfl⟩]
        (by simpa using ⟨firstBuilt, rfl⟩) _ List.mem_cons_self
      simp only [Function.comp, replyTo, emptyResponse] at asked
      rw [entry] at asked
      apply nonce_eq_of_signedAsAsked _ asked
      intro nonzero
      exact canSign ((of_mem_built secondBuilt).2 nonzero) _ _ _
    intro first firstBuilt second secondBuilt sameId
    obtain ⟨pair, pairBuilt, pairId, entry⟩ :=
      lookup_callEntries ⟨first, firstBuilt, rfl⟩
    have toSecond : second.2.id = first.2.id :=
      (id_eq_of_mem_built secondBuilt firstBuilt).mpr sameId.symm
    rw [← entryNonce first firstBuilt pair pairBuilt pairId entry]
    apply entryNonce second secondBuilt pair pairBuilt (pairId.trans toSecond.symm)
    rw [toSecond]
    exact entry
  · intro same arrivals arrived arrival listed reply sent
    obtain ⟨isBuilt, buffered⟩ := arrived arrival listed
    obtain ⟨pair, pairBuilt, pairId, entry⟩ :=
      lookup_callEntries ⟨(arrival.item, arrival.request), isBuilt, rfl⟩
    have nonce : pair.1.nonce = arrival.item.nonce :=
      same pair pairBuilt _ isBuilt ((id_eq_of_mem_built pairBuilt isBuilt).mp pairId)
    simp only [Function.comp, replyTo] at sent
    rw [arrival.isFor, entry] at sent
    rw [entryOf, nonce] at sent
    exact signedAsAsked_sendReply buffered arrival.item _ sent

end Nonces

def echoSigner : ResponseSigner where
  enabled := true
  sign nonce _ _ := .ok ⟨[nonce.toUInt8], 1⟩

def lenient : CallContext := ⟨fun _ => true, fun _ => none⟩

def callItem (id : UInt32) (nonce : UInt64) : NativeCallItem :=
  ⟨id, "eth_chainId", bytes "[]", nonce, none⟩

def answer (item : NativeCallItem) (id : String) : Arrival :=
  ⟨item, ⟨id, "eth_chainId", bytes "[]", none, false⟩,
    emptyResponse ⟨id, "eth_chainId", bytes "[]", none, false⟩, rfl⟩

/-- Two items with ids of their own, one of which asks for a signature; the answers come in the
other order. -/
theorem distinct_ids_signed :
    List.Forall₂ (fun arrival replies =>
        ∀ reply ∈ replies, SignedAsAsked echoSigner arrival.item reply)
      [answer (callItem 2 0) "2", answer (callItem 1 5) "1"]
      (nativeCall lenient echoSigner 0 [callItem 1 5, callItem 2 0]
        ([answer (callItem 2 0) "2", answer (callItem 1 5) "1"].map Arrival.response)).2 :=
  (signed_as_asked_iff lenient echoSigner 0 [callItem 1 5, callItem 2 0]
    (fun _ nonce _ _ => ⟨⟨[nonce.toUInt8], 1⟩, rfl⟩)).mpr (by decide +kernel)
    [answer (callItem 2 0) "2", answer (callItem 1 5) "1"] (by decide +kernel)

/-- Two items with id 1, the first with nonce 5 and the second with none: the reply to the
first carries no signature. -/
theorem later_item_takes_nonce :
    (callItem 1 5, (⟨"1", "eth_chainId", bytes "[]", none, false⟩ : BuiltRequest)) ∈
        built lenient echoSigner 0 [callItem 1 5, callItem 1 0] ∧
      ((nativeCall lenient echoSigner 0 [callItem 1 5, callItem 1 0]
        [emptyResponse ⟨"1", "eth_chainId", bytes "[]", none, false⟩]).2.flatten.map
          fun reply => (reply.succeed, reply.signature)) = [(true, none)] := by
  decide +kernel

end Nodecore.Emerald
