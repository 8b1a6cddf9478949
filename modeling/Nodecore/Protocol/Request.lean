/-
# Requests

What the rest of the system reads of a client's request: its method and the
method's spec, the parameters, and the key it is cached under.
-/

import Nodecore.Protocol.RequestSelector
import Nodecore.Specs.MethodParam

namespace Nodecore.Protocol

open Lib Specs

/-- The two holders of a client's request. -/
inductive HolderType
  | upstreamRestRequest | upstreamJsonRpcRequest
  deriving DecidableEq, Repr

/-- The `params` of a JSON-RPC request, or the body of a REST one: left out, not
valid JSON with what the marshaller says about it, or a value. -/
inductive RequestParams
  | absent
  | malformed (error : String)
  | value (params : JsonValue)

structure RequestHolder where
  realId : JsonValue := .null
  method : String
  specMethod : Option Method := none
  holderType : HolderType := .upstreamJsonRpcRequest
  params : RequestParams := .absent
  requestHash : String := ""
  selectors : List RequestSelector := []
  isSub : Bool := false

/-- A REST request never subscribes. -/
def RequestHolder.isSubscribe (request : RequestHolder) : Bool :=
  match request.holderType with
  | .upstreamRestRequest => false
  | .upstreamJsonRpcRequest => request.isSub

/-- The block parameter as the spec of the method reads it; the error is a
panic of the parser.  The parameters of a REST request are never read. -/
def RequestHolder.parseParams (gojq : Gojq) (rpc : RpcBlocks) (request : RequestHolder) :
    Except String (Option MethodParam) :=
  match request.holderType, request.specMethod, request.params with
  | .upstreamRestRequest, _, _ => .ok none
  | .upstreamJsonRpcRequest, none, _ => .ok none
  | .upstreamJsonRpcRequest, some _, .malformed _ => .ok none
  | .upstreamJsonRpcRequest, some method, .absent => method.parse gojq rpc (.array [])
  | .upstreamJsonRpcRequest, some method, .value params => method.parse gojq rpc params

def RequestHolder.body (request : RequestHolder) : Except String JsonValue :=
  let params : Except String JsonValue :=
    match request.params with
    | .absent => .ok .null
    | .malformed error => .error error
    | .value params => .ok params
  match request.holderType with
  | .upstreamRestRequest => params
  | .upstreamJsonRpcRequest =>
    params.map fun params =>
      .object [("id", request.realId), ("jsonrpc", .string "2.0"),
        ("method", .string request.method), ("params", params)]

namespace RequestHolder

variable {gojq : Gojq} {rpc : RpcBlocks} {request : RequestHolder}

theorem exists_parse_of_parseParams {param : MethodParam}
    (parsed : request.parseParams gojq rpc = .ok (some param)) :
    ∃ method data, request.specMethod = some method ∧
      method.parse gojq rpc data = .ok (some param) := by
  unfold parseParams at parsed
  split at parsed
  · cases parsed
  · cases parsed
  · cases parsed
  · rename_i method _ _ _
    exact ⟨method, _, by assumption, parsed⟩
  · rename_i method _ _ _ _
    exact ⟨method, _, by assumption, parsed⟩

theorem parseParams_documented (documented : rpc.Documented) {param : MethodParam}
    (parsed : request.parseParams gojq rpc = .ok (some param)) {number : Int64}
    (mem : number ∈ param.numbers) : rpc.isBlockTagNumber number = true ∨ 0 ≤ number := by
  obtain ⟨method, data, _, read⟩ := exists_parse_of_parseParams parsed
  exact Method.parse_documented documented read mem

theorem parseParams_ne_string {method : Method} {parser : TagParser}
    (isMethod : request.specMethod = some method) (hasParser : method.parser = some parser)
    (reads : parser.ReadsBlock gojq) (text : String) :
    request.parseParams gojq rpc ≠ .ok (some (.string text)) := by
  intro parsed
  obtain ⟨other, data, same, read⟩ := exists_parse_of_parseParams parsed
  obtain rfl := Option.some.inj (isMethod.symm.trans same)
  exact Method.parse_ne_string hasParser reads data text read

end RequestHolder

end Nodecore.Protocol
