/-
# The hash of a REST request

What a REST request is cached under is the hash of its template, its captures, its query, its body
and the key of its labels, each in a section of its own.  The query is written with its keys
sorted.  A part that is empty is left out, and there are as many captures as the template has stars;
since every section has a tag and a length, the text that is hashed still determines all parts.
-/

import Nodecore.Connectors.HttpConnector
import Nodecore.Lib.Frames
import Nodecore.Protocol.RequestSelectorKey

namespace Nodecore.Protocol

open Lib Lib.Url Connectors

/-- The parts of a request that change its response. -/
def restSections (request : RestRequest) (selectors : List RequestSelector) :
    List (UInt8 × Bytes) :=
  (byte 'm', request.method) :: request.pathParams.map (byte 'p', ·) ++
    (if request.queryParams.isEmpty then [] else [(byte 'q', encodeQuery request.queryParams)]) ++
    (if request.body.isEmpty then [] else [(byte 'b', request.body)]) ++
    (if labelCacheKey selectors = "" then [] else [(byte 's', bytes (labelCacheKey selectors))])

/-- A request with its selectors, all of whose texts have lengths that a machine integer holds. -/
structure UpstreamRestRequest extends RestRequest where
  selectors : List RequestSelector
  fits : ∀ part ∈ restSections toRestRequest selectors, part.2.length < 2 ^ 63

def calculateRestHash {τ : Type*} (calculateHash : Bytes → τ) (request : UpstreamRestRequest) : τ :=
  calculateHash ((restSections request.toRestRequest request.selectors).flatMap fun part =>
    writeSection part.1 part.2)

/-- The data of the sections with a tag. -/
def tagged (tag : UInt8) (sections : List (UInt8 × Bytes)) : List Bytes :=
  sections.filterMap fun part => if part.1 = tag then some part.2 else none

theorem tagged_restSections (request : RestRequest) (selectors : List RequestSelector) :
    let sections := restSections request selectors
    tagged (byte 'm') sections = [request.method] ∧
      tagged (byte 'p') sections = request.pathParams ∧
      (tagged (byte 'q') sections).flatMap parseQuery = request.queryParams.grouped ∧
      (tagged (byte 'b') sections).flatten = request.body ∧
      (tagged (byte 's') sections).flatten = bytes (labelCacheKey selectors) := by
  have noQuery : Query.grouped [] = [] := by simp [Query.grouped, Query.keys]
  have noKey : bytes "" = [] := rfl
  unfold restSections
  by_cases query : request.queryParams = []
  all_goals by_cases body : request.body = []
  all_goals by_cases key : labelCacheKey selectors = ""
  all_goals simp [tagged, byte, query, body, key, noQuery, noKey, parseQuery_encodeQuery]

/-- Requests with the same hash have the same template, captures, query, body and key of labels. -/
theorem restHash_determines {τ : Type*} {calculateHash : Bytes → τ}
    (collisionFree : Function.Injective calculateHash) {request other : UpstreamRestRequest}
    (same : calculateRestHash calculateHash request = calculateRestHash calculateHash other) :
    request.method = other.method ∧ request.pathParams = other.pathParams ∧
      (∀ key, request.queryParams.values key = other.queryParams.values key) ∧
      request.body = other.body ∧
      labelCacheKey request.selectors = labelCacheKey other.selectors := by
  have bound (request : UpstreamRestRequest) :
      ∀ part ∈ restSections request.toRestRequest request.selectors, part.2.length < 2 ^ 64 :=
    fun part member => (request.fits part member).trans (by decide)
  have sections := sections_inj (bound request) (bound other) (collisionFree same)
  obtain ⟨method, path, query, body, key⟩ :=
    tagged_restSections request.toRestRequest request.selectors
  obtain ⟨method', path', query', body', key'⟩ :=
    tagged_restSections other.toRestRequest other.selectors
  rw [sections] at method path query body key
  refine ⟨List.singleton_inj.mp (method.symm.trans method'), path.symm.trans path', fun name => ?_,
    body.symm.trans body', bytes_injective (key.symm.trans key')⟩
  rw [← Query.values_grouped, ← query, query', Query.values_grouped]

def balances (query : List (String × String)) : RestRequest where
  method := bytes "POST#/accounts/*/balances"
  requestParams := some ⟨[bytes "a/b"], ∅, query.map fun pair => (bytes pair.1, bytes pair.2)⟩
  body := bytes "\x7b\x7d"

def byLimit : UpstreamRestRequest where
  toRestRequest := balances [("limit", "5"), ("id", "1"), ("id", "2")]
  selectors := [.or [.label "archive" ["true", "yes"], .existsLabel "full"]]
  fits := by decide +kernel

def byId : UpstreamRestRequest where
  toRestRequest := balances [("id", "1"), ("limit", "5"), ("id", "2")]
  selectors := [.or [.existsLabel "full", .label "archive" ["yes", "true"]]]
  fits := by decide +kernel

theorem restHash_determines_byLimit : byLimit.queryParams ≠ byId.queryParams ∧
    byLimit.pathParams = [bytes "a/b"] ∧ byLimit.pathParams = byId.pathParams ∧
      (∀ key, byLimit.queryParams.values key = byId.queryParams.values key) ∧
      byLimit.body = byId.body ∧ labelCacheKey byLimit.selectors = labelCacheKey byId.selectors :=
  have same : calculateRestHash id byLimit = calculateRestHash id byId := by decide +kernel
  ⟨by decide, rfl, (restHash_determines Function.injective_id same).2⟩

end Nodecore.Protocol
