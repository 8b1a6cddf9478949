/-
# Signatures of a quorum read

A provider that takes part in a quorum read returns its signature in a header
`QR<index>-id-<request id>`, whose value names the provider, the upstream that
signed, a nonce and the signature.  The gateway reads all such headers and
verifies every signature over the result it is about to return.

A client asks for a number of signatures.  The gateway compares that number with
the number of header values it read, which is the number of signers only where
no signer is named twice.
-/

import Mathlib.Data.UInt
import Nodecore.Lib.Url.Escape

namespace Nodecore.Quorum

open Lib

/-- The number of a nonempty text of decimal digits. -/
def decimal (text : Bytes) : Option ℕ :=
  if !text.isEmpty && text.all fun b => 0x30 ≤ b && b ≤ 0x39 then
    some (text.foldl (fun value digit => 10 * value + (digit.toNat - 0x30)) 0)
  else none

/-- A decimal number without a sign that fits the bits. -/
def parseUint (bits : ℕ) (text : Bytes) : Option ℕ :=
  (decimal text).filter (· < 2 ^ bits)

def lowerHexDigit (n : ℕ) : UInt8 := if n < 10 then (0x30 + n).toUInt8 else (0x57 + n).toUInt8

def hexEncode (text : Bytes) : Bytes :=
  text.flatMap fun b => [lowerHexDigit (b.toNat / 16), lowerHexDigit (b.toNat % 16)]

def hexDecode : Bytes → Option Bytes
  | [] => some []
  | [_] => none
  | high :: low :: rest => do
      let value ← Url.unhexByte high low
      let later ← hexDecode rest
      pure (value :: later)

/-- What comes before the first occurrence of a text and what comes after it. -/
def cutText (separator : Bytes) : Bytes → Option (Bytes × Bytes)
  | [] => if separator.isEmpty then some ([], []) else none
  | b :: text =>
    if separator.isPrefixOf (b :: text) then some ([], (b :: text).drop separator.length)
    else (cutText separator text).map fun (before, after) => (b :: before, after)

/-- What comes before the last occurrence of a byte and what comes after it. -/
def cutLast (separator : UInt8) (text : Bytes) : Option (Bytes × Bytes) :=
  if separator ∈ text then
    let (after, before) := cut separator text.reverse
    some (before.reverse, after.reverse)
  else none

/-- Cuts a text off the front if it is there. -/
def trimFront (front text : Bytes) : Bytes :=
  if front.isPrefixOf text then text.drop front.length else text

structure Signature where
  index : ℕ
  requestID : Bytes
  providerID : Bytes
  upstreamID : Bytes
  nonce : ℕ
  raw : Bytes
  deriving DecidableEq, Repr

/-- A provider and the upstream it signed for. -/
structure Signer where
  providerID : Bytes
  upstreamID : Bytes
  deriving DecidableEq, Repr

def Signature.signer (signature : Signature) : Signer :=
  ⟨signature.providerID, signature.upstreamID⟩

/-- Why a header is malformed. -/
inductive HeaderCause
  | badIndex (digits : Bytes)
  | missingSeparator (separator : Bytes)
  | emptyPrefix
  | invalidNonce (nonce : Bytes)
  | emptySignature
  | invalidHexSignature
  | prefixUnclosed (text : Bytes)
  | prefixUnopened (text : Bytes)
  | emptyProviderID
  | emptyUpstreamID
  deriving DecidableEq, Repr

inductive QuorumError
  | missingSignatures
  | insufficientSignatures (got : ℕ) (required : ℤ)
  | malformedHeader (headerName : Bytes) (cause : HeaderCause)
  | unexpectedRequestID (expected got : Bytes) (index : ℕ)
  | unknownProvider (providerID : Bytes) (index : ℕ)
  | invalidSignature (providerID : Bytes) (index : ℕ) (cause : String)
  deriving DecidableEq, Repr

/-- The index and the request id of a header name of the form `QR<digits>-id-<text>`, in
any case.  The text is not empty and has no line break. -/
def readName (name : Bytes) : Option (Bytes × Bytes) :=
  match name with
  | q :: r :: rest =>
    let digits := rest.takeWhile fun b => 0x30 ≤ b && b ≤ 0x39
    match rest.dropWhile fun b => 0x30 ≤ b && b ≤ 0x39 with
    | dash :: i :: d :: second :: requestID =>
      if [q, r, dash, i, d, second].map lowerByte = bytes "qr-id-" ∧ digits ≠ [] ∧
          requestID ≠ [] ∧ byte '\n' ∉ requestID then
        some (digits, requestID)
      else none
    | _ => none
  | _ => none

def headerValueNonceSep : Bytes := bytes "_nonce_"

def headerValueSigSep : Bytes := bytes "_sig_"

/-- The front, the nonce and the signature of a header value. -/
def parseHeaderValue (value : Bytes) : Except HeaderCause (Bytes × ℕ × Bytes) :=
  match cutText headerValueNonceSep value with
  | none => .error (.missingSeparator headerValueNonceSep)
  | some (front, rest) =>
    if front = [] then .error .emptyPrefix
    else match cutText headerValueSigSep rest with
    | none => .error (.missingSeparator headerValueSigSep)
    | some (nonceStr, sigText) =>
      match parseUint 64 nonceStr with
      | none => .error (.invalidNonce nonceStr)
      | some nonce =>
        let sigHex := trimFront (bytes "0X") (trimFront (bytes "0x") sigText)
        if sigHex = [] then .error .emptySignature
        else match hexDecode sigHex with
        | none => .error .invalidHexSignature
        | some sig => .ok (front, nonce, sig)

/-- The provider and the upstream of a front `<provider>(<upstream>)`. -/
def splitPrefix (front : Bytes) : Except HeaderCause Signer :=
  if front.getLast? ≠ some (byte ')') then .error (.prefixUnclosed front)
  else match cutLast (byte '(') front.dropLast with
  | none => .error (.prefixUnopened front)
  | some (providerID, upstreamID) =>
    if providerID = [] then .error .emptyProviderID
    else if upstreamID = [] then .error .emptyUpstreamID
    else .ok ⟨providerID, upstreamID⟩

/-- The signature of one value of a header. -/
def readValue (index : ℕ) (requestID value : Bytes) : Except HeaderCause Signature := do
  let (front, nonce, raw) ← parseHeaderValue value
  let signer ← splitPrefix front
  pure ⟨index, requestID, signer.providerID, signer.upstreamID, nonce, raw⟩

/-- The signatures of the values of one header, up to the first that is malformed. -/
def readValues (name : Bytes) (index : ℕ) (requestID : Bytes) :
    List Bytes → Except QuorumError (List Signature)
  | [] => .ok []
  | value :: values => do
      let signature ← (readValue index requestID value).mapError (.malformedHeader name)
      let later ← readValues name index requestID values
      pure (signature :: later)

/-- The signatures of one header.  Other headers than those of a quorum read have none. -/
def headerSignatures (name : Bytes) (values : List Bytes) : Except QuorumError (List Signature) :=
  match readName name with
  | none => .ok []
  | some (digits, requestID) =>
    match parseUint 63 digits with
    | none => .error (.malformedHeader name (.badIndex digits))
    | some index => readValues name index requestID values

/-- The signatures of the headers in the order they are visited, up to the first header
that is malformed. -/
def readHeaders : List (Entry Bytes (List Bytes)) → Except QuorumError (List Signature)
  | [] => .ok []
  | entry :: entries => do
      let here ← headerSignatures entry.1 entry.2
      let later ← readHeaders entries
      pure (here ++ later)

/-- A sort by the index.  It does not say in which order it leaves equal indices. -/
structure IndexSort where
  sort : List Signature → List Signature
  perm : ∀ signatures, (sort signatures).Perm signatures
  sorted : ∀ signatures, (sort signatures).Pairwise fun first second =>
    first.index ≤ second.index

def extractSignatures (order : RangeOrder (Entry Bytes (List Bytes))) (byIndex : IndexSort)
    (headers : GoMap Bytes (List Bytes)) : Except QuorumError (List Signature) :=
  (readHeaders (order.visit headers.entries)).map byIndex.sort

/-- The standard library's hash, its verification of a signature of a digest, and its
comparison of texts in any case. -/
structure Crypto where
  PublicKey : Type
  sha256 : Bytes → Bytes
  verifyDigest : PublicKey → (digest signature : Bytes) → Except String Unit
  equalFold : Bytes → Bytes → Bool

/-- What is signed: the nonce, the upstream and the hash of the result. -/
def wrapMessage (crypto : Crypto) (nonce : ℕ) (source message : Bytes) : Bytes :=
  [byte '/'].intercalate
    [bytes "DSHACKLESIG", bytes (toString nonce), source, hexEncode (crypto.sha256 message)]

/-- The public keys of the providers. -/
structure Registry (crypto : Crypto) where
  keys : GoMap Bytes crypto.PublicKey

variable {headers : GoMap Bytes (List Bytes)} {signatures : List Signature} {result : Bytes}

section Verify

variable {crypto : Crypto} (registry : Registry crypto)

namespace Registry

def verifySignature (signature : Signature) (result : Bytes) : Except QuorumError Unit :=
  match registry.keys.lookup signature.providerID with
  | none => .error (.unknownProvider signature.providerID signature.index)
  | some pub =>
    let wrapped := wrapMessage crypto signature.nonce signature.upstreamID result
    (crypto.verifyDigest pub (crypto.sha256 wrapped) signature.raw).mapError
      (.invalidSignature signature.providerID signature.index)

/-- The signatures one after another, up to the first that is not for the request or does
not verify.  An empty request id is not compared. -/
def verifyAll (result expectedRequestID : Bytes) : List Signature → Except QuorumError Unit
  | [] => .ok ()
  | signature :: signatures =>
    if expectedRequestID ≠ [] ∧
        crypto.equalFold signature.requestID expectedRequestID = false then
      .error (.unexpectedRequestID expectedRequestID signature.requestID signature.index)
    else do
      registry.verifySignature signature result
      verifyAll result expectedRequestID signatures

def verifyHeaders (order : RangeOrder (Entry Bytes (List Bytes))) (byIndex : IndexSort)
    (headers : GoMap Bytes (List Bytes)) (result expectedRequestID : Bytes) (minRequired : ℤ) :
    Except QuorumError Unit := do
  let signatures ← extractSignatures order byIndex headers
  if signatures = [] then .error .missingSignatures
  else if 0 < minRequired ∧ signatures.length < minRequired then
    .error (.insufficientSignatures signatures.length minRequired)
  else registry.verifyAll result expectedRequestID signatures

end Registry

/-- The signatures that the headers carry, one for each value. -/
def carried (headers : GoMap Bytes (List Bytes)) : List Signature :=
  headers.entries.flatMap fun entry =>
    (headerSignatures entry.1 entry.2).toOption.getD []

theorem readHeaders_eq {entries : List (Entry Bytes (List Bytes))}
    (read : readHeaders entries = .ok signatures) :
    signatures = entries.flatMap fun entry =>
      (headerSignatures entry.1 entry.2).toOption.getD [] := by
  induction entries generalizing signatures with
  | nil => exact (Except.ok.inj read).symm
  | cons entry entries ih =>
    rw [readHeaders] at read
    cases here : headerSignatures entry.1 entry.2 with
    | error failure => rw [here] at read; cases read
    | ok first =>
      cases later : readHeaders entries with
      | error failure => rw [here, later] at read; cases read
      | ok second =>
        rw [here, later] at read
        rw [List.flatMap_cons, here, ← ih later]
        exact (Except.ok.inj read).symm

variable {order : RangeOrder (Entry Bytes (List Bytes))}

theorem extractSignatures_perm {byIndex : IndexSort}
    (extracted : extractSignatures order byIndex headers = .ok signatures) :
    signatures.Perm (carried headers) := by
  rw [extractSignatures] at extracted
  cases read : readHeaders (order.visit headers.entries) with
  | error failure => rw [read] at extracted; cases extracted
  | ok found =>
    rw [read] at extracted
    rw [← Except.ok.inj extracted, carried]
    refine (byIndex.perm found).trans ?_
    rw [readHeaders_eq read]
    exact (order.perm headers.entries).flatMap_right _

variable {expectedRequestID : Bytes}

theorem verifyAll_ok (verified : registry.verifyAll result expectedRequestID signatures = .ok ())
    {signature : Signature} (listed : signature ∈ signatures) :
    registry.verifySignature signature result = .ok () := by
  induction signatures with
  | nil => cases listed
  | cons first signatures ih =>
    rw [Registry.verifyAll] at verified
    split at verified
    · cases verified
    · cases here : registry.verifySignature first result with
      | error failure => rw [here] at verified; cases verified
      | ok done =>
        rw [here] at verified
        rcases List.mem_cons.mp listed with rfl | later
        · exact here
        · exact ih verified later

theorem exists_of_verifyHeaders {byIndex : IndexSort} {minRequired : ℤ}
    (accepted : registry.verifyHeaders order byIndex headers result expectedRequestID
      minRequired = .ok ()) :
    (0 < minRequired → minRequired ≤ (carried headers).length) ∧
      ∀ signature ∈ carried headers, registry.verifySignature signature result = .ok () := by
  rw [Registry.verifyHeaders] at accepted
  cases extracted : extractSignatures order byIndex headers with
  | error failure => rw [extracted] at accepted; cases accepted
  | ok signatures =>
    rw [extracted] at accepted
    have perm := extractSignatures_perm extracted
    simp only [bind, Except.bind] at accepted
    split at accepted
    · cases accepted
    · split at accepted
      · cases accepted
      · rename_i enough
        constructor
        · intro positive
          rw [← perm.length_eq]
          by_contra few
          exact enough ⟨positive, by omega⟩
        · intro signature listed
          exact verifyAll_ok registry accepted (perm.mem_iff.mpr listed)

/-- The headers show that the signer signed the result: they carry a signature of the
signer that verifies over it. -/
def Signed (headers : GoMap Bytes (List Bytes)) (result : Bytes) (signer : Signer) : Prop :=
  ∃ signature ∈ carried headers, signature.signer = signer ∧
    registry.verifySignature signature result = .ok ()

theorem card_le_of_signed {signers : Finset Signer}
    (signed : ∀ signer ∈ signers, Signed registry headers result signer) :
    signers.card ≤ ((carried headers).map Signature.signer).dedup.length := by
  have named : signers ⊆ ((carried headers).map Signature.signer).toFinset := by
    intro signer listed
    obtain ⟨signature, there, rfl, -⟩ := signed signer listed
    exact List.mem_toFinset.mpr (List.mem_map_of_mem there)
  simpa [List.card_toFinset] using Finset.card_le_card named

/-- An accepted response carries as many signatures as were required.  It shows those of as
many distinct signers exactly when it names that many distinct signers. -/
theorem enough_signers_iff (order : RangeOrder (Entry Bytes (List Bytes))) (byIndex : IndexSort)
    (headers : GoMap Bytes (List Bytes)) (result expectedRequestID : Bytes) (minRequired : ℕ)
    (positive : 0 < minRequired)
    (accepted : registry.verifyHeaders order byIndex headers result expectedRequestID
      minRequired = .ok ()) :
    minRequired ≤ (carried headers).length ∧
      ((∃ signers : Finset Signer, minRequired ≤ signers.card ∧
          ∀ signer ∈ signers, Signed registry headers result signer) ↔
        minRequired ≤ ((carried headers).map Signature.signer).dedup.length) := by
  obtain ⟨enough, verified⟩ := exists_of_verifyHeaders registry accepted
  refine ⟨by exact_mod_cast enough (by exact_mod_cast positive), ?_⟩
  constructor
  · rintro ⟨signers, many, signed⟩
    exact many.trans (card_le_of_signed registry signed)
  · intro many
    refine ⟨((carried headers).map Signature.signer).toFinset, ?_, ?_⟩
    · simpa [List.card_toFinset] using many
    · intro signer listed
      obtain ⟨signature, there, rfl⟩ := List.mem_map.mp (List.mem_toFinset.mp listed)
      exact ⟨signature, there, rfl, verified signature there⟩

end Verify

/-- A toy scheme: the hash is the sum of the bytes, and a signature is the key and the
digest. -/
def toyCrypto : Crypto where
  PublicKey := UInt8
  sha256 text := [text.sum]
  verifyDigest pub digest signature :=
    if signature = pub :: digest then .ok () else .error "does not verify"
  equalFold first second := first.map lowerByte = second.map lowerByte

def toyRegistry : Registry toyCrypto where
  keys := [(⟨bytes "p", 1⟩ : Entry Bytes UInt8), ⟨bytes "q", 2⟩].toAList

/-- One signature before another or at the same index. -/
def NotAfter (first second : Signature) : Prop := first.index ≤ second.index

instance : DecidableRel NotAfter := fun first second =>
  inferInstanceAs (Decidable (first.index ≤ second.index))

instance : Std.Total NotAfter := ⟨fun first second => Nat.le_total first.index second.index⟩

instance : IsTrans Signature NotAfter := ⟨fun _ _ _ => Nat.le_trans⟩

def stableSort : IndexSort where
  sort := List.insertionSort NotAfter
  perm := List.perm_insertionSort NotAfter
  sorted := List.pairwise_insertionSort NotAfter

def twoProviders : GoMap Bytes (List Bytes) :=
  [(⟨bytes "Qr0-Id-1", [bytes "p(u)_nonce_1_sig_01be"]⟩ : Entry Bytes (List Bytes)),
    ⟨bytes "Qr1-Id-1", [bytes "q(u)_nonce_1_sig_02be"]⟩].toAList

def oneProviderTwice : GoMap Bytes (List Bytes) :=
  [(⟨bytes "Qr0-Id-1", [bytes "p(u)_nonce_1_sig_01be"]⟩ : Entry Bytes (List Bytes)),
    ⟨bytes "Qr1-Id-1", [bytes "p(u)_nonce_1_sig_01be"]⟩].toAList

theorem two_providers_are_two_signers :
    ∃ signers : Finset Signer, 2 ≤ signers.card ∧
      ∀ signer ∈ signers, Signed toyRegistry twoProviders (bytes "r") signer :=
  (enough_signers_iff toyRegistry (.stored _) stableSort twoProviders (bytes "r") (bytes "1") 2
    (by decide) (by decide +kernel)).2.mpr (by decide +kernel)

/-- Two signatures are required, and one signature under two indices is accepted. -/
theorem repeated_signature_accepted :
    toyRegistry.verifyHeaders (.stored _) stableSort oneProviderTwice (bytes "r") (bytes "1") 2 =
        .ok () ∧
      ¬ ∃ signers : Finset Signer, 2 ≤ signers.card ∧
        ∀ signer ∈ signers, Signed toyRegistry oneProviderTwice (bytes "r") signer := by
  constructor
  · decide +kernel
  · rintro ⟨signers, two, signed⟩
    have one : ((carried oneProviderTwice).map Signature.signer).dedup.length = 1 := by
      decide +kernel
    have named := card_le_of_signed toyRegistry signed
    omega

end Nodecore.Quorum
