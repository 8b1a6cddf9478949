/-
# The client of a request

Requests may come through reverse proxies.  Each proxy appends the address it was reached
from to a header, so that the header reads from the client to the last hop.  Anyone can
send that header, and only what a trusted proxy has appended to it is true.

With trusted proxies configured one address is resolved: the direct peer, or, when that is
a trusted proxy, the last hop that is not one.  The results below compare two requests
whose headers differ: the address depends on nothing that somebody beyond the first
untrusted hop can write.
-/

import Nodecore.Lib.Header

namespace Nodecore.Utils

open Lib

inductive Addr
  | v4 (bits : BitVec 32)
  | v6 (bits : BitVec 128) (zone : Bytes)
  deriving DecidableEq

/-- An IPv4 address that is written as an IPv6 one becomes an IPv4 address. -/
def Addr.unmap : Addr → Addr
  | .v4 bits => .v4 bits
  | .v6 bits zone => if bits >>> 32 = 0xffff then .v4 (bits.setWidth 32) else .v6 bits zone

/-- The addresses that start with the same bits. -/
structure Prefix where
  addr : Addr
  bits : ℕ
  deriving DecidableEq

def Prefix.contains (range : Prefix) (addr : Addr) : Bool :=
  match range.addr, addr with
  | .v4 first, .v4 second => range.bits ≤ 32 && (first ^^^ second) >>> (32 - range.bits) == 0
  | .v6 first _, .v6 second zone =>
    zone.isEmpty && range.bits ≤ 128 && (first ^^^ second) >>> (128 - range.bits) == 0
  | _, _ => false

/-- How the standard library reads and writes addresses: an address, one followed by a
port, a host followed by a port, and the text of an address. -/
structure Netip where
  parseAddr : Bytes → Option Addr
  parseAddrPort : Bytes → Option Addr
  splitHostPort : Bytes → Option Bytes
  string : Addr → Bytes

structure HttpRequest where
  remoteAddr : Bytes
  header : Header

def localhostIP : Bytes := bytes "127.0.0.1"

def isTrustedProxy (addr : Addr) (trustedProxies : List Prefix) : Bool :=
  trustedProxies.any (·.contains addr.unmap)

/-- The entries of the header, over all of its lines, from left to right. -/
def forwardedForIPs (request : HttpRequest) : List Bytes :=
  (request.header.values (bytes "X-Forwarded-For")).flatMap fun value =>
    ((value.splitOn (byte ',')).map trimSpace).filter fun ip => !ip.isEmpty

namespace Netip

variable (netip : Netip)

def remoteIP (remoteAddr : Bytes) : Bytes :=
  match netip.splitHostPort remoteAddr with
  | some host => if (netip.parseAddr host).isSome then host else localhostIP
  | none => if (netip.parseAddr remoteAddr).isSome then remoteAddr else localhostIP

def parseForwardedHop (hop : Bytes) : Option Addr :=
  (netip.parseAddr hop).or (netip.parseAddrPort hop)

/-- Whether the direct peer of a request is a trusted proxy. -/
def isTrustedPeer (trustedProxies : List Prefix) (request : HttpRequest) : Bool :=
  (netip.parseAddr (netip.remoteIP request.remoteAddr)).any (isTrustedProxy · trustedProxies)

/-- The address of a hop that is well formed and not a trusted proxy. -/
def untrustedHop (trustedProxies : List Prefix) (hop : Bytes) : Option Addr :=
  (netip.parseForwardedHop hop).filter fun addr => !isTrustedProxy addr trustedProxies

def clientIP (request : HttpRequest) (trustedProxies : List Prefix) : Bytes :=
  let peer := netip.remoteIP request.remoteAddr
  if netip.isTrustedPeer trustedProxies request then
    -- from the right, past the hops that are trusted or malformed
    match (forwardedForIPs request).reverse.findSome? (netip.untrustedHop trustedProxies) with
    | some addr => netip.string addr
    | none => peer
  else peer

/-- The addresses a request is taken to come from. -/
def contextWithIps (request : HttpRequest) (trustedProxies : List Prefix) : GoSet Bytes :=
  if trustedProxies.isEmpty then
    let ipValues := GoSet.ofList (forwardedForIPs request)
    if ipValues.entries.isEmpty then ipValues.add (netip.remoteIP request.remoteAddr) else ipValues
  else GoSet.add ∅ (netip.clientIP request trustedProxies)

end Netip

namespace Netip

variable {netip : Netip} {trustedProxies : List Prefix} {request : HttpRequest}

theorem contextWithIps_congr {other : HttpRequest} (peer : request.remoteAddr = other.remoteAddr)
    (forwarded : forwardedForIPs request = forwardedForIPs other) :
    netip.contextWithIps request trustedProxies = netip.contextWithIps other trustedProxies := by
  unfold contextWithIps clientIP isTrustedPeer
  rw [peer, forwarded]

/-- Whatever precedes an untrusted hop has no effect. -/
theorem clientIP_of_untrusted_hop (trusted : netip.isTrustedPeer trustedProxies request = true)
    {before after : List Bytes} {hop : Bytes} {addr : Addr}
    (forwarded : forwardedForIPs request = before ++ hop :: after)
    (untrusted : netip.untrustedHop trustedProxies hop = some addr)
    (skipped : ∀ later ∈ after, netip.untrustedHop trustedProxies later = none) :
    netip.clientIP request trustedProxies = netip.string addr := by
  have found : (forwardedForIPs request).reverse.findSome? (netip.untrustedHop trustedProxies) =
      some addr := by
    rw [List.findSome?_eq_some_iff]
    refine ⟨after.reverse, hop, before.reverse, ?_, untrusted, ?_⟩
    · simp [forwarded]
    · intro later member
      exact skipped later (List.mem_reverse.mp member)
  simp [clientIP, trusted, found]

theorem exists_last_untrusted {hops : List Bytes}
    (some_untrusted : ∃ hop ∈ hops, (netip.untrustedHop trustedProxies hop).isSome = true) :
    ∃ before hop after addr, hops = before ++ hop :: after ∧
      netip.untrustedHop trustedProxies hop = some addr ∧
      ∀ later ∈ after, netip.untrustedHop trustedProxies later = none := by
  have found : (hops.reverse.findSome? (netip.untrustedHop trustedProxies)).isSome = true := by
    rw [List.findSome?_isSome_iff]
    simpa using some_untrusted
  obtain ⟨addr, isFirst⟩ := Option.isSome_iff_exists.mp found
  obtain ⟨after, hop, before, hops_eq, untrusted, skipped⟩ := List.findSome?_eq_some_iff.mp isFirst
  refine ⟨before.reverse, hop, after.reverse, addr, ?_, untrusted, ?_⟩
  · rw [← List.reverse_reverse hops, hops_eq]
    simp
  · intro later member
    exact skipped later (List.mem_reverse.mp member)

/-- Two requests of one peer, with trusted proxies configured.  If the peer is not one of
them, both are resolved to the peer.  If it is, and the headers end with the same entries,
an untrusted hop among them, both are resolved to the last such hop, whatever comes before
it.  Malformed entries behind that hop do not change this. -/
theorem client_independent_of_prepended (netip : Netip) (trustedProxies : List Prefix)
    (configured : trustedProxies ≠ []) (first second : HttpRequest)
    (samePeer : first.remoteAddr = second.remoteAddr) :
    (netip.isTrustedPeer trustedProxies first = false →
      netip.contextWithIps first trustedProxies =
          GoSet.add ∅ (netip.remoteIP first.remoteAddr) ∧
        netip.contextWithIps second trustedProxies =
          GoSet.add ∅ (netip.remoteIP first.remoteAddr)) ∧
      (netip.isTrustedPeer trustedProxies first = true →
        ∀ prepended otherwise suffix : List Bytes,
          forwardedForIPs first = prepended ++ suffix →
          forwardedForIPs second = otherwise ++ suffix →
          (∃ hop ∈ suffix, (netip.untrustedHop trustedProxies hop).isSome = true) →
          ∃ before hop after addr, suffix = before ++ hop :: after ∧
            netip.untrustedHop trustedProxies hop = some addr ∧
            (∀ later ∈ after, netip.untrustedHop trustedProxies later = none) ∧
            netip.contextWithIps first trustedProxies = GoSet.add ∅ (netip.string addr) ∧
            netip.contextWithIps second trustedProxies = GoSet.add ∅ (netip.string addr)) := by
  have resolved (request : HttpRequest) : netip.contextWithIps request trustedProxies =
      GoSet.add ∅ (netip.clientIP request trustedProxies) := by
    rw [contextWithIps, if_neg (by simpa using configured)]
  have sameTrust : netip.isTrustedPeer trustedProxies second =
      netip.isTrustedPeer trustedProxies first := by
    rw [isTrustedPeer, isTrustedPeer, samePeer]
  rw [resolved, resolved]
  constructor
  · intro untrusted
    simp [clientIP, untrusted, sameTrust.trans untrusted, samePeer]
  · intro trusted prepended otherwise suffix isFirst isSecond some_untrusted
    obtain ⟨before, hop, after, addr, rfl, untrusted, skipped⟩ :=
      exists_last_untrusted some_untrusted
    rw [← List.append_assoc] at isFirst isSecond
    refine ⟨before, hop, after, addr, rfl, untrusted, skipped, ?_, ?_⟩
    · rw [clientIP_of_untrusted_hop trusted isFirst untrusted skipped]
    · rw [clientIP_of_untrusted_hop (sameTrust.trans trusted) isSecond untrusted skipped]

end Netip

namespace Spoofed

def table : List (Bytes × Addr) :=
  [(bytes "10.0.0.1", .v4 0x0a000001), (bytes "6.6.6.6", .v4 0x06060606),
    (bytes "1.2.3.4", .v4 0x01020304)]

def netip : Netip where
  parseAddr text := table.lookup text
  parseAddrPort _ := none
  splitHostPort text := if text = bytes "10.0.0.1:80" then some (bytes "10.0.0.1") else none
  string addr := ((table.find? (·.2 = addr)).map (·.1)).getD []

def trustedProxies : List Prefix := [⟨.v4 0x0a000000, 8⟩]

def request (lines : List String) : HttpRequest where
  remoteAddr := bytes "10.0.0.1:80"
  header := readHeader (lines.map fun line => (bytes "x-forwarded-for", bytes line))

end Spoofed

/-- What the client itself has sent, before the entry of the proxy, is ignored. -/
theorem spoofed_entry_ignored :
    ∃ before hop after addr, [bytes "1.2.3.4"] = before ++ hop :: after ∧
      Spoofed.netip.untrustedHop Spoofed.trustedProxies hop = some addr ∧
      (∀ later ∈ after, Spoofed.netip.untrustedHop Spoofed.trustedProxies later = none) ∧
      Spoofed.netip.contextWithIps (Spoofed.request ["6.6.6.6, 1.2.3.4"])
        Spoofed.trustedProxies = GoSet.add ∅ (Spoofed.netip.string addr) ∧
      Spoofed.netip.contextWithIps (Spoofed.request ["?, 6.6.6.6", "1.2.3.4"])
        Spoofed.trustedProxies = GoSet.add ∅ (Spoofed.netip.string addr) :=
  (Spoofed.netip.client_independent_of_prepended Spoofed.trustedProxies (by decide)
    (Spoofed.request ["6.6.6.6, 1.2.3.4"]) (Spoofed.request ["?, 6.6.6.6", "1.2.3.4"]) rfl).2
    (by decide) [bytes "6.6.6.6"] [bytes "?", bytes "6.6.6.6"] [bytes "1.2.3.4"] (by decide)
    (by decide) ⟨bytes "1.2.3.4", by decide, by decide⟩

end Nodecore.Utils
