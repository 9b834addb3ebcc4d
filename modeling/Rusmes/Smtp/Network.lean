import Rusmes.Proto.Mail

/-!
Addresses of clients: how an IP address is printed, and membership in the networks
of the configuration. Reading a network in CIDR notation is a parameter.
-/

namespace Rusmes

open WireText

def dottedQuad (octets : BitVec 32) : Text :=
  let byte (shift : Nat) := decimal ((octets >>> shift).toNat % 256)
  byte 24 ++ '.' :: byte 16 ++ '.' :: byte 8 ++ '.' :: byte 0

def ipv6Segments (octets : BitVec 128) : List Nat :=
  (List.range 8).map fun index => (octets >>> (112 - 16 * index)).toNat % 65536

def longestZeroRun (segments : List Nat) : Nat × Nat :=
  let runLength (start : Nat) := ((segments.drop start).takeWhile (· = 0)).length
  (List.range segments.length).foldl (fun best start =>
    if runLength start > best.2 then (start, runLength start) else best) (0, 0)

def colonHex (segments : List Nat) : Text :=
  List.intercalate [':'] (segments.map (Nat.toDigits 16))

def IpAddr.display : IpAddr → Text
  | .v4 octets => dottedQuad octets
  | .v6 octets =>
      if (octets >>> 32).toNat = 0xFFFF then
        "::ffff:".toList ++ dottedQuad (octets.truncate 32)
      else
        let segments := ipv6Segments octets
        let (start, length) := longestZeroRun segments
        if length > 1 then
          colonHex (segments.take start) ++ "::".toList ++ colonHex (segments.drop (start + length))
        else colonHex segments

inductive IpNetwork
  | v4 (address : BitVec 32) (bits : Nat)
  | v6 (address : BitVec 128) (bits : Nat)
  deriving DecidableEq, Repr

def IpNetwork.contains : IpNetwork → IpAddr → Bool
  | .v4 network bits, .v4 address => network >>> (32 - bits) = address >>> (32 - bits)
  | .v6 network bits, .v6 address => network >>> (128 - bits) = address >>> (128 - bits)
  | _, _ => false

def isIpInNetworks (parseNetwork : Text → Option IpNetwork) (ip : IpAddr) (networks : List Text) :
    Bool :=
  networks.any fun text =>
    match parseNetwork text with
    | some network => network.contains ip
    | none => false

end Rusmes
