import Courier.Numeral

/-!
# Internet addresses and endpoints

An address is four octets or eight groups; an endpoint adds a port and, for
eight groups, a scope. Their texts are canonical: of the longest runs of two or
more zero groups the first one becomes a double colon, and only an address that
wraps four octets ends in dotted form.
-/

namespace Courier.Address

structure Ipv4 where
  first : UInt8
  second : UInt8
  third : UInt8
  fourth : UInt8
deriving DecidableEq, Repr

structure Ipv6 where
  groups : List UInt16
  length_groups : groups.length = 8
deriving DecidableEq, Repr

inductive Ip where
  | v4 (address : Ipv4)
  | v6 (address : Ipv6)
deriving DecidableEq, Repr

inductive Endpoint where
  | v4 (address : Ipv4) (port : UInt16)
  | v6 (address : Ipv6) (scope : UInt32) (port : UInt16)
deriving DecidableEq, Repr

def Ipv4.loopback : Ipv4 := ⟨127, 0, 0, 1⟩

def Ip.at (port : UInt16) : Ip → Endpoint
  | .v4 address => .v4 address port
  | .v6 address => .v6 address 0 port

def Endpoint.ip : Endpoint → Ip
  | .v4 address _ => .v4 address
  | .v6 address _ _ => .v6 address

def Endpoint.port : Endpoint → UInt16
  | .v4 _ port => port
  | .v6 _ _ port => port

def Ipv4.text (a : Ipv4) : List Char :=
  Numeral.text 10 a.first.toNat ++ '.' :: Numeral.text 10 a.second.toNat ++
    '.' :: Numeral.text 10 a.third.toNat ++ '.' :: Numeral.text 10 a.fourth.toNat

def Ipv4.groups (a : Ipv4) : List UInt16 :=
  [a.first.toUInt16 <<< 8 ||| a.second.toUInt16, a.third.toUInt16 <<< 8 ||| a.fourth.toUInt16]

def Ipv4.ofGroups (high low : UInt16) : Ipv4 :=
  ⟨(high >>> 8).toUInt8, high.toUInt8, (low >>> 8).toUInt8, low.toUInt8⟩

/-- Start and length of the first of the longest runs of zero groups. -/
def longestZeros : List UInt16 → Nat × Nat
  | [] => (0, 0)
  | group :: rest =>
    let here := ((group :: rest).takeWhile (· == 0)).length
    let later := longestZeros rest
    if later.2 ≤ here then (0, here) else (later.1 + 1, later.2)

def groupsText (groups : List UInt16) : List Char :=
  List.intercalate [':'] (groups.map fun group => Numeral.text 16 group.toNat)

/-- The four octets wrapped by an address of the form `::ffff:a.b.c.d`. -/
def Ipv6.wrapped? (a : Ipv6) : Option Ipv4 :=
  match a.groups with
  | [0, 0, 0, 0, 0, 0xffff, high, low] => some (.ofGroups high low)
  | _ => none

def Ipv6.text (a : Ipv6) : List Char :=
  match a.wrapped? with
  | some inner => "::ffff:".toList ++ inner.text
  | none =>
    let (start, count) := longestZeros a.groups
    if 1 < count then
      groupsText (a.groups.take start) ++ ':' :: ':' :: groupsText (a.groups.drop (start + count))
    else
      groupsText a.groups

def Ip.text : Ip → List Char
  | .v4 address => address.text
  | .v6 address => address.text

/-- A scope of zero is left out. -/
def Endpoint.text : Endpoint → List Char
  | .v4 address port => address.text ++ ':' :: Numeral.text 10 port.toNat
  | .v6 address scope port =>
    '[' :: address.text ++ (if scope = 0 then [] else '%' :: Numeral.text 10 scope.toNat) ++
      ']' :: ':' :: Numeral.text 10 port.toNat

end Courier.Address
