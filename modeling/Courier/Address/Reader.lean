import Courier.Address.Ip

/-!
# Reading addresses off a text

A reader takes what it understands off the front of a text and leaves the rest,
or fails and takes nothing. A number takes all the digits there are, so that one
too many makes it fail instead of ending it early.
-/

namespace Courier.Address

abbrev Reader := StateT (List Char) Option

namespace Reader

def char (c : Char) : Reader Unit := fun text =>
  match text with
  | [] => none
  | d :: rest => if d = c then some ((), rest) else none

/-- A number of the radix up to `most`. `width` bounds the count of digits where
there is a bound, and a leading zero may be forbidden. -/
def number (radix : Nat) (width : Option Nat) (leadingZero : Bool) (most : Nat) : Reader Nat :=
  fun text =>
    let digits := text.takeWhile (isDigit radix)
    let value := Numeral.value radix digits
    if digits = [] then none
    else if width.any (· < digits.length) then none
    else if !leadingZero && digits.head? == some '0' && 1 < digits.length then none
    else if most < value then none
    else some (value, text.dropWhile (isDigit radix))

/-- The separator stands before every element but the first. -/
def separated {α : Type} (separator : Char) (index : Nat) (element : Reader α) : Reader α := do
  if 0 < index then char separator
  element

def octet : Reader UInt8 := UInt8.ofNat <$> number 10 (some 3) false 255

def group : Reader UInt16 := UInt16.ofNat <$> number 16 (some 4) true 0xffff

def port : Reader UInt16 := do
  char ':'
  UInt16.ofNat <$> number 10 none true 0xffff

def scope : Reader UInt32 := do
  char '%'
  UInt32.ofNat <$> number 10 none true 0xffffffff

def ipv4 : Reader Ipv4 := do
  let first ← separated '.' 0 octet
  let second ← separated '.' 1 octet
  let third ← separated '.' 2 octet
  let fourth ← separated '.' 3 octet
  return ⟨first, second, third, fourth⟩

/-- As many groups as there are, `room` at most, of which `index` have been read.
Four dotted octets stand for two groups and end the run; the answer says whether
they did. -/
def groups (index : Nat) : (room : Nat) → List Char → (List UInt16 × Bool) × List Char
  | 0, text => (([], false), text)
  | room + 1, text =>
    match if 0 < room then separated ':' index ipv4 text else none with
    | some (dotted, rest) => ((dotted.groups, true), rest)
    | none =>
      match separated ':' index group text with
      | none => (([], false), text)
      | some (g, rest) =>
        let ((gs, dotted), rest) := groups (index + 1) room rest
        ((g :: gs, dotted), rest)

theorem length_groups_le (index room : Nat) (text : List Char) :
    (groups index room text).1.1.length ≤ room := by
  induction room generalizing index text with
  | zero => simp [groups]
  | succ room ih =>
    rw [groups]
    split
    · rename_i h
      split at h
      · simp [Ipv4.groups]
        omega
      · contradiction
    · split
      · simp
      · simpa using ih _ _

/-- Eight groups, or fewer around one double colon that stands for at least one
zero group. Dotted octets end the groups, so none may follow them. -/
def ipv6 : Reader Ipv6 := fun text =>
  match hh : groups 0 8 text with
  | ((front, dotted), rest) =>
    if h : front.length = 8 then some (⟨front, h⟩, rest)
    else if dotted then none
    else do
      let (_, rest) ← char ':' rest
      let (_, rest) ← char ':' rest
      match ht : groups 0 (7 - front.length) rest with
      | ((back, _), after) =>
        some (⟨front ++ List.replicate (8 - front.length - back.length) 0 ++ back, by
          have hf := length_groups_le 0 8 text
          have hb := length_groups_le 0 (7 - front.length) rest
          rw [hh] at hf
          rw [ht] at hb
          simp only [List.length_append, List.length_replicate]
          simp only at hf hb
          omega⟩, after)

def ip : Reader Ip := Ip.v4 <$> ipv4 <|> Ip.v6 <$> ipv6

def endpointV4 : Reader Endpoint := do
  let address ← ipv4
  return .v4 address (← port)

def endpointV6 : Reader Endpoint := do
  char '['
  let address ← ipv6
  let scope ← scope <|> pure 0
  char ']'
  return .v6 address scope (← port)

def endpoint : Reader Endpoint := endpointV4 <|> endpointV6

def whole? {α : Type} (reader : Reader α) (text : List Char) : Option α :=
  match reader text with
  | some (a, []) => some a
  | _ => none

end Reader

end Courier.Address
