import Courier.Bytes

/-!
# Length-prefixed frames

A frame is four bytes of length, a header of fixed size and a payload; the
length counts header and payload. Writing checks the payload against a limit.
Taking a frame off the front of a byte string checks, in this order, that the
length is there, that it covers the header, that the payload keeps the limit,
and that the whole body is there.
-/

namespace Courier.Frame

inductive EncodeError where
  | tooLarge (payload : Nat)
deriving DecidableEq, Repr

inductive DecodeError where
  | needMore
  | tooLarge (body : Nat)
  | truncated
deriving DecidableEq, Repr

def EncodeError.message : EncodeError → String
  | .tooLarge payload => s!"payload of {payload} bytes exceeds frame limit"

def DecodeError.message : DecodeError → String
  | .needMore => "need more bytes"
  | .tooLarge body => s!"frame of {body} bytes exceeds limit"
  | .truncated => "frame shorter than its header"

abbrev leadSize : Nat := 4

/-- What stands in front of a payload of the given size. Only the payload is checked
against the limit. The length written is that of header and payload together, cut to
four bytes. -/
def front (header : Bytes) (size : Nat) (limit : UInt32) : Except EncodeError Bytes :=
  if limit.toNat < size then
    .error (.tooLarge size)
  else
    .ok (Bytes.littleEndian leadSize (header.length + size) ++ header)

def encode (header payload : Bytes) (limit : UInt32) : Except EncodeError Bytes :=
  return (← front header payload.length limit) ++ payload

/-- The length of the body announced by the lead bytes. -/
def bodyLength (lead : Bytes) (header : Nat) (limit : UInt32) : Except DecodeError Nat :=
  let body := Bytes.toNat lead
  if body < header then .error .truncated
  else if limit.toNat < body - header then .error (.tooLarge body)
  else .ok body

theorem header_le_of_bodyLength {lead : Bytes} {header body : Nat} {limit : UInt32}
    (h : bodyLength lead header limit = .ok body) : header ≤ body := by
  unfold bodyLength at h
  grind

/-- A body taken off the front of a byte string. It holds its header, so the
fields in there can be read without a further check. -/
structure Body (header : Nat) where
  bytes : Bytes
  used : Nat
  header_le : header ≤ bytes.length

def split (bytes : Bytes) (header : Nat) (limit : UInt32) : Except DecodeError (Body header) :=
  if bytes.length < leadSize then .error .needMore
  else
    match h : bodyLength (bytes.take leadSize) header limit with
    | .error e => .error e
    | .ok body =>
      if hb : bytes.length < leadSize + body then .error .needMore
      else .ok
        { bytes := (bytes.drop leadSize).take body
          used := leadSize + body
          header_le := by
            have := header_le_of_bodyLength h
            simp only [List.length_take, List.length_drop]
            omega }

theorem used_of_split {bytes : Bytes} {header : Nat} {limit : UInt32} {body : Body header}
    (h : split bytes header limit = .ok body) :
    body.used = leadSize + body.bytes.length ∧ body.used ≤ bytes.length := by
  unfold split at h
  split at h
  · contradiction
  · split at h
    · contradiction
    · split at h
      · contradiction
      · injection h with h
        subst h
        simp only [List.length_take, List.length_drop]
        omega

theorem used_pos_of_split {bytes : Bytes} {header : Nat} {limit : UInt32} {body : Body header}
    (h : split bytes header limit = .ok body) : 0 < body.used ∧ body.used ≤ bytes.length := by
  have := used_of_split h
  simp only [leadSize] at this
  omega

end Courier.Frame
