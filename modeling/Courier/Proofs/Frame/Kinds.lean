import Courier.Proofs.Bytes
import Courier.Proofs.Frame.Streams

/-!
# The two kinds of frame

Requests and replies differ in their headers alone. What holds of both is said of a kind: a
message is written as its header and its payload, and is read back from a body that holds
just these.
-/

namespace Courier.Frame

inductive Kind where
  | request
  | reply
deriving DecidableEq, Repr

namespace Kind

abbrev Message : Kind → Type
  | request => Request
  | reply => Reply

def headerSize : Kind → Nat
  | request => Request.headerSize
  | reply => Reply.headerSize

def header : (kind : Kind) → kind.Message → Bytes
  | request => Request.header
  | reply => Reply.header

def payload : (kind : Kind) → kind.Message → Bytes
  | request => Request.payload
  | reply => Reply.payload

def encode : (kind : Kind) → kind.Message → UInt32 → Except EncodeError Bytes
  | request => Request.encode
  | reply => Reply.encode

def decoder : (kind : Kind) → UInt32 → Decoder kind.Message
  | request => Decoder.request
  | reply => Decoder.reply

def ofBody : (kind : Kind) → Body kind.headerSize → kind.Message
  | request, body => Request.ofBody body
  | reply, body => ⟨body.bytes.get ⟨0, body.header_le⟩, body.bytes.drop Reply.headerSize⟩

variable (kind : Kind) {limit : UInt32}

@[simp] theorem length_header (m : kind.Message) : (kind.header m).length = kind.headerSize := by
  cases kind with
  | request => exact Request.length_header m
  | reply => rfl

theorem encode_eq (m : kind.Message) (limit : UInt32) :
    kind.encode m limit = Frame.encode (kind.header m) (kind.payload m) limit := by
  cases kind <;> rfl

theorem decode_eq (bytes : Bytes) (limit : UInt32) : (kind.decoder limit).decode bytes =
    (split bytes kind.headerSize limit).map fun body => (kind.ofBody body, body.used) := by
  cases kind with
  | request =>
    change Request.decode bytes limit = (split bytes Request.headerSize limit).map _
    unfold Request.decode
    cases split bytes Request.headerSize limit <;> rfl
  | reply =>
    change Reply.decode bytes limit = (split bytes Reply.headerSize limit).map _
    unfold Reply.decode
    cases split bytes Reply.headerSize limit with
    | error e => rfl
    | ok body =>
      obtain ⟨content, used, hheader⟩ := body
      cases content with
      | nil => cases hheader
      | cons => rfl

theorem ofBody_request {body : Body Request.headerSize} (r : Request)
    (h : body.bytes = r.header ++ r.payload) : Request.ofBody body = r := by
  obtain ⟨⟨cluster, hcluster⟩, operation, tag, payload⟩ := r
  obtain ⟨content, used, hheader⟩ := body
  obtain rfl := h
  have htag : UInt16.ofNat (Bytes.toNat (Bytes.littleEndian 2 tag.toNat)) = tag := by
    rw [Bytes.toNat_littleEndian, Nat.mod_eq_of_lt (b := 256 ^ 2) tag.toNat_lt]
    exact UInt16.ofNat_toNat
  have hpast (n : Nat) (h : 16 ≤ n) : cluster.drop n = [] :=
    List.drop_eq_nil_of_le (hcluster ▸ h)
  simp [Request.ofBody, Request.header, Request.headerSize, List.drop_append, hcluster, hpast, htag]

theorem ofBody_eq {body : Body kind.headerSize} (m : kind.Message)
    (h : body.bytes = kind.header m ++ kind.payload m) : kind.ofBody body = m := by
  cases kind with
  | request => exact ofBody_request m h
  | reply =>
    obtain ⟨content, used, hheader⟩ := body
    obtain rfl := h
    rfl

end Kind

end Courier.Frame
