import Courier.Frame.Basic

/-!
# Requests and replies

The two kinds of frame. A request names the cluster, the operation and a tag in
front of its payload; a reply has one status byte there. Neither payload is
looked into.
-/

namespace Courier

structure Cluster where
  bytes : Bytes
  length_bytes : bytes.length = 16
deriving DecidableEq, Repr

namespace Cluster

def zero : Cluster := ⟨List.replicate 16 0, rfl⟩

def ofBytes? (bytes : Bytes) : Option Cluster :=
  if h : bytes.length = 16 then some ⟨bytes, h⟩ else none

end Cluster

namespace Frame

structure Request where
  cluster : Cluster
  operation : UInt8
  tag : UInt16
  payload : Bytes
deriving DecidableEq, Repr

structure Reply where
  status : UInt8
  payload : Bytes
deriving DecidableEq, Repr

namespace Request

abbrev headerSize : Nat := 19

def header (r : Request) : Bytes :=
  r.cluster.bytes ++ r.operation :: Bytes.littleEndian 2 r.tag.toNat

@[simp] theorem length_header (r : Request) : r.header.length = headerSize := by
  simp [header, r.cluster.length_bytes]

def encode (r : Request) (limit : UInt32) : Except EncodeError Bytes :=
  Frame.encode r.header r.payload limit

def ofBody (body : Body headerSize) : Request where
  cluster := ⟨body.bytes.take 16,
    List.length_take_of_le (Nat.le_trans (by decide) body.header_le)⟩
  operation := body.bytes.get ⟨16, Nat.lt_of_lt_of_le (by decide) body.header_le⟩
  tag := UInt16.ofNat (Bytes.toNat ((body.bytes.drop 17).take 2))
  payload := body.bytes.drop headerSize

def decode (bytes : Bytes) (limit : UInt32) : Except DecodeError (Request × Nat) := do
  let body ← split bytes headerSize limit
  return (ofBody body, body.used)

end Request

namespace Reply

abbrev headerSize : Nat := 1

def header (r : Reply) : Bytes := [r.status]

def encode (r : Reply) (limit : UInt32) : Except EncodeError Bytes :=
  Frame.encode r.header r.payload limit

def parse : Bytes → Except DecodeError Reply
  | [] => .error .truncated
  | status :: payload => .ok ⟨status, payload⟩

def decode (bytes : Bytes) (limit : UInt32) : Except DecodeError (Reply × Nat) := do
  let body ← split bytes headerSize limit
  let reply ← parse body.bytes
  return (reply, body.used)

end Reply

end Frame

end Courier
