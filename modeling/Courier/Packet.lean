import Courier.Bytes
import Courier.Status

/-!
# Packets

The record that a host lends with every submit. The host fills in all of it; a
delivery writes the status and the result, and nothing else ever writes to it.
The result is absent exactly when it is empty.
-/

namespace Courier

structure Packet where
  userData : UInt64 := 0
  data : Option Bytes := none
  dataSize : UInt32 := 0
  tag : UInt16 := 0
  operation : UInt8 := 0
  status : UInt8 := 0
  result : Option Bytes := none
  resultSize : UInt32 := 0
  reserved : UInt32 := 0
deriving DecidableEq, Repr

structure Report where
  outcome : Outcome
  result : Bytes
deriving DecidableEq, Repr

namespace Report

/-- A result has to have a size of four bytes. One that is too large for that
makes a report of its own. -/
def of (outcome : Outcome) (result : Bytes) : Report :=
  if result.length < UInt32.size then ⟨outcome, result⟩ else ⟨.tooMuchData, []⟩

def pointer (r : Report) : Option Bytes := if r.result.isEmpty then none else some r.result

def size (r : Report) : UInt32 := UInt32.ofNat r.result.length

end Report

namespace Packet

def outcome? (p : Packet) : Option Outcome := Outcome.ofCode? p.status

/-- The payload to send. The size is judged before the data is looked at. -/
def request (p : Packet) (limit : UInt32) : Except Outcome Bytes :=
  if limit < p.dataSize then .error .tooMuchData
  else if p.dataSize = 0 then .ok []
  else
    match p.data with
    | none => .error .invalidDataSize
    | some data => .ok (data.take p.dataSize.toNat)

def fill (p : Packet) (r : Report) : Packet :=
  { p with status := r.outcome.code, result := r.pointer, resultSize := r.size }

end Packet

abbrev PacketId := Nat

abbrev Memory := PacketId → Packet

def Memory.set (m : Memory) (id : PacketId) (p : Packet) : Memory :=
  fun other => if other = id then p else m other

end Courier
