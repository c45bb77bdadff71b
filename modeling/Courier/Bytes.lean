/-!
# Byte strings and little-endian words

A byte string is a list of bytes. Numbers travel as a fixed count of bytes,
low byte first; what does not fit in the count is cut off at the top.
-/

namespace Courier

abbrev Bytes := List UInt8

namespace Bytes

/-- The low `width` bytes of a number, low byte first. -/
def littleEndian : (width : Nat) → Nat → Bytes
  | 0, _ => []
  | width + 1, n => UInt8.ofNat n :: littleEndian width (n / 256)

def toNat : Bytes → Nat
  | [] => 0
  | b :: rest => b.toNat + 256 * toNat rest

@[simp] theorem length_littleEndian (width n : Nat) : (littleEndian width n).length = width := by
  induction width generalizing n with
  | zero => rfl
  | succ width ih => simp [littleEndian, ih]

end Bytes

end Courier
