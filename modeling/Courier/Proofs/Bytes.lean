import Courier.Bytes
import Mathlib.Algebra.Group.Nat.Defs

/-!
# Words of bytes

Writing a number into so many bytes and reading it back loses what does not fit in them,
and nothing else.
-/

namespace Courier.Bytes

theorem toNat_littleEndian (width n : Nat) : toNat (littleEndian width n) = n % 256 ^ width := by
  induction width generalizing n with
  | zero => simp [littleEndian, toNat, Nat.mod_one]
  | succ width ih =>
    rw [littleEndian, toNat, ih, Nat.pow_succ', Nat.mod_mul]
    simp

theorem toNat_lt (bs : Bytes) : toNat bs < 256 ^ bs.length := by
  induction bs with
  | nil => simp [toNat]
  | cons b rest ih =>
    have hb : b.toNat < 256 := b.toNat_lt
    simp only [toNat, List.length_cons, Nat.pow_succ]
    omega

theorem littleEndian_toNat (bs : Bytes) : littleEndian bs.length (toNat bs) = bs := by
  induction bs with
  | nil => rfl
  | cons b rest ih =>
    have hb : b.toNat < 256 := b.toNat_lt
    have hd : (b.toNat + 256 * toNat rest) / 256 = toNat rest := by omega
    have hm : UInt8.ofNat (b.toNat + 256 * toNat rest) = b := by
      apply UInt8.toNat_inj.mp
      rw [UInt8.toNat_ofNat']
      omega
    simp [littleEndian, toNat, hd, hm, ih]

theorem littleEndian_toNat_of_length {bs : Bytes} (h : bs.length = width) :
    littleEndian width (toNat bs) = bs :=
  h ▸ littleEndian_toNat bs

end Courier.Bytes
