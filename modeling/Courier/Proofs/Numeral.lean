import Courier.Numeral
import Mathlib.Algebra.Group.Nat.Defs

/-!
# Numerals read back

The text of a number has digits of its radix only, spells that number, and has a zero
in front only where it is the whole text. Where no zero stands in front, so many digits spell no
less than the power of the radix with one digit fewer.
-/

namespace Courier

theorem digit?_digitChar : ∀ d < 16, digit? (Nat.digitChar d) = some d := by decide

theorem digitChar_ne_zero : ∀ d < 16, 0 < d → Nat.digitChar d ≠ '0' := by decide

theorem isDigit_iff : isDigit radix c = true ↔ ∃ d < radix, digit? c = some d := by
  cases h : digit? c <;> simp [isDigit, h]

theorem toNat_of_isDigit (h : isDigit radix c = true) : 0x30 ≤ c.toNat ∧ c.toNat ≤ 0x66 := by
  obtain ⟨d, -, hd⟩ := isDigit_iff.mp h
  simp only [digit?, Char.le_def, UInt32.le_iff_toNat_le] at hd
  change (if 0x30 ≤ c.toNat ∧ c.toNat ≤ 0x39 then _ else if 0x61 ≤ c.toNat ∧ c.toNat ≤ 0x66 then _
    else if 0x41 ≤ c.toNat ∧ c.toNat ≤ 0x46 then _ else _) = _ at hd
  split at hd
  · omega
  · split at hd
    · omega
    · split at hd
      · omega
      · cases hd

theorem eq_zero_of_digit? (h : digit? c = some 0) : c = '0' := by
  unfold digit? at h
  split at h
  · next within =>
    have low : '0'.toNat ≤ c.toNat := UInt32.le_iff_toNat_le.mp (Char.le_def.mp within.1)
    have none : c.toNat - '0'.toNat = 0 := Option.some.inj h
    exact Char.toNat_inj.mp (by omega)
  · split at h
    · cases h
    · split at h
      · cases h
      · cases h

theorem isDigit_mono (h : isDigit radix c = true) (le : radix ≤ most) : isDigit most c = true := by
  obtain ⟨d, lt, hd⟩ := isDigit_iff.mp h
  exact isDigit_iff.mpr ⟨d, Nat.lt_of_lt_of_le lt le, hd⟩

namespace Numeral

theorem text_eq_if (base : 1 < radix) (n : Nat) : text radix n =
    if n < radix then [n.digitChar] else text radix (n / radix) ++ [(n % radix).digitChar] :=
  Nat.toDigits_eq_if base

theorem text_ne_nil : text radix n ≠ [] := Nat.toDigits_ne_nil

theorem value_concat (radix : Nat) (digits : List Char) (c : Char) :
    value radix (digits ++ [c]) = value radix digits * radix + (digit? c).getD 0 := by
  simp [value]

theorem foldl_digits (radix n : Nat) (digits : List Char) :
    digits.foldl (fun n c => n * radix + (digit? c).getD 0) n =
      n * radix ^ digits.length + value radix digits := by
  induction digits generalizing n with
  | nil => simp [value]
  | cons c digits ih =>
    rw [value, List.foldl_cons, List.foldl_cons, ih, ih, List.length_cons, Nat.pow_succ']
    grind

theorem value_cons (radix : Nat) (c : Char) (digits : List Char) :
    value radix (c :: digits) = (digit? c).getD 0 * radix ^ digits.length + value radix digits := by
  rw [value, List.foldl_cons, Nat.zero_mul, Nat.zero_add, foldl_digits]

theorem pow_le_value (first : isDigit radix c = true) (ne : c ≠ '0') (digits : List Char) :
    radix ^ digits.length ≤ value radix (c :: digits) := by
  obtain ⟨d, -, hd⟩ := isDigit_iff.mp first
  have pos : 0 < d := by
    refine Nat.pos_of_ne_zero ?_
    rintro rfl
    exact ne (eq_zero_of_digit? hd)
  rw [value_cons, hd, Option.getD_some]
  exact Nat.le_trans (Nat.le_mul_of_pos_left _ pos) (Nat.le_add_right _ _)

section

variable (base : 1 < radix) (most : radix ≤ 16)

include base most

theorem value_text (n : Nat) : value radix (text radix n) = n := by
  induction n using Nat.strongRecOn with
  | ind n ih =>
    rw [text_eq_if base]
    split
    · next small => simp [value, digit?_digitChar n (Nat.lt_of_lt_of_le small most)]
    · next large =>
      have last : n % radix < radix := Nat.mod_lt n (by omega)
      have fewer : n / radix < n := Nat.div_lt_self (by omega) base
      rw [value_concat, ih _ fewer, digit?_digitChar _ (Nat.lt_of_lt_of_le last most)]
      exact Nat.div_add_mod' n radix

theorem isDigit_of_mem_text (n : Nat) : ∀ c ∈ text radix n, isDigit radix c = true := by
  have digit (d : Nat) (h : d < radix) : isDigit radix d.digitChar = true :=
    isDigit_iff.mpr ⟨d, h, digit?_digitChar d (Nat.lt_of_lt_of_le h most)⟩
  induction n using Nat.strongRecOn with
  | ind n ih =>
    intro c hc
    rw [text_eq_if base] at hc
    split at hc
    · next small => exact List.mem_singleton.mp hc ▸ digit n small
    · next large =>
      rcases List.mem_append.mp hc with hc | hc
      · exact ih _ (Nat.div_lt_self (by omega) base) c hc
      · exact List.mem_singleton.mp hc ▸ digit _ (Nat.mod_lt n (by omega))

theorem head?_text_ne_zero {n : Nat} (pos : 0 < n) : (text radix n).head? ≠ some '0' := by
  induction n using Nat.strongRecOn with
  | ind n ih =>
    rw [text_eq_if base]
    split
    · next small =>
      have first := digitChar_ne_zero n (Nat.lt_of_lt_of_le small most) pos
      simpa using first
    · next large =>
      have first := ih (n / radix) (Nat.div_lt_self pos base) (Nat.div_pos (by omega) (by omega))
      obtain ⟨c, digits, hdigits⟩ := List.exists_cons_of_ne_nil (text_ne_nil (n := n / radix))
      rw [hdigits] at first ⊢
      exact first

theorem length_text_of_zero (n : Nat) (zero : (text radix n).head? = some '0') :
    (text radix n).length = 1 := by
  rcases Nat.eq_zero_or_pos n with rfl | pos
  · simp [text]
  · exact absurd zero (head?_text_ne_zero base most pos)

end

end Numeral

end Courier
