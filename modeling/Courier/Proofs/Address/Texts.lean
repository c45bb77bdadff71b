import Courier.Proofs.Address.Grammar

/-!
# Texts of addresses

The canonical texts are among those that addresses and endpoints can have: groups with colons
between them, a gap where the longest run of zeros was, octets with dots.
-/

namespace Courier.Address

theorem join_octets (g : UInt16) :
    (g >>> 8).toUInt8.toUInt16 <<< 8 ||| g.toUInt8.toUInt16 = g := by
  have lt := g.toNat_lt
  have low : g.toNat % 256 < 2 ^ 8 := Nat.mod_lt _ (by decide)
  rw [← UInt16.toNat_inj]
  simp only [UInt16.toNat_or, UInt16.toNat_shiftLeft, UInt8.toNat_toUInt16, UInt16.toNat_toUInt8,
    UInt16.toNat_shiftRight, UInt16.reduceToNat, Nat.reduceMod, Nat.shiftRight_eq_div_pow]
  have high : (g.toNat / 2 ^ 8 % 2 ^ 8) <<< 8 % 2 ^ 16 = (g.toNat / 2 ^ 8) <<< 8 := by
    rw [Nat.shiftLeft_eq, Nat.shiftLeft_eq]
    omega
  rw [high, ← Nat.shiftLeft_add_eq_or_of_lt low, Nat.shiftLeft_eq]
  omega

theorem groups_ofGroups (high low : UInt16) : (Ipv4.ofGroups high low).groups = [high, low] := by
  simp only [Ipv4.groups, Ipv4.ofGroups, join_octets]

theorem groups_of_wrapped {a : Ipv6} {inner : Ipv4} (h : a.wrapped? = some inner) :
    a.groups = [0, 0, 0, 0, 0, 0xffff] ++ inner.groups := by
  unfold Ipv6.wrapped? at h
  split at h
  · next groups =>
    cases h
    rw [groups, groups_ofGroups]
    rfl
  · cases h

theorem longestZeros_spec (groups : List UInt16) :
    (longestZeros groups).1 + (longestZeros groups).2 ≤ groups.length ∧
    groups.take (longestZeros groups).1 ++ List.replicate (longestZeros groups).2 0 ++
      groups.drop ((longestZeros groups).1 + (longestZeros groups).2) = groups := by
  induction groups with
  | nil => simp [longestZeros]
  | cons g gs ih =>
    rw [longestZeros]
    split
    · have parts := List.takeWhile_append_dropWhile (p := (· == 0)) (l := g :: gs)
      have zeros : (g :: gs).takeWhile (· == 0) =
          List.replicate ((g :: gs).takeWhile (· == 0)).length 0 := by
        refine List.eq_replicate_iff.mpr ⟨rfl, ?_⟩
        intro b hb
        simpa using List.all_eq_true.mp List.all_takeWhile b hb
      have others : (g :: gs).drop ((g :: gs).takeWhile (· == 0)).length =
          (g :: gs).dropWhile (· == 0) := by
        have dropped := congrArg (List.drop ((g :: gs).takeWhile (· == 0)).length) parts
        rw [← dropped, List.drop_left]
      refine ⟨?_, ?_⟩
      · rw [Nat.zero_add]
        exact (List.takeWhile_sublist _).length_le
      · rw [List.take_zero, List.nil_append, Nat.zero_add, others, ← zeros, parts]
    · simp only [List.length_cons]
      refine ⟨by omega, ?_⟩
      rw [show (longestZeros gs).1 + 1 + (longestZeros gs).2 =
        (longestZeros gs).1 + (longestZeros gs).2 + 1 by omega]
      simpa using ih.2

-- ---------------------------------------------------------------------------
-- Canonical texts
-- ---------------------------------------------------------------------------

theorem spelled_text (base : 1 < radix) (most : radix ≤ 16) (n : Nat) :
    Spelled radix (Numeral.text radix n) n :=
  ⟨Numeral.text_ne_nil, Numeral.isDigit_of_mem_text base most n, Numeral.value_text base most n⟩

theorem octetText_text (b : UInt8) : OctetText (Numeral.text 10 b.toNat) b where
  spelled := spelled_text (by decide) (by decide) b.toNat
  plain := Numeral.length_text_of_zero (by decide) (by decide) b.toNat

theorem groupText_text (g : UInt16) : GroupText (Numeral.text 16 g.toNat) g where
  spelled := spelled_text (by decide) (by decide) g.toNat
  short := (Nat.length_toDigits_le_iff (by decide) (by decide)).mpr g.toNat_lt

theorem portText_text (n : UInt16) : PortText (Numeral.text 10 n.toNat) n :=
  spelled_text (by decide) (by decide) n.toNat

theorem ipv4Text_text (a : Ipv4) : Ipv4Text a.text a :=
  .octets (octetText_text a.first) (octetText_text a.second) (octetText_text a.third)
    (octetText_text a.fourth)

theorem groupsText_text (g : UInt16) (gs : List UInt16) :
    GroupsText false (groupsText (g :: gs)) (g :: gs) := by
  induction gs generalizing g with
  | nil =>
    rw [groupsText, List.map_singleton, List.intercalate_singleton]
    exact .group (groupText_text g)
  | cons h gs ih =>
    have rest := ih h
    simp only [groupsText, List.map_cons] at rest ⊢
    rw [List.intercalate_cons_cons, List.append_assoc]
    exact .cons (groupText_text g) rest

theorem sideText_text (gs : List UInt16) : SideText false (groupsText gs) gs := by
  cases gs with
  | nil => exact .none
  | cons g gs => exact .groups (groupsText_text g gs)

theorem ipv6Text_text (a : Ipv6) : Ipv6Text a.text a := by
  unfold Ipv6.text
  cases wrapped : a.wrapped? with
  | some inner =>
    have octets : GroupsText true ("ffff".toList ++ ':' :: inner.text) (0xffff :: inner.groups) :=
      .cons (groupText_text 0xffff) (.octets (ipv4Text_text inner))
    exact .gap .none (.groups octets) (by decide : 0 < 5) (groups_of_wrapped wrapped)
  | none =>
    obtain ⟨inside, gap⟩ := longestZeros_spec a.groups
    generalize longestZeros a.groups = run at inside gap
    obtain ⟨start, count⟩ := run
    simp only at inside gap ⊢
    split
    · next some =>
      exact .gap (sideText_text _) (sideText_text _) (Nat.lt_of_succ_lt some) gap.symm
    · obtain ⟨groups, length⟩ := a
      cases groups with
      | nil => cases length
      | cons g gs => exact .full (groupsText_text g gs)

theorem ipText_text (a : Ip) : IpText a.text a := by
  cases a with
  | v4 a => exact .v4 (ipv4Text_text a)
  | v6 a => exact .v6 (ipv6Text_text a)

theorem endpointText_text (e : Endpoint) : EndpointText e.text e := by
  cases e with
  | v4 a n => exact .v4 (ipv4Text_text a) (portText_text n)
  | v6 a m n =>
    by_cases zero : m = 0
    · simp only [Endpoint.text, zero, if_true, List.append_nil]
      exact .v6 (ipv6Text_text a) (portText_text n)
    · simp only [Endpoint.text, zero, if_false]
      exact .v6Scope (ipv6Text_text a) (spelled_text (by decide) (by decide) m.toNat)
        (portText_text n)

end Courier.Address
