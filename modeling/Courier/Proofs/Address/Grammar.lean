import Courier.Address.Ip
import Courier.Proofs.Numeral

/-!
# What addresses look like

The languages of addresses and endpoints, apart from any reader. Four octets have dots between
them and no zeros in front. Groups have colons between them, and the last two of an address may be
written as four octets; a gap stands for some groups of zeros, at least one. An endpoint has a port
behind its address, and eight groups are put in brackets there, perhaps with a scope.
-/

namespace Courier.Address

structure Spelled (radix : Nat) (digits : List Char) (n : Nat) : Prop where
  nonempty : digits ≠ []
  all : ∀ c ∈ digits, isDigit radix c = true
  value : Numeral.value radix digits = n

/-- A zero stands in front only where it is the whole octet. -/
structure OctetText (digits : List Char) (b : UInt8) : Prop where
  spelled : Spelled 10 digits b.toNat
  plain : digits.head? = some '0' → digits.length = 1

structure GroupText (digits : List Char) (g : UInt16) : Prop where
  spelled : Spelled 16 digits g.toNat
  short : digits.length ≤ 4

/-- Zeros in front of a port do not count, however many there are. -/
abbrev PortText (digits : List Char) (port : UInt16) : Prop := Spelled 10 digits port.toNat

inductive Ipv4Text : List Char → Ipv4 → Prop
  | octets (first : OctetText s a.first) (second : OctetText t a.second)
      (third : OctetText u a.third) (fourth : OctetText v a.fourth) :
      Ipv4Text (s ++ '.' :: t ++ '.' :: u ++ '.' :: v) a

/-- Some groups in a row, and whether the last two are written as four octets. -/
inductive GroupsText : (dotted : Bool) → List Char → List UInt16 → Prop
  | group (last : GroupText digits g) : GroupsText false digits [g]
  | octets (last : Ipv4Text text a) : GroupsText true text a.groups
  | cons (first : GroupText digits g) (rest : GroupsText dotted text gs) :
      GroupsText dotted (digits ++ ':' :: text) (g :: gs)

inductive SideText : (dotted : Bool) → List Char → List UInt16 → Prop
  | none : SideText false [] []
  | groups (run : GroupsText dotted text gs) : SideText dotted text gs

inductive Ipv6Text : List Char → Ipv6 → Prop
  | full (all : GroupsText dotted text a.groups) : Ipv6Text text a
  | gap (front : SideText false before gs) (back : SideText dotted behind hs) (pos : 0 < zeros)
      (all : a.groups = gs ++ List.replicate zeros 0 ++ hs) :
      Ipv6Text (before ++ ':' :: ':' :: behind) a

inductive IpText : List Char → Ip → Prop
  | v4 (address : Ipv4Text text a) : IpText text (.v4 a)
  | v6 (address : Ipv6Text text a) : IpText text (.v6 a)

inductive EndpointText : List Char → Endpoint → Prop
  | v4 (address : Ipv4Text text a) (port : PortText digits n) :
      EndpointText (text ++ ':' :: digits) (.v4 a n)
  | v6 (address : Ipv6Text text a) (port : PortText digits n) :
      EndpointText ('[' :: text ++ ']' :: ':' :: digits) (.v6 a 0 n)
  | v6Scope (address : Ipv6Text text a) (scope : Spelled 10 number m.toNat)
      (port : PortText digits n) :
      EndpointText ('[' :: text ++ '%' :: number ++ ']' :: ':' :: digits) (.v6 a m n)

-- ---------------------------------------------------------------------------
-- Digits
-- ---------------------------------------------------------------------------

theorem OctetText.length_le (h : OctetText digits b) : digits.length ≤ 3 := by
  obtain ⟨⟨nonempty, all, value⟩, plain⟩ := h
  obtain ⟨c, more, rfl⟩ := List.exists_cons_of_ne_nil nonempty
  by_cases zero : c = '0'
  · subst zero
    exact Nat.le_trans (Nat.le_of_eq (plain rfl)) (by decide)
  · have le := Numeral.pow_le_value (all c List.mem_cons_self) zero more
    have lt : 10 ^ more.length < 10 ^ 3 := by
      have := b.toNat_lt
      omega
    exact (Nat.pow_lt_pow_iff_right (by decide)).mp lt

-- ---------------------------------------------------------------------------
-- Characters
-- ---------------------------------------------------------------------------

def IpChar (c : Char) : Prop := isDigit 16 c = true ∨ c = '.' ∨ c = ':'

def EndpointChar (c : Char) : Prop := IpChar c ∨ c = '[' ∨ c = ']' ∨ c = '%'

theorem IpChar.colon : IpChar ':' := .inr (.inr rfl)

theorem Spelled.ipChar (h : Spelled radix digits n) (le : radix ≤ 16) : ∀ c ∈ digits, IpChar c :=
  fun c hc => .inl (isDigit_mono (h.all c hc) le)

/-- Of four octets each character is a digit or a dot. -/
theorem Ipv4Text.digit_or_dot (h : Ipv4Text text a) :
    ∀ c ∈ text, isDigit 10 c = true ∨ c = '.' := by
  obtain ⟨first, second, third, fourth⟩ := h
  have octet {digits : List Char} {b : UInt8} (h : OctetText digits b) :
      ∀ c ∈ digits, isDigit 10 c = true ∨ c = '.' := fun c hc => .inl (h.spelled.all c hc)
  have further {digits : List Char} {b : UInt8} (h : OctetText digits b) :
      ∀ c ∈ '.' :: digits, isDigit 10 c = true ∨ c = '.' :=
    List.forall_mem_cons.mpr ⟨.inr rfl, octet h⟩
  simp only [List.forall_mem_append]
  exact ⟨⟨⟨octet first, further second⟩, further third⟩, further fourth⟩

theorem Ipv4Text.ipChar (h : Ipv4Text text a) : ∀ c ∈ text, IpChar c := fun c hc =>
  (h.digit_or_dot c hc).elim (fun digit => .inl (isDigit_mono digit (by decide)))
    (fun dot => .inr (.inl dot))

theorem GroupsText.ipChar (h : GroupsText dotted text gs) : ∀ c ∈ text, IpChar c := by
  induction h with
  | group last => exact last.spelled.ipChar (Nat.le_refl 16)
  | octets last => exact last.ipChar
  | cons first _ ih =>
    simp only [List.forall_mem_append, List.forall_mem_cons]
    exact ⟨first.spelled.ipChar (Nat.le_refl 16), .colon, ih⟩

theorem SideText.ipChar (h : SideText dotted text gs) : ∀ c ∈ text, IpChar c := by
  cases h with
  | none => exact nofun
  | groups run => exact run.ipChar

theorem Ipv6Text.ipChar (h : Ipv6Text text a) : ∀ c ∈ text, IpChar c := by
  cases h with
  | full all => exact all.ipChar
  | gap front back =>
    simp only [List.forall_mem_append, List.forall_mem_cons]
    exact ⟨front.ipChar, .colon, .colon, back.ipChar⟩

theorem IpText.ipChar (h : IpText text a) : ∀ c ∈ text, IpChar c := by
  cases h with
  | v4 address => exact address.ipChar
  | v6 address => exact address.ipChar

theorem EndpointText.endpointChar (h : EndpointText text e) : ∀ c ∈ text, EndpointChar c := by
  have number {digits : List Char} {n : Nat} (h : Spelled 10 digits n) :
      ∀ c ∈ digits, EndpointChar c := fun c hc => .inl (h.ipChar (by decide) c hc)
  have address {text : List Char} (h : ∀ c ∈ text, IpChar c) : ∀ c ∈ text, EndpointChar c :=
    fun c hc => .inl (h c hc)
  have opens : EndpointChar '[' := .inr (.inl rfl)
  have closes : EndpointChar ']' := .inr (.inr (.inl rfl))
  have percent : EndpointChar '%' := .inr (.inr (.inr rfl))
  have colon : EndpointChar ':' := .inl .colon
  cases h with
  | v4 a port =>
    simp only [List.forall_mem_append, List.forall_mem_cons]
    exact ⟨address a.ipChar, colon, number port⟩
  | v6 a port =>
    simp only [List.forall_mem_append, List.forall_mem_cons]
    exact ⟨⟨opens, address a.ipChar⟩, closes, colon, number port⟩
  | v6Scope a scope port =>
    simp only [List.forall_mem_append, List.forall_mem_cons]
    exact ⟨⟨⟨opens, address a.ipChar⟩, percent, number scope⟩, closes, colon, number port⟩

-- ---------------------------------------------------------------------------
-- How texts begin
-- ---------------------------------------------------------------------------

theorem head?_dropWhile_append (all : ∀ c ∈ digits, isDigit 10 c = true)
    (dot : isDigit 10 d = false)
    (rest : List Char) : ((digits ++ d :: rest).dropWhile (isDigit 10)).head? = some d := by
  rw [List.dropWhile_append_of_pos all, List.dropWhile_cons_of_neg (by simp [dot])]
  rfl

theorem Ipv4Text.head?_dropWhile (h : Ipv4Text text a) (rest : List Char) :
    ((text ++ rest).dropWhile (isDigit 10)).head? = some '.' := by
  obtain ⟨first, -, -, -⟩ := h
  simp only [List.append_assoc, List.cons_append]
  exact head?_dropWhile_append first.spelled.all (by decide) _

theorem GroupText.head?_dropWhile (h : GroupText digits g) (ne : rest.head? ≠ some '.')
    (stops : ∀ c ∈ rest.head?, isDigit 16 c = false) :
    ((digits ++ rest).dropWhile (isDigit 10)).head? ≠ some '.' := by
  rw [List.dropWhile_append]
  split
  · have kept : rest.dropWhile (isDigit 10) = rest := by
      cases rest with
      | nil => rfl
      | cons c rest =>
        refine List.dropWhile_cons_of_neg ?_
        intro digit
        cases (isDigit_mono digit (by decide)).symm.trans (stops c rfl)
    rwa [kept]
  · next letter =>
    rw [List.isEmpty_iff] at letter
    obtain ⟨c, more, split⟩ := List.exists_cons_of_ne_nil letter
    have mem : c ∈ digits := (List.dropWhile_sublist _).subset (split ▸ List.mem_cons_self)
    rw [split]
    rintro ⟨⟩
    exact absurd (h.spelled.all _ mem) (by decide)

theorem GroupsText.begins (h : GroupsText dotted text gs) (long : 2 < gs.length) :
    ∃ digits g more, GroupText digits g ∧ text = digits ++ ':' :: more := by
  cases h with
  | group => simp at long
  | octets => simp [Ipv4.groups] at long
  | cons first => exact ⟨_, _, _, first, rfl⟩

theorem Ipv6Text.begins (h : Ipv6Text text a) : (∃ more, text = ':' :: more) ∨
    ∃ digits g more, GroupText digits g ∧ text = digits ++ ':' :: more := by
  cases h with
  | full all => exact .inr (all.begins (by rw [a.length_groups]; decide))
  | gap front =>
    cases front with
    | none => exact .inl ⟨_, rfl⟩
    | groups run =>
      cases run with
      | group first => exact .inr ⟨_, _, _, first, rfl⟩
      | cons first =>
        simp only [List.append_assoc, List.cons_append]
        exact .inr ⟨_, _, _, first, rfl⟩

theorem Ipv6Text.head?_dropWhile (h : Ipv6Text text a) (rest : List Char) :
    ((text ++ rest).dropWhile (isDigit 10)).head? ≠ some '.' := by
  rcases h.begins with ⟨more, rfl⟩ | ⟨digits, g, more, first, rfl⟩
  · rw [List.cons_append, List.dropWhile_cons_of_neg (by decide)]
    simp
  · simp only [List.append_assoc, List.cons_append]
    refine first.head?_dropWhile (by simp) ?_
    rintro _ ⟨⟩
    decide

-- ---------------------------------------------------------------------------
-- No text twice
-- ---------------------------------------------------------------------------

theorem Ipv6Text.colon_mem (h : Ipv6Text text a) : ':' ∈ text := by
  rcases h.begins with ⟨more, rfl⟩ | ⟨digits, g, more, -, rfl⟩
  · exact List.mem_cons_self
  · exact List.mem_append_right _ List.mem_cons_self

theorem IpText.not_spelled (h : IpText text a) : ¬ Spelled 10 text n := by
  intro spelled
  cases h with
  | v4 address =>
    obtain ⟨-, -, -, -⟩ := address
    exact absurd (spelled.all '.' (by simp)) (by decide)
  | v6 address => exact absurd (spelled.all ':' address.colon_mem) (by decide)

theorem EndpointText.not_spelled (h : EndpointText text e) : ¬ Spelled 10 text n := by
  intro spelled
  cases h with
  | v4 | v6 | v6Scope => exact absurd (spelled.all ':' (by simp)) (by decide)

/-- A port behind four octets is no further octet, and no address begins with a bracket. -/
theorem EndpointText.not_ipText (h : EndpointText text e) : ¬ IpText text a := by
  intro ip
  cases h with
  | v4 address =>
    cases ip with
    | v4 other =>
      have colon := other.digit_or_dot ':' (by simp)
      exact absurd colon (by decide)
    | v6 other =>
      have none := other.head?_dropWhile []
      rw [List.append_nil] at none
      exact none (address.head?_dropWhile _)
  | v6 | v6Scope => exact absurd (ip.ipChar '[' (by simp)) (by unfold IpChar; decide)

end Courier.Address
