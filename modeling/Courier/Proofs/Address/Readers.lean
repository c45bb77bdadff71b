import Courier.Address.Reader
import Courier.Proofs.Address.Grammar

/-!
# Addresses read back

A reader takes a text of its language off the front of what it is given, and nothing else. What
stands behind must not be something that a longer text could go on with: a number takes all the
digits there are, and groups take as many further ones as there is room for.
-/

namespace Courier.Address

namespace Reader

variable {α β : Type} {x y : Reader α} {f : α → Reader β} {text rest : List Char}

theorem bind_eq_some_iff :
    (x >>= f) text = some r ↔ ∃ a mid, x text = some (a, mid) ∧ f a mid = some r := by
  simp [bind, StateT.bind, Option.bind_eq_some_iff]

theorem pure_eq_some_iff : (pure a : Reader α) text = some (b, rest) ↔ a = b ∧ text = rest := by
  change some (a, text) = some (b, rest) ↔ _
  rw [Option.some_inj, Prod.mk.injEq]

theorem map_eq_some_iff (g : α → β) :
    (g <$> x) text = some (b, rest) ↔ ∃ a, x text = some (a, rest) ∧ g a = b := by
  simp only [map_eq_pure_bind, bind_eq_some_iff, pure_eq_some_iff]
  constructor
  · rintro ⟨a, mid, read, rfl, rfl⟩
    exact ⟨a, read, rfl⟩
  · rintro ⟨a, read, rfl⟩
    exact ⟨a, rest, read, rfl, rfl⟩

theorem bind_of_read (h : x text = some (a, rest)) : (x >>= f) text = f a rest := by
  simp [bind, StateT.bind, h]

theorem bind_of_none (h : x text = none) : (x >>= f) text = none := by
  simp [bind, StateT.bind, h]

theorem map_of_read (g : α → β) (h : x text = some (a, rest)) :
    (g <$> x) text = some (g a, rest) := by
  simp [Functor.map, StateT.map, h]

theorem map_of_none (g : α → β) (h : x text = none) : (g <$> x) text = none := by
  simp [Functor.map, StateT.map, h]

theorem orElse_of_read (h : x text = some r) : (x <|> y) text = some r := by
  change x.orElse (fun _ => y) text = some r
  simp [StateT.orElse, h]

theorem orElse_of_none (h : x text = none) : (x <|> y) text = y text := by
  change x.orElse (fun _ => y) text = y text
  simp [StateT.orElse, h]

theorem orElse_cases (h : (x <|> y) text = some r) : x text = some r ∨ y text = some r := by
  cases first : x text with
  | some r' => exact .inl ((orElse_of_read first).symm.trans h)
  | none => exact .inr ((orElse_of_none first).symm.trans h)

theorem whole?_eq_some_iff : whole? x text = some a ↔ x text = some (a, []) := by
  unfold whole?
  split
  · next read => simp [read]
  · next unread =>
    refine ⟨nofun, fun read => absurd read ?_⟩
    exact unread a

-- ---------------------------------------------------------------------------
-- Characters and numbers
-- ---------------------------------------------------------------------------

theorem char_eq_some_iff : char c text = some (u, rest) ↔ text = c :: rest := by
  cases text with
  | nil => simp [char]
  | cons d text => simp [char]

@[simp] theorem char_cons : char c (c :: rest) = some ((), rest) := by simp [char]

def lead (separator : Char) (index : Nat) : List Char := if 0 < index then [separator] else []

theorem separated_eq_some_iff {element : Reader α} :
    separated separator index element text = some r ↔
    ∃ more, text = lead separator index ++ more ∧ element more = some r := by
  unfold separated lead
  split
  · simp only [bind_eq_some_iff, char_eq_some_iff]
    simp
  · simp

theorem separated_of_read {element : Reader α} (h : element text = some r) (separator : Char)
    (index : Nat) : separated separator index element (lead separator index ++ text) = some r :=
  separated_eq_some_iff.mpr ⟨text, rfl, h⟩

theorem separated_eq_none {element : Reader α}
    (h : ∀ more, text = lead separator index ++ more → element more = none) :
    separated separator index element text = none := by
  rw [Option.eq_none_iff_forall_ne_some]
  intro r read
  obtain ⟨more, split, read⟩ := separated_eq_some_iff.mp read
  cases (h more split).symm.trans read

/-- No number of the radix goes on here. -/
def Stops (radix : Nat) (rest : List Char) : Prop := ∀ c ∈ rest.head?, isDigit radix c = false

theorem Stops.mono (h : Stops most rest) (le : radix ≤ most) : Stops radix rest := by
  intro c hc
  rw [Bool.eq_false_iff]
  intro digit
  exact Bool.eq_false_iff.mp (h c hc) (isDigit_mono digit le)

theorem Stops.cons (h : isDigit radix c = false) (rest : List Char) : Stops radix (c :: rest) := by
  intro d hd
  obtain rfl : c = d := by simpa using hd
  exact h

theorem Stops.nil (radix : Nat) : Stops radix [] := by simp [Stops]

theorem Stops.takeWhile (h : Stops radix rest) : rest.takeWhile (isDigit radix) = [] := by
  cases rest with
  | nil => rfl
  | cons c rest => simp [h c (by simp)]

theorem Stops.dropWhile (h : Stops radix rest) : rest.dropWhile (isDigit radix) = rest := by
  cases rest with
  | nil => rfl
  | cons c rest => simp [h c (by simp)]

theorem stops_dropWhile (radix : Nat) (text : List Char) :
    Stops radix (text.dropWhile (isDigit radix)) := by
  intro c hc
  have head := List.head?_dropWhile_not (isDigit radix) text
  rw [Option.mem_def.mp hc] at head
  simpa using head

/-- A number is all the digits there are, if they are not too many and spell one that is not too
large. -/
theorem number_eq_some_iff : number radix width leadingZero most text = some (n, rest) ↔
    ∃ digits, text = digits ++ rest ∧ Spelled radix digits n ∧ Stops radix rest ∧
      (∀ w ∈ width, digits.length ≤ w) ∧
      (leadingZero = false → digits.head? = some '0' → digits.length = 1) ∧ n ≤ most := by
  constructor
  · intro read
    simp only [number] at read
    split at read
    · cases read
    · next nonempty =>
      split at read
      · cases read
      · next narrow =>
        split at read
        · cases read
        · next plain =>
          split at read
          · cases read
          · next le =>
            cases read
            refine ⟨text.takeWhile (isDigit radix), List.takeWhile_append_dropWhile.symm,
              ⟨nonempty, List.all_eq_true.mp List.all_takeWhile, rfl⟩, stops_dropWhile radix text,
              ?_, ?_, Nat.not_lt.mp le⟩
            · rintro w ⟨⟩
              simpa using narrow
            · rintro rfl zero
              have pos := List.length_pos_iff.mpr nonempty
              simp [zero] at plain
              omega
  · rintro ⟨digits, rfl, ⟨nonempty, all, value⟩, stops, narrow, plain, le⟩
    have taken : (digits ++ rest).takeWhile (isDigit radix) = digits := by
      rw [List.takeWhile_append_of_pos all, stops.takeWhile, List.append_nil]
    have dropped : (digits ++ rest).dropWhile (isDigit radix) = rest := by
      rw [List.dropWhile_append_of_pos all, stops.dropWhile]
    have fits : width.any (· < digits.length) = false := by
      cases width with
      | none => rfl
      | some w => simpa using narrow w rfl
    have noZero :
        (!leadingZero && digits.head? == some '0' && decide (1 < digits.length)) = false := by
      cases leadingZero with
      | true => rfl
      | false =>
        by_cases zero : digits.head? = some '0'
        · simp [plain rfl zero]
        · simp [zero]
    simp [number, taken, dropped, nonempty, value, fits, noZero, Nat.not_lt.mpr le]

theorem octet_eq_some_iff : octet text = some (b, rest) ↔
    ∃ digits, text = digits ++ rest ∧ OctetText digits b ∧ Stops 10 rest := by
  simp only [octet, map_eq_some_iff, number_eq_some_iff]
  constructor
  · rintro ⟨n, ⟨digits, rfl, spelled, stops, -, plain, le⟩, rfl⟩
    have same : (UInt8.ofNat n).toNat = n := UInt8.toNat_ofNat_of_lt' (Nat.lt_succ_of_le le)
    exact ⟨digits, rfl, ⟨same.symm ▸ spelled, plain trivial⟩, stops⟩
  · rintro ⟨digits, rfl, h, stops⟩
    refine ⟨b.toNat, ⟨digits, rfl, h.spelled, stops, ?_, fun _ => h.plain,
      Nat.le_of_lt_succ b.toNat_lt⟩, UInt8.ofNat_toNat⟩
    simpa using h.length_le

theorem group_eq_some_iff : group text = some (g, rest) ↔
    ∃ digits, text = digits ++ rest ∧ GroupText digits g ∧ Stops 16 rest := by
  simp only [group, map_eq_some_iff, number_eq_some_iff]
  constructor
  · rintro ⟨n, ⟨digits, rfl, spelled, stops, narrow, -, le⟩, rfl⟩
    have same : (UInt16.ofNat n).toNat = n := UInt16.toNat_ofNat_of_lt' (Nat.lt_succ_of_le le)
    exact ⟨digits, rfl, ⟨same.symm ▸ spelled, narrow 4 rfl⟩, stops⟩
  · rintro ⟨digits, rfl, h, stops⟩
    refine ⟨g.toNat, ⟨digits, rfl, h.spelled, stops, ?_, nofun,
      Nat.le_of_lt_succ g.toNat_lt⟩, UInt16.ofNat_toNat⟩
    simpa using h.short

theorem port_eq_some_iff : port text = some (n, rest) ↔
    ∃ digits, text = ':' :: digits ++ rest ∧ PortText digits n ∧ Stops 10 rest := by
  simp only [port, bind_eq_some_iff, char_eq_some_iff, map_eq_some_iff, number_eq_some_iff]
  constructor
  · rintro ⟨-, _, rfl, m, ⟨digits, rfl, spelled, stops, -, -, le⟩, rfl⟩
    have same : (UInt16.ofNat m).toNat = m := UInt16.toNat_ofNat_of_lt' (Nat.lt_succ_of_le le)
    exact ⟨digits, rfl, by rwa [PortText, same], stops⟩
  · rintro ⟨digits, rfl, spelled, stops⟩
    exact ⟨(), _, rfl, n.toNat, ⟨digits, rfl, spelled, stops, nofun, nofun,
      Nat.le_of_lt_succ n.toNat_lt⟩, UInt16.ofNat_toNat⟩

theorem scope_eq_some_iff : scope text = some (n, rest) ↔
    ∃ digits, text = '%' :: digits ++ rest ∧ Spelled 10 digits n.toNat ∧ Stops 10 rest := by
  simp only [scope, bind_eq_some_iff, char_eq_some_iff, map_eq_some_iff, number_eq_some_iff]
  constructor
  · rintro ⟨-, _, rfl, m, ⟨digits, rfl, spelled, stops, -, -, le⟩, rfl⟩
    have same : (UInt32.ofNat m).toNat = m := UInt32.toNat_ofNat_of_lt' (Nat.lt_succ_of_le le)
    exact ⟨digits, rfl, by rwa [same], stops⟩
  · rintro ⟨digits, rfl, spelled, stops⟩
    exact ⟨(), _, rfl, n.toNat, ⟨digits, rfl, spelled, stops, nofun, nofun,
      Nat.le_of_lt_succ n.toNat_lt⟩, UInt32.ofNat_toNat⟩

-- ---------------------------------------------------------------------------
-- Four octets
-- ---------------------------------------------------------------------------

theorem ipv4_eq_some_iff : ipv4 text = some (a, rest) ↔
    ∃ taken, text = taken ++ rest ∧ Ipv4Text taken a ∧ Stops 10 rest := by
  simp only [ipv4, bind_eq_some_iff, separated_eq_some_iff, octet_eq_some_iff, pure_eq_some_iff]
  constructor
  · rintro ⟨b, _, ⟨_, rfl, s, rfl, first, -⟩, c, _, ⟨_, rfl, t, rfl, second, -⟩,
      d, _, ⟨_, rfl, u, rfl, third, -⟩, e, _, ⟨_, rfl, v, rfl, fourth, stops⟩, rfl, rfl⟩
    refine ⟨s ++ '.' :: t ++ '.' :: u ++ '.' :: v, ?_, .octets first second third fourth, stops⟩
    simp [lead]
  · rintro ⟨_, rfl, ⟨first, second, third, fourth⟩, stops⟩
    have dot (rest : List Char) : Stops 10 ('.' :: rest) := .cons (by decide) rest
    simp only [List.append_assoc, List.cons_append]
    exact ⟨_, _, ⟨_, rfl, _, rfl, first, dot _⟩, _, _, ⟨_, rfl, _, rfl, second, dot _⟩,
      _, _, ⟨_, rfl, _, rfl, third, dot _⟩, _, _, ⟨_, rfl, _, rfl, fourth, stops⟩, rfl, rfl⟩

theorem ipv4_none (h : (text.dropWhile (isDigit 10)).head? ≠ some '.') : ipv4 text = none := by
  rw [Option.eq_none_iff_forall_ne_some]
  rintro ⟨a, rest⟩ read
  obtain ⟨taken, rfl, octets, -⟩ := ipv4_eq_some_iff.mp read
  exact h (octets.head?_dropWhile rest)

-- ---------------------------------------------------------------------------
-- Groups
-- ---------------------------------------------------------------------------

/-- No further group goes on here, and no group before it turns out to be an octet. -/
structure Closes (rest : List Char) : Prop where
  stops : Stops 16 rest
  dot : rest.head? ≠ some '.'
  /-- Two colons stand for zeros and not before a group. -/
  colon : ∀ after, rest = ':' :: after → after.head? = some ':'

theorem Closes.of_stops (stops : Stops 16 rest) (dot : rest.head? ≠ some '.')
    (colon : rest.head? ≠ some ':') : Closes rest where
  stops := stops
  dot := dot
  colon _ h := absurd (congrArg List.head? h) colon

theorem Closes.gap (rest : List Char) : Closes (':' :: ':' :: rest) where
  stops := .cons (by decide) _
  dot := by simp
  colon after h := by
    obtain rfl := List.tail_eq_of_cons_eq h
    rfl

theorem Closes.nil : Closes [] := .of_stops (.nil 16) (by simp) (by simp)

theorem Closes.bracket (rest : List Char) : Closes (']' :: rest) :=
  .of_stops (.cons (by decide) _) (by simp) (by simp)

theorem Closes.percent (rest : List Char) : Closes ('%' :: rest) :=
  .of_stops (.cons (by decide) _) (by simp) (by simp)

theorem Closes.separated_none {element : Reader α} (closes : Closes rest) (index : Nat)
    (refused : ∀ more, Stops 16 more → more.head? ≠ some '.' → element more = none) :
    separated ':' index element rest = none := by
  refine separated_eq_none fun more split => ?_
  unfold lead at split
  split at split
  · obtain ⟨later, rfl⟩ := List.head?_eq_some_iff.mp (closes.colon more split)
    exact refused _ (.cons (by decide) _) (by simp)
  · obtain rfl : rest = more := split
    exact refused _ closes.stops closes.dot

theorem ipv4_of_stops_none (stops : Stops 16 text) (dot : text.head? ≠ some '.') :
    ipv4 text = none := by
  refine ipv4_none ?_
  rwa [(stops.mono (by decide)).dropWhile]

theorem group_of_stops_none (stops : Stops 16 text) : group text = none := by
  rw [Option.eq_none_iff_forall_ne_some]
  rintro ⟨g, rest⟩ read
  obtain ⟨digits, rfl, h, -⟩ := group_eq_some_iff.mp read
  obtain ⟨c, more, rfl⟩ := List.exists_cons_of_ne_nil h.spelled.nonempty
  cases (h.spelled.all c List.mem_cons_self).symm.trans (stops c rfl)

theorem groups_closed (index room : Nat) (closes : Closes rest) :
    groups index room rest = (([], false), rest) := by
  have noIpv4 := closes.separated_none index fun _ => ipv4_of_stops_none
  have noGroup := closes.separated_none index fun _ stops _ => group_of_stops_none stops
  cases room with
  | zero => rfl
  | succ room => simp [groups, noIpv4, noGroup]

theorem groups_group (h : GroupText digits g) (index room : Nat) (stops : Stops 16 rest)
    (dot : rest.head? ≠ some '.') :
    groups index (room + 1) (lead ':' index ++ (digits ++ rest)) =
      ((g :: (groups (index + 1) room rest).1.1, (groups (index + 1) room rest).1.2),
        (groups (index + 1) room rest).2) := by
  have noIpv4 : separated ':' index ipv4 (lead ':' index ++ (digits ++ rest)) = none := by
    refine separated_eq_none fun more split => ?_
    obtain rfl := List.append_cancel_left split
    exact ipv4_none (h.head?_dropWhile dot stops)
  have hasGroup : separated ':' index group (lead ':' index ++ (digits ++ rest)) = some (g, rest) :=
    separated_of_read (group_eq_some_iff.mpr ⟨digits, rfl, h, stops⟩) ':' index
  simp [groups, noIpv4, hasGroup]

/-- Groups are taken as far as they go, where there is room for them. -/
theorem groups_of_groupsText (h : GroupsText dotted taken gs) (index room : Nat)
    (fits : gs.length ≤ room) (closes : Closes rest) :
    groups index room (lead ':' index ++ (taken ++ rest)) = ((gs, dotted), rest) := by
  induction h generalizing index room with
  | group last =>
    obtain ⟨room, rfl⟩ : ∃ n, room = n + 1 := ⟨room - 1, by simp at fits; omega⟩
    rw [groups_group last index room closes.stops closes.dot, groups_closed _ _ closes]
  | octets last =>
    obtain ⟨room, rfl⟩ : ∃ n, room = n + 2 := ⟨room - 2, by simp [Ipv4.groups] at fits; omega⟩
    have stops : Stops 10 rest := closes.stops.mono (by decide)
    have hasIpv4 := ipv4_eq_some_iff.mpr ⟨_, rfl, last, stops⟩
    simp [groups, separated_of_read hasIpv4 ':' index]
  | @cons digits g dotted text gs first run ih =>
    obtain ⟨room, rfl⟩ : ∃ n, room = n + 1 := ⟨room - 1, by simp at fits; omega⟩
    have later : groups (index + 1) room (':' :: (text ++ rest)) = ((gs, dotted), rest) :=
      ih (index + 1) room (Nat.le_of_succ_le_succ fits)
    rw [List.append_assoc, List.cons_append, groups_group first index room (.cons (by decide) _)
      (by simp), later]

theorem groups_of_sideText (h : SideText dotted taken gs) (fits : gs.length ≤ room)
    (closes : Closes rest) : groups 0 room (taken ++ rest) = ((gs, dotted), rest) := by
  cases h with
  | none => exact groups_closed 0 room closes
  | groups run => exact groups_of_groupsText run 0 room fits closes

theorem groupsText_of_groups (index room : Nat) (text : List Char) :
    groups index room text = (([], false), text) ∨
    ∃ taken gs dotted rest, text = lead ':' index ++ (taken ++ rest) ∧
      GroupsText dotted taken gs ∧ groups index room text = ((gs, dotted), rest) := by
  induction room generalizing index text with
  | zero => exact .inl rfl
  | succ room ih =>
    rw [groups]
    split
    · next a rest octets =>
      split at octets
      · obtain ⟨more, rfl, read⟩ := separated_eq_some_iff.mp octets
        obtain ⟨taken, rfl, last, -⟩ := ipv4_eq_some_iff.mp read
        exact .inr ⟨taken, a.groups, true, rest, rfl, .octets last, rfl⟩
      · cases octets
    · split
      · exact .inl rfl
      · next g rest read =>
        obtain ⟨more, rfl, here⟩ := separated_eq_some_iff.mp read
        obtain ⟨digits, rfl, first, -⟩ := group_eq_some_iff.mp here
        rcases ih (index + 1) rest with closed | ⟨taken, gs, dotted, behind, rfl, run, later⟩
        · rw [closed]
          exact .inr ⟨digits, [g], false, rest, rfl, .group first, rfl⟩
        · rw [later]
          refine .inr ⟨digits ++ ':' :: taken, g :: gs, dotted, behind, ?_, .cons first run, rfl⟩
          simp [lead]

theorem sideText_of_groups (h : groups 0 room text = ((gs, dotted), rest)) :
    ∃ taken, text = taken ++ rest ∧ SideText dotted taken gs := by
  rcases groupsText_of_groups 0 room text with closed | ⟨taken, _, _, _, split, run, read⟩
  · cases closed.symm.trans h
    exact ⟨[], rfl, .none⟩
  · cases read.symm.trans h
    exact ⟨taken, split, .groups run⟩

-- ---------------------------------------------------------------------------
-- Eight groups
-- ---------------------------------------------------------------------------

theorem ipv6_of_eight {a : Ipv6} (whole : groups 0 8 text = ((a.groups, dotted), rest)) :
    ipv6 text = some (a, rest) := by
  unfold ipv6
  split
  · next front dotted' rest' eq =>
    rw [whole] at eq
    cases eq
    rw [dif_pos a.length_groups]

theorem ipv6_of_gap {a : Ipv6} (before : groups 0 8 text = ((front, false), ':' :: ':' :: rest))
    (short : front.length ≠ 8)
    (behind : groups 0 (7 - front.length) rest = ((back, dotted), after))
    (all : a.groups = front ++ List.replicate (8 - front.length - back.length) 0 ++ back) :
    ipv6 text = some (a, after) := by
  obtain ⟨all', length_groups⟩ := a
  subst all
  unfold ipv6
  split
  · next eq =>
    rw [before] at eq
    cases eq
    rw [dif_neg short]
    simp only [Bool.false_eq_true, if_false, char_cons, Option.bind_eq_bind, Option.bind_some]
    simp only [behind]

theorem ipv6_of_text (h : Ipv6Text taken a) (closes : Closes rest) :
    ipv6 (taken ++ rest) = some (a, rest) := by
  have length := a.length_groups
  cases h with
  | full run => exact ipv6_of_eight (groups_of_groupsText run 0 8 (Nat.le_of_eq length) closes)
  | @gap before gs dotted behind hs zeros _ front back pos all =>
    rw [all, List.length_append, List.length_append, List.length_replicate] at length
    rw [List.append_assoc, List.cons_append, List.cons_append]
    refine ipv6_of_gap (groups_of_sideText front (by omega) (.gap _)) (by omega)
      (groups_of_sideText back (by omega) closes) ?_
    rw [all, show 8 - gs.length - hs.length = zeros by omega]

theorem text_of_ipv6 (h : ipv6 text = some (a, rest)) :
    ∃ taken, text = taken ++ rest ∧ Ipv6Text taken a := by
  unfold ipv6 at h
  split at h
  next front dotted after before =>
  obtain ⟨taken, rfl, side⟩ := sideText_of_groups before
  split at h
  · next eight =>
    cases h
    cases side with
    | none => cases eight
    | groups run => exact ⟨taken, rfl, .full run⟩
  · next short =>
    split at h
    · cases h
    · next plain =>
      simp only [Option.bind_eq_bind, Option.bind_eq_some_iff, char_eq_some_iff, Prod.exists] at h
      obtain ⟨_, _, rfl, _, later, rfl, h⟩ := h
      obtain ⟨⟨⟨back, dotted'⟩, last⟩, behind⟩ : ∃ r, groups 0 (7 - front.length) later = r :=
        ⟨_, rfl⟩
      have least := length_groups_le 0 (7 - front.length) later
      simp only [behind] at h least
      cases h
      obtain ⟨taken', rfl, side'⟩ := sideText_of_groups behind
      obtain rfl : dotted = false := Bool.eq_false_iff.mpr plain
      have most := length_groups_le 0 8 (taken ++ ':' :: ':' :: (taken' ++ rest))
      rw [before] at most
      simp only at most
      refine ⟨taken ++ ':' :: ':' :: taken', by simp, .gap side side' ?_ rfl⟩
      omega

theorem ipv4_of_ipv6Text_none (h : Ipv6Text taken a) (rest : List Char) :
    ipv4 (taken ++ rest) = none :=
  ipv4_none (h.head?_dropWhile rest)

-- ---------------------------------------------------------------------------
-- Whole addresses and endpoints
-- ---------------------------------------------------------------------------

theorem whole?_ip_eq_some_iff : whole? ip text = some a ↔ IpText text a := by
  rw [whole?_eq_some_iff]
  constructor
  · intro read
    rcases orElse_cases read with read | read
    · obtain ⟨address, whole, rfl⟩ := (map_eq_some_iff Ip.v4).mp read
      obtain ⟨taken, rfl, h, -⟩ := ipv4_eq_some_iff.mp whole
      rw [List.append_nil]
      exact .v4 h
    · obtain ⟨address, whole, rfl⟩ := (map_eq_some_iff Ip.v6).mp read
      obtain ⟨taken, rfl, h⟩ := text_of_ipv6 whole
      rw [List.append_nil]
      exact .v6 h
  · intro h
    rw [← List.append_nil text]
    cases h with
    | v4 h => exact orElse_of_read (map_of_read Ip.v4 (ipv4_eq_some_iff.mpr ⟨_, rfl, h, .nil 10⟩))
    | v6 h =>
      exact (orElse_of_none (map_of_none Ip.v4 (ipv4_of_ipv6Text_none h []))).trans
        (map_of_read Ip.v6 (ipv6_of_text h .nil))

theorem endpointText_of_v4 (h : endpointV4 text = some (e, [])) : EndpointText text e := by
  simp only [endpointV4, bind_eq_some_iff, ipv4_eq_some_iff, port_eq_some_iff,
    pure_eq_some_iff] at h
  obtain ⟨a, _, ⟨taken, rfl, address, -⟩, n, _, ⟨digits, rfl, port, -⟩, rfl, rfl⟩ := h
  rw [List.append_nil]
  exact .v4 address port

theorem scope_or_zero_cases (h : (scope <|> pure 0) text = some (m, rest)) :
    m = 0 ∧ text = rest ∨ ∃ digits, text = '%' :: digits ++ rest ∧ Spelled 10 digits m.toNat := by
  rcases orElse_cases h with read | read
  · obtain ⟨digits, split, spelled, -⟩ := scope_eq_some_iff.mp read
    exact .inr ⟨digits, split, spelled⟩
  · obtain ⟨zero, same⟩ := pure_eq_some_iff.mp read
    exact .inl ⟨zero.symm, same⟩

theorem endpointText_of_v6 (h : endpointV6 text = some (e, [])) : EndpointText text e := by
  simp only [endpointV6, bind_eq_some_iff, char_eq_some_iff, port_eq_some_iff,
    pure_eq_some_iff] at h
  obtain ⟨-, _, rfl, a, _, read, m, _, zone, -, _, rfl, n, _, ⟨digits, rfl, port, -⟩, rfl, rfl⟩ := h
  obtain ⟨taken, rfl, address⟩ := text_of_ipv6 read
  rw [List.append_nil] at zone
  rcases scope_or_zero_cases zone with ⟨rfl, rfl⟩ | ⟨number, rfl, spelled⟩
  · exact .v6 address port
  · have text := EndpointText.v6Scope address spelled port
    simpa using text

theorem endpointV4_of_text (address : Ipv4Text text a) (port : PortText digits n) :
    endpointV4 (text ++ ':' :: digits) = some (.v4 a n, []) := by
  have dot : Stops 10 (':' :: digits) := .cons (by decide) _
  refine (bind_of_read (ipv4_eq_some_iff.mpr ⟨text, rfl, address, dot⟩)).trans ?_
  exact bind_of_read (port_eq_some_iff.mpr ⟨digits, by simp, port, .nil 10⟩)

theorem endpointV6_of_text (between : List Char) (address : Ipv6Text text a)
    (closes : Closes (between ++ ']' :: ':' :: digits))
    (zone : (Reader.scope <|> pure 0) (between ++ ']' :: ':' :: digits) =
      some (m, ']' :: ':' :: digits))
    (port : PortText digits n) :
    endpoint ('[' :: text ++ between ++ ']' :: ':' :: digits) = some (.v6 a m n, []) := by
  have noIpv4 : ipv4 ('[' :: text ++ between ++ ']' :: ':' :: digits) = none := by
    refine ipv4_none ?_
    rw [List.cons_append, List.cons_append, List.dropWhile_cons_of_neg (by decide)]
    simp
  refine (orElse_of_none (bind_of_none noIpv4)).trans ?_
  simp only [List.cons_append, List.append_assoc]
  refine (bind_of_read char_cons).trans ?_
  refine (bind_of_read (ipv6_of_text address closes)).trans ?_
  refine (bind_of_read zone).trans ?_
  refine (bind_of_read char_cons).trans ?_
  exact bind_of_read (port_eq_some_iff.mpr ⟨digits, by simp, port, .nil 10⟩)

theorem whole?_endpoint_eq_some_iff : whole? endpoint text = some e ↔ EndpointText text e := by
  rw [whole?_eq_some_iff]
  constructor
  · intro read
    rcases orElse_cases read with read | read
    · exact endpointText_of_v4 read
    · exact endpointText_of_v6 read
  · intro h
    cases h with
    | v4 address port => exact orElse_of_read (endpointV4_of_text address port)
    | @v6 text a digits n address port =>
      have missing : scope (']' :: ':' :: digits) = none := by
        refine bind_of_none (Option.eq_none_iff_forall_ne_some.mpr fun r read => ?_)
        cases char_eq_some_iff.mp read
      have read := endpointV6_of_text [] address (.bracket _) (orElse_of_none missing) port
      rwa [List.append_nil] at read
    | @v6Scope text a number digits n m address spelled port =>
      have stops : Stops 10 (']' :: ':' :: digits) := .cons (by decide) _
      have zone := scope_eq_some_iff.mpr ⟨number, rfl, spelled, stops⟩
      have read := endpointV6_of_text ('%' :: number) address (.percent _)
        (orElse_of_read zone) port
      exact read

end Reader

end Courier.Address

