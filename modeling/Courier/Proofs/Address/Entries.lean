import Courier.Address.List
import Courier.Proofs.Address.Readers

/-!
# Single entries

An entry is a port, an endpoint or an address. No text is two of these, so the forms may be tried
in any order.
-/

namespace Courier.Address

inductive Form where
  | port
  | endpoint
  | ip

/-- The text is of the form and stands for the endpoint. -/
inductive Form.Reads (defaultPort : UInt16) : Form → List Char → Endpoint → Prop
  | port (number : PortText text n) : Reads defaultPort .port text (.v4 .loopback n)
  | endpoint (written : EndpointText text e) : Reads defaultPort .endpoint text e
  | ip (written : IpText text a) : Reads defaultPort .ip text (a.at defaultPort)

def Form.read? (defaultPort : UInt16) (text : List Char) : Form → Option Endpoint
  | .port => do
    let n ← (Reader.number 10 none true 0xffff).whole? text
    return .v4 .loopback (UInt16.ofNat n)
  | .endpoint => Reader.endpoint.whole? text
  | .ip => do
    let a ← Reader.ip.whole? text
    return a.at defaultPort

theorem Form.read?_eq_some_iff {form : Form} :
    form.read? defaultPort text = some e ↔ form.Reads defaultPort text e := by
  cases form with
  | port =>
    simp only [read?, Option.bind_eq_bind, Option.bind_eq_some_iff, Reader.whole?_eq_some_iff,
      Reader.number_eq_some_iff, Option.pure_def, Option.some.injEq]
    constructor
    · rintro ⟨n, ⟨digits, rfl, spelled, -, -, -, le⟩, rfl⟩
      have same : (UInt16.ofNat n).toNat = n := UInt16.toNat_ofNat_of_lt' (Nat.lt_succ_of_le le)
      rw [List.append_nil]
      exact .port (by rwa [PortText, same])
    · intro h
      cases h with
      | @port _ n number =>
        refine ⟨n.toNat, ⟨text, (List.append_nil text).symm, number, .nil 10, by simp, by simp,
          Nat.le_of_lt_succ n.toNat_lt⟩, ?_⟩
        rw [UInt16.ofNat_toNat]
  | endpoint =>
    rw [read?, Reader.whole?_endpoint_eq_some_iff]
    constructor
    · exact .endpoint
    · intro h
      cases h with
      | endpoint written => exact written
  | ip =>
    simp only [read?, Option.bind_eq_bind, Option.bind_eq_some_iff, Reader.whole?_ip_eq_some_iff,
      Option.pure_def, Option.some.injEq]
    constructor
    · rintro ⟨a, written, rfl⟩
      exact .ip written
    · intro h
      cases h with
      | ip written => exact ⟨_, written, rfl⟩

theorem Form.Reads.unique (h : Reads defaultPort form text e)
    (h' : Reads otherPort other text e') : form = other := by
  cases h with
  | port number =>
    cases h' with
    | port => rfl
    | endpoint written => exact absurd number written.not_spelled
    | ip written => exact absurd number written.not_spelled
  | endpoint written =>
    cases h' with
    | port number => exact absurd number written.not_spelled
    | endpoint => rfl
    | ip address => exact absurd address written.not_ipText
  | ip written =>
    cases h' with
    | port number => exact absurd number written.not_spelled
    | endpoint endpoint => exact absurd written endpoint.not_ipText
    | ip => rfl

theorem parseEntry_of_spelled (spelled : Spelled 10 entry n) (defaultPort : UInt16) :
    parseEntry entry defaultPort =
      if n ≤ 0xffff then .ok (.v4 .loopback (UInt16.ofNat n))
      else .error (.malformed (String.ofList entry)) := by
  have all : entry.all (isDigit 10) = true := List.all_eq_true.mpr spelled.all
  simp only [parseEntry, spelled.nonempty, all, spelled.value, if_true, if_false]

theorem parseEntry_of_not_spelled (other : ∀ n, ¬ Spelled 10 entry n) (defaultPort : UInt16) :
    parseEntry entry defaultPort =
      match Form.endpoint.read? defaultPort entry <|> Form.ip.read? defaultPort entry with
      | some e => .ok e
      | none => .error (.malformed (String.ofList entry)) := by
  by_cases nonempty : entry = []
  · subst nonempty
    rfl
  · have all : entry.all (isDigit 10) = false := by
      rw [Bool.eq_false_iff]
      intro all
      exact other _ ⟨nonempty, List.all_eq_true.mp all, rfl⟩
    simp only [parseEntry, nonempty, all, if_false, Bool.false_eq_true, Form.read?]
    cases Reader.endpoint.whole? entry with
    | some e => rfl
    | none =>
      cases Reader.ip.whole? entry with
      | some a => rfl
      | none => rfl

theorem parseEntry_of_reads {form : Form} (h : form.Reads defaultPort entry e) :
    parseEntry entry defaultPort = .ok e := by
  have read := Form.read?_eq_some_iff.mpr h
  cases h with
  | @port _ n number =>
    rw [parseEntry_of_spelled number, if_pos (Nat.le_of_lt_succ n.toNat_lt), UInt16.ofNat_toNat]
  | endpoint written =>
    rw [parseEntry_of_not_spelled fun n => written.not_spelled, read]
    rfl
  | ip written =>
    have noEndpoint : Form.endpoint.read? defaultPort entry = none := by
      rw [Option.eq_none_iff_forall_ne_some]
      intro e other
      cases (Form.read?_eq_some_iff.mp other).unique (Form.read?_eq_some_iff.mp read)
    rw [parseEntry_of_not_spelled fun n => written.not_spelled, noEndpoint, read]
    rfl

theorem parseEntry_cases (entry : List Char) (defaultPort : UInt16) :
    (∃ form e, Form.Reads defaultPort form entry e ∧ parseEntry entry defaultPort = .ok e) ∨
      parseEntry entry defaultPort = .error (.malformed (String.ofList entry)) := by
  by_cases number : ∃ n, Spelled 10 entry n
  · obtain ⟨n, spelled⟩ := number
    have eq := parseEntry_of_spelled spelled defaultPort
    split at eq
    · next le =>
      have same : (UInt16.ofNat n).toNat = n := UInt16.toNat_ofNat_of_lt' (Nat.lt_succ_of_le le)
      exact .inl ⟨.port, _, .port (by rwa [PortText, same]), eq⟩
    · exact .inr eq
  · have eq := parseEntry_of_not_spelled (not_exists.mp number) defaultPort
    split at eq
    · next e read =>
      refine .inl ?_
      cases endpoint : Form.endpoint.read? defaultPort entry with
      | some e' =>
        rw [endpoint] at read
        cases read
        exact ⟨.endpoint, e, Form.read?_eq_some_iff.mp endpoint, eq⟩
      | none =>
        rw [endpoint] at read
        exact ⟨.ip, e, Form.read?_eq_some_iff.mp read, eq⟩
    · exact .inr eq

theorem parseEntry_eq_ok_iff : parseEntry entry defaultPort = .ok e ↔
    ∃ form, Form.Reads defaultPort form entry e := by
  constructor
  · intro ok
    rcases parseEntry_cases entry defaultPort with ⟨form, e', reads, eq⟩ | eq
    · cases ok.symm.trans eq
      exact ⟨form, reads⟩
    · cases ok.symm.trans eq
  · rintro ⟨form, reads⟩
    exact parseEntry_of_reads reads

theorem parseEntry_eq_malformed_iff :
    parseEntry entry defaultPort = .error (.malformed (String.ofList entry)) ↔
      ∀ form e, ¬ Form.Reads defaultPort form entry e := by
  constructor
  · intro malformed form e reads
    cases malformed.symm.trans (parseEntry_of_reads reads)
  · intro unread
    rcases parseEntry_cases entry defaultPort with ⟨form, e, reads, -⟩ | malformed
    · exact absurd reads (unread form e)
    · exact malformed

/-- Whichever form is tried first, what is read is the same. -/
theorem findSome?_read?_eq_some_iff {order : List Form} (all : ∀ form, form ∈ order) :
    order.findSome? (Form.read? defaultPort entry) = some e ↔
      ∃ form, Form.Reads defaultPort form entry e := by
  constructor
  · intro found
    obtain ⟨form, -, read⟩ := List.exists_of_findSome?_eq_some found
    exact ⟨form, Form.read?_eq_some_iff.mp read⟩
  · rintro ⟨form, reads⟩
    cases found : order.findSome? (Form.read? defaultPort entry) with
    | none =>
      have unread := List.findSome?_eq_none_iff.mp found form (all form)
      cases unread.symm.trans (Form.read?_eq_some_iff.mpr reads)
    | some e' =>
      obtain ⟨form', -, read⟩ := List.exists_of_findSome?_eq_some found
      have same := parseEntry_of_reads (Form.read?_eq_some_iff.mp read)
      cases same.symm.trans (parseEntry_of_reads reads)
      rfl

/-- An entry is accepted where it is a port, an endpoint or an address, of which no text is two,
and else is the one that the error names. So the order of trying does not matter; and digits alone
are a port, or too large for one. -/
theorem parseEntry_exact (entry : List Char) (defaultPort : UInt16) :
    (∀ e, parseEntry entry defaultPort = .ok e ↔ ∃ form, Form.Reads defaultPort form entry e) ∧
    (parseEntry entry defaultPort = .error (.malformed (String.ofList entry)) ↔
      ∀ form e, ¬ Form.Reads defaultPort form entry e) ∧
    (∀ form other e e', Form.Reads defaultPort form entry e →
      Form.Reads defaultPort other entry e' → form = other) ∧
    (∀ order : List Form, (∀ form, form ∈ order) → parseEntry entry defaultPort =
      match order.findSome? (Form.read? defaultPort entry) with
      | some e => .ok e
      | none => .error (.malformed (String.ofList entry))) ∧
    (entry ≠ [] → (∀ c ∈ entry, isDigit 10 c = true) →
      (∃ n : UInt16, n.toNat = Numeral.value 10 entry ∧
        parseEntry entry defaultPort = .ok (.v4 .loopback n)) ∨
      0xffff < Numeral.value 10 entry ∧
        parseEntry entry defaultPort = .error (.malformed (String.ofList entry))) := by
  refine ⟨fun e => parseEntry_eq_ok_iff, parseEntry_eq_malformed_iff,
    fun form other e e' => Form.Reads.unique, ?_, ?_⟩
  · intro order all
    cases found : order.findSome? (Form.read? defaultPort entry) with
    | some e => exact parseEntry_eq_ok_iff.mpr ((findSome?_read?_eq_some_iff all).mp found)
    | none =>
      refine parseEntry_eq_malformed_iff.mpr fun form e reads => ?_
      cases found.symm.trans ((findSome?_read?_eq_some_iff all).mpr ⟨form, reads⟩)
  · intro nonempty all
    have eq := parseEntry_of_spelled ⟨nonempty, all, rfl⟩ defaultPort
    split at eq
    · next le =>
      exact .inl ⟨_, UInt16.toNat_ofNat_of_lt' (Nat.lt_succ_of_le le), eq⟩
    · next lt => exact .inr ⟨Nat.not_le.mp lt, eq⟩

/-- The gap stands for one group, and zeros in front of the port do not count. -/
def scopedEntry : List Char := "[1:2:3:4:5::1.2.3.4%4294967295]:00080".toList

def scopedEndpoint : Endpoint := .v6 ⟨[1, 2, 3, 4, 5, 0, 0x102, 0x304], rfl⟩ 0xffffffff 80

theorem scopedEntry_written : EndpointText scopedEntry scopedEndpoint := by
  have group (c : Char) (g : UInt16) (digit : isDigit 16 c = true)
      (value : Numeral.value 16 [c] = g.toNat) : GroupText [c] g :=
    ⟨⟨by simp, by simpa using digit, value⟩, by simp⟩
  have octet (c : Char) (b : UInt8) (digit : isDigit 10 c = true)
      (value : Numeral.value 10 [c] = b.toNat) : OctetText [c] b :=
    ⟨⟨by simp, by simpa using digit, value⟩, by simp⟩
  have front := GroupsText.cons (group '1' 1 rfl rfl) (.cons (group '2' 2 rfl rfl)
    (.cons (group '3' 3 rfl rfl) (.cons (group '4' 4 rfl rfl) (.group (group '5' 5 rfl rfl)))))
  have back := Ipv4Text.octets (a := ⟨1, 2, 3, 4⟩) (octet '1' 1 rfl rfl) (octet '2' 2 rfl rfl)
    (octet '3' 3 rfl rfl) (octet '4' 4 rfl rfl)
  have address : Ipv6Text _ ⟨[1, 2, 3, 4, 5, 0, 0x102, 0x304], rfl⟩ :=
    .gap (.groups front) (.groups (.octets back)) (by decide : 0 < 1) rfl
  have scope : Spelled 10 "4294967295".toList (0xffffffff : UInt32).toNat :=
    ⟨by decide, List.all_eq_true.mp rfl, rfl⟩
  have port : PortText "00080".toList 80 := ⟨by decide, List.all_eq_true.mp rfl, rfl⟩
  exact .v6Scope address scope port

theorem parseEntry_scopedEntry :
    EndpointText scopedEntry scopedEndpoint ∧
      parseEntry scopedEntry 3000 = .ok scopedEndpoint ∧
      parseEntry scopedEntry 3000 =
        (match [Form.ip, .port, .endpoint].findSome? (Form.read? 3000 scopedEntry) with
        | some e => .ok e
        | none => .error (.malformed (String.ofList scopedEntry))) ∧
      parseEntry "65536".toList 3000 = .error (.malformed "65536") := by
  obtain ⟨accepted, -, -, reordered, -⟩ := parseEntry_exact scopedEntry 3000
  have ok := (accepted scopedEndpoint).mpr ⟨.endpoint, .endpoint scopedEntry_written⟩
  have every : ∀ form, form ∈ [Form.ip, .port, .endpoint] := by
    intro form
    cases form <;> simp
  obtain ⟨-, -, -, -, number⟩ := parseEntry_exact "65536".toList 3000
  have large := number (by decide) (List.all_eq_true.mp rfl)
  refine ⟨scopedEntry_written, ok, reordered _ every, ?_⟩
  rcases large with ⟨n, value, -⟩ | ⟨-, malformed⟩
  · have lt := n.toNat_lt
    have all : Numeral.value 10 "65536".toList = 65536 := rfl
    omega
  · exact malformed

end Courier.Address
