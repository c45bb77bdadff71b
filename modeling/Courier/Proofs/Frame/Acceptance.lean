import Courier.Proofs.Frame.Chunks
import Courier.Proofs.Frame.RoundTrip

/-!
# The one form of a frame

The length in front decides, with the size of the header and the limit, what the decoder answers.
What it accepts is what the encoder writes: a message that was taken off the front of some bytes
is written as these bytes again (`decode_exact`). Nothing is looked at that is not there: a
decoder that gives up where it would leave the bytes never does so (`decode?_eq`).
-/

namespace Courier

/-- The bytes from one position up to another, if both are within the bytes and in order. -/
def Bytes.slice? (bytes : Bytes) (first last : Nat) : Option Bytes :=
  if first ≤ last ∧ last ≤ bytes.length then some ((bytes.take last).drop first) else none

theorem Bytes.slice?_eq {bytes : Bytes} (hfirst : first ≤ last) (hlast : last ≤ bytes.length) :
    bytes.slice? first last = some ((bytes.drop first).take (last - first)) := by
  rw [slice?, if_pos ⟨hfirst, hlast⟩, List.drop_take]

namespace Frame

variable {bytes lead : Bytes} {header n : Nat} {limit : UInt32}

-- ---------------------------------------------------------------------------
-- What the length decides
-- ---------------------------------------------------------------------------

theorem bodyLength_eq_ok_iff : bodyLength lead header limit = .ok n ↔
    header ≤ Bytes.toNat lead ∧ Bytes.toNat lead ≤ header + limit.toNat ∧ n = Bytes.toNat lead := by
  unfold bodyLength
  grind

theorem bodyLength_eq_truncated_iff : bodyLength lead header limit = .error .truncated ↔
    Bytes.toNat lead < header := by
  unfold bodyLength
  grind

theorem bodyLength_eq_tooLarge_iff : bodyLength lead header limit = .error (.tooLarge n) ↔
    header + limit.toNat < Bytes.toNat lead ∧ n = Bytes.toNat lead := by
  unfold bodyLength
  grind

theorem bodyLength_ne_needMore : bodyLength lead header limit ≠ .error .needMore := by
  unfold bodyLength
  grind

theorem split_of_short (hshort : bytes.length < leadSize) :
    split bytes header limit = .error .needMore := by
  rw [split, if_pos hshort]

theorem split_of_missing (hlong : leadSize ≤ bytes.length)
    (hlead : bodyLength (bytes.take leadSize) header limit = .ok n)
    (hmissing : bytes.length < leadSize + n) : split bytes header limit = .error .needMore := by
  unfold split
  rw [if_neg (Nat.not_lt.mpr hlong)]
  split
  · next hbad => cases hbad.symm.trans hlead
  · next hgood =>
    obtain rfl := Except.ok.inj (hgood.symm.trans hlead)
    rw [dif_pos hmissing]

theorem exists_split (hlead : bodyLength (bytes.take leadSize) header limit = .ok n)
    (hwhole : leadSize + n ≤ bytes.length) : ∃ body, split bytes header limit = .ok body ∧
      body.bytes = (bytes.drop leadSize).take n ∧ body.used = leadSize + n := by
  have hheader : header ≤ ((bytes.drop leadSize).take n).length := by
    have := header_le_of_bodyLength hlead
    rw [List.length_take, List.length_drop]
    omega
  refine ⟨⟨(bytes.drop leadSize).take n, leadSize + n, hheader⟩, ?_, rfl, rfl⟩
  exact split_eq_ok_iff.mpr ⟨Nat.le_of_add_right_le hwhole, n, hlead, hwhole, rfl, rfl⟩

/-- More bytes are called for only where some are missing. -/
theorem split_eq_needMore_iff : split bytes header limit = .error .needMore ↔
    bytes.length < leadSize ∨ ∃ n, bodyLength (bytes.take leadSize) header limit = .ok n ∧
      bytes.length < leadSize + n := by
  constructor
  · intro hmore
    by_cases hshort : bytes.length < leadSize
    · exact .inl hshort
    have hlong := Nat.le_of_not_lt hshort
    cases hlead : bodyLength (bytes.take leadSize) header limit with
    | error e =>
      have final : e ≠ .needMore := fun h => bodyLength_ne_needMore (h ▸ hlead)
      have hsplit := (split_eq_error_iff final).mpr ⟨hlong, hlead⟩
      exact absurd (Except.error.inj (hsplit.symm.trans hmore)) final
    | ok n =>
      refine .inr ⟨n, rfl, Nat.lt_of_not_le ?_⟩
      intro hwhole
      obtain ⟨body, hsplit, -⟩ := exists_split hlead hwhole
      cases hsplit.symm.trans hmore
  · rintro (hshort | ⟨n, hlead, hmissing⟩)
    · exact split_of_short hshort
    · by_cases hshort : bytes.length < leadSize
      · exact split_of_short hshort
      · exact split_of_missing (Nat.le_of_not_lt hshort) hlead hmissing

-- ---------------------------------------------------------------------------
-- Decoders that give up outside of the bytes
-- ---------------------------------------------------------------------------

def difference? (a b : Nat) : Option Nat := if b ≤ a then some (a - b) else none

def bodyLength? (lead : Bytes) (header : Nat) (limit : UInt32) :
    Option (Except DecodeError Nat) :=
  if Bytes.toNat lead < header then some (.error .truncated)
  else do
    let payload ← difference? (Bytes.toNat lead) header
    return if limit.toNat < payload then .error (.tooLarge (Bytes.toNat lead))
      else .ok (Bytes.toNat lead)

def split? (bytes : Bytes) (header : Nat) (limit : UInt32) :
    Option (Except DecodeError (Bytes × Nat)) :=
  if bytes.length < leadSize then some (.error .needMore)
  else do
    let lead := [← bytes[0]?, ← bytes[1]?, ← bytes[2]?, ← bytes[3]?]
    match ← bodyLength? lead header limit with
    | .error e => return .error e
    | .ok body =>
      if bytes.length < leadSize + body then return .error .needMore
      else return .ok (← bytes.slice? leadSize (leadSize + body), leadSize + body)

def Request.ofBytes? (body : Bytes) : Option Request := do
  let cluster ← Cluster.ofBytes? (← body.slice? 0 16)
  let operation ← body[16]?
  let tag := [← body[17]?, ← body[18]?]
  let payload ← body.slice? headerSize body.length
  return { cluster, operation, tag := UInt16.ofNat (Bytes.toNat tag), payload }

/-- A reply is taken apart by its form, so no position in it is looked up. -/
def Kind.decode? (bytes : Bytes) (limit : UInt32) :
    (kind : Kind) → Option (Except DecodeError (kind.Message × Nat))
  | request => do
    match ← split? bytes Request.headerSize limit with
    | .error e => return .error e
    | .ok (body, used) => return .ok (← Request.ofBytes? body, used)
  | reply => do
    match ← split? bytes Reply.headerSize limit with
    | .error e => return .error e
    | .ok (body, used) => return (Reply.parse body).map (·, used)

theorem bodyLength?_eq (lead : Bytes) (header : Nat) (limit : UInt32) :
    bodyLength? lead header limit = some (bodyLength lead header limit) := by
  simp only [bodyLength?, bodyLength]
  split
  · rfl
  · next hheader =>
    rw [difference?, if_pos (Nat.le_of_not_lt hheader)]
    rfl

theorem split?_of_long (hlong : leadSize ≤ bytes.length) (header : Nat) (limit : UInt32) :
    split? bytes header limit =
      match bodyLength (bytes.take leadSize) header limit with
      | .error e => some (.error e)
      | .ok body =>
        if bytes.length < leadSize + body then some (.error .needMore)
        else do return .ok (← bytes.slice? leadSize (leadSize + body), leadSize + body) := by
  match bytes with
  | [] | [_] | [_, _] | [_, _, _] => cases hlong <;> contradiction
  | b₀ :: b₁ :: b₂ :: b₃ :: rest =>
    rw [split?, if_neg (Nat.not_lt.mpr hlong)]
    change (bodyLength? [b₀, b₁, b₂, b₃] header limit >>= _) = _
    rw [bodyLength?_eq]
    cases h : bodyLength [b₀, b₁, b₂, b₃] header limit <;> simp [h]

theorem split?_eq (bytes : Bytes) (header : Nat) (limit : UInt32) : split? bytes header limit =
    some ((split bytes header limit).map fun body => (body.bytes, body.used)) := by
  by_cases hshort : bytes.length < leadSize
  · rw [split_of_short hshort, split?, if_pos hshort]
    rfl
  have hlong := Nat.le_of_not_lt hshort
  rw [split?_of_long hlong]
  cases hlead : bodyLength (bytes.take leadSize) header limit with
  | error e =>
    have final : e ≠ .needMore := fun h => bodyLength_ne_needMore (h ▸ hlead)
    rw [(split_eq_error_iff final).mpr ⟨hlong, hlead⟩]
    rfl
  | ok n =>
    by_cases hmissing : bytes.length < leadSize + n
    · simp only [if_pos hmissing, split_of_missing hlong hlead hmissing]
      rfl
    · have hwhole := Nat.le_of_not_lt hmissing
      obtain ⟨body, hsplit, hbytes, hused⟩ := exists_split hlead hwhole
      simp only [if_neg hmissing, hsplit, Except.map, hbytes, hused]
      rw [Bytes.slice?_eq (Nat.le_add_right ..) hwhole, Nat.add_sub_cancel_left]
      rfl

theorem slice?_of_header (body : Body Request.headerSize) :
    body.bytes.slice? 0 16 = some (body.bytes.take 16) ∧
      body.bytes.slice? Request.headerSize body.bytes.length =
        some (body.bytes.drop Request.headerSize) := by
  constructor
  · rw [Bytes.slice?_eq (Nat.zero_le _) (Nat.le_trans (by decide) body.header_le)]
    rfl
  · rw [Bytes.slice?_eq body.header_le (Nat.le_refl _), ← List.length_drop, List.take_length]

theorem take_two_drop {bytes : Bytes} (h : n + 1 < bytes.length) :
    (bytes.drop n).take 2 = [bytes[n], bytes[n + 1]] := by
  rw [List.drop_eq_getElem_cons (Nat.lt_of_succ_lt h), List.drop_eq_getElem_cons h]
  rfl

theorem Request.ofBytes?_eq (body : Body headerSize) :
    ofBytes? body.bytes = some (ofBody body) := by
  obtain ⟨hcluster, hpayload⟩ := slice?_of_header body
  have hheader : 18 < body.bytes.length := body.header_le
  have hlength : (body.bytes.take 16).length = 16 := List.length_take_of_le (by omega)
  simp only [ofBytes?, hcluster, hpayload, Option.bind_eq_bind, Option.bind_some,
    Cluster.ofBytes?, dif_pos hlength, List.getElem?_eq_getElem hheader,
    List.getElem?_eq_getElem (show 17 < body.bytes.length by omega),
    List.getElem?_eq_getElem (show 16 < body.bytes.length by omega), ← take_two_drop hheader]
  rfl

theorem Kind.decode?_eq (kind : Kind) (bytes : Bytes) (limit : UInt32) :
    kind.decode? bytes limit = some ((kind.decoder limit).decode bytes) := by
  cases kind with
  | request =>
    change (split? bytes Request.headerSize limit >>= _) = some (Request.decode bytes limit)
    rw [split?_eq, Request.decode]
    cases split bytes Request.headerSize limit with
    | error e => rfl
    | ok body =>
      change (Request.ofBytes? body.bytes >>= _) = _
      rw [Request.ofBytes?_eq]
      rfl
  | reply =>
    change (split? bytes Reply.headerSize limit >>= _) = some (Reply.decode bytes limit)
    rw [split?_eq, Reply.decode]
    cases split bytes Reply.headerSize limit with
    | error e => rfl
    | ok body =>
      change some ((Reply.parse body.bytes).map (·, body.used)) = _
      cases hreply : Reply.parse body.bytes <;>
        simp [hreply, Except.map, bind, Except.bind, pure, Except.pure]

-- ---------------------------------------------------------------------------
-- The one form
-- ---------------------------------------------------------------------------

theorem littleEndian_tag {tag : Bytes} (h : tag.length = 2) :
    Bytes.littleEndian 2 (UInt16.ofNat (Bytes.toNat tag)).toNat = tag := by
  have hsmall : Bytes.toNat tag < 2 ^ 16 := by simpa [h] using Bytes.toNat_lt tag
  rw [UInt16.toNat_ofNat', Nat.mod_eq_of_lt hsmall, Bytes.littleEndian_toNat_of_length h]

theorem Request.header_payload_ofBody (body : Body headerSize) :
    (ofBody body).header ++ (ofBody body).payload = body.bytes := by
  have hheader : 18 < body.bytes.length := body.header_le
  have htag : ((body.bytes.drop 17).take 2).length = 2 := by
    rw [List.length_take, List.length_drop]
    omega
  have hrest : (body.bytes.drop 17).take 2 ++ body.bytes.drop headerSize = body.bytes.drop 17 := by
    rw [← List.drop_drop (i := 2) (j := 17), List.take_append_drop]
  calc (ofBody body).header ++ (ofBody body).payload
      = body.bytes.take 16 ++ body.bytes[16] ::
          ((body.bytes.drop 17).take 2 ++ body.bytes.drop headerSize) := by
        simp only [ofBody, header, littleEndian_tag htag, List.get_eq_getElem, List.append_assoc,
          List.cons_append]
    _ = body.bytes := by
        rw [hrest, ← List.drop_eq_getElem_cons, List.take_append_drop]

namespace Kind

theorem decode_cut {kind : Kind} {m : kind.Message}
    (small : kind.headerSize + (kind.payload m).length < 2 ^ 32)
    (fits : (kind.payload m).length ≤ limit.toNat) (front : bytes <+: kind.written m)
    (short : bytes ≠ kind.written m) : (kind.decoder limit).decode bytes = .error .needMore := by
  obtain ⟨rest, hrest⟩ := front
  have hlength : bytes.length < leadSize + (kind.headerSize + (kind.payload m).length) := by
    rw [← length_written, ← hrest, List.length_append]
    refine Nat.lt_add_of_pos_right (List.length_pos_iff.mpr ?_)
    rintro rfl
    exact short (by rw [← hrest, List.append_nil])
  rw [decode_eq_error_iff]
  by_cases hlong : bytes.length < leadSize
  · exact split_of_short hlong
  · have hlead : bodyLength ((kind.written m ++ []).take leadSize) kind.headerSize limit = _ :=
      bodyLength_written small []
    rw [List.append_nil, if_neg (Nat.not_lt.mpr fits), ← hrest,
      List.take_append_of_le_length (Nat.le_of_not_lt hlong)] at hlead
    exact split_of_missing (Nat.le_of_not_lt hlong) hlead hlength

theorem header_payload_ofBody (kind : Kind) (body : Body kind.headerSize) :
    kind.header (kind.ofBody body) ++ kind.payload (kind.ofBody body) = body.bytes := by
  cases kind with
  | request => exact Request.header_payload_ofBody body
  | reply =>
    obtain ⟨content, used, hheader⟩ := body
    cases content with
    | nil => cases hheader
    | cons => rfl

theorem length_payload_ofBody (kind : Kind) (body : Body kind.headerSize) :
    kind.headerSize + (kind.payload (kind.ofBody body)).length = body.bytes.length := by
  rw [← header_payload_ofBody kind body, List.length_append, length_header]

/-- What was taken off the front is written as the bytes that it took up. -/
theorem written_ofBody {kind : Kind} {body : Body kind.headerSize}
    (h : split bytes kind.headerSize limit = .ok body) :
    kind.written (kind.ofBody body) = bytes.take body.used := by
  obtain ⟨hlong, n, hlead, hwhole, hbytes, hused⟩ := split_eq_ok_iff.mp h
  have hbody := header_payload_ofBody kind body
  have hlength : (bytes.take leadSize).length = leadSize := List.length_take_of_le hlong
  obtain ⟨-, -, hn⟩ := bodyLength_eq_ok_iff.mp hlead
  have hsize : kind.headerSize + (kind.payload (kind.ofBody body)).length = n := by
    rw [length_payload_ofBody, hbytes]
    exact List.length_take_of_le (by rw [List.length_drop]; omega)
  calc kind.written (kind.ofBody body)
      = bytes.take leadSize ++ (bytes.drop leadSize).take n := by
        rw [written, hbody, hsize, hbytes, hn, Bytes.littleEndian_toNat_of_length hlength]
    _ = bytes.take body.used := by rw [hused, List.take_add]

theorem length_payload_of_decode {kind : Kind} {m : kind.Message}
    (h : (kind.decoder limit).decode bytes = .ok (m, used)) :
    (kind.payload m).length ≤ limit.toNat := by
  obtain ⟨body, hsplit, rfl, -⟩ := decode_eq_ok_iff.mp h
  obtain ⟨-, n, hlead, -, hbytes, -⟩ := split_eq_ok_iff.mp hsplit
  obtain ⟨-, hlimit, rfl⟩ := bodyLength_eq_ok_iff.mp hlead
  have hsize := length_payload_ofBody kind body
  have hbody : body.bytes.length ≤ Bytes.toNat (bytes.take leadSize) :=
    hbytes ▸ List.length_take_le _ _
  omega

/-- What the length in front, the size of the header and the limit say decides the answer, and
each answer is given in no other case. What is accepted is written as the bytes that were read.
No answer takes a look outside of the bytes. -/
theorem decode_exact (kind : Kind) (bytes : Bytes) (limit : UInt32) :
    let lead := Bytes.toNat (bytes.take leadSize)
    let answer := (kind.decoder limit).decode bytes
    (answer = .error .needMore ↔ bytes.length < leadSize ∨
      (kind.headerSize ≤ lead ∧ lead ≤ kind.headerSize + limit.toNat ∧
        bytes.length < leadSize + lead)) ∧
    (answer = .error .truncated ↔ leadSize ≤ bytes.length ∧ lead < kind.headerSize) ∧
    (∀ n, answer = .error (.tooLarge n) ↔
      leadSize ≤ bytes.length ∧ kind.headerSize + limit.toNat < lead ∧ n = lead) ∧
    ((∃ m used, answer = .ok (m, used)) ↔ kind.headerSize ≤ lead ∧
      lead ≤ kind.headerSize + limit.toNat ∧ leadSize + lead ≤ bytes.length) ∧
    (∀ m used, answer = .ok (m, used) →
      used = leadSize + lead ∧ kind.encode m limit = .ok (bytes.take used)) ∧
    kind.decode? bytes limit = some answer := by
  refine ⟨?_, ?_, ?_, ?_, ?_, decode?_eq kind bytes limit⟩
  · simp only [decode_eq_error_iff, split_eq_needMore_iff, bodyLength_eq_ok_iff]
    grind
  · rw [decode_eq_error_iff, split_eq_error_iff (by decide), bodyLength_eq_truncated_iff]
  · intro n
    rw [decode_eq_error_iff, split_eq_error_iff (by simp), bodyLength_eq_tooLarge_iff]
  · constructor
    · rintro ⟨m, used, hok⟩
      obtain ⟨body, hsplit, -, -⟩ := decode_eq_ok_iff.mp hok
      obtain ⟨-, n, hlead, hwhole, -, -⟩ := split_eq_ok_iff.mp hsplit
      obtain ⟨hheader, hlimit, rfl⟩ := bodyLength_eq_ok_iff.mp hlead
      exact ⟨hheader, hlimit, hwhole⟩
    · rintro ⟨hheader, hlimit, hwhole⟩
      obtain ⟨body, hsplit, -⟩ :=
        exists_split (bodyLength_eq_ok_iff.mpr ⟨hheader, hlimit, rfl⟩) hwhole
      exact ⟨_, _, decode_eq_ok_iff.mpr ⟨body, hsplit, rfl, rfl⟩⟩
  · intro m used hok
    obtain ⟨body, hsplit, rfl, rfl⟩ := decode_eq_ok_iff.mp hok
    obtain ⟨-, n, hlead, -, hbytes, hused⟩ := split_eq_ok_iff.mp hsplit
    obtain ⟨-, hlimit, rfl⟩ := bodyLength_eq_ok_iff.mp hlead
    refine ⟨hused, encode_eq_ok_iff.mpr ⟨?_, (written_ofBody hsplit).symm⟩⟩
    have hsize := length_payload_ofBody kind body
    have hbody : body.bytes.length ≤ Bytes.toNat (bytes.take leadSize) :=
      hbytes ▸ List.length_take_le _ _
    omega

end Kind

end Frame

end Courier
