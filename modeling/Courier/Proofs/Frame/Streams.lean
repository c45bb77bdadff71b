import Courier.Frame.Decoder

/-!
# Frames in a row

A frame that is whole decodes the same whatever follows it, so taking frames off a
stream gives back the frames that were put into it, in order.
-/

namespace Courier.Frame

variable {bytes : Bytes} {header : Nat} {limit : UInt32}

theorem split_eq_ok_iff {body : Body header} : split bytes header limit = .ok body ↔
    leadSize ≤ bytes.length ∧ ∃ n, bodyLength (bytes.take leadSize) header limit = .ok n ∧
      leadSize + n ≤ bytes.length ∧ body.bytes = (bytes.drop leadSize).take n ∧
      body.used = leadSize + n := by
  obtain ⟨content, used, hheader⟩ := body
  unfold split
  split
  · next hshort => simp [Nat.not_le.mpr hshort]
  · next hlong =>
    split
    · next hlead => simp [hlead]
    · next n hlead =>
      split
      · next hshort => simp [hlead, Nat.not_le.mpr hshort]
      · next hwhole =>
        simp [hlead, Nat.le_of_not_lt hlong, Nat.le_of_not_lt hwhole, eq_comm]

theorem split_eq_error_iff {e : DecodeError} (final : e ≠ .needMore) :
    split bytes header limit = .error e ↔
      leadSize ≤ bytes.length ∧ bodyLength (bytes.take leadSize) header limit = .error e := by
  unfold split
  split
  · next hshort => simp [final.symm, Nat.not_le.mpr hshort]
  · next hlong =>
    split
    · next hlead => simp [hlead, Nat.le_of_not_lt hlong]
    · next hlead => split <;> simp [hlead, final.symm]

theorem split_append {body : Body header} (h : split bytes header limit = .ok body)
    (more : Bytes) : split (bytes ++ more) header limit = .ok body := by
  obtain ⟨hlong, n, hlead, hwhole, hbytes, hused⟩ := split_eq_ok_iff.mp h
  refine split_eq_ok_iff.mpr ⟨?_, n, ?_, ?_, ?_, hused⟩
  · rw [List.length_append]
    omega
  · rwa [List.take_append_of_le_length hlong]
  · rw [List.length_append]
    omega
  · rw [hbytes, List.drop_append_of_le_length hlong, List.take_append_of_le_length]
    rw [List.length_drop]
    omega

namespace Reply

theorem decode_append {reply : Reply} {used : Nat}
    (h : decode bytes limit = .ok (reply, used)) (more : Bytes) :
    decode (bytes ++ more) limit = .ok (reply, used) := by
  unfold decode at h ⊢
  cases hs : split bytes headerSize limit with
  | error e => simp [hs, bind, Except.bind] at h
  | ok body => rwa [split_append hs, ← hs]

def Fills (limit : UInt32) (bytes : Bytes) (reply : Reply) : Prop :=
  decode bytes limit = .ok (reply, bytes.length)

theorem exists_fills {body : Nat}
    (lead : bodyLength (bytes.take leadSize) headerSize limit = .ok body)
    (length : bytes.length = leadSize + body) : ∃ reply, Fills limit bytes reply := by
  have hheader : headerSize ≤ body := header_le_of_bodyLength lead
  have htake : (bytes.drop leadSize).take body = bytes.drop leadSize :=
    List.take_of_length_le (by rw [List.length_drop]; omega)
  have hsplit : split bytes headerSize limit =
      .ok ⟨bytes.drop leadSize, bytes.length, by rw [List.length_drop]; omega⟩ :=
    split_eq_ok_iff.mpr ⟨by omega, body, lead, by omega, htake.symm, length⟩
  cases hb : bytes.drop leadSize with
  | nil =>
    have hlength := congrArg List.length hb
    rw [List.length_drop, List.length_nil] at hlength
    have hpos : 0 < headerSize := by decide
    omega
  | cons status payload =>
    refine ⟨⟨status, payload⟩, ?_⟩
    simp [Fills, decode, hsplit, hb, parse, bind, Except.bind, pure, Except.pure]

end Reply

namespace Decoder

variable {α : Type} (d : Decoder α)

theorem drain_of_error {e : DecodeError} (h : d.decode bytes = .error e) :
    d.drain bytes = ⟨[], e, bytes⟩ := by
  rw [drain]
  split
  · next herror => rw [Except.error.inj (herror.symm.trans h)]
  · next hok => simp [h] at hok

def Intake.behind (intake : Intake α) (frames : List (α × Nat)) : Intake α :=
  { intake with frames := frames ++ intake.frames }

theorem drain_of_ok {frame : α} {used : Nat} (h : d.decode bytes = .ok (frame, used)) :
    d.drain bytes = (d.drain (bytes.drop used)).behind [(frame, used)] := by
  rw [drain]
  split
  · next herror => simp [h] at herror
  · next hok =>
    obtain ⟨rfl, rfl⟩ := Prod.ext_iff.mp (Except.ok.inj (hok.symm.trans h))
    rfl

theorem frames_drain_of_ok {frame : α} {used : Nat} (h : d.decode bytes = .ok (frame, used)) :
    (d.drain bytes).frames = (frame, used) :: (d.drain (bytes.drop used)).frames := by
  rw [drain_of_ok d h]
  rfl

end Decoder

theorem frames_drain_reply {raw : Bytes} {reply : Reply} (whole : Reply.Fills limit raw reply)
    (rest : Bytes) : ((Decoder.reply limit).drain (raw ++ rest)).frames =
      (reply, raw.length) :: ((Decoder.reply limit).drain rest).frames := by
  have hdecode : (Decoder.reply limit).decode (raw ++ rest) = .ok (reply, raw.length) :=
    Reply.decode_append whole rest
  rw [Decoder.frames_drain_of_ok _ hdecode, List.drop_left]

/-- Behind some whole replies the stream goes on as if they had not been there. -/
theorem frames_drain_replies {raws : List Bytes}
    (whole : ∀ raw ∈ raws, ∃ reply, Reply.Fills limit raw reply) (rest : Bytes) (n : Nat) :
    ((Decoder.reply limit).drain (raws.flatten ++ rest)).frames[raws.length + n]? =
      ((Decoder.reply limit).drain rest).frames[n]? := by
  induction raws with
  | nil => simp
  | cons raw raws ih =>
    obtain ⟨reply, hreply⟩ := whole raw List.mem_cons_self
    rw [List.flatten_cons, List.append_assoc, frames_drain_reply hreply, List.length_cons,
      Nat.add_right_comm, List.getElem?_cons_succ]
    exact ih fun raw hraw => whole raw (List.mem_cons_of_mem _ hraw)

end Courier.Frame
