import Courier.Proofs.Frame.Kinds

/-!
# Frames read back

The length in front of a frame has four bytes. A body that can be counted in them is read back
as it was written, whatever follows it and under any limit that its payload keeps; under a lower
limit it is refused for its size (`drain_encoded`). A body of four gigabytes or more is written
all the same, with a length that has lost its top, and nobody can read it (`decode_encoded`).
-/

namespace Courier.Frame.Kind

variable {kind : Kind} {m : kind.Message} {limit : UInt32} {frame : Bytes}

-- ---------------------------------------------------------------------------
-- One frame
-- ---------------------------------------------------------------------------

/-- How a message is written, where its payload is not too large for that. -/
def written (kind : Kind) (m : kind.Message) : Bytes :=
  Bytes.littleEndian leadSize (kind.headerSize + (kind.payload m).length) ++
    (kind.header m ++ kind.payload m)

theorem encode_eq_ok_iff : kind.encode m limit = .ok frame ↔
    (kind.payload m).length ≤ limit.toNat ∧ frame = kind.written m := by
  rw [encode_eq, Frame.encode, front, length_header]
  split
  · next hover => simp [bind, Except.bind, Nat.not_le.mpr hover]
  · next hfits =>
    simp [bind, Except.bind, pure, Except.pure, Nat.le_of_not_lt hfits, eq_comm, written]

@[simp] theorem length_written :
    (kind.written m).length = leadSize + (kind.headerSize + (kind.payload m).length) := by
  simp [written]

/-- The length that is written is that of header and payload, less what four bytes cannot hold. -/
theorem lead_written (rest : Bytes) : Bytes.toNat ((kind.written m ++ rest).take leadSize) =
    (kind.headerSize + (kind.payload m).length) % 2 ^ 32 := by
  rw [written, List.append_assoc, List.take_left' (Bytes.length_littleEndian ..),
    Bytes.toNat_littleEndian]
  rfl

theorem lead_written_alone : Bytes.toNat ((kind.written m).take leadSize) =
    (kind.headerSize + (kind.payload m).length) % 2 ^ 32 := by
  simpa only [List.append_nil] using lead_written (m := m) []

theorem drop_written (rest : Bytes) :
    (kind.written m ++ rest).drop leadSize = kind.header m ++ kind.payload m ++ rest := by
  rw [written, List.append_assoc, List.drop_left' (Bytes.length_littleEndian ..)]

theorem leadSize_le (rest : Bytes) : leadSize ≤ (kind.written m ++ rest).length := by
  rw [List.length_append, length_written]
  omega

theorem bodyLength_written (small : kind.headerSize + (kind.payload m).length < 2 ^ 32)
    (rest : Bytes) : bodyLength ((kind.written m ++ rest).take leadSize) kind.headerSize limit =
      if limit.toNat < (kind.payload m).length then
        .error (.tooLarge (kind.headerSize + (kind.payload m).length))
      else .ok (kind.headerSize + (kind.payload m).length) := by
  unfold bodyLength
  rw [lead_written, Nat.mod_eq_of_lt small]
  simp only [Nat.add_sub_cancel_left, Nat.not_lt.mpr (Nat.le_add_right ..), if_false]

theorem decode_written (small : kind.headerSize + (kind.payload m).length < 2 ^ 32)
    (fits : (kind.payload m).length ≤ limit.toNat) (rest : Bytes) :
    (kind.decoder limit).decode (kind.written m ++ rest) = .ok (m, (kind.written m).length) := by
  have hlead : bodyLength ((kind.written m ++ rest).take leadSize) kind.headerSize limit =
      .ok (kind.headerSize + (kind.payload m).length) := by
    rw [bodyLength_written small, if_neg (Nat.not_lt.mpr fits)]
  have hbody : ((kind.written m ++ rest).drop leadSize).take
      (kind.headerSize + (kind.payload m).length) = kind.header m ++ kind.payload m := by
    rw [drop_written]
    exact List.take_left' (by simp)
  obtain ⟨body, hsplit, hbytes, hused⟩ : ∃ body,
      split (kind.written m ++ rest) kind.headerSize limit = .ok body ∧
      body.bytes = kind.header m ++ kind.payload m ∧ body.used = (kind.written m).length := by
    refine ⟨⟨kind.header m ++ kind.payload m, (kind.written m).length, by simp⟩, ?_, rfl, rfl⟩
    refine split_eq_ok_iff.mpr ⟨leadSize_le rest, _, hlead, ?_, hbody.symm, length_written⟩
    rw [List.length_append, length_written]
    exact Nat.le_add_right ..
  rw [decode_eq, hsplit, Except.map, ofBody_eq kind m hbytes, hused]

theorem decode_of_lead {e : DecodeError} (final : e ≠ .needMore) (rest : Bytes)
    (lead : bodyLength ((kind.written m ++ rest).take leadSize) kind.headerSize limit = .error e) :
    (kind.decoder limit).decode (kind.written m ++ rest) = .error e := by
  rw [decode_eq, (split_eq_error_iff final).mpr ⟨leadSize_le rest, lead⟩]
  rfl

theorem decode_oversized (small : kind.headerSize + (kind.payload m).length < 2 ^ 32)
    (exceeds : limit.toNat < (kind.payload m).length) (rest : Bytes) :
    (kind.decoder limit).decode (kind.written m ++ rest) =
      .error (.tooLarge (kind.headerSize + (kind.payload m).length)) := by
  refine decode_of_lead (by simp) rest ?_
  rw [bodyLength_written small, if_pos exceeds]

/-- What is left of a length that was too large does not even cover the header. -/
theorem decode_wrapped (size : (kind.payload m).length < 2 ^ 32)
    (wraps : 2 ^ 32 ≤ kind.headerSize + (kind.payload m).length) (rest : Bytes) :
    (kind.decoder limit).decode (kind.written m ++ rest) = .error .truncated := by
  refine decode_of_lead (by simp) rest ?_
  unfold bodyLength
  rw [lead_written, if_pos]
  omega

theorem headerSize_le (kind : Kind) : kind.headerSize ≤ 19 := by
  cases kind <;> decide

/-- The length is right as long as it fits in four bytes, and then the message comes back.
Otherwise it is short by all that four bytes cannot hold, and what was written is no frame. -/
theorem decode_encoded (size : (kind.payload m).length < 2 ^ 32)
    (encoded : kind.encode m limit = .ok frame) :
    (Bytes.toNat (frame.take leadSize) = frame.length - leadSize ↔
      kind.headerSize + (kind.payload m).length < 2 ^ 32) ∧
    (kind.headerSize + (kind.payload m).length < 2 ^ 32 →
      (kind.decoder limit).decode frame = .ok (m, frame.length)) ∧
    (2 ^ 32 ≤ kind.headerSize + (kind.payload m).length →
      Bytes.toNat (frame.take leadSize) + 2 ^ 32 = frame.length - leadSize ∧
      (kind.decoder limit).decode frame = .error .truncated) := by
  obtain ⟨fits, rfl⟩ := encode_eq_ok_iff.mp encoded
  have hheader := kind.headerSize_le
  have hlength : (kind.written m).length - leadSize =
      kind.headerSize + (kind.payload m).length := by
    rw [length_written, Nat.add_sub_cancel_left]
  rw [lead_written_alone, hlength]
  refine ⟨?_, ?_, ?_⟩
  · exact Nat.mod_eq_iff_lt (by decide)
  · intro small
    simpa using decode_written small fits []
  · intro wraps
    refine ⟨by omega, ?_⟩
    have hwrapped : (kind.decoder limit).decode (kind.written m ++ []) = .error .truncated :=
      decode_wrapped size wraps []
    simpa only [List.append_nil] using hwrapped

/-- With its header this payload is one byte too long to be counted. -/
def uncounted : Request where
  cluster := .zero
  operation := 0
  tag := 0
  payload := List.replicate 4294967277 0

theorem length_uncounted : (Kind.request.payload uncounted).length = 4294967277 :=
  List.length_replicate

theorem encode_uncounted : ∃ frame, Kind.request.encode uncounted 4294967295 = .ok frame ∧
    Bytes.toNat (frame.take leadSize) ≠ frame.length - leadSize := by
  refine ⟨Kind.request.written uncounted, encode_eq_ok_iff.mpr ⟨?_, rfl⟩, ?_⟩
  · rw [length_uncounted]
    decide
  · rw [lead_written_alone, length_written, length_uncounted]
    decide

theorem decode_encoded_uncounted : (Kind.request.payload uncounted).length < 2 ^ 32 ∧
    ∃ frame, Kind.request.encode uncounted 4294967295 = .ok frame ∧
      Bytes.toNat (frame.take leadSize) + 2 ^ 32 = frame.length - leadSize ∧
      (Kind.request.decoder 4294967295).decode frame = .error .truncated := by
  have hsize : (Kind.request.payload uncounted).length < 2 ^ 32 := by
    rw [length_uncounted]
    decide
  have hencoded : Kind.request.encode uncounted 4294967295 = .ok (Kind.request.written uncounted) :=
    encode_eq_ok_iff.mpr ⟨by rw [length_uncounted]; decide, rfl⟩
  obtain ⟨-, -, hwraps⟩ := decode_encoded hsize hencoded
  exact ⟨hsize, _, hencoded, hwraps (by rw [length_uncounted]; decide)⟩

-- ---------------------------------------------------------------------------
-- Frames in a row
-- ---------------------------------------------------------------------------

variable {limit' : UInt32} {messages : List kind.Message}

theorem drain_written (small : ∀ m ∈ messages, kind.headerSize + (kind.payload m).length < 2 ^ 32)
    (fits : ∀ m ∈ messages, (kind.payload m).length ≤ limit.toNat) (rest : Bytes) :
    (kind.decoder limit).drain ((messages.map kind.written).flatten ++ rest) =
      ((kind.decoder limit).drain rest).behind
        (messages.zip ((messages.map kind.written).map List.length)) := by
  induction messages with
  | nil => rfl
  | cons m messages ih =>
    have hdecode := decode_written (small m List.mem_cons_self) (fits m List.mem_cons_self)
      ((messages.map kind.written).flatten ++ rest)
    rw [List.map_cons, List.flatten_cons, List.append_assoc, Decoder.drain_of_ok _ hdecode,
      List.drop_left, ih (fun n hn => small n (List.mem_cons_of_mem _ hn))
        fun n hn => fits n (List.mem_cons_of_mem _ hn)]
    rfl

theorem mapM_encode (fits : ∀ m ∈ messages, (kind.payload m).length ≤ limit.toNat) :
    messages.mapM (kind.encode · limit) = .ok (messages.map kind.written) := by
  induction messages with
  | nil => rfl
  | cons m messages ih =>
    have hm : kind.encode m limit = .ok (kind.written m) :=
      encode_eq_ok_iff.mpr ⟨fits m List.mem_cons_self, rfl⟩
    rw [List.mapM_cons, hm, ih fun n hn => fits n (List.mem_cons_of_mem _ hn)]
    rfl

/-- What was written is read back: all of it in front of what follows, or, where a payload is too
large for the reader, all up to there. -/
theorem drain_encoded (kind : Kind) (messages : List kind.Message) (limit limit' : UInt32)
    (rest : Bytes) (fits : ∀ m ∈ messages, (kind.payload m).length ≤ limit.toNat ∧
      kind.headerSize + (kind.payload m).length < 2 ^ 32) :
    ∃ frames, messages.mapM (kind.encode · limit) = .ok frames ∧
      ((∀ m ∈ messages, (kind.payload m).length ≤ limit'.toNat) →
        (kind.decoder limit').drain (frames.flatten ++ rest) =
          ((kind.decoder limit').drain rest).behind (messages.zip (frames.map List.length))) ∧
      ∀ front m back, messages = front ++ m :: back →
        (∀ n ∈ front, (kind.payload n).length ≤ limit'.toNat) →
        limit'.toNat < (kind.payload m).length →
        (kind.decoder limit').drain (frames.flatten ++ rest) =
          { frames := front.zip ((frames.take front.length).map List.length)
            stop := .tooLarge (kind.headerSize + (kind.payload m).length)
            left := (frames.drop front.length).flatten ++ rest } := by
  refine ⟨messages.map kind.written, mapM_encode fun m hm => (fits m hm).1, ?_, ?_⟩
  · intro hread
    exact drain_written (fun m hm => (fits m hm).2) hread rest
  · rintro front m back rfl hread hover
    have hstream : ((front ++ m :: back).map kind.written).flatten ++ rest =
        (front.map kind.written).flatten ++
          (kind.written m ++ ((back.map kind.written).flatten ++ rest)) := by
      simp
    have hsmall : ∀ n ∈ front, kind.headerSize + (kind.payload n).length < 2 ^ 32 :=
      fun n hn => (fits n (List.mem_append_left _ hn)).2
    have hstop := decode_oversized (fits m (by simp)).2 hover
      ((back.map kind.written).flatten ++ rest)
    rw [hstream, drain_written hsmall hread, Decoder.drain_of_error _ hstop]
    simp [Decoder.Intake.behind]

def threeReplies : List Reply := [⟨0, [1]⟩, ⟨4, [2, 3, 5, 7]⟩, ⟨1, []⟩]

/-- The reader takes payloads of three bytes. -/
theorem drain_encoded_threeReplies :
    (∀ m ∈ threeReplies, m.payload.length ≤ (8 : UInt32).toNat ∧
      Reply.headerSize + m.payload.length < 2 ^ 32) ∧
    ∃ frames, threeReplies.mapM (·.encode 8) = .ok frames ∧
      (Decoder.reply 3).drain (frames.flatten ++ [9]) =
        { frames := [(⟨0, [1]⟩, 6)]
          stop := .tooLarge 5
          left := [5, 0, 0, 0, 4, 2, 3, 5, 7, 1, 0, 0, 0, 1, 9] } := by
  have hfits : ∀ m ∈ threeReplies, m.payload.length ≤ (8 : UInt32).toNat ∧
      Reply.headerSize + m.payload.length < 2 ^ 32 := by decide
  obtain ⟨frames, hframes, -, hstop⟩ := drain_encoded .reply threeReplies 8 3 [9] hfits
  refine ⟨hfits, frames, hframes, ?_⟩
  have hdrain := hstop [⟨0, [1]⟩] ⟨4, [2, 3, 5, 7]⟩ [⟨1, []⟩] rfl (by decide) (by decide)
  obtain rfl := Except.ok.inj hframes
  exact hdrain

end Courier.Frame.Kind
