import Courier.Proofs.Frame.Kinds

/-!
# Streams in chunks

What a decoder says about the front of a buffer it says about every longer buffer too, unless it
has asked for more bytes. So neither the frames taken off a stream nor the error that ends it
depend on where the stream was cut (`run_chunks`).
-/

namespace Courier.Frame

-- ---------------------------------------------------------------------------
-- A buffer that grows
-- ---------------------------------------------------------------------------

namespace Decoder

variable {α : Type} {d : Decoder α}

/-- Every answer but a call for more bytes stands, whatever is appended. -/
structure Stable (d : Decoder α) : Prop where
  ok {bytes : Bytes} {frame : α} {used : Nat} : d.decode bytes = .ok (frame, used) →
    ∀ more, d.decode (bytes ++ more) = .ok (frame, used)
  error {bytes : Bytes} {e : DecodeError} : d.decode bytes = .error e → e ≠ .needMore →
    ∀ more, d.decode (bytes ++ more) = .error e

theorem decode_left (d : Decoder α) (bytes : Bytes) :
    d.decode (d.drain bytes).left = .error (d.drain bytes).stop := by
  induction bytes using drain.induct d with
  | case1 bytes e herror =>
    rw [drain_of_error d herror]
    exact herror
  | case2 bytes frame used hok _ ih =>
    rw [drain_of_ok d hok]
    exact ih

theorem drain_left (d : Decoder α) (bytes : Bytes) :
    d.drain (d.drain bytes).left = ⟨[], (d.drain bytes).stop, (d.drain bytes).left⟩ :=
  drain_of_error d (decode_left d bytes)

/-- It does not matter whether the frames that are there are taken off before more bytes come. -/
theorem Stable.drain_append (stable : d.Stable) (bytes more : Bytes) : d.drain (bytes ++ more) =
    (d.drain ((d.drain bytes).left ++ more)).behind (d.drain bytes).frames := by
  induction bytes using drain.induct d with
  | case1 bytes e herror =>
    rw [drain_of_error d herror]
    rfl
  | case2 bytes frame used hok _ ih =>
    have hused : used ≤ bytes.length := (d.used_pos hok).2
    rw [drain_of_ok d (stable.ok hok more), List.drop_append_of_le_length hused, ih,
      drain_of_ok d hok]
    rfl

/-- Chunks that come one by one bring what they would have brought at once. -/
theorem Stable.feed_chunks (stable : d.Stable) {chunks : List Bytes} (buffer : Bytes)
    (nonempty : chunks ≠ []) :
    (d.feed buffer chunks).flatMap (·.frames) = (d.drain (buffer ++ chunks.flatten)).frames ∧
    ∃ last, (d.feed buffer chunks).getLast? = some last ∧
      last.stop = (d.drain (buffer ++ chunks.flatten)).stop ∧
      (last.stop = .needMore → last.left = (d.drain (buffer ++ chunks.flatten)).left) := by
  induction chunks generalizing buffer with
  | nil => exact absurd rfl nonempty
  | cons chunk chunks ih =>
    rw [List.flatten_cons, ← List.append_assoc, stable.drain_append (buffer ++ chunk)]
    simp only [feed]
    split
    · next hmore =>
      cases chunks with
      | nil => simp [feed, drain_left, Intake.behind]
      | cons next chunks =>
        obtain ⟨hframes, last, hlast, hstop, hleft⟩ := ih (d.drain (buffer ++ chunk)).left (by simp)
        refine ⟨?_, last, ?_, hstop, hleft⟩
        · rw [List.flatMap_cons, hframes]
          rfl
        · rw [List.getLast?_cons, hlast]
          rfl
    · next hfinal =>
      -- the answer is final, so the bytes that were never fed change nothing
      have herror := stable.error (decode_left d (buffer ++ chunk)) hfinal chunks.flatten
      rw [drain_of_error d herror]
      simp [Intake.behind, hfinal]

def persist (d : Decoder α) (buffer : Bytes) : List Bytes → List (Intake α)
  | [] => []
  | chunk :: chunks =>
    let intake := d.drain (buffer ++ chunk)
    intake :: d.persist intake.left chunks

/-- Nothing is gained by going on after an error. -/
theorem Stable.persist_chunks (stable : d.Stable) {chunks : List Bytes} (buffer : Bytes)
    (nonempty : chunks ≠ []) :
    (d.persist buffer chunks).flatMap (·.frames) = (d.drain (buffer ++ chunks.flatten)).frames ∧
    ∃ last, (d.persist buffer chunks).getLast? = some last ∧
      last.stop = (d.drain (buffer ++ chunks.flatten)).stop ∧
      last.left = (d.drain (buffer ++ chunks.flatten)).left := by
  induction chunks generalizing buffer with
  | nil => exact absurd rfl nonempty
  | cons chunk chunks ih =>
    rw [List.flatten_cons, ← List.append_assoc, stable.drain_append (buffer ++ chunk)]
    cases chunks with
    | nil => simp [persist, drain_left, Intake.behind]
    | cons next chunks =>
      obtain ⟨hframes, last, hlast, hstop, hleft⟩ := ih (d.drain (buffer ++ chunk)).left (by simp)
      refine ⟨?_, last, ?_, hstop, hleft⟩
      · rw [persist, List.flatMap_cons, hframes]
        rfl
      · rw [persist, List.getLast?_cons, hlast]
        rfl

theorem length_frames_drain_le {least : Nat} (bytes : Bytes)
    (long : ∀ {bytes frame used}, d.decode bytes = .ok (frame, used) → least ≤ used) :
    (d.drain bytes).frames.length * least ≤ bytes.length := by
  induction bytes using drain.induct d with
  | case1 bytes e herror =>
    rw [drain_of_error d herror]
    simp
  | case2 bytes frame used hok _ ih =>
    have hused : used ≤ bytes.length := (d.used_pos hok).2
    have hleast := long hok
    rw [drain_of_ok d hok]
    rw [List.length_drop] at ih
    simp only [Intake.behind, List.length_append, List.length_singleton, Nat.add_mul]
    omega

end Decoder

-- ---------------------------------------------------------------------------
-- Requests and replies
-- ---------------------------------------------------------------------------

namespace Kind

theorem decode_eq_ok_iff {kind : Kind} {limit : UInt32} {bytes : Bytes} {m : kind.Message}
    {used : Nat} : (kind.decoder limit).decode bytes = .ok (m, used) ↔
      ∃ body, split bytes kind.headerSize limit = .ok body ∧
        kind.ofBody body = m ∧ body.used = used := by
  rw [decode_eq]
  cases split bytes kind.headerSize limit <;> simp [Except.map]

theorem decode_eq_error_iff {kind : Kind} {limit : UInt32} {bytes : Bytes} {e : DecodeError} :
    (kind.decoder limit).decode bytes = .error e ↔
      split bytes kind.headerSize limit = .error e := by
  rw [decode_eq]
  cases split bytes kind.headerSize limit <;> simp [Except.map]

theorem stable (kind : Kind) (limit : UInt32) : (kind.decoder limit).Stable where
  ok h more := by
    obtain ⟨body, hsplit, hm, hused⟩ := decode_eq_ok_iff.mp h
    exact decode_eq_ok_iff.mpr ⟨body, split_append hsplit more, hm, hused⟩
  error h final more := by
    obtain ⟨hlong, hlead⟩ := (split_eq_error_iff final).mp (decode_eq_error_iff.mp h)
    refine decode_eq_error_iff.mpr ((split_eq_error_iff final).mpr ⟨?_, ?_⟩)
    · rw [List.length_append]
      omega
    · rwa [List.take_append_of_le_length hlong]

theorem least_used {kind : Kind} {limit : UInt32} {bytes : Bytes} {m : kind.Message} {used : Nat}
    (h : (kind.decoder limit).decode bytes = .ok (m, used)) :
    leadSize + kind.headerSize ≤ used ∧ used ≤ bytes.length := by
  obtain ⟨body, hsplit, -, rfl⟩ := decode_eq_ok_iff.mp h
  obtain ⟨hused, hle⟩ := used_of_split hsplit
  exact ⟨hused ▸ Nat.add_le_add_left body.header_le _, hle⟩

/-- However a stream is cut, the frames are the same and so is the error at the end, with all that
is kept if there may be more. It makes no difference if the chunks behind an error are fed as well,
as an error that calls for no more bytes is never taken back. -/
theorem run_chunks (kind : Kind) (limit : UInt32) {xs ys : List Bytes} (hxs : xs ≠ [])
    (hys : ys ≠ []) (same : xs.flatten = ys.flatten) :
    ((kind.decoder limit).run xs).flatMap (·.frames) =
      ((kind.decoder limit).run ys).flatMap (·.frames) ∧
    (∃ x y, ((kind.decoder limit).run xs).getLast? = some x ∧
      ((kind.decoder limit).run ys).getLast? = some y ∧ x.stop = y.stop ∧
      (x.stop = .needMore → x.left = y.left)) ∧
    (((kind.decoder limit).persist [] xs).flatMap (·.frames) =
      ((kind.decoder limit).persist [] ys).flatMap (·.frames) ∧
      ∃ x y, ((kind.decoder limit).persist [] xs).getLast? = some x ∧
        ((kind.decoder limit).persist [] ys).getLast? = some y ∧ x.stop = y.stop ∧
        x.left = y.left) ∧
    (∀ bytes e, (kind.decoder limit).decode bytes = .error e → e ≠ .needMore →
      ∀ more, (kind.decoder limit).decode (bytes ++ more) = .error e) ∧
    (∀ bytes m used, (kind.decoder limit).decode bytes = .ok (m, used) →
      leadSize + kind.headerSize ≤ used ∧ used ≤ bytes.length) ∧
    ∀ bytes, ((kind.decoder limit).drain bytes).frames.length * (leadSize + kind.headerSize) ≤
      bytes.length := by
  have stable := kind.stable limit
  obtain ⟨hxframes, x, hx, hxstop, hxleft⟩ := stable.feed_chunks [] hxs
  obtain ⟨hyframes, y, hy, hystop, hyleft⟩ := stable.feed_chunks [] hys
  obtain ⟨hxall, u, hu, hustop, huleft⟩ := stable.persist_chunks [] hxs
  obtain ⟨hyall, v, hv, hvstop, hvleft⟩ := stable.persist_chunks [] hys
  rw [← same] at hyframes hystop hyleft hyall hvstop hvleft
  refine ⟨hxframes.trans hyframes.symm, ⟨x, y, hx, hy, hxstop.trans hystop.symm, ?_⟩,
    ⟨hxall.trans hyall.symm, u, v, hu, hv, hustop.trans hvstop.symm, huleft.trans hvleft.symm⟩,
    ?_, ?_, ?_⟩
  · intro hmore
    exact (hxleft hmore).trans (hyleft (hystop.trans (hxstop.symm.trans hmore))).symm
  · exact fun _ _ herror final => stable.error herror final
  · exact fun _ _ _ hok => least_used hok
  · exact fun bytes => Decoder.length_frames_drain_le bytes fun hok => (least_used hok).1

def atOnce : List Bytes := [[2, 0, 0, 0, 4, 9, 1, 0, 0, 0]]

def inPieces : List Bytes := [[2, 0], [0, 0, 4, 9, 1], [], [0, 0, 0]]

theorem run_chunks_inPieces : inPieces ≠ [] ∧ atOnce ≠ [] ∧ inPieces.flatten = atOnce.flatten ∧
    ((reply.decoder 8).run inPieces).flatMap (·.frames) =
      ((reply.decoder 8).run atOnce).flatMap (·.frames) ∧
    ∃ x y, ((reply.decoder 8).run inPieces).getLast? = some x ∧
      ((reply.decoder 8).run atOnce).getLast? = some y ∧ x.stop = y.stop ∧
      (x.stop = .needMore → x.left = y.left) := by
  have hpieces : inPieces ≠ [] := by decide
  have honce : atOnce ≠ [] := by decide
  obtain ⟨hframes, hlast, -⟩ := run_chunks reply 8 hpieces honce rfl
  exact ⟨hpieces, honce, rfl, hframes, hlast⟩

end Kind

end Courier.Frame
