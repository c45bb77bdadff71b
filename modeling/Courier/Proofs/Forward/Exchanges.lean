import Courier.Proofs.Forward.Moves
import Courier.Proofs.Forward.Turns
import Courier.Proofs.Frame.Streams

/-!
# Exchanges on a connection

Frames do not say to which request they belong, so a reply is matched with its packet by
its position on the connection alone. This is sound because a connection is given up with
the first exchange on it that does not succeed: all exchanges before it have taken exactly
one whole reply each. `Tracked` is the invariant that says so, for whatever the peers send
and in whatever order the worker is told of it.
-/

namespace Courier.Forward

-- ---------------------------------------------------------------------------
-- What a connection has seen
-- ---------------------------------------------------------------------------

variable {limit : UInt32} {history past : List Exchange} {link : Connection}
  {written consumed : Bytes} {w : Worker}

/-- All exchanges on the connection have succeeded. What was written to it are their frames, what
was read from it are as many replies, and then what the exchange under way has written and read. -/
structure Linked (limit : UInt32) (history : List Exchange) (link : Connection)
    (written consumed : Bytes) : Prop where
  kept : ∀ x ∈ history, x.link.channel = link.channel → x.kept = true
  written : link.written =
    ((exchangesOn link.channel history).map (·.frame)).flatten ++ written
  consumed : ∃ raws : List Bytes, raws.length = (exchangesOn link.channel history).length ∧
    (∀ raw ∈ raws, ∃ reply, Frame.Reply.Fills limit raw reply) ∧
    link.consumed = raws.flatten ++ consumed

def Tracked (limit : UInt32) (history : List Exchange) (w : Worker) : Prop :=
  w.limit = limit ∧
  match w.phase with
  | .exchanging _ _ (.dialling _) => w.connection = none
  | .exchanging _ frame (.sending link unsent) => w.connection = none ∧
    ∃ sent, sent ++ unsent = frame ∧ Linked limit history link sent []
  | .exchanging _ frame (.lead link got) => w.connection = none ∧
    got.length ≤ Frame.leadSize ∧ Linked limit history link frame got
  | .exchanging _ frame (.body link missing) => w.connection = none ∧
    (∃ body, Frame.bodyLength (w.buffer.take Frame.leadSize) Frame.Reply.headerSize limit =
        .ok body ∧
      Frame.leadSize ≤ w.buffer.length ∧ w.buffer.length + missing = Frame.leadSize + body) ∧
    Linked limit history link frame w.buffer
  | _ => ∀ link ∈ w.connection, Linked limit history link [] []

/-- An exchange that succeeded has written its frame behind those of the exchanges before it, and
its packet ends as the reply in the same position says, whatever the peer may send later. -/
structure Succeeded (limit : UInt32) (past : List Exchange) (x : Exchange) : Prop where
  written : x.link.written =
    ((exchangesOn x.link.channel past).map (·.frame)).flatten ++ x.frame
  replied : ∃ reply used,
    (∀ more, ((Frame.Decoder.reply limit).drain (x.link.arrived ++ more)).frames[
      (exchangesOn x.link.channel past).length]? = some (reply, used)) ∧
    x.settlements =
      [⟨x.place, .complete ((Outcome.ofCode? reply.status).getD .engineFailure) reply.payload⟩]

def Unanswered (s : Settlement) : Prop := ∃ outcome, outcome ≠ .ok ∧ s.ending = .complete outcome []

/-- What an exchange that ended owes to those before it. -/
structure Lawful (limit : UInt32) (past : List Exchange) (x : Exchange) : Prop where
  kept : ∀ y ∈ past, y.link.channel = x.link.channel → y.kept = true
  succeeded : x.kept = true → Succeeded limit past x
  failed : x.kept = false → ∃ outcome, outcome ≠ .ok ∧
    x.settlements = [⟨x.place, .complete outcome []⟩]

structure Keeps (limit : UInt32) (history : List Exchange) (w : Worker) (turn : Worker.Turn) :
    Prop where
  tracked : Tracked limit (history ++ (w.exchange? turn).toList) turn.1
  lawful : ∀ x ∈ w.exchange? turn, Lawful limit history x
  settled : ∀ s ∈ turn.2, (∃ x ∈ w.exchange? turn, x.kept = true ∧ s ∈ x.settlements) ∨
    Unanswered s

-- ---------------------------------------------------------------------------
-- The connection on its own
-- ---------------------------------------------------------------------------

namespace Connection

variable (c : Connection) (bytes : Bytes) (count : Nat)

theorem written_write : (c.write bytes).written = c.written ++ bytes := by
  simp [written, write]

theorem consumed_read : (c.read count).2.consumed = c.consumed ++ (c.read count).1 := by
  simp [consumed, read]

end Connection

namespace Linked

theorem accepted (fresh : ∀ x ∈ history, x.link.channel ≠ channel) (endpoint : Address.Endpoint) :
    Linked limit history { endpoint, channel } [] [] := by
  have hnone : exchangesOn channel history = [] := by
    rw [exchangesOn, List.filter_eq_nil_iff]
    exact fun x hx => by simpa using fresh x hx
  exact ⟨fun x hx hc => absurd hc (fresh x hx), by simp [hnone, Connection.written],
    [], by simp [hnone], by simp, by simp [Connection.consumed]⟩

theorem write (h : Linked limit history link written consumed) (bytes : Bytes) :
    Linked limit history (link.write bytes) (written ++ bytes) consumed where
  kept := h.kept
  written := by
    rw [Connection.written_write, h.written, List.append_assoc]
    rfl
  consumed := h.consumed

theorem read (h : Linked limit history link written consumed) (count : Nat) :
    Linked limit history (link.read count).2 written (consumed ++ (link.read count).1) where
  kept := h.kept
  written := h.written
  consumed := by
    obtain ⟨raws, hlength, hwhole, hconsumed⟩ := h.consumed
    exact ⟨raws, hlength, hwhole, by rw [Connection.consumed_read, hconsumed, List.append_assoc]⟩

theorem receive (h : Linked limit history link written consumed) (bytes : Bytes) :
    Linked limit history (link.receive bytes) written consumed :=
  ⟨h.kept, h.written, h.consumed⟩

theorem finish (h : Linked limit history link written consumed) :
    Linked limit history link.finish written consumed :=
  ⟨h.kept, h.written, h.consumed⟩

/-- With the exchange that it was used for added to the history, the connection is ready for the
next one. -/
theorem conclude (h : Linked limit history link frame buffer)
    (whole : Frame.Reply.Fills limit buffer reply) (place : Place)
    (settlements : List Settlement) :
    Linked limit (history ++ [{ place, frame, link, kept := true, settlements }]) link [] [] := by
  have hon : exchangesOn link.channel
      (history ++ [{ place, frame, link, kept := true, settlements }]) =
      exchangesOn link.channel history ++ [{ place, frame, link, kept := true, settlements }] := by
    simp [exchangesOn]
  obtain ⟨raws, hlength, hwhole, hconsumed⟩ := h.consumed
  refine ⟨?_, ?_, raws ++ [buffer], ?_, ?_, ?_⟩
  · intro x hx hc
    rcases List.mem_append.mp hx with hx | hx
    · exact h.kept x hx hc
    · rw [List.mem_singleton.mp hx]
  · rw [hon, h.written]
    simp
  · rw [hon]
    simp [hlength]
  · intro raw hraw
    rcases List.mem_append.mp hraw with hraw | hraw
    · exact hwhole raw hraw
    · exact ⟨reply, List.mem_singleton.mp hraw ▸ whole⟩
  · rw [hconsumed]
    simp

theorem frame_at (h : Linked limit history link written buffer)
    (whole : Frame.Reply.Fills limit buffer reply) (more : Bytes) :
    ((Frame.Decoder.reply limit).drain (link.arrived ++ more)).frames[
      (exchangesOn link.channel history).length]? = some (reply, buffer.length) := by
  obtain ⟨raws, hlength, hwhole, hconsumed⟩ := h.consumed
  have hstream : link.arrived ++ more = raws.flatten ++ (buffer ++ (link.inbox ++ more)) := by
    simp [Connection.arrived, hconsumed]
  have hbehind := Frame.frames_drain_replies hwhole (buffer ++ (link.inbox ++ more)) 0
  rw [Nat.add_zero, hlength] at hbehind
  rw [hstream, hbehind, Frame.frames_drain_reply whole]
  rfl

end Linked

-- ---------------------------------------------------------------------------
-- The turns of the worker
-- ---------------------------------------------------------------------------

open Worker (Turn exchange?_of_going exchange?_of_resting exchange?_of_same)

theorem Keeps.quiet {turn : Turn} (going : w.exchange? turn = none) (none : turn.2 = [])
    (tracked : Tracked limit history turn.1) : Keeps limit history w turn where
  tracked := by simpa [going] using tracked
  lawful := by simp [going]
  settled := by simp [none]

theorem Keeps.settle {w' : Worker} (resting : w.exchange? (w'.settle place outcome []) = none)
    (limit_eq : w'.limit = limit) (kept : ∀ link ∈ w'.connection, Linked limit history link [] [])
    (failed : outcome ≠ .ok) : Keeps limit history w (w'.settle place outcome []) where
  tracked := by
    rw [resting]
    simpa [Worker.settle, Tracked] using ⟨limit_eq, kept⟩
  lawful := by simp [resting]
  settled := by
    intro s hs
    exact .inr ⟨outcome, failed, by rw [List.mem_singleton.mp hs]⟩

theorem Keeps.lose {w' : Worker} {stage : Stage} (phase : w.phase = .exchanging place frame stage)
    (used : stage.link? = some link) (linked : Linked limit history link written consumed)
    (limit_eq : w'.limit = limit) (lost : w'.connection = none) (failed : outcome ≠ .ok) :
    Keeps limit history w (w'.settle place outcome []) := by
  have hover : w.exchange? (w'.settle place outcome []) = some
      { place, frame, link, kept := false,
        settlements := [⟨place, .complete outcome []⟩] } := by
    simp [Worker.exchange?, phase, used, Worker.settle, lost]
  refine ⟨?_, ?_, ?_⟩
  · simp [Worker.settle, Tracked, limit_eq, lost]
  · rw [hover]
    rintro x ⟨⟩
    exact ⟨linked.kept, by simp, fun _ => ⟨outcome, failed, rfl⟩⟩
  · intro s hs
    exact .inr ⟨outcome, failed, by rw [List.mem_singleton.mp hs]⟩

theorem Keeps.conclude (phase : w.phase = .exchanging place frame (.body link 0))
    (limit_eq : w.limit = limit) (linked : Linked limit history link frame w.buffer)
    (lead : Frame.bodyLength (w.buffer.take Frame.leadSize) Frame.Reply.headerSize limit =
      .ok body) (length : w.buffer.length = Frame.leadSize + body) :
    Keeps limit history w (w.conclude place link) := by
  obtain ⟨reply, whole⟩ := Frame.Reply.exists_fills lead length
  have hturn : w.conclude place link = { w with connection := some link }.settle place
      ((Outcome.ofCode? reply.status).getD .engineFailure) reply.payload := by
    have hdecode := whole
    rw [Frame.Reply.Fills, ← limit_eq] at hdecode
    simp [Worker.conclude, hdecode]
  have hover : w.exchange? (w.conclude place link) = some
      { place, frame, link, kept := true,
        settlements := (w.conclude place link).2 } := by
    rw [hturn]
    simp [Worker.exchange?, phase, Stage.link?, Worker.settle]
  refine ⟨?_, ?_, ?_⟩
  · rw [hover, hturn]
    simpa [Worker.settle, Tracked, limit_eq] using linked.conclude whole place _
  · rw [hover]
    rintro x ⟨⟩
    refine ⟨linked.kept, fun _ => ⟨linked.written, reply, _, linked.frame_at whole, ?_⟩, by simp⟩
    rw [hturn]
    rfl
  · intro s hs
    exact .inl ⟨_, hover, rfl, hs⟩

theorem Keeps.enter {w' : Worker} (tracked : Tracked limit history (w'.enter place frame stage)) :
    Keeps limit history w (w'.enter place frame stage, []) :=
  .quiet (exchange?_of_going (by simp [Worker.enter])) rfl tracked

theorem resting_of_no_link {turn : Turn} (phase : w.phase = .exchanging place frame stage)
    (unused : stage.link? = none) : w.exchange? turn = none :=
  exchange?_of_resting fun _ _ _ h => by
    obtain ⟨-, -, rfl⟩ := Phase.exchanging.inj (phase.symm.trans h)
    exact unused

/-- An exchange can be given up at any stage. -/
theorem Keeps.abandon {w' : Worker} (tracked : Tracked limit history w)
    (phase : w.phase = .exchanging place frame stage) (limit_eq : w'.limit = w.limit)
    (same : w'.connection = w.connection) (failed : outcome ≠ .ok) :
    Keeps limit history w (w'.settle place outcome []) := by
  simp only [Tracked, phase] at tracked
  cases stage with
  | starting =>
    exact .settle (resting_of_no_link phase rfl) (limit_eq.trans tracked.1)
      (same ▸ tracked.2) failed
  | dialling =>
    exact .settle (resting_of_no_link phase rfl) (limit_eq.trans tracked.1)
      (by simp [same, tracked.2]) failed
  | sending link unsent =>
    obtain ⟨h, hnone, _, _, linked⟩ := tracked
    exact .lose phase rfl linked (limit_eq.trans h) (same.trans hnone) failed
  | lead link got =>
    obtain ⟨h, hnone, _, linked⟩ := tracked
    exact .lose phase rfl linked (limit_eq.trans h) (same.trans hnone) failed
  | body link missing =>
    obtain ⟨h, hnone, _, linked⟩ := tracked
    exact .lose phase rfl linked (limit_eq.trans h) (same.trans hnone) failed

theorem Keeps.progress_starting (tracked : Tracked limit history w)
    (phase : w.phase = .exchanging place frame .starting)
    (goes : w.progress place frame .starting = some turn) : Keeps limit history w turn := by
  obtain ⟨limit_eq, hkept⟩ := by simpa only [Tracked, phase] using tracked
  simp only [Worker.progress] at goes
  split at goes
  · next link hlink =>
    obtain rfl := Option.some.inj goes
    exact .enter ⟨limit_eq, rfl, [], rfl, hkept link hlink⟩
  · next hlink =>
    obtain rfl := Option.some.inj goes
    exact .enter ⟨limit_eq, hlink⟩

theorem Keeps.progress_dialling (tracked : Tracked limit history w)
    (phase : w.phase = .exchanging place frame (.dialling untried))
    (goes : w.progress place frame (.dialling untried) = some turn) :
    Keeps limit history w turn := by
  cases untried with
  | nil =>
    obtain rfl := Option.some.inj goes
    exact .abandon tracked phase rfl rfl (by decide)
  | cons => cases goes

theorem Keeps.progress_sending (tracked : Tracked limit history w)
    (phase : w.phase = .exchanging place frame (.sending link unsent))
    (goes : w.progress place frame (.sending link unsent) = some turn) :
    Keeps limit history w turn := by
  obtain ⟨limit_eq, hnone, sent, hsent, linked⟩ := by simpa only [Tracked, phase] using tracked
  cases unsent with
  | nil =>
    obtain rfl := Option.some.inj goes
    rw [List.append_nil] at hsent
    exact .enter ⟨limit_eq, hnone, by simp, hsent ▸ linked⟩
  | cons => cases goes

theorem Keeps.progress_lead (tracked : Tracked limit history w)
    (phase : w.phase = .exchanging place frame (.lead link got))
    (goes : w.progress place frame (.lead link got) = some turn) :
    Keeps limit history w turn := by
  obtain ⟨limit_eq, hnone, hgot, linked⟩ := by simpa only [Tracked, phase] using tracked
  simp only [Worker.progress] at goes
  split at goes
  · next hwhole =>
    split at goes
    · obtain rfl := Option.some.inj goes
      exact .abandon tracked phase rfl rfl (by decide)
    · next missing hlead =>
      obtain rfl := Option.some.inj goes
      have htake : got.take Frame.leadSize = got := List.take_of_length_le hgot
      refine .enter ⟨limit_eq, hnone, ⟨missing, ?_, ?_, ?_⟩, linked⟩
      · simpa [Worker.enter, htake, limit_eq] using hlead
      · exact Nat.le_of_eq hwhole.symm
      · exact congrArg (· + missing) hwhole
  · next hshort =>
    split at goes
    · split at goes
      · obtain rfl := Option.some.inj goes
        exact .abandon tracked phase rfl rfl (by decide)
      · cases goes
    · obtain rfl := Option.some.inj goes
      refine .enter ⟨limit_eq, hnone, ?_, linked.read _⟩
      -- no more is asked for than is missing
      have htaken : (link.inbox.take (Frame.leadSize - got.length)).length ≤
          Frame.leadSize - got.length := List.length_take_le _ _
      rw [List.length_append]
      exact Nat.le_trans (Nat.add_le_add_left htaken _) (by omega)

theorem Keeps.progress_body (tracked : Tracked limit history w)
    (phase : w.phase = .exchanging place frame (.body link missing))
    (goes : w.progress place frame (.body link missing) = some turn) :
    Keeps limit history w turn := by
  obtain ⟨limit_eq, hnone, ⟨body, hlead, hlong, hlength⟩, linked⟩ := by
    simpa only [Tracked, phase] using tracked
  simp only [Worker.progress] at goes
  split at goes
  · next hwhole =>
    subst hwhole
    obtain rfl := Option.some.inj goes
    exact .conclude phase limit_eq linked hlead hlength
  · split at goes
    · split at goes
      · obtain rfl := Option.some.inj goes
        exact .abandon tracked phase rfl rfl (by decide)
      · cases goes
    · obtain rfl := Option.some.inj goes
      have htaken : (link.inbox.take missing).length ≤ missing := List.length_take_le _ _
      refine .enter ⟨limit_eq, hnone, ⟨body, ?_, ?_, ?_⟩, linked.read _⟩
      · simpa [Worker.enter, List.take_append_of_le_length hlong] using hlead
      · exact Nat.le_trans hlong (by simp [Worker.enter])
      · simp only [Worker.enter, Connection.read, List.length_append]
        omega

theorem Keeps.progress (tracked : Tracked limit history w)
    (phase : w.phase = .exchanging place frame stage)
    (goes : w.progress place frame stage = some turn) : Keeps limit history w turn := by
  cases stage with
  | starting => exact .progress_starting tracked phase goes
  | dialling => exact .progress_dialling tracked phase goes
  | sending => exact .progress_sending tracked phase goes
  | lead => exact .progress_lead tracked phase goes
  | body => exact .progress_body tracked phase goes

theorem Keeps.stay {w' : Worker} (same : w'.phase = w.phase)
    (tracked : Tracked limit history w') : Keeps limit history w (w', []) :=
  .quiet (exchange?_of_same same) rfl tracked

theorem Keeps.receive (tracked : Tracked limit history w) (phase : w.phase = .idle)
    (goes : w.receive = some w') : Keeps limit history w (w', []) := by
  obtain ⟨limit_eq, hkept⟩ := by simpa only [Tracked, phase] using tracked
  simp only [Worker.receive] at goes
  split at goes
  · obtain rfl := Option.some.inj goes
    exact .quiet (exchange?_of_going (by simp)) rfl ⟨limit_eq, hkept⟩
  · split at goes
    · cases goes
    · obtain rfl := Option.some.inj goes
      exact .quiet (exchange?_of_going (by simp)) rfl ⟨limit_eq, by simp⟩

theorem frame?_error {p : Packet} (h : w.frame? p = .error outcome) : outcome ≠ .ok := by
  rcases Worker.frame?_error_cases h with rfl | rfl
  · decide
  · decide

theorem Keeps.inspect (tracked : Tracked limit history w) (phase : w.phase = .holding place)
    (h : Hold) : Keeps limit history w (w.inspect h place) := by
  obtain ⟨limit_eq, hkept⟩ := by simpa only [Tracked, phase] using tracked
  have resting (turn : Turn) : w.exchange? turn = none :=
    exchange?_of_resting fun _ _ _ hphase => by cases phase.symm.trans hphase
  unfold Worker.inspect
  split
  · exact .settle (resting _) limit_eq hkept (by decide)
  · split
    · exact .quiet (resting _) rfl ⟨limit_eq, hkept⟩
    · split
      · next hrefused => exact .settle (resting _) limit_eq hkept (frame?_error hrefused)
      · exact .enter ⟨limit_eq, hkept⟩

-- ---------------------------------------------------------------------------
-- What the worker is told
-- ---------------------------------------------------------------------------

theorem Keeps.mapLink (tracked : Tracked limit history w) {f : Connection → Connection}
    (keeps : ∀ {link written consumed}, Linked limit history link written consumed →
      Linked limit history (f link) written consumed) :
    Keeps limit history w (w.mapLink f, []) := by
  unfold Worker.mapLink
  split
  · next phase =>
    obtain ⟨limit_eq, hnone, sent, hsent, linked⟩ := by simpa only [Tracked, phase] using tracked
    exact .enter ⟨limit_eq, hnone, sent, hsent, keeps linked⟩
  · next phase =>
    obtain ⟨limit_eq, hnone, hgot, linked⟩ := by simpa only [Tracked, phase] using tracked
    exact .enter ⟨limit_eq, hnone, hgot, keeps linked⟩
  · next phase =>
    obtain ⟨limit_eq, hnone, hlead, linked⟩ := by simpa only [Tracked, phase] using tracked
    exact .enter ⟨limit_eq, hnone, hlead, keeps linked⟩
  · next hsending hlead hbody =>
    have hmap (h : ∀ link ∈ w.connection, Linked limit history link [] []) :
        ∀ link ∈ w.connection.map f, Linked limit history link [] [] := by
      intro link hlink
      obtain ⟨old, hold, rfl⟩ := Option.map_eq_some_iff.mp hlink
      exact keeps (h old hold)
    refine .stay rfl ?_
    cases phase : w.phase with
    | exchanging place frame stage =>
      simp only [Tracked, phase] at tracked ⊢
      cases stage with
      | starting => exact ⟨tracked.1, hmap tracked.2⟩
      | dialling => exact ⟨tracked.1, by simp [tracked.2]⟩
      | sending => exact absurd phase (hsending _ _ _ _)
      | lead => exact absurd phase (hlead _ _ _ _)
      | body => exact absurd phase (hbody _ _ _ _)
    | _ =>
      simp only [Tracked, phase] at tracked ⊢
      exact ⟨tracked.1, hmap tracked.2⟩

theorem Keeps.hear (tracked : Tracked limit history w) (event : Event)
    (fresh : ∀ channel, event = .accepted channel → ∀ x ∈ history, x.link.channel ≠ channel) :
    Keeps limit history w (w.hear event) := by
  unfold Worker.hear
  split
  · exact .mapLink tracked (·.receive _)
  · exact .mapLink tracked (·.finish)
  · split
    · next endpoint _ _ phase _ _ =>
      obtain ⟨limit_eq, hnone⟩ := by simpa only [Tracked, phase] using tracked
      exact .enter ⟨limit_eq, hnone, [], rfl, .accepted (fresh _ rfl) endpoint⟩
    · next phase _ _ =>
      obtain ⟨limit_eq, hnone⟩ := by simpa only [Tracked, phase] using tracked
      exact .enter ⟨limit_eq, hnone⟩
    · next unsent count phase _ _ =>
      obtain ⟨limit_eq, hnone, sent, hsent, linked⟩ := by
        simpa only [Tracked, phase] using tracked
      refine .enter ⟨limit_eq, hnone, sent ++ unsent.take count, ?_, linked.write _⟩
      rw [List.append_assoc, List.take_append_drop, hsent]
    iterate 7 next phase _ _ => exact .abandon tracked phase rfl rfl (by decide)
    · exact .stay rfl tracked

/-- What an exchange owes to those before it, and how the connection stands, are kept by every
move. -/
theorem Keeps.after {move : Move} (tracked : Tracked limit history w)
    (fresh : ∀ channel, move = .hear (.accepted channel) →
      ∀ x ∈ history, x.link.channel ≠ channel)
    (goes : w.after move = some turn) : Keeps limit history w turn := by
  cases Worker.moveStep_of_after goes with
  | receive phase received => exact .receive tracked phase received
  | @inspect h _ phase => exact .inspect tracked phase h
  | progress phase progressed => exact .progress tracked phase progressed
  | cut phase => exact .abandon tracked phase rfl rfl (by decide)
  | @hear event => exact .hear tracked event fun channel h => fresh channel (congrArg _ h)
  | push | request | notify | hangUp => exact .stay rfl tracked

end Courier.Forward
