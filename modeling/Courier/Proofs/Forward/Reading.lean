import Courier.Proofs.Forward.Attribution
import Courier.Proofs.Frame.Acceptance

/-!
# Replies read as they come

In an exchange the length of the reply is read first, then as many bytes as it announces, and
only then the decoder of whole frames looks at what is in the buffer. The two agree: however the
bytes of the peer come in, the packet ends as decoding all of them at once says (`Answers`), and
a reply that was read to its end is never refused afterwards.
-/

namespace Courier

namespace Frame.Reply

variable {bytes : Bytes} {limit : UInt32} {e : DecodeError}

theorem decode_of_split (h : split bytes headerSize limit = .error e) :
    decode bytes limit = .error e :=
  (Kind.decode_eq_error_iff : (Kind.reply.decoder limit).decode bytes = .error e ↔ _).mpr h

/-- Lead bytes that are not in order decide the whole. -/
theorem decode_of_lead {lead : Bytes} (bad : bodyLength lead headerSize limit = .error e)
    (whole : lead.length = leadSize) (more : Bytes) : decode (lead ++ more) limit = .error e := by
  have final : e ≠ .needMore := fun h => bodyLength_ne_needMore (h ▸ bad)
  apply decode_of_split
  rw [split_eq_error_iff final, List.length_append, List.take_left' whole]
  exact ⟨by omega, bad⟩

/-- Bytes that end before what their lead announces are not enough. -/
theorem decode_of_missing {body : Nat}
    (lead : bodyLength (bytes.take leadSize) headerSize limit = .ok body)
    (short : bytes.length < leadSize + body) : decode bytes limit = .error .needMore :=
  decode_of_split (split_eq_needMore_iff.mpr (.inr ⟨body, lead, short⟩))

theorem decode_of_short (short : bytes.length < leadSize) :
    decode bytes limit = .error .needMore :=
  decode_of_split (split_of_short short)

end Frame.Reply

namespace Forward

open Courier.Frame (Reply leadSize bodyLength)

-- ---------------------------------------------------------------------------
-- What the peer does in an exchange
-- ---------------------------------------------------------------------------

/-- A worker in an exchange, with what its peer is yet to send. -/
structure Reading where
  worker : Worker
  coming : Bytes
  done : List Settlement := []

def Stage.isReading : Stage → Bool
  | lead .. | body .. => true
  | _ => false

def Move.isPush : Move → Bool
  | push _ => true
  | _ => false

namespace Reading

def start (w : Worker) (place : Place) (frame : Bytes) (link : Connection) (coming : Bytes) :
    Reading where
  worker := { w with connection := none }.enter place frame (.sending link frame)
  coming

/-- What can happen in an exchange of which the request gets written and which nobody stops, and
what the peer is yet to send then. The peer ends the stream behind its last byte if at all; the
connection or the time is lost on a worker that has read all there is and waits for more. -/
inductive Allows (t : Reading) (place : Place) (frame : Bytes) : Stage → Move → Bytes → Prop
  | progress {stage} : Allows t place frame stage .progress t.coming
  | push {stage place'} : Allows t place frame stage (.push place') t.coming
  | took {link unsent count} (some : unsent ≠ []) (pos : 0 < count) :
      Allows t place frame (.sending link unsent) (.hear (.took count)) t.coming
  | arrived {stage bytes rest} (some : bytes ≠ []) (coming : t.coming = bytes ++ rest) :
      Allows t place frame stage (.hear (.arrived bytes)) rest
  | ended {stage link} (on : stage.link? = some link) (unended : link.ended = false)
      (coming : t.coming = []) : Allows t place frame stage (.hear .ended) []
  | lost {stage event} (reading : stage.isReading = true)
      (waits : t.worker.progress place frame stage = none) (coming : t.coming = [])
      (event_eq : event = .broken ∨ event = .expired) :
      Allows t place frame stage (.hear event) []

inductive Step (t : Reading) : Move → Reading → Prop
  | mk {place frame stage move coming turn} (phase : t.worker.phase = .exchanging place frame stage)
      (allowed : t.Allows place frame stage move coming) (goes : t.worker.after move = some turn) :
      Step t move { worker := turn.1, coming, done := t.done ++ turn.2 }

inductive Run (t : Reading) : List Move → Reading → Prop
  | nil : Run t [] t
  | snoc {moves u move v} (run : Run t moves u) (step : u.Step move v) : Run t (moves ++ [move]) v

variable {t u v : Reading} {w : Worker} {limit : UInt32} {stream before got coming : Bytes}
  {place : Place} {link : Connection} {move : Move} {moves : List Move}

/-- How the packet ends, and what is left, as decoding the whole stream says. Of the bytes that
were read from the connection before this exchange nothing is used. -/
structure Answers (limit : UInt32) (stream before : Bytes) (place : Place)
    (t : Reading) : Prop where
  replied {reply : Reply} {used : Nat} (decoded : Reply.decode stream limit = .ok (reply, used)) :
    t.done = [⟨place, .complete ((Outcome.ofCode? reply.status).getD .engineFailure)
      reply.payload⟩] ∧
    t.worker.buffer = stream.take used ∧
    Reply.decode t.worker.buffer limit = .ok (reply, t.worker.buffer.length) ∧
    ∃ link, t.worker.connection = some link ∧ link.consumed = before ++ stream.take used ∧
      link.inbox ++ t.coming = stream.drop used
  failed {e : Frame.DecodeError} (refused : Reply.decode stream limit = .error e) :
    t.done = [⟨place, .complete .engineFailure []⟩] ∧ t.worker.connection = none

-- ---------------------------------------------------------------------------
-- How the exchange stands
-- ---------------------------------------------------------------------------

/-- The bytes of the peer, as far as they were read, have arrived, and are yet to come. -/
structure Taken (stream before : Bytes) (link : Connection) (got coming : Bytes) : Prop where
  stream : got ++ (link.inbox ++ coming) = stream
  consumed : link.consumed = before ++ got
  last : link.ended = true → coming = []

def Announced (limit : UInt32) (buffer : Bytes) (missing : Nat) : Prop :=
  ∃ body, bodyLength (buffer.take leadSize) Reply.headerSize limit = .ok body ∧
    leadSize ≤ buffer.length ∧ buffer.length + missing = leadSize + body

/-- Nothing is decided yet. -/
structure Undecided (limit : UInt32) (t : Reading) : Prop where
  quiet : t.done = []
  unkept : t.worker.connection = none
  limit_eq : t.worker.limit = limit

/-- What of the stream has gone into the exchange, in each of its stages. -/
inductive StageInvariant (limit : UInt32) (stream before : Bytes) (place : Place) (t : Reading) :
    Prop
  | sending {frame link unsent} (phase : t.worker.phase = .exchanging place frame
        (.sending link unsent)) (undecided : t.Undecided limit)
      (taken : Taken stream before link [] t.coming)
  | lead {frame link got} (phase : t.worker.phase = .exchanging place frame (.lead link got))
      (undecided : t.Undecided limit) (taken : Taken stream before link got t.coming)
      (short : got.length ≤ leadSize)
  | body {frame link missing} (phase : t.worker.phase = .exchanging place frame
        (.body link missing)) (undecided : t.Undecided limit)
      (taken : Taken stream before link t.worker.buffer t.coming)
      (announced : Announced limit t.worker.buffer missing)
  | settled (phase : t.worker.phase = .idle) (answers : t.Answers limit stream before place)

def load (t : Reading) (link : Connection) : Nat :=
  link.inbox.length + 2 * t.coming.length + (!link.ended).toNat

/-- A bound on the steps that can still be taken. Bytes are moved twice, to the connection and off
it. -/
def left (t : Reading) : Nat :=
  match t.worker.phase with
  | .exchanging _ _ (.sending link unsent) => 3 + unsent.length + t.load link
  | .exchanging _ _ (.lead link _) => 2 + t.load link
  | .exchanging _ _ (.body link _) => 1 + t.load link
  | _ => 0

namespace Taken

theorem read (h : Taken stream before link got coming) (count : Nat) :
    Taken stream before (link.read count).2 (got ++ (link.read count).1) coming where
  stream := by
    have hinbox : (link.read count).1 ++ (link.read count).2.inbox = link.inbox :=
      List.take_append_drop count link.inbox
    rw [List.append_assoc, ← List.append_assoc (link.read count).1, hinbox, h.stream]
  consumed := by rw [Connection.consumed_read, h.consumed, List.append_assoc]
  last := h.last

theorem receive (h : Taken stream before link got (bytes ++ coming)) :
    Taken stream before (link.receive bytes) got coming where
  stream := by simpa [Connection.receive] using h.stream
  consumed := h.consumed
  last ended := (List.append_eq_nil_iff.mp (h.last ended)).2

theorem finish (h : Taken stream before link got []) : Taken stream before link.finish got [] :=
  ⟨h.stream, h.consumed, fun _ => rfl⟩

theorem eq_stream (h : Taken stream before link got []) (empty : link.inbox = []) :
    got = stream := by
  simpa [empty] using h.stream

theorem decode_of_lead (h : Taken stream before link got []) (empty : link.inbox = [])
    (short : got.length < leadSize) : Reply.decode stream limit = .error .needMore :=
  Reply.decode_of_short (h.eq_stream empty ▸ short)

theorem decode_of_body (h : Taken stream before link got []) (empty : link.inbox = [])
    (announced : Announced limit got missing) (more : missing ≠ 0) :
    Reply.decode stream limit = .error .needMore := by
  obtain ⟨body, lead, -, length⟩ := announced
  rw [← h.eq_stream empty]
  exact Reply.decode_of_missing lead (by omega)

end Taken

-- ---------------------------------------------------------------------------
-- The steps of the worker
-- ---------------------------------------------------------------------------

def next (t : Reading) (turn : Worker.Turn) (coming : Bytes) : Reading :=
  { worker := turn.1, coming, done := t.done ++ turn.2 }

theorem Undecided.go (h : t.Undecided limit) {v : Worker} (connection : v.connection = none)
    (limit_eq : v.limit = t.worker.limit) : (t.next (v, []) coming).Undecided limit where
  quiet := by rw [next, h.quiet]; rfl
  unkept := connection
  limit_eq := limit_eq.trans h.limit_eq

theorem Undecided.answers_fail (h : t.Undecided limit)
    (refused : Reply.decode stream limit = .error e) (coming : Bytes) :
    (t.next (t.worker.fail place) coming).Answers limit stream before place where
  replied decoded := by cases refused.symm.trans decoded
  failed _ := ⟨by rw [next, h.quiet]; rfl, h.unkept⟩

theorem Undecided.answers_conclude (h : t.Undecided limit)
    (taken : Taken stream before link t.worker.buffer t.coming)
    (announced : Announced limit t.worker.buffer 0) :
    (t.next (t.worker.conclude place link) t.coming).Answers limit stream before place := by
  obtain ⟨body, lead, -, length⟩ := announced
  obtain ⟨reply, fills⟩ := Reply.exists_fills lead length
  have hstream : Reply.decode stream limit = .ok (reply, t.worker.buffer.length) :=
    taken.stream ▸ Reply.decode_append fills _
  have hconclude : t.worker.conclude place link = Worker.settle
      { t.worker with connection := some link } place
      ((Outcome.ofCode? reply.status).getD .engineFailure) reply.payload := by
    simp only [Worker.conclude, h.limit_eq, show Reply.decode _ limit = _ from fills]
  constructor
  · intro reply' used decoded
    obtain ⟨rfl, rfl⟩ := Prod.mk.inj (Except.ok.inj (hstream.symm.trans decoded))
    have htake : stream.take t.worker.buffer.length = t.worker.buffer := by
      rw [← taken.stream, List.take_left]
    rw [hconclude, htake]
    refine ⟨by rw [next, h.quiet]; rfl, rfl, fills, link, rfl, taken.consumed, ?_⟩
    rw [← taken.stream, List.drop_left]
    rfl
  · intro e refused
    cases hstream.symm.trans refused

/-- The exchange goes on as it has to, and comes nearer to its end. -/
structure Follows (limit : UInt32) (stream before : Bytes) (place : Place) (t u : Reading) :
    Prop where
  stageInvariant : u.StageInvariant limit stream before place
  less : u.left < t.left

theorem Follows.fail (undecided : t.Undecided limit) (some : 0 < t.left) {e : Frame.DecodeError}
    (refused : Reply.decode stream limit = .error e) (coming : Bytes) :
    t.Follows limit stream before place (t.next (t.worker.fail place) coming) where
  stageInvariant := .settled rfl (undecided.answers_fail refused coming)
  less := some

theorem Follows.progress_sending
    (phase : t.worker.phase = .exchanging place frame (.sending link unsent))
    (undecided : t.Undecided limit) (taken : Taken stream before link [] t.coming)
    (goes : t.worker.progress place frame (.sending link unsent) = some turn) :
    t.Follows limit stream before place (t.next turn t.coming) := by
  cases unsent with
  | nil =>
    obtain rfl := Option.some.inj goes
    refine ⟨.lead rfl (undecided.go undecided.unkept rfl) taken (Nat.zero_le _), ?_⟩
    simp [left, phase, next, Worker.enter, load]
  | cons => cases goes

theorem load_read (t : Reading) (link : Connection) (count : Nat) :
    t.load (link.read count).2 + (link.read count).1.length = t.load link := by
  simp only [load, Connection.read, List.length_drop, List.length_take]
  omega

theorem length_read_pos {link : Connection} (some : link.inbox ≠ []) (pos : 0 < count) :
    0 < (link.read count).1.length := by
  have := List.length_pos_iff.mpr some
  simp only [Connection.read, List.length_take]
  omega

theorem Follows.progress_lead
    (phase : t.worker.phase = .exchanging place frame (.lead link got))
    (undecided : t.Undecided limit) (taken : Taken stream before link got t.coming)
    (short : got.length ≤ leadSize)
    (goes : t.worker.progress place frame (.lead link got) = some turn) :
    t.Follows limit stream before place (t.next turn t.coming) := by
  have hleft : t.left = 2 + t.load link := by simp only [left, phase]
  simp only [Worker.progress] at goes
  split at goes
  · next whole =>
    split at goes
    · next bad =>
      obtain rfl := Option.some.inj goes
      have refused : Reply.decode stream limit = _ :=
        taken.stream ▸ Reply.decode_of_lead (undecided.limit_eq ▸ bad) whole _
      exact .fail undecided (by omega) refused t.coming
    · next missing good =>
      obtain rfl := Option.some.inj goes
      refine ⟨.body rfl (undecided.go undecided.unkept rfl) taken ⟨missing, ?_⟩, ?_⟩
      · have htake : got.take leadSize = got := List.take_of_length_le short
        refine ⟨?_, Nat.le_of_eq whole.symm, congrArg (· + missing) whole⟩
        simpa [next, Worker.enter, htake, undecided.limit_eq] using good
      · rw [hleft]
        simp [left, next, Worker.enter, load]
  · next hshort =>
    split at goes
    · next empty =>
      split at goes
      · next ended =>
        obtain rfl := Option.some.inj goes
        have refused : Reply.decode stream limit = _ :=
          (taken.last ended ▸ taken).decode_of_lead empty (by omega)
        exact .fail undecided (by omega) refused t.coming
      · cases goes
    · next some =>
      obtain rfl := Option.some.inj goes
      refine ⟨.lead rfl (undecided.go undecided.unkept rfl) (taken.read _) ?_, ?_⟩
      · -- no more is asked for than is missing
        have htaken : (link.read (leadSize - got.length)).1.length ≤ leadSize - got.length :=
          List.length_take_le _ _
        rw [List.length_append]
        omega
      · have hread := length_read_pos some (show 0 < leadSize - got.length by omega)
        have hload := t.load_read link (leadSize - got.length)
        rw [hleft]
        change 2 + t.load (link.read (leadSize - got.length)).2 < _
        omega

theorem Follows.progress_body
    (phase : t.worker.phase = .exchanging place frame (.body link missing))
    (undecided : t.Undecided limit) (taken : Taken stream before link t.worker.buffer t.coming)
    (announced : Announced limit t.worker.buffer missing)
    (goes : t.worker.progress place frame (.body link missing) = some turn) :
    t.Follows limit stream before place (t.next turn t.coming) := by
  have hleft : t.left = 1 + t.load link := by simp only [left, phase]
  simp only [Worker.progress] at goes
  split at goes
  · next whole =>
    subst whole
    obtain rfl := Option.some.inj goes
    have hidle : (t.worker.conclude place link).1.phase = .idle := by
      simp only [Worker.conclude]
      split <;> rfl
    refine ⟨.settled hidle (undecided.answers_conclude taken announced), ?_⟩
    have hend : (t.next (t.worker.conclude place link) t.coming).left = 0 := by
      simp only [left, next, hidle]
    omega
  · next more =>
    split at goes
    · next empty =>
      split at goes
      · next ended =>
        obtain rfl := Option.some.inj goes
        have refused := (taken.last ended ▸ taken).decode_of_body empty announced more
        exact .fail undecided (by omega) refused t.coming
      · cases goes
    · next some =>
      obtain rfl := Option.some.inj goes
      refine ⟨.body rfl (undecided.go undecided.unkept rfl) (taken.read missing) ?_, ?_⟩
      · obtain ⟨body, lead, long, length⟩ := announced
        have htaken : (link.read missing).1.length ≤ missing := List.length_take_le _ _
        change Announced limit (t.worker.buffer ++ (link.read missing).1)
          (missing - (link.read missing).1.length)
        refine ⟨body, ?_, ?_, ?_⟩
        · rwa [List.take_append_of_le_length long]
        · rw [List.length_append]
          omega
        · rw [List.length_append]
          omega
      · have hread := length_read_pos some (Nat.pos_of_ne_zero more)
        have hload := t.load_read link missing
        rw [hleft]
        change 1 + t.load (link.read missing).2 < _
        omega

theorem StageInvariant.progress (h : t.StageInvariant limit stream before place)
    (phase : t.worker.phase = .exchanging place' frame stage)
    (goes : t.worker.progress place' frame stage = some turn) :
    t.Follows limit stream before place (t.next turn t.coming) := by
  cases h with
  | sending here undecided taken =>
    obtain ⟨rfl, rfl, rfl⟩ := Phase.exchanging.inj (here.symm.trans phase)
    exact .progress_sending here undecided taken goes
  | lead here undecided taken short =>
    obtain ⟨rfl, rfl, rfl⟩ := Phase.exchanging.inj (here.symm.trans phase)
    exact .progress_lead here undecided taken short goes
  | body here undecided taken announced =>
    obtain ⟨rfl, rfl, rfl⟩ := Phase.exchanging.inj (here.symm.trans phase)
    exact .progress_body here undecided taken announced goes
  | settled here => cases phase.symm.trans here

-- ---------------------------------------------------------------------------
-- What the worker is told
-- ---------------------------------------------------------------------------

theorem StageInvariant.push (h : t.StageInvariant limit stream before place)
    (phase : t.worker.phase = .exchanging place' frame stage) (further : Place) :
    (t.next (t.worker.push further, []) t.coming).StageInvariant limit stream before place ∧
      (t.next (t.worker.push further, []) t.coming).left = t.left := by
  refine ⟨?_, rfl⟩
  cases h with
  | sending here undecided taken => exact .sending here (undecided.go undecided.unkept rfl) taken
  | lead here undecided taken short =>
    exact .lead here (undecided.go undecided.unkept rfl) taken short
  | body here undecided taken announced =>
    exact .body here (undecided.go undecided.unkept rfl) taken announced
  | settled here => cases phase.symm.trans here

theorem StageInvariant.took (h : t.StageInvariant limit stream before place)
    (phase : t.worker.phase = .exchanging place' frame (.sending link unsent))
    (some : unsent ≠ []) (pos : 0 < count) :
    t.Follows limit stream before place (t.next (t.worker.hear (.took count)) t.coming) := by
  cases h with
  | @sending frame link unsent here undecided taken =>
    obtain ⟨rfl, rfl, hstage⟩ := Phase.exchanging.inj (here.symm.trans phase)
    obtain ⟨rfl, rfl⟩ := Stage.sending.inj hstage
    have hhear : t.worker.hear (.took count) = (t.worker.enter place frame
        (.sending (link.write (unsent.take count)) (unsent.drop count)), []) := by
      simp only [Worker.hear, here]
    rw [hhear]
    refine ⟨.sending rfl (undecided.go undecided.unkept rfl) ?_, ?_⟩
    · exact ⟨taken.stream, taken.consumed, taken.last⟩
    · have hsome := List.length_pos_iff.mpr some
      simp only [left, here, next, Worker.enter, List.length_drop, load, Connection.write]
      omega
  | lead here => cases phase.symm.trans here
  | body here => cases phase.symm.trans here
  | settled here => cases phase.symm.trans here

/-- Something about the connection changes, but not what there is of the stream. -/
theorem StageInvariant.mapLink (h : t.StageInvariant limit stream before place)
    (phase : t.worker.phase = .exchanging place' frame stage) {f : Connection → Connection}
    (keeps : ∀ {link got}, stage.link? = some link → Taken stream before link got t.coming →
      Taken stream before (f link) got coming)
    (less : ∀ {link}, stage.link? = some link →
      (t.next (t.worker, []) coming).load (f link) < t.load link) :
    t.Follows limit stream before place (t.next (t.worker.mapLink f, []) coming) := by
  cases h with
  | @sending frame link unsent here undecided taken =>
    obtain ⟨rfl, rfl, rfl⟩ := Phase.exchanging.inj (here.symm.trans phase)
    have hmap : t.worker.mapLink f =
        t.worker.enter place frame (.sending (f link) unsent) := by
      simp only [Worker.mapLink, here]
    rw [hmap]
    refine ⟨.sending rfl (undecided.go undecided.unkept rfl) (keeps rfl taken), ?_⟩
    have := less rfl
    simp only [left, here]
    exact Nat.add_lt_add_left this _
  | @lead frame link got here undecided taken short =>
    obtain ⟨rfl, rfl, rfl⟩ := Phase.exchanging.inj (here.symm.trans phase)
    have hmap : t.worker.mapLink f = t.worker.enter place frame (.lead (f link) got) := by
      simp only [Worker.mapLink, here]
    rw [hmap]
    refine ⟨.lead rfl (undecided.go undecided.unkept rfl) (keeps rfl taken) short, ?_⟩
    have := less rfl
    simp only [left, here]
    exact Nat.add_lt_add_left this _
  | @body frame link missing here undecided taken announced =>
    obtain ⟨rfl, rfl, rfl⟩ := Phase.exchanging.inj (here.symm.trans phase)
    have hmap : t.worker.mapLink f = t.worker.enter place frame (.body (f link) missing) := by
      simp only [Worker.mapLink, here]
    rw [hmap]
    refine ⟨.body rfl (undecided.go undecided.unkept rfl) (keeps rfl taken) announced, ?_⟩
    have := less rfl
    simp only [left, here]
    exact Nat.add_lt_add_left this _
  | settled here => cases phase.symm.trans here

theorem StageInvariant.arrived (h : t.StageInvariant limit stream before place)
    (phase : t.worker.phase = .exchanging place' frame stage) (some : bytes ≠ [])
    (coming_eq : t.coming = bytes ++ coming) :
    t.Follows limit stream before place (t.next (t.worker.hear (.arrived bytes)) coming) := by
  apply h.mapLink phase
  · intro link got _ taken
    exact (coming_eq ▸ taken).receive
  · intro link _
    have := List.length_pos_iff.mpr some
    simp only [load, next, coming_eq, Connection.receive, List.length_append]
    omega

theorem StageInvariant.ended (h : t.StageInvariant limit stream before place)
    (phase : t.worker.phase = .exchanging place' frame stage) (on : stage.link? = some link)
    (unended : link.ended = false) (coming_eq : t.coming = []) :
    t.Follows limit stream before place (t.next (t.worker.hear .ended) []) := by
  apply h.mapLink phase
  · intro _ got _ taken
    exact (coming_eq ▸ taken).finish
  · intro other hother
    obtain rfl := Option.some.inj (on.symm.trans hother)
    simp [load, next, coming_eq, Connection.finish, unended]

theorem empty_of_lead_waits (waits : w.progress place frame (.lead link got) = none) :
    got.length ≠ leadSize ∧ link.inbox = [] := by
  simp only [Worker.progress] at waits
  split at waits
  · split at waits <;> cases waits
  · next hshort =>
    split at waits
    · next empty => exact ⟨hshort, empty⟩
    · cases waits

theorem empty_of_body_waits (waits : w.progress place frame (.body link missing) = none) :
    missing ≠ 0 ∧ link.inbox = [] := by
  simp only [Worker.progress] at waits
  split at waits
  · cases waits
  · next more =>
    split at waits
    · next empty => exact ⟨more, empty⟩
    · cases waits

theorem StageInvariant.lost (h : t.StageInvariant limit stream before place)
    (phase : t.worker.phase = .exchanging place' frame stage) (reading : stage.isReading = true)
    (waits : t.worker.progress place' frame stage = none) (coming_eq : t.coming = [])
    (event_eq : event = .broken ∨ event = .expired) :
    t.Follows limit stream before place (t.next (t.worker.hear event) []) := by
  cases h with
  | sending here =>
    obtain ⟨-, -, rfl⟩ := Phase.exchanging.inj (here.symm.trans phase)
    cases reading
  | @lead _ link got here undecided taken short =>
    obtain ⟨rfl, rfl, rfl⟩ := Phase.exchanging.inj (here.symm.trans phase)
    obtain ⟨hshort, empty⟩ := empty_of_lead_waits waits
    have refused : Reply.decode stream limit = _ :=
      (coming_eq ▸ taken).decode_of_lead empty (by omega)
    have hhear : t.worker.hear event = t.worker.fail place := by
      rcases event_eq with rfl | rfl <;> simp only [Worker.hear, here]
    rw [hhear]
    exact .fail undecided (by simp only [left, here]; omega) refused []
  | @body _ link missing here undecided taken announced =>
    obtain ⟨rfl, rfl, rfl⟩ := Phase.exchanging.inj (here.symm.trans phase)
    obtain ⟨more, empty⟩ := empty_of_body_waits waits
    have refused := (coming_eq ▸ taken).decode_of_body empty announced more
    have hhear : t.worker.hear event = t.worker.fail place := by
      rcases event_eq with rfl | rfl <;> simp only [Worker.hear, here]
    rw [hhear]
    exact .fail undecided (by simp only [left, here]; omega) refused []
  | settled here => cases phase.symm.trans here

-- ---------------------------------------------------------------------------
-- The whole exchange
-- ---------------------------------------------------------------------------

theorem stageInvariant_start (last : link.ended = true → coming = []) :
    (start w place frame link coming).StageInvariant w.limit (link.inbox ++ coming) link.consumed
      place :=
  .sending rfl ⟨rfl, rfl, rfl⟩ ⟨rfl, by rw [List.append_nil], last⟩

theorem StageInvariant.step (h : t.StageInvariant limit stream before place)
    (step : t.Step move u) :
    u.StageInvariant limit stream before place ∧
      (u.left < t.left ∨ move.isPush = true ∧ u.left = t.left) := by
  have follows (h : t.Follows limit stream before place u) :
      u.StageInvariant limit stream before place ∧
        (u.left < t.left ∨ move.isPush = true ∧ u.left = t.left) := ⟨h.stageInvariant, .inl h.less⟩
  cases step with
  | mk phase allowed goes =>
    cases allowed with
    | progress =>
      simp only [Worker.after, phase] at goes
      exact follows (h.progress phase goes)
    | @push _ further =>
      obtain rfl := Option.some.inj goes
      obtain ⟨stageInvariant, same⟩ := h.push phase further
      exact ⟨stageInvariant, .inr ⟨rfl, same⟩⟩
    | took some pos =>
      obtain rfl := Option.some.inj goes
      exact follows (h.took phase some pos)
    | arrived some coming_eq =>
      obtain rfl := Option.some.inj goes
      exact follows (h.arrived phase some coming_eq)
    | ended on unended coming_eq =>
      obtain rfl := Option.some.inj goes
      exact follows (h.ended phase on unended coming_eq)
    | lost reading waits coming_eq event_eq =>
      obtain rfl := Option.some.inj goes
      exact follows (h.lost phase reading waits coming_eq event_eq)

theorem Run.stageInvariant (run : t.Run moves u) (h : t.StageInvariant limit stream before place) :
    u.StageInvariant limit stream before place ∧ u.left + moves.countP (!·.isPush) ≤ t.left := by
  induction run with
  | nil => exact ⟨h, Nat.le_refl _⟩
  | snoc run step ih =>
    obtain ⟨stageInvariant, less⟩ := ih
    obtain ⟨stageInvariant, fewer⟩ := stageInvariant.step step
    refine ⟨stageInvariant, ?_⟩
    rw [List.countP_append, List.countP_singleton]
    rcases fewer with fewer | ⟨push, same⟩
    · split <;> omega
    · simp only [push, Bool.not_true, Bool.false_eq_true, if_false]
      omega

theorem Run.cons (step : t.Step move u) (run : u.Run moves v) : t.Run (move :: moves) v := by
  induction run with
  | nil => exact .snoc .nil step
  | snoc _ next ih => exact .snoc ih next

/-- The peer or the worker can always go on until the packet has ended. A peer that has nothing to
add lets the time run out. -/
theorem StageInvariant.exists_step (h : t.StageInvariant limit stream before place)
    (busy : t.worker.phase ≠ .idle) : ∃ move u, t.Step move u ∧ move.isPush = false := by
  have reading {frame stage} (phase : t.worker.phase = .exchanging place frame stage)
      (reads : stage.isReading = true) : ∃ move u, t.Step move u ∧ move.isPush = false := by
    cases goes : t.worker.progress place frame stage with
    | some turn =>
      exact ⟨.progress, _, .mk phase .progress (by simpa only [Worker.after, phase]), rfl⟩
    | none =>
      by_cases hcoming : t.coming = []
      · exact ⟨.hear .expired, _, .mk phase (.lost reads goes hcoming (.inr rfl)) rfl, rfl⟩
      · have all := (List.append_nil t.coming).symm
        exact ⟨.hear (.arrived t.coming), _, .mk phase (.arrived hcoming all) rfl, rfl⟩
  cases h with
  | @sending frame link unsent phase =>
    cases unsent with
    | nil =>
      exact ⟨.progress, _, .mk phase .progress (by simp only [Worker.after, phase]; rfl), rfl⟩
    | cons byte more =>
      refine ⟨.hear (.took 1), _, .mk phase (.took (List.cons_ne_nil byte more) ?_) rfl, rfl⟩
      exact Nat.one_pos
  | lead phase => exact reading phase rfl
  | body phase => exact reading phase rfl
  | settled phase => exact absurd phase busy

theorem StageInvariant.finishes (h : t.StageInvariant limit stream before place) :
    ∃ moves u, t.Run moves u ∧ u.worker.phase = .idle := by
  induction hleft : t.left using Nat.strongRecOn generalizing t with
  | ind n ih =>
    by_cases idle : t.worker.phase = .idle
    · exact ⟨[], t, .nil, idle⟩
    · obtain ⟨move, u, step, nopush⟩ := h.exists_step idle
      obtain ⟨stageInvariant, fewer⟩ := h.step step
      have fewer : u.left < t.left := by
        apply fewer.resolve_right
        rintro ⟨push, -⟩
        cases nopush.symm.trans push
      obtain ⟨moves, v, run, idle⟩ := ih u.left (hleft ▸ fewer) stageInvariant rfl
      exact ⟨move :: moves, v, .cons step run, idle⟩

/-- Whatever the limit, the buffer held before, and the pieces in which the bytes come: the exchange
comes to its end after boundedly many steps and ends as decoding everything that the peer makes
available says. What has been read to its end is one whole frame, which is not refused any more. -/
theorem Run.agrees (run : (start w place frame link coming).Run moves t)
    (last : link.ended = true → coming = []) :
    (t.worker.phase = .idle →
      t.Answers w.limit (link.inbox ++ coming) link.consumed place) ∧
    (t.worker.phase ≠ .idle →
      t.done = [] ∧ ∃ more u, t.Run more u ∧ u.worker.phase = .idle) ∧
    moves.countP (!·.isPush) ≤ 4 + frame.length + link.inbox.length + 2 * coming.length ∧
    ∀ place frame link, t.worker.phase = .exchanging place frame (.body link 0) →
      ∃ reply, Reply.decode t.worker.buffer t.worker.limit =
        .ok (reply, t.worker.buffer.length) := by
  obtain ⟨stageInvariant, less⟩ := run.stageInvariant (stageInvariant_start last)
  refine ⟨?_, ?_, ?_, ?_⟩
  · intro idle
    cases stageInvariant with
    | settled _ answers => exact answers
    | sending phase | lead phase | body phase => cases idle.symm.trans phase
  · intro busy
    refine ⟨?_, stageInvariant.finishes⟩
    cases stageInvariant with
    | sending _ undecided | lead _ undecided | body _ undecided => exact undecided.quiet
    | settled phase => exact absurd phase busy
  · have hended : (!link.ended).toNat ≤ 1 := Bool.toNat_le _
    simp only [left, start, Worker.enter, load] at less
    omega
  · intro place' frame' link' phase
    cases stageInvariant with
    | body here undecided taken announced =>
      obtain ⟨-, -, hstage⟩ := Phase.exchanging.inj (here.symm.trans phase)
      obtain ⟨-, rfl⟩ := Stage.body.inj hstage
      obtain ⟨body, lead, -, length⟩ := announced
      rw [undecided.limit_eq]
      exact Reply.exists_fills lead length
    | sending here | lead here | settled here => cases here.symm.trans phase

/-- The buffer holds a longer reply of before, and two bytes are on the connection already. -/
def stale : Worker :=
  { Worker.start {} .zero [] with limit := 1, buffer := [3, 0, 0, 0, 4, 8, 8] }

def early : Connection := { endpoint := .v4 .loopback 3000, channel := 0, inbox := [2, 0] }

/-- The reply comes in three pieces, the last of which brings a byte too many. -/
def pieces : List Move :=
  [.hear (.took 1), .progress, .progress, .hear (.arrived [0, 0, 0]), .push 1, .progress, .progress,
    .progress, .hear (.arrived [7, 5]), .progress, .progress]

def replied : Reading where
  worker :=
    { stale with
      queue := [1]
      connection := some
        { early with sent := [[1]], taken := [[2, 0], [0, 0], [0], [7]], inbox := [5] }
      buffer := [2, 0, 0, 0, 0, 7] }
  coming := []
  done := [⟨0, .complete .ok [7]⟩]

theorem Run.agrees_pieces : (start stale 0 [1] early [0, 0, 0, 7, 5]).Run pieces replied ∧
    (early.ended = true → ([0, 0, 0, 7, 5] : Bytes) = []) ∧
    replied.Answers 1 [2, 0, 0, 0, 0, 7, 5] [] 0 := by
  have last : early.ended = true → ([0, 0, 0, 7, 5] : Bytes) = [] := by decide
  have run : (start stale 0 [1] early [0, 0, 0, 7, 5]).Run pieces replied := by
    refine .cons (.mk rfl (.took (by decide) (by decide)) rfl) ?_
    refine .cons (.mk rfl .progress rfl) ?_
    refine .cons (.mk rfl .progress rfl) ?_
    refine .cons (.mk rfl (.arrived (by decide) (show _ = [0, 0, 0] ++ [7, 5] from rfl)) rfl) ?_
    refine .cons (.mk rfl .push rfl) ?_
    refine .cons (.mk rfl .progress rfl) ?_
    refine .cons (.mk rfl .progress rfl) ?_
    refine .cons (.mk rfl .progress rfl) ?_
    refine .cons (.mk rfl (.arrived (by decide) (show _ = [7, 5] ++ [] from rfl)) rfl) ?_
    refine .cons (.mk rfl .progress rfl) ?_
    exact .cons (.mk rfl .progress rfl) .nil
  exact ⟨run, last, (run.agrees last).1 rfl⟩

end Reading

-- ---------------------------------------------------------------------------
-- The worker from its start on
-- ---------------------------------------------------------------------------

/-- In no run at all is a reply refused that was read to its end. -/
theorem Worker.Run.fills {config : Config} {cluster : Cluster}
    {endpoints : List Address.Endpoint} {moves : List Move} {history : List Exchange}
    {done : List Settlement} {w : Worker} (run : Run (start config cluster endpoints) moves
      history done w) (phase : w.phase = .exchanging place frame (.body link 0)) :
    ∃ reply, Reply.Fills w.limit w.buffer reply := by
  have tracked := run.tracked
  simp only [Tracked, phase] at tracked
  obtain ⟨limit_eq, -, ⟨body, lead, -, length⟩, -⟩ := tracked
  exact limit_eq ▸ Reply.exists_fills lead length

end Forward

end Courier
