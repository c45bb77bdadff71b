import Courier.Proofs.Forward.Attribution
import Courier.Proofs.Forward.Endings

/-!
# The worker on the wire

Of all that the worker does a peer sees only what is written to its connection. A request is on
its way on one connection at most (`Wire`), and a step leaves the wire as it is, begins with a
request, writes some bytes of it, keeps the connection behind a whole request, or gives the
connection up (`wires_of_after`).
-/

namespace Courier.Forward

structure Line where
  channel : Nat
  sent : List Bytes
deriving DecidableEq, Repr

def Connection.line (c : Connection) : Line := ⟨c.channel, c.sent⟩

def Line.write (line : Line) (bytes : Bytes) : Line := { line with sent := line.sent ++ [bytes] }

inductive Wire where
  /-- No request is on its way. A connection may have been kept for the next one. -/
  | free (kept : Option Line)
  | busy (place : Place) (frame : Bytes) (line : Line) (unsent : Bytes)
deriving DecidableEq, Repr

structure Write where
  channel : Nat
  place : Place
  bytes : Bytes
deriving DecidableEq, Repr

namespace Worker

def wire (w : Worker) : Wire :=
  match w.phase with
  | .exchanging place frame (.sending link unsent) => .busy place frame link.line unsent
  | .exchanging place frame (.lead link _) => .busy place frame link.line []
  | .exchanging place frame (.body link _) => .busy place frame link.line []
  | _ => .free (w.connection.map (·.line))

def write? (w : Worker) : WorkerOp → Option Write
  | .hear (.took count) =>
    match w.phase with
    | .exchanging place _ (.sending link unsent) =>
      some ⟨link.channel, place, unsent.take count⟩
    | _ => none
  | _ => none

/-- Once an exchange has a connection, or dials one, no other is kept. -/
def Sole (w : Worker) : Prop :=
  ∀ place frame stage, w.phase = .exchanging place frame stage → stage ≠ .starting →
    w.connection = none

/-- What a step does to the wire. -/
inductive Wires (w : Worker) (op : WorkerOp) (v : Worker) : Prop
  | same (silent : w.write? op = none) (wire : v.wire = w.wire)
  | began {place frame kept line} (silent : w.write? op = none) (before : w.wire = .free kept)
      (source : kept = some line ∨
        ∃ channel, op = .hear (.accepted channel) ∧ line = ⟨channel, []⟩)
      (wire : v.wire = .busy place frame line frame)
  | wrote {place frame line unsent} (count : Nat) (before : w.wire = .busy place frame line unsent)
      (writes : w.write? op = some ⟨line.channel, place, unsent.take count⟩)
      (wire : v.wire = .busy place frame (line.write (unsent.take count)) (unsent.drop count))
  | kept {place frame line} (silent : w.write? op = none)
      (before : w.wire = .busy place frame line []) (wire : v.wire = .free (some line))
      (finished : v.phase = .idle)
  | lost (silent : w.write? op = none) (wire : v.wire = .free none)
      (finished : v.phase = .idle ∨ v.phase = .stopped)

variable {w v : Worker} {op : WorkerOp} {turn : Turn} {place : Place} {frame : Bytes}
  {stage : Stage}

theorem phase_of_write? {x : Write} (h : w.write? op = some x) :
    ∃ frame link unsent count, w.phase = .exchanging x.place frame (.sending link unsent) ∧
      op = .hear (.took count) ∧ x = ⟨link.channel, x.place, unsent.take count⟩ := by
  unfold write? at h
  split at h
  · split at h
    · next phase =>
      obtain rfl := Option.some.inj h
      exact ⟨_, _, _, _, phase, rfl, rfl⟩
    · cases h
  · cases h

theorem sole_of_not_exchanging (h : ∀ place frame stage, v.phase ≠ .exchanging place frame stage) :
    v.Sole :=
  fun _ _ _ phase => absurd phase (h _ _ _)

theorem Sole.enter (none : v.connection = none) : (v.enter place frame stage).Sole :=
  fun _ _ _ _ _ => none

theorem phase_of_wire (h : w.wire = .busy place frame line unsent) :
    ∃ stage, w.phase = .exchanging place frame stage := by
  unfold wire at h
  split at h
  iterate 3
    next phase =>
      obtain ⟨rfl, rfl, -, -⟩ := Wire.busy.inj h
      exact ⟨_, phase⟩
  · cases h

/-- The connection that the worker can write to is on the wire. -/
theorem Sole.wire_of_links (sole : w.Sole) (hlink : link ∈ w.links) :
    w.wire = .free (some link.line) ∨
      ∃ place frame unsent, w.wire = .busy place frame link.line unsent := by
  have kept (h : link ∈ w.connection) : w.connection.map (·.line) = some link.line := by
    rw [Option.mem_def.mp h, Option.map_some]
  cases phase : w.phase with
  | exchanging place frame stage =>
    cases stage with
    | starting =>
      have hlink : link ∈ w.connection := by simpa [links, phase, Stage.link?] using hlink
      exact .inl (by simp only [wire, phase, kept hlink])
    | dialling => simp [links, phase, Stage.link?, sole _ _ _ phase (by simp)] at hlink
    | sending used _ | lead used _ | body used _ =>
      obtain rfl : link = used := by
        simpa [links, phase, Stage.link?, sole _ _ _ phase (by simp)] using hlink
      refine .inr ?_
      simp only [wire, phase]
      exact ⟨place, frame, _, rfl⟩
  | _ =>
    have hlink : link ∈ w.connection := by simpa [links, phase] using hlink
    exact .inl (by simp only [wire, phase, kept hlink])

theorem Sole.abandon (sole : w.Sole) (phase : w.phase = .exchanging place frame stage)
    (silent : w.write? op = none) (idle : v.phase = .idle)
    (connection : v.connection = w.connection) : w.Wires op v ∧ v.Sole := by
  refine ⟨?_, sole_of_not_exchanging (by simp [idle])⟩
  cases stage with
  | starting | dialling => exact .same silent (by simp [wire, phase, idle, connection])
  | sending | lead | body =>
    have hnone : w.connection = none := sole _ _ _ phase (by simp)
    exact .lost silent (by simp [wire, idle, connection, hnone]) (.inl idle)

theorem wires_receive (phase : w.phase = .idle) (goes : w.receive = some v) :
    w.Wires .receive v ∧ v.Sole := by
  unfold receive at goes
  split at goes
  · obtain rfl := Option.some.inj goes
    exact ⟨.same rfl (by simp [wire, phase]), sole_of_not_exchanging (by simp)⟩
  · split at goes
    · cases goes
    · obtain rfl := Option.some.inj goes
      exact ⟨.lost rfl rfl (.inr rfl), sole_of_not_exchanging (by simp)⟩

theorem wires_inspect (phase : w.phase = .holding place) (h : Hold) :
    w.Wires .inspect (w.inspect h place).1 ∧ (w.inspect h place).1.Sole := by
  have settled (outcome : Outcome) : w.Wires .inspect (w.settle place outcome []).1 ∧
      (w.settle place outcome []).1.Sole :=
    ⟨.same rfl (by simp [wire, phase, settle]), sole_of_not_exchanging (by simp [settle])⟩
  unfold inspect
  split
  · exact settled _
  · split
    · exact ⟨.same rfl (by simp [wire, phase]), sole_of_not_exchanging (by simp)⟩
    · split
      · exact settled _
      · refine ⟨.same rfl (by simp [wire, phase, Worker.enter]), ?_⟩
        rintro _ _ _ ⟨⟩ later
        exact absurd rfl later

theorem wires_conclude (phase : w.phase = .exchanging place frame (.body link missing)) :
    w.Wires .progress (w.conclude place link).1 ∧ (w.conclude place link).1.Sole := by
  have hbefore : w.wire = .busy place frame link.line [] := by simp only [wire, phase]
  have hafter : (w.conclude place link).1.wire = .free (some link.line) ∧
      (w.conclude place link).1.phase = .idle := by
    simp only [conclude]
    split <;> exact ⟨rfl, rfl⟩
  obtain ⟨hwire, idle⟩ := hafter
  refine ⟨.kept rfl hbefore hwire idle, ?_⟩
  exact sole_of_not_exchanging (by simp [idle])

theorem Sole.progress (sole : w.Sole) (phase : w.phase = .exchanging place frame stage)
    (goes : w.progress place frame stage = some turn) :
    w.Wires .progress turn.1 ∧ turn.1.Sole := by
  have failed : w.Wires .progress (w.fail place).1 ∧ (w.fail place).1.Sole :=
    sole.abandon phase rfl rfl rfl
  unfold Worker.progress at goes
  split at goes
  · split at goes
    · next link hlink =>
      obtain rfl := Option.some.inj goes
      have hbefore : w.wire = .free (some link.line) := by simp [wire, phase, hlink]
      exact ⟨.began rfl hbefore (.inl rfl) rfl, .enter rfl⟩
    · next hnone =>
      obtain rfl := Option.some.inj goes
      exact ⟨.same rfl (by simp [wire, phase, Worker.enter]), .enter hnone⟩
  · obtain rfl := Option.some.inj goes
    exact failed
  · cases goes
  · obtain rfl := Option.some.inj goes
    exact ⟨.same rfl (by simp [wire, phase, Worker.enter]), .enter (sole _ _ _ phase (by simp))⟩
  · cases goes
  · have hnone := sole _ _ _ phase (by simp)
    split at goes
    · split at goes
      · obtain rfl := Option.some.inj goes
        exact failed
      · obtain rfl := Option.some.inj goes
        exact ⟨.same rfl (by simp [wire, phase, Worker.enter]), .enter hnone⟩
    · split at goes
      · split at goes
        · obtain rfl := Option.some.inj goes
          exact failed
        · cases goes
      · obtain rfl := Option.some.inj goes
        refine ⟨.same rfl ?_, .enter hnone⟩
        simp [wire, phase, Worker.enter, Connection.line]
  · have hnone := sole _ _ _ phase (by simp)
    split at goes
    · obtain rfl := Option.some.inj goes
      exact wires_conclude phase
    · split at goes
      · split at goes
        · obtain rfl := Option.some.inj goes
          exact failed
        · cases goes
      · obtain rfl := Option.some.inj goes
        refine ⟨.same rfl ?_, .enter hnone⟩
        simp [wire, phase, Worker.enter, Connection.line]

theorem Sole.mapLink (sole : w.Sole) {f : Connection → Connection}
    (same : ∀ link, (f link).line = link.line) (silent : w.write? op = none) :
    w.Wires op (w.mapLink f) ∧ (w.mapLink f).Sole := by
  unfold Worker.mapLink
  split
  iterate 3
    next phase =>
      refine ⟨.same silent ?_, .enter (sole _ _ _ phase (by simp))⟩
      simp [wire, phase, Worker.enter, same]
  · next hsending hlead hbody =>
    have hkept : (w.connection.map f).map (·.line) = w.connection.map (·.line) := by
      cases w.connection <;> simp [same]
    refine ⟨.same silent ?_, ?_⟩
    · simp only [wire, hkept]
    · intro place frame stage phase later
      simp [sole place frame stage phase later]

theorem Sole.hear (sole : w.Sole) (event : Event) :
    w.Wires (.hear event) (w.hear event).1 ∧ (w.hear event).1.Sole := by
  unfold Worker.hear
  split
  · exact sole.mapLink (fun _ => rfl) rfl
  · exact sole.mapLink (fun _ => rfl) rfl
  · split
    · next channel phase _ _ =>
      have hnone := sole _ _ _ phase (by simp)
      have hbefore : w.wire = .free none := by simp [wire, phase, hnone]
      exact ⟨.began rfl hbefore (.inr ⟨channel, rfl, rfl⟩) rfl, .enter hnone⟩
    · next phase _ _ =>
      exact ⟨.same rfl (by simp [wire, phase, Worker.enter]), .enter (sole _ _ _ phase (by simp))⟩
    · next place frame link unsent count phase _ _ =>
      have hbefore : w.wire = .busy place frame link.line unsent := by simp only [wire, phase]
      refine ⟨.wrote count hbefore ?_ rfl, .enter (sole _ _ _ phase (by simp))⟩
      simp only [write?, phase]
      rfl
    iterate 7
      next phase _ _ => exact sole.abandon phase rfl rfl rfl
    · next htook _ _ _ _ _ _ _ _ _ =>
      refine ⟨.same (Option.eq_none_iff_forall_ne_some.mpr ?_) rfl, sole⟩
      intro x hx
      obtain ⟨frame, link, unsent, count, phase, heard, -⟩ := phase_of_write? hx
      exact htook _ _ _ _ count phase (WorkerOp.hear.inj heard)

/-- What the worker does or is told changes the wire in one of these ways only. -/
theorem Sole.wires_of_after (sole : w.Sole) {h : Hold} (goes : w.after (op.move h) = some turn) :
    w.Wires op turn.1 ∧ turn.1.Sole := by
  cases op with
  | receive =>
    cases moveStep_of_after goes with
    | receive phase received => exact wires_receive phase received
  | inspect =>
    cases moveStep_of_after goes with
    | inspect phase => exact wires_inspect phase h
  | progress =>
    cases moveStep_of_after goes with
    | progress phase progressed => exact sole.progress phase progressed
  | cut =>
    cases moveStep_of_after goes with
    | cut phase => exact sole.abandon phase rfl rfl rfl
  | hear event =>
    cases moveStep_of_after goes with
    | hear => exact sole.hear event

end Worker

end Courier.Forward
