import Courier.Proofs.Forward.Reading
import Courier.Proofs.Forward.Written
import Courier.Proofs.Limits

/-!
# One packet after the other

Until the worker is asked to stop, its log is made of one visit for each packet, in the order in
which they were submitted. A visit is all that is seen of a packet: whether it is refused, whether
the kept connection is taken or the endpoints are dialled, and how it ends. What one visit leaves
to the next is the connection that is kept.
-/

namespace Courier.Forward

/-- How a packet comes to its connection: it takes the one that was kept, or the first endpoint
that accepts. -/
inductive Opens (endpoints : List Address.Endpoint) (place : Place) :
    Option Nat → List Observation → Nat → Prop
  | reused {channel} : Opens endpoints place (some channel) [.reused place channel] channel
  | dialled {refused endpoint untried channel}
      (order : endpoints = refused ++ endpoint :: untried) :
      Opens endpoints place none
        (.connecting place :: refused.map (.refused place) ++ [.accepted place endpoint channel])
        channel

/-- The packet in the place is one that is not refused. -/
def Admitted (limit : UInt32) (packets : List Packet) (place : Place) : Prop :=
  ∃ p, packets[place]? = some p ∧ p.refusal? limit = none

namespace Observation

def failed (place : Place) : Observation := .ended ⟨place, .complete .engineFailure []⟩ none

def answered (place : Place) (reply : Frame.Reply) : Observation :=
  .ended ⟨place, .complete ((Outcome.ofCode? reply.status).getD .engineFailure) reply.payload⟩
    (some reply)

def portions (channel : Nat) (place : Place) (portions : List Bytes) : List Observation :=
  portions.map fun bytes => .wrote ⟨channel, place, bytes⟩

end Observation

/-- All that is seen of one packet, between the connection that it finds kept and the one that it
leaves. -/
inductive Visit (endpoints : List Address.Endpoint) (limit : UInt32) (packets : List Packet)
    (place : Place) : Option Nat → List Observation → Option Nat → Prop
  | rejected {held p outcome} (packet : packets[place]? = some p)
      (bad : p.refusal? limit = some outcome) :
      Visit endpoints limit packets place held
        [.judged place (some outcome), .ended ⟨place, .complete outcome []⟩ none] held
  | unreached (admitted : Admitted limit packets place) :
      Visit endpoints limit packets place none
        (.judged place none :: .connecting place :: endpoints.map (.refused place) ++
          [.failed place]) none
  | spoiled {refused endpoint untried} (admitted : Admitted limit packets place)
      (order : endpoints = refused ++ endpoint :: untried) :
      Visit endpoints limit packets place none
        (.judged place none :: .connecting place :: refused.map (.refused place) ++
          [.spoiled place endpoint, .failed place]) none
  | failed {held opening channel} (admitted : Admitted limit packets place)
      (opens : Opens endpoints place held opening channel) (portions : List Bytes) :
      Visit endpoints limit packets place held
        (.judged place none :: opening ++ Observation.portions channel place portions ++
          [.failed place]) none
  | answered {held opening channel} (admitted : Admitted limit packets place)
      (opens : Opens endpoints place held opening channel) (portions : List Bytes)
      (reply : Frame.Reply) :
      Visit endpoints limit packets place held
        (.judged place none :: opening ++ Observation.portions channel place portions ++
          [.answered place reply]) (some channel)

/-- Visits to the packets in the first places, with the connection that is kept after them. -/
inductive Visits (endpoints : List Address.Endpoint) (limit : UInt32) (packets : List Packet) :
    Nat → List Observation → Option Nat → Prop
  | nil : Visits endpoints limit packets 0 [] none
  | snoc {count log held new held'} (before : Visits endpoints limit packets count log held)
      (visit : Visit endpoints limit packets count held new held') :
      Visits endpoints limit packets (count + 1) (log ++ new) held'

/-- What has been seen of the packet in the place, if it is visited at all, by how far the worker
has come. -/
inductive Front (endpoints : List Address.Endpoint) (limit : UInt32) (packets : List Packet)
    (place : Place) (w : Worker) (held : Option Nat) : List Observation → Prop
  | resting (still : ∀ other frame stage, w.phase ≠ .exchanging other frame stage)
      (kept : w.connection.map (·.channel) = held) :
      Front endpoints limit packets place w held []
  | starting {frame} (admitted : Admitted limit packets place)
      (phase : w.phase = .exchanging place frame .starting)
      (kept : w.connection.map (·.channel) = held) :
      Front endpoints limit packets place w held [.judged place none]
  | dialling {frame refused untried} (admitted : Admitted limit packets place)
      (phase : w.phase = .exchanging place frame (.dialling untried))
      (unkept : w.connection = none) (empty : held = none)
      (order : endpoints = refused ++ untried) :
      Front endpoints limit packets place w held
        (.judged place none :: .connecting place :: refused.map (.refused place))
  | busy {frame line unsent opening} (admitted : Admitted limit packets place)
      (wire : w.wire = .busy place frame line unsent)
      (opens : Opens endpoints place held opening line.channel) (portions : List Bytes) :
      Front endpoints limit packets place w held
        (.judged place none :: opening ++ Observation.portions line.channel place portions)

/-- A turn goes on with the visit or ends it. -/
inductive Advances (endpoints : List Address.Endpoint) (limit : UInt32) (packets : List Packet)
    (place : Place) (turn : Worker.Turn) (held : Option Nat) (log : List Observation) : Prop
  | onward (quiet : turn.2 = [])
      (front : Front endpoints limit packets place turn.1 held log)
  | finished {settlement held'} (ended : turn.2 = [settlement])
      (visit : Visit endpoints limit packets place held log held')
      (still : ∀ other frame stage, turn.1.phase ≠ .exchanging other frame stage)
      (kept : turn.1.connection.map (·.channel) = held')

namespace Worker

def seen (w : Worker) (h : Hold) (op : WorkerOp) (turn : Turn) : List Observation :=
  (w.observation? h op).toList ++ turn.2.map (Observation.ended · (w.reply? op))

theorem settle_still (w : Worker) (place : Place) (outcome : Outcome) (result : Bytes)
    (other : Place) (frame : Bytes) (stage : Stage) :
    (w.settle place outcome result).1.phase ≠ .exchanging other frame stage := by
  simp [settle]

end Worker

variable {endpoints : List Address.Endpoint} {limit : UInt32} {packets : List Packet}
  {place : Place} {w v : Worker} {held : Option Nat} {log : List Observation} {turn : Worker.Turn}
  {h : Hold} {op : WorkerOp} {frame : Bytes} {stage : Stage}

-- ---------------------------------------------------------------------------
-- Where there is no connection yet
-- ---------------------------------------------------------------------------

theorem Front.of_still (front : Front endpoints limit packets place w held log)
    (still : ∀ other frame stage, w.phase ≠ .exchanging other frame stage) :
    log = [] ∧ w.connection.map (·.channel) = held := by
  cases front with
  | resting _ kept => exact ⟨rfl, kept⟩
  | starting _ phase => exact absurd phase (still _ _ _)
  | dialling _ phase => exact absurd phase (still _ _ _)
  | busy _ wire =>
    obtain ⟨stage, phase⟩ := Worker.phase_of_wire wire
    exact absurd phase (still _ _ _)

theorem Front.receive (front : Front endpoints limit packets place w held log)
    (phase : w.phase = .idle) (isOpen : w.isOpen = true) (goes : w.receive = some v) :
    Advances endpoints limit packets place (v, []) held
      (log ++ w.seen h .receive (v, [])) := by
  obtain ⟨rfl, kept⟩ := front.of_still (by simp [phase])
  refine .onward rfl ?_
  unfold Worker.receive at goes
  split at goes
  · cases goes
    exact .resting (by simp) kept
  · rw [if_pos isOpen] at goes
    cases goes

theorem Front.inspect {p : Packet} (front : Front endpoints limit packets place w held log)
    (phase : w.phase = .holding place) (unasked : w.requested = false)
    (taken : h.packet? place = some p) (packet : packets[place]? = some p)
    (limit_eq : w.limit = limit) :
    Advances endpoints limit packets place (w.inspect h place) held
      (log ++ w.seen h .inspect (w.inspect h place)) := by
  obtain ⟨rfl, kept⟩ := front.of_still (by simp [phase])
  have judged : w.observation? h .inspect = some (.judged place (w.refusal? p)) := by
    simp [Worker.observation?, phase, unasked, taken]
  have refusal : w.refusal? p = p.refusal? limit := limit_eq ▸ w.refusal?_eq p
  rw [Worker.seen, judged]
  unfold Worker.refusal? at refusal ⊢
  simp only [Worker.inspect, unasked, taken]
  cases made : w.frame? p with
  | error outcome =>
    rw [made] at refusal
    exact .finished rfl (.rejected packet refusal.symm) (Worker.settle_still _ _ _ _) kept
  | ok frame =>
    rw [made] at refusal
    exact .onward rfl (.starting ⟨p, packet, refusal.symm⟩ rfl kept)

theorem Worker.link_of_wire (busy : w.wire = .busy place frame line unsent) :
    ∃ stage link, w.phase = .exchanging place frame stage ∧ stage.link? = some link ∧
      link.line = line := by
  unfold wire at busy
  split at busy
  iterate 3
    next phase =>
      obtain ⟨rfl, rfl, rfl, -⟩ := Wire.busy.inj busy
      exact ⟨_, _, phase, rfl, rfl⟩
  · cases busy

/-- Without a connection in use, an event that is not seen changes at most what has come in on the
kept one. -/
theorem Worker.hear_unseen {event : Event}
    (unlinked : ∀ place frame stage, w.phase = .exchanging place frame stage → stage.link? = none)
    (unseen : w.observation? h (.hear event) = none) :
    (w.hear event).2 = [] ∧ (w.hear event).1.phase = w.phase ∧
      (w.hear event).1.connection.map (·.channel) = w.connection.map (·.channel) := by
  have mapped : ∀ f, w.mapLink f = { w with connection := w.connection.map f } := by
    intro f
    unfold mapLink
    split
    iterate 3
      next phase => cases unlinked _ _ _ phase
    · rfl
  unfold hear
  split
  · simp [mapped, Function.comp_def, Connection.receive]
  · simp [mapped, Function.comp_def, Connection.finish]
  · split
    iterate 2
      next phase _ _ => simp [observation?, dialled?, phase] at unseen
    · next phase _ _ => cases unlinked _ _ _ phase
    · next phase _ _ => simp [observation?, dialled?, phase] at unseen
    iterate 6
      next phase _ _ => cases unlinked _ _ _ phase
    · exact ⟨rfl, rfl, rfl⟩

theorem Front.hear_unseen {event : Event} (front : Front endpoints limit packets place w held log)
    (unlinked : ∀ place frame stage, w.phase = .exchanging place frame stage → stage.link? = none)
    (unseen : w.observation? h (.hear event) = none) :
    Advances endpoints limit packets place (w.hear event) held
      (log ++ w.seen h (.hear event) (w.hear event)) := by
  obtain ⟨quiet, phase, kept⟩ := Worker.hear_unseen unlinked unseen
  rw [Worker.seen, unseen, quiet]
  simp only [Option.toList_none, List.map_nil, List.append_nil]
  refine .onward quiet ?_
  cases front with
  | resting still before => exact .resting (phase ▸ still) (kept.trans before)
  | starting admitted before same => exact .starting admitted (phase.trans before) (kept.trans same)
  | dialling admitted before unkept empty order =>
    exact .dialling admitted (phase.trans before) (by simpa [unkept] using kept) empty order
  | busy _ wire =>
    obtain ⟨stage, link, before, linked, -⟩ := Worker.link_of_wire wire
    cases (unlinked _ _ _ before).symm.trans linked

theorem Front.hear_early {event : Event} (front : Front endpoints limit packets place w held log)
    (early : ∀ place frame stage, w.phase = .exchanging place frame stage → stage = .starting) :
    Advances endpoints limit packets place (w.hear event) held
      (log ++ w.seen h (.hear event) (w.hear event)) := by
  refine front.hear_unseen (fun _ _ _ phase => early _ _ _ phase ▸ rfl) ?_
  refine Option.eq_none_iff_forall_ne_some.mpr fun x seen => ?_
  cases Worker.observes_of_observation? seen with
  | refused phase | accepted phase | spoiled phase | wrote phase => cases early _ _ _ phase

theorem Front.begin (admitted : Admitted limit packets place)
    (phase : w.phase = .exchanging place frame .starting)
    (kept : w.connection.map (·.channel) = held) (same : w.endpoints = endpoints)
    (goes : w.progress place frame .starting = some turn) :
    Advances endpoints limit packets place turn held
      ([.judged place none] ++ w.seen h .progress turn) := by
  simp only [Worker.progress] at goes
  split at goes
  · next link taken =>
    cases goes
    have observation : w.observation? h .progress = some (.reused place link.channel) := by
      simp only [Worker.observation?, phase, taken]
    have wire : ({ w with connection := none }.enter place frame (.sending link frame)).wire =
        .busy place frame link.line frame := rfl
    rw [taken] at kept
    subst kept
    rw [Worker.seen, observation]
    exact .onward rfl (.busy admitted wire .reused [])
  · next unkept =>
    cases goes
    have observation : w.observation? h .progress = some (.connecting place) := by
      simp only [Worker.observation?, phase, unkept]
    have order : endpoints = [] ++ w.endpoints := same.symm
    have now : (w.enter place frame (.dialling w.endpoints)).phase =
        .exchanging place frame (.dialling w.endpoints) := rfl
    rw [unkept] at kept
    subst kept
    rw [Worker.seen, observation]
    exact .onward rfl (.dialling admitted now unkept rfl order)

theorem Front.dial {untried refused : List Address.Endpoint} {event : Event}
    (admitted : Admitted limit packets place)
    (phase : w.phase = .exchanging place frame (.dialling untried)) (unkept : w.connection = none)
    (order : endpoints = refused ++ untried) :
    Advances endpoints limit packets place (w.hear event) none
      (.judged place none :: .connecting place :: refused.map (.refused place) ++
        w.seen h (.hear event) (w.hear event)) := by
  cases observation : w.observation? h (.hear event) with
  | none =>
    refine Front.hear_unseen (.dialling admitted phase unkept rfl order) ?_ observation
    intro _ _ _ now
    obtain ⟨-, -, rfl⟩ := Phase.exchanging.inj (phase.symm.trans now)
    rfl
  | some x =>
    rw [Worker.seen, observation]
    cases Worker.observes_of_observation? observation with
    | @refused _ _ endpoint untried before =>
      obtain ⟨rfl, rfl, rfl⟩ := by simpa using phase.symm.trans before
      have hear : w.hear .refused = (w.enter place frame (.dialling untried), []) := by
        simp only [Worker.hear, phase]
      have now : (w.enter place frame (.dialling untried)).phase =
          .exchanging place frame (.dialling untried) := rfl
      have further : endpoints = (refused ++ [endpoint]) ++ untried := by simp [order]
      rw [hear]
      refine .onward rfl ?_
      simpa using Front.dialling admitted now unkept rfl further
    | @accepted _ _ endpoint untried channel before =>
      obtain ⟨rfl, rfl, rfl⟩ := by simpa using phase.symm.trans before
      have hear : w.hear (.accepted channel) =
          (w.enter place frame (.sending { endpoint, channel } frame), []) := by
        simp only [Worker.hear, phase]
      have wire : (w.enter place frame (.sending { endpoint, channel } frame)).wire =
          .busy place frame ⟨channel, []⟩ frame := rfl
      rw [hear]
      refine .onward rfl ?_
      simpa [Observation.portions] using Front.busy admitted wire (.dialled order) []
    | @spoiled _ _ endpoint untried before =>
      obtain ⟨rfl, rfl, rfl⟩ := by simpa using phase.symm.trans before
      have hear : w.hear .broken = w.fail place := by simp only [Worker.hear, phase]
      rw [hear]
      refine .finished rfl (.spoiled admitted order) (Worker.settle_still _ _ _ _) ?_
      simp [Worker.fail, Worker.settle, unkept]
    | wrote before => cases phase.symm.trans before

theorem Front.giveUp {refused : List Address.Endpoint} (admitted : Admitted limit packets place)
    (phase : w.phase = .exchanging place frame (.dialling [])) (unkept : w.connection = none)
    (order : endpoints = refused ++ []) :
    Advances endpoints limit packets place (w.fail place) none
      (.judged place none :: .connecting place :: refused.map (.refused place) ++
        w.seen h .progress (w.fail place)) := by
  rw [List.append_nil] at order
  subst order
  have observation : w.observation? h .progress = none := by simp only [Worker.observation?, phase]
  have silent : w.reply? .progress = none := by simp only [Worker.reply?, phase]
  rw [Worker.seen, observation, silent]
  refine .finished rfl (.unreached admitted) (Worker.settle_still _ _ _ _) ?_
  simp [Worker.fail, Worker.settle, unkept]

-- ---------------------------------------------------------------------------
-- On a connection
-- ---------------------------------------------------------------------------

theorem Worker.observation?_busy (busy : w.wire = .busy place frame line unsent) (h : Hold)
    (op : WorkerOp) :
    w.observation? h op = (w.write? op).map .wrote := by
  obtain ⟨stage, link, phase, linked, -⟩ := link_of_wire busy
  have undialled : w.dialled? = none := by
    cases stage with
    | starting | dialling => cases linked
    | _ => simp only [dialled?, phase]
  unfold observation?
  split
  · simp [phase, write?]
  · cases stage with
    | starting => cases linked
    | _ => simp [phase, write?]
  iterate 3
    · simp [undialled, write?]
  · rfl

theorem Front.pursue {next : Stage} (admitted : Admitted limit packets place)
    (busy : w.wire = .busy place frame line unsent)
    (opens : Opens endpoints place held opening line.channel) (portions : List Bytes)
    (wires : w.Wires op turn.1) (quiet : turn.2 = [])
    (going : turn.1.phase = .exchanging place frame next) :
    Advances endpoints limit packets place turn held
      (.judged place none :: opening ++ Observation.portions line.channel place portions ++
        w.seen h op turn) := by
  rw [Worker.seen, Worker.observation?_busy busy, quiet, List.map_nil, List.append_nil]
  refine .onward quiet ?_
  cases wires with
  | same silent wire =>
    rw [silent]
    simpa using Front.busy admitted (wire.trans busy) opens portions
  | began _ free => cases busy.symm.trans free
  | wrote count now writes wire =>
    obtain ⟨rfl, rfl, rfl, rfl⟩ := Wire.busy.inj (busy.symm.trans now)
    rw [writes]
    simpa [Observation.portions, Line.write] using
      Front.busy admitted wire opens (portions ++ [unsent.take count])
  | kept _ _ _ finished => cases going.symm.trans finished
  | lost _ _ finished =>
    rcases finished with finished | finished <;> cases going.symm.trans finished

theorem Worker.Wires.silent_of_idle (wires : w.Wires op v) (idle : v.phase = .idle) :
    w.write? op = none := by
  cases wires with
  | same silent | began silent | kept silent | lost silent => exact silent
  | wrote _ _ _ wire =>
    unfold Worker.wire at wire
    simp [idle] at wire

theorem Front.fail (admitted : Admitted limit packets place)
    (busy : w.wire = .busy place frame line unsent) (sole : w.Sole)
    (opens : Opens endpoints place held opening line.channel) (portions : List Bytes)
    (wires : w.Wires op (w.fail place).1) (silent : w.reply? op = none) :
    Advances endpoints limit packets place (w.fail place) held
      (.judged place none :: opening ++ Observation.portions line.channel place portions ++
        w.seen h op (w.fail place)) := by
  have unkept : w.connection = none := by
    obtain ⟨stage, link, phase, linked, -⟩ := Worker.link_of_wire busy
    exact sole _ _ _ phase (by rintro rfl; cases linked)
  rw [Worker.seen, Worker.observation?_busy busy, wires.silent_of_idle rfl, silent]
  refine .finished rfl (.failed admitted opens portions) (Worker.settle_still _ _ _ _) ?_
  simp [Worker.fail, Worker.settle, unkept]

/-- A reply that was read to its end ends the packet, and the connection is kept. -/
theorem Front.conclude {reply : Frame.Reply} (admitted : Admitted limit packets place)
    (busy : w.wire = .busy place frame line unsent)
    (phase : w.phase = .exchanging place frame (.body link 0))
    (opens : Opens endpoints place held opening line.channel) (portions : List Bytes)
    (decoded : Frame.Reply.decode w.buffer w.limit = .ok (reply, used)) :
    Advances endpoints limit packets place (w.conclude place link) held
      (.judged place none :: opening ++ Observation.portions line.channel place portions ++
        w.seen h .progress (w.conclude place link)) := by
  have channel : line.channel = link.channel := by
    simp only [Worker.wire, phase] at busy
    obtain ⟨-, -, rfl, -⟩ := Wire.busy.inj busy
    rfl
  have replied : w.reply? .progress = some reply := by
    simp only [Worker.reply?, phase, decoded]
  have concluded : w.conclude place link = { w with connection := some link }.settle place
      ((Outcome.ofCode? reply.status).getD .engineFailure) reply.payload := by
    simp only [Worker.conclude, decoded]
  rw [Worker.seen, Worker.observation?_busy busy, replied, concluded]
  exact .finished rfl (.answered admitted opens portions reply) (Worker.settle_still _ _ _ _)
    (congrArg some channel.symm)

-- ---------------------------------------------------------------------------
-- Whatever the worker does
-- ---------------------------------------------------------------------------

structure Worker.Serves (w : Worker) : Prop where
  unasked : w.requested = false
  unnoticed : w.permit = false
  isOpen : w.isOpen = true

/-- The worker serves a host that holds these packets. The next one to end is in the place. -/
structure Worker.InService (endpoints : List Address.Endpoint) (limit : UInt32)
    (packets : List Packet) (place : Place) (h : Hold) (w : Worker) : Prop where
  serves : w.Serves
  endpoints_eq : w.endpoints = endpoints
  limit_eq : w.limit = limit
  sole : w.Sole
  head : ∀ first rest, w.pending = first :: rest → first = place
  live : ∀ place, w.phase = .holding place → (h.packet? place).isSome
  held : ∀ place p, h.packet? place = some p → packets[place]? = some p
  /-- A reply that was read to its end can be decoded. -/
  whole : ∀ place frame link, w.phase = .exchanging place frame (.body link 0) →
    ∃ reply, Frame.Reply.Fills w.limit w.buffer reply

theorem Worker.reply?_eq_none (phase : w.phase = .exchanging place frame stage)
    (more : ∀ link, stage ≠ .body link 0) (op : WorkerOp) : w.reply? op = none := by
  unfold reply?
  split
  · rw [phase]
    split
    · next link now => exact absurd (Phase.exchanging.inj now).2.2 (more _)
    · rfl
  · rfl

theorem Front.progress (front : Front endpoints limit packets place w held log)
    (inService : w.InService endpoints limit packets place h)
    (phase : w.phase = .exchanging other frame stage)
    (goes : w.progress other frame stage = some turn) :
    Advances endpoints limit packets place turn held (log ++ w.seen h .progress turn) := by
  obtain rfl := inService.head _ _ (Worker.pending_exchanging phase)
  have wires : w.Wires .progress turn.1 := (inService.sole.progress phase goes).1
  cases front with
  | resting still => exact absurd phase (still _ _ _)
  | starting admitted now kept =>
    obtain ⟨-, rfl, rfl⟩ := Phase.exchanging.inj (phase.symm.trans now)
    exact Front.begin admitted phase kept inService.endpoints_eq goes
  | @dialling _ refused untried admitted now unkept empty order =>
    obtain ⟨-, rfl, rfl⟩ := Phase.exchanging.inj (phase.symm.trans now)
    subst empty
    cases untried with
    | nil =>
      cases goes
      exact Front.giveUp admitted phase unkept order
    | cons => cases goes
  | busy admitted busy opens portions =>
    obtain ⟨_, _, now, -, -⟩ := Worker.link_of_wire busy
    obtain ⟨-, rfl, rfl⟩ := Phase.exchanging.inj (phase.symm.trans now)
    -- the connection is kept in one case only, and a reply that cannot be decoded would be another
    by_cases last : ∃ link, stage = .body link 0
    · obtain ⟨link, rfl⟩ := last
      obtain rfl : w.conclude _ link = turn := by simpa [Worker.progress] using goes
      obtain ⟨reply, fills⟩ := inService.whole _ _ _ phase
      exact Front.conclude admitted busy phase opens portions fills
    · have more : ∀ link, stage ≠ .body link 0 := fun link h => last ⟨link, h⟩
      rcases Worker.progress_cases goes with enterOrFail | ⟨link, whole, -⟩
      · cases enterOrFail with
        | enter => exact Front.pursue admitted busy opens portions wires rfl rfl
        | fail =>
          exact Front.fail admitted busy inService.sole opens portions wires
            (Worker.reply?_eq_none phase more _)
      · exact absurd whole (more link)

theorem Front.hear (front : Front endpoints limit packets place w held log) (sole : w.Sole)
    (event : Event) : Advances endpoints limit packets place (w.hear event) held
      (log ++ w.seen h (.hear event) (w.hear event)) := by
  cases front with
  | resting still kept =>
    exact Front.hear_early (.resting still kept) fun _ _ _ now => absurd now (still _ _ _)
  | starting admitted phase kept =>
    refine Front.hear_early (.starting admitted phase kept) fun _ _ _ now => ?_
    exact (Phase.exchanging.inj (now.symm.trans phase)).2.2
  | dialling admitted phase unkept empty order =>
    subst empty
    exact Front.dial admitted phase unkept order
  | busy admitted busy opens portions =>
    have wires := (sole.hear event).1
    rcases Worker.hear_enterOrFail w event with ⟨_, _, _, phase, enterOrFail⟩ | ⟨connection, same⟩
    · obtain ⟨_, _, now, -, -⟩ := Worker.link_of_wire busy
      obtain ⟨rfl, rfl, -⟩ := Phase.exchanging.inj (phase.symm.trans now)
      generalize w.hear event = turn at enterOrFail wires
      cases enterOrFail with
      | enter => exact Front.pursue admitted busy opens portions wires rfl rfl
      | fail => exact Front.fail admitted busy sole opens portions wires rfl
    · obtain ⟨_, _, now, -, -⟩ := Worker.link_of_wire busy
      rw [same] at wires ⊢
      exact Front.pursue admitted busy opens portions wires rfl now

theorem Front.after (front : Front endpoints limit packets place w held log)
    (inService : w.InService endpoints limit packets place h)
    (goes : w.after (op.move h) = some turn) :
    Advances endpoints limit packets place turn held (log ++ w.seen h op turn) := by
  cases op with
  | receive =>
    cases Worker.moveStep_of_after goes with
    | receive phase received => exact front.receive phase inService.serves.isOpen received
  | inspect =>
    cases Worker.moveStep_of_after goes with
    | inspect phase =>
      obtain rfl := inService.head _ _ (Worker.pending_holding phase)
      obtain ⟨p, hp⟩ := Option.isSome_iff_exists.mp (inService.live _ phase)
      exact front.inspect phase inService.serves.unasked hp (inService.held _ p hp)
        inService.limit_eq
  | progress =>
    cases Worker.moveStep_of_after goes with
    | progress phase progressed => exact front.progress inService phase progressed
  | cut =>
    cases Worker.moveStep_of_after goes with
    | cut phase notice => cases inService.serves.unnoticed.symm.trans notice
  | hear event =>
    cases Worker.moveStep_of_after goes with
    | hear => exact front.hear inService.sole event

theorem Worker.endpoints_of_after {move : Move} (goes : w.after move = some turn) :
    turn.1.endpoints = w.endpoints := by
  cases moveStep_of_after goes with
  | @receive v _ received =>
    unfold receive at received
    split at received
    · cases received
      rfl
    · split at received <;> cases received
      rfl
  | inspect =>
    unfold inspect
    split
    · rfl
    · split
      · rfl
      · split <;> rfl
  | progress _ progressed => cases enterOrSettle_progress progressed <;> rfl
  | @hear event =>
    rcases hear_cases w event with ⟨_, _, _, _, enterOrSettle⟩ | ⟨connection, same⟩
    · generalize w.hear event = turn at enterOrSettle
      cases enterOrSettle <;> rfl
    · rw [same]
  | cut | push | request | notify | hangUp => rfl

theorem Admitted.append (h : Admitted limit packets place) (more : List Packet) :
    Admitted limit (packets ++ more) place := by
  obtain ⟨p, packet, good⟩ := h
  have lt : place < packets.length := (List.getElem?_eq_some_iff.mp packet).1
  exact ⟨p, (List.getElem?_append_left lt).trans packet, good⟩

theorem Visit.append (visit : Visit endpoints limit packets place held log held')
    (more : List Packet) : Visit endpoints limit (packets ++ more) place held log held' := by
  cases visit with
  | rejected packet bad =>
    have lt : place < packets.length := (List.getElem?_eq_some_iff.mp packet).1
    exact .rejected ((List.getElem?_append_left lt).trans packet) bad
  | unreached admitted => exact .unreached (admitted.append more)
  | spoiled admitted order => exact .spoiled (admitted.append more) order
  | failed admitted opens portions => exact .failed (admitted.append more) opens portions
  | answered admitted opens portions reply =>
    exact .answered (admitted.append more) opens portions reply

theorem Visits.append (visits : Visits endpoints limit packets count log held)
    (more : List Packet) : Visits endpoints limit (packets ++ more) count log held := by
  induction visits with
  | nil => exact .nil
  | snoc _ visit ih => exact ih.snoc (visit.append more)

theorem Front.push (front : Front endpoints limit packets place w held log) (more : List Packet)
    (next : Place) : Front endpoints limit (packets ++ more) place (w.push next) held log := by
  cases front with
  | resting still kept => exact .resting still kept
  | starting admitted phase kept => exact .starting (admitted.append more) phase kept
  | dialling admitted phase unkept empty order =>
    exact .dialling (admitted.append more) phase unkept empty order
  | @busy frame line unsent _ admitted wire opens portions =>
    have wire : (w.push next).wire = .busy place frame line unsent := wire
    exact .busy (admitted.append more) wire opens portions

theorem Front.visit (front : Front endpoints limit packets place w held log) :
    log = [] ∨ ∃ rest held', Visit endpoints limit packets place held (log ++ rest) held' := by
  cases front with
  | resting => exact .inl rfl
  | starting admitted =>
    refine .inr ?_
    cases held with
    | none => exact ⟨_, _, .unreached admitted⟩
    | some channel => exact ⟨_, _, .failed admitted .reused []⟩
  | @dialling _ refused untried admitted _ _ empty order =>
    subst empty order
    have visit : Visit (refused ++ untried) limit packets place none _ none := .unreached admitted
    refine .inr ⟨untried.map (.refused place) ++ [.failed place], none, ?_⟩
    simpa using visit
  | busy admitted _ opens portions => exact .inr ⟨_, _, .failed admitted opens portions⟩

theorem Front.kept_of_nil (front : Front endpoints limit packets place w held log)
    (none : log = []) : w.connection.map (·.channel) = held := by
  cases front with
  | resting _ kept => exact kept
  | starting | dialling | busy => cases none

theorem Front.exhausted (front : Front endpoints limit packets place w held log)
    (all : log = .judged place none :: .connecting place :: endpoints.map (.refused place)) :
    ∃ frame, w.phase = .exchanging place frame (.dialling []) := by
  cases front with
  | resting => cases all
  | starting => cases all
  | @dialling frame refused untried _ phase _ _ order =>
    have lengths := congrArg List.length all
    subst order
    have none : untried = [] := by simpa using lengths
    exact ⟨frame, none ▸ phase⟩
  | @busy _ line _ _ _ _ opens =>
    cases opens with
    | reused => simp at all
    | @dialled refused endpoint =>
      have accepted :
          Observation.accepted place endpoint line.channel ∈ endpoints.map (.refused place) := by
        have tails := List.tail_eq_of_cons_eq (List.tail_eq_of_cons_eq all)
        rw [← tails]
        simp
      obtain ⟨_, -, same⟩ := List.mem_map.mp accepted
      cases same

theorem Opens.connecting_iff (opens : Opens endpoints place held opening channel) :
    .connecting place ∈ opening ↔ held = none := by
  cases opens with
  | reused => simp
  | dialled => simp

theorem Visit.connecting_iff (visit : Visit endpoints limit packets place held log held') :
    .connecting place ∈ log ↔ Admitted limit packets place ∧ held = none := by
  have unwritten (channel : Nat) (portions : List Bytes) :
      Observation.connecting place ∉ Observation.portions channel place portions := by
    simp [Observation.portions]
  cases visit with
  | rejected packet bad =>
    have refused : ¬ Admitted limit packets place := by
      rintro ⟨p, packet', good⟩
      obtain rfl := Option.some.inj (packet.symm.trans packet')
      cases good.symm.trans bad
    simp [refused]
  | unreached admitted | spoiled admitted => simp [admitted]
  | failed admitted opens portions =>
    simp [admitted, opens.connecting_iff, unwritten, Observation.failed]
  | answered admitted opens portions reply =>
    simp [admitted, opens.connecting_iff, unwritten, Observation.answered]

namespace HostedWorker

variable {s t : HostedWorker} {acts : List Act} {act : Act} {writes : List Write}
  {sends : List Send}
  {config : Config} {cluster : Cluster}

/-- The connection that the worker can use was accepted. -/
theorem Transmitting.opened (h : s.Transmitting limit cluster acts writes sends)
    (hlink : link ∈ s.worker.links) : link.channel ∈ Act.channels acts := by
  have wireInvariant := h.traffic.wireInvariant
  rcases h.sole.wire_of_links hlink with wire | ⟨_, _, _, wire⟩
  · rw [wire] at wireInvariant
    cases wireInvariant with
    | free _ clear => exact (clear _ rfl).opened
  · rw [wire] at wireInvariant
    generalize line : link.line = used at wireInvariant
    cases wireInvariant with
    | @busy _ x _ _ _ clear =>
      have same : link.channel = x.channel := congrArg Line.channel line
      exact same ▸ clear.opened

theorem link_of_exchange? {x : Exchange} (h : w.exchange? turn = some x) : x.link ∈ w.links := by
  unfold Worker.exchange? at h
  split at h
  · next phase _ =>
    obtain ⟨link, linked, rfl⟩ := Option.map_eq_some_iff.mp h
    rw [Worker.links_exchanging phase, linked]
    exact List.mem_cons_self
  · cases h

theorem Watched.moves (run : (start config cluster endpoints).Watched acts log s) :
    ∃ moves history done, Worker.Run (.start config cluster endpoints) moves history done s.worker ∧
      ∀ x ∈ history, x.link.channel ∈ Act.channels acts := by
  induction run with
  | nil => exact ⟨[], [], [], .nil, nofun⟩
  | @snoc acts log t act u run fresh goes ih =>
    obtain ⟨moves, history, done, worker, opened⟩ := ih
    have still : ∀ x ∈ history, x.link.channel ∈ Act.channels (acts ++ [act]) :=
      fun x hx => Act.channels_subset acts act (opened x hx)
    cases steps_of_after goes with
    | @work op turn worked =>
      obtain ⟨sends, transmitting⟩ := run.transmits.transmitting
      refine ⟨_, _, _, worker.snoc ?_ worked, ?_⟩
      · rintro channel accepts x hx rfl
        cases op with
        | hear event =>
          obtain rfl := Move.hear.inj accepts
          exact fresh _ rfl (opened x hx)
        | _ => cases accepts
      · refine List.forall_mem_append.mpr ⟨still, fun x hx => ?_⟩
        have used := link_of_exchange? (Option.mem_toList.mp hx)
        exact Act.channels_subset acts _ (transmitting.opened used)
    | submit => exact ⟨moves ++ [.push t.hold.length], _, _, worker.still nofun rfl rfl, still⟩
    | request => exact ⟨moves ++ [.request], _, _, worker.still nofun rfl rfl, still⟩
    | notify => exact ⟨moves ++ [.notify], _, _, worker.still nofun rfl rfl, still⟩
    | hangUp => exact ⟨moves ++ [.hangUp], _, _, worker.still nofun rfl rfl, still⟩
    | join | call => exact ⟨_, _, _, worker, still⟩

theorem Steps.serving (steps : s.Steps act t) (serving : t.host = .serving) :
    s.host = .serving := by
  cases steps with
  | submit host => exact host
  | work | call => exact serving
  | request | notify | hangUp | join => cases serving

theorem Agreed.serves (h : s.Agreed) (serving : s.host = .serving) : s.worker.Serves where
  unasked := by rw [h.requested, serving, Host.hasRequested]
  unnoticed := by
    refine Bool.eq_false_iff.mpr fun notice => ?_
    have notified := h.permit notice
    rw [serving] at notified
    cases notified
  isOpen := by
    rw [h.isOpen, serving]
    rfl

/-- The packets end in the order of their places. -/
theorem Accounted.head (h : s.Accounted) (pending : s.worker.pending = first :: rest) :
    first = s.ended.length := by
  have places := h.places
  rw [pending] at places
  have here : (List.range s.hold.length)[s.ended.length]? = some first := by
    rw [← places, List.getElem?_append_right (by simp)]
    simp
  have range := List.getElem?_eq_some_iff.mp here
  obtain ⟨_, same⟩ := range
  simpa using same.symm

theorem Watched.endpoints_eq (run : (start config cluster endpoints).Watched acts log s) :
    s.worker.endpoints = endpoints := by
  induction run with
  | nil => rfl
  | snoc run fresh goes ih =>
    cases steps_of_after goes with
    | work worked => exact (Worker.endpoints_of_after worked).trans ih
    | submit | request | notify | hangUp | join | call => exact ih

theorem Watched.inService (run : (start config cluster endpoints).Watched acts log s)
    (serving : s.host = .serving) : s.worker.InService endpoints config.maxPayload
      (Act.packets acts) s.ended.length s.hold := by
  obtain ⟨sends, transmitting⟩ := run.transmits.transmitting
  obtain ⟨moves, history, settled, worker, -⟩ := run.moves
  have accounted := transmitting.invariant.accounted
  refine ⟨transmitting.invariant.agreed.serves serving, run.endpoints_eq,
    transmitting.fromAccepted.limit_eq, transmitting.sole, fun _ _ => accounted.head, ?_,
    transmitting.fromAccepted.held, fun _ _ _ => worker.fills⟩
  intro place phase
  exact accounted.live place (Worker.pending_holding phase ▸ List.mem_cons_self)

/-- The log is made of visits, and of the beginning of one more. -/
theorem Watched.visits (run : (start config cluster endpoints).Watched acts log s)
    (serving : s.host = .serving) : ∃ done held front, log = done ++ front ∧
      Visits endpoints config.maxPayload (Act.packets acts) s.ended.length done held ∧
      Front endpoints config.maxPayload (Act.packets acts) s.ended.length s.worker held front := by
  induction run with
  | nil => exact ⟨[], none, [], rfl, .nil, .resting nofun rfl⟩
  | @snoc acts log t act u run fresh goes ih =>
    have steps := steps_of_after goes
    have serving' := steps.serving serving
    obtain ⟨done, held, front, rfl, visits, now⟩ := ih serving'
    cases steps with
    | submit =>
      rw [Act.packets_snoc]
      exact ⟨done, held, front, List.append_nil _, visits.append _, now.push _ _⟩
    | request | notify | hangUp | join => cases serving
    | call first =>
      rw [Act.packets_snoc_none _ rfl, ended_tell first]
      exact ⟨done, held, front, List.append_nil _, visits, now⟩
    | @work op turn worked =>
      have advances := now.after (run.inService serving') worked
      rw [Act.packets_snoc_none _ rfl, observations_work worked]
      cases advances with
      | onward quiet further =>
        have ended : (t.proceed op turn).ended = t.ended := by
          rw [ended_proceed, quiet, List.map_nil, List.append_nil]
        rw [ended]
        exact ⟨done, held, _, List.append_assoc _ _ _, visits, further⟩
      | finished last visit still kept =>
        -- what was seen of this packet is now a whole visit, and nothing is seen of the next
        have ended : (t.proceed op turn).ended.length = t.ended.length + 1 := by
          rw [ended_proceed, last]
          simp
        rw [ended]
        refine ⟨_, _, [], ?_, visits.snoc visit, .resting still kept⟩
        rw [List.append_nil, List.append_assoc]
        rfl

end HostedWorker

end Courier.Forward
