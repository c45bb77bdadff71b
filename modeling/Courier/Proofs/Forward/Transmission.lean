import Courier.Proofs.Forward.Traffic

/-!
# What the peers see

A run of the worker and its host is also a list of the bytes that the connections took. In every
run these are requests of accepted packets, and no request is written twice
(`Transmits.transmission`).
-/

namespace Courier.Forward

open Courier.Frame (Kind Request Decoder)

namespace HostedWorker

def write? (s : HostedWorker) : Act → Option Write
  | .work op => s.worker.write? op
  | _ => none

/-- Any steps in any order, with all that is written. Each connection gets a channel of its own
when it is accepted. -/
inductive Transmits (s : HostedWorker) : List Act → List Write → HostedWorker → Prop
  | nil : Transmits s [] [] s
  | snoc {acts writes t act u} (run : Transmits s acts writes t)
      (fresh : ∀ channel, act.channel? = some channel → channel ∉ Act.channels acts)
      (goes : t.after act = some u) :
      Transmits s (acts ++ [act]) (writes ++ (t.write? act).toList) u

variable {s t u : HostedWorker} {acts : List Act} {act : Act} {writes : List Write}
  {sends : List Send}
  {limit : UInt32} {cluster : Cluster} {op : WorkerOp} {turn : Worker.Turn}

theorem Transmits.run (run : s.Transmits acts writes t) : s.Run acts t := by
  induction run with
  | nil => exact .nil
  | snoc run fresh goes ih => exact ih.snoc goes

-- ---------------------------------------------------------------------------
-- The request under way
-- ---------------------------------------------------------------------------

/-- The packets that are held are those that were accepted, and the frame of an exchange is made
from the packet in its place. -/
structure FromAccepted (limit : UInt32) (cluster : Cluster) (packets : List Packet)
    (s : HostedWorker) : Prop where
  limit_eq : s.worker.limit = limit
  cluster_eq : s.worker.cluster = cluster
  count : s.hold.length = packets.length
  held : ∀ place p, s.hold.packet? place = some p → packets[place]? = some p
  posed : ∀ place frame stage, s.worker.phase = .exchanging place frame stage →
    ∃ request, Posed limit cluster packets place request ∧
      frame = Kind.request.written request

theorem posed_of_frame? {w : Worker} {p : Packet} (hframe : w.frame? p = .ok frame)
    (hp : packets[place]? = some p) : ∃ request,
      Posed w.limit w.cluster packets place request ∧
        frame = Kind.request.written request := by
  simp only [Worker.frame?, bind, Except.bind] at hframe
  split at hframe
  · cases hframe
  · next payload hpayload =>
    split at hframe
    · next made hencode =>
      obtain rfl := Except.ok.inj hframe
      have written : Kind.request.encode _ _ = .ok _ := hencode
      obtain ⟨-, rfl⟩ := Kind.encode_eq_ok_iff.mp written
      exact ⟨_, ⟨p, payload, hp, hpayload, rfl, hencode⟩, rfl⟩
    · cases hframe

theorem packet?_of_set {h : Hold} (held : Hold.packet? (h.set other none) place = some p) :
    h.packet? place = some p := by
  by_cases same : other = place
  · subst same
    rcases Nat.lt_or_ge other h.length with hlt | hge
    · simp [Hold.packet?, hlt] at held
    · have hnone : (h.set other none)[other]? = none :=
        List.getElem?_eq_none (by rwa [List.length_set])
      simp [Hold.packet?, hnone] at held
  · rwa [packet?_set_of_ne same] at held

theorem FromAccepted.submit (h : s.FromAccepted limit cluster packets) (p : Packet) :
    (s.submit p).FromAccepted limit cluster (packets ++ [p]) where
  limit_eq := h.limit_eq
  cluster_eq := h.cluster_eq
  count := by simp [HostedWorker.submit, h.count]
  held := by
    intro place q hq
    rcases Nat.lt_trichotomy place s.hold.length with hlt | rfl | hgt
    · rw [List.getElem?_append_left (h.count ▸ hlt)]
      refine h.held place q ?_
      simpa [HostedWorker.submit, Hold.packet?, List.getElem?_append_left hlt] using hq
    · rw [h.count, List.getElem?_concat_length]
      simpa [HostedWorker.submit, Hold.packet?] using hq
    · have hnone : (s.hold ++ [some p])[place]? = none :=
        List.getElem?_eq_none (by simpa using Nat.succ_le_of_lt hgt)
      simp [HostedWorker.submit, Hold.packet?, hnone] at hq
  posed := by
    intro place frame stage phase
    obtain ⟨request, posed, made⟩ := h.posed place frame stage phase
    exact ⟨request, posed.append [p], made⟩

theorem FromAccepted.proceed (h : s.FromAccepted limit cluster packets)
    (goes : s.worker.after (op.move s.hold) = some turn) :
    (s.proceed op turn).FromAccepted limit cluster packets := by
  rcases Worker.after_exchanging goes with same | ⟨place, hold, p, frame, hmove, -, hp, hframe, rfl⟩
  · refine ⟨same.limit.trans h.limit_eq, same.cluster.trans h.cluster_eq, h.count, h.held, ?_⟩
    intro place frame stage phase
    obtain ⟨before, hbefore⟩ := same.exchanging phase
    exact h.posed place frame before hbefore
  · refine ⟨h.limit_eq, h.cluster_eq, h.count, h.held, ?_⟩
    rintro _ _ _ ⟨⟩
    obtain rfl : s.hold = hold := by cases op <;> cases hmove; rfl
    obtain ⟨request, posed, made⟩ := posed_of_frame? hframe (h.held place p hp)
    exact ⟨request, h.limit_eq ▸ h.cluster_eq ▸ posed, made⟩

theorem FromAccepted.call (h : s.FromAccepted limit cluster packets) (c : Call) (rest : List Call) :
    (s.tell c rest).FromAccepted limit cluster packets :=
  { h with
    count := by simp [tell, h.count]
    held := fun place p held => h.held place p (packet?_of_set held) }

theorem FromAccepted.step (h : s.FromAccepted limit cluster packets) (steps : s.Steps act t) :
    t.FromAccepted limit cluster (packets ++ act.packet?.toList) := by
  cases steps with
  | submit => exact h.submit _
  | request | notify | hangUp | join => simpa [Act.packet?] using { h with }
  | work goes => simpa [Act.packet?] using h.proceed goes
  | call => simpa [Act.packet?] using h.call _ _

-- ---------------------------------------------------------------------------
-- Steps
-- ---------------------------------------------------------------------------

variable {sends : List Send}

/-- While a packet is exchanged all before it have ended. -/
theorem Accounted.lt_of_exchanging (h : s.Accounted)
    (phase : s.worker.phase = .exchanging place frame stage) : ∀ c ∈ s.ended, c.place < place := by
  intro c hc
  have hsorted : (s.ended.map (·.place) ++ s.worker.pending).Pairwise (· < ·) :=
    h.places ▸ List.pairwise_lt_range
  refine (List.pairwise_append.mp hsorted).2.2 c.place (List.mem_map_of_mem hc) place ?_
  exact Worker.pending_exchanging phase ▸ List.mem_cons_self

theorem mem_ended_of_opStep (opStep : s.worker.OpStep op turn)
    (phase : s.worker.phase = .exchanging place frame stage)
    (finished : ∀ place frame stage, turn.1.phase ≠ .exchanging place frame stage) :
    place ∈ (s.proceed op turn).ended.map (·.place) := by
  cases opStep with
  | quiet _ _ _ _ phaseStep =>
    obtain ⟨next, going⟩ := phaseStep.exchanging phase
    exact absurd going (finished _ _ _)
  | ended _ pending =>
    obtain ⟨rfl, -⟩ := List.cons.inj ((Worker.pending_exchanging phase).symm.trans pending)
    rw [ended_proceed]
    exact List.mem_map_of_mem (List.mem_append_right _ List.mem_cons_self)

theorem phase_of_reply? {w : Worker} (h : w.reply? op = some reply) :
    ∃ place frame link, w.phase = .exchanging place frame (.body link 0) := by
  unfold Worker.reply? at h
  split at h
  · split at h
    · next phase => exact ⟨_, _, _, phase⟩
    · cases h
  · cases h

/-- A packet that ends by a reply was sent to its end. -/
theorem whole_of_replied (opStep : s.worker.OpStep op turn)
    (traffic : Traffic limit cluster acts s.ended writes s.worker.wire sends) :
    ∀ c ∈ turn.2.map (Call.of (s.worker.reply? op)), c.reply.isSome →
      ∃ x ∈ sends, x.place = c.place ∧ x.Whole := by
  intro c hc replied
  cases opStep with
  | quiet => cases hc
  | @ended v place outcome result _ pending =>
    obtain rfl := List.mem_singleton.mp hc
    obtain ⟨reply, hreply⟩ := Option.isSome_iff_exists.mp replied
    obtain ⟨_, frame, link, phase⟩ := phase_of_reply? hreply
    obtain ⟨rfl, -⟩ := List.cons.inj (pending.symm.trans (Worker.pending_exchanging phase))
    have hwire : s.worker.wire = .busy place frame link.line [] := by
      simp only [Worker.wire, phase]
    exact Traffic.whole (hwire ▸ traffic)

/-- The invariant of a run with what it has written. -/
structure Transmitting (limit : UInt32) (cluster : Cluster) (acts : List Act) (writes : List Write)
    (sends : List Send) (s : HostedWorker) : Prop where
  invariant : s.Invariant
  fromAccepted : s.FromAccepted limit cluster (Act.packets acts)
  sole : s.worker.Sole
  traffic : Traffic limit cluster acts s.ended writes s.worker.wire sends

theorem Transmitting.work (h : s.Transmitting limit cluster acts writes sends)
    (fresh : ∀ channel, (Act.work op).channel? = some channel → channel ∉ Act.channels acts)
    (goes : s.worker.after (op.move s.hold) = some turn) :
    ∃ sends, Traffic limit cluster (acts ++ [.work op]) (s.proceed op turn).ended
      (writes ++ (s.worker.write? op).toList) turn.1.wire sends := by
  have opStep := h.invariant.accounted.opStep goes
  have invariant := h.invariant.step (.work goes)
  have fromAccepted := h.fromAccepted.step (.work goes)
  have traffic := h.traffic.mono (.work op) (whole_of_replied opStep h.traffic)
  rw [← ended_proceed] at traffic
  cases (h.sole.wires_of_after goes).1 with
  | same silent wire =>
    rw [wire, silent, Option.toList_none, List.append_nil]
    exact ⟨sends, traffic⟩
  | @began place frame kept line silent before source wire =>
    rw [wire, silent, Option.toList_none, List.append_nil]
    rw [before] at traffic
    obtain ⟨stage, phase⟩ := Worker.phase_of_wire wire
    obtain ⟨request, posed, rfl⟩ := fromAccepted.posed _ _ _ phase
    have clear : Clear (Act.channels (acts ++ [.work op])) sends line := by
      rcases source with rfl | ⟨channel, rfl, rfl⟩
      · cases traffic.wireInvariant with
        | free _ clear => exact clear line rfl
      · refine h.traffic.clear_of_fresh (fresh channel rfl) ?_
        simp [Act.channels, Act.channel?]
    rw [← Act.packets_snoc] at posed
    exact ⟨_, traffic.begin clear posed (invariant.accounted.lt_of_exchanging phase)⟩
  | @wrote place frame line unsent count before writes wire =>
    rw [wire, writes]
    rw [before] at traffic
    exact traffic.write count
  | kept silent before wire finished =>
    rw [wire, silent, Option.toList_none, List.append_nil]
    rw [before] at traffic
    obtain ⟨stage, phase⟩ := Worker.phase_of_wire before
    refine ⟨sends, traffic.keep (mem_ended_of_opStep opStep phase ?_)⟩
    simp [finished]
  | lost silent wire finished =>
    rw [wire, silent, Option.toList_none, List.append_nil]
    refine ⟨sends, traffic.lose ?_⟩
    intro place frame line unsent before
    obtain ⟨stage, phase⟩ := Worker.phase_of_wire before
    refine mem_ended_of_opStep opStep phase ?_
    rcases finished with finished | finished <;> simp [finished]

theorem Transmitting.step (h : s.Transmitting limit cluster acts writes sends)
    (fresh : ∀ channel, act.channel? = some channel → channel ∉ Act.channels acts)
    (steps : s.Steps act t) : ∃ sends,
      t.Transmitting limit cluster (acts ++ [act]) (writes ++ (s.write? act).toList) sends := by
  have invariant := h.invariant.step steps
  have fromAccepted := h.fromAccepted.step steps
  rw [← Act.packets_snoc] at fromAccepted
  have stays : Traffic limit cluster (acts ++ [act]) s.ended (writes ++ []) s.worker.wire
      sends := by
    have mono : Traffic _ _ _ (s.ended ++ []) _ _ _ := h.traffic.mono act nofun
    simpa using mono
  cases steps with
  | work goes =>
    obtain ⟨sends, traffic⟩ := h.work fresh goes
    exact ⟨sends, invariant, fromAccepted, (h.sole.wires_of_after goes).2, traffic⟩
  | call first => exact ⟨sends, invariant, fromAccepted, h.sole, ended_tell first ▸ stays⟩
  | submit | request | notify | hangUp | join =>
    exact ⟨sends, invariant, fromAccepted, h.sole, stays⟩

-- ---------------------------------------------------------------------------
-- Runs
-- ---------------------------------------------------------------------------

variable {config : Config} {endpoints : List Address.Endpoint}

theorem transmitting_start : (start config cluster endpoints).Transmitting config.maxPayload cluster
    [] [] [] where
  invariant := invariant_start
  fromAccepted := ⟨rfl, rfl, rfl, nofun, nofun⟩
  sole := nofun
  traffic := ⟨rfl, .nil, nofun, nofun, .free nofun nofun⟩

theorem Transmits.transmitting (run : (start config cluster endpoints).Transmits acts writes s) :
    ∃ sends, s.Transmitting config.maxPayload cluster acts writes sends := by
  induction run with
  | nil => exact ⟨[], transmitting_start⟩
  | snoc run fresh goes ih =>
    obtain ⟨sends, h⟩ := ih
    exact h.step fresh (steps_of_after goes)

theorem Transmitting.written (h : s.Transmitting limit cluster acts writes sends)
    (hlink : link ∈ s.worker.links) : link.written = bytesOn link.channel writes := by
  have hsent : link.sent = portionsOn link.channel sends := by
    have wireInvariant := h.traffic.wireInvariant
    rcases h.sole.wire_of_links hlink with hwire | ⟨place, frame, unsent, hwire⟩
    · exact WireInvariant.sent_kept (hwire ▸ wireInvariant)
    · exact WireInvariant.sent_busy (hwire ▸ wireInvariant)
  rw [h.traffic.writes_eq, bytesOn_flatMap, ← hsent]
  rfl

/-- Whatever the host, the worker and the peers do: what was written is requests of accepted and
valid packets, in the order of submission and for no packet twice. A packet that ended by a reply
had its request written to its end. A peer gets whole requests, and at most the front of one more
behind them, and takes the whole ones off again. -/
theorem Transmits.transmission (run : (start config cluster endpoints).Transmits acts writes s) :
    ∃ sends : List Send, writes = sends.flatMap Send.writes ∧
      (sends.map (·.place)).Pairwise (· < ·) ∧
      (∀ x ∈ sends, x.Due config.maxPayload cluster acts) ∧
      (∀ c ∈ s.ended, c.reply.isSome → ∃ x, sends.filter (·.place == c.place) = [x] ∧ x.Whole) ∧
      (∀ channel, ∃ whole cut, Delivered config.maxPayload (sends.filter (·.channel == channel))
        (bytesOn channel writes) whole cut) ∧
      ∀ link ∈ s.worker.links, link.written = bytesOn link.channel writes := by
  obtain ⟨sends, h⟩ := run.transmitting
  refine ⟨sends, h.traffic.writes_eq, ?_, h.traffic.due, ?_, h.traffic.delivered,
    fun link => h.written⟩
  · exact List.pairwise_map.mpr (h.traffic.order.imp And.left)
  · intro c hc replied
    obtain ⟨x, hx, hplace, whole⟩ := h.traffic.answered c hc replied
    exact ⟨x, hplace ▸ h.traffic.filter_place hx, whole⟩

def track (s : HostedWorker) : List Act → Option (List Write × HostedWorker)
  | [] => some ([], s)
  | act :: acts => do
    let t ← s.after act
    let (writes, last) ← t.track acts
    return ((s.write? act).toList ++ writes, last)

theorem Transmits.follow {more : List Act} {new : List Write} (run : s.Transmits acts writes t)
    (fresh : (Act.channels (acts ++ more)).Nodup) (goes : t.track more = some (new, u)) :
    s.Transmits (acts ++ more) (writes ++ new) u := by
  induction more generalizing acts writes t new with
  | nil =>
    obtain ⟨rfl, rfl⟩ := Prod.mk.inj (Option.some.inj goes)
    simpa using run
  | cons act more ih =>
    simp only [track, Option.bind_eq_bind, Option.bind_eq_some_iff, Prod.exists] at goes
    obtain ⟨v, hfirst, later, last, hrest, hpair⟩ := goes
    obtain ⟨rfl, rfl⟩ := Prod.mk.inj (Option.some.inj hpair)
    rw [List.append_cons, ← List.append_assoc]
    exact ih (run.snoc (Act.fresh_of_nodup fresh) hfirst) (List.append_cons acts act more ▸ fresh)
      hrest

/-- The first connection breaks after five bytes. The second packet is sent on another one and
answered, and of the third the same peer gets seven bytes. -/
def brokenOnce : List Act :=
  [.submit {}, .submit { data := some [1, 2, 3], dataSize := 3 }, .submit { tag := 5 },
    .work .receive, .work .inspect, .work .progress, .work (.hear (.accepted 0)),
    .work (.hear (.took 5)), .work (.hear .broken), .call, .work .receive, .work .inspect,
    .work .progress, .work (.hear (.accepted 1)), .work (.hear (.took 20)),
    .work (.hear (.took 6)), .work .progress, .work (.hear (.arrived [1, 0, 0, 0, 3])),
    .work .progress, .work .progress, .work .progress, .work .progress, .call, .work .receive,
    .work .inspect, .work .progress, .work (.hear (.took 7))]

theorem transmission_brokenOnce : ∃ writes s,
    (start {} .zero [.v4 .loopback 3001]).Transmits brokenOnce writes s ∧
    writes.map (fun x => (x.channel, x.place, x.bytes.length)) =
      [(0, 0, 5), (1, 1, 20), (1, 1, 6), (1, 2, 7)] ∧
    s.ended.map (fun c => (c.place, c.reply)) = [(0, none), (1, some ⟨3, []⟩)] ∧
    ∃ sends : List Send, writes = sends.flatMap Send.writes ∧
      (sends.map (·.place)).Pairwise (· < ·) ∧
      (∀ x ∈ sends, x.Due ({} : Config).maxPayload .zero brokenOnce) ∧
      (∀ c ∈ s.ended, c.reply.isSome → ∃ x, sends.filter (·.place == c.place) = [x] ∧ x.Whole) ∧
      (∀ channel, ∃ whole cut, Delivered ({} : Config).maxPayload
        (sends.filter (·.channel == channel)) (bytesOn channel writes) whole cut) ∧
      ∀ link ∈ s.worker.links, link.written = bytesOn link.channel writes := by
  have run : (start {} .zero [.v4 .loopback 3001]).Transmits brokenOnce _ _ :=
    Transmits.nil.follow (by decide) rfl
  exact ⟨_, _, run, rfl, rfl, run.transmission⟩

end HostedWorker

end Courier.Forward
