import Courier.Proofs.Echo.Dispatch
import Courier.Proofs.Forward.Observations

/-!
# One limit for all sizes

The limit is asked for in four places: when a packet is looked at, when its request is written, when
the length of a reply is read, and when a result is delivered. The first and the third decide, for
both engines; what has passed them is refused in no other place.
-/

namespace Courier

namespace Packet

variable {p : Packet} {limit : UInt32} {payload : Bytes}

def refusal? (p : Packet) (limit : UInt32) : Option Outcome :=
  match p.request limit with
  | .ok _ => none
  | .error outcome => some outcome

theorem refusal?_eq (p : Packet) (limit : UInt32) :
    p.refusal? limit =
      if limit < p.dataSize then some .tooMuchData
      else if p.dataSize ≠ 0 ∧ p.data = none then some .invalidDataSize
      else none := by
  unfold refusal? request
  by_cases large : limit < p.dataSize
  · simp [large]
  · by_cases empty : p.dataSize = 0
    · simp [empty]
    · cases hdata : p.data with
      | none => simp [large, empty]
      | some data => simp [large, empty]

theorem length_of_request (admitted : p.request limit = .ok payload) :
    payload.length ≤ limit.toNat := by
  unfold request at admitted
  split at admitted
  · cases admitted
  · next small =>
    have le : p.dataSize.toNat ≤ limit.toNat := UInt32.le_iff_toNat_le.mp (UInt32.not_lt.mp small)
    split at admitted
    · cases admitted
      exact Nat.zero_le _
    · split at admitted
      · cases admitted
      · cases admitted
        exact Nat.le_trans (List.length_take_le _ _) le

theorem encode_of_request {request : Frame.Request}
    (admitted : p.request limit = .ok request.payload) :
    ∃ frame, request.encode limit = .ok frame := by
  have written : Frame.Kind.request.encode request limit = _ :=
    Frame.Kind.encode_eq_ok_iff.mpr ⟨length_of_request admitted, rfl⟩
  exact ⟨_, written⟩

end Packet

/-- An ending of which a delivery changes neither the outcome nor the result. -/
def Ending.Intact (limit : UInt32) (e : Ending) : Prop :=
  ∃ outcome result, e = .complete outcome result ∧ result.length ≤ limit.toNat ∧
    e.report = ⟨outcome, result⟩

/-- How a packet ends that was looked at. -/
structure Ending.Keeps (limit : UInt32) (p : Packet) (e : Ending) : Prop where
  intact : e.Intact limit
  refused : ∀ outcome, p.refusal? limit = some outcome →
    e.report.outcome = outcome ∧ e.report.pointer = none ∧ e.report.size = 0

variable {limit : UInt32} {p : Packet} {outcome : Outcome} {result : Bytes}

theorem Ending.intact (outcome : Outcome) (fits : result.length ≤ limit.toNat) :
    (Ending.complete outcome result).Intact limit :=
  ⟨outcome, result, rfl, fits, Report.of_fits (Nat.lt_of_le_of_lt fits limit.toNat_lt) outcome⟩

theorem Ending.keeps_refused (bad : p.refusal? limit = some outcome) :
    (Ending.complete outcome []).Keeps limit p where
  intact := Ending.intact outcome (Nat.zero_le _)
  refused other refused := by
    obtain rfl := Option.some.inj (bad.symm.trans refused)
    exact ⟨rfl, rfl, rfl⟩

theorem Ending.keeps_admitted (good : p.refusal? limit = none) (intact : Ending.Intact limit e) :
    e.Keeps limit p where
  intact := intact
  refused other refused := by cases good.symm.trans refused

-- ---------------------------------------------------------------------------
-- Echo
-- ---------------------------------------------------------------------------

theorem Ending.keeps_echo (limit : UInt32) (p : Packet) : (Ending.echo limit p).Keeps limit p := by
  unfold Ending.echo
  cases asked : p.request limit with
  | ok payload =>
    have good : p.refusal? limit = none := by simp only [Packet.refusal?, asked]
    exact Ending.keeps_admitted good (Ending.intact .ok (Packet.length_of_request asked))
  | error outcome =>
    have bad : p.refusal? limit = some outcome := by simp only [Packet.refusal?, asked]
    exact Ending.keeps_refused bad

namespace Echo

def submitted (w : Memory) : List Task → List (PacketId × Packet)
  | [] => []
  | .fill p packet :: tasks => submitted (w.set p packet) tasks
  | .submit p :: tasks => (p, w p) :: submitted w tasks

def Callback.echo (limit : UInt32) (context : UInt64) (x : PacketId × Packet) : Callback :=
  ⟨x.1, context, (Ending.echo limit x.2).report⟩

theorem answers_eq (limit : UInt32) (context : UInt64) (w : Memory) (tasks : List Task) :
    answers limit context w tasks = (submitted w tasks).map (Callback.echo limit context) := by
  induction tasks generalizing w with
  | nil => rfl
  | cons task tasks ih =>
    cases task with
    | fill p packet => exact ih (w.set p packet)
    | submit p =>
      simp only [answers, submitted, List.map_cons, Callback.echo, Ending.report_echo]
      exact congrArg _ (ih w)

theorem callbacks_perform (cluster : Cluster) (endpoints : List Address.Endpoint) (context : UInt64)
    (config : Config) (m : Memory) (tasks : List Task) :
    ((opened m (client cluster endpoints context config .restricted)).perform
        (tasks.map Task.op)).2.callbacks 0 =
      (submitted m tasks).map (.echo config.maxPayload context) := by
  rw [← answers_eq]
  exact (Prompt.perform (prompt_opened m) tasks).1.account.callbacks

variable {m : Memory} {config : Config} {cluster : Cluster} {endpoints : List Address.Endpoint}
  {context : UInt64}

theorem ThreadedClient.Run.callbacks_submitted {x : ThreadedClient}
    (run : Run { system := opened m (client cluster endpoints context config .native) } trace x) :
    x.system.callbacks 0 <+: (submitted m (tasks trace)).map (.echo config.maxPayload context) ∧
      (x.returned = true →
        x.system.callbacks 0 =
          (submitted m (tasks trace)).map (.echo config.maxPayload context)) := by
  obtain ⟨given, awaited, sound, -⟩ := (sound_opened m).run run
  have all : given ++ awaited = answers config.maxPayload context m (tasks trace) := sound.answers
  have callbacks : x.system.callbacks 0 = given := sound.account.callbacks
  rw [← answers_eq, ← all, callbacks]
  refine ⟨List.prefix_append _ _, fun returned => ?_⟩
  rw [(sound.returned returned).2, List.append_nil]

end Echo

-- ---------------------------------------------------------------------------
-- Forwarding
-- ---------------------------------------------------------------------------

namespace Forward

theorem Worker.refusal?_eq (w : Worker) (p : Packet) : w.refusal? p = p.refusal? w.limit := by
  simp only [refusal?, Packet.refusal?, frame?, bind, Except.bind]
  cases asked : p.request w.limit with
  | error outcome => rfl
  | ok payload =>
    let request : Frame.Request :=
      { cluster := w.cluster, operation := p.operation, tag := p.tag, payload }
    have writable : ∃ frame, request.encode w.limit = .ok frame := Packet.encode_of_request asked
    obtain ⟨frame, encoded⟩ := writable
    simp only [request] at encoded
    simp only [encoded]

def Observation.isExchange : Observation → Bool
  | judged .. | ended .. => false
  | _ => true

/-- What the limit has to do with what is seen in a run. -/
inductive Observation.Fair (limit : UInt32) (packets : List Packet)
    (log : List Observation) : Observation → Prop
  | judged {place p} (packet : packets[place]? = some p)
      (refused : ∀ outcome, p.refusal? limit = some outcome →
        .ended ⟨place, .complete outcome []⟩ none ∈ log) :
      Fair limit packets log (.judged place (p.refusal? limit))
  | exchange {x} (kind : x.isExchange = true) (passed : .judged x.place none ∈ log) :
      Fair limit packets log x
  | ended {settlement reply} (intact : settlement.ending.Intact limit)
      (why : (Call.of reply settlement).Stopped ∨ ∃ p, packets[settlement.place]? = some p ∧
        .judged settlement.place (p.refusal? limit) ∈ log ∧
        settlement.ending.Keeps limit p) :
      Fair limit packets log (.ended settlement reply)

variable {packets : List Packet} {log : List Observation} {limit : UInt32}

theorem Observation.Fair.mono (h : Fair limit packets log x) (more : List Packet)
    (new : List Observation) :
    Fair limit (packets ++ more) (log ++ new) x := by
  have kept {place : Place} {p : Packet} (hp : packets[place]? = some p) :
      (packets ++ more)[place]? = some p :=
    (List.getElem?_append_left (List.getElem?_eq_some_iff.mp hp).1).trans hp
  cases h with
  | judged packet refused =>
    exact .judged (kept packet) fun outcome bad => List.mem_append_left _ (refused outcome bad)
  | exchange kind passed => exact .exchange kind (List.mem_append_left _ passed)
  | ended intact why =>
    refine .ended intact (why.imp_right ?_)
    rintro ⟨p, packet, judged, keeps⟩
    exact ⟨p, kept packet, List.mem_append_left _ judged, keeps⟩

theorem Observation.Fair.of_judged {place : Place} {refusal : Option Outcome}
    (h : Fair limit packets log (.judged place refusal)) :
    ∃ p, packets[place]? = some p ∧ refusal = p.refusal? limit := by
  cases h with
  | judged packet => exact ⟨_, packet, rfl⟩
  | exchange kind => cases kind

namespace HostedWorker

variable {s t : HostedWorker} {acts : List Act} {act : Act} {op : WorkerOp} {turn : Worker.Turn}
  {cluster : Cluster}

/-- The packet in an exchange was looked at and not refused. -/
def Passed (log : List Observation) (s : HostedWorker) : Prop :=
  ∀ place frame stage, s.worker.phase = .exchanging place frame stage → .judged place none ∈ log

theorem Passed.work (h : s.Passed log) (goes : s.worker.after (op.move s.hold) = some turn) :
    (s.proceed op turn).Passed (log ++ s.observations (.work op)) := by
  intro place frame stage phase
  rcases Worker.begun_cases goes phase with ⟨stage, before⟩ | seen
  · exact List.mem_append_left _ (h place frame stage before)
  · rw [observations_work goes, seen]
    exact List.mem_append_right _ List.mem_cons_self

theorem fair_observation (passed : s.Passed log)
    (fromAccepted : s.FromAccepted limit cluster packets)
    (goes : s.worker.after (op.move s.hold) = some turn)
    (seen : s.worker.observation? s.hold op = some x) :
    x.Fair limit packets (log ++ s.observations (.work op)) := by
  have busy {x : Observation} {frame stage}
      (phase : s.worker.phase = .exchanging x.place frame stage) (kind : x.isExchange = true) :
      x.Fair limit packets (log ++ s.observations (.work op)) :=
    .exchange kind (List.mem_append_left _ (passed _ _ _ phase))
  cases Worker.observes_of_observation? seen with
  | @judged place p phase unasked held =>
    rw [Worker.refusal?_eq, fromAccepted.limit_eq] at seen ⊢
    refine .judged (fromAccepted.held place p held) fun outcome bad => ?_
    rw [bad] at seen
    obtain ⟨done, silent⟩ := Worker.turn_of_refused goes seen
    rw [observations_work goes, done, silent]
    simp
  | connecting phase => exact busy phase rfl
  | reused phase => exact busy phase rfl
  | refused phase => exact busy phase rfl
  | accepted phase => exact busy phase rfl
  | spoiled phase => exact busy phase rfl
  | wrote phase => exact busy phase rfl

theorem fair_ended {settlement : Settlement} (passed : s.Passed log)
    (fair : ∀ x ∈ log, x.Fair limit packets log)
    (fromAccepted : s.FromAccepted limit cluster packets)
    (goes : s.worker.after (op.move s.hold) = some turn) (ended : settlement ∈ turn.2) :
    Observation.Fair limit packets (log ++ s.observations (.work op))
      (.ended settlement (s.worker.reply? op)) := by
  cases Worker.settles_of_after goes settlement ended with
  | stopped silent =>
    rw [silent]
    exact .ended (Ending.intact _ (Nat.zero_le _)) (.inl ⟨rfl, rfl⟩)
  | @refused place outcome seen =>
    obtain ⟨p, packet, bad⟩ := (fair_observation passed fromAccepted goes seen).of_judged
    refine .ended (Ending.intact _ (Nat.zero_le _)) (.inr ⟨p, packet, ?_, ?_⟩)
    · rw [← bad, observations_work goes, seen]
      exact List.mem_append_right _ List.mem_cons_self
    · exact Ending.keeps_refused bad.symm
  | @exchanged place frame stage outcome result phase fits =>
    have judged := passed _ _ _ phase
    obtain ⟨p, packet, good⟩ := (fair _ judged).of_judged
    rw [fromAccepted.limit_eq] at fits
    refine .ended (Ending.intact _ fits) (.inr ⟨p, packet, ?_, ?_⟩)
    · rw [← good]
      exact List.mem_append_left _ judged
    · exact Ending.keeps_admitted good.symm (Ending.intact _ fits)

theorem fair_work (passed : s.Passed log) (fair : ∀ x ∈ log, x.Fair limit packets log)
    (fromAccepted : s.FromAccepted limit cluster packets)
    (goes : s.worker.after (op.move s.hold) = some turn) :
    ∀ x ∈ s.observations (.work op), x.Fair limit packets (log ++ s.observations (.work op)) := by
  intro x hx
  rw [observations_work goes] at hx
  rcases List.mem_append.mp hx with first | last
  · exact fair_observation passed fromAccepted goes (Option.mem_toList.mp first)
  · obtain ⟨settlement, ended, rfl⟩ := List.mem_map.mp last
    exact fair_ended passed fair fromAccepted goes ended

variable {config : Config} {endpoints : List Address.Endpoint}

theorem Watched.fair (run : (start config cluster endpoints).Watched acts log s) :
    (∀ x ∈ log, x.Fair config.maxPayload (Act.packets acts) log) ∧ s.Passed log := by
  induction run with
  | nil => exact ⟨nofun, nofun⟩
  | @snoc acts log t act u run fresh goes ih =>
    obtain ⟨fair, passed⟩ := ih
    obtain ⟨sends, transmitting⟩ := run.transmits.transmitting
    have old (new : List Observation) : ∀ x ∈ log,
        x.Fair config.maxPayload (Act.packets (acts ++ [act])) (log ++ new) := by
      intro x hx
      rw [Act.packets_snoc]
      exact (fair x hx).mono _ new
    cases steps_of_after goes with
    | @work op turn worked =>
      have new := fair_work passed fair transmitting.fromAccepted worked
      refine ⟨List.forall_mem_append.mpr ⟨old _, ?_⟩, passed.work worked⟩
      rw [Act.packets_snoc_none _ rfl]
      exact new
    | submit | request | notify | hangUp | join | call =>
      exact ⟨List.forall_mem_append.mpr ⟨old _, nofun⟩,
        fun place frame stage phase => List.mem_append_left _ (passed place frame stage phase)⟩

/-- What the limit has to do with a run: what is seen is fair, and a packet that is refused has
no exchange. -/
structure Limited (limit : UInt32) (acts : List Act) (log : List Observation)
    (s : HostedWorker) : Prop where
  fair : ∀ x ∈ log, x.Fair limit (Act.packets acts) log
  refused : ∀ place p outcome, (Act.packets acts)[place]? = some p →
    p.refusal? limit = some outcome → ∀ x ∈ log, x.place = place → x.isExchange = false
  ended : s.ended = log.filterMap Observation.call?
  once : (s.ended.map (·.place)).Nodup

theorem Watched.limited (run : (start config cluster endpoints).Watched acts log s) :
    s.Limited config.maxPayload acts log where
  fair := run.fair.1
  refused place p outcome packet bad x hx hplace := by
    have fair := run.fair.1
    cases fair x hx with
    | judged | ended => rfl
    | exchange kind passed =>
      obtain ⟨q, packet', good⟩ := (fair _ passed).of_judged
      rw [hplace, packet] at packet'
      obtain rfl := Option.some.inj packet'
      cases good.trans bad
  ended := run.ended_eq
  once := by
    obtain ⟨sends, transmitting⟩ := run.transmits.transmitting
    exact (List.nodup_append.mp transmitting.invariant.accounted.nodup).1

end HostedWorker

end Forward

/-- Whatever the limit, all that ask for it agree. A packet is refused for its size or for its
missing data by either engine, without an exchange and with nothing for a result, and what is not
refused can be written. Whatever the peers answer, no result is larger than the limit, and each is
delivered as it is. -/
theorem limits_agree (config : Config) (cluster : Cluster) (endpoints : List Address.Endpoint)
    (context : UInt64) (m : Memory) :
    (∀ p : Packet, p.refusal? config.maxPayload =
      if config.maxPayload < p.dataSize then some .tooMuchData
      else if p.dataSize ≠ 0 ∧ p.data = none then some .invalidDataSize
      else none) ∧
    (∀ (p : Packet) (request : Frame.Request), p.request config.maxPayload = .ok request.payload →
      ∃ frame, request.encode config.maxPayload = .ok frame) ∧
    (∀ (w : Forward.Worker) p, w.refusal? p = p.refusal? w.limit) ∧
    (∀ acts log s, (Forward.HostedWorker.start config cluster endpoints).Watched acts log s →
      s.Limited config.maxPayload acts log) ∧
    (∀ p, (Ending.echo config.maxPayload p).Keeps config.maxPayload p) ∧
    (∀ tasks, ((Echo.opened m (Echo.client cluster endpoints context config .restricted)).perform
        (tasks.map Echo.Task.op)).2.callbacks 0 =
      (Echo.submitted m tasks).map (.echo config.maxPayload context)) ∧
    ∀ trace (x : Echo.ThreadedClient), Echo.ThreadedClient.Run
        { system := Echo.opened m (Echo.client cluster endpoints context config .native) } trace x →
      x.system.callbacks 0 <+: (Echo.submitted m (Echo.ThreadedClient.tasks trace)).map
          (.echo config.maxPayload context) ∧
        (x.returned = true →
          x.system.callbacks 0 = (Echo.submitted m (Echo.ThreadedClient.tasks trace)).map
            (.echo config.maxPayload context)) := by
  refine ⟨?refused, ?written, ?forwarder, ?forwarding, ?echoed, ?inline, ?threaded⟩
  case refused => exact fun p => p.refusal?_eq config.maxPayload
  case written => exact fun _ _ => Packet.encode_of_request
  case forwarder => exact fun w p => w.refusal?_eq p
  case forwarding => exact fun _ _ _ run => run.limited
  case echoed => exact Ending.keeps_echo config.maxPayload
  case inline => exact Echo.callbacks_perform cluster endpoints context config m
  case threaded => exact fun _ _ run => run.callbacks_submitted

/-- Of three packets one is too large and one has no data. -/
def oneAdmitted : List Forward.Act :=
  [.submit { data := some [1, 2, 3], dataSize := 3 }, .submit { dataSize := 1 },
    .submit { data := some [9], dataSize := 1 }, .work .receive, .work .inspect, .call,
    .work .receive, .work .inspect, .call, .work .receive, .work .inspect, .work .progress,
    .work (.hear (.accepted 0)), .work (.hear (.took 24)), .work .progress,
    .work (.hear (.arrived [3, 0, 0, 0, 0, 9, 8])), .work .progress, .work .progress,
    .work .progress, .work .progress, .call]

def twoBytes : Config := { maxPayload := 2 }

theorem limits_agree_oneAdmitted :
    (∃ log s,
      (Forward.HostedWorker.start twoBytes .zero [.v4 .loopback 3001]).Watched oneAdmitted log s ∧
      s.calls.map (·.report) = [⟨.tooMuchData, []⟩, ⟨.invalidDataSize, []⟩, ⟨.ok, [9, 8]⟩] ∧
      log.map (fun x => (x.place, x.isExchange)) = [(0, false), (0, false), (1, false), (1, false),
        (2, false), (2, true), (2, true), (2, true), (2, false)] ∧
      s.Limited twoBytes.maxPayload oneAdmitted log) ∧
    ∃ trace x, Echo.ThreadedClient.Run
        { system := Echo.opened (fun _ => {}) (Echo.client .zero [] 7 twoBytes .native) } trace x ∧
      x.system.callbacks 0 = [⟨3, 7, ⟨.tooMuchData, []⟩⟩] ∧
      x.system.callbacks 0 <+:
        (Echo.submitted (fun _ => {}) (Echo.ThreadedClient.tasks trace)).map
          (.echo twoBytes.maxPayload 7) := by
  obtain ⟨-, -, -, limited, -⟩ := limits_agree twoBytes .zero [.v4 .loopback 3001] 7 fun _ => {}
  obtain ⟨-, -, -, -, -, -, answered⟩ := limits_agree twoBytes .zero [] 7 fun _ => {}
  have run :
      (Forward.HostedWorker.start twoBytes .zero [.v4 .loopback 3001]).Watched oneAdmitted _ _ :=
    Forward.HostedWorker.Watched.nil.follow (by decide) rfl
  have given : Echo.ThreadedClient.Run
      { system := Echo.opened (fun _ => {}) (Echo.client .zero [] 7 twoBytes .native) } _ _ :=
    ((((Echo.ThreadedClient.Run.nil.snoc
      (.task (.fill 3 { data := some [1, 2, 3], dataSize := 3 }) rfl rfl)).snoc
      (.task (.submit 3) rfl rfl)).snoc (.receive rfl rfl rfl)).snoc (.copy rfl rfl rfl)).snoc
      (.deliver rfl)
  exact ⟨⟨_, _, run, rfl, rfl, limited _ _ _ run⟩, _, _, given, rfl, (answered _ _ given).1⟩

end Courier
