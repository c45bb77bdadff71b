import Courier.Proofs.Forward.Transmission

/-!
# What is seen of the worker

The log of a run says which packets the worker has looked at and what it has found wrong with them,
which endpoints it has tried and what they did, which connection it has used and what was written to
it, and how the packets have ended.
-/

namespace Courier.Forward

open Courier.Frame (Kind)

inductive Observation where
  /-- The packet was looked at. It is sent if there is nothing to refuse it for. -/
  | judged (place : Place) (refusal : Option Outcome)
  | connecting (place : Place)
  | refused (place : Place) (endpoint : Address.Endpoint)
  | accepted (place : Place) (endpoint : Address.Endpoint) (channel : Nat)
  /-- The connection was accepted and failed at once. -/
  | spoiled (place : Place) (endpoint : Address.Endpoint)
  /-- The connection kept from the last exchange was taken. -/
  | reused (place : Place) (channel : Nat)
  | wrote (write : Write)
  | ended (settlement : Settlement) (reply : Option Frame.Reply)
deriving DecidableEq, Repr

namespace Observation

def place : Observation → Place
  | judged place _ => place
  | connecting place => place
  | refused place _ => place
  | accepted place _ _ => place
  | spoiled place _ => place
  | reused place _ => place
  | wrote write => write.place
  | ended settlement _ => settlement.place

def write? : Observation → Option Write
  | wrote write => some write
  | _ => none

def call? : Observation → Option Call
  | ended settlement reply => some (.of reply settlement)
  | _ => none

end Observation

namespace Worker

def refusal? (w : Worker) (p : Packet) : Option Outcome :=
  match w.frame? p with
  | .ok _ => none
  | .error outcome => some outcome

def dialled? (w : Worker) : Option (Place × Address.Endpoint) :=
  match w.phase with
  | .exchanging place _ (.dialling (endpoint :: _)) => some (place, endpoint)
  | _ => none

def observation? (w : Worker) (h : Hold) : WorkerOp → Option Observation
  | .inspect =>
    match w.phase with
    | .holding place =>
      if w.requested then none else (h.packet? place).map fun p => .judged place (w.refusal? p)
    | _ => none
  | .progress =>
    match w.phase with
    | .exchanging place _ .starting =>
      match w.connection with
      | some link => some (.reused place link.channel)
      | none => some (.connecting place)
    | _ => none
  | .hear .refused => w.dialled?.map fun (place, endpoint) => .refused place endpoint
  | .hear (.accepted channel) =>
    w.dialled?.map fun (place, endpoint) => .accepted place endpoint channel
  | .hear .broken => w.dialled?.map fun (place, endpoint) => .spoiled place endpoint
  | op => (w.write? op).map .wrote

inductive Observes (w : Worker) (h : Hold) : WorkerOp → Observation → Prop
  | judged {place p} (phase : w.phase = .holding place) (unasked : w.requested = false)
      (held : h.packet? place = some p) : Observes w h .inspect (.judged place (w.refusal? p))
  | connecting {place frame} (phase : w.phase = .exchanging place frame .starting)
      (unkept : w.connection = none) : Observes w h .progress (.connecting place)
  | reused {place frame link} (phase : w.phase = .exchanging place frame .starting)
      (kept : w.connection = some link) : Observes w h .progress (.reused place link.channel)
  | refused {place frame endpoint untried}
      (phase : w.phase = .exchanging place frame (.dialling (endpoint :: untried))) :
      Observes w h (.hear .refused) (.refused place endpoint)
  | accepted {place frame endpoint untried channel}
      (phase : w.phase = .exchanging place frame (.dialling (endpoint :: untried))) :
      Observes w h (.hear (.accepted channel)) (.accepted place endpoint channel)
  | spoiled {place frame endpoint untried}
      (phase : w.phase = .exchanging place frame (.dialling (endpoint :: untried))) :
      Observes w h (.hear .broken) (.spoiled place endpoint)
  | wrote {place frame link unsent count}
      (phase : w.phase = .exchanging place frame (.sending link unsent)) :
      Observes w h (.hear (.took count)) (.wrote ⟨link.channel, place, unsent.take count⟩)

variable {w : Worker} {op : WorkerOp} {h : Hold} {x : Observation}

theorem phase_of_dialled? {x : Place × Address.Endpoint} (h : w.dialled? = some x) :
    ∃ frame untried,
    w.phase = .exchanging x.1 frame (.dialling (x.2 :: untried)) := by
  unfold dialled? at h
  split at h
  · next phase =>
    cases h
    exact ⟨_, _, phase⟩
  · cases h

theorem observes_of_observation? (seen : w.observation? h op = some x) : w.Observes h op x := by
  unfold observation? at seen
  split at seen
  · split at seen
    · next phase =>
      split at seen
      · cases seen
      · next unasked =>
        obtain ⟨p, held, rfl⟩ := Option.map_eq_some_iff.mp seen
        exact .judged phase (Bool.eq_false_iff.mpr unasked) held
    · cases seen
  · split at seen
    · next phase =>
      split at seen
      · next kept =>
        cases seen
        exact .reused phase kept
      · next unkept =>
        cases seen
        exact .connecting phase unkept
    · cases seen
  · obtain ⟨dialled, hdialled, rfl⟩ := Option.map_eq_some_iff.mp seen
    obtain ⟨frame, untried, phase⟩ := phase_of_dialled? hdialled
    exact .refused phase
  · obtain ⟨dialled, hdialled, rfl⟩ := Option.map_eq_some_iff.mp seen
    obtain ⟨frame, untried, phase⟩ := phase_of_dialled? hdialled
    exact .accepted phase
  · obtain ⟨dialled, hdialled, rfl⟩ := Option.map_eq_some_iff.mp seen
    obtain ⟨frame, untried, phase⟩ := phase_of_dialled? hdialled
    exact .spoiled phase
  · obtain ⟨write, hwrite, rfl⟩ := Option.map_eq_some_iff.mp seen
    obtain ⟨frame, link, unsent, count, phase, rfl, same⟩ := phase_of_write? hwrite
    rw [same]
    exact .wrote phase

inductive Settles (w : Worker) (h : Hold) (op : WorkerOp) : Settlement → Prop
  | stopped {place} (silent : w.reply? op = none) :
      Settles w h op ⟨place, .complete .clientShutdown []⟩
  | refused {place outcome} (seen : w.observation? h op = some (.judged place (some outcome))) :
      Settles w h op ⟨place, .complete outcome []⟩
  | exchanged {place frame stage outcome result} (phase : w.phase = .exchanging place frame stage)
      (fits : result.length ≤ w.limit.toNat) : Settles w h op ⟨place, .complete outcome result⟩

theorem settles_conclude (phase : w.phase = .exchanging place frame (.body link missing)) :
    ∀ x ∈ (w.conclude place link).2, w.Settles h .progress x := by
  intro x hx
  simp only [conclude] at hx
  split at hx
  · obtain rfl := List.mem_singleton.mp hx
    exact .exchanged phase (Nat.zero_le _)
  · next reply used decoded =>
    obtain rfl := List.mem_singleton.mp hx
    have decoded : (Kind.reply.decoder w.limit).decode w.buffer = .ok (reply, used) := decoded
    exact .exchanged phase (Kind.length_payload_of_decode decoded)

theorem EnterOrFail.settles (enterOrFail : w.EnterOrFail place frame turn)
    (phase : w.phase = .exchanging place frame stage) : ∀ x ∈ turn.2, w.Settles h op x := by
  intro x hx
  cases enterOrFail with
  | enter => cases hx
  | fail =>
    obtain rfl := List.mem_singleton.mp hx
    exact .exchanged phase (Nat.zero_le _)

theorem settles_of_after (goes : w.after (op.move h) = some turn) :
    ∀ x ∈ turn.2, w.Settles h op x := by
  cases op with
  | receive =>
    cases moveStep_of_after goes with
    | receive => exact nofun
  | inspect =>
    cases moveStep_of_after goes with
    | @inspect _ place phase =>
      intro x hx
      unfold inspect at hx
      split at hx
      · obtain rfl := List.mem_singleton.mp hx
        exact .stopped rfl
      · next unasked =>
        split at hx
        · cases hx
        · next p held =>
          split at hx
          · next outcome bad =>
            obtain rfl := List.mem_singleton.mp hx
            refine .refused ?_
            simp [observation?, phase, unasked, held, refusal?, bad]
          · cases hx
  | progress =>
    cases moveStep_of_after goes with
    | progress phase progressed =>
      rcases progress_cases progressed with enterOrFail | ⟨link, rfl, rfl⟩
      · exact enterOrFail.settles phase
      · exact settles_conclude phase
  | cut =>
    cases moveStep_of_after goes with
    | cut =>
      intro x hx
      obtain rfl := List.mem_singleton.mp hx
      exact .stopped rfl
  | hear event =>
    cases moveStep_of_after goes with
    | hear =>
      rcases hear_enterOrFail w event with ⟨place, frame, stage, phase, turns⟩ | ⟨connection, same⟩
      · exact turns.settles phase
      · rw [same]
        exact nofun

theorem turn_of_refused (goes : w.after (op.move h) = some turn)
    (seen : w.observation? h op = some (.judged place (some outcome))) :
    turn.2 = [⟨place, .complete outcome []⟩] ∧ w.reply? op = none := by
  generalize hx : Observation.judged place (some outcome) = x at seen
  cases observes_of_observation? seen with
  | @judged other p phase unasked held =>
    obtain ⟨rfl, bad⟩ := Observation.judged.inj hx
    cases moveStep_of_after goes with
    | inspect phase' =>
      cases phase.symm.trans phase'
      unfold refusal? at bad
      split at bad
      · cases bad
      · next refused =>
        cases bad
        simp only [inspect, unasked, held, refused]
        exact ⟨rfl, rfl⟩
  | _ => cases hx

/-- No exchange is begun without a look at its packet. -/
theorem begun_cases (goes : w.after (op.move h) = some turn)
    (phase : turn.1.phase = .exchanging place frame stage) :
    (∃ stage, w.phase = .exchanging place frame stage) ∨
      w.observation? h op = some (.judged place none) := by
  rcases after_exchanging goes with continues |
    ⟨other, hold, p, made, hmove, before, held, good, rfl⟩
  · exact .inl (continues.exchanging phase)
  · obtain ⟨rfl, rfl, -⟩ := Phase.exchanging.inj phase
    cases op with
    | inspect =>
      obtain rfl := Move.inspect.inj hmove
      have unasked : w.requested = false := by
        cases requested : w.requested with
        | false => rfl
        | true => simp [WorkerOp.move, after, before, inspect, requested, settle, enter] at goes
      exact .inr (by simp [observation?, before, unasked, held, refusal?, good])
    | _ => cases hmove

theorem write?_observation? (w : Worker) (h : Hold) (op : WorkerOp) :
    (w.observation? h op).bind Observation.write? = w.write? op := by
  unfold observation?
  split
  · split
    · split
      · rfl
      · cases h.packet? _ <;> rfl
    · rfl
  · split
    · split <;> rfl
    · rfl
  iterate 3
    · cases w.dialled? <;> rfl
  · cases w.write? _ <;> rfl

end Worker

namespace HostedWorker

/-- What is seen of a step: the packet that ends by it comes last. -/
def observations (s : HostedWorker) : Act → List Observation
  | .work op =>
    (s.worker.observation? s.hold op).toList ++
      ((s.worker.after (op.move s.hold)).map (·.2)).elim [] fun done =>
        done.map (Observation.ended · (s.worker.reply? op))
  | _ => []

/-- Any steps in any order, with all that is seen. Each connection gets a channel of its own when it
is accepted. -/
inductive Watched (s : HostedWorker) : List Act → List Observation → HostedWorker → Prop
  | nil : Watched s [] [] s
  | snoc {acts log t act u} (run : Watched s acts log t)
      (fresh : ∀ channel, act.channel? = some channel → channel ∉ Act.channels acts)
      (goes : t.after act = some u) : Watched s (acts ++ [act]) (log ++ t.observations act) u

variable {s t u : HostedWorker} {acts : List Act} {act : Act} {log : List Observation}
  {op : WorkerOp}
  {turn : Worker.Turn}

theorem observations_work (goes : s.worker.after (op.move s.hold) = some turn) :
    s.observations (.work op) = (s.worker.observation? s.hold op).toList ++
      turn.2.map (Observation.ended · (s.worker.reply? op)) := by
  rw [observations, goes]
  rfl

theorem write?_observations (steps : s.Steps act t) :
    (s.observations act).filterMap Observation.write? = (s.write? act).toList := by
  cases steps with
  | @work op turn goes =>
    have none : (turn.2.map (Observation.ended · (s.worker.reply? op))).filterMap
        Observation.write? = [] := by
      rw [List.filterMap_map]
      exact List.filterMap_eq_nil_iff.mpr fun _ _ => rfl
    rw [observations_work goes, List.filterMap_append, none, List.append_nil, filterMap_toList,
      Worker.write?_observation?]
    rfl
  | submit | request | notify | hangUp | join | call => rfl

theorem Watched.transmits (run : s.Watched acts log t) :
    s.Transmits acts (log.filterMap Observation.write?) t := by
  induction run with
  | nil => exact .nil
  | snoc run fresh goes ih =>
    rw [List.filterMap_append, write?_observations (steps_of_after goes)]
    exact ih.snoc fresh goes

theorem ended_step (steps : s.Steps act t) :
    t.ended = s.ended ++ (s.observations act).filterMap Observation.call? := by
  cases steps with
  | @work op turn goes =>
    have none : (s.worker.observation? s.hold op).bind Observation.call? = none := by
      cases seen : s.worker.observation? s.hold op with
      | none => rfl
      | some x => cases Worker.observes_of_observation? seen <;> rfl
    rw [ended_proceed, observations_work goes, List.filterMap_append, filterMap_toList, none,
      List.filterMap_map]
    simp [Function.comp_def, Observation.call?]
  | call first =>
    rw [ended_tell first]
    exact (List.append_nil s.ended).symm
  | submit | request | notify | hangUp | join => exact (List.append_nil s.ended).symm

theorem Watched.ended_eq (run : s.Watched acts log t) :
    t.ended = s.ended ++ log.filterMap Observation.call? := by
  induction run with
  | nil => exact (List.append_nil s.ended).symm
  | snoc run fresh goes ih =>
    rw [ended_step (steps_of_after goes), ih, List.filterMap_append, List.append_assoc]

def watch (s : HostedWorker) : List Act → Option (List Observation × HostedWorker)
  | [] => some ([], s)
  | act :: acts => do
    let t ← s.after act
    let (log, last) ← t.watch acts
    return (s.observations act ++ log, last)

theorem Watched.follow {more : List Act} {new : List Observation} (run : s.Watched acts log t)
    (fresh : (Act.channels (acts ++ more)).Nodup) (goes : t.watch more = some (new, u)) :
    s.Watched (acts ++ more) (log ++ new) u := by
  induction more generalizing acts log t new with
  | nil =>
    obtain ⟨rfl, rfl⟩ := Prod.mk.inj (Option.some.inj goes)
    simpa using run
  | cons act more ih =>
    simp only [watch, Option.bind_eq_bind, Option.bind_eq_some_iff, Prod.exists] at goes
    obtain ⟨v, first, later, last, rest, pair⟩ := goes
    obtain ⟨rfl, rfl⟩ := Prod.mk.inj (Option.some.inj pair)
    rw [List.append_cons, ← List.append_assoc]
    exact ih (run.snoc (Act.fresh_of_nodup fresh) first) (List.append_cons acts act more ▸ fresh)
      rest

end HostedWorker

end Courier.Forward
