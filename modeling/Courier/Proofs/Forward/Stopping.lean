import Courier.Proofs.Forward.HostedWorker
import Courier.Proofs.Forward.Written

/-!
# Stops

A host that stops the worker is told of every packet once, in the order in which it submitted
them. What the stop itself has ended comes last and brings no results, and of those packets
only the first can have been on its way to a peer. No peer can hold up the stop: the notice
cuts off the exchange under way, and the rest the worker and its host do alone.
-/

namespace Courier.Forward.HostedWorker

variable {s t u : HostedWorker} {act : Act} {acts : List Act} {op : WorkerOp} {turn : Worker.Turn}
  {config : Config} {cluster : Cluster} {endpoints : List Address.Endpoint}

-- ---------------------------------------------------------------------------
-- To the end without the peers
-- ---------------------------------------------------------------------------

/-- Worker and host come to the end by themselves, with these calls besides those decided on. -/
def Returns (s : HostedWorker) (more : List Call) : Prop :=
  ∃ acts t, s.Run acts t ∧ (∀ act ∈ acts, act.isAlone = true) ∧ t.host = .returned ∧
    t.calls = s.ended ++ more

theorem Returns.after (h : t.Returns more) (goes : s.after act = some t)
    (alone : act.isAlone = true) (ended : t.ended = s.ended ++ made) :
    s.Returns (made ++ more) := by
  obtain ⟨acts, u, run, hacts, returned, calls⟩ := h
  refine ⟨act :: acts, u, .cons goes run, ?_, returned, ?_⟩
  · exact List.forall_mem_cons.mpr ⟨alone, hacts⟩
  · rw [calls, ended, List.append_assoc]

/-- The calls that are owed can all be made. -/
theorem Invariant.returns_of_calls (h : s.Invariant)
    (returns : ∀ t : HostedWorker, t.Invariant → t.worker = s.worker → t.host = s.host →
      t.owed = [] →
      t.Returns more) : s.Returns more := by
  induction howed : s.owed generalizing s with
  | nil => exact returns s h rfl rfl howed
  | cons c rest ih =>
    have goes : s.after .call = some (s.tell c rest) := by simp only [HostedWorker.after, howed]
    have same : (s.tell c rest).ended = s.ended ++ [] := by
      rw [ended_tell howed, List.append_nil]
    exact (ih (h.step (steps_of_after goes)) returns rfl).after goes rfl same

/-- As long as it has not come to its end, a worker that was asked to stop has a step of its own,
and waits for nobody. -/
theorem Agreed.step_alone (h : s.Agreed) (host : s.host = .hungUp)
    (running : s.worker.phase ≠ .stopped) (hold : Hold) :
    ∃ op turn, (Act.work op).isAlone = true ∧
      s.worker.after (op.move s.hold) = some turn ∧ s.worker.step hold = some turn ∧
      s.worker.reply? op = none ∧
      (turn.1.phase = .stopped ∨ turn.1.stepsLeft < s.worker.stepsLeft) := by
  have requested : s.worker.requested = true := h.requested.trans (by simp [host])
  have hungUp : s.worker.isOpen = false := h.isOpen.trans (by simp [host])
  cases phase : s.worker.phase with
  | idle =>
    cases queue : s.worker.queue with
    | nil =>
      refine ⟨.receive, ({ s.worker with phase := .stopped, connection := none }, []), rfl,
        ?_, ?_, rfl, ?_⟩
      · simp [WorkerOp.move, Worker.after, Worker.receive, phase, queue, hungUp]
      · simp [Worker.step, Worker.receive, phase, queue, hungUp]
      · exact .inl rfl
    | cons place rest =>
      refine ⟨.receive, ({ s.worker with queue := rest, phase := .holding place }, []), rfl,
        ?_, ?_, rfl, ?_⟩
      · simp [WorkerOp.move, Worker.after, Worker.receive, phase, queue]
      · simp [Worker.step, Worker.receive, phase, queue]
      · simp [Worker.stepsLeft, phase, queue, Nat.mul_succ]
  | holding place =>
    refine ⟨.inspect, s.worker.settle place .clientShutdown [], rfl, ?_, ?_, rfl, ?_⟩
    · simp [WorkerOp.move, Worker.after, Worker.inspect, phase, requested]
    · simp [Worker.step, Worker.inspect, phase, requested]
    · simp [Worker.stepsLeft, Worker.settle, phase]
  | exchanging place frame stage =>
    have notice : s.worker.permit = true := h.notice (by simp [host]) phase
    refine ⟨.cut, s.worker.cut place, rfl, ?_, ?_, rfl, ?_⟩
    · simp [WorkerOp.move, Worker.after, phase, notice]
    · simp [Worker.step, phase, notice]
    · simp [Worker.stepsLeft, Worker.cut, Worker.settle, phase]
  | stopped => exact absurd phase running

theorem returns_join (host : s.host = .hungUp) (phase : s.worker.phase = .stopped)
    (owed : s.owed = []) : s.Returns [] := by
  have goes : s.after .join = some { s with host := .returned } := by
    simp [HostedWorker.after, host, phase, owed]
  refine ⟨[.join], _, Run.nil.snoc goes, by simp [Act.isAlone], rfl, ?_⟩
  simp [ended, owed]

theorem Invariant.returns_finish (h : s.Invariant) (host : s.host = .hungUp) (owed : s.owed = [])
    (hold : Hold)
    (enough : s.worker.phase = .stopped ∨ s.worker.stepsLeft < steps) :
    s.Returns ((s.worker.finish hold steps).map (.of none)) := by
  induction steps generalizing s with
  | zero =>
    have phase : s.worker.phase = .stopped := enough.resolve_right (Nat.not_lt_zero _)
    exact returns_join host phase owed
  | succ steps ih =>
    by_cases phase : s.worker.phase = .stopped
    · simpa [Worker.finish, Worker.step, phase] using returns_join host phase owed
    · obtain ⟨op, turn, alone, goes, hstep, silent, fewer⟩ :=
        h.agreed.step_alone host phase hold
      have hafter := after_work owed goes
      -- what the step has decided the host is told before the worker goes on
      have hnext : (s.proceed op turn).Returns ((turn.1.finish hold steps).map (.of none)) := by
        refine (h.step (steps_of_after hafter)).returns_of_calls ?_
        intro t ht hworker hhost howed
        have hworker : t.worker = turn.1 := hworker
        rw [← hworker]
        refine ih ht (hhost.trans host) howed ?_
        rw [hworker]
        exact fewer.imp_right fun fewer => by have := enough.resolve_left phase; omega
      simpa only [Worker.finish, hstep, List.map_append, silent] using
        hnext.after hafter alone ended_proceed

/-- Once the host has hung up nothing is waited for but what the worker does by itself. -/
theorem Invariant.returns (h : s.Invariant) (host : s.host = .hungUp) :
    s.Returns
      ((s.worker.finish s.hold (2 * s.worker.pending.length + 1)).map (.of none)) := by
  refine h.returns_of_calls ?_
  intro t ht hworker hhost howed
  rw [← hworker]
  exact ht.returns_finish (hhost.trans host) howed s.hold (.inr t.worker.stepsLeft_lt)

/-- What an engine is asked for at its end is a stop that no peer has a part in. -/
theorem Invariant.shutdown (h : s.Invariant) (host : s.host = .serving) :
    ∃ acts t, s.Run (.request :: .notify :: .hangUp :: acts) t ∧
      (∀ act ∈ acts, act.isAlone = true) ∧ t.host = .returned ∧
      t.calls = s.ended ++ (Engine.shutdown s.worker s.hold).settlements.map (.of none) := by
  have requested : s.after .request =
      some { s with worker := s.worker.request, host := .requested } := by
    simp [HostedWorker.after, host]
  have notified : HostedWorker.after { s with worker := s.worker.request, host := .requested }
      .notify = some { s with worker := s.worker.request.notify, host := .notified } := rfl
  have hungUp : HostedWorker.after { s with worker := s.worker.request.notify, host := .notified }
      .hangUp = some { s with worker := s.worker.stop, host := .hungUp } := rfl
  have invariant := ((h.step (steps_of_after requested)).step (steps_of_after notified)).step
    (steps_of_after hungUp)
  obtain ⟨acts, t, run, alone, returned, calls⟩ := invariant.returns rfl
  exact ⟨acts, t, .cons requested (.cons notified (.cons hungUp run)), alone, returned, calls⟩

-- ---------------------------------------------------------------------------
-- Whole runs
-- ---------------------------------------------------------------------------

theorem logged_step (h : s.worker.Logged (s.sent.map (·.2))) (steps : s.Steps act t) :
    t.worker.Logged (t.sent.map (·.2)) := by
  cases steps with
  | work goes => simpa [HostedWorker.proceed, Option.toList_map] using h.after goes
  | _ => exact h

theorem Run.logged (run : (start config cluster endpoints).Run acts s) :
    s.worker.Logged (s.sent.map (·.2)) := by
  induction run with
  | nil => exact nofun
  | snoc run goes ih => exact logged_step ih (steps_of_after goes)

/-- Every packet was called for, once and in its turn. The calls that the stop itself has caused
come last, and nothing was sent for their packets but for the first one. -/
structure Settled (s : HostedWorker) (count : Nat) : Prop where
  places : s.calls.map (·.place) = List.range count
  splitAtStop : ∃ early late, s.calls = early ++ late ∧ (∀ c ∈ early, ¬ c.Stopped) ∧
    (∀ c ∈ late, c.Stopped ∧ c.report.result = []) ∧
    ∀ c ∈ late.tail, ∀ x ∈ s.sent, x.1 ≠ c.place

/-- In whatever order the host, the worker and the peers take their steps: once the host returns
from its stop all packets are settled, the notice of the stop is never lost on an exchange, and
the host returns from its stop even if nothing more is heard from any peer. -/
theorem Run.stopping (run : (start config cluster endpoints).Run acts s) :
    (s.host = .returned → s.Settled (acts.filterMap Act.packet?).length) ∧
    (∀ c ∈ s.calls, c.Faithful) ∧
    s.worker.Logged (s.sent.map (·.2)) ∧
    (s.host.hasNotified = true →
      ∀ place frame stage, s.worker.phase = .exchanging place frame stage →
        s.worker.permit = true ∧ s.worker.step s.hold = some (s.worker.cut place)) ∧
    (s.host = .hungUp →
      s.Returns ((s.worker.finish s.hold (2 * s.worker.pending.length + 1)).map (.of none))) := by
  have invariant := run.invariant invariant_start
  refine ⟨?_, ?_, run.logged, ?_, invariant.returns⟩
  · intro returned
    obtain ⟨phase, owed⟩ := invariant.agreed.returned returned
    have hcalls : s.calls = s.ended := by simp [ended, owed]
    have hpending : s.worker.pending = [] := by simp [Worker.pending, phase]
    have hlength : s.hold.length = (acts.filterMap Act.packet?).length := by
      simpa [start] using run.length_hold
    obtain ⟨early, late, splitAtStop⟩ := invariant.splitAtStop
    refine ⟨?_, early, late, hcalls.trans splitAtStop.split, splitAtStop.unstopped,
      splitAtStop.stopped, splitAtStop.unsent⟩
    rw [hcalls, ← hlength, ← invariant.accounted.places, hpending, List.append_nil]
  · intro c hc
    exact invariant.accounted.faithful c (List.mem_append_left _ hc)
  · intro notified place frame stage phase
    have notice := invariant.agreed.notice notified phase
    exact ⟨notice, by simp [Worker.step, phase, notice]⟩

/-- A peer answers the first packet as if it were itself stopping, and takes five bytes of the
second. Then the host hangs up. -/
def untilHungUp : List Act :=
  [.submit {}, .submit { data := some [1, 2, 3], dataSize := 3 }, .submit {}, .work .receive,
    .work .inspect, .work .progress, .work (.hear (.accepted 0)), .work (.hear (.took 23)),
    .work .progress, .work (.hear (.arrived [1, 0, 0, 0, 3])), .work .progress, .work .progress,
    .work .progress, .work .progress, .call, .work .receive, .work .inspect, .work .progress,
    .request, .work (.hear (.took 5)), .notify, .hangUp]

def untilReturned : List Act :=
  untilHungUp ++ [.work .cut, .call, .work .receive, .work .inspect, .call, .work .receive, .join]

def stoppedCall (place : Place) : Call := ⟨place, ⟨.clientShutdown, []⟩, none⟩

theorem stopping_threePackets : ∃ s t,
    (start {} .zero [.v4 .loopback 3001]).Run untilHungUp s ∧
    s.worker.step s.hold = some (s.worker.cut 1) ∧
    s.Returns [stoppedCall 1, stoppedCall 2] ∧
    (start {} .zero [.v4 .loopback 3001]).Run untilReturned t ∧
    t.calls = [⟨0, ⟨.clientShutdown, []⟩, some ⟨3, []⟩⟩, stoppedCall 1, stoppedCall 2] ∧
    t.sent.map (·.1) = [0, 1] ∧ t.Settled 3 := by
  have hungUp : (start {} .zero [.v4 .loopback 3001]).Run untilHungUp _ := .follow rfl
  have returned : (start {} .zero [.v4 .loopback 3001]).Run untilReturned _ := .follow rfl
  obtain ⟨-, -, -, notice, alone⟩ := hungUp.stopping
  obtain ⟨settled, -⟩ := returned.stopping
  exact ⟨_, _, hungUp, (notice rfl _ _ _ rfl).2, alone rfl, returned, rfl, rfl, settled rfl⟩

end Courier.Forward.HostedWorker
