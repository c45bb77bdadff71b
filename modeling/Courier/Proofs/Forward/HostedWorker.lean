import Courier.Proofs.Engine.Custody
import Courier.Proofs.Forward.Endings

/-!
# The worker and its host

The host submits packets and then stops the worker: it stores its request, sends the notice,
hangs up and waits for the worker to come to its end. Meanwhile the worker goes on with its
work, in any order with the steps of the host, and the peers do as they like. What a step of it
decides about a packet the host learns by a call, before the worker does anything else.

Three invariants hold all along: the worker knows of the stop what the host has done
(`Agreed`), every packet is pending or was ended, in the order of acceptance (`Accounted`),
and what the stop has ended comes behind everything else (`SplitAtStop`).
-/

namespace Courier.Forward

/-- How far the host has come with its stop. -/
inductive Host where
  | serving
  | requested
  | notified
  | hungUp
  | returned
deriving DecidableEq, Repr

namespace Host

@[simp] def hasRequested : Host → Bool
  | serving => false
  | _ => true

@[simp] def hasNotified : Host → Bool
  | serving | requested => false
  | _ => true

@[simp] def hasHungUp : Host → Bool
  | hungUp | returned => true
  | _ => false

theorem hasRequested_of_notified {host : Host} (h : host.hasNotified = true) :
    host.hasRequested = true := by
  cases host <;> first | rfl | cases h

end Host

/-- What the host is told of a packet that has ended. -/
structure Call where
  place : Place
  report : Report
  /-- The reply of the peer from which the packet was completed. -/
  reply : Option Frame.Reply
deriving DecidableEq, Repr

namespace Call

def of (reply : Option Frame.Reply) (x : Settlement) : Call := ⟨x.place, x.ending.report, reply⟩

def Stopped (c : Call) : Prop := c.reply = none ∧ c.report.outcome = .clientShutdown

def Faithful (c : Call) : Prop := ∀ reply, c.reply = some reply →
  c.report = .of ((Outcome.ofCode? reply.status).getD .engineFailure) reply.payload

end Call

structure HostedWorker where
  worker : Worker
  host : Host := .serving
  /-- The packets that were accepted; a place is empty once its packet is the host's again. -/
  hold : Hold := []
  /-- What the worker has decided and the host has not been told yet. -/
  owed : List Call := []
  calls : List Call := []
  /-- What was written to the peers, and for which packets. -/
  sent : List (Place × Bytes) := []

inductive Act where
  | submit (p : Packet)
  | request
  | notify
  | hangUp
  | join
  | work (op : WorkerOp)
  | call
deriving DecidableEq, Repr

namespace Act

def packet? : Act → Option Packet
  | submit p => some p
  | _ => none

def isAlone : Act → Bool
  | join | call | work .receive | work .inspect | work .cut => true
  | _ => false

end Act

namespace HostedWorker

def start (config : Config) (cluster : Cluster) (endpoints : List Address.Endpoint) :
    HostedWorker where
  worker := .start config cluster endpoints

def submit (s : HostedWorker) (p : Packet) : HostedWorker :=
  { s with worker := s.worker.push s.hold.length, hold := s.hold ++ [some p] }

def proceed (s : HostedWorker) (op : WorkerOp) (turn : Worker.Turn) : HostedWorker :=
  { s with
    worker := turn.1
    owed := s.owed ++ turn.2.map (.of (s.worker.reply? op))
    sent := s.sent ++ (s.worker.outgoing? op).toList }

def tell (s : HostedWorker) (c : Call) (rest : List Call) : HostedWorker :=
  { s with hold := s.hold.set c.place none, owed := rest, calls := s.calls ++ [c] }

/-- The worker makes its calls before it goes on. The peers do not wait for that. -/
def mayDo (s : HostedWorker) : WorkerOp → Bool
  | .hear _ => true
  | _ => s.owed.isEmpty

/-- The steps of the host come in this order. -/
def after (s : HostedWorker) : Act → Option HostedWorker
  | .submit p => if s.host = .serving then some (s.submit p) else none
  | .request =>
    if s.host = .serving then some { s with worker := s.worker.request, host := .requested }
    else none
  | .notify =>
    if s.host = .requested then some { s with worker := s.worker.notify, host := .notified }
    else none
  | .hangUp =>
    if s.host = .notified then some { s with worker := s.worker.hangUp, host := .hungUp }
    else none
  | .join =>
    if s.host = .hungUp ∧ s.worker.phase = .stopped ∧ s.owed = [] then
      some { s with host := .returned }
    else none
  | .work op =>
    if s.mayDo op then (s.worker.after (op.move s.hold)).map (s.proceed op) else none
  | .call =>
    match s.owed with
    | [] => none
    | c :: rest => some (s.tell c rest)

inductive Steps (s : HostedWorker) : Act → HostedWorker → Prop
  | submit {p} (host : s.host = .serving) : Steps s (.submit p) (s.submit p)
  | request (host : s.host = .serving) :
      Steps s .request { s with worker := s.worker.request, host := .requested }
  | notify (host : s.host = .requested) :
      Steps s .notify { s with worker := s.worker.notify, host := .notified }
  | hangUp (host : s.host = .notified) :
      Steps s .hangUp { s with worker := s.worker.hangUp, host := .hungUp }
  | join (host : s.host = .hungUp) (phase : s.worker.phase = .stopped) (owed : s.owed = []) :
      Steps s .join { s with host := .returned }
  | work {op turn} (goes : s.worker.after (op.move s.hold) = some turn) :
      Steps s (.work op) (s.proceed op turn)
  | call {c rest} (first : s.owed = c :: rest) : Steps s .call (s.tell c rest)

variable {s t : HostedWorker} {act : Act} {op : WorkerOp} {turn : Worker.Turn}

theorem steps_of_after (goes : s.after act = some t) : s.Steps act t := by
  cases act with
  | submit p =>
    obtain ⟨host, rfl⟩ := by simpa [after] using goes
    exact .submit host
  | request =>
    obtain ⟨host, rfl⟩ := by simpa [after] using goes
    exact .request host
  | notify =>
    obtain ⟨host, rfl⟩ := by simpa [after] using goes
    exact .notify host
  | hangUp =>
    obtain ⟨host, rfl⟩ := by simpa [after] using goes
    exact .hangUp host
  | join =>
    obtain ⟨⟨host, phase, owed⟩, rfl⟩ := by simpa [after] using goes
    exact .join host phase owed
  | work op =>
    simp only [after, Option.ite_none_right_eq_some, Option.map_eq_some_iff] at goes
    obtain ⟨-, turn, goes, rfl⟩ := goes
    exact .work goes
  | call =>
    simp only [after] at goes
    split at goes
    · cases goes
    · next first =>
      cases goes
      exact .call first

theorem after_work (owed : s.owed = []) (goes : s.worker.after (op.move s.hold) = some turn) :
    s.after (.work op) = some (s.proceed op turn) := by
  have hmay : s.mayDo op = true := by cases op <;> simp [mayDo, owed]
  simp only [HostedWorker.after, hmay, if_true, goes, Option.map_some]

theorem after_of_step (owed : s.owed = []) (goes : s.worker.step s.hold = some turn) :
    ∃ op, s.after (.work op) = some (s.proceed op turn) := by
  unfold Worker.step at goes
  split at goes
  · next phase =>
    refine ⟨.receive, after_work owed ?_⟩
    simpa only [WorkerOp.move, Worker.after, phase] using goes
  · next phase =>
    refine ⟨.inspect, after_work owed ?_⟩
    simpa only [WorkerOp.move, Worker.after, phase] using goes
  · next phase =>
    split at goes
    · next notice =>
      refine ⟨.cut, after_work owed ?_⟩
      simpa only [WorkerOp.move, Worker.after, phase, if_pos notice] using goes
    · refine ⟨.progress, after_work owed ?_⟩
      simpa only [WorkerOp.move, Worker.after, phase] using goes
  · cases goes

/-- All that has been decided. -/
def ended (s : HostedWorker) : List Call := s.calls ++ s.owed

theorem ended_proceed : (s.proceed op turn).ended =
    s.ended ++ turn.2.map (.of (s.worker.reply? op)) := by
  simp [ended, proceed]

theorem ended_tell (first : s.owed = c :: rest) : (s.tell c rest).ended = s.ended := by
  simp [ended, tell, first]

/-- What both sides know of the stop. -/
structure Agreed (s : HostedWorker) : Prop where
  requested : s.worker.requested = s.host.hasRequested
  isOpen : s.worker.isOpen = !s.host.hasHungUp
  permit : s.worker.permit = true → s.host.hasNotified = true
  /-- A notice that was sent is still there while the worker is in an exchange. -/
  notice : s.host.hasNotified = true → s.worker.phase = .exchanging place frame stage →
    s.worker.permit = true
  stopped : s.worker.phase = .stopped → s.host.hasHungUp = true
  returned : s.host = .returned → s.worker.phase = .stopped ∧ s.owed = []

/-- Where the packets are, and for which of them something was sent. -/
structure Accounted (s : HostedWorker) : Prop where
  places : s.ended.map (·.place) ++ s.worker.pending = List.range s.hold.length
  live : ∀ place ∈ s.worker.pending, (s.hold.packet? place).isSome
  sent : ∀ x ∈ s.sent, x.1 ∈ s.ended.map (·.place) ∨
    ∃ frame stage, s.worker.phase = .exchanging x.1 frame stage
  faithful : ∀ c ∈ s.ended, c.Faithful

/-- The calls split into those that the stop has nothing to do with and, behind them, those that
it caused. Of the packets of the latter only the first can have been on its way to a peer. -/
structure SplitAtStop (s : HostedWorker) (early late : List Call) : Prop where
  split : s.ended = early ++ late
  unstopped : ∀ c ∈ early, ¬ c.Stopped
  stopped : ∀ c ∈ late, c.Stopped ∧ c.report.result = []
  unsent : ∀ c ∈ late.tail, ∀ x ∈ s.sent, x.1 ≠ c.place
  /-- Once the stop has ended a packet no exchange is begun. -/
  spent : late ≠ [] → s.worker.requested = true ∧
    ∀ place frame stage, s.worker.phase ≠ .exchanging place frame stage

-- ---------------------------------------------------------------------------
-- Accounts
-- ---------------------------------------------------------------------------

theorem Accounted.nodup (h : s.Accounted) :
    (s.ended.map (·.place) ++ s.worker.pending).Nodup :=
  h.places ▸ List.nodup_range

theorem Accounted.not_mem_ended (h : s.Accounted) (pending : place ∈ s.worker.pending) :
    place ∉ s.ended.map (·.place) :=
  fun ended => (List.nodup_append.mp h.nodup).2.2 _ ended _ pending rfl

theorem Accounted.opStep (h : s.Accounted)
    (goes : s.worker.after (op.move s.hold) = some turn) : s.worker.OpStep op turn := by
  refine Worker.opStep_of_after ?_ goes
  intro place phase
  exact h.live place (Worker.pending_holding phase ▸ List.mem_cons_self)

theorem packet?_append {h : Hold} (live : (h.packet? place).isSome) (p : Option Packet) :
    Hold.packet? (h ++ [p]) place = h.packet? place := by
  rcases Nat.lt_or_ge place h.length with hlt | hge
  · simp [Hold.packet?, List.getElem?_append_left hlt]
  · simp [Hold.packet?, List.getElem?_eq_none hge] at live

theorem packet?_set_of_ne {h : Hold} (ne : other ≠ place) :
    Hold.packet? (h.set other none) place = h.packet? place := by
  simp [Hold.packet?, List.getElem?_set_ne ne]

theorem Accounted.submit (h : s.Accounted) (running : s.worker.phase ≠ .stopped) (p : Packet) :
    (s.submit p).Accounted := by
  have hpending : (s.submit p).worker.pending = s.worker.pending ++ [s.hold.length] :=
    s.worker.pending_push running s.hold.length
  refine { h with places := ?_, live := ?_ }
  · rw [hpending, ← List.append_assoc]
    change (s.ended.map (·.place) ++ s.worker.pending) ++ [s.hold.length] = _
    simp [h.places, HostedWorker.submit, List.range_succ]
  · intro place hplace
    rw [hpending] at hplace
    rcases List.mem_append.mp hplace with hold | hnew
    · have live := h.live place hold
      exact (packet?_append live (some p)).symm ▸ live
    · obtain rfl := List.mem_singleton.mp hnew
      simp [HostedWorker.submit, Hold.packet?]

theorem Accounted.call (h : s.Accounted) (first : s.owed = c :: rest) :
    (s.tell c rest).Accounted := by
  have hended := ended_tell first
  have hmem : c.place ∈ s.ended.map (·.place) :=
    List.mem_map_of_mem (List.mem_append_right _ (first ▸ List.mem_cons_self))
  constructor
  · rw [hended]
    exact h.places.trans (by simp [tell])
  · intro place hplace
    have hne : c.place ≠ place := fun same => h.not_mem_ended hplace (same ▸ hmem)
    exact (packet?_set_of_ne hne).symm ▸ h.live place hplace
  · rw [hended]
    exact h.sent
  · rw [hended]
    exact h.faithful

theorem faithful_of_ends {w : Worker} (ends : w.Ends place reply outcome result) :
    (Call.of reply ⟨place, .complete outcome result⟩).Faithful := by
  rintro reply hreply
  cases ends with
  | replied =>
    obtain rfl := Option.some.inj hreply
    rfl
  | _ => cases hreply

theorem sent_proceed
    (h : ∀ place frame stage, s.worker.phase ≠ .exchanging place frame stage) :
    (s.proceed op turn).sent = s.sent := by
  have hnone : s.worker.outgoing? op = none := by
    refine Option.eq_none_iff_forall_ne_some.mpr fun x hx => ?_
    obtain ⟨frame, stage, phase⟩ := Worker.phase_of_outgoing? hx
    exact h _ _ _ phase
  simp [HostedWorker.proceed, hnone]

theorem Accounted.proceed (h : s.Accounted) (opStep : s.worker.OpStep op turn) :
    (s.proceed op turn).Accounted := by
  have hsent : ∀ x ∈ (s.proceed op turn).sent, x.1 ∈ s.ended.map (·.place) ∨
      ∃ frame stage, s.worker.phase = .exchanging x.1 frame stage := by
    intro x hx
    rcases List.mem_append.mp hx with hold | hnew
    · exact h.sent x hold
    · exact .inr (Worker.phase_of_outgoing? (Option.mem_toList.mp hnew))
  cases opStep with
  | @quiet v obeys kept pending silent phaseStep =>
    have hended : (s.proceed op (v, [])).ended = s.ended := by simp [ended_proceed]
    constructor
    · rw [hended]
      exact pending.symm ▸ h.places
    · exact pending.symm ▸ h.live
    · intro x hx
      rw [hended]
      refine (hsent x hx).imp_right ?_
      rintro ⟨frame, stage, phase⟩
      exact ⟨frame, phaseStep.exchanging phase⟩
    · rw [hended]
      exact h.faithful
  | @ended v place outcome result obeys pending ends =>
    have hended : (s.proceed op (v.settle place outcome result)).ended =
        s.ended ++ [.of (s.worker.reply? op) ⟨place, .complete outcome result⟩] :=
      ended_proceed
    have hplaces : (s.proceed op (v.settle place outcome result)).ended.map (·.place) =
        s.ended.map (·.place) ++ [place] := by
      rw [hended, List.map_append]
      rfl
    constructor
    · rw [hplaces, List.append_assoc]
      exact (congrArg _ pending).symm.trans h.places
    · intro other hother
      exact h.live other (pending ▸ List.mem_cons_of_mem _ hother)
    · intro x hx
      refine .inl (hplaces ▸ List.mem_append.mpr ?_)
      refine (hsent x hx).imp_right ?_
      rintro ⟨frame, stage, phase⟩
      have hsame := (Worker.pending_exchanging phase).symm.trans pending
      exact List.mem_singleton.mpr (List.cons.inj hsame).1
    · intro c hc
      rw [hended] at hc
      rcases List.mem_append.mp hc with hold | hnew
      · exact h.faithful c hold
      · obtain rfl := List.mem_singleton.mp hnew
        exact faithful_of_ends ends

-- ---------------------------------------------------------------------------
-- What the stop has ended
-- ---------------------------------------------------------------------------

theorem SplitAtStop.snoc_early (h : s.SplitAtStop early []) (ended : t.ended = s.ended ++ [c])
    (unstopped : ¬ c.Stopped) : t.SplitAtStop (early ++ [c]) [] where
  split := by rw [ended, h.split, List.append_nil, List.append_nil]
  unstopped d hd := by
    rcases List.mem_append.mp hd with hold | hnew
    · exact h.unstopped d hold
    · exact List.mem_singleton.mp hnew ▸ unstopped
  stopped := nofun
  unsent := nofun
  spent nonempty := absurd rfl nonempty

theorem SplitAtStop.snoc_late (h : s.SplitAtStop early late) (ended : t.ended = s.ended ++ [c])
    (stopped : c.Stopped ∧ c.report.result = [])
    (unsent : ∀ d ∈ (late ++ [c]).tail, ∀ x ∈ t.sent, x.1 ≠ d.place)
    (asked : t.worker.requested = true) (phase : t.worker.phase = .idle) :
    t.SplitAtStop early (late ++ [c]) where
  split := by rw [ended, h.split, List.append_assoc]
  unstopped := h.unstopped
  stopped d hd := by
    rcases List.mem_append.mp hd with hold | hnew
    · exact h.stopped d hold
    · exact List.mem_singleton.mp hnew ▸ stopped
  unsent := unsent
  spent _ := ⟨asked, fun _ _ _ exchanging => nomatch phase.symm.trans exchanging⟩

theorem SplitAtStop.late_eq_nil_of_unasked (h : s.SplitAtStop early late)
    (unasked : s.worker.requested = false) : late = [] := by
  cases late with
  | nil => rfl
  | cons c late => exact nomatch unasked.symm.trans (h.spent nofun).1

theorem SplitAtStop.late_eq_nil_of_exchanging (h : s.SplitAtStop early late)
    (phase : s.worker.phase = .exchanging place frame stage) : late = [] := by
  cases late with
  | nil => rfl
  | cons c late => exact absurd phase ((h.spent nofun).2 place frame stage)

theorem SplitAtStop.quiet (h : s.SplitAtStop early late) (obeys : s.worker.Obeys v)
    (phaseStep : s.worker.PhaseStep s.worker.phase v.phase) :
    (s.proceed op (v, [])).SplitAtStop early late := by
  have hended : (s.proceed op (v, [])).ended = s.ended := by simp [ended_proceed]
  cases late with
  | nil =>
    exact ⟨hended.trans h.split, h.unstopped, nofun, nofun, fun nonempty => absurd rfl nonempty⟩
  | cons c late =>
    -- no exchange is under way and none is begun, so nothing more is written
    obtain ⟨asked, hphase⟩ := h.spent nofun
    refine ⟨hended.trans h.split, h.unstopped, h.stopped, ?_, fun _ => ⟨?_, ?_⟩⟩
    · intro d hd x hx
      rw [sent_proceed hphase] at hx
      exact h.unsent d hd x hx
    · exact obeys.requested.trans asked
    · exact phaseStep.not_exchanging asked hphase

/-- A packet that the worker ends because of the stop without having begun with it comes behind
all that it has written. -/
theorem SplitAtStop.shun (h : s.SplitAtStop early late) (accounted : s.Accounted)
    (obeys : s.worker.Obeys v) (phase : s.worker.phase = .holding place)
    (asked : s.worker.requested = true)
    (ended : (s.proceed op (v.settle place .clientShutdown [])).ended =
      s.ended ++ [.of none ⟨place, .complete .clientShutdown []⟩]) :
    ∃ late, (s.proceed op (v.settle place .clientShutdown [])).SplitAtStop early late := by
  have hphase : ∀ place frame stage, s.worker.phase ≠ .exchanging place frame stage := by
    simp [phase]
  refine ⟨_, h.snoc_late ended ⟨⟨rfl, rfl⟩, rfl⟩ ?_ (obeys.requested.trans asked) rfl⟩
  intro d hd x hx
  rw [sent_proceed hphase] at hx
  cases late with
  | nil => cases hd
  | cons c late =>
    rcases List.mem_append.mp hd with hold | hnew
    · exact h.unsent d hold x hx
    · obtain rfl := List.mem_singleton.mp hnew
      -- what was written was written for packets that have ended before this one
      rcases accounted.sent x hx with hended | ⟨frame, stage, exchanging⟩
      · rintro rfl
        exact accounted.not_mem_ended (Worker.pending_holding phase ▸ List.mem_cons_self) hended
      · exact absurd exchanging (hphase _ _ _)

theorem SplitAtStop.proceed (h : s.SplitAtStop early late) (agreed : s.Agreed)
    (accounted : s.Accounted) (opStep : s.worker.OpStep op turn) :
    ∃ early late, (s.proceed op turn).SplitAtStop early late := by
  cases opStep with
  | quiet obeys kept pending silent phaseStep => exact ⟨early, late, h.quiet obeys phaseStep⟩
  | @ended v place outcome result obeys pending ends =>
    obtain ⟨reply, hreply⟩ : ∃ reply, s.worker.reply? op = reply := ⟨_, rfl⟩
    have hended : (s.proceed op (v.settle place outcome result)).ended =
        s.ended ++ [.of reply ⟨place, .complete outcome result⟩] := by
      rw [ended_proceed, hreply]
      rfl
    rw [hreply] at ends
    cases ends with
    | refused phase unasked other =>
      obtain rfl := h.late_eq_nil_of_unasked unasked
      exact ⟨_, _, h.snoc_early hended fun stopped => other stopped.2⟩
    | failed phase =>
      obtain rfl := h.late_eq_nil_of_exchanging phase
      exact ⟨_, _, h.snoc_early hended fun stopped => nomatch stopped.2⟩
    | replied phase =>
      obtain rfl := h.late_eq_nil_of_exchanging phase
      exact ⟨_, _, h.snoc_early hended fun stopped => nomatch stopped.1⟩
    | shunned phase asked => exact ⟨early, h.shun accounted obeys phase asked hended⟩
    | cut phase notice =>
      obtain rfl := h.late_eq_nil_of_exchanging phase
      have asked : s.worker.requested = true :=
        agreed.requested.trans (Host.hasRequested_of_notified (agreed.permit notice))
      exact ⟨_, _, h.snoc_late hended ⟨⟨rfl, rfl⟩, rfl⟩ nofun (obeys.requested.trans asked) rfl⟩

-- ---------------------------------------------------------------------------
-- Steps
-- ---------------------------------------------------------------------------

theorem Agreed.proceed (h : s.Agreed) (opStep : s.worker.OpStep op turn) :
    (s.proceed op turn).Agreed := by
  cases opStep with
  | @quiet v obeys kept pending silent phaseStep =>
    refine
      { requested := obeys.requested.trans h.requested
        isOpen := obeys.isOpen.trans h.isOpen
        permit := fun permit => h.permit (obeys.permit permit)
        notice := ?_
        stopped := ?_
        returned := ?_ }
    · intro place frame stage notified phase
      by_cases hbusy : ∃ place frame stage, s.worker.phase = .exchanging place frame stage
      · obtain ⟨_, _, _, hbefore⟩ := hbusy
        exact kept.trans (h.notice notified hbefore)
      · have asked := h.requested.trans (Host.hasRequested_of_notified notified)
        simp only [not_exists] at hbusy
        exact absurd phase (phaseStep.not_exchanging asked hbusy _ _ _)
    · intro phase
      rcases Worker.PhaseStep.stopped (phase ▸ phaseStep) with hbefore | hungUp
      · exact h.stopped hbefore
      · have hasHungUp : s.host.hasHungUp = true := by simpa [hungUp] using h.isOpen
        exact hasHungUp
    · intro returned
      obtain ⟨phase, owed⟩ := h.returned returned
      exact ⟨Worker.PhaseStep.eq_stopped (phase ▸ phaseStep), by simp [HostedWorker.proceed, owed]⟩
  | @ended v place outcome result obeys pending ends =>
    refine
      { requested := obeys.requested.trans h.requested
        isOpen := obeys.isOpen.trans h.isOpen
        permit := fun permit => h.permit (obeys.permit permit)
        notice := fun _ => nofun
        stopped := nofun
        returned := ?_ }
    intro returned
    simp [Worker.pending, (h.returned returned).1] at pending

/-- The invariant of the worker and its host. -/
structure Invariant (s : HostedWorker) : Prop where
  agreed : s.Agreed
  accounted : s.Accounted
  splitAtStop : ∃ early late, s.SplitAtStop early late

theorem Agreed.step (h : s.Agreed) (accounted : s.Accounted) (steps : s.Steps act t) :
    t.Agreed := by
  cases steps with
  | submit => exact { h with }
  | request host =>
    exact
      { h with
        requested := rfl
        isOpen := h.isOpen.trans (by simp [host])
        permit := fun permit => by simpa [host] using h.permit permit
        notice := nofun
        stopped := fun phase => by simpa [host] using h.stopped phase
        returned := nofun }
  | notify host =>
    exact
      { h with
        requested := h.requested.trans (by simp [host])
        isOpen := h.isOpen.trans (by simp [host])
        permit := fun _ => rfl
        notice := fun _ _ => rfl
        stopped := fun phase => by simpa [host] using h.stopped phase
        returned := nofun }
  | hangUp host =>
    exact
      { h with
        requested := h.requested.trans (by simp [host])
        isOpen := rfl
        permit := fun _ => rfl
        notice := fun _ phase => h.notice (by simp [host]) phase
        stopped := fun _ => rfl
        returned := nofun }
  | join host phase owed =>
    exact
      { h with
        requested := h.requested.trans (by simp [host])
        isOpen := h.isOpen.trans (by simp [host])
        permit := fun _ => rfl
        notice := fun _ exchanging => nomatch phase.symm.trans exchanging
        stopped := fun _ => rfl
        returned := fun _ => ⟨phase, owed⟩ }
  | work goes => exact h.proceed (accounted.opStep goes)
  | call first =>
    exact { h with returned := fun returned => nomatch first.symm.trans (h.returned returned).2 }

theorem Accounted.step (h : s.Accounted) (agreed : s.Agreed) (steps : s.Steps act t) :
    t.Accounted := by
  cases steps with
  | submit host =>
    refine h.submit ?_ _
    intro phase
    simpa [host] using agreed.stopped phase
  | request | notify | hangUp | join => exact { h with }
  | work goes => exact h.proceed (h.opStep goes)
  | call first => exact h.call first

theorem SplitAtStop.step (h : s.SplitAtStop early late) (agreed : s.Agreed)
    (accounted : s.Accounted) (steps : s.Steps act t) : ∃ early late, t.SplitAtStop early late := by
  cases steps with
  | submit | notify | hangUp | join => exact ⟨early, late, { h with }⟩
  | request =>
    exact ⟨early, late, { h with spent := fun nonempty => ⟨rfl, (h.spent nonempty).2⟩ }⟩
  | work goes => exact h.proceed agreed accounted (accounted.opStep goes)
  | call first =>
    exact ⟨early, late, { h with split := (ended_tell first).trans h.split }⟩

theorem Invariant.step (h : s.Invariant) (steps : s.Steps act t) : t.Invariant := by
  obtain ⟨agreed, accounted, early, late, splitAtStop⟩ := h
  exact ⟨agreed.step accounted steps, accounted.step agreed steps,
    splitAtStop.step agreed accounted steps⟩

-- ---------------------------------------------------------------------------
-- Runs
-- ---------------------------------------------------------------------------

variable {config : Config} {cluster : Cluster} {endpoints : List Address.Endpoint}

theorem invariant_start : (start config cluster endpoints).Invariant where
  agreed := ⟨rfl, rfl, nofun, nofun, nofun, nofun⟩
  accounted := ⟨rfl, nofun, nofun, nofun⟩
  splitAtStop := ⟨[], [], rfl, nofun, nofun, nofun, fun nonempty => absurd rfl nonempty⟩

inductive Run (s : HostedWorker) : List Act → HostedWorker → Prop
  | nil : Run s [] s
  | snoc {acts t act u} (run : Run s acts t) (goes : t.after act = some u) :
      Run s (acts ++ [act]) u

variable {u : HostedWorker} {acts : List Act}

theorem Run.cons (goes : s.after act = some t) (run : t.Run acts u) : s.Run (act :: acts) u := by
  induction run with
  | nil => exact Run.nil.snoc goes
  | snoc run next ih => exact ih.snoc next

theorem Run.follow (goes : acts.foldlM HostedWorker.after s = some t) : s.Run acts t := by
  induction acts generalizing s with
  | nil =>
    obtain rfl := Option.some.inj goes
    exact .nil
  | cons act acts ih =>
    obtain ⟨u, hfirst, hrest⟩ := Option.bind_eq_some_iff.mp goes
    exact .cons hfirst (ih hrest)

theorem Run.invariant (run : s.Run acts t) (h : s.Invariant) : t.Invariant := by
  induction run with
  | nil => exact h
  | snoc run goes ih => exact ih.step (steps_of_after goes)

theorem length_hold_step (steps : s.Steps act t) :
    t.hold.length = s.hold.length + act.packet?.toList.length := by
  cases steps <;> simp [submit, tell, HostedWorker.proceed, Act.packet?]

theorem Run.length_hold (run : s.Run acts t) :
    t.hold.length = s.hold.length + (acts.filterMap Act.packet?).length := by
  induction run with
  | nil => rfl
  | @snoc acts t act u run goes ih =>
    rw [length_hold_step (steps_of_after goes), ih, List.filterMap_append, List.length_append]
    cases h : act.packet? <;> simp [h, Nat.add_assoc]

end HostedWorker

end Courier.Forward
