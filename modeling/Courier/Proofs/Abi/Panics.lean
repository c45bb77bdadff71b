import Courier.Proofs.Abi.Shutdowns
import Courier.Proofs.Abi.Locks
import Courier.Proofs.Abi.Starts
import Courier.Proofs.Engine.Mended

/-!
# Engines that fail

An engine that fails in a submit drops the packet that it has in its hands, and nothing else comes
of it: but for the statuses of such submits the host sees what it would see if the engine were
mended. An engine that fails in its shutdown has been taken out of its client by then, and what it
still holds is dropped with it.
-/

namespace Courier

open Courier.System (Answer Op)

variable {σ : Type} [Launch σ]

-- ---------------------------------------------------------------------------
-- The same commands with mended engines
-- ---------------------------------------------------------------------------

namespace Abi

def unmended (d : Abi (Mended σ)) : Abi σ where
  system := d.system.unmended
  registry := d.registry
  slots := d.slots

def Command.unmended : Command (Mended σ) → Command σ
  | .write slot h => .write slot h
  | .start gate call => .start gate call
  | .register slot k => .register slot (k.map (·.engine))
  | .submit slot packet => .submit slot packet
  | .stop slot => .stop slot
  | .behind op => .behind op.unmended

def Fails (d : Abi σ) : Command σ → Prop
  | .submit slot packet => d.FailsOn slot packet
  | .behind (.submit c p) => (d.system.submit c p).1 = .panicked
  | _ => False

theorem build_unmended (gate : Gate) (call : StartCall) : call.build (σ := σ) gate =
    (call.build (σ := Mended σ) gate).map (·.map (·.engine)) := by
  rcases call.build_cases (σ := σ) gate with ⟨e, first, failed⟩ | ⟨none, _, _, named, parsed, built⟩
  · rcases call.build_cases (σ := Mended σ) gate with ⟨e', first', failed'⟩ | ⟨none, -⟩
    · obtain rfl := Option.some.inj (first.symm.trans first')
      rw [failed, failed']
      rfl
    · rw [none] at first
      cases first
  · rcases call.build_cases (σ := Mended σ) gate with
      ⟨e', first', -⟩ | ⟨-, _, _, named', parsed', built'⟩
    · rw [none] at first'
      cases first'
    · obtain rfl := Option.some.inj (named.symm.trans named')
      obtain rfl := Except.ok.inj (parsed.symm.trans parsed')
      rw [built, built']
      change _ = (((Launch.launch (σ := σ) call.mode _ _ {} gate).map
        fun engine => (⟨engine, true⟩ : Mended σ)).map _).map _
      cases Launch.launch (σ := σ) call.mode _ _ {} gate <;> rfl

theorem failsOn_iff {d : Abi σ} {slot : Option SlotId} {packet : Option PacketId} :
    d.FailsOn slot packet ↔ ∃ c p, d.lookup slot = some c ∧ packet = some p ∧
      (d.system.submit c p).1 = .panicked := by
  simp only [FailsOn, System.submit_panicked_iff, exists_and_left]

theorem submit_of_lookup {d : Abi σ} {slot : Option SlotId} (found : d.lookup slot = some c)
    (p : PacketId) : d.submit slot (some p) =
      (statusOf (d.system.submit c p).1, { d with system := (d.system.submit c p).2 }) := by
  simp only [submit, found]

variable (d : Abi (Mended σ))

omit [Launch σ] in
theorem unmended_register (slot : SlotId) (k : Client (Mended σ)) :
    (d.register slot k).unmended = d.unmended.register slot (k.map (·.engine)) := by
  have hlength : d.unmended.system.clients.length = d.system.clients.length := List.length_map _
  simp only [register, add, System.add, hlength]
  exact congrArg (fun s => ({ system := s, registry := _, slots := _ } : Abi σ))
    (System.map_add (·.engine) d.system k)

theorem unmended_start (gate : Gate) (call : StartCall) :
    (d.start gate call).2.unmended = (d.unmended.start gate call).2 ∧
      (d.start gate call).1 = (d.unmended.start gate call).1 := by
  cases given : call.slot with
  | none =>
    rw [start_of_nowhere gate given, start_of_nowhere gate given]
    exact ⟨rfl, rfl⟩
  | some slot =>
    have hbuild := build_unmended (σ := σ) gate call
    cases built : call.build (σ := Mended σ) gate with
    | error e =>
      rw [built] at hbuild
      rw [start_of_error given built, start_of_error given hbuild]
      exact ⟨rfl, rfl⟩
    | ok k =>
      rw [built] at hbuild
      rw [start_of_built given built, start_of_built given hbuild]
      exact ⟨d.unmended_register slot k, rfl⟩

theorem unmended_submit (slot : Option SlotId) (packet : Option PacketId) :
    (d.submit slot packet).2.unmended = (d.unmended.submit slot packet).2 ∧
      (¬ d.unmended.FailsOn slot packet →
        (d.submit slot packet).1 = (d.unmended.submit slot packet).1) := by
  cases found : d.lookup slot with
  | none =>
    have found' : d.unmended.lookup slot = none := found
    simp [submit, found, found']
  | some c =>
    have found' : d.unmended.lookup slot = some c := found
    cases packet with
    | none => simp [submit, found, found']
    | some p =>
      obtain ⟨hsystem, hanswer⟩ := System.unmended_submit d.system c p
      rw [submit_of_lookup found, submit_of_lookup found']
      refine ⟨congrArg (fun s => { d.unmended with system := s }) hsystem, ?_⟩
      intro calm
      have calm : (d.system.unmended.submit c p).1 ≠ .panicked :=
        fun h => calm (failsOn_iff.mpr ⟨c, p, found, rfl, h⟩)
      rw [hanswer, Mended.answered_of_calm calm]
      rfl

theorem unmended_stop (slot : Option SlotId) :
    (d.stop slot).2.unmended = (d.unmended.stop slot).2 ∧
      (d.stop slot).1 = (d.unmended.stop slot).1 := by
  cases slot with
  | none => exact ⟨rfl, rfl⟩
  | some slot =>
    cases found : d.lookup (some slot) with
    | none =>
      have found' : d.unmended.lookup (some slot) = none := found
      rw [stop_of_not_found found, stop_of_not_found found']
      exact ⟨rfl, rfl⟩
    | some c =>
      have found' : d.unmended.lookup (some slot) = some c := found
      obtain ⟨hsystem, hanswer⟩ := System.unmended_deinit d.system c
      rw [stop_of_lookup found, stop_of_lookup found', hanswer]
      refine ⟨?_, rfl⟩
      simp only [closed, unmended, System.unmended_release, hsystem]
      rfl

theorem unmended_exec (command : Command (Mended σ)) :
    (d.exec command).unmended = d.unmended.exec command.unmended := by
  cases command with
  | write slot h => rfl
  | start gate call => exact (d.unmended_start gate call).1
  | register slot k => exact d.unmended_register slot k.bare
  | submit slot packet => exact (d.unmended_submit slot packet).1
  | stop slot => exact (d.unmended_stop slot).1
  | behind op =>
    have hsystem := (System.unmended_act d.system op).1
    simp only [exec, unmended, hsystem, Command.unmended]

/-- Only what a failing submit answers depends on whether engines are mended. -/
theorem reply_unmended (command : Command (Mended σ)) (calm : ¬ d.unmended.Fails command.unmended) :
    d.reply command = d.unmended.reply command.unmended := by
  cases command with
  | write | register => rfl
  | start gate call => exact congrArg MultiTenant.Reply.started (d.unmended_start gate call).2
  | stop slot => exact congrArg MultiTenant.Reply.called (d.unmended_stop slot).2
  | submit slot packet =>
    exact congrArg MultiTenant.Reply.called ((d.unmended_submit slot packet).2 calm)
  | behind op =>
    refine congrArg MultiTenant.Reply.answered ((System.unmended_act d.system op).2.trans ?_)
    cases op with
    | submit c p => exact congrArg some (Mended.answered_of_calm calm _)
    | _ => exact System.map_answered_false _

omit [Launch σ] in
theorem context_unmended (slot : Option SlotId) (out : Option UInt64) :
    d.unmended.context slot out = d.context slot out := by
  have hclient : (d.unmended.lookup slot).bind d.unmended.system.client? =
      ((d.lookup slot).bind d.system.client?).map (·.map (·.engine)) := by
    rw [Option.map_bind]
    exact congrArg (Option.bind _) (funext fun c => System.client?_map _ d.system c)
  simp only [context, hclient]
  cases (d.lookup slot).bind d.system.client? with
  | none => rfl
  | some k => simp [Client.map, Client.isClosed]

/-- A submit that fails answers as if there were no client, but with a mended engine it is told to
be in order. -/
theorem submit_failing {slot : Option SlotId} {packet : Option PacketId}
    (failing : d.unmended.FailsOn slot packet) :
    (d.unmended.submit slot packet).1 = .clientInvalid ∧
      ∀ c ∈ d.lookup slot, (d.submit slot packet).1 =
        if d.system.isMended c then .ok else .clientInvalid := by
  obtain ⟨c, p, found, rfl, failed⟩ := failsOn_iff.mp failing
  rw [submit_of_lookup found]
  refine ⟨congrArg statusOf failed, ?_⟩
  intro c' found'
  obtain rfl := Option.some.inj (found.symm.trans found')
  have hanswer := (System.unmended_submit d.system c p).2
  rw [submit_of_lookup found', hanswer, show (d.system.unmended.submit c p).1 = _ from failed]
  cases d.system.isMended c <;> rfl

def Command.Mends : Command (Mended σ) → Prop
  | .register _ k => ∀ x, k.engine = some x → x.mended = true
  | .behind op => op.Mends
  | _ => True

omit [Launch σ] in
/-- Whatever a host has done it can have done with mended engines. -/
theorem exists_mended (command : Command σ) :
    ∃ x : Command (Mended σ), x.unmended = command ∧ x.Mends := by
  cases command with
  | write slot h => exact ⟨.write slot h, rfl, trivial⟩
  | start gate call => exact ⟨.start gate call, rfl, trivial⟩
  | register slot k =>
    obtain ⟨x, rfl, mends⟩ := System.exists_mended_client k
    exact ⟨.register slot x, rfl, mends⟩
  | submit slot packet => exact ⟨.submit slot packet, rfl, trivial⟩
  | stop slot => exact ⟨.stop slot, rfl, trivial⟩
  | behind op =>
    obtain ⟨x, rfl, mends⟩ := System.exists_mended_op op
    exact ⟨.behind x, rfl, mends⟩

theorem mended_of_build {call : StartCall} {k : Client (Mended σ)} (built : call.build gate = .ok k)
    (launched : k.engine = some x) : x.mended = true := by
  obtain ⟨cluster, endpoints, y, -, -, hlaunch, rfl⟩ := launch_of_build built
  obtain rfl := Option.some.inj launched
  change (Launch.launch (σ := σ) call.mode cluster endpoints {} gate).map _ = _ at hlaunch
  cases inner : Launch.launch (σ := σ) call.mode cluster endpoints {} gate with
  | error e =>
    rw [inner] at hlaunch
    cases hlaunch
  | ok engine =>
    rw [inner] at hlaunch
    obtain rfl := Except.ok.inj hlaunch
    rfl

theorem mends_ops {command : Command (Mended σ)} (mends : command.Mends) :
    ∀ op ∈ command.ops d, op.Mends := by
  intro op hop
  cases command with
  | write => simp [Command.ops] at hop
  | start gate call =>
    simp only [Command.ops] at hop
    split at hop
    · next k _ built =>
      obtain rfl := List.mem_singleton.mp hop
      exact fun x launched => mended_of_build built launched
    · simp at hop
  | register slot k =>
    obtain rfl := List.mem_singleton.mp hop
    exact mends
  | submit slot packet =>
    simp only [Command.ops] at hop
    split at hop
    · obtain rfl := List.mem_singleton.mp hop
      trivial
    · simp at hop
  | stop slot =>
    simp only [Command.ops] at hop
    split at hop
    · rcases List.mem_cons.mp hop with rfl | hop
      · trivial
      · obtain rfl := List.mem_singleton.mp hop
        trivial
    · simp at hop
  | behind op =>
    obtain rfl := List.mem_singleton.mp hop
    exact mends

theorem allMended_exec (h : d.system.AllMended) {command : Command (Mended σ)}
    (mends : command.Mends) : (d.exec command).system.AllMended := by
  have hops := d.mends_ops mends
  rw [system_exec]
  generalize command.ops d = ops at hops
  generalize d.system = s at h
  induction ops generalizing s with
  | nil => exact h
  | cons op rest ih =>
    obtain ⟨first, others⟩ := List.forall_mem_cons.mp hops
    exact ih others _ (h.act first)

end Abi

-- ---------------------------------------------------------------------------
-- What the host can see
-- ---------------------------------------------------------------------------

namespace System

variable {s : System σ} {c : ClientId} {p : PacketId}

theorem reaction?_of_open (hc : s.engine? c = some engine) (p : PacketId) :
    ∃ r, s.reaction? c p = some r :=
  ⟨_, by rw [reaction?, hc]; rfl⟩

theorem submit_ne_closed {r : Reaction σ} (hr : s.reaction? c p = some r) :
    (s.submit c p).1 ≠ .value (.error .closed) := by
  rw [submit_of_reaction hr]
  cases r.verdict with
  | accepted | panicked => simp
  | handedBack =>
    simp only
    split <;> simp

omit [Launch σ] in
theorem hold_withoutEngine (s : System σ) (c : ClientId) :
    (s.withoutEngine c).hold c = s.hold c := by
  cases h : s.client? c <;> simp [hold, h, Client.hold]

/-- What the engine has ended in its shutdown, before what it has left over is dropped. -/
def spent (s : System σ) (c : ClientId) (engine : σ) : System σ :=
  ((s.withoutEngine c).log (.released c)).settleAll c
    (Engine.shutdown engine (s.hold c)).settlements

theorem deinit_of_engaged (engaged : s.engine? c = some engine) : s.deinit c =
    (if (Engine.shutdown engine (s.hold c)).panicked then .panicked else .value (.ok ()),
      (s.spent c engine).abandon c) := by
  rw [deinit_of_open engaged, tearDown, hold_withoutEngine, spent]

theorem gone_spent (engaged : s.engine? c = some engine) (unshared : s.sharers c = 0) :
    (s.spent c engine).Gone c := by
  obtain ⟨k, hk, -⟩ := client_of_engine engaged
  rw [spent, Gone.congr (bare_settleAll _ c _ c)]
  simpa [Gone, engine?, sharers, hk] using unshared

/-- How the client of before is once its shutdown has failed. -/
structure FailedShutdown (c : ClientId) (before later : System σ) : Prop where
  /-- The engine is not asked for anything again. -/
  requests : later.requests c = before.requests c ++ [.shutdown]
  dropped : later.sharers c = 1 → Drops c later (later.unshare c)
  /-- What the engine held is called back for once. -/
  once : ∀ loan ∈ before.loans c, (later.ended c ++ later.loans c).count loan = 1
  cleared : later.sharers c = 0 → later.loans c = []

end System

namespace LockedAbi

/-- What a host sees of one interface and of another one. -/
structure Resembles {τ : Type} (l : LockedAbi σ) (e : LockedAbi τ) : Prop where
  journal : l.abi.system.journal = e.abi.system.journal
  memory : l.abi.system.memory = e.abi.system.memory
  inFlight : ∀ c, l.abi.system.inFlight c = e.abi.system.inFlight c
  registry : l.abi.registry = e.abi.registry
  slots : l.abi.slots = e.abi.slots
  context : ∀ slot out, l.context slot out = e.context slot out

/-- A submit fails and poisons the lock. A mended engine would have taken the packet. -/
structure Contains (l : LockedAbi σ) (mended : LockedAbi (Mended σ)) (slot : Option SlotId)
    (packet : Option PacketId) : Prop where
  status : (l.submit slot packet).1 = .clientInvalid
  mended : ∀ c ∈ l.abi.lookup slot, (mended.submit slot packet).1 =
    if mended.abi.system.isMended c then .ok else .clientInvalid
  poisoned : ∀ c ∈ l.abi.lookup slot, (l.submit slot packet).2.poisoned c = true

structure Reaches (l : LockedAbi σ) (slot : SlotId) (c : ClientId) : Prop where
  submit : ∀ p, (l.submit (some slot) (some p)).2.abi.system.requests c =
    l.abi.system.requests c ++ [.submit p]
  lasting : ∀ p, (l.submit (some slot) (some p)).2.abi.lookup (some slot) = some c ∧
    (l.submit (some slot) (some p)).2.abi.system.closed? c = some false
  stop : (l.stop (some slot)).2.abi.system.requests c = l.abi.system.requests c ++ [.shutdown]

/-- A shutdown fails. The client is gone in any case, and for good. -/
structure ShutdownFails (l : LockedAbi σ) (slot : SlotId) (c : ClientId) (engine : σ) : Prop where
  status : (l.stop (some slot)).1 = .clientInvalid
  registry : (l.stop (some slot)).2.abi.registry = l.abi.registry.erase (l.abi.slots slot).key
  unknown : (l.stop (some slot)).2.abi.registry.get? (l.abi.slots slot).key = none
  slots : (l.stop (some slot)).2.abi.slots = (l.abi.write slot {}).slots
  /-- What the engine has not ended itself is dropped at once, unless others can still end it. -/
  dropped : l.abi.system.sharers c = 0 →
    System.Drops c (l.abi.system.spent c engine) (l.stop (some slot)).2.abi.system
  lasting : ∀ more,
    System.FailedShutdown c l.abi.system ((l.stop (some slot)).2.run more).abi.system

variable {l : LockedAbi σ} {mended : LockedAbi (Mended σ)} {slot : SlotId} {c : ClientId}

theorem run_unmended (same : l.abi = mended.abi.unmended)
    (commands : List (Abi.Command (Mended σ))) :
    (l.run (commands.map (·.unmended))).abi = (mended.run commands).abi.unmended := by
  induction commands generalizing l mended with
  | nil => exact same
  | cons command rest ih =>
    apply ih
    rw [(exec_eq _ _).2, (exec_eq _ _).2, same, Abi.unmended_exec]

omit [Launch σ] in
theorem resembles (same : l.abi = mended.abi.unmended) : l.Resembles mended where
  journal := by rw [same]; rfl
  memory := by rw [same]; rfl
  inFlight c := by rw [same]; exact System.inFlight_map _ _ c
  registry := by rw [same]; rfl
  slots := by rw [same]; rfl
  context slot out := by
    rw [context_eq, context_eq, same, Abi.context_unmended]

theorem contains (same : l.abi = mended.abi.unmended) {slot : Option SlotId}
    {packet : Option PacketId} (failing : l.abi.FailsOn slot packet) :
    l.Contains mended slot packet := by
  have failing' := same ▸ failing
  obtain ⟨status, reported⟩ := mended.abi.submit_failing failing'
  refine ⟨?_, ?_, ?_⟩
  · rw [(l.submit_eq slot packet).1, same, status]
  · intro c found
    rw [(mended.submit_eq slot packet).1]
    rw [same] at found
    exact reported c found
  · intro c found
    obtain ⟨c', p, found', rfl, failed⟩ := Abi.failsOn_iff.mp failing
    obtain rfl := Option.some.inj (found.symm.trans found')
    simp only [submit, found', submitTo_eq, failed, after, poison]
    simp

theorem reaches (found : l.abi.lookup (some slot) = some c)
    (isOpen : l.abi.system.closed? c = some false) : l.Reaches slot c := by
  obtain ⟨engine, hengine⟩ := System.closed?_eq_some_false.mp isOpen
  have hsubmit (p : PacketId) := (l.submit_eq (some slot) (some p)).2.trans
    (congrArg (·.2) (Abi.submit_of_lookup found p))
  refine ⟨?_, ?_, ?_⟩
  · intro p
    obtain ⟨r, hr⟩ := System.reaction?_of_open hengine p
    rw [hsubmit]
    exact (System.requests_submit _ c p).trans
      (by rw [if_pos ⟨rfl, System.submit_ne_closed hr⟩])
  · intro p
    obtain ⟨r, hr⟩ := System.reaction?_of_open hengine p
    rw [hsubmit]
    exact ⟨found, System.closed?_eq_some_false.mpr ⟨_, System.engine?_submit hr⟩⟩
  · have closed := System.engine?_deinit l.abi.system c
    have engaged : l.abi.system.engine? c ≠ none := by rw [hengine]; exact Option.some_ne_none _
    rw [(l.stop_eq (some slot)).2, Abi.stop_of_lookup found]
    change (((l.abi.system.deinit c).2.release c).2).requests c = _
    rw [System.release_of_closed closed, System.requests_modify, System.requests_deinit,
      if_pos ⟨rfl, engaged⟩]

-- ---------------------------------------------------------------------------
-- A shutdown that fails
-- ---------------------------------------------------------------------------

variable {engine : σ}

theorem stop_of_open (found : l.abi.lookup (some slot) = some c)
    (engaged : l.abi.system.engine? c = some engine) :
    (l.stop (some slot)).1 = (if (Engine.shutdown engine (l.abi.system.hold c)).panicked
      then .clientInvalid else .ok) ∧
    (l.stop (some slot)).2.abi =
      { system := ((l.abi.system.spent c engine).abandon c).withoutReference c
        registry := l.abi.registry.erase (l.abi.slots slot).key
        slots := (l.abi.write slot {}).slots } := by
  have closed := System.engine?_deinit l.abi.system c
  have hdeinit := System.deinit_of_engaged engaged
  rw [(l.stop_eq (some slot)).1, (l.stop_eq (some slot)).2, Abi.stop_of_lookup found]
  constructor
  · rw [hdeinit]
    split <;> rfl
  · rw [Abi.closed, System.release_of_closed closed, hdeinit]

theorem shutdownFails {m : Memory} {slots : SlotId → Handle} {trace : System.Trace σ}
    (run : Abi.Run { system := { memory := m }, slots } trace l.abi)
    (found : l.abi.lookup (some slot) = some c)
    (engaged : l.abi.system.engine? c = some engine)
    (failing : (Engine.shutdown engine (l.abi.system.hold c)).panicked = true) :
    l.ShutdownFails slot c engine := by
  obtain ⟨status, stopped⟩ := stop_of_open found engaged
  have isOpen := System.closed?_eq_some_false.mpr ⟨engine, engaged⟩
  have hgone : (l.stop (some slot)).2.abi.system.closed? c = some true := by
    have hclosed := System.closed?_deinit l.abi.system c
    rw [System.deinit_of_engaged engaged, isOpen] at hclosed
    have undisturbed : System.Undisturbed c ((l.abi.system.spent c engine).abandon c)
        (((l.abi.system.spent c engine).abandon c).withoutReference c) :=
      .modify _ c fun _ => rfl
    rw [stopped]
    exact undisturbed.closed.trans hclosed
  refine ⟨?_, ?_, ?_, ?_, ?_, ?_⟩
  · rw [status, if_pos failing]
  · rw [stopped]
  · rw [stopped]
    exact Registry.get?_erase _ _
  · rw [stopped]
  · intro unshared
    rw [stopped]
    exact (System.abandon_drops (System.gone_spent engaged unshared)).congr rfl rfl rfl
      (System.held_modify_same fun _ => rfl)
  · intro more
    obtain ⟨_, after⟩ := abi_run (l.stop (some slot)).2 more
    obtain ⟨_, whole⟩ := abi_run l (.stop (some slot) :: more)
    have undisturbed := after.system.undisturbed hgone
    have closed := System.engine?_of_closed (undisturbed.closed.trans hgone)
    refine ⟨?_, System.unshare_drops closed, ?_, ?_⟩
    · rw [undisturbed.requests, (reaches found isOpen).stop]
    · rintro ⟨p, place⟩ hloan
      have before := run.system.balanced (System.balanced_empty m c)
      have hissued := before.issued_of_held (mem_loansOf.mp hloan)
      refine (whole.system.balanced before).once (List.getElem?_append_left ?_ |>.trans hissued)
      exact (List.getElem?_eq_some_iff.mp hissued).1
    · intro unshared
      exact (run.system.append whole.system).cleared c ⟨closed, unshared⟩

-- ---------------------------------------------------------------------------
-- Whole runs
-- ---------------------------------------------------------------------------

theorem allMended_run (h : mended.abi.system.AllMended) {commands : List (Abi.Command (Mended σ))}
    (mends : ∀ command ∈ commands, command.Mends) : (mended.run commands).abi.system.AllMended := by
  induction commands generalizing mended with
  | nil => exact h
  | cons command rest ih =>
    obtain ⟨first, others⟩ := List.forall_mem_cons.mp mends
    refine ih ?_ others
    rw [(exec_eq _ _).2]
    exact mended.abi.allMended_exec h first

theorem submit_mended (same : l.abi = mended.abi.unmended) (h : mended.abi.system.AllMended)
    {slot : Option SlotId} {packet : Option PacketId} (failing : l.abi.FailsOn slot packet) :
    (mended.submit slot packet).1 = .ok := by
  have reported := (contains same failing).mended
  obtain ⟨c, p, r, found, -, reaction, -⟩ := failing
  rw [same] at reaction
  obtain ⟨engine, hengine, -⟩ := Option.map_eq_some_iff.mp reaction
  change mended.abi.system.unmended.engine? c = some engine at hengine
  rw [System.engine?_map] at hengine
  obtain ⟨x, hx, -⟩ := Option.map_eq_some_iff.mp hengine
  have hmended : mended.abi.system.isMended c = true := by
    rw [System.isMended, hx, Option.any_some, h c x hx]
  rw [reported c found, if_pos hmended]

omit [Launch σ] in
def opened (m : Memory) (slots : SlotId → Handle) : LockedAbi σ where
  abi := { system := { memory := m }, slots }

/-- Whether the engines that fail in submits are mended makes no difference but to the statuses of
these submits. Locks that failures poison are no obstacle, and a shutdown that fails ends the
client as any other one. All commands are covered (`Abi.exists_mended`). -/
theorem containment (m : Memory) (slots : SlotId → Handle)
    (commands : List (Abi.Command (Mended σ))) :
    let l : LockedAbi σ := (opened m slots).run (commands.map (·.unmended))
    let mended : LockedAbi (Mended σ) := (opened m slots).run commands
    l.abi = (commands.map (·.unmended)).foldl Abi.exec { system := { memory := m }, slots } ∧
    l.Resembles mended ∧
    (∀ command, ¬ l.abi.Fails command.unmended →
      (l.exec command.unmended).1 = (mended.exec command).1) ∧
    (∀ slot packet, l.abi.FailsOn slot packet → l.Contains mended slot packet ∧
      ((∀ command ∈ commands, command.Mends) → (mended.submit slot packet).1 = .ok)) ∧
    (∀ slot c, l.abi.lookup (some slot) = some c → l.abi.system.closed? c = some false →
      l.Reaches slot c) ∧
    ∀ slot c engine, l.abi.lookup (some slot) = some c →
      l.abi.system.engine? c = some engine →
      (Engine.shutdown engine (l.abi.system.hold c)).panicked = true →
      l.ShutdownFails slot c engine := by
  intro l mended
  have same : l.abi = mended.abi.unmended := run_unmended rfl commands
  refine ⟨run_eq _ _, resembles same, ?_, ?_, ?_, ?_⟩
  · intro command calm
    rw [(exec_eq _ _).1, (exec_eq _ _).1, same]
    exact (mended.abi.reply_unmended command (same ▸ calm)).symm
  · intro slot packet failing
    refine ⟨contains same failing, fun mends => submit_mended same (allMended_run ?_ mends) failing⟩
    intro c x hx
    simp [opened, System.engine?, System.client?] at hx
  · intro slot c found isOpen
    exact reaches found isOpen
  · intro slot c engine found engaged failing
    obtain ⟨trace, run⟩ := abi_run (opened m slots) (commands.map (·.unmended))
    exact shutdownFails run found engaged failing

/-- One engine fails in each submit, the other one in its shutdown, with a packet that it holds. -/
def twoFailing : List (Abi.Command (Mended Service)) :=
  [.register 0 (.ofEngine .zero [] .native 8 ⟨.scripted { onSubmit := .panic }, true⟩),
    .register 1 (.ofEngine .zero [] .native 9 ⟨.scripted { onShutdown := .panic }, true⟩),
    .submit (some 0) (some 3),
    .submit (some 1) (some 4)]

theorem containment_twoFailing :
    let l : LockedAbi Service :=
      (opened (fun _ => {}) fun _ => {}).run (twoFailing.map (·.unmended))
    let mended := (opened (fun _ => {}) fun _ => {}).run twoFailing
    l.poisoned 0 = true ∧ (l.exec (.submit (some 1) (some 5))).1 = .called .ok ∧
      (l.exec (.submit (some 1) (some 5))).1 = (mended.exec (.submit (some 1) (some 5))).1 ∧
      l.Resembles mended ∧ l.Contains mended (some 0) (some 5) ∧
      (mended.submit (some 0) (some 5)).1 = .ok ∧ l.Reaches 0 0 ∧
      l.abi.system.loans 1 = [(4, 0)] ∧
      l.ShutdownFails 1 1 (.scripted { onShutdown := .panic }) := by
  intro l mended
  obtain ⟨-, alike, replies, submits, calls, shutdowns⟩ :=
    containment (fun _ => {}) (fun _ => {}) twoFailing
  have mends : ∀ command ∈ twoFailing, command.Mends := by
    simp [twoFailing, Abi.Command.Mends, Client.ofEngine]
  have failing : l.abi.FailsOn (some 0) (some 5) :=
    Abi.failsOn_iff.mpr ⟨0, 5, by decide, rfl, by decide⟩
  refine ⟨by decide, by decide, ?_, alike, (submits _ _ failing).1, (submits _ _ failing).2 mends,
    calls 0 0 (by decide) (by decide), by decide, ?_⟩
  · refine replies (.submit (some 1) (some 5)) fun failing => ?_
    obtain ⟨c, p, found, packet, failed⟩ := Abi.failsOn_iff.mp failing
    cases found
    cases packet
    exact absurd failed (by decide)
  · exact shutdowns 1 1 _ (by decide) rfl (by decide)

end LockedAbi

end Courier
