import Courier.Proofs.Client.Runs
import Courier.Proofs.Echo.Answers

/-!
# The echo worker at work

Where there are threads a host submits and closes while the worker takes packet after packet off
the queue, copies its payload into the buffer and calls back. A `ThreadedClient` is both of them at
one moment, and a run lets them take their steps in any order. Whatever the order is, the answers
are given in the order of the submits, and a call that closes the client returns when all are given.
-/

namespace Courier.Echo

open Courier.System (Answer Op)

variable {limit : UInt32} {context : UInt64} {m w : Memory} {given awaited : List Callback}

def Task.packet : Task → PacketId
  | .fill p _ => p
  | .submit p => p

def Task.op : Task → Op Service
  | .fill p packet => .fill p packet
  | .submit p => .submit 0 p

/-- The ways to shut the engine down: to close the client or to give its last reference up. -/
inductive Closing where
  | deinit
  | drop

def Closing.leave (s : System Service) : Closing → System Service
  | .deinit => s
  | .drop => s.recount 0 (· - 1)

def Closing.call (s : System Service) : Closing → System Service
  | .deinit => (s.deinit 0).2
  | .drop => (s.release 0).2

theorem Closing.call_eq (s : System Service) (last : s.references 0 = 1) (closing : Closing) :
    closing.call s = ((closing.leave s).deinit 0).2 := by
  cases closing with
  | deinit => rfl
  | drop =>
    have deinit := congrArg (·.2) (System.deinit_recount s 0 (· - 1))
    exact (System.release_of_last last).trans deinit.symm

theorem Closing.engine?_leave (s : System Service) (closing : Closing) :
    (closing.leave s).engine? 0 = s.engine? 0 := by
  cases closing with
  | deinit => rfl
  | drop => exact System.engine?_withoutReference s 0 0

theorem Closing.account_leave {s : System Service} (h : s.Account limit context w given awaited)
    (closing : Closing) : (closing.leave s).Account limit context w given awaited := by
  cases closing with
  | deinit => exact h
  | drop => exact h.modify (fun _ => rfl) fun _ => rfl

/-- The worker between two packets or with one in its hands. -/
inductive WorkerPhase where
  | idle
  | received (place : Place)
  /-- The copy of the payload is in the buffer. -/
  | copied (place : Place) (ending : Ending)

def WorkerPhase.places : WorkerPhase → List Place
  | .idle => []
  | .received place => [place]
  | .copied place _ => [place]

structure ThreadedClient where
  system : System Service
  phase : WorkerPhase := .idle
  /-- The engine that was taken out of its client, by the call that waits for the worker. -/
  taken : Option Echo := none
  returned : Bool := false

namespace ThreadedClient

def engine? (x : ThreadedClient) : Option Echo :=
  match x.taken, x.system.engine? 0 with
  | some e, _ => some e
  | none, some (.echo e) => some e
  | none, _ => none

def withEngine (x : ThreadedClient) (e : Echo) : ThreadedClient :=
  match x.taken with
  | some _ => { x with taken := some e }
  | none => { x with system := x.system.modify 0 fun k => { k with engine := some (.echo e) } }

inductive Act where
  | task (task : Task)
  | close (closing : Closing)
  | receive
  | copy
  | deliver
  | join

variable {x y z : ThreadedClient}

/-- The host uses no packet that is on loan, and the call that closes the client comes back from
joining the worker. -/
inductive Step : ThreadedClient → Act → ThreadedClient → Prop
  | task {x : ThreadedClient} (task : Task) (serving : x.taken = none)
      (free : x.system.outstanding 0 task.packet = 0) :
      Step x (.task task) { x with system := (x.system.act task.op).2 }
  | close {x : ThreadedClient} {e s} (closing : Closing) (serving : x.taken = none)
      (taken : (closing.leave x.system).take 0 = (some (.echo e), s)) :
      Step x (.close closing) { x with system := s.log (.released 0), taken := some e }
  | receive {x : ThreadedClient} {e place rest} (idle : x.phase = .idle)
      (engine : x.engine? = some e) (queue : e.queue = place :: rest) :
      Step x .receive ({ x with phase := .received place }.withEngine { e with queue := rest })
  | copy {x : ThreadedClient} {e place packet} (received : x.phase = .received place)
      (engine : x.engine? = some e)
      (full : (x.system.hold 0).packet? place = some packet) :
      Step x .copy
        ({ x with phase := .copied place (e.echo packet).2 }.withEngine (e.echo packet).1)
  | deliver {x : ThreadedClient} {place ending} (copied : x.phase = .copied place ending) :
      Step x .deliver { x with system := x.system.settle 0 place ending, phase := .idle }
  | join {x : ThreadedClient} {e} (waiting : x.taken = some e) (busy : x.returned = false)
      (idle : x.phase = .idle) (empty : e.queue = []) :
      Step x .join { x with system := x.system.abandon 0, returned := true }

def answer (x : ThreadedClient) : Act → Option Answer
  | .task task => (x.system.act task.op).1
  | _ => none

abbrev Trace := List (Act × Option Answer)

inductive Run (x : ThreadedClient) : Trace → ThreadedClient → Prop
  | nil : Run x [] x
  | snoc {trace y act z} (run : Run x trace y) (step : Step y act z) :
      Run x (trace ++ [(act, y.answer act)]) z

def Act.task? : Act → Option Task
  | .task done => some done
  | _ => none

def tasks (trace : Trace) : List Task := trace.filterMap (·.1.task?)

def replies (trace : Trace) : List Answer := trace.filterMap (·.2)

-- ---------------------------------------------------------------------------
-- What a run keeps
-- ---------------------------------------------------------------------------

variable {done : List Task}

/-- The worker has the packets on loan in its hand and on its queue, in the order of their
submits. -/
structure Sound (limit : UInt32) (context : UInt64) (m : Memory) (done : List Task)
    (x : ThreadedClient) (given awaited : List Callback) : Prop where
  account : x.system.Account limit context (written m done) given awaited
  answers : given ++ awaited = answers limit context m done
  engine : ∃ e, x.engine? = some e ∧ e.inline = false ∧ e.limit = limit ∧
    x.phase.places ++ e.queue = List.range' given.length awaited.length
  copied : ∀ place ending, x.phase = .copied place ending →
    ∀ y ∈ awaited.head?, ending.report = y.report
  references : x.taken = none → x.system.references 0 = 1
  returned : x.returned = true → x.taken ≠ none ∧ awaited = []

theorem engine?_of_serving (serving : x.taken = none) :
    x.engine? = some e ↔ x.system.engine? 0 = some (.echo e) := by
  unfold engine?
  rw [serving]
  split <;> simp_all

theorem engine?_of_taken (taken : x.taken = some e) : x.engine? = some e := by
  unfold engine?
  rw [taken]

theorem withEngine_of_taken (taken : x.taken = some e') (e : Echo) :
    x.withEngine e = { x with taken := some e } := by
  unfold withEngine
  rw [taken]

theorem withEngine_of_serving (serving : x.taken = none) (e : Echo) :
    x.withEngine e =
      { x with system := x.system.modify 0 fun k => { k with engine := some (.echo e) } } := by
  unfold withEngine
  rw [serving]

theorem engine?_withEngine (h : x.engine? = some e') (e : Echo) :
    (x.withEngine e).engine? = some e := by
  cases taken : x.taken with
  | some e' =>
    rw [withEngine_of_taken taken]
    exact engine?_of_taken rfl
  | none =>
    obtain ⟨k, hk, -⟩ := System.client_of_engine ((engine?_of_serving taken).mp h)
    rw [withEngine_of_serving taken]
    refine (engine?_of_serving ?_).mpr ?_
    · exact taken
    · simp [System.engine?, hk]

theorem phase_withEngine (x : ThreadedClient) (e : Echo) : (x.withEngine e).phase = x.phase := by
  unfold withEngine
  split <;> rfl

theorem returned_withEngine (x : ThreadedClient) (e : Echo) :
    (x.withEngine e).returned = x.returned := by
  unfold withEngine
  split <;> rfl

theorem taken_withEngine (x : ThreadedClient) (e : Echo) :
    (x.withEngine e).taken = none ↔ x.taken = none := by
  unfold withEngine
  split <;> simp_all

variable {e e' : Echo} {place : Place}

theorem Sound.engine_eq (h : Sound limit context m done x given awaited)
    (engine : x.engine? = some e) : e.inline = false ∧ e.limit = limit ∧
      x.phase.places ++ e.queue = List.range' given.length awaited.length := by
  obtain ⟨e', engine', sound⟩ := h.engine
  exact Option.some.inj (engine'.symm.trans engine) ▸ sound

theorem Sound.turn (h : Sound limit context m done x given awaited) (engine : x.engine? = some e)
    (phase : WorkerPhase) (e' : Echo) (inline : e'.inline = e.inline) (same : e'.limit = e.limit)
    (places : phase.places ++ e'.queue = x.phase.places ++ e.queue)
    (copied : ∀ place ending, phase = .copied place ending →
      ∀ y ∈ awaited.head?, ending.report = y.report) :
    Sound limit context m done ({ x with phase }.withEngine e') given awaited := by
  obtain ⟨threaded, hlimit, queued⟩ := h.engine_eq engine
  have engine' : ({ x with phase }.withEngine e').engine? = some e' :=
    engine?_withEngine (x := { x with phase }) engine e'
  have staffed : ∃ e, ({ x with phase }.withEngine e').engine? = some e ∧ e.inline = false ∧
      e.limit = limit ∧ ({ x with phase }.withEngine e').phase.places ++ e.queue =
        List.range' given.length awaited.length := by
    refine ⟨e', engine', inline.trans threaded, same.trans hlimit, ?_⟩
    rw [phase_withEngine]
    exact places.trans queued
  have account : ({ x with phase }.withEngine e').system.Account limit context (written m done)
      given awaited := by
    unfold withEngine
    split
    · exact h.account
    · exact h.account.modify (fun _ => rfl) fun _ => rfl
  have references : ({ x with phase }.withEngine e').taken = none →
      ({ x with phase }.withEngine e').system.references 0 = 1 := by
    unfold withEngine
    split
    · exact nofun
    · intro serving
      have kept : ((x.system.modify 0 fun k => { k with engine := some (.echo e') }).client? 0).map
          (·.references) = (x.system.client? 0).map (·.references) :=
        System.Lasting.modify fun _ => rfl
      exact (System.references_congr kept).trans (h.references serving)
  refine ⟨account, h.answers, staffed, ?_, references, ?_⟩
  · rw [phase_withEngine]
    exact copied
  · rw [returned_withEngine, ne_eq, taken_withEngine]
    exact h.returned

theorem Sound.receive (h : Sound limit context m done x given awaited) (idle : x.phase = .idle)
    (engine : x.engine? = some e) (queue : e.queue = place :: rest) :
    Sound limit context m done
      ({ x with phase := .received place }.withEngine { e with queue := rest }) given awaited := by
  refine h.turn engine (.received place) { e with queue := rest } rfl rfl ?_ ?_
  · rw [idle, queue]
    rfl
  · intro _ _ copied
    cases copied

/-- The packet in the worker's hand is the one to which an answer is awaited first. -/
theorem Sound.awaited_cons (h : Sound limit context m done x given awaited)
    (holding : x.phase.places = [place]) :
    ∃ first rest, awaited = first :: rest ∧ place = given.length := by
  obtain ⟨e, -, -, -, places⟩ := h.engine
  rw [holding] at places
  cases awaited with
  | nil => simp at places
  | cons first rest =>
    rw [List.length_cons, List.range'_succ] at places
    exact ⟨first, rest, rfl, (List.cons.inj places).1⟩

theorem Sound.packet? {first : Callback}
    (h : Sound limit context m done x given (first :: awaited)) :
    (x.system.hold 0).packet? given.length = some (x.system.memory first.packet) := by
  obtain ⟨k, hk, -⟩ := Option.map_eq_some_iff.mp h.account.client
  have loan := h.account.first
  rw [System.held_of_client hk] at loan
  simp [System.hold, hk, Client.hold, Hold.packet?, List.getElem?_map, loan]

theorem Sound.copy (h : Sound limit context m done x given awaited)
    (received : x.phase = .received place) (engine : x.engine? = some e)
    (full : (x.system.hold 0).packet? place = some packet) :
    Sound limit context m done
      ({ x with phase := .copied place (e.echo packet).2 }.withEngine (e.echo packet).1) given
      awaited := by
  obtain ⟨buffer, echo⟩ := e.echo_eq packet
  obtain ⟨-, hlimit, -⟩ := h.engine_eq engine
  have holding : x.phase.places = [place] := by rw [received]; rfl
  obtain ⟨first, rest, rfl, rfl⟩ := h.awaited_cons holding
  rw [echo]
  refine h.turn engine (.copied given.length _) { e with buffer } rfl rfl (by rw [holding]; rfl) ?_
  rintro _ _ ⟨⟩ callback hcallback
  obtain rfl : first = callback := Option.some.inj hcallback
  obtain rfl := Option.some.inj (h.packet?.symm.trans full)
  rw [Ending.report_echo, hlimit, h.account.memory, h.account.due first List.mem_cons_self]

theorem Sound.deliver (h : Sound limit context m done x given awaited)
    (copied : x.phase = .copied place ending) :
    ∃ first rest, awaited = first :: rest ∧
      Sound limit context m done
        { x with system := x.system.settle 0 place ending, phase := .idle }
        (given ++ [first]) rest := by
  have holding : x.phase.places = [place] := by rw [copied]; rfl
  obtain ⟨first, rest, rfl, rfl⟩ := h.awaited_cons holding
  have reports : ending.report = first.report := h.copied _ _ copied first rfl
  have bare := System.bare_settle x.system 0 given.length ending 0
  refine ⟨first, rest, rfl, h.account.settle reports, ?_, ?_, ?_, ?_, ?_⟩
  · rw [List.append_assoc]
    exact h.answers
  · obtain ⟨e, engine, threaded, hlimit, places⟩ := h.engine
    refine ⟨e, ?_, threaded, hlimit, ?_⟩
    · unfold engine? at engine ⊢
      rw [System.engine?_congr bare]
      exact engine
    · rw [holding, List.length_cons, List.range'_succ] at places
      rw [List.length_append]
      exact (List.cons.inj places).2
  · intro _ _ nothing
    cases nothing
  · intro serving
    have kept := System.references_congr (System.lasting_references.congr bare)
    exact kept.trans (h.references serving)
  · intro returned
    cases (h.returned returned).2

theorem Sound.fill (h : Sound limit context m done x given awaited) (packet : Packet)
    (free : x.system.outstanding 0 p = 0) :
    Sound limit context m (done ++ [.fill p packet])
      { x with system := { x.system with memory := x.system.memory.set p packet } }
      given awaited where
  account := by
    rw [written_append]
    exact h.account.fill packet (h.account.packet_ne free)
  answers := by rw [h.answers, answers_append]; exact (List.append_nil _).symm
  engine := h.engine
  copied := h.copied
  references := h.references
  returned := h.returned

theorem Sound.length_held (h : Sound limit context m done x given awaited) :
    (x.system.hold 0).length = given.length + awaited.length := by
  rw [System.length_hold, h.account.held]
  simp

theorem Sound.submit (h : Sound limit context m done x given awaited) (serving : x.taken = none)
    (p : PacketId) :
    (x.system.submit 0 p).1 = .value (.ok ()) ∧
    Sound limit context m (done ++ [.submit p]) { x with system := (x.system.submit 0 p).2 } given
      (awaited ++ [⟨p, context, (written m done p).echoed limit⟩]) := by
  obtain ⟨e, engine, threaded, hlimit, places⟩ := h.engine
  have present := (engine?_of_serving serving).mp engine
  have taken : Engine.submit e (x.system.hold 0) (x.system.memory p) =
      { engine := { e with queue := e.queue ++ [(x.system.hold 0).length] } } := by
    simp only [Engine.submit, threaded, Bool.false_eq_true, if_false]
  rw [System.submit_echo present, taken]
  refine ⟨rfl, ?_, ?_, ?_, ?_, ?_, ?_⟩
  · rw [written_append]
    exact ((h.account.log rfl).issue p).modify (fun _ => rfl) fun _ => rfl
  · rw [← List.append_assoc, h.answers, answers_append]
    rfl
  · obtain ⟨k, hk, -⟩ := System.client_of_engine present
    refine ⟨_, (engine?_of_serving ?_).mpr (System.engine?_offer hk p _), threaded, hlimit, ?_⟩
    · exact serving
    · change x.phase.places ++ (e.queue ++ [(x.system.hold 0).length]) = _
      rw [← List.append_assoc, places, h.length_held, List.length_append, List.length_singleton,
        List.range'_1_concat]
  · intro place ending copied
    have holding : x.phase.places = [place] := by rw [copied]; rfl
    obtain ⟨first, rest, rfl, -⟩ := h.awaited_cons holding
    exact h.copied place ending copied
  · intro _
    exact (System.references_congr (System.lasting_references.offer _ 0 p _)).trans
      (h.references serving)
  · intro returned
    exact absurd serving (h.returned returned).1

theorem Sound.close (h : Sound limit context m done x given awaited) (closing : Closing)
    (serving : x.taken = none) (taken : (closing.leave x.system).take 0 = (some (.echo e), s)) :
    Sound limit context m done { x with system := s.log (.released 0), taken := some e } given
      awaited := by
  obtain ⟨engine, rfl⟩ := Prod.mk.inj taken
  have engine := (engine?_of_serving serving).mpr ((closing.engine?_leave _).symm.trans engine)
  refine ⟨?_, h.answers, ⟨e, rfl, h.engine_eq engine⟩, h.copied, nofun, ?_⟩
  · exact (closing.account_leave h.account).release
  · intro returned
    exact absurd serving (h.returned returned).1

theorem Sound.awaited_nil (h : Sound limit context m done x given awaited)
    (engine : x.engine? = some e) (idle : x.phase = .idle) (empty : e.queue = []) :
    awaited = [] := by
  obtain ⟨-, -, places⟩ := h.engine_eq engine
  rw [idle, empty] at places
  exact List.eq_nil_of_length_eq_zero (List.range'_eq_nil_iff.mp places.symm)

theorem Sound.join (h : Sound limit context m done x given awaited) (waiting : x.taken = some e)
    (idle : x.phase = .idle) (empty : e.queue = []) :
    Sound limit context m done { x with system := x.system.abandon 0, returned := true } given
      awaited := by
  obtain rfl := h.awaited_nil (engine?_of_taken waiting) idle empty
  rw [System.abandon_of_nothing_open h.account.nothing_open]
  have busy : x.taken ≠ none := by simp [waiting]
  exact { h with returned := fun _ => ⟨busy, rfl⟩ }

theorem Sound.step (h : Sound limit context m done x given awaited) (step : Step x act y) :
    ∃ more rest, Sound limit context m (done ++ act.task?.toList) y (given ++ more) rest ∧
      (x.answer act).toList =
        List.replicate (Echo.answers limit context (written m done) act.task?.toList).length
          (.value (.ok ())) := by
  have idle {z : ThreadedClient} {given awaited : List Callback}
      (h : Sound limit context m done z given awaited) :
      Sound limit context m (done ++ none.toList) z given awaited := by
    rwa [Option.toList_none, List.append_nil]
  have silent {z : ThreadedClient} {done : List Task} {awaited : List Callback}
      (h : Sound limit context m done z given awaited) :
      Sound limit context m done z (given ++ []) awaited := by
    rwa [List.append_nil]
  cases step with
  | task task serving free =>
    cases task with
    | fill p packet => exact ⟨[], awaited, silent (h.fill packet free), rfl⟩
    | submit p =>
      obtain ⟨reply, sound⟩ := h.submit serving p
      exact ⟨[], _, silent sound, congrArg (fun answer => [answer]) reply⟩
  | close closing serving taken => exact ⟨_, _, silent (idle (h.close closing serving taken)), rfl⟩
  | receive free engine queue => exact ⟨_, _, silent (idle (h.receive free engine queue)), rfl⟩
  | copy received engine full => exact ⟨_, _, silent (idle (h.copy received engine full)), rfl⟩
  | deliver copied =>
    obtain ⟨first, rest, rfl, sound⟩ := h.deliver copied
    exact ⟨[first], rest, idle sound, rfl⟩
  | join waiting busy free empty => exact ⟨_, _, silent (idle (h.join waiting free empty)), rfl⟩

theorem tasks_snoc (trace : Trace) (act : Act) (answer : Option Answer) :
    tasks (trace ++ [(act, answer)]) = tasks trace ++ act.task?.toList := by
  cases h : act.task? <;> simp [tasks, h]

theorem replies_snoc (trace : Trace) (act : Act) (answer : Option Answer) :
    replies (trace ++ [(act, answer)]) = replies trace ++ answer.toList := by
  cases answer <;> simp [replies]

theorem Sound.run (h : Sound limit context m done x given awaited) (run : Run x trace y) :
    ∃ more rest, Sound limit context m (done ++ tasks trace) y (given ++ more) rest ∧
      replies trace = List.replicate
        (Echo.answers limit context (written m done) (tasks trace)).length (.value (.ok ())) := by
  induction run with
  | nil => exact ⟨[], awaited, by simpa [tasks] using h, rfl⟩
  | @snoc trace y act z run step ih =>
    obtain ⟨more, rest, sound, replied⟩ := ih
    obtain ⟨further, rest', sound', reply⟩ := sound.step step
    refine ⟨more ++ further, rest', ?_, ?_⟩
    · rw [tasks_snoc, ← List.append_assoc, ← List.append_assoc]
      exact sound'
    · rw [replies_snoc, tasks_snoc, replied, reply, List.replicate_append_replicate,
        answers_append, List.length_append, written_append]

-- ---------------------------------------------------------------------------
-- The end of a run
-- ---------------------------------------------------------------------------

theorem Run.append (first : Run x trace y) (second : Run y more z) : Run x (trace ++ more) z := by
  induction second with
  | nil => rwa [List.append_nil]
  | snoc _ step ih =>
    rw [← List.append_assoc]
    exact ih.snoc step

/-- The worker ends the first packet on the queue, and nobody comes between. -/
theorem Sound.turn_first (h : Sound limit context m done x given awaited)
    (taken : x.taken = some e) (idle : x.phase = .idle) (queue : e.queue = place :: rest) :
    ∃ trace buffer p, tasks trace = [] ∧ (x.system.hold 0).packet? place = some p ∧
      Run x trace { x with
        system := x.system.settle 0 place (.echo e.limit p)
        phase := .idle
        taken := some { e with queue := rest, buffer } } := by
  have engine := engine?_of_taken taken
  have receive := Step.receive idle engine queue
  have received := h.receive idle engine queue
  rw [withEngine_of_taken (by exact taken)] at receive received
  obtain ⟨first, awaited, rfl, rfl⟩ := received.awaited_cons rfl
  let p := x.system.memory first.packet
  have full : (x.system.hold 0).packet? given.length = some p := h.packet?
  have copy := Step.copy
    (x := { x with phase := .received given.length, taken := some { e with queue := rest } })
    rfl rfl full
  obtain ⟨buffer, echo⟩ := ({ e with queue := rest } : Echo).echo_eq p
  rw [withEngine_of_taken (by rfl), echo] at copy
  have run := ((Run.nil.snoc receive).snoc copy).snoc (.deliver rfl)
  refine ⟨_, buffer, p, ?_, full, run⟩
  rfl

/-- A call that closes the client can return, and if nobody comes between the worker ends the
packets one after the other as a shutdown does. -/
theorem Sound.finish (h : Sound limit context m done x given awaited) (taken : x.taken = some e)
    (idle : x.phase = .idle) (busy : x.returned = false) :
    ∃ trace y, Run x trace y ∧ tasks trace = [] ∧ y.returned = true ∧
      y.system =
        (x.system.settleAll 0 (endings e.limit (x.system.hold 0) e.queue)).abandon 0 := by
  have nodup : e.queue.Nodup := by
    obtain ⟨-, -, places⟩ := h.engine_eq (engine?_of_taken taken)
    rw [idle] at places
    change e.queue = _ at places
    rw [places]
    exact List.nodup_range'
  generalize hqueue : e.queue = queue at nodup ⊢
  induction queue generalizing x e given awaited with
  | nil =>
    have join := Step.join taken busy idle hqueue
    exact ⟨_, _, Run.nil.snoc join, rfl, rfl, rfl⟩
  | cons place rest ih =>
    obtain ⟨apart, nodup⟩ := List.nodup_cons.mp nodup
    obtain ⟨trace, buffer, p, none, full, turn⟩ := h.turn_first taken idle hqueue
    obtain ⟨more, awaited', h', -⟩ := h.run turn
    rw [none, List.append_nil] at h'
    obtain ⟨trace', y, run, none', returned, system⟩ := ih h' rfl rfl busy rfl nodup
    refine ⟨trace ++ trace', y, turn.append run, ?_, returned, ?_⟩
    · rw [tasks, List.filterMap_append]
      exact congrArg₂ (· ++ ·) none none'
    · have first : endings e.limit (x.system.hold 0) (place :: rest) =
          ⟨place, .echo e.limit p⟩ :: endings e.limit (x.system.hold 0) rest := by
        simp [endings, full]
      rw [system, System.endings_settle _ 0 _ apart, first]
      rfl

theorem Sound.run_idle (h : Sound limit context m done x given awaited)
    (taken : x.taken = some e) :
    ∃ trace y e', Run x trace y ∧ tasks trace = [] ∧ y.taken = some e' ∧ y.phase = .idle ∧
      y.returned = x.returned := by
  cases phase : x.phase with
  | idle => exact ⟨[], x, e, .nil, rfl, taken, phase, rfl⟩
  | received place =>
    have holding : x.phase.places = [place] := by rw [phase]; rfl
    obtain ⟨first, rest, rfl, rfl⟩ := h.awaited_cons holding
    have copy := Step.copy phase (engine?_of_taken taken) h.packet?
    rw [withEngine_of_taken (by exact taken)] at copy
    exact ⟨_, _, _, (Run.nil.snoc copy).snoc (.deliver rfl), rfl, rfl, rfl, rfl⟩
  | copied place ending =>
    exact ⟨_, _, e, Run.nil.snoc (.deliver phase), rfl, taken, rfl, rfl⟩

/-- Undisturbed, a run ends as the call says that closes the client. -/
theorem Sound.follow (h : Sound limit context m done x given awaited) (serving : x.taken = none)
    (idle : x.phase = .idle) (closing : Closing) :
    ∃ trace y, Run x trace y ∧ tasks trace = [] ∧ y.returned = true ∧
      y.system = closing.call x.system := by
  obtain ⟨e, engine, -⟩ := h.engine
  have busy : x.returned = false :=
    Bool.eq_false_iff.mpr fun returned => (h.returned returned).1 serving
  have staffed : (closing.leave x.system).engine? 0 = some (.echo e) :=
    (closing.engine?_leave _).trans ((engine?_of_serving serving).mp engine)
  have taken := System.take_of_open staffed
  have close := Step.close closing serving taken
  have h' := h.close closing serving taken
  obtain ⟨trace, y, run, none, returned, system⟩ := h'.finish rfl idle busy
  refine ⟨_, y, (Run.nil.snoc close).append run, ?_, returned, ?_⟩
  · exact none
  · rw [system, Closing.call_eq _ (h.references serving), System.deinit_of_open staffed]
    simp only [System.tearDown, Engine.shutdown, drain_eq]
    rfl

end ThreadedClient

end Courier.Echo
