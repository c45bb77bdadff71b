import Courier.Proofs.Client.References
import Courier.Proofs.Engine.Custody
import Courier.Service

/-!
# What an echo answers

What becomes of a packet is settled when it is submitted: an echo answers with the payload that
the packet has then, or says why it cannot. `Account` relates a client that echoes to the answers
that it has given and to those that are still awaited, for the packets on loan in the order of
their submits.
-/

namespace Courier

namespace Packet

def payload (p : Packet) : Bytes := (p.data.getD []).take p.dataSize.toNat

def echoed (p : Packet) (limit : UInt32) : Report :=
  if limit < p.dataSize then ⟨.tooMuchData, []⟩
  else if p.dataSize ≠ 0 ∧ p.data = none then ⟨.invalidDataSize, []⟩
  else ⟨.ok, p.payload⟩

theorem length_payload (p : Packet) : p.payload.length < UInt32.size :=
  Nat.lt_of_le_of_lt (List.length_take_le _ _) p.dataSize.toNat_lt

theorem outcome_echoed (p : Packet) (limit : UInt32) :
    (p.echoed limit).outcome ≠ .clientShutdown := by
  unfold echoed
  split
  · exact nofun
  · split <;> exact nofun

end Packet

theorem Report.of_fits {bytes : Bytes} (fits : bytes.length < UInt32.size) (outcome : Outcome) :
    Report.of outcome bytes = ⟨outcome, bytes⟩ :=
  if_pos fits

theorem Ending.report_echo (limit : UInt32) (p : Packet) :
    (Ending.echo limit p).report = p.echoed limit := by
  have refused (outcome : Outcome) : (Ending.complete outcome []).report = ⟨outcome, []⟩ :=
    Report.of_fits (by decide) outcome
  have answered : (Ending.complete .ok p.payload).report = ⟨.ok, p.payload⟩ :=
    Report.of_fits p.length_payload .ok
  unfold Ending.echo Packet.echoed Packet.request
  by_cases large : limit < p.dataSize
  · simp only [if_pos large, refused]
  · by_cases empty : p.dataSize = 0
    · have none : p.payload = [] := by simp [Packet.payload, empty]
      simp only [empty, none] at answered ⊢
      simp [answered]
    · cases hdata : p.data with
      | none => simp [large, empty, refused]
      | some data =>
        have payload : p.payload = data.take p.dataSize.toNat := by simp [Packet.payload, hdata]
        simp [large, empty, ← payload, answered]

namespace Echo

theorem echo_eq (e : Echo) (p : Packet) :
    ∃ buffer, e.echo p = ({ e with buffer }, Ending.echo e.limit p) := by
  simp only [echo, Ending.echo]
  cases p.request e.limit with
  | ok payload => exact ⟨payload, rfl⟩
  | error outcome => exact ⟨[], rfl⟩

def endings (limit : UInt32) (h : Hold) (places : List Place) : List Settlement :=
  places.filterMap fun place => (h.packet? place).map fun p => ⟨place, .echo limit p⟩

theorem foldl_drainStep (h : Hold) (e : Echo) (ended : List Settlement) :
    (e.queue.foldl (fun x _ => drainStep h x) (e, ended)).2 =
      ended ++ endings e.limit h e.queue := by
  generalize hq : e.queue = queue
  induction queue generalizing e ended with
  | nil => simp [endings]
  | cons place queue ih =>
    rw [List.foldl_cons]
    cases hp : h.packet? place with
    | none =>
      have step : drainStep h (e, ended) = ({ e with queue }, ended) := by
        simp [drainStep, work, hq, hp]
      rw [step, ih { e with queue } ended rfl]
      simp [endings, hp]
    | some p =>
      obtain ⟨buffer, echo⟩ := ({ e with queue } : Echo).echo_eq p
      have step : drainStep h (e, ended) =
          ({ e with queue, buffer }, ended ++ [⟨place, .echo e.limit p⟩]) := by
        simp [drainStep, work, hq, hp, echo]
      rw [step, ih { e with queue, buffer } _ rfl]
      simp [endings, hp]

theorem drain_eq (e : Echo) (h : Hold) : (e.drain h).2 = endings e.limit h e.queue :=
  foldl_drainStep h e []

structure Callback where
  packet : PacketId
  context : UInt64
  report : Report
deriving DecidableEq, Repr

inductive Task where
  | fill (p : PacketId) (packet : Packet)
  | submit (p : PacketId)

/-- The packets as the host has filled them in, apart from what deliveries write to them. -/
def written (w : Memory) : List Task → Memory
  | [] => w
  | .fill p packet :: tasks => written (w.set p packet) tasks
  | .submit _ :: tasks => written w tasks

/-- The answers to the packets submitted, in that order. -/
def answers (limit : UInt32) (context : UInt64) (w : Memory) : List Task → List Callback
  | [] => []
  | .fill p packet :: tasks => answers limit context (w.set p packet) tasks
  | .submit p :: tasks => ⟨p, context, (w p).echoed limit⟩ :: answers limit context w tasks

theorem written_append (w : Memory) (tasks more : List Task) :
    written w (tasks ++ more) = written (written w tasks) more := by
  induction tasks generalizing w with
  | nil => rfl
  | cons task tasks ih =>
    cases task with
    | fill p packet => exact ih (w.set p packet)
    | submit p => exact ih w

theorem answers_append (limit : UInt32) (context : UInt64) (w : Memory) (tasks more : List Task) :
    answers limit context w (tasks ++ more) =
      answers limit context w tasks ++ answers limit context (written w tasks) more := by
  induction tasks generalizing w with
  | nil => rfl
  | cons task tasks ih =>
    cases task with
    | fill p packet => exact ih (w.set p packet)
    | submit p => exact congrArg _ (ih w)

theorem outcome_answers (limit : UInt32) (context : UInt64) (w : Memory) (tasks : List Task) :
    ∀ callback ∈ answers limit context w tasks, callback.report.outcome ≠ .clientShutdown := by
  induction tasks generalizing w with
  | nil => exact nofun
  | cons task tasks ih =>
    cases task with
    | fill p packet => exact ih (w.set p packet)
    | submit p => exact List.forall_mem_cons.mpr ⟨(w p).outcome_echoed limit, ih w⟩

end Echo

namespace System

variable {σ : Type} {s t : System σ} {w : Memory} {limit : UInt32} {context : UInt64}
  {p : PacketId}

def callbacks (s : System σ) (c : ClientId) : List Echo.Callback :=
  (s.completions.filter (·.client == c)).map fun x => ⟨x.packet, x.context, x.report⟩

/-- The client has given these answers and still owes those, each to a packet on loan that says
what it said when it was submitted. -/
structure Account (limit : UInt32) (context : UInt64) (w : Memory) (s : System σ)
    (given awaited : List Echo.Callback) : Prop where
  client : (s.client? 0).map (·.context) = some context
  callbacks : s.callbacks 0 = given
  held : s.held 0 = List.replicate given.length none ++ awaited.map (some ·.packet)
  memory : ∀ p, (s.memory p).echoed limit = (w p).echoed limit
  due : ∀ x ∈ awaited, x = ⟨x.packet, context, (w x.packet).echoed limit⟩

namespace Account

variable {given awaited : List Echo.Callback}

theorem congr (x : Account limit context w s given awaited)
    (client : (t.client? 0).map (·.context) = (s.client? 0).map (·.context))
    (held : t.held 0 = s.held 0) (memory : t.memory = s.memory)
    (completions : t.completions = s.completions) : Account limit context w t given awaited where
  client := client.trans x.client
  callbacks := by rw [System.callbacks, completions, ← System.callbacks, x.callbacks]
  held := held.trans x.held
  memory := memory ▸ x.memory
  due := x.due

theorem modify (x : Account limit context w s given awaited) {f : Client σ → Client σ}
    (keeps : ∀ k, (f k).context = k.context) (held : ∀ k, (f k).held = k.held) :
    Account limit context w (s.modify 0 f) given awaited := by
  refine x.congr (Lasting.modify keeps) ?_ rfl rfl
  cases hk : s.client? 0 <;> simp [System.held, hk, held]

theorem log (x : Account limit context w s given awaited) {e : Entry}
    (he : e.completion? = none) : Account limit context w (s.log e) given awaited :=
  x.congr rfl rfl rfl (by simp [completions_log, he])

theorem release (x : Account limit context w s given awaited) :
    Account limit context w ((s.withoutEngine 0).log (.released 0)) given awaited := by
  have taken : Account limit context w (s.withoutEngine 0) given awaited :=
    x.modify (fun _ => rfl) fun _ => rfl
  exact taken.log rfl

theorem fill (x : Account limit context w s given awaited) (packet : Packet)
    (free : ∀ y ∈ awaited, y.packet ≠ p) :
    Account limit context (w.set p packet) { s with memory := s.memory.set p packet } given
      awaited where
  client := x.client
  callbacks := x.callbacks
  held := x.held
  memory q := by
    change ((s.memory.set p packet) q).echoed limit = _
    unfold Memory.set
    split
    · rfl
    · exact x.memory q
  due y hy := by rw [Memory.set, if_neg (free y hy), ← x.due y hy]

theorem issue (x : Account limit context w s given awaited) (p : PacketId) :
    Account limit context w (s.modify 0 (·.issue p)) given
      (awaited ++ [⟨p, context, (w p).echoed limit⟩]) where
  client := (Lasting.modify (g := (·.issue p)) fun _ => rfl).trans x.client
  callbacks := x.callbacks
  held := by
    obtain ⟨k, hk, -⟩ := Option.map_eq_some_iff.mp x.client
    have held : (s.modify 0 (·.issue p)).held 0 = s.held 0 ++ [some p] := by
      simp [System.held, hk, Client.issue]
    rw [held, x.held, List.map_append, List.append_assoc]
    rfl
  memory := x.memory
  due := by
    refine List.forall_mem_append.mpr ⟨x.due, ?_⟩
    exact List.forall_mem_singleton.mpr rfl

theorem first (x : Account limit context w s given (y :: awaited)) :
    (s.held 0)[given.length]? = some (some y.packet) := by
  rw [x.held, List.getElem?_append_right (by simp)]
  simp

theorem settle (x : Account limit context w s given (y :: awaited)) {e : Ending}
    (he : e.report = y.report) :
    Account limit context w (s.settle 0 given.length e) (given ++ [y]) awaited := by
  obtain ⟨k, hk, -, client, memory, completions⟩ := settle_of_loan x.first e
  obtain ⟨k', hk', hcontext⟩ := Option.map_eq_some_iff.mp x.client
  obtain rfl : k = k' := Option.some.inj (hk.symm.trans hk')
  have hy := x.due y List.mem_cons_self
  refine ⟨?_, ?_, ?_, ?_, fun z hz => x.due z (List.mem_cons_of_mem _ hz)⟩
  · rw [client, if_pos rfl]
    exact congrArg some hcontext
  · have last : (⟨y.packet, k.context, e.report⟩ : Echo.Callback) = y := by rw [hcontext, he, hy]
    rw [System.callbacks, completions, List.filter_append, List.map_append, ← System.callbacks,
      x.callbacks]
    simpa [lastCall] using last
  · rw [held_settle x.first, if_pos rfl, x.held, List.set_append_right _ _ (by simp)]
    simp [List.replicate_succ']
  · intro p
    rw [memory, Memory.set]
    split
    · next hp => exact hp ▸ x.memory y.packet
    · exact x.memory p

theorem packet_ne (x : Account limit context w s given awaited) (free : s.outstanding 0 p = 0) :
    ∀ y ∈ awaited, y.packet ≠ p := by
  rintro y hy rfl
  have held : some y.packet ∈ s.held 0 :=
    x.held ▸ List.mem_append_right _ (List.mem_map_of_mem hy)
  obtain ⟨n, hn⟩ := List.mem_iff_getElem?.mp held
  exact absurd (List.countP_eq_zero.mp free _ (mem_loansOf.mpr hn)) (by simp)

theorem nothing_open (x : Account limit context w s given []) : s.loans 0 = [] := by
  rw [List.eq_nil_iff_forall_not_mem]
  rintro ⟨p, n⟩ hloan
  have hfull := mem_loansOf.mp hloan
  rw [x.held, List.map_nil, List.append_nil, List.getElem?_replicate] at hfull
  split at hfull <;> cases hfull

end Account

theorem submit_echo {s : System Service} (h : s.engine? c = some (.echo e)) (p : PacketId) :
    s.submit c p = (.value (.ok ()),
      s.offer c p (Service.lift .echo (Engine.submit e (s.hold c) (s.memory p)))) := by
  have reaction : s.reaction? c p =
      some (Service.lift .echo (Engine.submit e (s.hold c) (s.memory p))) := by
    rw [reaction?, h]
    rfl
  have accepted :
      (Service.lift .echo (Engine.submit e (s.hold c) (s.memory p))).verdict = .accepted := by
    simp only [Service.lift, Engine.submit]
    split <;> rfl
  rw [submit_of_reaction reaction, accepted]

theorem packet?_hold (s : System σ) (c : ClientId) (place : Place) :
    (s.hold c).packet? place = ((s.held c)[place]?.join).map s.memory := by
  cases hk : s.client? c with
  | none => simp [hold, held, hk, Hold.packet?]
  | some k => cases hp : k.held[place]? <;> simp [hold, held, hk, Client.hold, Hold.packet?, hp]

theorem endings_settle (s : System σ) (c : ClientId) (ending : Ending) (apart : place ∉ places) :
    Echo.endings limit ((s.settle c place ending).hold c) places =
      Echo.endings limit (s.hold c) places := by
  cases hp : (s.held c)[place]?.join with
  | none => rw [settle_of_no_loan hp]
  | some p =>
    have loan := Option.join_eq_some_iff.mp hp
    obtain ⟨-, -, -, -, memory, -⟩ := settle_of_loan loan ending
    refine List.filterMap_congr fun other hother => ?_
    have ne : place ≠ other := fun same => apart (same ▸ hother)
    rw [packet?_hold, packet?_hold, held_settle loan, if_pos rfl, List.getElem?_set_ne ne, memory]
    cases (s.held c)[other]?.join with
    | none => rfl
    | some q =>
      by_cases hq : q = p
      · subst hq
        simp [Memory.set]
        rfl
      · simp [Memory.set, hq]

end System

end Courier
