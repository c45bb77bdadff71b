import Courier.Proofs.Echo.ThreadedClient

/-!
# With threads or without

A host cannot tell from what it is told whether its echo client has a worker or answers within the
submit. `ThreadedClient.Run.dispatch` compares a run of the one with the other: they take the same
packets and give the same answers in the same order. The only difference is when: a worker may be
behind, until the call that closes the client returns.
-/

namespace Courier.Echo

open Courier.System (Answer Account)

variable {s t : System Service} {limit : UInt32} {context : UInt64} {w : Memory}
  {given : List Callback}

-- ---------------------------------------------------------------------------
-- Without threads
-- ---------------------------------------------------------------------------

/-- The client has an engine that answers within the submit, and owes no answers. -/
structure Prompt (limit : UInt32) (context : UInt64) (w : Memory) (s : System Service)
    (given : List Callback) : Prop where
  account : s.Account limit context w given []
  engine : ∃ e, s.engine? 0 = some (.echo e) ∧ e.inline = true ∧ e.limit = limit ∧ e.queue = []
  references : s.references 0 = 1

namespace Prompt

theorem fill (h : Prompt limit context w s given) (p : PacketId) (packet : Packet) :
    Prompt limit context (w.set p packet) { s with memory := s.memory.set p packet } given where
  account := h.account.fill packet nofun
  engine := h.engine
  references := h.references

theorem submit (h : Prompt limit context w s given) (p : PacketId) :
    (s.submit 0 p).1 = .value (.ok ()) ∧
      Prompt limit context w (s.submit 0 p).2 (given ++ [⟨p, context, (w p).echoed limit⟩]) := by
  obtain ⟨e, engine, inline, hlimit, queue⟩ := h.engine
  obtain ⟨buffer, echo⟩ := e.echo_eq (s.memory p)
  have place : (s.hold 0).length = given.length := by
    rw [System.length_hold, h.account.held]
    simp
  have taken : Engine.submit e (s.hold 0) (s.memory p) =
      { engine := { e with buffer }
        settlements := [⟨given.length, .echo limit (s.memory p)⟩] } := by
    simp only [Engine.submit, inline, if_true, echo, place, hlimit]
  obtain ⟨k, hk, -⟩ := System.client_of_engine engine
  rw [System.submit_echo engine, taken]
  refine ⟨rfl, ?_, ⟨_, System.engine?_offer hk p _, inline, hlimit, queue⟩, ?_⟩
  · have issued := (h.account.log (e := .offered 0 p) rfl).issue p
    have moved := issued.modify
      (f := fun k => { k with engine := some (.echo { e with buffer }) })
      (fun _ => rfl) fun _ => rfl
    refine moved.settle ?_
    rw [Ending.report_echo, h.account.memory]
  · exact (System.references_congr (System.lasting_references.offer s 0 p _)).trans h.references

/-- All answers are given when the submits have returned. -/
theorem perform (h : Prompt limit context w s given) (tasks : List Task) :
    let out := s.perform (tasks.map Task.op)
    Prompt limit context (written w tasks) out.2 (given ++ answers limit context w tasks) ∧
      out.1.filterMap (·.2) =
        List.replicate (answers limit context w tasks).length (.value (.ok ())) := by
  induction tasks generalizing s w given with
  | nil => exact ⟨(List.append_nil given).symm ▸ h, rfl⟩
  | cons task tasks ih =>
    cases task with
    | fill p packet => exact ih (h.fill p packet)
    | submit p =>
      obtain ⟨reply, h'⟩ := h.submit p
      obtain ⟨done, replies⟩ := ih h'
      refine ⟨?_, ?_⟩
      · rw [List.append_assoc] at done
        exact done
      · simp only [List.map_cons, System.perform, Task.op, System.act, List.filterMap_cons,
          reply, answers, List.length_cons, List.replicate_succ]
        exact congrArg _ replies

/-- The call that closes the client finds nothing to do. -/
theorem close (h : Prompt limit context w s given) (closing : Closing) :
    (closing.call s).callbacks 0 = given := by
  obtain ⟨e, engine, -, -, queue⟩ := h.engine
  have staffed := (closing.engine?_leave s).trans engine
  have released := (closing.account_leave h.account).release
  have idle : (e.drain (((closing.leave s).withoutEngine 0).hold 0)).2 = [] := by
    rw [drain_eq, queue]
    rfl
  rw [Closing.call_eq s h.references, System.deinit_of_open staffed]
  simp only [System.tearDown, Engine.shutdown, idle]
  exact (System.abandon_of_nothing_open released.nothing_open).symm ▸ released.callbacks

end Prompt

-- ---------------------------------------------------------------------------
-- The two compared
-- ---------------------------------------------------------------------------

def client (cluster : Cluster) (endpoints : List Address.Endpoint) (context : UInt64)
    (config : Config) (gate : Gate) : Client Service :=
  .ofEngine cluster endpoints .echo context (.echo (Echo.start config gate))

theorem start_eq (cluster : Cluster) (addresses : Bytes) (context : UInt64) (config : Config)
    (gate : Gate) : Client.start .echo cluster addresses context config gate =
      ((Address.parseBytes addresses config.maxAddresses.toNat config.defaultPort).mapError
        .address).map fun endpoints => client cluster endpoints context config gate := by
  simp only [Client.start]
  cases Address.parseBytes addresses config.maxAddresses.toNat config.defaultPort <;> rfl

def opened (m : Memory) (k : Client Service) : System Service := { memory := m, clients := [k] }

theorem account_opened (m : Memory) (gate : Gate) :
    (opened m (client cluster endpoints context config gate)).Account config.maxPayload context m
      [] [] where
  client := rfl
  callbacks := rfl
  held := rfl
  memory _ := rfl
  due := nofun

theorem prompt_opened (m : Memory) :
    Prompt config.maxPayload context m
      (opened m (client cluster endpoints context config .restricted)) [] where
  account := account_opened m .restricted
  engine := ⟨_, rfl, rfl, rfl, rfl⟩
  references := rfl

namespace ThreadedClient

theorem sound_opened (m : Memory) :
    Sound config.maxPayload context m []
      { system := opened m (client cluster endpoints context config .native) } [] [] where
  account := account_opened m .native
  answers := rfl
  engine := ⟨_, rfl, rfl, rfl, rfl⟩
  copied := nofun
  references _ := rfl
  returned := nofun

/-- The worker may be as slow as it likes, and packets may be used again as soon as they are back:
the client with a worker takes every packet that the client without takes, and gives the same
answers to them in the same order, none of them because of the shutdown. The client without a
worker has given them when the submits have returned, the other has when the call has returned
that closes it, which it can. -/
theorem Run.dispatch {m : Memory} {x : ThreadedClient}
    (run : Run { system := opened m (client cluster endpoints context config .native) } trace x) :
    let prompt := (opened m (client cluster endpoints context config .restricted)).perform
      ((tasks trace).map Task.op)
    replies trace = prompt.1.filterMap (·.2) ∧
    (∀ reply ∈ replies trace, reply = .value (.ok ())) ∧
    prompt.2.callbacks 0 = answers config.maxPayload context m (tasks trace) ∧
    (∀ callback ∈ prompt.2.callbacks 0, callback.report.outcome ≠ .clientShutdown) ∧
    (∀ closing : Closing, (closing.call prompt.2).callbacks 0 = prompt.2.callbacks 0) ∧
    x.system.callbacks 0 <+: prompt.2.callbacks 0 ∧
    (x.returned = true → x.system.callbacks 0 = prompt.2.callbacks 0) ∧
    (x.taken ≠ none → x.returned = false →
      ∃ more y, Run x more y ∧ tasks more = [] ∧ y.returned = true) := by
  intro prompt
  obtain ⟨done, promised⟩ := Prompt.perform (prompt_opened m) (tasks trace)
  obtain ⟨given, awaited, sound, replied⟩ := (sound_opened m).run run
  have callbacks : prompt.2.callbacks 0 = answers config.maxPayload context m (tasks trace) :=
    done.account.callbacks
  have given' : x.system.callbacks 0 = given := sound.account.callbacks
  have all : given ++ awaited = answers config.maxPayload context m (tasks trace) := sound.answers
  refine ⟨replied.trans promised.symm, ?_, callbacks, ?_, ?_, ?_, ?_, ?_⟩
  · intro reply hreply
    rw [replied] at hreply
    exact List.eq_of_mem_replicate hreply
  · rw [callbacks]
    exact outcome_answers _ _ _ (tasks trace)
  · intro closing
    exact (done.close closing).trans callbacks.symm
  · rw [callbacks, given', ← all]
    exact List.prefix_append given awaited
  · intro returned
    rw [callbacks, given', ← all, (sound.returned returned).2, List.append_nil]
  · intro waiting busy
    obtain ⟨e, taken⟩ := Option.ne_none_iff_exists'.mp waiting
    obtain ⟨more, y, e', toIdle, none, taken', idle, same⟩ := sound.run_idle taken
    obtain ⟨given', awaited', sound', -⟩ := sound.run toIdle
    obtain ⟨rest, z, finish, none', returned, -⟩ := sound'.finish taken' idle (same.trans busy)
    refine ⟨more ++ rest, z, toIdle.append finish, ?_, returned⟩
    rw [tasks, List.filterMap_append]
    exact congrArg₂ (· ++ ·) none none'

/-- The worker has received the first packet when the second is submitted, which is too large, and
has both still to end when the client is closed. -/
theorem dispatch_late :
    let config : Config := { maxPayload := 2 }
    let start : ThreadedClient :=
      { system := opened (fun _ => {}) (client .zero [] 7 config .native) }
    ∃ trace x, Run start trace x ∧ x.returned = true ∧
      replies trace = [.value (.ok ()), .value (.ok ())] ∧
      x.system.callbacks 0 = [⟨3, 7, .ok, [1, 2]⟩, ⟨4, 7, .tooMuchData, []⟩] := by
  intro config start
  have first : Run start _ _ :=
    (Run.nil.snoc (.task (.fill 3 { data := some [1, 2], dataSize := 2 }) rfl rfl)).snoc
      (.task (.submit 3) rfl rfl)
  have second := ((first.snoc (.receive rfl rfl rfl)).snoc
    (.task (.fill 4 { data := some [1, 2, 3], dataSize := 3 }) rfl rfl)).snoc
      (.task (.submit 4) rfl rfl)
  have waiting := second.snoc (.close .deinit rfl rfl)
  have delivered := (waiting.snoc (.copy rfl rfl rfl)).snoc (.deliver rfl)
  have all := ((delivered.snoc (.receive rfl rfl rfl)).snoc (.copy rfl rfl rfl)).snoc (.deliver rfl)
  have back := all.snoc (.join rfl rfl rfl rfl)
  obtain ⟨same, -, promised, -, -, -, given, -⟩ := Run.dispatch back
  refine ⟨_, _, back, rfl, ?_, ?_⟩
  · rw [same]
    rfl
  · rw [given rfl, promised]
    rfl

end ThreadedClient

end Courier.Echo
