import Courier.Proofs.Client.References
import Courier.Proofs.Abi.Starts
import Courier.Proofs.Engine.Steady

/-!
# Handles

Slots are memory of the host, who may copy them, keep them too long or make them up. What a
slot is good for follows from its key alone: the calls on it are honoured from the start that
issued the key to the stop that retired it, through whatever copy, and are refused before and
after (`Session.handles`). This asks of the engines that they do not fail.
-/

namespace Courier

namespace System

variable {σ : Type} [Launch σ] {K : Steady σ} {s t : System σ} {c : ClientId} {context : UInt64}

/-- The client has an engine that does not fail, and this context for its calls back. -/
structure Serves (K : Steady σ) (s : System σ) (c : ClientId) (context : UInt64) : Prop where
  context : (s.client? c).map (·.context) = some context
  engine : ∃ engine, s.engine? c = some engine ∧ K.Valid engine

namespace Serves

theorem exists_client (h : s.Serves K c context) : ∃ k, s.client? c = some k ∧
    k.context = context :=
  Option.map_eq_some_iff.mp h.context

theorem congr (h : s.Serves K c context) (same : t.client? c = s.client? c) :
    t.Serves K c context := by
  refine ⟨same ▸ h.context, ?_⟩
  rw [engine?, same]
  exact h.engine

theorem ne_length (h : s.Serves K c context) : c ≠ s.clients.length := by
  obtain ⟨k, hk, -⟩ := h.exists_client
  exact Nat.ne_of_lt (List.getElem?_eq_some_iff.mp hk).1

theorem add (h : s.Serves K c context) (k : Client σ) : (s.add k).2.Serves K c context :=
  h.congr ((client?_add s k c).trans (if_neg h.ne_length))

theorem congr_bare (h : s.Serves K c context)
    (same : (t.client? c).map (·.bare) = (s.client? c).map (·.bare)) : t.Serves K c context := by
  refine ⟨(lasting_context.congr same).trans h.context, ?_⟩
  rw [engine?_congr same]
  exact h.engine

theorem sharers (h : s.Serves K c context) (f : Nat → Nat) (d : ClientId) :
    (s.modify d fun k => { k with sharers := f k.sharers }).Serves K c context := by
  let g (k : Client σ) : Client σ := { k with sharers := f k.sharers }
  have hcontext : ((s.modify d g).client? c).map (·.context) = some context :=
    (Lasting.modify (g := g) fun _ => rfl).trans h.context
  refine ⟨hcontext, ?_⟩
  rw [engine?_modify (f := g) fun _ => rfl]
  exact h.engine

/-- The engine takes the packet or hands it back. -/
theorem submit_self (h : s.Serves K c context) (p : PacketId) :
    ((s.submit c p).1 = .value (.ok ()) ∨ ((s.submit c p).1 = .value (.error .engineStopped) ∧
      ∃ r, s.reaction? c p = some r ∧ r.verdict = .handedBack)) ∧
    (s.submit c p).2.Serves K c context := by
  obtain ⟨engine, hengine, valid⟩ := h.engine
  obtain ⟨k, hk, -⟩ := h.exists_client
  have hreaction : s.reaction? c p = some (Engine.submit engine (s.hold c) (s.memory p)) := by
    simp [reaction?, hengine]
  have hvalid := K.submit_valid engine (s.hold c) (s.memory p) valid
  have hcontext := (lasting_context.submit s c p).trans h.context
  have ways := submission s c p
  generalize s.submit c p = out at ways hcontext
  cases ways with
  | closed gone => cases gone.symm.trans hengine
  | accepted reaction =>
    obtain rfl := Option.some.inj (hreaction.symm.trans reaction)
    exact ⟨.inl rfl, hcontext, _, engine?_offer hk p _, hvalid⟩
  | handedBack reaction verdict =>
    obtain rfl := Option.some.inj (hreaction.symm.trans reaction)
    have hkept := engine?_offer hk p (Engine.submit engine (s.hold c) (s.memory p))
    exact ⟨.inr ⟨rfl, _, hreaction, verdict⟩, hcontext, _,
      (engine?_modify (f := (·.withdraw)) fun _ => rfl).trans hkept, hvalid⟩
  | panicked reaction verdict =>
    obtain rfl := Option.some.inj (hreaction.symm.trans reaction)
    exact absurd verdict (K.submit_calm engine _ _ valid)

theorem submit (h : s.Serves K c context) (d : ClientId) (p : PacketId) :
    (s.submit d p).2.Serves K c context := by
  by_cases hd : d = c
  · exact hd ▸ (h.submit_self p).2
  · exact h.congr (client?_submit_other hd s p)

theorem deinit (h : s.Serves K c context) : (s.deinit c).1 = .value (.ok ()) := by
  obtain ⟨engine, hengine, valid⟩ := h.engine
  have hcalm : ((s.withoutEngine c).tearDown c engine).1 = false :=
    K.shutdown_calm engine _ valid
  rw [deinit_of_open hengine, hcalm]
  rfl

end Serves

theorem serves_add {k : Client σ} (staffed : ∃ engine, k.engine = some engine ∧ K.Valid engine) :
    (s.add k).2.Serves K s.clients.length k.context := by
  obtain ⟨engine, hengine, valid⟩ := staffed
  have hnew := (client?_add s k s.clients.length).trans (if_pos rfl)
  refine ⟨congrArg (Option.map (·.context)) hnew, engine, ?_, valid⟩
  exact (congrArg (Option.bind · Client.engine) hnew).trans hengine

/-- What goes on without a call: the host fills its packets in, engines go on with their work and
packets are ended. -/
def Op.Sound (K : Steady σ) : Op σ → Prop
  | .fill .. | .settle .. | .share _ | .unshare _ => True
  | .work _ engine _ => K.Valid engine
  | _ => False

theorem Serves.behind (h : s.Serves K c context) {op : Op σ} (ok : op.Sound K) :
    (s.act op).2.Serves K c context := by
  cases op with
  | start | submit | deinit | retain | release => cases ok
  | fill => exact h.congr rfl
  | settle d place ending => exact h.congr_bare (bare_settle s d place ending c)
  | share d => exact h.sharers (· + 1) d
  | unshare d => exact (h.sharers (· - 1) d).congr_bare (bare_abandon _ d c)
  | work d engine settlements =>
    simp only [act]
    split
    · by_cases hd : d = c
      · obtain ⟨k, hk, -⟩ := h.exists_client
        subst hd
        exact ⟨(lasting_context.react s d engine settlements).trans h.context, engine,
          engine?_react hk engine settlements, ok⟩
      · exact h.congr ((client?_settleAll_other hd _ settlements).trans
          (client?_modify_other hd s _))
    · exact h

end System

namespace Abi

open Courier.System (Trace Serves)

variable {σ : Type} [Launch σ] {K : Steady σ} {d e : Abi σ} {trace : Trace σ} {ledger : Ledger}
  {slot : SlotId} {key context : UInt64}

/-- Hosts may make every call, on any slots, and clients may be registered with any engine that
does not fail. -/
def Command.Sound (K : Steady σ) : Command σ → Prop
  | .write .. | .start .. | .submit .. | .stop _ => True
  | .register _ k => ∃ engine, k.engine = some engine ∧ K.Valid engine
  | .behind op => op.Sound K

-- ---------------------------------------------------------------------------
-- The registry goes by the ledger
-- ---------------------------------------------------------------------------

/-- What is found in the registry are the live keys, each with a client of its own that has the
context the key was issued for. -/
structure Kept (K : Steady σ) (ledger : Ledger) (d : Abi σ) : Prop where
  nodup : d.registry.keys.Nodup
  apart : ∀ key other c, d.registry.get? key = some c → d.registry.get? other = some c → key = other
  live : ∀ key c, d.registry.get? key = some c →
    ∃ context, ledger.Live key context ∧ d.system.Serves K c context
  found : ∀ key context, ledger.Live key context →
    ∃ c, d.registry.get? key = some c ∧ d.system.Serves K c context

theorem kept_empty (m : Memory) (slots : SlotId → Handle) :
    Kept K [] { system := { memory := m }, slots } where
  nodup := .nil
  apart key other c hkey := by simp [Registry.get?] at hkey
  live key c hkey := by simp [Registry.get?] at hkey
  found key context := by
    rintro ⟨before, after, hsplit, -⟩
    simp at hsplit

theorem Kept.keep (h : Kept K ledger d) (registry : e.registry = d.registry)
    (serves : ∀ c context, d.system.Serves K c context → e.system.Serves K c context) :
    Kept K ledger e where
  nodup := registry ▸ h.nodup
  apart := registry ▸ h.apart
  live key c hkey := by
    obtain ⟨context, live, served⟩ := h.live key c (registry ▸ hkey)
    exact ⟨context, live, serves c context served⟩
  found key context live := by
    obtain ⟨c, hkey, served⟩ := h.found key context live
    exact ⟨c, registry ▸ hkey, serves c context served⟩

theorem Kept.add (h : Kept K ledger d) (counted : Counted ledger d.registry) {k : Client σ}
    (staffed : ∃ engine, k.engine = some engine ∧ K.Valid engine) (slot : SlotId) :
    Kept K (ledger ++ [.issued d.registry.next k.context]) (d.register slot k) := by
  have registered (key : UInt64) (c : ClientId) :
      (d.register slot k).registry.get? key = some c ↔
        d.registry.get? key = some c ∨ (key = d.registry.next ∧ c = d.system.clients.length) :=
    Registry.get?_register_eq_some_iff counted.next_ne_zero fun hmem =>
      counted.next_not_mem (counted.keys hmem)
  have older {key : UInt64} {c : ClientId} (hkey : d.registry.get? key = some c) :
      c ≠ d.system.clients.length := by
    obtain ⟨context, -, served⟩ := h.live key c hkey
    exact served.ne_length
  refine ⟨Registry.nodup_register h.nodup _, ?_, ?_, ?_⟩
  · intro key other c hkey hother
    rcases (registered ..).mp hkey with hkey | ⟨rfl, rfl⟩ <;>
      rcases (registered ..).mp hother with hother | ⟨rfl, hnew⟩
    · exact h.apart key other c hkey hother
    · exact absurd hnew (older hkey)
    · exact absurd rfl (older hother)
    · rfl
  · intro key c hkey
    rcases (registered ..).mp hkey with hkey | ⟨rfl, rfl⟩
    · obtain ⟨context, live, served⟩ := h.live key c hkey
      exact ⟨context, (Ledger.live_issued ..).mpr (.inl live), served.add k⟩
    · exact ⟨_, (Ledger.live_issued ..).mpr (.inr ⟨rfl, rfl⟩), System.serves_add staffed⟩
  · intro key context live
    rcases (Ledger.live_issued ..).mp live with live | ⟨rfl, rfl⟩
    · obtain ⟨c, hkey, served⟩ := h.found key context live
      exact ⟨c, (registered ..).mpr (.inl hkey), served.add k⟩
    · exact ⟨_, (registered ..).mpr (.inr ⟨rfl, rfl⟩), System.serves_add staffed⟩

theorem Kept.remove (h : Kept K ledger d) {slot : SlotId} (hslot : d.lookup (some slot) = some c) :
    Kept K (ledger ++ [.retired (d.slots slot).key]) (d.closed slot c) := by
  have erased (key : UInt64) (other : ClientId) :
      (d.closed slot c).registry.get? key = some other ↔
        d.registry.get? key = some other ∧ key ≠ (d.slots slot).key :=
    Registry.get?_erase_eq_some_iff ..
  -- the client under another key is another client, and nothing happens to it
  have others {key : UInt64} {other : ClientId} {context : UInt64}
      (hkey : (d.closed slot c).registry.get? key = some other)
      (served : d.system.Serves K other context) :
      (d.closed slot c).system.Serves K other context := by
    obtain ⟨hkey, hne⟩ := (erased ..).mp hkey
    have hother : c ≠ other := by
      rintro rfl
      exact hne (h.apart key _ c hkey hslot)
    exact served.congr ((System.client?_release_other hother _).trans
      (System.client?_deinit_other hother _))
  refine ⟨Registry.nodup_erase h.nodup _, ?_, ?_, ?_⟩
  · intro key other c hkey hother
    exact h.apart key other c ((erased ..).mp hkey).1 ((erased ..).mp hother).1
  · intro key c hkey
    obtain ⟨hold, hne⟩ := (erased ..).mp hkey
    obtain ⟨context, live, served⟩ := h.live key c hold
    exact ⟨context, (Ledger.live_retired _).mpr ⟨live, hne⟩, others hkey served⟩
  · intro key context live
    obtain ⟨live, hne⟩ := (Ledger.live_retired _).mp live
    obtain ⟨c, hold, served⟩ := h.found key context live
    have hkey := (erased key c).mpr ⟨hold, hne⟩
    exact ⟨c, hkey, others hkey served⟩

theorem Kept.exec (h : Kept K ledger d) (counted : Counted ledger d.registry) {command : Command σ}
    (ok : command.Sound K) :
    Kept K (ledger ++ (d.keyEvent? command).toList) (d.exec command) := by
  have commandStep := d.commandStep command
  generalize d.keyEvent? command = event, d.exec command = e at commandStep
  have keep {e : Abi σ} (kept : Kept K ledger e) : Kept K (ledger ++ none.toList) e := by
    rwa [Option.toList_none, List.append_nil]
  cases commandStep with
  | idle registry system =>
    exact keep (h.keep registry fun _ _ served => served.congr (by rw [system]))
  | submitted slot c p => exact keep (h.keep rfl fun _ _ served => served.submit c p)
  | behind op => exact keep (h.keep rfl fun _ _ served => served.behind ok)
  | @started gate call slot k built =>
    obtain ⟨cluster, endpoints, engine, -, -, launched, rfl⟩ := launch_of_build built
    let k := Client.ofEngine cluster endpoints call.mode call.context engine
    have staffed : ∃ engine, k.engine = some engine ∧ K.Valid engine :=
      ⟨engine, rfl, K.launch_valid launched⟩
    exact h.add counted staffed slot
  | registered slot k =>
    have staffed : ∃ engine, k.bare.engine = some engine ∧ K.Valid engine := ok
    exact h.add counted staffed slot
  | stopped found => exact h.remove found
  | @lost slot c found failed =>
    obtain ⟨context, -, served⟩ := h.live _ c found
    exact absurd (statusOf_eq_ok.mpr served.deinit) failed

theorem Session.kept {m : Memory} {slots : SlotId → Handle}
    (session : Session (Command.Sound K) { system := { memory := m }, slots } trace ledger d)
    (few : ledger.Few) : Kept K ledger d := by
  induction session with
  | nil => exact kept_empty m slots
  | snoc session command ok ih => exact (ih few.left).exec (session.counted few.left) ok

-- ---------------------------------------------------------------------------
-- The law of handles
-- ---------------------------------------------------------------------------

/-- Every call on the slot answers that there is no client, and does nothing else. -/
structure Refuses (d : Abi σ) (slot : Option SlotId) : Prop where
  submit : ∀ packet, d.submit slot packet = (.clientInvalid, d)
  stop : d.stop slot = (.clientInvalid, d)
  context : ∀ out, d.context slot out = (.clientInvalid, out)

/-- Every call on the slot gets to the client, which has this context. -/
structure Honours (d : Abi σ) (slot : SlotId) (context : UInt64) : Prop where
  /-- The packet gets to the engine, which takes it or hands it back. -/
  submit : ∀ p, ∃ c, (d.system.client? c).map (·.context) = some context ∧
    (d.submit (some slot) (some p)).2 = { d with system := (d.system.submit c p).2 } ∧
    ((d.submit (some slot) (some p)).1 = .ok ∨
      ∃ r, d.system.reaction? c p = some r ∧ r.verdict = .handedBack)
  submit_null : d.submit (some slot) none = (.packetInvalid, d)
  /-- The slot that was used is zeroed and no other, and its key leaves the registry. -/
  stop : ∃ system, d.stop (some slot) = (.ok, { system
                                                registry := d.registry.erase (d.slots slot).key
                                                slots := (d.write slot {}).slots })
  size : (d.registry.erase (d.slots slot).key).size + 1 = d.registry.size
  context : ∀ word, d.context (some slot) (some word) = (.ok, some context)
  context_null : d.context (some slot) none = (.invalidArgument, none)

theorem refuses_of_lookup {slot : Option SlotId} (missing : d.lookup slot = none) :
    d.Refuses slot where
  submit packet := by simp only [submit, missing]
  stop := by
    cases slot with
    | none => rfl
    | some slot => exact stop_of_not_found missing
  context out := by simp only [Abi.context, missing, Option.bind_none]

theorem honours_of_lookup (nodup : d.registry.keys.Nodup)
    (found : d.lookup (some slot) = some c) (serves : d.system.Serves K c context) :
    d.Honours slot context := by
  obtain ⟨k, hk, rfl⟩ := serves.exists_client
  obtain ⟨engine, hengine, -⟩ := serves.engine
  have hopen : k.isClosed = false := by
    have hk' : k.engine = some engine := by simpa [System.engine?, hk] using hengine
    simp [Client.isClosed, hk']
  have hread (word : UInt64) : d.context (some slot) (some word) = (.ok, some k.context) := by
    simp only [Abi.context, found, Option.bind_some, hk, hopen, Bool.false_eq_true, if_false]
  have hnowhere : d.context (some slot) none = (.invalidArgument, none) := by
    simp only [Abi.context, found, Option.bind_some, hk, hopen, Bool.false_eq_true, if_false]
  refine ⟨?_, ?_, ?_, ?_, ?_, ?_⟩
  · intro p
    refine ⟨c, serves.context, by simp only [submit, found], ?_⟩
    simp only [submit, found]
    exact (serves.submit_self p).1.imp (fun answer => by rw [answer]; rfl) And.right
  · simp only [submit, found]
  · rw [stop_of_lookup found, serves.deinit]
    exact ⟨_, rfl⟩
  · exact Registry.size_erase nodup (Registry.mem_keys_of_get? found)
  · exact hread
  · exact hnowhere

/-- No key is zero or issued twice. A slot is honoured exactly as long as its key is live, and
then calls on it get to the client that the key was issued for. -/
theorem Session.handles {m : Memory} {slots : SlotId → Handle}
    (session : Session (Command.Sound K) { system := { memory := m }, slots } trace ledger d)
    (few : ledger.Few) :
    ledger.issued.Nodup ∧ 0 ∉ ledger.issued ∧ d.Refuses none ∧
    ∀ slot, (∀ context, ledger.Live (d.slots slot).key context → d.Honours slot context) ∧
      ((∀ context, ¬ ledger.Live (d.slots slot).key context) → d.Refuses (some slot)) := by
  have counted := session.counted few
  have kept := session.kept few
  refine ⟨counted.nodup, counted.zero_not_mem, refuses_of_lookup rfl, ?_⟩
  intro slot
  constructor
  · intro context live
    obtain ⟨c, found, serves⟩ := kept.found _ context live
    exact honours_of_lookup kept.nodup found serves
  · intro retired
    refine refuses_of_lookup ?_
    cases found : d.lookup (some slot) with
    | none => rfl
    | some c =>
      obtain ⟨context, live, -⟩ := kept.live _ c found
      exact absurd live (retired context)

/-- A copy is as good as the slot, and the slot as bad as the copy: after a stop through the copy
its key, which it still has, is good for nothing. -/
theorem handles_copied :
    let opened := ({ slots := stale } : Abi Service).exec (.start .restricted echoStart)
    let copied := opened.exec (.write 6 (opened.slots 5))
    let stopped := copied.exec (.stop (some 6))
    (∃ trace, Session (Command.Sound Service.steady) { slots := stale } trace
        [.issued 1 7] copied) ∧
      copied.slots 6 = { key := 1 } ∧ copied.Honours 6 7 ∧
      (∃ trace, Session (Command.Sound Service.steady) { slots := stale } trace
        [.issued 1 7, .retired 1] stopped) ∧
      stopped.slots 5 = { key := 1 } ∧ stopped.Refuses (some 5) := by
  intro opened copied stopped
  have before : ∃ trace, Session (Command.Sound Service.steady) { slots := stale } trace
      [.issued 1 7] copied :=
    ⟨_, (Session.nil.snoc (.start .restricted echoStart) trivial).snoc
      (.write 6 (opened.slots 5)) trivial⟩
  have after : ∃ trace, Session (Command.Sound Service.steady) { slots := stale } trace
      [.issued 1 7, .retired 1] stopped := by
    obtain ⟨trace, session⟩ := before
    exact ⟨_, session.snoc (.stop (some 6)) trivial⟩
  have copy : copied.slots 6 = { key := 1 } := by decide +kernel
  have kept : stopped.slots 5 = { key := 1 } := by decide +kernel
  have live : Ledger.Live [.issued 1 7] 1 7 := ⟨[], [], rfl, List.not_mem_nil⟩
  have retired (context : UInt64) : ¬ Ledger.Live ([.issued 1 7] ++ [.retired 1]) 1 context :=
    fun h => ((Ledger.live_retired 1).mp h).2 rfl
  obtain ⟨_, session⟩ := before
  obtain ⟨-, -, -, honours⟩ := Session.handles session (by decide : 1 < 2 ^ 64 - 1)
  obtain ⟨_, later⟩ := after
  obtain ⟨-, -, -, refuses⟩ := Session.handles later (by decide : 1 < 2 ^ 64 - 1)
  exact ⟨⟨_, session⟩, copy, (honours 6).1 7 (copy ▸ live), ⟨_, later⟩, kept,
    (refuses 5).2 (kept ▸ retired)⟩

end Abi

end Courier
