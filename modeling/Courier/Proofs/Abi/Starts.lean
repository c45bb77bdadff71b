import Courier.Proofs.Abi.Ledger
import Courier.Service

/-!
# Starts

A start goes wrong for the first of its arguments that is not in order, and then leaves nothing
behind but a zeroed slot. If all of them are in order there is one client more, under a key of
its own in the slot (`Session.start_atomic`).
-/

namespace Courier

-- ---------------------------------------------------------------------------
-- What has to be in order
-- ---------------------------------------------------------------------------

namespace StartCall

def endpoints (call : StartCall) : Except Address.Error (List Address.Endpoint) :=
  Address.parseBytes ((call.address.getD []).take call.addressLength.toNat)
    ({} : Config).maxAddresses.toNat ({} : Config).defaultPort

/-- All that is not in order, in the order in which it is looked at. -/
def faults (call : StartCall) (gate : Gate) : List StartError :=
  (if call.hasCallback then [] else [.invalidArgument "completion_callback"]) ++
  (if call.cluster.isSome then [] else [.invalidArgument "cluster_id"]) ++
  (if call.address.isSome ∨ call.addressLength = 0 then [] else [.invalidArgument "address_ptr"]) ++
  (if call.mode = .native ∧ gate.allowsNative = false then [.unsupported] else []) ++
  match call.endpoints with
  | .error e => [.address e]
  | .ok _ => []

/-- Every argument is in order. -/
structure Sound (call : StartCall) (gate : Gate) : Prop where
  callback : call.hasCallback = true
  cluster : call.cluster.isSome
  address : call.address.isSome ∨ call.addressLength = 0
  mode : call.mode = .native → gate.allowsNative = true
  parses : ∃ endpoints, call.endpoints = .ok endpoints

theorem sound_iff (call : StartCall) (gate : Gate) : call.Sound gate ↔ call.faults gate = [] := by
  unfold faults
  constructor
  · rintro ⟨callback, cluster, address, mode, endpoints, parses⟩
    have hmode : ¬ (call.mode = .native ∧ gate.allowsNative = false) := by
      rintro ⟨native, denied⟩
      exact Bool.noConfusion (denied.symm.trans (mode native))
    rw [if_pos callback, if_pos cluster, if_pos address, if_neg hmode, parses]
    rfl
  · intro none
    simp only [List.append_eq_nil_iff] at none
    obtain ⟨⟨⟨⟨callback, cluster⟩, address⟩, mode⟩, parses⟩ := none
    refine ⟨?_, ?_, ?_, ?_, ?_⟩
    · by_contra missing
      simp [missing] at callback
    · by_contra missing
      simp [missing] at cluster
    · by_contra missing
      simp [missing] at address
    · intro native
      by_contra denied
      simp [native, denied] at mode
    · cases hparse : call.endpoints with
      | error e => simp [hparse] at parses
      | ok endpoints => exact ⟨endpoints, rfl⟩

variable {σ : Type} [Launch σ]

theorem addressBytes_eq (call : StartCall) : call.addressBytes =
    if call.address.isSome ∨ call.addressLength = 0 then
      .ok ((call.address.getD []).take call.addressLength.toNat)
    else .error (.invalidArgument "address_ptr") := by
  unfold addressBytes
  cases call.address <;> simp

/-- What is left of a start once there are a callback, a cluster and an address. -/
theorem start_eq (call : StartCall) (gate : Gate) (cluster : Cluster)
    (mode : ¬ (call.mode = .native ∧ gate.allowsNative = false)) :
    Client.start (σ := σ) call.mode cluster
        ((call.address.getD []).take call.addressLength.toNat) call.context {} gate =
      match call.endpoints with
      | .error e => .error (.address e)
      | .ok endpoints => (Launch.launch call.mode cluster endpoints {} gate).map
          (Client.ofEngine cluster endpoints call.mode call.context) := by
  simp only [Client.start, bind, Except.bind, if_neg mode, endpoints]
  cases Address.parseBytes ((call.address.getD []).take call.addressLength.toNat)
    ({} : Config).maxAddresses.toNat ({} : Config).defaultPort with
  | error e => rfl
  | ok endpoints => rfl

/-- A start stops at the first fault. Without one only the engine is left to be launched. -/
theorem build_cases (call : StartCall) (gate : Gate) :
    (∃ e, (call.faults gate).head? = some e ∧ call.build (σ := σ) gate = .error e) ∨
    (call.faults gate = [] ∧ ∃ cluster endpoints, call.cluster = some cluster ∧
      call.endpoints = .ok endpoints ∧
      call.build (σ := σ) gate = (Launch.launch call.mode cluster endpoints {} gate).map
        (Client.ofEngine cluster endpoints call.mode call.context)) := by
  by_cases callback : call.hasCallback = true
  case neg =>
    have missing : call.hasCallback = false := Bool.eq_false_iff.mpr callback
    refine .inl ⟨.invalidArgument "completion_callback", by simp [faults, callback], ?_⟩
    simp only [build, missing, if_true]
    rfl
  cases cluster : call.cluster with
  | none =>
    refine .inl ⟨.invalidArgument "cluster_id", by simp [faults, callback, cluster], ?_⟩
    simp only [build, callback, cluster]
    rfl
  | some name =>
    have hbuild : call.build (σ := σ) gate = call.addressBytes >>= fun bytes =>
        Client.start call.mode name bytes call.context {} gate := by
      simp only [build, callback, cluster]
      rfl
    rw [hbuild, addressBytes_eq]
    by_cases address : call.address.isSome ∨ call.addressLength = 0
    case neg =>
      rw [if_neg address]
      refine .inl ⟨.invalidArgument "address_ptr", ?_, rfl⟩
      simp only [faults, callback, cluster, if_neg address]
      rfl
    rw [if_pos address]
    by_cases mode : call.mode = .native ∧ gate.allowsNative = false
    · refine .inl ⟨.unsupported, ?_, ?_⟩
      · simp only [faults, callback, cluster, if_pos address, if_pos mode]
        rfl
      · simp only [Client.start, bind, Except.bind, if_pos mode]
        rfl
    have hstart := start_eq (σ := σ) call gate name mode
    cases parses : call.endpoints with
    | error e =>
      refine .inl ⟨.address e, ?_, ?_⟩
      · simp only [faults, callback, cluster, if_pos address, if_neg mode, parses]
        rfl
      · rw [parses] at hstart
        exact hstart
    | ok endpoints =>
      refine .inr ⟨?_, name, endpoints, rfl, rfl, ?_⟩
      · simp only [faults, callback, cluster, if_pos address, if_neg mode, parses]
        rfl
      · rw [parses] at hstart
        exact hstart

end StartCall

theorem Service.exists_launch (mode : Mode) (cluster : Cluster) (endpoints : List Address.Endpoint)
    (config : Config) (gate : Gate) :
    ∃ engine : Service, Launch.launch mode cluster endpoints config gate = .ok engine := by
  cases mode with
  | native => exact ⟨_, rfl⟩
  | echo => exact ⟨_, rfl⟩

namespace Abi

open Courier.System (Trace issuedIn)

-- ---------------------------------------------------------------------------
-- What is left behind
-- ---------------------------------------------------------------------------

/-- A client as a start makes it, which has its engine and nothing else yet. -/
structure Opens {σ : Type} (call : StartCall) (k : Client σ) : Prop where
  cluster : call.cluster = some k.cluster
  endpoints : call.endpoints = .ok k.endpoints
  mode : k.mode = call.mode
  context : k.context = call.context
  engine : k.engine.isSome
  inFlight : k.inFlight = 0
  held : k.held = []

/-- There is one client more. Its key is in the slot and, as long as keys do not run out, has
never been given out. -/
structure Added {σ : Type} (d : Abi σ) (ledger : Ledger) (slot : SlotId) (k : Client σ)
    (e : Abi σ) : Prop where
  system : e.system = { d.system with clients := d.system.clients ++ [k] }
  slots : e.slots = (d.write slot { key := d.registry.next }).slots
  next : e.registry.next = d.registry.next + 1
  fresh : ledger.Few → d.registry.next ≠ 0 ∧ d.registry.next ∉ ledger.issued ∧
    e.registry.entries = d.registry.entries ++ [(d.registry.next, d.system.clients.length)]

theorem Counted.next_ne_zero (h : Counted ledger r) : r.next ≠ 0 := by
  intro hzero
  have hnext := h.next
  rw [hzero, UInt64.toNat_zero] at hnext
  omega

variable {σ : Type} {d e : Abi σ} {ledger : Ledger} {slot : SlotId} {k : Client σ}

theorem added_register (counted : ledger.Few → Counted ledger d.registry) (slot : SlotId)
    (k : Client σ) : d.Added ledger slot k (d.register slot k) where
  system := rfl
  slots := rfl
  next := rfl
  fresh few := by
    have h := counted few
    have hmissing : d.registry.next ∉ d.registry.keys := fun hmem => h.next_not_mem (h.keys hmem)
    have herase := Registry.erase_of_not_mem hmissing
    refine ⟨h.next_ne_zero, h.next_not_mem, ?_⟩
    simp only [register, add, write, Registry.register, herase]
    rfl

theorem launch_of_build [Launch σ] {call : StartCall} (built : call.build gate = .ok k) :
    ∃ cluster endpoints engine, call.cluster = some cluster ∧ call.endpoints = .ok endpoints ∧
      Launch.launch call.mode cluster endpoints {} gate = .ok engine ∧
      k = Client.ofEngine cluster endpoints call.mode call.context engine := by
  rcases call.build_cases (σ := σ) gate with
    ⟨e, -, failed⟩ | ⟨-, cluster, endpoints, hcluster, hendpoints, hbuild⟩
  · cases built.symm.trans failed
  · rw [hbuild] at built
    cases hlaunch : Launch.launch (σ := σ) call.mode cluster endpoints {} gate with
    | error e => simp [hlaunch, Except.map] at built
    | ok engine =>
      rw [hlaunch] at built
      exact ⟨cluster, endpoints, engine, hcluster, hendpoints, hlaunch, (Except.ok.inj built).symm⟩

theorem opens_of_build [Launch σ] {call : StartCall} (built : call.build gate = .ok k) :
    Opens call k := by
  obtain ⟨cluster, endpoints, engine, hcluster, hendpoints, -, rfl⟩ := launch_of_build built
  exact ⟨hcluster, hendpoints, rfl, rfl, rfl, rfl, rfl⟩

theorem balanced_start [Launch σ] (h : d.system.Balanced c issued) (gate : Gate)
    (call : StartCall) : (d.start gate call).2.system.Balanced c issued := by
  have ways := d.starts gate call
  generalize d.start gate call = out at ways
  cases ways with
  | nowhere => exact h
  | failed => exact h
  | done _ built =>
    have opens := opens_of_build built
    exact h.add opens.held opens.inFlight

/-- A start stops at the first fault, with the slot zeroed. Without one it is done. -/
theorem start_given (d : Abi Service) (gate : Gate) {call : StartCall}
    (given : call.slot = some slot) :
    (∃ fault, (call.faults gate).head? = some fault ∧
      d.start gate call = (fault.status, d.write slot {})) ∨
    (call.faults gate = [] ∧ ∃ k, Opens call k ∧ d.start gate call = (.ok, d.register slot k)) := by
  have ways := d.starts gate call
  generalize d.start gate call = out at ways
  cases ways with
  | nowhere absent => cases given.symm.trans absent
  | failed hslot built =>
    obtain rfl := Option.some.inj (given.symm.trans hslot)
    rcases call.build_cases (σ := Service) gate with
      ⟨fault, hfault, hbuild⟩ | ⟨-, cluster, endpoints, -, -, hbuild⟩
    · obtain rfl := Except.error.inj (hbuild.symm.trans built)
      exact .inl ⟨fault, hfault, rfl⟩
    · obtain ⟨engine, hlaunch⟩ := Service.exists_launch call.mode cluster endpoints {} gate
      rw [hlaunch] at hbuild
      cases built.symm.trans hbuild
  | done hslot built =>
    obtain rfl := Option.some.inj (given.symm.trans hslot)
    rcases call.build_cases (σ := Service) gate with ⟨fault, -, hbuild⟩ | ⟨none, -⟩
    · cases hbuild.symm.trans built
    · exact .inr ⟨none, _, opens_of_build built, rfl⟩

-- ---------------------------------------------------------------------------
-- The law of the start
-- ---------------------------------------------------------------------------

/-- A start is answered by the first fault of its arguments, and then only the slot is another: it
is zeroed. Without a fault there is one client more, made from the arguments. Nobody is ever called
back on account of a start, because all that is called back for was submitted. -/
theorem Session.start_atomic {allowed : Command Service → Prop} {m : Memory}
    {slots : SlotId → Handle} {d e : Abi Service}
    (session : Session allowed { system := { memory := m }, slots } trace ledger d) (gate : Gate)
    (call : StartCall) (returned : d.start gate call = (status, e)) :
    (call.slot = none → status = .invalidArgument ∧ e = d) ∧
    (∀ slot, call.slot = some slot →
      status = (call.faults gate).head?.elim .ok StartError.status ∧
      (status = .ok ↔ call.Sound gate) ∧
      (status ≠ .ok → e = d.write slot {}) ∧
      (status = .ok → ∃ k, Opens call k ∧ d.Added ledger slot k e)) ∧
    ∀ more f, e.Run more f → ∀ c,
      (f.system.ended c ++ f.system.loans c).Perm (issuedIn c trace ++ issuedIn c more).zipIdx := by
  refine ⟨?_, ?_, ?_⟩
  · intro absent
    have hstart : d.start gate call = (.invalidArgument, d) := by simp only [start, absent]
    exact Prod.ext_iff.mp (returned.symm.trans hstart)
  · intro slot given
    rw [call.sound_iff]
    rcases start_given d gate given with ⟨fault, hfault, hstart⟩ | ⟨none, k, opens, hstart⟩
    · obtain ⟨rfl, rfl⟩ := Prod.ext_iff.mp (hstart.symm.trans returned)
      have hfaulty : call.faults gate ≠ [] := fun none => by simp [none] at hfault
      exact ⟨by rw [hfault]; rfl,
        ⟨fun ok => absurd ok fault.status_ne_ok, fun none => absurd none hfaulty⟩,
        fun _ => rfl, fun ok => absurd ok fault.status_ne_ok⟩
    · obtain ⟨rfl, rfl⟩ := Prod.ext_iff.mp (hstart.symm.trans returned)
      have added := added_register session.counted slot k
      exact ⟨by rw [none]; rfl, ⟨fun _ => none, fun _ => rfl⟩, fun failed => absurd rfl failed,
        fun _ => ⟨k, opens, added⟩⟩
  · intro more f later c
    have before := session.run.system.balanced (System.balanced_empty m c)
    have after := balanced_start before gate call
    rw [returned] at after
    exact (later.system.balanced after).loans

def echoStart : StartCall where
  mode := .echo
  slot := some 5
  cluster := some .zero
  address := some [0x33, 0x30, 0x30, 0x30]
  addressLength := 4
  context := 7
  hasCallback := true

def stale : SlotId → Handle := fun _ => ⟨9, (1, 2, 3)⟩

theorem start_atomic_echo :
    let d : Abi Service := { slots := stale }
    let out := d.start .restricted echoStart
    out.1 = .ok ∧ Session (fun _ => True) d [] [] d ∧
      (∃ k, Opens echoStart k ∧ d.Added [] 5 k out.2) ∧
      (out.2.slots 5, out.2.slots 6) = ({ key := 1 }, ⟨9, (1, 2, 3)⟩) := by
  intro d out
  have hok : out.1 = .ok := by decide +kernel
  have session : Session (fun _ => True) d [] [] d := .nil
  have returned : d.start .restricted echoStart = (out.1, out.2) := rfl
  obtain ⟨-, given, -⟩ := Session.start_atomic session .restricted echoStart returned
  obtain ⟨-, -, -, added⟩ := given 5 rfl
  exact ⟨hok, session, added hok, by decide +kernel⟩

end Abi

end Courier
