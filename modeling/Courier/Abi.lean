import Courier.Client.Start
import Courier.Client.System
import Courier.Registry

/-!
# The handle interface

What a host sees of the library: records in slots of its own memory, each with
the key of a client, and calls that take a slot and answer with a status. Slots
can be copied and overwritten at will, because a call trusts nothing but the
key. No failure of an engine leaves a call.
-/

namespace Courier

abbrev SlotId := Nat

/-- The record of a slot. A record with key zero holds no client. -/
structure Handle where
  key : UInt64 := 0
  reserved : UInt64 × UInt64 × UInt64 := (0, 0, 0)
deriving DecidableEq, Repr

def Handle.isZeroed (h : Handle) : Bool := h.key == 0

structure Abi (σ : Type) where
  system : System σ := {}
  registry : Registry := {}
  slots : SlotId → Handle := fun _ => {}

/-- The arguments of a start. Absent ones are null pointers, apart from the
callback, which is there or not. -/
structure StartCall where
  mode : Mode
  slot : Option SlotId
  cluster : Option Cluster
  address : Option Bytes
  addressLength : UInt32
  context : UInt64
  hasCallback : Bool
deriving DecidableEq, Repr

namespace Abi

variable {σ : Type}

def write (d : Abi σ) (slot : SlotId) (h : Handle) : Abi σ :=
  { d with slots := fun other => if other = slot then h else d.slots other }

def copy (d : Abi σ) (source target : SlotId) : Abi σ := d.write target (d.slots source)

def lookup (d : Abi σ) (slot : Option SlotId) : Option ClientId :=
  slot.bind fun slot => d.registry.get? (d.slots slot).key

def add (d : Abi σ) (k : Client σ) : UInt64 × Abi σ :=
  let (c, system) := d.system.add k
  let (key, registry) := d.registry.register c
  (key, { d with system, registry })

def register (d : Abi σ) (slot : SlotId) (k : Client σ) : Abi σ :=
  let (key, d) := d.add k
  d.write slot { key }

def find (d : Abi σ) (key : UInt64) : Option ClientId × Abi σ :=
  match d.registry.get? key with
  | none => (none, d)
  | some c => (some c, { d with system := d.system.retain c })

def remove (d : Abi σ) (key : UInt64) : Option ClientId × Abi σ :=
  let (c, registry) := d.registry.remove key
  (c, { d with registry })

end Abi

namespace StartCall

def addressBytes (call : StartCall) : Except StartError Bytes :=
  match call.address with
  | none => if call.addressLength = 0 then .ok [] else .error (.invalidArgument "address_ptr")
  | some bytes => .ok (bytes.take call.addressLength.toNat)

def build {σ : Type} [Launch σ] (call : StartCall) (gate : Gate) :
    Except StartError (Client σ) := do
  if call.hasCallback = false then
    throw (.invalidArgument "completion_callback")
  match call.cluster with
  | none => throw (.invalidArgument "cluster_id")
  | some cluster =>
    Client.start call.mode cluster (← call.addressBytes) call.context {} gate

end StartCall

namespace Abi

variable {σ : Type}

/-- The slot is zeroed first and holds a key only if all went well. -/
def start [Launch σ] (d : Abi σ) (gate : Gate) (call : StartCall) : StartStatus × Abi σ :=
  match call.slot with
  | none => (.invalidArgument, d)
  | some slot =>
    let d := d.write slot {}
    match call.build gate with
    | .error e => (e.status, d)
    | .ok k => (.ok, d.register slot k)

def statusOf : Return (Except CallError Unit) → CallStatus
  | .value (.ok ()) => .ok
  | .value (.error e) => e.status
  | .panicked => .clientInvalid

theorem statusOf_eq_ok {back : Return (Except CallError Unit)} :
    statusOf back = .ok ↔ back = .value (.ok ()) := by
  match back with
  | .value (.ok ()) => simp [statusOf]
  | .value (.error e) => cases e <;> simp [statusOf, CallError.status]
  | .panicked => simp [statusOf]

def context (d : Abi σ) (slot : Option SlotId) (out : Option UInt64) :
    CallStatus × Option UInt64 :=
  match (d.lookup slot).bind d.system.client? with
  | none => (.clientInvalid, out)
  | some k =>
    if k.isClosed then (.clientInvalid, out)
    else
      match out with
      | none => (.invalidArgument, out)
      | some _ => (.ok, some k.context)

section

variable [Engine σ]

def submit (d : Abi σ) (slot : Option SlotId) (packet : Option PacketId) : CallStatus × Abi σ :=
  match d.lookup slot with
  | none => (.clientInvalid, d)
  | some c =>
    match packet with
    | none => (.packetInvalid, d)
    | some p =>
      let (back, system) := d.system.submit c p
      (statusOf back, { d with system })

def release (d : Abi σ) (c : ClientId) : Bool × Abi σ :=
  let (failed, system) := d.system.release c
  (failed, { d with system })

def close (d : Abi σ) (c : ClientId) : CallStatus × Abi σ :=
  let (back, system) := d.system.deinit c
  (statusOf back, ({ d with system }.release c).2)

/-- Takes the client out of the registry, zeroes the slot that was used, and shuts
the client down. -/
def stop (d : Abi σ) (slot : Option SlotId) : CallStatus × Abi σ :=
  match slot with
  | none => (.clientInvalid, d)
  | some slot =>
    match d.remove (d.slots slot).key with
    | (none, _) => (.clientInvalid, d)
    | (some c, d) => (d.write slot {}).close c

/-- Does something with every client that is still registered, by ascending key, as
it leaves the registry. -/
def clear (d : Abi σ) (f : Abi σ → ClientId → Abi σ) : Abi σ :=
  d.registry.keys.foldl
    (fun d key =>
      match d.remove key with
      | (none, d) => d
      | (some c, d) => f d c)
    d

end

def version : UInt32 := 1

end Abi

end Courier
