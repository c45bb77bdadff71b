import Courier.Client.Basic
import Courier.Client.Error

/-!
# Clients at work

The packets of the host, the clients made so far, and a journal of what happened
to engines and hosts. A delivery fills the packet, counts it out and then
calls back, in this order. Every packet that an engine was given ends at most
once, because ending it empties its place.
-/

namespace Courier

/-- The call that ends a packet, with what the host can see while it runs. The place
is the one that was emptied for it; the host is not told of it. -/
structure Completion where
  client : ClientId
  place : Place
  packet : PacketId
  context : UInt64
  report : Report
  found : Packet
  inFlight : Int
deriving DecidableEq, Repr

inductive Entry where
  | offered (client : ClientId) (packet : PacketId)
  | released (client : ClientId)
  | completed (completion : Completion)
deriving DecidableEq, Repr

def Entry.completion? : Entry → Option Completion
  | completed c => some c
  | _ => none

inductive Return (α : Type) where
  | value (a : α)
  | panicked
deriving DecidableEq, Repr

structure System (σ : Type) where
  memory : Memory := fun _ => {}
  clients : List (Client σ) := []
  journal : List Entry := []

namespace System

variable {σ : Type}

def completions (s : System σ) : List Completion := s.journal.filterMap Entry.completion?

def client? (s : System σ) (c : ClientId) : Option (Client σ) := s.clients[c]?

def modify (s : System σ) (c : ClientId) (f : Client σ → Client σ) : System σ :=
  { s with clients := s.clients.modify c f }

def log (s : System σ) (entry : Entry) : System σ := { s with journal := s.journal ++ [entry] }

def hold (s : System σ) (c : ClientId) : Hold :=
  match s.client? c with
  | some k => k.hold s.memory
  | none => []

/-! Delivery -/

def fill (s : System σ) (p : PacketId) (r : Report) : System σ :=
  { s with memory := s.memory.set p ((s.memory p).fill r) }

def callBack (s : System σ) (c : ClientId) (place : Place) (p : PacketId) (r : Report) :
    System σ :=
  match s.client? c with
  | none => s
  | some k => s.log <| .completed
      { client := c, place, packet := p, context := k.context, report := r, found := s.memory p,
        inFlight := k.inFlight }

def deliver (s : System σ) (c : ClientId) (place : Place) (p : PacketId) (r : Report) :
    System σ :=
  ((s.fill p r).modify c (·.countDown)).callBack c place p r

def settle (s : System σ) (c : ClientId) (place : Place) (ending : Ending) : System σ :=
  match (s.client? c).bind (·.packet? place) with
  | none => s
  | some p => (s.modify c (·.vacate place)).deliver c place p ending.report

def settleAll (s : System σ) (c : ClientId) (settlements : List Settlement) : System σ :=
  settlements.foldl (fun s x => s.settle c x.place x.ending) s

/-- Once the engine is gone and nobody else can end them, the packets that are
still held are dropped, oldest first. -/
def abandon (s : System σ) (c : ClientId) : System σ :=
  match s.client? c with
  | none => s
  | some k =>
    if k.engine.isNone ∧ k.sharers = 0 then
      s.settleAll c ((List.range k.held.length).map (⟨·, .drop⟩))
    else s

/-! Calls -/

def add (s : System σ) (k : Client σ) : ClientId × System σ :=
  (s.clients.length, { s with clients := s.clients ++ [k] })

/-- The engine of a client moves on and ends some of its packets. -/
def react (s : System σ) (c : ClientId) (engine : σ) (settlements : List Settlement) : System σ :=
  (s.modify c fun k => { k with engine := some engine }).settleAll c settlements

section

variable [Engine σ]

/-- A packet that is refused has not been touched, and there is no call back. -/
def submit (s : System σ) (c : ClientId) (p : PacketId) :
    Return (Except CallError Unit) × System σ :=
  match (s.client? c).bind (·.engine) with
  | none => (.value (.error .closed), s)
  | some engine =>
    let h := s.hold c
    let place := h.length
    let reaction := Engine.submit engine h (s.memory p)
    let s := (s.log (.offered c p)).modify c (·.issue p)
    let s := s.react c reaction.engine reaction.settlements
    match reaction.verdict with
    | .accepted => (.value (.ok ()), s)
    | .handedBack =>
      if ((s.client? c).bind (·.packet? place)).isSome then
        (.value (.error .engineStopped), s.modify c (·.withdraw))
      else (.value (.ok ()), s)
    | .panicked => (.panicked, s.settle c place .drop)

def take (s : System σ) (c : ClientId) : Option σ × System σ :=
  ((s.client? c).bind (·.engine), s.modify c fun k => { k with engine := none })

/-- Shuts down an engine that has been taken. The answer says whether it failed. -/
def tearDown (s : System σ) (c : ClientId) (engine : σ) : Bool × System σ :=
  let teardown := Engine.shutdown engine (s.hold c)
  let s := (s.log (.released c)).settleAll c teardown.settlements
  (teardown.panicked, s.abandon c)

def deinit (s : System σ) (c : ClientId) : Return (Except CallError Unit) × System σ :=
  match s.take c with
  | (none, s) => (.value (.error .closed), s)
  | (some engine, s) =>
    let (panicked, s) := s.tearDown c engine
    (if panicked then .panicked else .value (.ok ()), s)

def retain (s : System σ) (c : ClientId) : System σ :=
  s.modify c fun k => { k with references := k.references + 1 }

/-- Gives up a reference. With the last one goes the engine, if it is still
there; the answer says whether it failed. -/
def release (s : System σ) (c : ClientId) : Bool × System σ :=
  let s := s.modify c fun k => { k with references := k.references - 1 }
  if (s.client? c).any (·.references == 0) then
    match s.take c with
    | (none, s) => (false, s)
    | (some engine, s) => s.tearDown c engine
  else (false, s)

end

/-- Lets somebody else end the packets that the engine holds. -/
def share (s : System σ) (c : ClientId) : System σ :=
  s.modify c fun k => { k with sharers := k.sharers + 1 }

def unshare (s : System σ) (c : ClientId) : System σ :=
  (s.modify c fun k => { k with sharers := k.sharers - 1 }).abandon c

end System

end Courier
