import Courier.Packet

/-!
# Engines

What services the packets of one client. An engine never touches a packet: it
knows each one that it was given by a place, may look at the packets in the
places that are still full, and ends them one by one. A place that has been
emptied stays empty, so places keep their meaning.

A verdict names no packet, because by the contract of a submit it is always about
the one just given. What an engine hands back is that packet and never an older
one. An engine that fails still owns it, and has put it nowhere from where it
could be ended later, so it is dropped with the call that fails. Engines that keep
a packet and then fail, or that hand another one back, are outside of the model.
-/

namespace Courier

abbrev Place := Nat

abbrev Hold := List (Option Packet)

def Hold.packet? (h : Hold) (place : Place) : Option Packet := h[place]?.join

def Hold.live (h : Hold) : List Place :=
  h.zipIdx.filterMap fun (packet, place) => packet.map fun _ => place

inductive Ending where
  | complete (outcome : Outcome) (result : Bytes)
  | drop
deriving DecidableEq, Repr

def Ending.report : Ending → Report
  | .complete outcome result => .of outcome result
  | .drop => ⟨.clientShutdown, []⟩

def Ending.echo (limit : UInt32) (p : Packet) : Ending :=
  match p.request limit with
  | .ok payload => .complete .ok payload
  | .error outcome => .complete outcome []

structure Settlement where
  place : Place
  ending : Ending
deriving DecidableEq, Repr

inductive Verdict where
  | accepted
  | handedBack
  /-- The engine failed while the packet was its own and nobody else's. -/
  | panicked
deriving DecidableEq, Repr

/-- What an engine does with a packet that it is given: the packets it ends on the
way, in order, and what becomes of the new one. -/
structure Reaction (σ : Type) where
  engine : σ
  settlements : List Settlement := []
  verdict : Verdict := .accepted

structure Teardown where
  settlements : List Settlement := []
  panicked : Bool := false

/-- The new packet of a submit takes the place behind those that are held. -/
class Engine (σ : Type) where
  submit : σ → Hold → Packet → Reaction σ
  shutdown : σ → Hold → Teardown

end Courier
