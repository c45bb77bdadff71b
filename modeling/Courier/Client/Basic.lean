import Courier.Address.Ip
import Courier.Engine.Basic
import Courier.Frame.Message

/-!
# Clients

A client binds a cluster, its endpoints and a context to one engine. The engine
is taken out of it once, by the first call that closes it. The client counts its
packets in flight and lists the packets that the engine holds.
-/

namespace Courier

abbrev ClientId := Nat

inductive Mode where
  | native
  | echo
deriving DecidableEq, Repr

structure Client (σ : Type) where
  cluster : Cluster
  endpoints : List Address.Endpoint
  mode : Mode
  context : UInt64
  engine : Option σ
  inFlight : Int := 0
  /-- The packets that the engine was given, by place; a place is empty once its
  packet has ended. -/
  held : List (Option PacketId) := []
  /-- Those who may still call the client. -/
  references : Nat := 1
  /-- Those besides the engine who can still end the packets held. -/
  sharers : Nat := 0
deriving Repr

namespace Client

variable {σ : Type}

def isClosed (k : Client σ) : Bool := k.engine.isNone

def isAlive (k : Client σ) : Bool := 0 < k.references

def packet? (k : Client σ) (place : Place) : Option PacketId := k.held[place]?.join

def live (k : Client σ) : List PacketId := k.held.filterMap id

def hold (k : Client σ) (memory : Memory) : Hold := k.held.map (·.map memory)

def issue (k : Client σ) (p : PacketId) : Client σ :=
  { k with inFlight := k.inFlight + 1, held := k.held ++ [some p] }

def withdraw (k : Client σ) : Client σ :=
  { k with inFlight := k.inFlight - 1, held := k.held.dropLast }

def vacate (k : Client σ) (place : Place) : Client σ := { k with held := k.held.set place none }

def countDown (k : Client σ) : Client σ := { k with inFlight := k.inFlight - 1 }

end Client

end Courier
