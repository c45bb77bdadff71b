import Courier.Engine.Basic

/-!
# Scripted engines

Engines for scenarios, which follow a script instead of doing work: they hold
packets back, end them out of order, hand them back or fail, and end what they
hold in one of several ways when they are shut down.
-/

namespace Courier

namespace Scripted

inductive OnSubmit where
  /-- Holds packets, at most `room` at once, and hands further ones back. -/
  | hold (room : Option Nat)
  /-- Holds packets until there are `count`, then completes them newest first. -/
  | reverse (count : Option Nat)
  | echo
  | drop
  | panic
deriving DecidableEq, Repr

inductive OnShutdown where
  | dropOldestFirst
  | dropNewestFirst
  | echo
  | keep
  | panic
deriving DecidableEq, Repr

end Scripted

structure Scripted where
  onSubmit : Scripted.OnSubmit := .hold none
  onShutdown : Scripted.OnShutdown := .dropOldestFirst
deriving DecidableEq, Repr

namespace Scripted

def limit : UInt32 := 1048576

def tagged (p : Packet) : Ending := .complete .ok (Bytes.littleEndian 2 p.tag.toNat)

def settle (h : Hold) (ending : Packet → Ending) (places : List Place) : List Settlement :=
  places.filterMap fun place => (h.packet? place).map fun p => ⟨place, ending p⟩

instance : Engine Scripted where
  submit s h p :=
    let place := h.length
    match s.onSubmit with
    | .hold room =>
      let full := room.any (· ≤ h.live.length)
      { engine := s, verdict := if full then .handedBack else .accepted }
    | .reverse count =>
      let h := h ++ [some p]
      let due := count.any (· ≤ h.live.length)
      { engine := s, settlements := if due then settle h tagged h.live.reverse else [] }
    | .echo => { engine := s, settlements := [⟨place, .echo limit p⟩] }
    | .drop => { engine := s, settlements := [⟨place, .drop⟩] }
    | .panic => { engine := s, verdict := .panicked }
  shutdown s h :=
    match s.onShutdown with
    | .dropOldestFirst => { settlements := settle h (fun _ => .drop) h.live }
    | .dropNewestFirst => { settlements := settle h (fun _ => .drop) h.live.reverse }
    | .echo => { settlements := settle h (.echo limit) h.live }
    | .keep => {}
    | .panic => { panicked := true }

end Scripted

end Courier
