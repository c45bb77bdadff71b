import Courier.Bytes
import Courier.Address.Ip
import Courier.Frame.Basic

/-!
# Scripted peers

The other side of the forwarding worker in a scenario. Each peer listens on a
loopback port of its own and follows one script for every connection it accepts:
for each action it waits for a whole request frame, keeps it, and sends some
bytes back as they are. After the last action it sends nothing more, and what
still comes in is thrown away. A peer that stalls keeps the connection and does
nothing. Without a script left a peer refuses, and so does every other address.
-/

namespace Courier.Forward

structure Action where
  reply : Bytes := []
  stall : Bool := false
deriving DecidableEq, Repr

abbrev Script := List Action

/-- The peer's side of a connection: the actions still to come, bytes that are no
whole frame yet, and the frames received. -/
structure Channel where
  peer : Nat
  script : Script
  partialFrame : Bytes := []
  frames : List Bytes := []
  stalled : Bool := false
deriving DecidableEq, Repr

structure Answer where
  bytes : Bytes := []
  ended : Bool := false
deriving DecidableEq, Repr

def wholeFrame? (bytes : Bytes) : Option (Bytes × Bytes) :=
  let size := Frame.leadSize + Bytes.toNat (bytes.take Frame.leadSize)
  if bytes.length < Frame.leadSize ∨ bytes.length < size then none
  else some (bytes.take size, bytes.drop size)

namespace Channel

def follow (channel : Channel) (answer : Answer) : Script → Channel × Answer
  | [] => ({ channel with script := [], partialFrame := [] }, { answer with ended := true })
  | action :: script =>
    match wholeFrame? channel.partialFrame with
    | none => ({ channel with script := action :: script }, answer)
    | some (frame, rest) =>
      let channel := { channel with partialFrame := rest, frames := channel.frames ++ [frame] }
      let answer := { answer with bytes := answer.bytes ++ action.reply }
      if action.stall then ({ channel with script, stalled := true }, answer)
      else follow channel answer script

def take (channel : Channel) (bytes : Bytes) : Channel × Answer :=
  if channel.stalled then (channel, {})
  else { channel with partialFrame := channel.partialFrame ++ bytes }.follow {} channel.script

end Channel

/-- For each peer the scripts of the connections it will still accept, and the
channels of all connections accepted so far. -/
structure Peers where
  scripts : List (List Script) := []
  channels : List Channel := []
deriving DecidableEq, Repr

namespace Peers

def firstPort : Nat := 40000

def endpoint (peer : Nat) : Address.Endpoint :=
  .v4 .loopback (UInt16.ofNat (firstPort + peer))

def endpoints (p : Peers) : List Address.Endpoint := (List.range p.scripts.length).map endpoint

def dial (p : Peers) (address : Address.Endpoint) : Option (Nat × Answer × Peers) := do
  let peer ← p.endpoints.findIdx? (· == address)
  match p.scripts[peer]? with
  | some (script :: rest) =>
    let (channel, answer) := ({ peer, script } : Channel).take []
    return (p.channels.length, answer,
      { scripts := p.scripts.set peer rest, channels := p.channels ++ [channel] })
  | _ => none

def write (p : Peers) (channel : Nat) (bytes : Bytes) : Answer × Peers :=
  match p.channels[channel]? with
  | none => ({}, p)
  | some c =>
    let (c, answer) := c.take bytes
    (answer, { p with channels := p.channels.set channel c })

def seen (p : Peers) (peer : Nat) : List (List Bytes) :=
  (p.channels.filter (·.peer == peer)).map (·.frames)

end Peers

end Courier.Forward
