import Courier.Config.Basic
import Courier.Engine.Basic
import Courier.Gate

/-!
# The echo engine

Completes every packet with a copy of its own payload. Where there are threads a
worker takes the packets from a queue, and finishes the queue before a shutdown
returns; elsewhere the submit itself completes the packet.
-/

namespace Courier

structure Echo where
  inline : Bool
  limit : UInt32
  queue : List Place := []
  /-- Where the copies are made, one after the other. -/
  buffer : Bytes := []
deriving Repr

namespace Echo

def start (config : Config) (gate : Gate) : Echo :=
  { inline := !gate.allowsNative, limit := config.maxPayload }

def echo (e : Echo) (p : Packet) : Echo × Ending :=
  let e := { e with buffer := [] }
  match p.request e.limit with
  | .ok payload =>
    let e := { e with buffer := e.buffer ++ payload }
    (e, .complete .ok e.buffer)
  | .error outcome => (e, .complete outcome [])

def work (e : Echo) (h : Hold) : Option (Echo × List Settlement) :=
  match e.queue with
  | [] => none
  | place :: queue =>
    let e := { e with queue }
    match h.packet? place with
    | none => some (e, [])
    | some p =>
      let (e, ending) := e.echo p
      some (e, [⟨place, ending⟩])

def drain (e : Echo) (h : Hold) : Echo × List Settlement :=
  e.queue.foldl
    (fun (e, done) _ =>
      match e.work h with
      | none => (e, done)
      | some (e, more) => (e, done ++ more))
    (e, [])

instance : Engine Echo where
  submit e h p :=
    if e.inline then
      let (engine, ending) := e.echo p
      { engine, settlements := [⟨h.length, ending⟩] }
    else
      { engine := { e with queue := e.queue ++ [h.length] } }
  shutdown e h := { settlements := (e.drain h).2 }

end Echo

end Courier
