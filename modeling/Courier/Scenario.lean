import Courier.Abi
import Courier.Forward.Peers
import Courier.Service

/-!
# Scenarios

The whole library at work against scripted peers. Workers run on until they have
nothing to do or wait for a peer that keeps silent; whoever waits for a packet
then sees the time of the exchange run out.
-/

namespace Courier

namespace Forward.Worker

def hearAnswer (w : Worker) (answer : Answer) : Worker :=
  let w := if answer.bytes = [] then w else (w.hear (.arrived answer.bytes)).1
  if answer.ended then (w.hear .ended).1 else w

def meet (w : Worker) (h : Hold) (peers : Peers) : Option (Turn × Peers) :=
  match w.phase with
  | .exchanging _ _ (.dialling (endpoint :: _)) =>
    match peers.dial endpoint with
    | none => some (w.hear .refused, peers)
    | some (channel, answer, peers) =>
      let (w, done) := w.hear (.accepted channel)
      some ((w.hearAnswer answer, done), peers)
  | .exchanging _ _ (.sending link (byte :: unsent)) =>
    let (answer, peers) := peers.write link.channel (byte :: unsent)
    let (w, done) := w.hear (.took (unsent.length + 1))
    some ((w.hearAnswer answer, done), peers)
  | _ => (w.step h).map (·, peers)

/-- More steps than the worker can take before it has to wait. -/
def stepBound (w : Worker) : Nat := (w.queue.length + 2) * (w.endpoints.length + 16)

end Forward.Worker

open Forward (Peers)

namespace Service

def meet (service : Service) (h : Hold) (peers : Peers) :
    Option (Service × List Settlement × Peers) :=
  match service with
  | .echo e => (e.work h).map fun (e, done) => (.echo e, done, peers)
  | .forward w => (w.meet h peers).map fun ((w, done), peers) => (.forward w, done, peers)
  | .scripted _ => none

def stepBound : Service → Nat
  | .echo e => e.queue.length
  | .forward w => w.stepBound
  | .scripted _ => 0

def pending : Service → Nat
  | .echo e => e.queue.length
  | .forward w => w.pending.length
  | .scripted _ => 0

def expire : Service → Service × List Settlement
  | .forward w => let (w, done) := w.hear .expired; (.forward w, done)
  | service => (service, [])

end Service

structure Scenario where
  abi : Abi Service := {}
  peers : Peers := {}
  /-- References to clients that the host keeps, by place. -/
  kept : List (Option ClientId) := []

namespace Scenario

def system (r : Scenario) : System Service := r.abi.system

def withSystem (r : Scenario) (system : System Service) : Scenario :=
  { r with abi := { r.abi with system } }

def engine? (r : Scenario) (c : ClientId) : Option Service := (r.system.client? c).bind (·.engine)

def runFor (r : Scenario) (c : ClientId) : (steps : Nat) → Scenario
  | 0 => r
  | steps + 1 =>
    match (r.engine? c).bind (·.meet (r.system.hold c) r.peers) with
    | none => r
    | some (engine, done, peers) =>
      runFor ({ r with peers }.withSystem (r.system.react c engine done)) c steps

def run (r : Scenario) (c : ClientId) : Scenario :=
  r.runFor c ((r.engine? c).elim 0 (·.stepBound))

def waitFor (r : Scenario) (c : ClientId) : (packets : Nat) → Scenario
  | 0 => r
  | packets + 1 =>
    match r.engine? c with
    | none => r
    | some engine =>
      if engine.pending = 0 then r
      else
        let (engine, done) := engine.expire
        waitFor ((r.withSystem (r.system.react c engine done)).run c) c packets

def wait (r : Scenario) (c : ClientId) : Scenario :=
  let r := r.run c
  r.waitFor c ((r.engine? c).elim 0 (·.pending))

/-! References. The answers say whether an engine failed on the way. -/

def release (r : Scenario) (c : ClientId) : Bool × Scenario :=
  let (failed, abi) := r.abi.release c
  (failed, { r with abi })

def keep (r : Scenario) (place : Nat) (c : Option ClientId) : Bool × Scenario :=
  let before := r.kept[place]?.join
  let r := { r with kept := r.kept.set place c }
  match before with
  | none => (false, r)
  | some before => r.release before

def hand (r : Scenario) (place : Option Nat) (c : Option ClientId) : Bool × Scenario :=
  match place, c with
  | some place, c => r.keep place c
  | none, some c => r.release c
  | none, none => (false, r)

def stopAll (r : Scenario) : Scenario :=
  { r with abi := r.abi.clear fun d c => (d.close c).2 }

def releaseAll (r : Scenario) : Scenario :=
  let r := (List.range r.kept.length).foldl (fun r place => (r.keep place none).2) r
  { r with abi := r.abi.clear fun d c => (d.release c).2 }

end Scenario

end Courier
