import Courier.Config.Basic
import Courier.Engine.Basic
import Courier.Forward.Connection
import Courier.Frame.Message

/-!
# The forwarding worker

Hands packets to a remote engine, one at a time, as request frames on a stream
connection, and completes each with the reply frame that comes back. The
connection is kept after a successful exchange and given up after any other; the
next packet then tries the endpoints from the first one on. A packet that failed
is not sent again.

The worker does its own steps (`receive`, `inspect`, `progress`, `cut`) and is
told what becomes of the connection (`Event`). It is blocked where `progress`
has no answer.
-/

namespace Courier.Forward

inductive Stage where
  | starting
  /-- The first of these endpoints is being dialled. -/
  | dialling (untried : List Address.Endpoint)
  | sending (link : Connection) (unsent : Bytes)
  /-- The length of the reply is being read. -/
  | lead (link : Connection) (got : Bytes)
  /-- The reply is being read into the buffer. -/
  | body (link : Connection) (missing : Nat)
deriving DecidableEq, Repr

inductive Phase where
  | idle
  | holding (place : Place)
  | exchanging (place : Place) (frame : Bytes) (stage : Stage)
  | stopped
deriving DecidableEq, Repr

structure Worker where
  cluster : Cluster
  endpoints : List Address.Endpoint
  limit : UInt32
  queue : List Place := []
  phase : Phase := .idle
  /-- Kept from the last exchange. -/
  connection : Option Connection := none
  /-- The reply read last, or what there is of it. -/
  buffer : Bytes := []
  requested : Bool := false
  /-- A notice of the stop that has not been taken yet. -/
  permit : Bool := false
  /-- Whether further packets may come. -/
  isOpen : Bool := true
deriving Repr

inductive Event where
  | accepted (channel : Nat)
  | refused
  /-- The connection took this many bytes more. -/
  | took (count : Nat)
  | arrived (bytes : Bytes)
  | ended
  /-- The connection fails, perhaps as soon as it has been accepted. -/
  | broken
  /-- The time for the exchange is over. -/
  | expired
deriving DecidableEq, Repr

namespace Worker

def start (config : Config) (cluster : Cluster) (endpoints : List Address.Endpoint) : Worker :=
  { cluster, endpoints, limit := config.maxPayload }

abbrev Turn := Worker × List Settlement

def settle (w : Worker) (place : Place) (outcome : Outcome) (result : Bytes) : Turn :=
  ({ w with phase := .idle }, [⟨place, .complete outcome result⟩])

def fail (w : Worker) (place : Place) : Turn := w.settle place .engineFailure []

/-- The exchange is cut off by a stop, which takes up the notice. -/
def cut (w : Worker) (place : Place) : Turn :=
  { w with permit := false }.settle place .clientShutdown []

def enter (w : Worker) (place : Place) (frame : Bytes) (stage : Stage) : Worker :=
  { w with phase := .exchanging place frame stage }

def receive (w : Worker) : Option Worker :=
  match w.queue with
  | place :: queue => some { w with queue, phase := .holding place }
  | [] => if w.isOpen then none else some { w with phase := .stopped, connection := none }

def frame? (w : Worker) (p : Packet) : Except Outcome Bytes := do
  let payload ← p.request w.limit
  let request : Frame.Request :=
    { cluster := w.cluster, operation := p.operation, tag := p.tag, payload }
  match request.encode w.limit with
  | .ok frame => .ok frame
  | .error _ => .error .tooMuchData

def inspect (w : Worker) (h : Hold) (place : Place) : Turn :=
  if w.requested then w.settle place .clientShutdown []
  else
    match h.packet? place with
    | none => ({ w with phase := .idle }, [])
    | some p =>
      match w.frame? p with
      | .error outcome => w.settle place outcome []
      | .ok frame => (w.enter place frame .starting, [])

/-- The exchange succeeded: its connection is kept, and the packet ends as the
reply in the buffer says. -/
def conclude (w : Worker) (place : Place) (link : Connection) : Turn :=
  let w := { w with connection := some link }
  match Frame.Reply.decode w.buffer w.limit with
  | .error _ => w.fail place
  | .ok (reply, _) =>
    w.settle place ((Outcome.ofCode? reply.status).getD .engineFailure) reply.payload

def progress (w : Worker) (place : Place) (frame : Bytes) : Stage → Option Turn
  | .starting =>
    match w.connection with
    | some link => some ({ w with connection := none }.enter place frame (.sending link frame), [])
    | none => some (w.enter place frame (.dialling w.endpoints), [])
  | .dialling [] => some (w.fail place)
  | .dialling (_ :: _) => none
  | .sending link [] => some (w.enter place frame (.lead link []), [])
  | .sending _ (_ :: _) => none
  | .lead link got =>
    if got.length = Frame.leadSize then
      match Frame.bodyLength got Frame.Reply.headerSize w.limit with
      | .error _ => some (w.fail place)
      | .ok missing => some ({ w with buffer := got }.enter place frame (.body link missing), [])
    else if link.inbox = [] then
      if link.ended then some (w.fail place) else none
    else
      let (bytes, link) := link.read (Frame.leadSize - got.length)
      some (w.enter place frame (.lead link (got ++ bytes)), [])
  | .body link missing =>
    if missing = 0 then some (w.conclude place link)
    else if link.inbox = [] then
      if link.ended then some (w.fail place) else none
    else
      let (bytes, link) := link.read missing
      some ({ w with buffer := w.buffer ++ bytes }.enter place frame
        (.body link (missing - bytes.length)), [])

/-- One step of the worker, where it is not blocked. A notice of the stop is
seen before the exchange goes on. -/
def step (w : Worker) (h : Hold) : Option Turn :=
  match w.phase with
  | .idle => w.receive.map (·, [])
  | .holding place => some (w.inspect h place)
  | .exchanging place frame stage =>
    if w.permit then some (w.cut place) else w.progress place frame stage
  | .stopped => none

def mapLink (w : Worker) (f : Connection → Connection) : Worker :=
  match w.phase with
  | .exchanging place frame (.sending link unsent) => w.enter place frame (.sending (f link) unsent)
  | .exchanging place frame (.lead link got) => w.enter place frame (.lead (f link) got)
  | .exchanging place frame (.body link missing) => w.enter place frame (.body (f link) missing)
  | _ => { w with connection := w.connection.map f }

/-- An event that does not concern the stage of the exchange changes nothing. -/
def hear (w : Worker) : Event → Turn
  | .arrived bytes => (w.mapLink (·.receive bytes), [])
  | .ended => (w.mapLink (·.finish), [])
  | event =>
    match w.phase, event with
    | .exchanging place frame (.dialling (endpoint :: _)), .accepted channel =>
      (w.enter place frame (.sending { endpoint, channel } frame), [])
    | .exchanging place frame (.dialling (_ :: untried)), .refused =>
      (w.enter place frame (.dialling untried), [])
    | .exchanging place frame (.sending link unsent), .took count =>
      (w.enter place frame (.sending (link.write (unsent.take count)) (unsent.drop count)), [])
    | .exchanging place _ (.dialling (_ :: _)), .broken
    | .exchanging place _ (.sending ..), .broken
    | .exchanging place _ (.lead ..), .broken
    | .exchanging place _ (.body ..), .broken
    | .exchanging place _ (.sending ..), .expired
    | .exchanging place _ (.lead ..), .expired
    | .exchanging place _ (.body ..), .expired => w.fail place
    | _, _ => (w, [])

/-- The packets that were accepted and not ended, in the order of acceptance. -/
def pending (w : Worker) : List Place :=
  match w.phase with
  | .idle => w.queue
  | .holding place => place :: w.queue
  | .exchanging place _ _ => place :: w.queue
  | .stopped => []

/-! What the host does to the worker. -/

def push (w : Worker) (place : Place) : Worker := { w with queue := w.queue ++ [place] }

def request (w : Worker) : Worker := { w with requested := true }

def notify (w : Worker) : Worker := { w with permit := true }

def hangUp (w : Worker) : Worker := { w with isOpen := false }

def stop (w : Worker) : Worker := w.request.notify.hangUp

def finish (w : Worker) (h : Hold) : (steps : Nat) → List Settlement
  | 0 => []
  | steps + 1 =>
    match w.step h with
    | none => []
    | some (w, done) => done ++ w.finish h steps

/-- After a stop the worker has two steps at most for each packet, and a last one. -/
instance : Engine Worker where
  submit w h _ := { engine := w.push h.length }
  shutdown w h := { settlements := w.stop.finish h (2 * w.pending.length + 1) }

end Worker

end Courier.Forward
