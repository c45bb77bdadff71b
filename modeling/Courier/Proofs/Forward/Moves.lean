import Courier.Forward.Worker

/-!
# Runs of the forwarding worker

A run is any sequence of moves: the steps of the worker, what it is told, and what the host
does to it. It keeps the exchanges that came to their end, each with its connection as it
was then, and the packets that were ended. What the worker does by itself and what an engine
is asked for are such moves.
-/

namespace Courier.Forward

def Stage.link? : Stage → Option Connection
  | sending link _ => some link
  | lead link _ => some link
  | body link _ => some link
  | _ => none

inductive Move where
  | receive
  /-- The packet in hand is looked at, with all that the client holds. -/
  | inspect (h : Hold)
  | progress
  | cut
  | hear (event : Event)
  | push (place : Place)
  | request
  | notify
  | hangUp

/-- An exchange that has come to its end, with its connection as it was then. -/
structure Exchange where
  place : Place
  frame : Bytes
  link : Connection
  /-- The connection was kept for the next one. -/
  kept : Bool
  settlements : List Settlement

def exchangesOn (channel : Nat) (history : List Exchange) : List Exchange :=
  history.filter (·.link.channel == channel)

namespace Worker

/-- The worker after a move, if it can make it. A worker with a notice of the stop may still go
on with an exchange for a while. -/
def after (w : Worker) : Move → Option Turn
  | .receive =>
    match w.phase with
    | .idle => w.receive.map (·, [])
    | _ => none
  | .inspect h =>
    match w.phase with
    | .holding place => some (w.inspect h place)
    | _ => none
  | .progress =>
    match w.phase with
    | .exchanging place frame stage => w.progress place frame stage
    | _ => none
  | .cut =>
    match w.phase with
    | .exchanging place _ _ => if w.permit then some (w.cut place) else none
    | _ => none
  | .hear event => some (w.hear event)
  | .push place => some (w.push place, [])
  | .request => some (w.request, [])
  | .notify => some (w.notify, [])
  | .hangUp => some (w.hangUp, [])

inductive MoveStep (w : Worker) : Move → Turn → Prop
  | receive {v} (phase : w.phase = .idle) (goes : w.receive = some v) : MoveStep w .receive (v, [])
  | inspect {h place} (phase : w.phase = .holding place) :
      MoveStep w (.inspect h) (w.inspect h place)
  | progress {place frame stage turn} (phase : w.phase = .exchanging place frame stage)
      (goes : w.progress place frame stage = some turn) : MoveStep w .progress turn
  | cut {place frame stage} (phase : w.phase = .exchanging place frame stage)
      (notice : w.permit = true) : MoveStep w .cut (w.cut place)
  | hear {event} : MoveStep w (.hear event) (w.hear event)
  | push {place} : MoveStep w (.push place) (w.push place, [])
  | request : MoveStep w .request (w.request, [])
  | notify : MoveStep w .notify (w.notify, [])
  | hangUp : MoveStep w .hangUp (w.hangUp, [])

theorem moveStep_of_after {w : Worker} {move : Move} {turn : Turn}
    (goes : w.after move = some turn) : w.MoveStep move turn := by
  unfold after at goes
  split at goes
  · split at goes
    · next phase =>
      obtain ⟨v, hv, rfl⟩ := Option.map_eq_some_iff.mp goes
      exact .receive phase hv
    · cases goes
  · split at goes
    · next phase =>
      cases goes
      exact .inspect phase
    · cases goes
  · split at goes
    · next phase => exact .progress phase goes
    · cases goes
  · split at goes
    · next phase =>
      split at goes
      · next notice =>
        cases goes
        exact .cut phase notice
      · cases goes
    · cases goes
  · cases goes
    exact .hear
  · cases goes
    exact .push
  · cases goes
    exact .request
  · cases goes
    exact .notify
  · cases goes
    exact .hangUp

/-- The exchange that a turn has brought to its end, if there was a connection for it. -/
def exchange? (w : Worker) (turn : Turn) : Option Exchange :=
  match w.phase, turn.1.phase with
  | .exchanging place frame stage, .idle =>
    stage.link?.map fun link =>
      { place, frame, link, kept := turn.1.connection.isSome, settlements := turn.2 }
  | _, _ => none

/-- Any moves in any order. Each connection gets a channel of its own when it is accepted. -/
inductive Run (w : Worker) : List Move → List Exchange → List Settlement → Worker → Prop
  | nil : Run w [] [] [] w
  | snoc {moves history done v move turn} (run : Run w moves history done v)
      (fresh : ∀ channel, move = .hear (.accepted channel) →
        ∀ x ∈ history, x.link.channel ≠ channel)
      (goes : v.after move = some turn) :
      Run w (moves ++ [move]) (history ++ (v.exchange? turn).toList) (done ++ turn.2) turn.1

-- ---------------------------------------------------------------------------
-- When an exchange comes to its end
-- ---------------------------------------------------------------------------

variable {w : Worker} {turn : Turn} {moves : List Move} {history : List Exchange}
  {done : List Settlement}

theorem exchange?_of_going {turn : Turn} (h : turn.1.phase ≠ .idle) : w.exchange? turn = none := by
  unfold exchange?
  split
  · next hidle => exact absurd hidle h
  · rfl

theorem exchange?_of_resting {turn : Turn}
    (h : ∀ place frame stage, w.phase = .exchanging place frame stage → stage.link? = none) :
    w.exchange? turn = none := by
  unfold exchange?
  split
  · next hphase _ => simp [h _ _ _ hphase]
  · rfl

theorem exchange?_of_same {turn : Turn} (same : turn.1.phase = w.phase) :
    w.exchange? turn = none := by
  unfold exchange?
  split
  · next hphase hidle => simp [hphase, hidle] at same
  · rfl

theorem phase_of_exchange? {turn : Turn} {x : Exchange} (h : w.exchange? turn = some x) :
    ∃ stage, w.phase = .exchanging x.place x.frame stage := by
  unfold exchange? at h
  split at h
  · next phase _ =>
    obtain ⟨link, -, rfl⟩ := Option.map_eq_some_iff.mp h
    exact ⟨_, phase⟩
  · cases h

-- ---------------------------------------------------------------------------
-- Runs and what the worker does by itself
-- ---------------------------------------------------------------------------

theorem Run.move {v : Worker} (run : Run w moves history done v) {move : Move}
    (closed : ∀ channel, move ≠ .hear (.accepted channel)) (goes : v.after move = some turn) :
    Run w (moves ++ [move]) (history ++ (v.exchange? turn).toList) (done ++ turn.2) turn.1 :=
  run.snoc (fun channel h => absurd h (closed channel)) goes

theorem after_of_step {h : Hold} (goes : w.step h = some turn) :
    ∃ move, (∀ channel, move ≠ .hear (.accepted channel)) ∧ w.after move = some turn := by
  unfold step at goes
  split at goes
  · next phase => exact ⟨.receive, by simp, by simpa only [after, phase] using goes⟩
  · next phase => exact ⟨.inspect h, by simp, by simpa only [after, phase] using goes⟩
  · next phase =>
    split at goes
    · next permit => exact ⟨.cut, by simp, by simpa only [after, phase, if_pos permit] using goes⟩
    · exact ⟨.progress, by simp, by simpa only [after, phase] using goes⟩
  · cases goes

theorem Run.finish {v : Worker} (run : Run w moves history done v) (h : Hold) (steps : Nat) :
    ∃ moves history last, Run w moves history (done ++ v.finish h steps) last := by
  induction steps generalizing moves history done v with
  | zero => exact ⟨_, _, _, by simpa [Worker.finish] using run⟩
  | succ steps ih =>
    cases hstep : v.step h with
    | none => exact ⟨_, _, _, by simpa [Worker.finish, hstep] using run⟩
    | some turn =>
      obtain ⟨move, closed, goes⟩ := after_of_step hstep
      obtain ⟨moves, history, last, hlast⟩ := ih (run.move closed goes)
      exact ⟨moves, history, last, by simpa [Worker.finish, hstep] using hlast⟩

theorem Run.still {v v' : Worker} (run : Run w moves history done v) {move : Move}
    (closed : ∀ channel, move ≠ .hear (.accepted channel)) (goes : v.after move = some (v', []))
    (same : v'.phase = v.phase) : Run w (moves ++ [move]) history done v' := by
  have hnone : v.exchange? (v', []) = none := exchange?_of_same same
  simpa [hnone] using run.move closed goes

theorem Run.submit {v : Worker} (run : Run w moves history done v) (h : Hold) (p : Packet) :
    Run w (moves ++ [.push h.length]) history done (Engine.submit v h p).engine :=
  run.still nofun rfl rfl

theorem Run.shutdown {v : Worker} (run : Run w moves history done v) (h : Hold) :
    ∃ moves history last,
      Run w moves history (done ++ (Engine.shutdown v h).settlements) last := by
  have requested : Run w (moves ++ [.request]) history done v.request := run.still nofun rfl rfl
  have notified : Run w (moves ++ [.request] ++ [.notify]) history done v.request.notify :=
    requested.still nofun rfl rfl
  have stopped : Run w (moves ++ [.request] ++ [.notify] ++ [.hangUp]) history done v.stop :=
    notified.still nofun rfl rfl
  exact stopped.finish h _

def follow (w : Worker) : List Move → Option (List Exchange × List Settlement × Worker)
  | [] => some ([], [], w)
  | move :: moves => do
    let turn ← w.after move
    let (history, done, last) ← turn.1.follow moves
    return ((w.exchange? turn).toList ++ history, turn.2 ++ done, last)

theorem Run.follow {v last : Worker} {more : List Move} {ended : List Exchange}
    {settled : List Settlement} (run : Run w moves history done v)
    (closed : ∀ move ∈ more, ∀ channel, move ≠ .hear (.accepted channel))
    (goes : v.follow more = some (ended, settled, last)) :
    Run w (moves ++ more) (history ++ ended) (done ++ settled) last := by
  induction more generalizing moves history done v ended settled with
  | nil =>
    obtain ⟨rfl, rfl, rfl⟩ := by simpa [Worker.follow] using goes
    simpa using run
  | cons move more ih =>
    simp only [Worker.follow, Option.bind_eq_bind, Option.bind_eq_some_iff] at goes
    obtain ⟨turn, hturn, ⟨history', done', last'⟩, hrest, h⟩ := goes
    obtain ⟨rfl, rfl, rfl⟩ := by simpa using h
    simpa using ih (run.move (closed move List.mem_cons_self) hturn)
      (fun move hmove => closed move (List.mem_cons_of_mem _ hmove)) hrest

end Worker

end Courier.Forward
