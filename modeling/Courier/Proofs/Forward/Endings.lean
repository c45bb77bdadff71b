import Courier.Proofs.Forward.Moves
import Courier.Proofs.Forward.Turns

/-!
# How packets end

In each of its steps the worker ends the packet in hand or leaves all packets where they are
(`opStep_of_after`). A packet ends by a reply, without one, or because of the stop: either the
worker has not begun with it and sees the request, or the notice cuts its exchange off.
-/

namespace Courier.Forward

open Courier.Frame (Reply)

/-- What the worker does by itself or is told. -/
inductive WorkerOp where
  | receive
  | inspect
  | progress
  | cut
  | hear (event : Event)
deriving DecidableEq, Repr

def WorkerOp.move (h : Hold) : WorkerOp → Move
  | receive => .receive
  | inspect => .inspect h
  | progress => .progress
  | cut => .cut
  | hear event => .hear event

namespace Worker

/-- The reply from which the step completes the packet in hand. -/
def reply? (w : Worker) : WorkerOp → Option Reply
  | .progress =>
    match w.phase with
    | .exchanging _ _ (.body _ 0) =>
      match Reply.decode w.buffer w.limit with
      | .ok (reply, _) => some reply
      | .error _ => none
    | _ => none
  | _ => none

/-- What is written to a peer in the step, and for which packet. -/
def outgoing? (w : Worker) : WorkerOp → Option (Place × Bytes)
  | .hear (.took count) =>
    match w.phase with
    | .exchanging place _ (.sending _ unsent) => some (place, unsent.take count)
    | _ => none
  | _ => none

/-- Why the packet in hand ends, and how. -/
inductive Ends (w : Worker) (place : Place) : Option Reply → Outcome → Bytes → Prop
  | refused {outcome} (phase : w.phase = .holding place) (unasked : w.requested = false)
      (other : outcome ≠ .clientShutdown) : Ends w place none outcome []
  | failed {frame stage} (phase : w.phase = .exchanging place frame stage) :
      Ends w place none .engineFailure []
  | replied {frame stage reply} (phase : w.phase = .exchanging place frame stage) :
      Ends w place (some reply) ((Outcome.ofCode? reply.status).getD .engineFailure) reply.payload
  | shunned (phase : w.phase = .holding place) (asked : w.requested = true) :
      Ends w place none .clientShutdown []
  | cut {frame stage} (phase : w.phase = .exchanging place frame stage)
      (notice : w.permit = true) : Ends w place none .clientShutdown []

/-- The host alone asks for the stop and hangs up, and the worker at most takes its notice. -/
structure Obeys (w v : Worker) : Prop where
  requested : v.requested = w.requested
  isOpen : v.isOpen = w.isOpen
  permit : v.permit = true → w.permit = true

/-- How the worker gets on while no packet ends. -/
inductive PhaseStep (w : Worker) : Phase → Phase → Prop
  | rest {phase} : PhaseStep w phase phase
  | take {place} : PhaseStep w .idle (.holding place)
  | stop (hungUp : w.isOpen = false) : PhaseStep w .idle .stopped
  | begin {place frame} (unasked : w.requested = false) :
      PhaseStep w (.holding place) (.exchanging place frame .starting)
  | pursue {place frame stage next} :
      PhaseStep w (.exchanging place frame stage) (.exchanging place frame next)

inductive OpStep (w : Worker) (op : WorkerOp) : Turn → Prop
  | quiet {v} (obeys : Obeys w v) (kept : v.permit = w.permit) (pending : v.pending = w.pending)
      (silent : w.reply? op = none) (phaseStep : w.PhaseStep w.phase v.phase) : OpStep w op (v, [])
  | ended {v place outcome result} (obeys : Obeys w v) (pending : w.pending = place :: v.queue)
      (ends : w.Ends place (w.reply? op) outcome result) :
      OpStep w op (v.settle place outcome result)

variable {w : Worker} {turn : Turn} {op : WorkerOp}

theorem PhaseStep.exchanging (h : w.PhaseStep w.phase next)
    (phase : w.phase = .exchanging place frame stage) :
    ∃ stage, next = .exchanging place frame stage := by
  rw [phase] at h
  cases h with
  | rest => exact ⟨stage, rfl⟩
  | pursue => exact ⟨_, rfl⟩

/-- No exchange is begun once the stop has been asked for. -/
theorem PhaseStep.not_exchanging (h : w.PhaseStep here next) (asked : w.requested = true)
    (still : ∀ place frame stage, here ≠ .exchanging place frame stage) :
    ∀ place frame stage, next ≠ .exchanging place frame stage := by
  cases h with
  | rest => exact still
  | take => nofun
  | stop => nofun
  | begin unasked => exact nomatch unasked.symm.trans asked
  | pursue => exact absurd rfl (still _ _ _)

theorem PhaseStep.stopped (h : w.PhaseStep here .stopped) : here = .stopped ∨ w.isOpen = false := by
  cases h with
  | rest => exact .inl rfl
  | stop hungUp => exact .inr hungUp

theorem PhaseStep.eq_stopped (h : w.PhaseStep .stopped next) : next = .stopped := by
  cases h with
  | rest => rfl

theorem pending_holding (phase : w.phase = .holding place) : w.pending = place :: w.queue := by
  simp [pending, phase]

theorem pending_exchanging (phase : w.phase = .exchanging place frame stage) :
    w.pending = place :: w.queue := by
  simp [pending, phase]

theorem opStep_receive (phase : w.phase = .idle) (goes : w.receive = some v) :
    w.OpStep .receive (v, []) := by
  unfold receive at goes
  split at goes
  · next place queue hqueue =>
    obtain rfl := Option.some.inj goes
    exact .quiet ⟨rfl, rfl, id⟩ rfl (by simp [pending, phase, hqueue]) rfl (phase ▸ .take)
  · next hqueue =>
    split at goes
    · cases goes
    · next hclosed =>
      obtain rfl := Option.some.inj goes
      have hungUp : w.isOpen = false := Bool.eq_false_iff.mpr hclosed
      exact .quiet ⟨rfl, rfl, id⟩ rfl (by simp [pending, phase, hqueue]) rfl
        (phase ▸ .stop hungUp)

theorem opStep_inspect (phase : w.phase = .holding place) {h : Hold} {p : Packet}
    (held : h.packet? place = some p) : w.OpStep .inspect (w.inspect h place) := by
  have hpending := pending_holding phase
  unfold inspect
  split
  · next hasked => exact .ended ⟨rfl, rfl, id⟩ hpending (.shunned phase hasked)
  · next hunasked =>
    rw [held]
    have hunasked : w.requested = false := Bool.eq_false_iff.mpr hunasked
    simp only
    split
    · next hrefused =>
      refine .ended ⟨rfl, rfl, id⟩ hpending (.refused phase hunasked ?_)
      rcases frame?_error_cases hrefused with rfl | rfl
      · decide
      · decide
    · exact .quiet ⟨rfl, rfl, id⟩ rfl hpending.symm rfl (phase ▸ .begin hunasked)

theorem EnterOrFail.opStep (h : w.EnterOrFail place frame turn)
    (phase : w.phase = .exchanging place frame stage) (silent : w.reply? op = none) :
    w.OpStep op turn := by
  cases h with
  | enter connection buffer next =>
    exact .quiet ⟨rfl, rfl, id⟩ rfl (pending_exchanging phase).symm silent (phase ▸ .pursue)
  | fail => exact .ended ⟨rfl, rfl, id⟩ (pending_exchanging phase) (silent ▸ .failed phase)

theorem opStep_conclude (phase : w.phase = .exchanging place frame (.body link 0)) :
    w.OpStep .progress (w.conclude place link) := by
  have hpending := pending_exchanging phase
  simp only [conclude]
  split
  · next hbad =>
    have hsilent : w.reply? .progress = none := by simp only [reply?, phase, hbad]
    exact .ended ⟨rfl, rfl, id⟩ hpending (hsilent ▸ .failed phase)
  · next reply _ hgood =>
    have hreply : w.reply? .progress = some reply := by simp only [reply?, phase, hgood]
    exact .ended ⟨rfl, rfl, id⟩ hpending (hreply ▸ .replied phase)

theorem opStep_hear (event : Event) : w.OpStep (.hear event) (w.hear event) := by
  rcases hear_enterOrFail w event with ⟨place, frame, stage, phase, turns⟩ | ⟨connection, hear_eq⟩
  · exact turns.opStep phase rfl
  · rw [hear_eq]
    exact .quiet ⟨rfl, rfl, id⟩ rfl rfl rfl .rest

theorem opStep_of_after {h : Hold}
    (held : ∀ place, w.phase = .holding place → (h.packet? place).isSome)
    (goes : w.after (op.move h) = some turn) : w.OpStep op turn := by
  cases op with
  | receive =>
    cases moveStep_of_after goes with
    | receive phase received => exact opStep_receive phase received
  | inspect =>
    cases moveStep_of_after goes with
    | inspect phase =>
      obtain ⟨p, hp⟩ := Option.isSome_iff_exists.mp (held _ phase)
      exact opStep_inspect phase hp
  | progress =>
    cases moveStep_of_after goes with
    | @progress place frame stage _ phase progressed =>
      by_cases hwhole : ∃ link, stage = .body link 0
      · obtain ⟨link, rfl⟩ := hwhole
        obtain rfl : w.conclude place link = turn := by simpa [progress] using progressed
        exact opStep_conclude phase
      · rcases progress_cases progressed with enterOrFail | ⟨link, hstage, -⟩
        · refine enterOrFail.opStep phase ?_
          simp only [reply?, phase]
          split
          · next hstage => exact absurd ⟨_, (Phase.exchanging.inj hstage).2.2⟩ hwhole
          · rfl
        · exact absurd ⟨link, hstage⟩ hwhole
  | cut =>
    cases moveStep_of_after goes with
    | cut phase notice =>
      exact .ended ⟨rfl, rfl, fun _ => notice⟩ (pending_exchanging phase) (.cut phase notice)
  | hear event =>
    cases moveStep_of_after goes with
    | hear => exact opStep_hear event

theorem phase_of_outgoing? {x : Place × Bytes} (h : w.outgoing? op = some x) :
    ∃ frame stage, w.phase = .exchanging x.1 frame stage := by
  unfold outgoing? at h
  split at h
  · split at h
    · next phase =>
      obtain rfl := Option.some.inj h
      exact ⟨_, _, phase⟩
    · cases h
  · cases h

end Worker

end Courier.Forward
