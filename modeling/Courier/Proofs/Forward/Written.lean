import Courier.Proofs.Forward.Attribution
import Courier.Proofs.Forward.Endings

/-!
# What the worker has written

A worker writes to a connection in one way only, when it is told that the connection took
some bytes. A log of what these were (`Worker.outgoing?`) has, for each connection that can
still be used, all that was written to it.
-/

namespace Courier.Forward.Worker

variable {w v : Worker} {turn : Turn} {op : WorkerOp}

/-- Whatever the worker has written to a connection that it still has is in the log, in order. -/
def Logged (w : Worker) (log : List Bytes) : Prop := ∀ link ∈ w.links, link.sent.Sublist log

theorem links_exchanging (phase : w.phase = .exchanging place frame stage) :
    w.links = stage.link?.toList ++ w.connection.toList := by
  simp [links, phase]

theorem links_enter :
    (w.enter place frame stage).links = stage.link?.toList ++ w.connection.toList := rfl

theorem Logged.settle (h : w.Logged log) (place : Place) (outcome : Outcome) (result : Bytes) :
    Logged (w.settle place outcome result).1 log := by
  intro link hlink
  exact h link (List.mem_append_right _ (by simpa [links, Worker.settle] using hlink))

theorem Logged.progress (h : w.Logged log) (phase : w.phase = .exchanging place frame stage)
    (goes : w.progress place frame stage = some turn) : Logged turn.1 log := by
  have hfail := h.settle place .engineFailure []
  simp only [Logged, links_exchanging phase] at h
  unfold Worker.progress at goes
  split at goes
  · split at goes
    · next link hc =>
      cases goes
      simpa [Logged, links_enter, Stage.link?, hc] using h
    · cases goes
      simpa [Logged, links_enter, Stage.link?] using h
  · cases goes
    exact hfail
  · cases goes
  · cases goes
    simpa [Logged, links_enter, Stage.link?] using h
  · cases goes
  · split at goes
    · split at goes
      · cases goes
        exact hfail
      · cases goes
        simpa [Logged, links_enter, Stage.link?] using h
    · split at goes
      · split at goes
        · cases goes
          exact hfail
        · cases goes
      · cases goes
        simpa [Logged, links_enter, Stage.link?, Connection.read] using h
  · split at goes
    · next link _ _ =>
      cases goes
      have hkept : Logged { w with connection := some link } log := by
        have hlink := h link (by simp [Stage.link?])
        simpa [Logged, links, phase, Stage.link?] using hlink
      simp only [conclude]
      split
      · exact hkept.settle _ _ _
      · exact hkept.settle _ _ _
    · split at goes
      · split at goes
        · cases goes
          exact hfail
        · cases goes
      · cases goes
        simpa [Logged, links_enter, Stage.link?, Connection.read] using h

theorem Logged.mapLink (h : w.Logged log) {f : Connection → Connection}
    (same : ∀ link, (f link).sent = link.sent) : Logged (w.mapLink f) log := by
  unfold Worker.mapLink
  split
  iterate 3
    next phase =>
      simpa [Logged, links_enter, links_exchanging phase, Stage.link?, same] using h
  · intro link hlink
    rcases List.mem_append.mp hlink with hstage | hkept
    · exact h link (List.mem_append_left _ hstage)
    · obtain ⟨old, hold, rfl⟩ := Option.map_eq_some_iff.mp (Option.mem_toList.mp hkept)
      rw [same]
      exact h old (List.mem_append_right _ (Option.mem_toList.mpr hold))

theorem Logged.hear (h : w.Logged log) (event : Event) :
    Logged (w.hear event).1 (log ++ ((w.outgoing? (.hear event)).map (·.2)).toList) := by
  have hold : w.Logged (log ++ ((w.outgoing? (.hear event)).map (·.2)).toList) :=
    fun link hlink => (h link hlink).trans (List.sublist_append_left _ _)
  unfold Worker.hear
  split
  · exact hold.mapLink fun _ => rfl
  · exact hold.mapLink fun _ => rfl
  · split
    · next phase _ _ =>
      simp only [Logged, links_exchanging phase] at hold
      simpa [Logged, links_enter, Stage.link?] using hold
    · next phase _ _ =>
      simp only [Logged, links_exchanging phase] at hold
      simpa [Logged, links_enter, Stage.link?] using hold
    · next link unsent count phase _ _ =>
      have hnow := h link (by simp [links_exchanging phase, Stage.link?])
      intro other hother
      rw [links_enter] at hother
      rcases List.mem_append.mp hother with hstage | hkept
      · obtain rfl : other = link.write (unsent.take count) := by simpa [Stage.link?] using hstage
        simpa [outgoing?, phase, Connection.write] using hnow.append_right [unsent.take count]
      · exact hold other (List.mem_append_right _ hkept)
    iterate 7
      exact hold.settle _ _ _
    · exact hold

theorem Logged.receive (h : w.Logged log) (phase : w.phase = .idle)
    (goes : w.receive = some v) : v.Logged log := by
  unfold Worker.receive at goes
  split at goes
  · cases goes
    simpa [Logged, links, phase] using h
  · split at goes
    · cases goes
    · cases goes
      simp [Logged, links]

theorem Logged.inspect (h : w.Logged log) (phase : w.phase = .holding place) (hold : Hold) :
    Logged (w.inspect hold place).1 log := by
  unfold Worker.inspect
  split
  · exact h.settle _ _ _
  · split
    · simpa [Logged, links, phase] using h
    · split
      · exact h.settle _ _ _
      · simpa [Logged, links, phase, Worker.enter, Stage.link?] using h

theorem Logged.after {hold : Hold} (h : w.Logged log)
    (goes : w.after (op.move hold) = some turn) :
    turn.1.Logged (log ++ ((w.outgoing? op).map (·.2)).toList) := by
  cases op with
  | hear event =>
    cases moveStep_of_after goes with
    | hear => exact h.hear event
  | receive =>
    cases moveStep_of_after goes with
    | receive phase received => simpa [outgoing?] using h.receive phase received
  | inspect =>
    cases moveStep_of_after goes with
    | inspect phase => simpa [outgoing?] using h.inspect phase hold
  | progress =>
    cases moveStep_of_after goes with
    | progress phase progressed => simpa [outgoing?] using h.progress phase progressed
  | cut =>
    cases moveStep_of_after goes with
    | @cut place frame stage phase =>
      have hcut : Logged { w with permit := false } log := h
      have hturn : (w.cut place).1.Logged log := hcut.settle place .clientShutdown []
      simpa [outgoing?] using hturn

end Courier.Forward.Worker
