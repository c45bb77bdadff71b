import Courier.Forward.Worker

/-!
# Turns of the forwarding worker

While a packet is in hand the worker goes on with it or ends it, in whatever way the
exchange turns out. Nothing but the connection, the buffer and the notice of a stop can
change besides.
-/

namespace Courier.Forward.Worker

variable {w : Worker} {turn : Turn}

theorem request_error_cases {p : Packet} {limit : UInt32} (h : p.request limit = .error outcome) :
    outcome = .tooMuchData ∨ outcome = .invalidDataSize := by
  unfold Packet.request at h
  split at h
  · exact .inl (Except.error.inj h).symm
  · split at h
    · cases h
    · split at h
      · exact .inr (Except.error.inj h).symm
      · cases h

theorem frame?_error_cases {p : Packet} (h : w.frame? p = .error outcome) :
    outcome = .tooMuchData ∨ outcome = .invalidDataSize := by
  simp only [frame?, bind, Except.bind] at h
  split at h
  · next hrequest => exact Except.error.inj h ▸ request_error_cases hrequest
  · split at h
    · cases h
    · exact .inl (Except.error.inj h).symm

inductive EnterOrSettle (w : Worker) (place : Place) (frame : Bytes) : Turn → Prop
  | enter (connection : Option Connection) (buffer : Bytes) (stage : Stage) :
      EnterOrSettle w place frame ({ w with connection, buffer }.enter place frame stage, [])
  | settle (connection : Option Connection) (permit : Bool) (outcome : Outcome) (result : Bytes) :
      EnterOrSettle w place frame ({ w with connection, permit }.settle place outcome result)

theorem EnterOrSettle.fail (w : Worker) (place : Place) (frame : Bytes) :
    w.EnterOrSettle place frame (w.fail place) :=
  .settle w.connection w.permit .engineFailure []

theorem enterOrSettle_conclude (w : Worker) (place : Place) (frame : Bytes) (link : Connection) :
    w.EnterOrSettle place frame (w.conclude place link) := by
  simp only [conclude]
  split
  · exact .settle (some link) w.permit _ _
  · exact .settle (some link) w.permit _ _

inductive EnterOrFail (w : Worker) (place : Place) (frame : Bytes) : Turn → Prop
  | enter (connection : Option Connection) (buffer : Bytes) (stage : Stage) :
      EnterOrFail w place frame ({ w with connection, buffer }.enter place frame stage, [])
  | fail : EnterOrFail w place frame (w.fail place)

theorem EnterOrFail.enterOrSettle (h : w.EnterOrFail place frame turn) :
    w.EnterOrSettle place frame turn := by
  cases h with
  | enter connection buffer stage => exact .enter connection buffer stage
  | fail => exact .fail w place frame

/-- The worker goes on with the exchange until the whole reply is there. -/
theorem progress_cases (goes : w.progress place frame stage = some turn) :
    w.EnterOrFail place frame turn ∨
      ∃ link, stage = .body link 0 ∧ turn = w.conclude place link := by
  unfold progress at goes
  split at goes
  · split at goes
    · cases goes
      exact .inl (.enter none w.buffer _)
    · cases goes
      exact .inl (.enter w.connection w.buffer _)
  · cases goes
    exact .inl .fail
  · cases goes
  · cases goes
    exact .inl (.enter w.connection w.buffer _)
  · cases goes
  · split at goes
    · split at goes
      · cases goes
        exact .inl .fail
      · cases goes
        exact .inl (.enter w.connection _ _)
    · split at goes
      · split at goes
        · cases goes
          exact .inl .fail
        · cases goes
      · cases goes
        exact .inl (.enter w.connection w.buffer _)
  · split at goes
    · next link _ hwhole =>
      subst hwhole
      cases goes
      exact .inr ⟨link, rfl, rfl⟩
    · split at goes
      · split at goes
        · cases goes
          exact .inl .fail
        · cases goes
      · cases goes
        exact .inl (.enter w.connection _ _)

theorem enterOrSettle_progress (goes : w.progress place frame stage = some turn) :
    w.EnterOrSettle place frame turn := by
  rcases progress_cases goes with enterOrFail | ⟨link, -, rfl⟩
  · exact enterOrFail.enterOrSettle
  · exact enterOrSettle_conclude w place frame link

theorem mapLink_cases (w : Worker) (f : Connection → Connection) :
    (∃ place frame stage, w.phase = .exchanging place frame stage ∧
      w.EnterOrFail place frame (w.mapLink f, [])) ∨
    ∃ connection, w.mapLink f = { w with connection } := by
  unfold mapLink
  split
  iterate 3
    next phase => exact .inl ⟨_, _, _, phase, .enter w.connection w.buffer _⟩
  · exact .inr ⟨_, rfl⟩

/-- What the worker is told concerns the packet in hand, or at most the connection that is kept. -/
theorem hear_enterOrFail (w : Worker) (event : Event) :
    (∃ place frame stage, w.phase = .exchanging place frame stage ∧
      w.EnterOrFail place frame (w.hear event)) ∨
    ∃ connection, w.hear event = ({ w with connection }, []) := by
  have hlink (f : Connection → Connection) :
      (∃ place frame stage, w.phase = .exchanging place frame stage ∧
        w.EnterOrFail place frame (w.mapLink f, [])) ∨
      ∃ connection, (w.mapLink f, ([] : List Settlement)) = ({ w with connection }, []) := by
    refine (mapLink_cases w f).imp_right ?_
    rintro ⟨connection, h⟩
    exact ⟨connection, by rw [h]⟩
  unfold hear
  split
  · exact hlink _
  · exact hlink _
  · split
    iterate 3
      next phase _ _ => exact .inl ⟨_, _, _, phase, .enter w.connection w.buffer _⟩
    iterate 7
      next phase _ _ => exact .inl ⟨_, _, _, phase, .fail⟩
    · exact .inr ⟨w.connection, rfl⟩

theorem hear_cases (w : Worker) (event : Event) :
    (∃ place frame stage, w.phase = .exchanging place frame stage ∧
      w.EnterOrSettle place frame (w.hear event)) ∨
    ∃ connection, w.hear event = ({ w with connection }, []) := by
  refine (hear_enterOrFail w event).imp_left ?_
  rintro ⟨place, frame, stage, phase, enterOrFail⟩
  exact ⟨place, frame, stage, phase, enterOrFail.enterOrSettle⟩

end Courier.Forward.Worker
