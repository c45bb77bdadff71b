import Courier.Engine.Echo
import Courier.Engine.Scripted
import Courier.Proofs.Forward.Turns

/-!
# Custody

The contract of an engine. It does not fail, it keeps every packet that it was given
until it ends it or hands it back, and its shutdown ends all that it keeps. The echo
engine and the forwarding worker meet the contract, and so does whatever the two do
in between; a script meets it if it never fails and keeps nothing after a shutdown.
-/

namespace Courier

structure Custody (σ : Type) [Engine σ] where
  Valid : σ → Prop
  /-- The packet in the place is in the engine's keeping. -/
  Keeps : σ → Place → Prop
  submit_calm (e : σ) (h : Hold) (p : Packet) :
    Valid e → (Engine.submit e h p).verdict ≠ .panicked
  submit_valid (e : σ) (h : Hold) (p : Packet) : Valid e → Valid (Engine.submit e h p).engine
  submit_keeps (e : σ) (h : Hold) (p : Packet) (place : Place) :
    Valid e → Keeps e place ∨ place = h.length →
      Keeps (Engine.submit e h p).engine place ∨
      place ∈ (Engine.submit e h p).settlements.map (·.place) ∨
      place = h.length ∧ (Engine.submit e h p).verdict = .handedBack
  shutdown_calm (e : σ) (h : Hold) : Valid e → (Engine.shutdown e h).panicked = false
  shutdown_settles (e : σ) (h : Hold) (place : Place) :
    Valid e → Keeps e place → (h.packet? place).isSome →
      place ∈ (Engine.shutdown e h).settlements.map (·.place)

/-- The engine goes on with its work, between two calls of its client. What it keeps it keeps on
keeping, or ends. -/
structure Custody.Moves {σ : Type} [Engine σ] (K : Custody σ) (h : Hold) (e : σ)
    (settlements : List Settlement) (e' : σ) : Prop where
  valid : K.Valid e → K.Valid e'
  keeps : ∀ place, K.Keeps e place → (h.packet? place).isSome →
    K.Keeps e' place ∨ place ∈ settlements.map (·.place)

-- ---------------------------------------------------------------------------
-- The echo engine
-- ---------------------------------------------------------------------------

namespace Echo

theorem queue_echo (e : Echo) (p : Packet) : (e.echo p).1.queue = e.queue := by
  unfold echo
  simp only
  split <;> rfl

theorem work_cons {e : Echo} (h : Hold) (hq : e.queue = place :: rest) :
    ∃ e' done, e.work h = some (e', done) ∧ e'.queue = rest ∧
      ((h.packet? place).isSome → place ∈ done.map (·.place)) := by
  simp only [work, hq]
  cases hp : h.packet? place with
  | none => exact ⟨_, _, rfl, rfl, by simp⟩
  | some p => exact ⟨_, _, rfl, queue_echo _ p, by simp⟩

def drainStep (h : Hold) : Echo × List Settlement → Echo × List Settlement
  | (e, done) =>
    match e.work h with
    | none => (e, done)
    | some (e, more) => (e, done ++ more)

theorem mem_foldl_drainStep (h : Hold) (steps : List Place) {e : Echo} {done : List Settlement}
    (enough : e.queue.length ≤ steps.length) (live : (h.packet? place).isSome)
    (hmem : place ∈ e.queue ∨ place ∈ done.map (·.place)) :
    place ∈ (steps.foldl (fun x _ => drainStep h x) (e, done)).2.map (·.place) := by
  induction steps generalizing e done with
  | nil =>
    have hnil : e.queue = [] := List.eq_nil_of_length_eq_zero (Nat.le_zero.mp enough)
    simpa [hnil] using hmem
  | cons step steps ih =>
    cases hq : e.queue with
    | nil =>
      have hidle : drainStep h (e, done) = (e, done) := by simp [drainStep, work, hq]
      rw [List.foldl_cons, hidle]
      exact ih (by simp [hq]) hmem
    | cons first rest =>
      obtain ⟨e', more, hwork, hrest, hfirst⟩ := work_cons h hq
      have hstep : drainStep h (e, done) = (e', done ++ more) := by simp [drainStep, hwork]
      rw [List.foldl_cons, hstep]
      refine ih (by simpa [hrest, hq] using enough) ?_
      rw [hq, List.mem_cons] at hmem
      rw [List.map_append, List.mem_append, hrest]
      rcases hmem with (rfl | hmem) | hmem
      · exact .inr (.inr (hfirst live))
      · exact .inl hmem
      · exact .inr (.inl hmem)

def custody : Custody Echo where
  Valid _ := True
  Keeps e place := place ∈ e.queue
  submit_calm e h p _ := by
    simp only [Engine.submit]
    split <;> simp
  submit_valid _ _ _ _ := trivial
  submit_keeps e h p place _ hplace := by
    simp only [Engine.submit]
    split
    · rw [queue_echo]
      rcases hplace with hmem | rfl
      · exact .inl hmem
      · exact .inr (.inl (by simp))
    · exact .inl (List.mem_append.mpr (hplace.imp_right List.mem_singleton.mpr))
  shutdown_calm _ _ _ := rfl
  shutdown_settles e h place _ hmem live :=
    mem_foldl_drainStep h e.queue (Nat.le_refl _) live (.inl hmem)

theorem work_moves {e e' : Echo} {h : Hold} (hwork : e.work h = some (e', done)) :
    custody.Moves h e done e' where
  valid := id
  keeps place hmem live := by
    cases hq : e.queue with
    | nil => simp [custody, hq] at hmem
    | cons first rest =>
      obtain ⟨_, _, hwork', hrest, hfirst⟩ := work_cons h hq
      obtain ⟨rfl, rfl⟩ := Prod.ext_iff.mp (Option.some.inj (hwork.symm.trans hwork'))
      simp only [custody, hq, List.mem_cons] at hmem ⊢
      rw [hrest]
      exact hmem.symm.imp_right fun h => by subst h; exact hfirst live

end Echo

-- ---------------------------------------------------------------------------
-- Scripted engines
-- ---------------------------------------------------------------------------

namespace Scripted

theorem mem_live {h : Hold} (live : (h.packet? place).isSome) : place ∈ h.live := by
  obtain ⟨p, hp⟩ := Option.isSome_iff_exists.mp live
  have hfull : h[place]? = some (some p) := Option.join_eq_some_iff.mp hp
  simp only [Hold.live, List.mem_filterMap, Prod.exists, Option.map_eq_some_iff]
  exact ⟨some p, place, List.mem_zipIdx_iff_getElem?.mpr hfull, p, rfl, rfl⟩

theorem mem_settle {h : Hold} (live : (h.packet? place).isSome) (ending : Packet → Ending)
    (hmem : place ∈ places) : place ∈ (settle h ending places).map (·.place) := by
  obtain ⟨p, hp⟩ := Option.isSome_iff_exists.mp live
  simp only [settle, List.mem_map, List.mem_filterMap]
  exact ⟨⟨place, ending p⟩, ⟨place, hmem, by simp [hp]⟩, rfl⟩

/-- A script goes by what the client holds, so all of that is in its keeping. -/
def custody : Custody Scripted where
  Valid s := s.onSubmit ≠ .panic ∧ s.onShutdown ≠ .keep ∧ s.onShutdown ≠ .panic
  Keeps _ _ := True
  submit_calm s h p hs := by
    simp only [Engine.submit]
    split <;> simp_all
    split <;> simp
  submit_valid s h p hs := by
    simp only [Engine.submit]
    split <;> exact hs
  submit_keeps _ _ _ _ _ _ := .inl trivial
  shutdown_calm s h hs := by
    simp only [Engine.shutdown]
    split <;> simp_all
  shutdown_settles s h place hs _ live := by
    simp only [Engine.shutdown]
    split
    · exact mem_settle live _ (mem_live live)
    · exact mem_settle live _ (List.mem_reverse.mpr (mem_live live))
    · exact mem_settle live _ (mem_live live)
    · next hk => exact absurd hk hs.2.1
    · next hk => exact absurd hk hs.2.2

end Scripted

-- ---------------------------------------------------------------------------
-- The forwarding worker
-- ---------------------------------------------------------------------------

namespace Forward.Worker

theorem pending_push (w : Worker) (hw : w.phase ≠ .stopped) (place : Place) :
    (w.push place).pending = w.pending ++ [place] := by
  unfold pending push
  cases hp : w.phase <;> simp_all

def stepsLeft (w : Worker) : Nat :=
  match w.phase with
  | .idle => 2 * w.queue.length
  | .holding _ => 2 * w.queue.length + 1
  | .exchanging .. => 2 * w.queue.length + 1
  | .stopped => 0

/-- A worker that was stopped ends all its packets, the one in hand and then the queue. -/
theorem mem_finish (steps : Nat) {w : Worker} (h : Hold) (requested : w.requested = true)
    (notice : ∀ place frame stage, w.phase = .exchanging place frame stage → w.permit = true)
    (enough : w.stepsLeft ≤ steps) (hmem : place ∈ w.pending) :
    place ∈ (w.finish h steps).map (·.place) := by
  induction steps generalizing w with
  | zero =>
    cases hp : w.phase with
    | idle =>
      have hnil : w.queue = [] := by
        simp only [stepsLeft, hp] at enough
        exact List.eq_nil_of_length_eq_zero (by omega)
      simp [pending, hp, hnil] at hmem
    | holding => simp [stepsLeft, hp] at enough
    | exchanging => simp [stepsLeft, hp] at enough
    | stopped => simp [pending, hp] at hmem
  | succ steps ih =>
    cases hp : w.phase with
    | idle =>
      cases hq : w.queue with
      | nil => simp [pending, hp, hq] at hmem
      | cons first rest =>
        have hstep : w.step h = some ({ w with queue := rest, phase := .holding first }, []) := by
          simp [step, hp, receive, hq]
        simp only [finish, hstep, List.nil_append]
        refine ih requested (by simp) ?_ (by simpa [pending, hp, hq] using hmem)
        simp only [stepsLeft, hp, hq, List.length_cons] at enough ⊢
        omega
    | holding first =>
      have hstep : w.step h = some (w.settle first .clientShutdown []) := by
        simp [step, hp, inspect, requested]
      simp only [finish, hstep, settle, List.map_append, List.mem_append]
      simp only [pending, hp, List.mem_cons] at hmem
      refine hmem.imp (by simp +contextual) ?_
      intro hmem
      refine ih requested (by simp) ?_ (by simpa [pending] using hmem)
      simp only [stepsLeft, hp] at enough ⊢
      omega
    | exchanging first frame stage =>
      have hstep : w.step h = some (w.cut first) := by
        simp [step, hp, notice first frame stage hp]
      simp only [finish, hstep, cut, settle, List.map_append, List.mem_append]
      simp only [pending, hp, List.mem_cons] at hmem
      refine hmem.imp (by simp +contextual) ?_
      intro hmem
      refine ih requested (by simp) ?_ (by simpa [pending] using hmem)
      simp only [stepsLeft, hp] at enough ⊢
      omega
    | stopped => simp [pending, hp] at hmem

theorem stepsLeft_lt (w : Worker) : w.stepsLeft < 2 * w.pending.length + 1 := by
  unfold stepsLeft pending
  cases w.phase <;> simp only [List.length_cons, List.length_nil] <;> omega

def custody : Custody Worker where
  Valid w := w.phase ≠ .stopped
  Keeps w place := place ∈ w.pending
  submit_calm _ _ _ _ := by simp [Engine.submit]
  submit_valid _ _ _ hw := hw
  submit_keeps w h _ place hw hplace := by
    refine .inl ?_
    change place ∈ (w.push h.length).pending
    rw [pending_push w hw]
    exact List.mem_append.mpr (hplace.imp_right List.mem_singleton.mpr)
  shutdown_calm _ _ _ := rfl
  shutdown_settles w h place _ hmem _ :=
    mem_finish (2 * w.pending.length + 1) h rfl (fun _ _ _ _ => rfl)
      (Nat.le_of_lt w.stop.stepsLeft_lt) hmem

theorem moves_of_pending {w w' : Worker} (hold : Hold) (hp : w'.pending = w.pending)
    (hw : w.phase ≠ .stopped → w'.phase ≠ .stopped) : custody.Moves hold w done w' where
  valid := hw
  keeps place hmem _ := .inl (by simpa only [custody, hp] using hmem)

theorem moves_of_settle {w w' : Worker} (hold : Hold) (hw : w.pending = place :: w.queue)
    (queue : w'.queue = w.queue) (outcome : Outcome) (result : Bytes) :
    custody.Moves hold w (w'.settle place outcome result).2 (w'.settle place outcome result).1 where
  valid _ := by simp [custody, settle]
  keeps other hmem _ := by
    simp only [custody, hw, List.mem_cons] at hmem
    rcases hmem with rfl | hmem
    · exact .inr (by simp [settle])
    · exact .inl (by simpa [custody, pending, settle, queue] using hmem)

theorem EnterOrSettle.moves {w : Worker} (h : w.EnterOrSettle place frame turn) (hold : Hold)
    (hw : w.pending = place :: w.queue) : custody.Moves hold w turn.2 turn.1 := by
  cases h with
  | enter => exact moves_of_pending hold hw.symm (by simp [Worker.enter])
  | settle => exact moves_of_settle hold hw (by rfl) _ _

/-- The worker keeps to the contract as long as further packets may come. -/
theorem step_moves {w w' : Worker} {h : Hold} (hopen : w.isOpen = true)
    (hstep : w.step h = some (w', done)) : custody.Moves h w done w' := by
  cases hp : w.phase with
  | idle =>
    cases hq : w.queue with
    | nil => simp [step, hp, receive, hq, hopen] at hstep
    | cons place rest =>
      simp only [step, hp, receive, hq, Option.map_some, Option.some.injEq, Prod.mk.injEq] at hstep
      obtain ⟨rfl, rfl⟩ := hstep
      exact moves_of_pending h (by simp [pending, hp, hq]) (by simp)
  | holding place =>
    have hw : w.pending = place :: w.queue := by simp [pending, hp]
    simp only [step, hp, Option.some.injEq] at hstep
    unfold inspect at hstep
    split at hstep
    · cases hstep
      exact moves_of_settle h hw (by rfl) _ _
    · split at hstep
      · next hnone =>
        cases hstep
        refine ⟨by simp [custody], ?_⟩
        intro other hmem live
        simp only [custody, hw, List.mem_cons] at hmem
        rcases hmem with rfl | hmem
        · simp [hnone] at live
        · exact .inl hmem
      · split at hstep
        · cases hstep
          exact moves_of_settle h hw (by rfl) _ _
        · cases hstep
          exact moves_of_pending h hw.symm (by simp [Worker.enter])
  | exchanging place frame stage =>
    have hw : w.pending = place :: w.queue := by simp [pending, hp]
    simp only [step, hp] at hstep
    split at hstep
    · cases hstep
      exact moves_of_settle h hw (by rfl) _ _
    · exact (enterOrSettle_progress hstep).moves h hw
  | stopped => simp [step, hp] at hstep

theorem hear_moves (w : Worker) (h : Hold) (event : Event) :
    custody.Moves h w (w.hear event).2 (w.hear event).1 := by
  rcases hear_cases w event with ⟨place, frame, stage, hp, turns⟩ | ⟨connection, hear_eq⟩
  · exact turns.moves h (by simp [pending, hp])
  · rw [hear_eq]
    exact moves_of_pending h rfl id

end Forward.Worker

end Courier
