import Courier.Proofs.Client.Closing
import Courier.Proofs.Client.Deliveries

/-!
# Deliveries one at a time

A system that does its operations one after the other, each as a whole, does the steps of
`Deliveries.Step` in one of the orders in which they can come. So what holds in between any steps
holds of systems as well (`Run.scheduled`).
-/

namespace Courier.Deliveries

open Courier.System (Op Trace accepts acceptedIn submitted?)

variable {σ : Type} {t u v : Deliveries σ} {s : System σ} {c : ClientId} {p : PacketId}

theorem Run.trans (first : t.Run u) (second : u.Run v) : t.Run v := by
  induction second with
  | nil => exact first
  | snoc _ step ih => exact ih.snoc step

/-- The steps from one state to another one, with the submits and the deliveries under way that
there were, and a system like this. -/
structure Refines (t : Deliveries σ) (s : System σ) (u : Deliveries σ) : Prop where
  run : t.Run u
  system : u.system = s
  underway : u.underway = t.underway
  offers : u.offers = t.offers
  accepted : u.accepted = t.accepted

namespace Refines

theorem refl (t : Deliveries σ) : t.Refines t.system t := ⟨.nil, rfl, rfl, rfl, rfl⟩

theorem trans (first : t.Refines s u) (second : u.Refines s' v) : t.Refines s' v where
  run := first.run.trans second.run
  system := second.system
  underway := second.underway.trans first.underway
  offers := second.offers.trans first.offers
  accepted := second.accepted.trans first.accepted

theorem of_step {s : System σ} (step : t.Step { t with system := s }) :
    t.Refines s { t with system := s } :=
  ⟨Run.nil.snoc step, rfl, rfl, rfl, rfl⟩

theorem change (t : Deliveries σ) (c : ClientId) {f : Client σ → Client σ}
    (held : ∀ k, (f k).held = k.held) (count : ∀ k, (f k).inFlight = k.inFlight) :
    t.Refines (t.system.modify c f) { t with system := t.system.modify c f } :=
  of_step (.change c f held count)

end Refines

theorem refines_settle (t : Deliveries σ) (c : ClientId) (place : Place) (e : Ending) :
    ∃ u, t.Refines (t.system.settle c place e) u := by
  cases hp : (t.system.held c)[place]?.join with
  | none =>
    rw [System.settle_of_no_loan hp]
    exact ⟨t, .refl t⟩
  | some p =>
    have hfull := Option.join_eq_some_iff.mp hp
    have taken : t.Run (t.take c place p e) := Run.nil.snoc (.take (mem_loansOf.mpr hfull) e)
    have delivered := (((taken.snoc (.write rfl rfl)).snoc (.count rfl rfl)).snoc
      (.call rfl rfl)).snoc (.finish rfl rfl)
    refine ⟨_, delivered, ?_, List.append_nil _, rfl, rfl⟩
    obtain ⟨k, client⟩ := System.client_of_held hfull
    have hpacket : (t.system.client? c).bind (·.packet? place) = some p := by
      rw [System.held_of_client client] at hp
      rw [client]
      exact hp
    rw [System.settle, hpacket]
    rfl

theorem refines_settleAll (t : Deliveries σ) (c : ClientId) (settlements : List Settlement) :
    ∃ u, t.Refines (t.system.settleAll c settlements) u := by
  induction settlements generalizing t with
  | nil => exact ⟨t, .refl t⟩
  | cons x rest ih =>
    obtain ⟨u, first⟩ := refines_settle t c x.place x.ending
    obtain ⟨v, second⟩ := ih u
    rw [first.system] at second
    exact ⟨v, first.trans second⟩

theorem refines_abandon (t : Deliveries σ) (c : ClientId) :
    ∃ u, t.Refines (t.system.abandon c) u := by
  unfold System.abandon
  split
  · exact ⟨t, .refl t⟩
  · split
    · exact refines_settleAll t c _
    · exact ⟨t, .refl t⟩

theorem refines_react (t : Deliveries σ) (c : ClientId) (engine : σ)
    (settlements : List Settlement) :
    ∃ u, t.Refines (t.system.react c engine settlements) u := by
  have change := Refines.change t c (f := fun k => { k with engine := some engine }) (fun _ => rfl)
    fun _ => rfl
  obtain ⟨u, settled⟩ := refines_settleAll
    { t with system := t.system.modify c fun k => { k with engine := some engine } } c settlements
  exact ⟨u, change.trans settled⟩

variable [Engine σ]

theorem refines_tearDown (t : Deliveries σ) (c : ClientId) (engine : σ) :
    ∃ u, t.Refines (t.system.tearDown c engine).2 u := by
  have shutdown : t.Refines (t.system.log (.released c)) _ := .of_step (.shutdown c)
  obtain ⟨u, settled⟩ := refines_settleAll { t with system := t.system.log (.released c) } c
    (Engine.shutdown engine (t.system.hold c)).settlements
  obtain ⟨v, abandoned⟩ := refines_abandon u c
  rw [settled.system] at abandoned
  exact ⟨v, (shutdown.trans settled).trans abandoned⟩

theorem refines_deinit (t : Deliveries σ) (c : ClientId) :
    ∃ u, t.Refines (t.system.deinit c).2 u := by
  cases hc : t.system.engine? c with
  | none =>
    rw [System.deinit_of_closed hc]
    exact ⟨t, .refl t⟩
  | some engine =>
    have taken := Refines.change t c (f := fun k => { k with engine := none }) (fun _ => rfl)
      fun _ => rfl
    obtain ⟨u, torn⟩ := refines_tearDown { t with system := t.system.withoutEngine c } c engine
    rw [System.deinit_of_open hc]
    exact ⟨u, taken.trans torn⟩

theorem refines_release (t : Deliveries σ) (c : ClientId) :
    ∃ u, t.Refines (t.system.release c).2 u := by
  have fewer := Refines.change t c (f := fun k => { k with references := k.references - 1 })
    (fun _ => rfl) fun _ => rfl
  rcases System.release_cases t.system c with hs | ⟨engine, -, -, hs⟩
  · rw [hs]
    exact ⟨_, fewer⟩
  · have taken := Refines.change { t with system := t.system.withoutReference c } c
      (f := fun k => { k with engine := none }) (fun _ => rfl) fun _ => rfl
    obtain ⟨u, torn⟩ := refines_tearDown
      { t with system := (t.system.withoutReference c).withoutEngine c } c engine
    rw [hs]
    exact ⟨u, (fewer.trans taken).trans torn⟩

structure Submits (t : Deliveries σ) (c : ClientId) (p : PacketId) (out : System.Answer × System σ)
    (u : Deliveries σ) : Prop where
  run : t.Run u
  system : u.system = out.2
  underway : u.underway = t.underway
  offers : u.offers = t.offers
  accepted : ∀ d, (u.accepted d).map (·.1) =
    (t.accepted d).map (·.1) ++ if c = d ∧ accepts out.1 then [p] else []

theorem submits (free : t.offers c = none) (p : PacketId) :
    ∃ u, t.Submits c p (t.system.submit c p) u := by
  have hfree : Function.update (Function.update t.offers c (some p)) c none = t.offers := by
    rw [Function.update_idem, ← free, Function.update_eq_self]
  have offered {r : Reaction σ} (hr : t.system.reaction? c p = some r) :
      ∃ u, t.Run u ∧ u.system = t.system.offer c p r ∧ u.underway = t.underway ∧
        u.offers = Function.update t.offers c (some p) ∧ u.accepted = t.accepted := by
    obtain ⟨k, client⟩ := System.client_of_reaction hr
    obtain ⟨u, reacted⟩ := refines_react (t.offer c p) c r.engine r.settlements
    exact ⟨u, (Run.nil.snoc (.offer p client free)).trans reacted.run, reacted.system,
      reacted.underway, reacted.offers, reacted.accepted⟩
  have hsubmission := System.submission t.system c p
  generalize t.system.submit c p = out at hsubmission
  cases hsubmission with
  | closed => exact ⟨t, .nil, rfl, rfl, rfl, by simp [accepts]⟩
  | @accepted r hr =>
    obtain ⟨u, run, system, underway, offers, accepted⟩ := offered hr
    have pending : u.offers c = some p := by rw [offers, Function.update_self]
    refine ⟨u.accept c p, run.snoc (.accept pending), system, underway, ?_, ?_⟩
    · rw [accept, comeBack, offers, hfree]
    · intro d
      by_cases hd : c = d
      · subst hd
        simp [accept, accepts, accepted]
      · simp [accept, comeBack, accepted, hd, Function.update_of_ne (Ne.symm hd)]
  | @handedBack r q hr verdict kept =>
    obtain ⟨u, run, system, underway, offers, accepted⟩ := offered hr
    have pending : u.offers c = some p := by rw [offers, Function.update_self]
    have last : (u.system.held c).getLast? = some (some q) := by
      obtain ⟨k, client⟩ := System.client_of_reaction hr
      rw [List.getLast?_eq_getElem?, system, System.length_held_offer client,
        Nat.add_sub_cancel]
      exact kept
    refine ⟨u.handBack c, run.snoc (.handBack pending last), ?_, underway, ?_, ?_⟩
    · rw [handBack, system]
    · rw [handBack, comeBack, offers, hfree]
    · simp [handBack, comeBack, accepts, accepted]
  | @panicked r hr verdict =>
    obtain ⟨u, run, system, underway, offers, accepted⟩ := offered hr
    obtain ⟨v, dropped⟩ := refines_settle u c (t.system.nextPlace c) .drop
    have pending : v.offers c = some p := by rw [dropped.offers, offers, Function.update_self]
    refine ⟨v.comeBack c, (run.trans dropped.run).snoc (.fail pending), ?_, ?_, ?_, ?_⟩
    · rw [comeBack, dropped.system, system]
    · exact dropped.underway.trans underway
    · rw [comeBack, dropped.offers, offers, hfree]
    · simp [comeBack, accepts, dropped.accepted, accepted]

/-- With no submit under way, whatever happens to the system happens step by step. -/
theorem schedules (free : ∀ c, t.offers c = none) (op : Op σ) :
    ∃ u, t.Run u ∧ u.system = (t.system.act op).2 ∧ u.underway = t.underway ∧
      u.offers = t.offers ∧ ∀ c, (u.accepted c).map (·.1) = (t.accepted c).map (·.1) ++
        (submitted? accepts c (op, (t.system.act op).1)).toList := by
  have quiet {s : System σ} (refines : ∃ u, t.Refines s u)
      (quiet : ∀ c, submitted? accepts c (op, (t.system.act op).1) = none) :
      ∃ u, t.Run u ∧ u.system = s ∧ u.underway = t.underway ∧
        u.offers = t.offers ∧ ∀ c, (u.accepted c).map (·.1) = (t.accepted c).map (·.1) ++
          (submitted? accepts c (op, (t.system.act op).1)).toList := by
    obtain ⟨u, h⟩ := refines
    refine ⟨u, h.run, h.system, h.underway, h.offers, ?_⟩
    intro c
    rw [h.accepted, quiet c, Option.toList_none, List.append_nil]
  cases op with
  | start k => exact quiet ⟨_, .of_step (.start k)⟩ fun _ => rfl
  | fill p packet => exact quiet ⟨_, .of_step (.host p packet)⟩ fun _ => rfl
  | submit c p =>
    obtain ⟨u, h⟩ := submits (free c) p
    refine ⟨u, h.run, h.system, h.underway, h.offers, ?_⟩
    intro d
    rw [h.accepted]
    simp only [System.act, submitted?]
    split <;> rfl
  | deinit c => exact quiet (refines_deinit t c) fun _ => rfl
  | retain c => exact quiet ⟨_, .change t c (fun _ => rfl) fun _ => rfl⟩ fun _ => rfl
  | release c => exact quiet (refines_release t c) fun _ => rfl
  | work c engine settlements =>
    refine quiet ?_ fun _ => rfl
    simp only [System.act]
    split
    · exact refines_react t c engine settlements
    · exact ⟨t, .refl t⟩
  | settle c place e => exact quiet (refines_settle t c place e) fun _ => rfl
  | share c => exact quiet ⟨_, .change t c (fun _ => rfl) fun _ => rfl⟩ fun _ => rfl
  | unshare c =>
    have fewer := Refines.change t c (f := fun k => { k with sharers := k.sharers - 1 })
      (fun _ => rfl) fun _ => rfl
    obtain ⟨u, abandoned⟩ := refines_abandon
      { t with system := t.system.modify c fun k => { k with sharers := k.sharers - 1 } } c
    exact quiet ⟨u, fewer.trans abandoned⟩ fun _ => rfl

end Courier.Deliveries

namespace Courier.System

variable {σ : Type} [Engine σ]

/-- What a system does operation by operation it does step by step, and it pauses after each
operation. -/
theorem Run.scheduled {m : Memory} {trace : Trace σ} {s : System σ}
    (run : Run { memory := m } trace s) :
    ∃ t : Deliveries σ, Deliveries.Run { system := { memory := m } } t ∧ t.system = s ∧
      t.underway = [] ∧ (∀ c, t.offers c = none) ∧
      ∀ c, (t.accepted c).map (·.1) = acceptedIn c trace := by
  induction run with
  | nil => exact ⟨_, .nil, rfl, rfl, fun _ => rfl, fun _ => rfl⟩
  | @snoc trace s run op ih =>
    obtain ⟨t, steps, rfl, idle, free, accepted⟩ := ih
    obtain ⟨u, more, system, underway, offers, accepted'⟩ := Deliveries.schedules free op
    refine ⟨u, steps.trans more, system, underway.trans idle, ?_, ?_⟩
    · intro c
      rw [offers, free]
    · intro c
      have last : [(op, (t.system.act op).1)].filterMap (submitted? accepts c) =
          (submitted? accepts c (op, (t.system.act op).1)).toList := by
        rw [List.filterMap_cons]
        cases submitted? accepts c (op, (t.system.act op).1) <;> rfl
      rw [accepted', accepted, acceptedIn, acceptedIn, List.filterMap_append, last]

end Courier.System
