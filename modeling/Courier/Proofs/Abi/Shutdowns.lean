import Courier.Proofs.Abi.Ownership
import Mathlib.Data.List.Induction

/-!
# After the shutdown

A client that was closed stays so, and its engine is not asked for anything any more. What the
engine has left over is dropped as soon as nobody else can end it: each packet is called back for
once, with the status of a client that was shut down.
-/

namespace Courier.System

variable {σ : Type} {s t : System σ} {c d : ClientId}

-- ---------------------------------------------------------------------------
-- What is dropped
-- ---------------------------------------------------------------------------

/-- All packets of the client are dropped, oldest first. -/
structure Drops (c : ClientId) (s t : System σ) : Prop where
  completions : ∃ called, t.completions = s.completions ++ called ∧
    called.map (fun x => (x.packet, x.place)) = s.loans c ∧
    ∀ x ∈ called, x.client = c ∧ x.report = ⟨.clientShutdown, []⟩
  loans : t.loans c = []

theorem loansOf_eq_filterMap (held : List (Option PacketId)) :
    loansOf held = (List.range held.length).filterMap fun n => held[n]?.join.map (·, n) := by
  induction held using List.reverseRecOn with
  | nil => rfl
  | append_singleton held p ih =>
    have hfront : (List.range held.length).filterMap (fun n => (held ++ [p])[n]?.join.map (·, n)) =
        (List.range held.length).filterMap fun n => held[n]?.join.map (·, n) := by
      apply List.filterMap_congr
      intro n hn
      rw [List.getElem?_append_left (List.mem_range.mp hn)]
    have hlast : (held ++ [p])[held.length]?.join = p := by simp
    rw [loansOf_concat, ih, List.length_append, List.length_singleton, List.range_succ,
      List.filterMap_append, hfront]
    cases p <;> simp

/-- Packets are dropped place by place. No place comes up twice. -/
theorem settleAll_drop (s : System σ) (c : ClientId) {places : List Place}
    (nodup : places.Nodup) :
    ∃ called, (s.settleAll c (places.map (⟨·, .drop⟩))).completions = s.completions ++ called ∧
      called.map (fun x => (x.packet, x.place)) =
        places.filterMap (fun n => (s.held c)[n]?.join.map (·, n)) ∧
      ∀ x ∈ called, x.client = c ∧ x.report = ⟨.clientShutdown, []⟩ := by
  induction places generalizing s with
  | nil => exact ⟨[], by simp [settleAll], rfl, by simp⟩
  | cons place rest ih =>
    obtain ⟨fresh, nodup⟩ := List.nodup_cons.mp nodup
    obtain ⟨called, completions, dropped, reports⟩ := ih (s.settle c place .drop) nodup
    cases hp : (s.held c)[place]?.join with
    | none =>
      have hs : s.settle c place .drop = s := settle_of_no_loan hp .drop
      rw [hs] at completions dropped
      refine ⟨called, ?_, ?_, reports⟩
      · rw [← completions]
        exact congrArg (fun t => (settleAll t c (rest.map (⟨·, .drop⟩))).completions) hs
      · rw [dropped, List.filterMap_cons_none (by rw [hp]; rfl)]
    | some p =>
      have hfull := Option.join_eq_some_iff.mp hp
      obtain ⟨k, -, -, -, -, hcalls⟩ := settle_of_loan hfull .drop
      refine ⟨s.lastCall c k place p .drop :: called, ?_, ?_, ?_⟩
      · rw [hcalls, List.append_assoc] at completions
        exact completions
      · have hrest : (rest.filterMap fun n =>
              ((s.settle c place .drop).held c)[n]?.join.map (·, n)) =
            rest.filterMap fun n => (s.held c)[n]?.join.map (·, n) := by
          apply List.filterMap_congr
          intro n hn
          have hne : place ≠ n := fun h => fresh (h ▸ hn)
          rw [held_settle hfull, if_pos rfl, List.getElem?_set_ne hne]
        rw [List.filterMap_cons_some (show _ = some (p, place) by rw [hp]; rfl), ← hrest, ← dropped]
        rfl
      · exact List.forall_mem_cons.mpr ⟨⟨rfl, rfl⟩, reports⟩

theorem Drops.congr {u v : System σ} (h : Drops c s t) (calls : u.completions = s.completions)
    (held : u.held c = s.held c) (calls' : v.completions = t.completions)
    (held' : v.held c = t.held c) : Drops c u v where
  completions := by
    rw [calls, calls', System.loans, held]
    exact h.completions
  loans := by
    rw [System.loans, held']
    exact h.loans

theorem abandon_drops (gone : s.Gone c) : Drops c s (s.abandon c) where
  completions := by
    cases hk : s.client? c with
    | none => exact ⟨[], by simp [abandon, hk], by simp [loans, held, hk], by simp⟩
    | some k =>
      have hclosed : k.engine.isNone ∧ k.sharers = 0 := by
        simpa [Gone, engine?, sharers, hk] using gone
      have habandon : s.abandon c =
          s.settleAll c ((List.range k.held.length).map (⟨·, .drop⟩)) := by
        simp only [abandon, hk, if_pos hclosed]
      rw [habandon, loans, loansOf_eq_filterMap, held_of_client hk]
      obtain ⟨called, completions, dropped, reports⟩ :=
        s.settleAll_drop c List.nodup_range
      exact ⟨called, completions, held_of_client hk ▸ dropped, reports⟩
  loans := abandon_cleared s c ((Gone.congr (bare_abandon s c c)).mpr gone)

theorem unshare_drops (closed : s.engine? c = none) (shared : s.sharers c = 1) :
    Drops c s (s.unshare c) := by
  have gone : (s.modify c fun k => { k with sharers := k.sharers - 1 }).Gone c := by
    cases hk : s.client? c <;> simp_all [Gone, engine?, sharers]
  have same : (s.modify c fun k => { k with sharers := k.sharers - 1 }).held c = s.held c :=
    held_modify_same fun _ => rfl
  exact (abandon_drops gone).congr rfl same.symm rfl rfl

-- ---------------------------------------------------------------------------
-- What is not asked any more
-- ---------------------------------------------------------------------------

theorem engine?_of_closed (closed : s.closed? c = some true) : s.engine? c = none := by
  cases hk : s.client? c <;> simp_all [closed?, engine?, Client.isClosed]

theorem release_of_closed [Engine σ] (h : s.engine? c = none) :
    (s.release c).2 = s.withoutReference c := by
  rcases release_cases s c with hs | ⟨engine, engaged, -, -⟩
  · exact hs
  · cases h.symm.trans engaged

/-- The client is as closed as before, and its engine was not asked for anything. -/
structure Undisturbed (c : ClientId) (s t : System σ) : Prop where
  closed : t.closed? c = s.closed? c
  requests : t.requests c = s.requests c

namespace Undisturbed

theorem refl (s : System σ) (c : ClientId) : Undisturbed c s s := ⟨rfl, rfl⟩

theorem trans (first : Undisturbed c s t) (second : Undisturbed c t u) : Undisturbed c s u :=
  ⟨second.closed.trans first.closed, second.requests.trans first.requests⟩

theorem of_bare (bare : (t.client? c).map (·.bare) = (s.client? c).map (·.bare))
    (requests : t.requests c = s.requests c) : Undisturbed c s t :=
  ⟨closed?_congr bare, requests⟩

theorem of_same (client : t.client? c = s.client? c) (requests : t.requests c = s.requests c) :
    Undisturbed c s t :=
  of_bare (congrArg _ client) requests

theorem modify (s : System σ) (d : ClientId) {f : Client σ → Client σ}
    (engine : ∀ k, (f k).engine = k.engine) : Undisturbed c s (s.modify d f) where
  closed := Lasting.modify fun k => by rw [Client.isClosed, Client.isClosed, engine]
  requests := rfl

variable [Engine σ]

theorem submit (closed : s.closed? c = some true) (d : ClientId) (p : PacketId) :
    Undisturbed c s (s.submit d p).2 := by
  by_cases hd : d = c
  · subst hd
    rw [submit_of_closed (engine?_of_closed closed)]
    exact refl s d
  · refine of_same (client?_submit_other hd s p) ?_
    rw [requests_submit, if_neg (fun h => hd h.1), List.append_nil]

theorem deinit (closed : s.closed? c = some true) (d : ClientId) :
    Undisturbed c s (s.deinit d).2 := by
  by_cases hd : d = c
  · subst hd
    rw [deinit_of_closed (engine?_of_closed closed)]
    exact refl s d
  · refine of_same (client?_deinit_other hd s) ?_
    rw [requests_deinit, if_neg (fun h => hd h.1), List.append_nil]

theorem release (closed : s.closed? c = some true) (d : ClientId) :
    Undisturbed c s (s.release d).2 := by
  rcases release_cases s d with hs | ⟨engine, engaged, -, hs⟩
  · rw [hs]
    exact modify s d fun _ => rfl
  · have hd : d ≠ c := by
      rintro rfl
      cases engaged.symm.trans (engine?_of_closed closed)
    refine of_same (client?_release_other hd s) ?_
    rw [hs, requests_tearDown, if_neg hd, List.append_nil]
    rfl

theorem act (closed : s.closed? c = some true) (op : Op σ) : Undisturbed c s (s.act op).2 := by
  cases op with
  | start k =>
    have hne : c ≠ s.clients.length := by
      rintro rfl
      simp [closed?, client?] at closed
    exact of_same ((client?_add s k.bare c).trans (if_neg hne)) rfl
  | fill p packet => exact of_same rfl rfl
  | submit d p => exact submit closed d p
  | deinit d => exact deinit closed d
  | retain d => exact modify s d fun _ => rfl
  | release d => exact release closed d
  | work d engine settlements =>
    simp only [System.act]
    split
    · next engaged =>
      have hd : d ≠ c := by
        rintro rfl
        simp [engine?_of_closed closed] at engaged
      refine of_same ?_ (requests_settleAll _ d settlements)
      exact (client?_settleAll_other hd _ settlements).trans (client?_modify_other hd s _)
    · exact refl s c
  | settle d place ending =>
    exact of_bare (bare_settle s d place ending c) (requests_settle s d place ending)
  | share d => exact modify s d fun _ => rfl
  | unshare d =>
    have fewer : Undisturbed c s (s.modify d fun k => { k with sharers := k.sharers - 1 }) :=
      modify s d fun _ => rfl
    exact fewer.trans (of_bare (bare_abandon _ d c) (requests_abandon _ d))

end Undisturbed

theorem Run.undisturbed [Engine σ] (run : s.Run trace t) (closed : s.closed? c = some true) :
    Undisturbed c s t := by
  induction run with
  | nil => exact .refl s c
  | snoc _ op ih => exact ih.trans (.act (ih.closed.trans closed) op)

end Courier.System
