import Courier.Proofs.Client.Closing
import Courier.Proofs.Engine.Custody

/-!
# Clients whose engine keeps to the contract

As long as such an engine is there it keeps every open loan of its client, and what
its shutdown ends is every loan that is open then.
-/

namespace Courier.System

variable {σ : Type} [Engine σ] {K : Custody σ} {s t : System σ} {c : ClientId} {e e' : σ}
  {settlements : List Settlement}

/-- Every open loan of the client is in the keeping of the engine. -/
structure Covered (K : Custody σ) (s : System σ) (c : ClientId) (e : σ) : Prop where
  valid : K.Valid e
  keeps : ∀ x ∈ s.loans c, K.Keeps e x.2

def Due (s : System σ) (c : ClientId) (left : List Settlement) : Prop :=
  ∀ x ∈ s.loans c, x.2 ∈ left.map (·.place)

omit [Engine σ] in
theorem hold_of_loan (h : x ∈ s.loans c) : ((s.hold c).packet? x.2).isSome := by
  have hfull := mem_loansOf.mp h
  obtain ⟨k, hk⟩ := client_of_held hfull
  rw [held_of_client hk] at hfull
  simp [hold, hk, Client.hold, Hold.packet?, hfull]

omit [Engine σ] in
theorem mem_loans_settleAll (h : x ∈ (s.settleAll c settlements).loans c) :
    x ∈ s.loans c ∧ x.2 ∉ settlements.map (·.place) := by
  obtain ⟨called, hcalled⟩ := settleAll_callsBack s c settlements
  refine ⟨hcalled.loans_subset h, ?_⟩
  intro hmem
  obtain ⟨y, hy, hplace⟩ := List.mem_map.mp hmem
  exact settleAll_place_not_mem hy s c x.1 (hplace ▸ h)

omit [Engine σ] in
theorem mem_loans_settle (h : x ∈ (s.settle c place ending).loans c) :
    x ∈ s.loans c ∧ x.2 ≠ place := by
  have hall : x ∈ (s.settleAll c [⟨place, ending⟩]).loans c := h
  simpa using mem_loans_settleAll hall

theorem Covered.mono (h : s.Covered K c e) (hloans : t.loans c ⊆ s.loans c) : t.Covered K c e :=
  ⟨h.valid, fun x hx => h.keeps x (hloans hx)⟩

theorem Covered.settleAll (h : s.Covered K c e) (moves : K.Moves (s.hold c) e settlements e') :
    (s.settleAll c settlements).Covered K c e' := by
  refine ⟨moves.valid h.valid, ?_⟩
  intro x hx
  obtain ⟨hx, hopen⟩ := mem_loans_settleAll hx
  exact (moves.keeps x.2 (h.keeps x hx) (hold_of_loan hx)).resolve_right hopen

omit [Engine σ] in
theorem loans_modify {f : Client σ → Client σ} (held : ∀ k, (f k).held = k.held) :
    (s.modify c f).loans d = s.loans d := by
  rw [loans, held_modify_same held, loans]

omit [Engine σ] in
theorem hold_modify {f : Client σ → Client σ} (held : ∀ k, (f k).held = k.held) :
    (s.modify c f).hold d = s.hold d := by
  by_cases hd : c = d <;> cases hk : s.client? d <;> simp [hold, Client.hold, hd, hk, held]

omit [Engine σ] in
theorem loans_withoutReference (s : System σ) (c d : ClientId) :
    (s.withoutReference c).loans d = s.loans d :=
  loans_modify fun _ => rfl

omit [Engine σ] in
theorem loans_retain (s : System σ) (c d : ClientId) : (s.retain c).loans d = s.loans d :=
  loans_modify fun _ => rfl

omit [Engine σ] in
theorem loans_withoutEngine (s : System σ) (c d : ClientId) :
    (s.withoutEngine c).loans d = s.loans d :=
  loans_modify fun _ => rfl

theorem Covered.react (h : s.Covered K c e) (moves : K.Moves (s.hold c) e settlements e') :
    (s.react c e' settlements).Covered K c e' := by
  have hloans : (s.modify c fun k => { k with engine := some e' }).loans c = s.loans c :=
    loans_modify fun _ => rfl
  have hhold : (s.modify c fun k => { k with engine := some e' }).hold c = s.hold c :=
    hold_modify fun _ => rfl
  exact (h.mono fun _ hx => hloans ▸ hx).settleAll (hhold ▸ moves)

-- ---------------------------------------------------------------------------
-- A submit
-- ---------------------------------------------------------------------------

omit [Engine σ] in
theorem mem_loans_offer (hk : s.client? c = some k) {r : Reaction σ}
    (h : x ∈ (s.offer c p r).loans c) :
    (x ∈ s.loans c ∨ x = (p, s.nextPlace c)) ∧ x.2 ∉ r.settlements.map (·.place) := by
  obtain ⟨hissued, hopen⟩ := mem_loans_settleAll h
  refine ⟨?_, hopen⟩
  have hsame : (((s.log (.offered c p)).modify c (·.issue p)).modify c
      fun k => { k with engine := some r.engine }).loans c =
      ((s.log (.offered c p)).modify c (·.issue p)).loans c := loans_modify fun _ => rfl
  have hheld : ((s.log (.offered c p)).modify c (·.issue p)).held c = s.held c ++ [some p] :=
    held_issue (s := s.log (.offered c p)) hk p
  rw [hsame, loans, hheld, loansOf_concat] at hissued
  simpa [loans, nextPlace] using hissued

omit [Engine σ] in
theorem mem_loans_withdraw (h : x ∈ (s.modify c (·.withdraw)).loans c) :
    x ∈ s.loans c ∧ x.2 + 1 < (s.held c).length := by
  have hfull := mem_loansOf.mp h
  rw [held_withdraw, List.getElem?_dropLast] at hfull
  split at hfull
  · next hlt => exact ⟨mem_loansOf.mpr hfull, Nat.add_lt_of_lt_sub hlt⟩
  · simp at hfull

/-- A loan that is open after an accepted packet is in the keeping of the engine; after one that
was handed back it is any other loan than the new one. -/
theorem keeps_of_offer (h : s.Covered K c e) (hk : s.client? c = some k)
    (hx : x ∈ (s.offer c p (Engine.submit e (s.hold c) (s.memory p))).loans c) :
    K.Keeps (Engine.submit e (s.hold c) (s.memory p)).engine x.2 ∨
      x.2 = s.nextPlace c ∧
        (Engine.submit e (s.hold c) (s.memory p)).verdict = .handedBack := by
  obtain ⟨hx, hopen⟩ := mem_loans_offer hk hx
  have hplace : K.Keeps e x.2 ∨ x.2 = (s.hold c).length := by
    rcases hx with hx | rfl
    · exact .inl (h.keeps x hx)
    · exact .inr (length_hold s c).symm
  rcases K.submit_keeps e (s.hold c) (s.memory p) x.2 h.valid hplace with hkeeps | hended | hback
  · exact .inl hkeeps
  · exact absurd hended hopen
  · exact .inr ⟨hback.1.trans (length_hold s c), hback.2⟩

/-- A submit to an engine that keeps to the contract comes back with an answer, and the engine
keeps what it has. -/
theorem Covered.submit (h : s.Covered K c e) (he : s.engine? c = some e) (p : PacketId) :
    (s.submit c p).1 ≠ .panicked ∧
      ∃ e', (s.submit c p).2.engine? c = some e' ∧ (s.submit c p).2.Covered K c e' := by
  have hr : s.reaction? c p = some (Engine.submit e (s.hold c) (s.memory p)) := by
    simp [reaction?, he]
  obtain ⟨k, hk, -⟩ := client_of_engine he
  have hvalid := K.submit_valid e (s.hold c) (s.memory p) h.valid
  have hs := submission s c p
  generalize s.submit c p = out at hs
  cases hs with
  | closed gone => simp [he] at gone
  | accepted hr' _ spent =>
    obtain rfl := Option.some.inj (hr.symm.trans hr')
    refine ⟨by simp, _, engine?_offer hk p _, hvalid, fun x hx => ?_⟩
    refine (keeps_of_offer h hk hx).resolve_right ?_
    rintro ⟨hplace, hback⟩
    have hfull := mem_loansOf.mp hx
    have hspent := spent hback
    rw [hplace] at hfull
    simp [hfull] at hspent
  | handedBack hr' _ _ =>
    obtain rfl := Option.some.inj (hr.symm.trans hr')
    refine ⟨by simp, _, (engine?_modify (f := (·.withdraw)) fun _ => rfl).trans
      (engine?_offer hk p _), hvalid, ?_⟩
    intro x hx
    obtain ⟨hx, hlt⟩ := mem_loans_withdraw hx
    rw [length_held_offer hk] at hlt
    refine (keeps_of_offer h hk hx).resolve_right ?_
    rintro ⟨hplace, -⟩
    rw [hplace] at hlt
    exact Nat.lt_irrefl _ hlt
  | panicked hr' hv =>
    obtain rfl := Option.some.inj (hr.symm.trans hr')
    exact absurd hv (K.submit_calm e _ _ h.valid)

-- ---------------------------------------------------------------------------
-- A shutdown
-- ---------------------------------------------------------------------------

theorem Covered.due (h : s.Covered K c e) :
    s.Due c (Engine.shutdown e (s.hold c)).settlements :=
  fun x hx => K.shutdown_settles e (s.hold c) x.2 h.valid (h.keeps x hx) (hold_of_loan hx)

omit [Engine σ] in
theorem Due.settle {first : Settlement} {left : List Settlement} (h : s.Due c (first :: left)) :
    (s.settle c first.place first.ending).Due c left := by
  intro x hx
  obtain ⟨hx, hopen⟩ := mem_loans_settle hx
  have hdue := h x hx
  rw [List.map_cons, List.mem_cons] at hdue
  exact hdue.resolve_left hopen

omit [Engine σ] in
theorem Due.mono {left : List Settlement} (h : s.Due c left) (hloans : t.loans c ⊆ s.loans c) :
    t.Due c left :=
  fun x hx => h x (hloans hx)

omit [Engine σ] in
theorem Due.nil : s.Due c [] ↔ s.loans c = [] := by
  simp [Due, List.eq_nil_iff_forall_not_mem]

omit [Engine σ] in
theorem loans_abandon_subset (s : System σ) (c : ClientId) : (s.abandon c).loans c ⊆ s.loans c := by
  unfold abandon
  split
  · exact List.Subset.refl _
  · split
    · exact fun _ hx => (mem_loans_settleAll hx).1
    · exact List.Subset.refl _

end Courier.System
