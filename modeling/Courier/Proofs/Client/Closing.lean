import Courier.Proofs.Client.Runs

/-!
# Closed clients

Once the engine of a client is gone, and nobody else can end its loans, no loan is
open any more. So every loan that was issued has been called back for, and what has
been called back for stays so: runs only ever add to the calls back.
-/

namespace Courier.System

variable {σ : Type} {s t : System σ} {c d : ClientId}

def sharers (s : System σ) (c : ClientId) : Nat := (s.client? c).elim 0 (·.sharers)

/-- The engine is gone, and so is everybody else who could end a loan of the client. -/
def Gone (s : System σ) (c : ClientId) : Prop := s.engine? c = none ∧ s.sharers c = 0

def Cleared (s : System σ) (c : ClientId) : Prop := s.Gone c → s.loans c = []

theorem engine?_congr (h : (t.client? c).map (·.bare) = (s.client? c).map (·.bare)) :
    t.engine? c = s.engine? c := by
  have hbare (k : Option (Client σ)) : k.bind (·.engine) = (k.map (·.bare)).bind (·.engine) := by
    cases k <;> rfl
  rw [engine?, engine?, hbare, h, ← hbare]

theorem sharers_congr (h : (t.client? c).map (·.bare) = (s.client? c).map (·.bare)) :
    t.sharers c = s.sharers c := by
  have hbare (k : Option (Client σ)) :
      k.elim 0 (·.sharers) = (k.map (·.bare)).elim 0 (·.sharers) := by
    cases k <;> rfl
  rw [sharers, sharers, hbare, h, ← hbare]

theorem Gone.congr (h : (t.client? c).map (·.bare) = (s.client? c).map (·.bare)) :
    t.Gone c ↔ s.Gone c := by
  rw [Gone, Gone, engine?_congr h, sharers_congr h]

theorem engine?_react (hk : s.client? c = some k) (engine : σ) (settlements : List Settlement) :
    (s.react c engine settlements).engine? c = some engine := by
  unfold react
  rw [engine?_congr (bare_settleAll _ c settlements c)]
  simp [engine?, hk]

theorem engine?_offer (hk : s.client? c = some k) (p : PacketId) (r : Reaction σ) :
    (s.offer c p r).engine? c = some r.engine := by
  have hissued : ((s.log (.offered c p)).modify c (·.issue p)).client? c = some (k.issue p) := by
    simp [hk]
  exact engine?_react hissued r.engine r.settlements

theorem bare_abandon (s : System σ) (c d : ClientId) :
    ((s.abandon c).client? d).map (·.bare) = (s.client? d).map (·.bare) := by
  unfold abandon
  split
  · rfl
  · split
    · exact bare_settleAll s c _ d
    · rfl

theorem engine?_modify {f : Client σ → Client σ} (engine : ∀ k, (f k).engine = k.engine) :
    (s.modify d f).engine? c = s.engine? c := by
  by_cases hd : d = c <;> cases hk : s.client? c <;> simp [engine?, hd, hk, engine]

theorem engine?_submit [Engine σ] {r : Reaction σ} (hr : s.reaction? c p = some r) :
    (s.submit c p).2.engine? c = some r.engine := by
  obtain ⟨k, hk⟩ := client_of_reaction hr
  have hoffer := engine?_offer hk p r
  rw [submit_of_reaction hr]
  cases r.verdict with
  | accepted => exact hoffer
  | panicked => exact (engine?_congr (bare_settle _ c _ _ c)).trans hoffer
  | handedBack =>
    simp only
    split
    · exact (engine?_modify (f := (·.withdraw)) fun _ => rfl).trans hoffer
    · exact hoffer

-- ---------------------------------------------------------------------------
-- Loans that end stay ended
-- ---------------------------------------------------------------------------

theorem CallsBack.loans_subset (h : s.CallsBack c called t) : t.loans c ⊆ s.loans c := by
  rintro ⟨p, n⟩ hloan
  have hfull := mem_loansOf.mp hloan
  rcases h.held n with hsame | hnone
  · exact mem_loansOf.mpr (hsame ▸ hfull)
  · simp [hnone] at hfull

theorem settle_place_not_mem (s : System σ) (c : ClientId) (place : Place) (e : Ending)
    (p : PacketId) : (p, place) ∉ (s.settle c place e).loans c := by
  intro hloan
  have hfull := mem_loansOf.mp hloan
  cases hp : (s.held c)[place]?.join with
  | none =>
    rw [settle_of_no_loan hp] at hfull
    simp [hfull] at hp
  | some q =>
    rw [held_settle (Option.join_eq_some_iff.mp hp), if_pos rfl, List.getElem?_set] at hfull
    split at hfull <;> simp_all

theorem settleAll_place_not_mem (hx : x ∈ settlements) (s : System σ) (c : ClientId)
    (p : PacketId) : (p, x.place) ∉ (s.settleAll c settlements).loans c := by
  induction settlements generalizing s with
  | nil => simp at hx
  | cons y rest ih =>
    rcases List.mem_cons.mp hx with rfl | hx
    · obtain ⟨called, hcalled⟩ := settleAll_callsBack (s.settle c x.place x.ending) c rest
      exact fun hloan => settle_place_not_mem s c x.place x.ending p (hcalled.loans_subset hloan)
    · exact ih hx _

theorem abandon_cleared (s : System σ) (c : ClientId) : (s.abandon c).Cleared c := by
  unfold abandon
  split
  · next hk =>
    intro _
    simp [loans, held, hk]
  · next k hk =>
    split
    · intro _
      rw [List.eq_nil_iff_forall_not_mem]
      rintro ⟨p, n⟩ hloan
      obtain ⟨called, hcalled⟩ :=
        settleAll_callsBack s c ((List.range k.held.length).map (⟨·, .drop⟩))
      have hlt : n < k.held.length := by
        have hfull := mem_loansOf.mp (hcalled.loans_subset hloan)
        rw [held_of_client hk] at hfull
        exact (List.getElem?_eq_some_iff.mp hfull).1
      have hn : (⟨n, .drop⟩ : Settlement) ∈ (List.range k.held.length).map (⟨·, .drop⟩) := by
        simpa using hlt
      exact settleAll_place_not_mem hn s c p hloan
    · next hopen =>
      intro hgone
      simp [Gone, engine?, sharers, hk, Option.isNone_iff_eq_none] at hgone hopen
      exact absurd hgone.2 (hopen hgone.1)

-- ---------------------------------------------------------------------------
-- What is done to one client leaves the others alone
-- ---------------------------------------------------------------------------

theorem client?_settle_other (hd : d ≠ c) (s : System σ) (place : Place) (e : Ending) :
    (s.settle d place e).client? c = s.client? c := by
  cases hp : (s.held d)[place]?.join with
  | none => rw [settle_of_no_loan hp]
  | some p =>
    obtain ⟨k, -, -, hclient, -, -⟩ := settle_of_loan (Option.join_eq_some_iff.mp hp) e
    rw [hclient, if_neg hd]

theorem client?_settleAll_other (hd : d ≠ c) (s : System σ) (settlements : List Settlement) :
    (s.settleAll d settlements).client? c = s.client? c := by
  induction settlements generalizing s with
  | nil => rfl
  | cons x rest ih => exact (ih _).trans (client?_settle_other hd s x.place x.ending)

theorem client?_modify_other (hd : d ≠ c) (s : System σ) (f : Client σ → Client σ) :
    (s.modify d f).client? c = s.client? c := by
  rw [client?_modify, if_neg hd]

theorem client?_abandon_other (hd : d ≠ c) (s : System σ) :
    (s.abandon d).client? c = s.client? c := by
  unfold abandon
  split
  · rfl
  · split
    · exact client?_settleAll_other hd s _
    · rfl

theorem client?_offer_other (hd : d ≠ c) (s : System σ) (p : PacketId) (r : Reaction σ) :
    (s.offer d p r).client? c = s.client? c := by
  unfold offer react
  rw [client?_settleAll_other hd, client?_modify_other hd, client?_modify_other hd, client?_log]

section

variable [Engine σ]

theorem client?_tearDown_other (hd : d ≠ c) (s : System σ) (engine : σ) :
    (s.tearDown d engine).2.client? c = s.client? c :=
  (client?_abandon_other hd _).trans (client?_settleAll_other hd (s.log (.released d)) _)

theorem client?_submit_other (hd : d ≠ c) (s : System σ) (p : PacketId) :
    (s.submit d p).2.client? c = s.client? c := by
  have hs := submission s d p
  generalize s.submit d p = out at hs
  cases hs with
  | closed => rfl
  | accepted => exact client?_offer_other hd s p _
  | handedBack => exact (client?_modify_other hd _ _).trans (client?_offer_other hd s p _)
  | panicked => exact (client?_settle_other hd _ _ _).trans (client?_offer_other hd s p _)

-- ---------------------------------------------------------------------------
-- Closing a client
-- ---------------------------------------------------------------------------

omit [Engine σ] in
theorem modify_eq_self {f : Client σ → Client σ} (h : ∀ k, s.client? c = some k → f k = k) :
    s.modify c f = s := by
  have hclients : s.clients.modify c f = s.clients := by
    refine List.ext_getElem? ?_
    intro n
    rw [List.getElem?_modify]
    split
    · next hc =>
      subst hc
      cases hk : s.clients[c]? with
      | none => rfl
      | some k => exact congrArg some (h k hk)
    · rw [id_map']
  rw [modify, hclients]

omit [Engine σ] in
theorem take_of_closed (h : s.engine? c = none) : s.take c = (none, s) := by
  have hs : s.modify c (fun k => { k with engine := none }) = s := by
    refine modify_eq_self ?_
    intro k hk
    have he : k.engine = none := by simpa [engine?, hk] using h
    rw [← he]
  rw [take, hs]
  exact Prod.ext h rfl

abbrev withoutEngine (s : System σ) (c : ClientId) : System σ :=
  s.modify c fun k => { k with engine := none }

abbrev withoutReference (s : System σ) (c : ClientId) : System σ :=
  s.modify c fun k => { k with references := k.references - 1 }

omit [Engine σ] in
theorem engine?_withoutReference (s : System σ) (c d : ClientId) :
    (s.withoutReference c).engine? d = s.engine? d :=
  engine?_modify fun _ => rfl

omit [Engine σ] in
theorem take_of_open (h : s.engine? c = some engine) :
    s.take c = (some engine, s.withoutEngine c) :=
  Prod.ext h rfl

theorem deinit_of_closed (h : s.engine? c = none) :
    s.deinit c = (.value (.error .closed), s) := by
  rw [deinit, take_of_closed h]

theorem deinit_of_open (h : s.engine? c = some engine) :
    s.deinit c =
      (if ((s.withoutEngine c).tearDown c engine).1 then .panicked else .value (.ok ()),
        ((s.withoutEngine c).tearDown c engine).2) := by
  rw [deinit, take_of_open h]

/-- The ways in which a reference can be given up: others are left, or the client goes. -/
theorem release_cases (s : System σ) (c : ClientId) :
    (s.release c).2 = s.withoutReference c ∨
      ∃ engine, s.engine? c = some engine ∧
        ((s.withoutReference c).client? c).any (·.references == 0) ∧
        (s.release c).2 = (((s.withoutReference c).withoutEngine c).tearDown c engine).2 := by
  have hsame := engine?_withoutReference s c c
  unfold release
  simp only
  split
  · next hlast =>
    cases he : s.engine? c with
    | none => exact .inl (by rw [take_of_closed (hsame.trans he)])
    | some engine => exact .inr ⟨engine, rfl, hlast, by rw [take_of_open (hsame.trans he)]⟩
  · exact .inl rfl

theorem client?_deinit_other (hd : d ≠ c) (s : System σ) :
    (s.deinit d).2.client? c = s.client? c := by
  cases he : s.engine? d with
  | none => rw [deinit_of_closed he]
  | some engine =>
    rw [deinit_of_open he]
    exact (client?_tearDown_other hd _ engine).trans (client?_modify_other hd s _)

theorem client?_release_other (hd : d ≠ c) (s : System σ) :
    (s.release d).2.client? c = s.client? c := by
  rcases release_cases s d with h | ⟨engine, -, -, h⟩ <;> rw [h]
  · exact client?_modify_other hd s _
  · rw [client?_tearDown_other hd, client?_modify_other hd, client?_modify_other hd]

end

-- ---------------------------------------------------------------------------
-- A client that is gone has no loans
-- ---------------------------------------------------------------------------

namespace Cleared

theorem congr (h : s.Cleared c) (same : t.client? c = s.client? c) : t.Cleared c := by
  intro hgone
  have hloans : t.loans c = s.loans c := by rw [loans, held, same, ← held, ← loans]
  exact hloans.trans (h ((Gone.congr (by rw [same])).mp hgone))

theorem settle (h : s.Cleared c) (place : Place) (e : Ending) : (s.settle c place e).Cleared c := by
  intro hgone
  obtain ⟨called, hcalled⟩ := settle_callsBack s c place e
  have hnil := h ((Gone.congr (bare_settle s c place e c)).mp hgone)
  exact List.subset_nil.mp (hnil ▸ hcalled.loans_subset)

theorem of_engine (h : t.engine? c = some engine) : t.Cleared c := by
  intro hgone
  simp [hgone.1] at h

theorem of_nothing_held (h : ∀ k, t.client? c = some k → k.held = []) : t.Cleared c := by
  intro _
  cases hk : t.client? c with
  | none => simp [loans, held, hk]
  | some k => simp [loans, held, hk, h k hk]

theorem count (h : s.Cleared c) (f : Client σ → Nat) :
    (s.modify c fun k => { k with references := f k }).Cleared c := by
  intro hgone
  cases hk : s.client? c with
  | none => simp [loans, held, hk]
  | some k =>
    have hs : s.Gone c := by simpa [Gone, engine?, sharers, hk] using hgone
    simpa [loans, held, hk] using h hs

theorem release [Engine σ] (h : s.Cleared c) : (s.release c).2.Cleared c := by
  rcases release_cases s c with hs | ⟨engine, -, -, hs⟩ <;> rw [hs]
  · exact h.count _
  · exact abandon_cleared _ c

theorem submit [Engine σ] (h : s.Cleared c) (p : PacketId) : (s.submit c p).2.Cleared c := by
  have hs := submission s c p
  generalize s.submit c p = out at hs
  cases hs with
  | closed => exact h
  | accepted hr =>
    obtain ⟨k, hk⟩ := client_of_reaction hr
    exact of_engine (engine?_offer hk p _)
  | @handedBack r q hr =>
    obtain ⟨k, hk⟩ := client_of_reaction hr
    exact of_engine ((engine?_modify (f := (·.withdraw)) fun _ => rfl).trans (engine?_offer hk p r))
  | panicked hr =>
    obtain ⟨k, hk⟩ := client_of_reaction hr
    exact (of_engine (engine?_offer hk p _)).settle _ _

theorem deinit [Engine σ] (h : s.Cleared c) : (s.deinit c).2.Cleared c := by
  cases he : s.engine? c with
  | none => rwa [deinit_of_closed he]
  | some engine =>
    rw [deinit_of_open he]
    exact abandon_cleared _ c

theorem share (s : System σ) (c : ClientId) : (s.share c).Cleared c := by
  intro hgone
  cases hk : s.client? c with
  | none => simp [loans, held, System.share, hk]
  | some k => simp [Gone, sharers, System.share, hk] at hgone

theorem react (s : System σ) (c : ClientId) (engine : σ) (settlements : List Settlement) :
    (s.react c engine settlements).Cleared c := by
  cases hk : s.client? c with
  | none =>
    refine of_nothing_held ?_
    intro k hk'
    have hbare := bare_settleAll (s.modify c fun k => { k with engine := some engine }) c
      settlements c
    rw [System.react] at hk'
    rw [hk'] at hbare
    simp [hk] at hbare
  | some k => exact of_engine (engine?_react hk engine settlements)

theorem add (h : s.Cleared c) (k : Client σ) : (s.add k.bare).2.Cleared c := by
  by_cases hc : c = s.clients.length
  · refine of_nothing_held ?_
    intro k' hk'
    rw [client?_add, if_pos hc, Option.some.injEq] at hk'
    exact hk' ▸ rfl
  · exact h.congr (by rw [client?_add, if_neg hc])

theorem target (h : s.Cleared c) (self : d = c → t.Cleared c)
    (other : d ≠ c → t.client? c = s.client? c) : t.Cleared c :=
  if hd : d = c then self hd else h.congr (other hd)

theorem act [Engine σ] (h : s.Cleared c) (op : Op σ) : (s.act op).2.Cleared c := by
  cases op with
  | start k => exact h.add k
  | fill p packet => exact h.congr rfl
  | submit d p => exact h.target (· ▸ h.submit p) (client?_submit_other · s p)
  | deinit d => exact h.target (· ▸ h.deinit) (client?_deinit_other · s)
  | retain d => exact h.target (· ▸ h.count _) (client?_modify_other · s _)
  | release d => exact h.target (· ▸ h.release) (client?_release_other · s)
  | work d engine settlements =>
    simp only [System.act]
    split
    · exact h.target (· ▸ react s d engine settlements) fun hd =>
        (client?_settleAll_other hd _ settlements).trans (client?_modify_other hd s _)
    · exact h
  | settle d place ending =>
    exact h.target (· ▸ h.settle place ending) (client?_settle_other · s place ending)
  | share d => exact h.target (· ▸ share s d) (client?_modify_other · s _)
  | unshare d =>
    exact h.target (· ▸ abandon_cleared _ d) fun hd =>
      (client?_abandon_other hd _).trans (client?_modify_other hd s _)

end Cleared

/-- Once a client is gone all its loans have been called back for. -/
theorem Run.cleared [Engine σ] {m : Memory} (run : Run { memory := m } trace t) (c : ClientId) :
    t.Cleared c := by
  induction run with
  | nil => exact fun _ => rfl
  | snoc _ op ih => exact ih.act op

-- ---------------------------------------------------------------------------
-- What was called back stays called back
-- ---------------------------------------------------------------------------

theorem completions_settleAll (s : System σ) (c : ClientId) (settlements : List Settlement) :
    s.completions <+: (s.settleAll c settlements).completions := by
  obtain ⟨called, hcalled⟩ := settleAll_callsBack s c settlements
  exact ⟨called, hcalled.completions.symm⟩

theorem completions_abandon (s : System σ) (c : ClientId) :
    s.completions <+: (s.abandon c).completions := by
  unfold abandon
  split
  · exact List.prefix_rfl
  · split
    · exact completions_settleAll s c _
    · exact List.prefix_rfl

theorem completions_offer (s : System σ) (c : ClientId) (p : PacketId) (r : Reaction σ) :
    s.completions <+: (s.offer c p r).completions := by
  have hlog : s.completions = (s.log (.offered c p)).completions := by
    simp [completions_log, Entry.completion?]
  rw [hlog]
  let issued := ((s.log (.offered c p)).modify c (·.issue p)).modify c
    fun k => { k with engine := some r.engine }
  exact completions_settleAll issued c r.settlements

section

variable [Engine σ]

theorem completions_tearDown (s : System σ) (c : ClientId) (engine : σ) :
    s.completions <+: (s.tearDown c engine).2.completions := by
  have hlog : s.completions = (s.log (.released c)).completions := by
    simp [completions_log, Entry.completion?]
  rw [hlog]
  exact (completions_settleAll _ c _).trans (completions_abandon _ c)

theorem completions_submit (s : System σ) (c : ClientId) (p : PacketId) :
    s.completions <+: (s.submit c p).2.completions := by
  have hs := submission s c p
  generalize s.submit c p = out at hs
  cases hs with
  | closed => exact List.prefix_rfl
  | accepted => exact completions_offer s c p _
  | handedBack => exact completions_offer s c p _
  | panicked => exact (completions_offer s c p _).trans (completions_settleAll _ c [⟨_, .drop⟩])

theorem completions_act (s : System σ) (op : Op σ) :
    s.completions <+: (s.act op).2.completions := by
  cases op with
  | start k => exact List.prefix_rfl
  | fill p packet => exact List.prefix_rfl
  | submit c p => exact completions_submit s c p
  | deinit c =>
    cases he : s.engine? c with
    | none => simp [act, deinit_of_closed he]
    | some engine =>
      rw [act, deinit_of_open he]
      exact completions_tearDown (s.withoutEngine c) c engine
  | retain c => exact List.prefix_rfl
  | release c =>
    rw [act]
    rcases release_cases s c with h | ⟨engine, -, -, h⟩ <;> rw [h]
    · exact List.prefix_rfl
    · exact completions_tearDown ((s.withoutReference c).withoutEngine c) c engine
  | work c engine settlements =>
    simp only [act]
    split
    · exact completions_settleAll (s.modify c _) c settlements
    · exact List.prefix_rfl
  | settle c place ending => exact completions_settleAll s c [⟨place, ending⟩]
  | share c => exact List.prefix_rfl
  | unshare c => exact completions_abandon (s.modify c _) c

theorem Run.completions (run : s.Run trace t) : s.completions <+: t.completions := by
  induction run with
  | nil => exact List.prefix_rfl
  | @snoc _ t _ op ih => exact ih.trans (completions_act t op)

theorem Run.ended (run : s.Run trace t) (c : ClientId) : s.ended c <+: t.ended c :=
  (run.completions.filter _).map _

end

end Courier.System
