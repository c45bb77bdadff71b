import Courier.Proofs.Client.Closing

/-!
# References

Nothing but taking and giving up references changes who may still call a client. And
this makes no difference to what a submit or a deinit does, so a reference taken before
it can as well be taken after it. Giving up the last one closes the client as a deinit
does (`release_of_last`), so it is all the same whether a deinit came first.
-/

namespace Courier.System

variable {σ α : Type} {s t : System σ} {c d : ClientId} {f : Client σ → α}

-- ---------------------------------------------------------------------------
-- What a submit leaves alone
-- ---------------------------------------------------------------------------

/-- What of a client is no matter of its loans or its engine. -/
structure Lasting (f : Client σ → α) : Prop where
  bare : ∀ k, f k.bare = f k
  engine : ∀ k engine, f { k with engine } = f k

namespace Lasting

theorem congr (h : Lasting f) (same : (t.client? c).map (·.bare) = (s.client? c).map (·.bare)) :
    (t.client? c).map f = (s.client? c).map f := by
  have hbare (u : System σ) : (u.client? c).map f = ((u.client? c).map (·.bare)).map f := by
    rw [Option.map_map, show f ∘ (·.bare) = f from funext h.bare]
  rw [hbare, same, ← hbare]

theorem modify {g : Client σ → Client σ} (keeps : ∀ k, f (g k) = f k) :
    ((s.modify d g).client? c).map f = (s.client? c).map f := by
  by_cases hd : d = c <;> cases hk : s.client? c <;> simp [hd, hk, keeps]

theorem withdraw (h : Lasting f) (k : Client σ) : f k.withdraw = f k :=
  (h.bare _).symm.trans (h.bare k)

theorem settleAll (h : Lasting f) (s : System σ) (d : ClientId) (settlements : List Settlement) :
    ((s.settleAll d settlements).client? c).map f = (s.client? c).map f :=
  h.congr (bare_settleAll s d settlements c)

theorem react (h : Lasting f) (s : System σ) (d : ClientId) (engine : σ)
    (settlements : List Settlement) :
    ((s.react d engine settlements).client? c).map f = (s.client? c).map f :=
  (h.settleAll _ d settlements).trans (modify fun k => h.engine k (some engine))

theorem offer (h : Lasting f) (s : System σ) (d : ClientId) (p : PacketId) (r : Reaction σ) :
    ((s.offer d p r).client? c).map f = (s.client? c).map f :=
  (h.react _ d r.engine r.settlements).trans <|
    modify fun k => (h.bare (k.issue p)).symm.trans (h.bare k)

theorem submit [Engine σ] (h : Lasting f) (s : System σ) (d : ClientId) (p : PacketId) :
    ((s.submit d p).2.client? c).map f = (s.client? c).map f := by
  have hs := submission s d p
  generalize s.submit d p = out at hs
  cases hs with
  | closed => rfl
  | accepted => exact h.offer s d p _
  | handedBack => exact (modify h.withdraw).trans (h.offer s d p _)
  | panicked => exact (h.settleAll _ d [⟨_, .drop⟩]).trans (h.offer s d p _)

end Lasting

theorem lasting_context : Lasting fun k : Client σ => k.context := ⟨fun _ => rfl, fun _ _ => rfl⟩

-- ---------------------------------------------------------------------------
-- The parties to a client
-- ---------------------------------------------------------------------------

/-- How many may still call a client, and how many besides its engine may end its loans. -/
def parties (s : System σ) (c : ClientId) : Option (Nat × Nat) :=
  (s.client? c).map fun k => (k.references, k.sharers)

theorem lasting_parties : Lasting fun k : Client σ => (k.references, k.sharers) :=
  ⟨fun _ => rfl, fun _ _ => rfl⟩

theorem parties_congr (h : (t.client? c).map (·.bare) = (s.client? c).map (·.bare)) :
    t.parties c = s.parties c :=
  lasting_parties.congr h

theorem parties_modify {f : Client σ → Client σ} (references : ∀ k, (f k).references = k.references)
    (sharers : ∀ k, (f k).sharers = k.sharers) : (s.modify d f).parties c = s.parties c :=
  Lasting.modify fun k => Prod.ext (references k) (sharers k)

theorem parties_react (s : System σ) (d : ClientId) (engine : σ) (settlements : List Settlement) :
    (s.react d engine settlements).parties c = s.parties c :=
  lasting_parties.react s d engine settlements

theorem parties_submit [Engine σ] (s : System σ) (d : ClientId) (p : PacketId) :
    (s.submit d p).2.parties c = s.parties c :=
  lasting_parties.submit s d p

theorem isAlive_submit [Engine σ] (alive : ∀ k, s.client? c = some k → k.isAlive)
    (p : PacketId) : ∀ k, (s.submit c p).2.client? c = some k → k.isAlive := by
  intro k hk
  have hparties := parties_submit (c := c) s c p
  cases hk' : s.client? c with
  | none => simp [parties, hk, hk'] at hparties
  | some k' =>
    simp only [parties, hk, hk', Option.map_some, Option.some.injEq, Prod.mk.injEq] at hparties
    have halive := alive k' hk'
    simpa [Client.isAlive, hparties.1] using halive

theorem release_of_shared [Engine σ]
    (h : ∀ engine, s.engine? c = some engine → ∃ n m, s.parties c = some (n + 2, m)) :
    (s.release c).2 = s.withoutReference c := by
  rcases release_cases s c with hs | ⟨engine, hengine, hlast, -⟩
  · exact hs
  · obtain ⟨n, m, hn⟩ := h engine hengine
    obtain ⟨k, hk, -⟩ := client_of_engine hengine
    simp only [parties, hk, Option.map_some, Option.some.injEq, Prod.mk.injEq] at hn
    simp [hk, hn.1] at hlast

theorem parties_retain (s : System σ) (c : ClientId) :
    (s.retain c).parties c = (s.parties c).map fun (n, m) => (n + 1, m) := by
  cases hk : s.client? c <;> simp [parties, retain, hk]

theorem parties_withoutReference (s : System σ) (c : ClientId) :
    (s.withoutReference c).parties c =
      (s.parties c).map fun (n, m) => (n - 1, m) := by
  cases hk : s.client? c <;> simp [parties, hk]

-- ---------------------------------------------------------------------------
-- The count makes no difference
-- ---------------------------------------------------------------------------

abbrev recount (s : System σ) (c : ClientId) (f : Nat → Nat) : System σ :=
  s.modify c fun k => { k with references := f k.references }

theorem modify_recount (g : Client σ → Client σ) (f : Nat → Nat)
    (h : ∀ k, g { k with references := f k.references } =
      { g k with references := f (g k).references }) (s : System σ) (c : ClientId) :
    (s.recount c f).modify c g = (s.modify c g).recount c f := by
  have hcomp : (g ∘ fun k => { k with references := f k.references }) =
      (fun k => { k with references := f k.references }) ∘ g := funext h
  simp only [recount, modify, List.modify_modify_eq, hcomp]

theorem client?_recount (s : System σ) (c : ClientId) (f : Nat → Nat) :
    (s.recount c f).client? c =
      (s.client? c).map fun k => { k with references := f k.references } := by
  simp

theorem hold_recount (s : System σ) (c : ClientId) (f : Nat → Nat) :
    (s.recount c f).hold c = s.hold c := by
  cases hk : s.client? c <;> simp [hold, hk, Client.hold]

theorem callBack_recount (s : System σ) (c : ClientId) (f : Nat → Nat) (place : Place)
    (p : PacketId) (r : Report) :
    (s.recount c f).callBack c place p r = (s.callBack c place p r).recount c f := by
  cases hk : s.client? c with
  | none => simp [callBack, hk]
  | some k =>
    have hrecounted := client?_recount s c f
    rw [hk, Option.map_some] at hrecounted
    rw [callBack_of_client hrecounted, callBack_of_client hk]
    rfl

theorem settle_recount (s : System σ) (c : ClientId) (f : Nat → Nat) (place : Place) (e : Ending) :
    (s.recount c f).settle c place e = (s.settle c place e).recount c f := by
  have hplace : ((s.recount c f).client? c).bind (·.packet? place) =
      (s.client? c).bind (·.packet? place) := by
    rw [client?_recount]
    cases s.client? c <;> rfl
  unfold settle
  rw [hplace]
  split
  · rfl
  · next p hp =>
    rw [modify_recount (·.vacate place) f (fun _ => rfl)]
    simp only [deliver]
    rw [← callBack_recount, ← modify_recount (·.countDown) f fun _ => rfl]
    rfl

theorem settleAll_recount (s : System σ) (c : ClientId) (f : Nat → Nat)
    (settlements : List Settlement) :
    (s.recount c f).settleAll c settlements = (s.settleAll c settlements).recount c f := by
  induction settlements generalizing s with
  | nil => rfl
  | cons x rest ih =>
    simp only [settleAll, List.foldl_cons] at ih ⊢
    rw [settle_recount, ih]

theorem abandon_recount (s : System σ) (c : ClientId) (f : Nat → Nat) :
    (s.recount c f).abandon c = (s.abandon c).recount c f := by
  cases hk : s.client? c with
  | none => simp [abandon, hk]
  | some k =>
    have hrecounted := client?_recount s c f
    rw [hk, Option.map_some] at hrecounted
    unfold abandon
    rw [hrecounted, hk]
    simp only
    split
    · exact settleAll_recount s c f _
    · rfl

theorem tearDown_recount [Engine σ] (s : System σ) (c : ClientId) (f : Nat → Nat) (engine : σ) :
    (s.recount c f).tearDown c engine =
      ((s.tearDown c engine).1, (s.tearDown c engine).2.recount c f) := by
  unfold tearDown
  rw [hold_recount, ← abandon_recount, ← settleAll_recount]
  rfl

theorem offer_recount (s : System σ) (c : ClientId) (f : Nat → Nat) (p : PacketId)
    (r : Reaction σ) : (s.recount c f).offer c p r = (s.offer c p r).recount c f := by
  unfold offer react
  rw [← settleAll_recount,
    ← modify_recount (fun k => { k with engine := some r.engine }) f fun _ => rfl,
    ← modify_recount (·.issue p) f fun _ => rfl]
  rfl

theorem submit_recount [Engine σ] (s : System σ) (c : ClientId) (f : Nat → Nat) (p : PacketId) :
    (s.recount c f).submit c p = ((s.submit c p).1, (s.submit c p).2.recount c f) := by
  have hengine : (s.recount c f).engine? c = s.engine? c := engine?_modify fun _ => rfl
  have hnext : (s.recount c f).nextPlace c = s.nextPlace c := by
    simp only [nextPlace, ← length_hold, hold_recount]
  have hreaction : (s.recount c f).reaction? c p = s.reaction? c p := by
    simp only [reaction?, hengine, hold_recount]
    rfl
  cases hr : s.reaction? c p with
  | none =>
    have gone : s.engine? c = none := Option.map_eq_none_iff.mp hr
    rw [submit_of_closed (hengine.trans gone), submit_of_closed gone]
  | some r =>
    have hkept (t : System σ) : ((t.recount c f).client? c).bind (·.packet? (s.nextPlace c)) =
        (t.client? c).bind (·.packet? (s.nextPlace c)) := by
      rw [client?_recount]
      cases t.client? c <;> rfl
    rw [submit_of_reaction (hreaction.trans hr), submit_of_reaction hr, hnext]
    simp only [offer_recount, hkept]
    cases r.verdict with
    | accepted => rfl
    | handedBack =>
      simp only
      split
      · rw [modify_recount (·.withdraw) f fun _ => rfl]
      · rfl
    | panicked => simp only [settle_recount]

theorem submit_retain [Engine σ] (s : System σ) (c : ClientId) (p : PacketId) :
    (s.retain c).submit c p = ((s.submit c p).1, (s.submit c p).2.retain c) :=
  submit_recount s c (· + 1) p

theorem release_retain [Engine σ] (alive : ∀ k, s.client? c = some k → k.isAlive) :
    (s.retain c).release c = (false, s) := by
  have hback : (s.retain c).withoutReference c = s := by
    have hcomp : (s.retain c).withoutReference c = s.modify c id := by
      simp only [retain, withoutReference, modify, List.modify_modify_eq]
      rfl
    exact hcomp.trans (modify_eq_self fun _ _ => rfl)
  have hkept : (s.client? c).any (·.references == 0) = false := by
    cases hk : s.client? c with
    | none => rfl
    | some k => simpa [Client.isAlive, Nat.pos_iff_ne_zero] using alive k hk
  unfold release
  simp [hback, hkept]

-- ---------------------------------------------------------------------------
-- The last reference
-- ---------------------------------------------------------------------------

def references (s : System σ) (c : ClientId) : Nat := (s.client? c).elim 0 (·.references)

theorem references_of_client (h : s.client? c = some k) : s.references c = k.references := by
  simp [references, h]

theorem client_of_references (h : s.references c ≠ 0) : ∃ k, s.client? c = some k := by
  refine Option.ne_none_iff_exists'.mp fun absent => h ?_
  rw [references, absent, Option.elim_none]

theorem references_congr (h : (t.client? c).map (·.references) = (s.client? c).map (·.references)) :
    t.references c = s.references c := by
  have hmap (u : System σ) : u.references c = ((u.client? c).map (·.references)).getD 0 := by
    cases hk : u.client? c <;> simp [references, hk]
  rw [hmap, h, ← hmap]

theorem lasting_references : Lasting fun k : Client σ => k.references :=
  ⟨fun _ => rfl, fun _ _ => rfl⟩

theorem references_recount (h : s.references d ≠ 0) (f : Nat → Nat) :
    (s.recount d f).references c = if d = c then f (s.references c) else s.references c := by
  obtain ⟨k, hk⟩ := client_of_references h
  by_cases hd : d = c
  · subst hd
    simp [references, hk]
  · simp [references, hd]

section

variable [Engine σ]

theorem deinit_recount (s : System σ) (c : ClientId) (f : Nat → Nat) :
    (s.recount c f).deinit c = ((s.deinit c).1, (s.deinit c).2.recount c f) := by
  have hengine : (s.recount c f).engine? c = s.engine? c := engine?_modify fun _ => rfl
  cases he : s.engine? c with
  | none => rw [deinit_of_closed (hengine.trans he), deinit_of_closed he]
  | some engine =>
    have taken : (s.recount c f).withoutEngine c = (s.withoutEngine c).recount c f :=
      modify_recount _ f (fun _ => rfl) s c
    rw [deinit_of_open (hengine.trans he), deinit_of_open he, taken, tearDown_recount]

theorem bare_tearDown (s : System σ) (c : ClientId) (engine : σ) (d : ClientId) :
    ((s.tearDown c engine).2.client? d).map (·.bare) = (s.client? d).map (·.bare) :=
  (bare_abandon _ c d).trans (bare_settleAll (s.log (.released c)) c _ d)

omit [Engine σ] in
theorem engine?_withoutEngine (s : System σ) (c : ClientId) :
    (s.withoutEngine c).engine? c = none := by
  cases hk : s.client? c <;> simp [engine?, hk]

theorem engine?_deinit (s : System σ) (c : ClientId) : (s.deinit c).2.engine? c = none := by
  cases he : s.engine? c with
  | none => rwa [deinit_of_closed he]
  | some engine =>
    rw [deinit_of_open he]
    exact (engine?_congr (bare_tearDown _ c engine c)).trans (engine?_withoutEngine s c)

theorem references_deinit (s : System σ) (d : ClientId) :
    (s.deinit d).2.references c = s.references c := by
  cases he : s.engine? d with
  | none => rw [deinit_of_closed he]
  | some engine =>
    rw [deinit_of_open he]
    refine references_congr ((lasting_references.congr (bare_tearDown _ d engine c)).trans ?_)
    exact Lasting.modify fun _ => rfl

theorem release_of_more (more : 1 < s.references c) : (s.release c).2 = s.recount c (· - 1) := by
  refine release_of_shared fun engine hengine => ?_
  obtain ⟨k, hk, -⟩ := client_of_engine hengine
  rw [references_of_client hk] at more
  refine ⟨k.references - 2, k.sharers, ?_⟩
  simp only [parties, hk, Option.map_some, Option.some.injEq, Prod.mk.injEq, and_true]
  omega

theorem release_of_last (last : s.references c = 1) :
    (s.release c).2 = (s.deinit c).2.recount c (· - 1) := by
  obtain ⟨k, hk⟩ := client_of_references (last ▸ Nat.one_ne_zero)
  have hzero : ((s.withoutReference c).client? c).any (·.references == 0) = true := by
    rw [references_of_client hk] at last
    simp [hk, last]
  have hdeinit := congrArg (·.2) (deinit_recount s c (· - 1))
  refine Eq.trans ?_ hdeinit
  unfold release deinit
  simp only [hzero, if_true]
  split <;> simp_all

/-- To everybody but its caller it makes no difference whether a client is closed before it is
given up. -/
theorem release_deinit (last : s.references c = 1) :
    ((s.deinit c).2.release c).2 = (s.release c).2 := by
  have still : (s.deinit c).2.references c = 1 := (references_deinit s c).trans last
  rw [release_of_last still, release_of_last last, deinit_of_closed (engine?_deinit s c)]

end

end Courier.System
