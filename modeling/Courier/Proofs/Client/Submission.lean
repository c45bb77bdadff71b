import Courier.Proofs.Client.Loans

/-!
# What a submit can do

`submission` lists the ways in which a submit comes back, with the system that each
leaves behind. A loan is issued exactly if the packet was accepted or the engine
failed with the packet in its hands (`Balanced.submit`).
-/

namespace Courier.System

variable {σ : Type} {s : System σ} {c d : ClientId} {p q : PacketId}

abbrev Answer := Return (Except CallError Unit)

/-- A system whose engine has had a packet in its hands, before the engine says what is to
become of it. -/
def offer (s : System σ) (c : ClientId) (p : PacketId) (r : Reaction σ) : System σ :=
  ((s.log (.offered c p)).modify c (·.issue p)).react c r.engine r.settlements

def engine? (s : System σ) (c : ClientId) : Option σ := (s.client? c).bind (·.engine)

theorem length_hold (s : System σ) (c : ClientId) : (s.hold c).length = (s.held c).length := by
  cases h : s.client? c <;> simp [hold, held, h, Client.hold]

theorem client_of_engine (h : s.engine? c = some engine) :
    ∃ k, s.client? c = some k ∧ k.engine = some engine :=
  Option.bind_eq_some_iff.mp h

section

variable [Engine σ]

def reaction? (s : System σ) (c : ClientId) (p : PacketId) : Option (Reaction σ) :=
  (s.engine? c).map fun engine => Engine.submit engine (s.hold c) (s.memory p)

theorem client_of_reaction {r : Reaction σ} (h : s.reaction? c p = some r) :
    ∃ k, s.client? c = some k := by
  obtain ⟨engine, he, -⟩ := Option.map_eq_some_iff.mp h
  obtain ⟨k, hk, -⟩ := client_of_engine he
  exact ⟨k, hk⟩

def nextPlace (s : System σ) (c : ClientId) : Place := (s.held c).length

inductive Submission (s : System σ) (c : ClientId) (p : PacketId) : Answer × System σ → Prop
  | closed (gone : s.engine? c = none) : Submission s c p (.value (.error .closed), s)
  | accepted {r} (reaction : s.reaction? c p = some r) (calm : r.verdict ≠ .panicked)
      (spent : r.verdict = .handedBack → ((s.offer c p r).held c)[s.nextPlace c]?.join = none) :
      Submission s c p (.value (.ok ()), s.offer c p r)
  | handedBack {r q} (reaction : s.reaction? c p = some r) (verdict : r.verdict = .handedBack)
      (kept : ((s.offer c p r).held c)[s.nextPlace c]? = some (some q)) :
      Submission s c p (.value (.error .engineStopped), (s.offer c p r).modify c (·.withdraw))
  | panicked {r} (reaction : s.reaction? c p = some r) (verdict : r.verdict = .panicked) :
      Submission s c p (.panicked, (s.offer c p r).settle c (s.nextPlace c) .drop)

theorem submit_of_closed (h : s.engine? c = none) (p : PacketId) :
    s.submit c p = (.value (.error .closed), s) := by
  simp only [submit, show (s.client? c).bind (·.engine) = none from h]

theorem submit_of_reaction {r : Reaction σ} (h : s.reaction? c p = some r) :
    s.submit c p =
      match r.verdict with
      | .accepted => (.value (.ok ()), s.offer c p r)
      | .handedBack =>
        if (((s.offer c p r).client? c).bind (·.packet? (s.nextPlace c))).isSome then
          (.value (.error .engineStopped), (s.offer c p r).modify c (·.withdraw))
        else (.value (.ok ()), s.offer c p r)
      | .panicked => (.panicked, (s.offer c p r).settle c (s.nextPlace c) .drop) := by
  obtain ⟨engine, he, rfl⟩ := Option.map_eq_some_iff.mp h
  simp only [submit, show (s.client? c).bind (·.engine) = some engine from he, length_hold]
  rfl

theorem submission (s : System σ) (c : ClientId) (p : PacketId) :
    Submission s c p (s.submit c p) := by
  cases hr : s.reaction? c p with
  | none =>
    have gone : s.engine? c = none := Option.map_eq_none_iff.mp hr
    rw [submit_of_closed gone]
    exact .closed gone
  | some r =>
    rw [submit_of_reaction hr]
    cases hv : r.verdict with
    | accepted => exact .accepted hr (by simp [hv]) (by simp [hv])
    | panicked => exact .panicked hr hv
    | handedBack =>
      simp only
      split
      · next hkept =>
        obtain ⟨q, hq⟩ := Option.isSome_iff_exists.mp hkept
        obtain ⟨k, hk, hq⟩ := Option.bind_eq_some_iff.mp hq
        refine .handedBack (q := q) hr hv ?_
        rw [held_of_client hk]
        exact Option.join_eq_some_iff.mp hq
      · next hspent =>
        refine .accepted hr (by simp [hv]) ?_
        intro _
        have hnone : ((s.offer c p r).client? c).bind (·.packet? (s.nextPlace c)) = none := by
          simpa using hspent
        cases hk : (s.offer c p r).client? c with
        | none => simp [held, hk]
        | some k => simpa [held, hk, Client.packet?] using hnone

theorem submit_panicked_iff :
    (s.submit c p).1 = .panicked ↔ ∃ r, s.reaction? c p = some r ∧ r.verdict = .panicked := by
  have hs := submission s c p
  generalize s.submit c p = out at hs
  constructor
  · intro h
    cases hs with
    | closed => simp at h
    | accepted => simp at h
    | handedBack => simp at h
    | panicked hr hv => exact ⟨_, hr, hv⟩
  · rintro ⟨r, hr, hv⟩
    cases hs with
    | closed gone => simp [reaction?, gone] at hr
    | accepted hr' calm => exact absurd (Option.some.inj (hr'.symm.trans hr) ▸ hv) calm
    | handedBack hr' hv' =>
      rw [Option.some.inj (hr'.symm.trans hr), hv] at hv'
      simp at hv'
    | panicked => rfl

end

theorem length_held_offer (hk : s.client? c = some k) (p : PacketId) (r : Reaction σ) :
    ((s.offer c p r).held c).length = s.nextPlace c + 1 := by
  let issued := ((s.log (.offered c p)).modify c (·.issue p)).modify c
    fun k => { k with engine := some r.engine }
  obtain ⟨called, hcalled⟩ := settleAll_callsBack issued c r.settlements
  refine hcalled.length.trans ?_
  simp [issued, held, hk, Client.issue, nextPlace]

theorem withdraw_callsBack {s₁ t : System σ} (issued : s₁.held c = s.held c ++ [some p])
    (count : s₁.inFlight c = s.inFlight c + 1) (calls : s₁.completions = s.completions)
    (memory : s₁.memory = s.memory) (ended : s₁.CallsBack c called t)
    (kept : (t.held c)[s.nextPlace c]? = some (some q)) :
    s.CallsBack c called (t.modify c (·.withdraw)) := by
  obtain ⟨k, hk⟩ := client_of_held kept
  have hheld := held_withdraw t c
  have hlen : (t.held c).length = s.nextPlace c + 1 := by
    rw [ended.length, issued, List.length_append]
    rfl
  have hplace : ∀ x ∈ called, x.place < s.nextPlace c ∧ (x.packet, x.place) ∈ s.loans c := by
    intro x hx
    have hne : x.place ≠ s.nextPlace c := by
      intro he
      have hnone := ended.emptied x hx
      rw [he, kept] at hnone
      simp at hnone
    have hfull := mem_loansOf.mp (ended.loans x hx).2
    rw [issued, List.getElem?_append] at hfull
    split at hfull
    · next hlt => exact ⟨hlt, mem_loansOf.mpr hfull⟩
    · next hge =>
      have hpast : ([some p] : List (Option PacketId))[x.place - (s.held c).length]? = none := by
        rw [List.getElem?_eq_none_iff, List.length_singleton]
        exact Nat.sub_pos_of_lt (Nat.lt_of_le_of_ne (Nat.le_of_not_lt hge) (Ne.symm hne))
      simp [hpast] at hfull
  refine ⟨?_, ?_, ?_, ?_, ?_, ?_, ?_⟩
  · rw [completions_modify, ended.completions, calls]
  · exact fun x hx => ⟨(ended.loans x hx).1, (hplace x hx).2⟩
  · intro x hx
    have hlt := (hplace x hx).1
    rw [hheld, List.getElem?_dropLast, hlen, Nat.add_sub_cancel, if_pos hlt]
    exact ended.emptied x hx
  · simp [hheld, hlen, nextPlace]
  · intro place
    rw [hheld, List.getElem?_dropLast]
    split
    · next hlt =>
      have hsame := ended.held place
      rwa [issued, List.getElem?_append_left (by simpa [hlen, nextPlace] using hlt)] at hsame
    · next hge =>
      left
      symm
      rw [List.getElem?_eq_none_iff]
      simpa [hlen, nextPlace] using hge
  · intro q hq
    rw [memory_modify, ended.memory q hq, memory]
  · have hcount := ended.inFlight
    have hwithdrawn := inFlight_withdraw hk
    omega

/-- A submit that is refused takes nothing: no call is for its packet, unless the packet was on
loan already, and what is called back for is not counted any more. -/
theorem submit_refused [Engine σ] (h : (s.submit c p).1 = .value (.error error)) :
    ∃ calls, s.CallsBack c calls (s.submit c p).2 := by
  have hs := submission s c p
  generalize s.submit c p = out at hs h
  cases hs with
  | closed => exact ⟨[], .refl s c⟩
  | accepted => simp at h
  | panicked => simp at h
  | @handedBack r q hr _ hq =>
    obtain ⟨k, hk⟩ := client_of_reaction hr
    let s₁ := ((s.log (.offered c p)).modify c (·.issue p)).modify c
      fun k => { k with engine := some r.engine }
    obtain ⟨calls, hcalls⟩ := settleAll_callsBack s₁ c r.settlements
    refine ⟨calls, withdraw_callsBack (p := p) ?_ ?_ ?_ ?_ hcalls hq⟩
    · simp [s₁, held, hk, Client.issue]
    · simp [s₁, inFlight, hk, Client.issue]
    · simp [s₁, completions_log, Entry.completion?]
    · simp [s₁]

-- ---------------------------------------------------------------------------
-- The account after a submit
-- ---------------------------------------------------------------------------

def accepts : Answer → Bool
  | .value (.ok ()) => true
  | _ => false

def issues : Answer → Bool
  | .value (.error _) => false
  | _ => true

theorem accepts_iff {answer : Answer} : accepts answer = true ↔ answer = .value (.ok ()) := by
  match answer with
  | .value (.ok ()) => simp [accepts]
  | .value (.error _) => simp [accepts]
  | .panicked => simp [accepts]

theorem issues_eq_accepts {answer : Answer} (h : answer ≠ .panicked) :
    issues answer = accepts answer := by
  match answer with
  | .value (.ok ()) => rfl
  | .value (.error _) => rfl
  | .panicked => exact absurd rfl h

namespace Balanced

variable {issued : List PacketId}

theorem offer (h : s.Balanced c issued) (hk : s.client? c = some k) (p : PacketId)
    (r : Reaction σ) : (s.offer c p r).Balanced c (issued ++ [p]) :=
  ((h.log rfl).issue (p := p) hk).react c r.engine r.settlements

theorem modify_other (h : s.Balanced d issued) (hd : c ≠ d) (f : Client σ → Client σ) :
    (s.modify c f).Balanced d issued :=
  h.congr (held_modify_other hd f) (inFlight_modify_other hd f) rfl

theorem offer_other (h : s.Balanced d issued) (hd : c ≠ d) (p : PacketId) (r : Reaction σ) :
    (s.offer c p r).Balanced d issued :=
  ((h.log rfl).modify_other hd _).react c r.engine r.settlements

theorem issued_of_held {place : Place} (h : s.Balanced c issued)
    (hp : (s.held c)[place]? = some (some p)) :
    issued[place]? = some p := by
  have hmem : (p, place) ∈ s.ended c ++ s.loans c :=
    List.mem_append_right _ (mem_loansOf.mpr hp)
  simpa [List.mem_zipIdx_iff_getElem?] using h.loans.mem_iff.mp hmem

theorem submit [Engine σ] (h : s.Balanced d issued) (c : ClientId) (p : PacketId) :
    (s.submit c p).2.Balanced d
      (issued ++ if c = d ∧ issues (s.submit c p).1 then [p] else []) := by
  have hs := submission s c p
  generalize s.submit c p = out at hs
  by_cases hd : c = d
  · subst hd
    cases hs with
    | closed => simpa [issues] using h
    | accepted hr =>
      obtain ⟨k, hk⟩ := client_of_reaction hr
      simpa [issues] using h.offer hk p _
    | @handedBack r q hr _ hq =>
      obtain ⟨k, hk⟩ := client_of_reaction hr
      have ho := h.offer hk p r
      rw [nextPlace, h.length_held] at hq
      have hpq : p = q := by simpa using ho.issued_of_held hq
      subst hpq
      simpa [issues] using ho.withdraw hq
    | panicked hr =>
      obtain ⟨k, hk⟩ := client_of_reaction hr
      simpa [issues] using (h.offer hk p _).settle c _ .drop
  · simp only [hd, false_and, ↓reduceIte, List.append_nil]
    cases hs with
    | closed => exact h
    | accepted hr => exact h.offer_other hd p _
    | handedBack hr => exact (h.offer_other hd p _).modify_other hd _
    | panicked hr => exact (h.offer_other hd p _).settle c _ .drop

end Balanced

end Courier.System
