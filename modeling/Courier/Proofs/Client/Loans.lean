import Courier.Client.System
import Courier.Proofs.Lists

/-!
# Loans

A packet in a place is a loan: the host has lent the packet and has not got it
back. `Balanced` is the account of one client. Every loan that was ever issued is
either still held or ended in exactly one call back, never both, and the count in
flight is the count of the loans held. Whatever happens to a system keeps every
account; only an issue adds a loan to it, and only a withdrawal takes one out.
-/

namespace Courier

abbrev Loan := PacketId × Place

def loansOf (held : List (Option PacketId)) : List Loan :=
  held.zipIdx.filterMap fun (p, place) => p.map (·, place)

@[simp] theorem loansOf_nil : loansOf [] = [] := rfl

theorem loansOf_concat (held : List (Option PacketId)) (p : Option PacketId) :
    loansOf (held ++ [p]) = loansOf held ++ (p.map (·, held.length)).toList := by
  cases p <;> simp [loansOf, List.zipIdx_append]

theorem mem_loansOf : (p, place) ∈ loansOf held ↔ held[place]? = some (some p) := by
  simp only [loansOf, List.mem_filterMap, List.mem_zipIdx_iff_getElem?, Prod.exists]
  constructor
  · rintro ⟨q, n, hq, h⟩
    cases q with
    | none => simp at h
    | some q =>
      simp only [Option.map_some, Option.some.injEq, Prod.mk.injEq] at h
      obtain ⟨rfl, rfl⟩ := h
      exact hq
  · intro h
    exact ⟨_, _, h, rfl⟩

theorem loansOf_perm_set (h : held[place]? = some (some p)) :
    (loansOf held).Perm ((p, place) :: loansOf (held.set place none)) := by
  have hplace : held.zipIdx[place]? = some (some p, place) := by simp [List.getElem?_zipIdx, h]
  have hperm := perm_filterMap_set (fun (p, place) => p.map (·, place)) hplace (none, place)
  rw [loansOf, loansOf, zipIdx_set, Nat.zero_add]
  simpa using hperm.symm

def Client.bare {σ : Type} (k : Client σ) : Client σ := { k with inFlight := 0, held := [] }

namespace System

variable {σ : Type} {s : System σ} {c d : ClientId} {p : PacketId} {place : Place}

def held (s : System σ) (c : ClientId) : List (Option PacketId) := (s.client? c).elim [] (·.held)

def loans (s : System σ) (c : ClientId) : List Loan := loansOf (s.held c)

/-- The loans of a client that ended in a call back, in that order. -/
def ended (s : System σ) (c : ClientId) : List Loan :=
  (s.completions.filter (·.client == c)).map fun x => (x.packet, x.place)

def inFlight (s : System σ) (c : ClientId) : Int := (s.client? c).elim 0 (·.inFlight)

def calls (s : System σ) (c : ClientId) (p : PacketId) : Nat :=
  s.completions.countP fun x => x.client == c && x.packet == p

def outstanding (s : System σ) (c : ClientId) (p : PacketId) : Nat :=
  (s.loans c).countP (·.1 == p)

-- ---------------------------------------------------------------------------
-- What the primitive changes leave alone
-- ---------------------------------------------------------------------------

@[simp] theorem client?_modify (s : System σ) (c d : ClientId) (f : Client σ → Client σ) :
    (s.modify c f).client? d = if c = d then (s.client? d).map f else s.client? d := by
  simp only [client?, modify, List.getElem?_modify]
  split <;> simp

@[simp] theorem client?_log (s : System σ) (e : Entry) : (s.log e).client? d = s.client? d := rfl

@[simp] theorem client?_fill (s : System σ) (p : PacketId) (r : Report) :
    (s.fill p r).client? d = s.client? d := rfl

@[simp] theorem client?_callBack (s : System σ) (c : ClientId) (place : Place) (p : PacketId)
    (r : Report) : (s.callBack c place p r).client? d = s.client? d := by
  unfold callBack
  split <;> rfl

theorem client?_add (s : System σ) (k : Client σ) (d : ClientId) :
    (s.add k).2.client? d = if d = s.clients.length then some k else s.client? d := by
  simp only [add, client?, List.getElem?_append]
  grind

@[simp] theorem completions_modify (s : System σ) (c : ClientId) (f : Client σ → Client σ) :
    (s.modify c f).completions = s.completions := rfl

@[simp] theorem completions_fill (s : System σ) (p : PacketId) (r : Report) :
    (s.fill p r).completions = s.completions := rfl

theorem completions_log (s : System σ) (e : Entry) :
    (s.log e).completions = s.completions ++ e.completion?.toList := by
  cases h : e.completion? <;> simp [completions, log, h]

@[simp] theorem memory_modify (s : System σ) (c : ClientId) (f : Client σ → Client σ) :
    (s.modify c f).memory = s.memory := rfl

@[simp] theorem memory_log (s : System σ) (e : Entry) : (s.log e).memory = s.memory := rfl

theorem held_of_client (h : s.client? c = some k) : s.held c = k.held := by simp [held, h]

theorem inFlight_of_client (h : s.client? c = some k) : s.inFlight c = k.inFlight := by
  simp [inFlight, h]

theorem held_modify_same {f : Client σ → Client σ} (same : ∀ k, (f k).held = k.held) :
    (s.modify d f).held c = s.held c := by
  by_cases hd : d = c <;> cases hk : s.client? c <;> simp [held, hd, hk, same]

theorem inFlight_modify_same {f : Client σ → Client σ}
    (same : ∀ k, (f k).inFlight = k.inFlight) : (s.modify d f).inFlight c = s.inFlight c := by
  by_cases hd : d = c <;> cases hk : s.client? c <;> simp [inFlight, hd, hk, same]

theorem held_modify_other (hd : d ≠ c) (f : Client σ → Client σ) :
    (s.modify d f).held c = s.held c := by
  simp [held, hd]

theorem inFlight_modify_other (hd : d ≠ c) (f : Client σ → Client σ) :
    (s.modify d f).inFlight c = s.inFlight c := by
  simp [inFlight, hd]

theorem held_issue (h : s.client? c = some k) (p : PacketId) :
    (s.modify c (·.issue p)).held c = s.held c ++ [some p] := by
  simp [held, h, Client.issue]

theorem inFlight_issue (h : s.client? c = some k) (p : PacketId) :
    (s.modify c (·.issue p)).inFlight c = s.inFlight c + 1 := by
  simp [inFlight, h, Client.issue]

theorem held_withdraw (s : System σ) (c : ClientId) :
    (s.modify c (·.withdraw)).held c = (s.held c).dropLast := by
  cases h : s.client? c <;> simp [held, h, Client.withdraw]

theorem inFlight_withdraw (h : s.client? c = some k) :
    (s.modify c (·.withdraw)).inFlight c = s.inFlight c - 1 := by
  simp [inFlight, h, Client.withdraw]

theorem held_add (s : System σ) (c : ClientId) {k : Client σ} (held : k.held = []) :
    (s.add k).2.held c = s.held c := by
  by_cases hc : c = s.clients.length
  · subst hc
    simp [System.held, show s.client? s.clients.length = none by simp [client?], client?_add, held]
  · simp [System.held, client?_add, hc]

theorem inFlight_add (s : System σ) (c : ClientId) {k : Client σ} (count : k.inFlight = 0) :
    (s.add k).2.inFlight c = s.inFlight c := by
  by_cases hc : c = s.clients.length
  · subst hc
    simp [inFlight, show s.client? s.clients.length = none by simp [client?], client?_add, count]
  · simp [inFlight, client?_add, hc]

-- ---------------------------------------------------------------------------
-- The end of a loan
-- ---------------------------------------------------------------------------

theorem settle_of_no_loan (h : (s.held c)[place]?.join = none) (e : Ending) :
    s.settle c place e = s := by
  have : (s.client? c).bind (·.packet? place) = none := by
    cases hk : s.client? c with
    | none => rfl
    | some k => simpa [held, hk, Client.packet?] using h
  simp [settle, this]

theorem settle_of_nothing_open (h : s.loans c = []) (place : Place) (e : Ending) :
    s.settle c place e = s := by
  refine settle_of_no_loan (Option.eq_none_iff_forall_ne_some.mpr fun p hp => ?_) e
  have hloan : (p, place) ∈ s.loans c := mem_loansOf.mpr (Option.join_eq_some_iff.mp hp)
  rw [h] at hloan
  simp at hloan

theorem settleAll_of_nothing_open (h : s.loans c = []) (settlements : List Settlement) :
    s.settleAll c settlements = s := by
  induction settlements with
  | nil => rfl
  | cons x rest ih =>
    rw [settleAll, List.foldl_cons, settle_of_nothing_open h]
    exact ih

theorem abandon_of_nothing_open (h : s.loans c = []) : s.abandon c = s := by
  unfold abandon
  split
  · rfl
  · split
    · exact settleAll_of_nothing_open h _
    · rfl

theorem client_of_held (h : (s.held c)[place]? = some (some p)) :
    ∃ k, s.client? c = some k := by
  cases hk : s.client? c with
  | none => simp [held, hk] at h
  | some k => exact ⟨k, rfl⟩

theorem callBack_of_client {k : Client σ} (h : s.client? c = some k) (place : Place) (p : PacketId)
    (r : Report) : s.callBack c place p r = s.log (.completed
      { client := c, place, packet := p, context := k.context, report := r, found := s.memory p,
        inFlight := k.inFlight }) := by
  simp [callBack, h]

def lastCall (s : System σ) (c : ClientId) (k : Client σ) (place : Place) (p : PacketId)
    (e : Ending) : Completion :=
  { client := c, place, packet := p, context := k.context, report := e.report,
    found := (s.memory p).fill e.report, inFlight := k.inFlight - 1 }

/-- A loan that ends leaves its place, is counted out and is called back. -/
theorem settle_of_loan (h : (s.held c)[place]? = some (some p)) (e : Ending) :
    ∃ k, s.client? c = some k ∧ k.held[place]? = some (some p) ∧
      (∀ d, (s.settle c place e).client? d =
        if c = d then some (k.vacate place).countDown else s.client? d) ∧
      (s.settle c place e).memory = s.memory.set p ((s.memory p).fill e.report) ∧
      (s.settle c place e).completions = s.completions ++ [s.lastCall c k place p e] := by
  obtain ⟨k, hk⟩ := client_of_held h
  have hp : k.held[place]? = some (some p) := by simpa [held, hk] using h
  let t := ((s.modify c (·.vacate place)).fill p e.report).modify c (·.countDown)
  have ht : t.client? c = some (k.vacate place).countDown := by simp [t, hk]
  have hs : s.settle c place e = t.log (.completed (s.lastCall c k place p e)) := by
    simp only [settle, hk, Option.bind_some, Client.packet?, hp, Option.join_some, deliver]
    rw [callBack_of_client ht]
    simp [t, lastCall, fill, Memory.set, Client.vacate, Client.countDown]
  refine ⟨k, hk, hp, fun d => ?_, ?_, ?_⟩
  · by_cases hd : c = d
    · subst hd; simp [hs, ht]
    · simp [hs, t, hd]
  · simp [hs, t, fill]
  · simp [hs, t, completions_log, Entry.completion?]

theorem held_settle (h : (s.held c)[place]? = some (some p)) (e : Ending) (d : ClientId) :
    (s.settle c place e).held d = if c = d then (s.held d).set place none else s.held d := by
  obtain ⟨k, hk, -, hclient, -, -⟩ := settle_of_loan h e
  by_cases hd : c = d
  · subst hd; simp [held, hclient, hk, Client.vacate, Client.countDown]
  · simp [held, hclient, hd]

theorem inFlight_settle (h : (s.held c)[place]? = some (some p)) (e : Ending) (d : ClientId) :
    (s.settle c place e).inFlight d = if c = d then s.inFlight d - 1 else s.inFlight d := by
  obtain ⟨k, hk, -, hclient, -, -⟩ := settle_of_loan h e
  by_cases hd : c = d
  · subst hd; simp [inFlight, hclient, hk, Client.vacate, Client.countDown]
  · simp [inFlight, hclient, hd]

theorem ended_settle (h : (s.held c)[place]? = some (some p)) (e : Ending) (d : ClientId) :
    (s.settle c place e).ended d = if c = d then s.ended d ++ [(p, place)] else s.ended d := by
  obtain ⟨k, hk, -, -, -, hcalls⟩ := settle_of_loan h e
  by_cases hd : c = d
  · subst hd; simp [ended, hcalls, lastCall]
  · simp [ended, hcalls, lastCall, hd]

theorem bare_settle (s : System σ) (c : ClientId) (place : Place) (e : Ending) (d : ClientId) :
    ((s.settle c place e).client? d).map (·.bare) = (s.client? d).map (·.bare) := by
  cases hp : (s.held c)[place]?.join with
  | none => rw [settle_of_no_loan hp]
  | some p =>
    obtain ⟨k, hk, -, hclient, -, -⟩ := settle_of_loan (Option.join_eq_some_iff.mp hp) e
    by_cases hd : c = d
    · subst hd; simp [hclient, hk, Client.bare, Client.vacate, Client.countDown]
    · simp [hclient, hd]

theorem bare_settleAll (s : System σ) (c : ClientId) (settlements : List Settlement)
    (d : ClientId) :
    ((s.settleAll c settlements).client? d).map (·.bare) = (s.client? d).map (·.bare) := by
  induction settlements generalizing s with
  | nil => rfl
  | cons x rest ih => exact (ih _).trans (bare_settle s c x.place x.ending d)

/-- The step from one system to another in which a client has ended some of its open loans,
with these calls, and has done nothing else to packets and loans. -/
structure CallsBack (s : System σ) (c : ClientId) (called : List Completion) (t : System σ) :
    Prop where
  completions : t.completions = s.completions ++ called
  loans : ∀ x ∈ called, x.client = c ∧ (x.packet, x.place) ∈ s.loans c
  emptied : ∀ x ∈ called, (t.held c)[x.place]? = some none
  length : (t.held c).length = (s.held c).length
  held : ∀ place : Place, (t.held c)[place]? = (s.held c)[place]? ∨ (t.held c)[place]? = some none
  memory : ∀ q, (∀ x ∈ called, x.packet ≠ q) → t.memory q = s.memory q
  inFlight : t.inFlight c + called.length = s.inFlight c

namespace CallsBack

variable {t u : System σ} {called more : List Completion}

theorem refl (s : System σ) (c : ClientId) : s.CallsBack c [] s where
  completions := by simp
  loans := by simp
  emptied := by simp
  length := rfl
  held _ := .inl rfl
  memory _ _ := rfl
  inFlight := by simp

theorem trans (first : s.CallsBack c called t) (second : t.CallsBack c more u) :
    s.CallsBack c (called ++ more) u where
  completions := by rw [second.completions, first.completions, List.append_assoc]
  loans x hx := by
    rcases List.mem_append.mp hx with hx | hx
    · exact first.loans x hx
    · obtain ⟨hc, hloan⟩ := second.loans x hx
      have hfull := mem_loansOf.mp hloan
      rcases first.held x.place with h | h
      · exact ⟨hc, mem_loansOf.mpr (h ▸ hfull)⟩
      · simp [h] at hfull
  emptied x hx := by
    rcases List.mem_append.mp hx with hx | hx
    · rcases second.held x.place with h | h
      · rw [h, first.emptied x hx]
      · exact h
    · exact second.emptied x hx
  length := second.length.trans first.length
  held place := by
    rcases second.held place with h | h
    · exact h ▸ first.held place
    · exact .inr h
  memory q hq := by
    rw [second.memory q fun x hx => hq x (List.mem_append_right _ hx)]
    exact first.memory q fun x hx => hq x (List.mem_append_left _ hx)
  inFlight := by
    have h₁ := first.inFlight
    have h₂ := second.inFlight
    rw [List.length_append]
    omega

theorem none_of (h : s.CallsBack c called t) (hp : s.outstanding c p = 0) :
    t.calls c p = s.calls c p ∧ t.outstanding c p = 0 := by
  have hne : ∀ n, (p, n) ∉ s.loans c := by
    intro n hn
    exact absurd (List.countP_eq_zero.mp hp _ hn) (by simp)
  constructor
  · have hcalled : called.countP (fun x => x.client == c && x.packet == p) = 0 := by
      rw [List.countP_eq_zero]
      intro x hx hxp
      simp only [Bool.and_eq_true, beq_iff_eq] at hxp
      exact hne x.place (hxp.2 ▸ (h.loans x hx).2)
    rw [System.calls, h.completions, List.countP_append, hcalled]
    rfl
  · rw [outstanding, List.countP_eq_zero]
    rintro ⟨q, n⟩ hq hqp
    obtain rfl : q = p := by simpa using hqp
    have hfull := mem_loansOf.mp hq
    rcases h.held n with hsame | hnone
    · exact hne n (mem_loansOf.mpr (hsame ▸ hfull))
    · simp [hnone] at hfull

theorem ended (h : s.CallsBack c called t) :
    t.ended c = s.ended c ++ called.map fun x => (x.packet, x.place) := by
  have hall : called.filter (·.client == c) = called := by
    rw [List.filter_eq_self]
    intro x hx
    simp [(h.loans x hx).1]
  rw [System.ended, h.completions, List.filter_append, hall, List.map_append]
  rfl

theorem ended_other (h : s.CallsBack c called t) (hd : c ≠ d) : t.ended d = s.ended d := by
  have hnone : called.filter (·.client == d) = [] := by
    rw [List.filter_eq_nil_iff]
    intro x hx
    simp [(h.loans x hx).1, hd]
  rw [System.ended, h.completions, List.filter_append, hnone, List.append_nil]
  rfl

theorem inFlight_ended (h : s.CallsBack c called t) :
    t.inFlight c + (t.ended c).length = s.inFlight c + (s.ended c).length := by
  have hcount := h.inFlight
  rw [h.ended, List.length_append, List.length_map]
  omega

end CallsBack

theorem settle_callsBack (s : System σ) (c : ClientId) (place : Place) (e : Ending) :
    ∃ calls, s.CallsBack c calls (s.settle c place e) := by
  cases hp : (s.held c)[place]?.join with
  | none =>
    rw [settle_of_no_loan hp]
    exact ⟨[], .refl s c⟩
  | some p =>
    replace hp : (s.held c)[place]? = some (some p) := Option.join_eq_some_iff.mp hp
    obtain ⟨k, hk, -, -, hmemory, hcalls⟩ := settle_of_loan hp e
    have hlt : place < (s.held c).length := (List.getElem?_eq_some_iff.mp hp).1
    refine ⟨[s.lastCall c k place p e], hcalls, ?_, ?_, ?_, ?_, ?_, ?_⟩
    · simp [lastCall, loans, mem_loansOf, hp]
    · simp [lastCall, held_settle hp, hlt]
    · simp [held_settle hp]
    · intro other
      by_cases ho : place = other
      · subst ho; simp [held_settle hp, hlt]
      · simp [held_settle hp, ho]
    · intro q hq
      have hne : q ≠ p := fun h => hq _ (List.mem_singleton.mpr rfl) h.symm
      simp [hmemory, Memory.set, hne]
    · simp [inFlight_settle hp]

theorem settleAll_callsBack (s : System σ) (c : ClientId) (settlements : List Settlement) :
    ∃ calls, s.CallsBack c calls (s.settleAll c settlements) := by
  induction settlements generalizing s with
  | nil => exact ⟨[], .refl s c⟩
  | cons x rest ih =>
    obtain ⟨calls, first⟩ := settle_callsBack s c x.place x.ending
    obtain ⟨more, second⟩ := ih (s.settle c x.place x.ending)
    exact ⟨calls ++ more, first.trans second⟩

/-- The account of a client to which the packets were issued, in this order. -/
structure Balanced (s : System σ) (c : ClientId) (issued : List PacketId) : Prop where
  length_held : (s.held c).length = issued.length
  loans : (s.ended c ++ s.loans c).Perm issued.zipIdx
  inFlight : s.inFlight c = (s.loans c).length
  /-- No call back has seen a count below zero. -/
  counted : ∀ x ∈ s.completions, x.client = c → 0 ≤ x.inFlight

namespace Balanced

variable {issued : List PacketId}

theorem congr {t : System σ} (h : s.Balanced c issued) (held : t.held c = s.held c)
    (count : t.inFlight c = s.inFlight c) (calls : t.completions = s.completions) :
    t.Balanced c issued where
  length_held := held ▸ h.length_held
  loans := by simpa only [ended, System.loans, held, calls] using h.loans
  inFlight := by simpa only [count, System.loans, held] using h.inFlight
  counted := calls ▸ h.counted

theorem modify (h : s.Balanced c issued) {f : Client σ → Client σ}
    (held : ∀ k, (f k).held = k.held) (count : ∀ k, (f k).inFlight = k.inFlight) :
    (s.modify d f).Balanced c issued :=
  h.congr (held_modify_same held) (inFlight_modify_same count) rfl

theorem log (h : s.Balanced c issued) {e : Entry} (he : e.completion? = none) :
    (s.log e).Balanced c issued :=
  h.congr rfl rfl (by simp [completions_log, he])

theorem count (h : s.Balanced c issued) (p : PacketId) :
    s.calls c p + s.outstanding c p = issued.count p := by
  have hended : s.calls c p = (s.ended c).countP (·.1 == p) := by
    simp only [calls, ended, List.countP_map, List.countP_filter]
    congr
    funext x
    simp [Bool.and_comm]
  have hissued : issued.count p = issued.zipIdx.countP (·.1 == p) := by
    calc issued.count p = (issued.zipIdx.map Prod.fst).count p := by rw [List.zipIdx_map_fst]
      _ = issued.zipIdx.countP (·.1 == p) := List.countP_map
  rw [hended, hissued, outstanding, ← List.countP_append]
  exact h.loans.countP_eq _

theorem settle (h : s.Balanced c issued) (d : ClientId) (place : Place) (e : Ending) :
    (s.settle d place e).Balanced c issued := by
  cases hp : (s.held d)[place]?.join with
  | none => rwa [settle_of_no_loan hp]
  | some p =>
    replace hp : (s.held d)[place]? = some (some p) := Option.join_eq_some_iff.mp hp
    obtain ⟨k, hk, -, -, -, hcalls⟩ := settle_of_loan hp e
    by_cases hd : d = c
    · subst hd
      have hset : (s.loans d).Perm ((p, place) :: loansOf ((s.held d).set place none)) :=
        loansOf_perm_set hp
      have hcount : s.inFlight d - 1 = (loansOf ((s.held d).set place none)).length := by
        rw [h.inFlight, hset.length_eq, List.length_cons]
        omega
      refine ⟨?_, ?_, ?_, ?_⟩
      · simp [held_settle hp, h.length_held]
      · simp only [ended_settle hp, System.loans, held_settle hp, ↓reduceIte, List.append_assoc,
          List.singleton_append]
        exact (hset.symm.append_left _).trans h.loans
      · simp only [inFlight_settle hp, System.loans, held_settle hp, ↓reduceIte, hcount]
      · intro x hx hc
        rw [hcalls, List.mem_append, List.mem_singleton] at hx
        rcases hx with hx | rfl
        · exact h.counted x hx hc
        · simp only [lastCall, ← inFlight_of_client hk, hcount]
          omega
    · refine ⟨?_, ?_, ?_, ?_⟩
      · simpa [held_settle hp, hd] using h.length_held
      · simpa [ended_settle hp, System.loans, held_settle hp, hd] using h.loans
      · simpa [inFlight_settle hp, System.loans, held_settle hp, hd] using h.inFlight
      · intro x hx hc
        rw [hcalls, List.mem_append, List.mem_singleton] at hx
        rcases hx with hx | rfl
        · exact h.counted x hx hc
        · exact absurd hc hd

theorem settleAll (h : s.Balanced c issued) (d : ClientId) (settlements : List Settlement) :
    (s.settleAll d settlements).Balanced c issued := by
  induction settlements generalizing s with
  | nil => exact h
  | cons x rest ih => exact ih (h.settle d x.place x.ending)

theorem react (h : s.Balanced c issued) (d : ClientId) (engine : σ)
    (settlements : List Settlement) : (s.react d engine settlements).Balanced c issued :=
  (h.modify (f := fun k => { k with engine := some engine }) (fun _ => rfl) fun _ => rfl).settleAll
    d settlements

theorem abandon (h : s.Balanced c issued) (d : ClientId) : (s.abandon d).Balanced c issued := by
  unfold System.abandon
  split
  · exact h
  · split
    · exact h.settleAll d _
    · exact h

theorem take (h : s.Balanced c issued) (d : ClientId) : (s.take d).2.Balanced c issued :=
  h.modify (f := fun k => { k with engine := none }) (fun _ => rfl) fun _ => rfl

theorem add (h : s.Balanced c issued) {k : Client σ} (held : k.held = []) (count : k.inFlight = 0) :
    (s.add k).2.Balanced c issued :=
  h.congr (held_add s c held) (inFlight_add s c count) rfl

theorem issue (h : s.Balanced c issued) (hk : s.client? c = some k) (p : PacketId) :
    (s.modify c (·.issue p)).Balanced c (issued ++ [p]) := by
  have hheld := held_issue hk p
  have hloans : (s.modify c (·.issue p)).loans c = s.loans c ++ [(p, issued.length)] := by
    simp only [System.loans, hheld, loansOf_concat, h.length_held, Option.map_some,
      Option.toList_some]
  refine ⟨?_, ?_, ?_, h.counted⟩
  · simp [hheld, h.length_held]
  · have hended : (s.modify c (·.issue p)).ended c = s.ended c := rfl
    rw [hloans, hended, ← List.append_assoc, List.zipIdx_append]
    simpa using h.loans.append_right [(p, issued.length)]
  · rw [hloans, inFlight_issue hk, h.inFlight, List.length_append]
    rfl

theorem withdraw (h : s.Balanced c (issued ++ [p]))
    (hp : (s.held c)[issued.length]? = some (some p)) :
    (s.modify c (·.withdraw)).Balanced c issued := by
  obtain ⟨k, hk⟩ := client_of_held hp
  have hlen : (s.held c).length = issued.length + 1 := by simpa using h.length_held
  obtain ⟨rest, hrest⟩ : ∃ rest, s.held c = rest ++ [some p] := by
    rw [← List.getLast?_eq_some_iff, List.getLast?_eq_getElem?, hlen]
    exact hp
  have hloans : s.loans c = loansOf rest ++ [(p, issued.length)] := by
    have : rest.length = issued.length := by simpa [hrest] using hlen
    rw [System.loans, hrest, loansOf_concat, this]
    rfl
  have hheld : (s.modify c (·.withdraw)).held c = rest := by
    rw [held_withdraw, hrest, List.dropLast_concat]
  refine ⟨?_, ?_, ?_, h.counted⟩
  · rw [hheld]
    simpa [hrest] using hlen
  · have hall := h.loans
    rw [hloans, ← List.append_assoc, List.zipIdx_append] at hall
    have hended : (s.modify c (·.withdraw)).ended c = s.ended c := rfl
    rw [hended, System.loans, hheld]
    exact (List.perm_append_right_iff [(p, issued.length)]).mp (by simpa using hall)
  · have hcount := h.inFlight
    rw [hloans, List.length_append] at hcount
    rw [System.loans, hheld, inFlight_withdraw hk, hcount]
    simp

end Balanced

end System

end Courier
