import Courier.Proofs.Abi.Runs
import Courier.Service

/-!
# All or nothing

What the status of a submit says about its packet. After `ok` there is one call back
for it, and once the client and all who could end the loan are gone there has been
one. Any other status says that the packet was not taken, with one exception: an
engine that fails with the packet in its hands has it called back for within the
call, although the status is that of a client that is not there.
-/

namespace Courier.Abi

open Courier.System (Trace issuedIn)

variable {σ : Type} [Launch σ] {d e : Abi σ} {trace : Trace σ} {slot : Option SlotId}
  {packet : Option PacketId}

/-- The packet of a submit was not taken, neither in the call nor for later. -/
structure Untaken (d : Abi σ) (trace : Trace σ) (packet : Option PacketId) (e : Abi σ) :
    Prop where
  /-- Whatever was called back for in the call was on loan before it. -/
  during : ∃ called, e.system.completions = d.system.completions ++ called ∧
    ∀ x ∈ called, (x.packet, x.place) ∈ d.system.loans x.client
  /-- All calls back that there ever are belong to other submits. -/
  later : ∀ more f, e.Run more f → ∀ c,
    (f.system.ended c ++ f.system.loans c).Perm (issuedIn c trace ++ issuedIn c more).zipIdx
  memory : ∀ p ∈ packet, (∀ c, d.system.outstanding c p = 0) →
    e.system.memory p = d.system.memory p
  /-- The counts in flight went down by the calls back and by nothing else. -/
  inFlight : ∀ c, e.system.inFlight c + (e.system.ended c).length =
    d.system.inFlight c + (d.system.ended c).length

/-- The engine of the client in the slot fails with the packet in its hands. -/
def FailsOn (d : Abi σ) (slot : Option SlotId) (packet : Option PacketId) : Prop :=
  ∃ c p r, d.lookup slot = some c ∧ packet = some p ∧ d.system.reaction? c p = some r ∧
    r.verdict = .panicked

theorem submit_cases (d : Abi σ) (slot : Option SlotId) (packet : Option PacketId) :
    (∃ status, status ≠ .ok ∧ d.submit slot packet = (status, d) ∧ ¬ d.FailsOn slot packet) ∨
    ∃ c p, d.lookup slot = some c ∧ packet = some p ∧
      d.submit slot packet =
        (statusOf (d.system.submit c p).1, { d with system := (d.system.submit c p).2 }) := by
  unfold submit
  cases hc : d.lookup slot with
  | none => exact .inl ⟨.clientInvalid, by simp, rfl, by simp [FailsOn, hc]⟩
  | some c =>
    cases packet with
    | none => exact .inl ⟨.packetInvalid, by simp, rfl, by simp [FailsOn]⟩
    | some p => exact .inr ⟨c, p, rfl, rfl, rfl⟩

-- ---------------------------------------------------------------------------
-- What was not taken
-- ---------------------------------------------------------------------------

theorem Run.balanced {m : Memory} (run : Run { system := { memory := m } } trace d)
    (c : ClientId) : d.system.Balanced c (issuedIn c trace) :=
  run.system.balanced (System.balanced_empty m c)

theorem untaken_self (h : ∀ c, d.system.Balanced c (issuedIn c trace)) :
    d.Untaken trace packet d where
  during := ⟨[], by simp⟩
  later more f later c := (later.system.balanced (h c)).loans
  memory _ _ _ := rfl
  inFlight _ := rfl

theorem untaken_of_refused (h : ∀ c, d.system.Balanced c (issuedIn c trace))
    (refused : (d.system.submit c p).1 = .value (.error error)) :
    d.Untaken trace (some p) { d with system := (d.system.submit c p).2 } := by
  obtain ⟨called, hcalled⟩ := System.submit_refused refused
  refine ⟨⟨called, hcalled.completions, ?_⟩, ?_, ?_, ?_⟩
  · intro x hx
    obtain ⟨hc, hloan⟩ := hcalled.loans x hx
    exact hc ▸ hloan
  · intro more f later other
    have hsame := (h other).submit c p
    simp only [refused, System.issues, Bool.false_eq_true, and_false, ↓reduceIte,
      List.append_nil] at hsame
    exact (later.system.balanced hsame).loans
  · intro q hq hfree
    obtain rfl : p = q := by simpa using hq
    refine hcalled.memory p ?_
    intro x hx hxp
    have hloan := (hcalled.loans x hx).2
    exact absurd (List.countP_eq_zero.mp (hfree c) _ hloan) (by simp [hxp])
  · intro other
    by_cases hc : c = other
    · subst hc
      exact hcalled.inFlight_ended
    · have hclient := System.client?_submit_other hc d.system p
      rw [hcalled.ended_other hc, System.inFlight, System.inFlight, hclient]

-- ---------------------------------------------------------------------------
-- What was taken
-- ---------------------------------------------------------------------------

/-- A packet that was taken is on loan until it is called back for, once. -/
theorem taken_once (h : d.system.Balanced c issued)
    (taken : System.issues (d.system.submit c p).1 = true)
    (later : Run { d with system := (d.system.submit c p).2 } more f) :
    (f.system.ended c ++ f.system.loans c).count (p, d.system.nextPlace c) = 1 := by
  have hissued := h.submit c p
  rw [if_pos ⟨rfl, taken⟩] at hissued
  refine (later.system.balanced hissued).once ?_
  rw [System.nextPlace, h.length_held, List.append_assoc,
    List.getElem?_append_right (Nat.le_refl _), Nat.sub_self]
  rfl

theorem failed_not_on_loan (failed : (d.system.submit c p).1 = .panicked) :
    (p, d.system.nextPlace c) ∉ (d.system.submit c p).2.loans c := by
  have hs := System.submission d.system c p
  generalize d.system.submit c p = out at hs failed
  cases hs with
  | closed => simp at failed
  | accepted => simp at failed
  | handedBack => simp at failed
  | panicked => exact System.settle_place_not_mem _ c _ .drop p

/-- Before the call nobody was called back for it, and after the call nobody is again. -/
theorem failed_once (h : d.system.Balanced c issued)
    (failed : (d.system.submit c p).1 = .panicked) :
    (p, d.system.nextPlace c) ∉ d.system.ended c ∧
      ∀ more f, Run { d with system := (d.system.submit c p).2 } more f →
        (f.system.ended c).count (p, d.system.nextPlace c) = 1 := by
  have taken : System.issues (d.system.submit c p).1 = true := by
    rw [failed]
    rfl
  constructor
  · intro hended
    have hmem := h.loans.mem_iff.mp (List.mem_append_left _ hended)
    rw [List.mem_zipIdx_iff_getElem?, System.nextPlace, h.length_held] at hmem
    simp at hmem
  · intro more f later
    have hnow := taken_once h taken .nil
    have hthen := taken_once h taken later
    rw [List.count_append, List.count_eq_zero_of_not_mem (failed_not_on_loan failed)] at hnow
    rw [List.count_append] at hthen
    have hkept := (later.system.ended c).sublist.count_le (p, d.system.nextPlace c)
    simp only at hkept hnow
    omega

theorem not_untaken_of_failed (h : ∀ c, d.system.Balanced c (issuedIn c trace))
    (failed : (d.system.submit c p).1 = .panicked) :
    ¬ d.Untaken trace packet { d with system := (d.system.submit c p).2 } := by
  intro untaken
  have hissued := (h c).submit c p
  rw [failed, if_pos ⟨rfl, rfl⟩] at hissued
  -- the failed submit has issued a loan that no submit of the trace accounts for
  have hlater := (untaken.later [] _ .nil c).length_eq
  rw [hissued.loans.length_eq] at hlater
  simp [issuedIn] at hlater

-- ---------------------------------------------------------------------------
-- The law of the submit
-- ---------------------------------------------------------------------------

/-- After `ok` there is exactly one call back, delivered once the client is gone. After any other
status the packet was not taken, unless the engine failed with the packet in its hands; then it
was called back for in the call, once and for all. -/
theorem Run.submit_all_or_nothing {m : Memory} (run : Run { system := { memory := m } } trace d)
    (slot : Option SlotId) (packet : Option PacketId)
    (returned : d.submit slot packet = (status, e)) :
    (status = .ok → ∃ c p, d.lookup slot = some c ∧ packet = some p ∧
      ∀ more f, e.Run more f →
        (f.system.ended c ++ f.system.loans c).count (p, d.system.nextPlace c) = 1 ∧
        (f.system.Gone c → (f.system.ended c).count (p, d.system.nextPlace c) = 1)) ∧
    (status ≠ .ok → (d.Untaken trace packet e ↔ ¬ d.FailsOn slot packet)) ∧
    (d.FailsOn slot packet → status = .clientInvalid ∧
      ∃ c p, d.lookup slot = some c ∧ packet = some p ∧
        (p, d.system.nextPlace c) ∉ d.system.ended c ∧
        ∀ more f, e.Run more f → (f.system.ended c).count (p, d.system.nextPlace c) = 1) := by
  have hb := run.balanced
  rcases submit_cases d slot packet with ⟨_, hne, hsubmit, hcalm⟩ | ⟨c, p, hc, rfl, hsubmit⟩
  · obtain ⟨rfl, rfl⟩ := Prod.ext_iff.mp (hsubmit.symm.trans returned)
    exact ⟨fun h => absurd h hne, fun _ => ⟨fun _ => hcalm, fun _ => untaken_self hb⟩,
      fun h => absurd h hcalm⟩
  obtain ⟨rfl, rfl⟩ := Prod.ext_iff.mp (hsubmit.symm.trans returned)
  have hfails : d.FailsOn slot (some p) ↔ (d.system.submit c p).1 = .panicked := by
    rw [System.submit_panicked_iff]
    simp [FailsOn, hc]
  refine ⟨?_, ?_, ?_⟩
  · intro hok
    refine ⟨c, p, hc, rfl, ?_⟩
    intro more f later
    have taken : System.issues (d.system.submit c p).1 = true := by
      rw [statusOf_eq_ok.mp hok]
      rfl
    have honce := taken_once (hb c) taken later
    refine ⟨honce, ?_⟩
    intro hgone
    have hnone := ((run.system.snoc (.submit c p)).append later.system).cleared c hgone
    rwa [hnone, List.append_nil] at honce
  · intro hne
    rw [hfails]
    cases hback : (d.system.submit c p).1 with
    | value result =>
      cases result with
      | ok _ => exact absurd (statusOf_eq_ok.mpr hback) hne
      | error error => simpa using untaken_of_refused hb hback
    | panicked => simpa using not_untaken_of_failed hb hback
  · intro hfail
    have hback := hfails.mp hfail
    obtain ⟨hbefore, hafter⟩ := failed_once (hb c) hback
    exact ⟨by rw [hback]; rfl, c, p, hc, rfl, hbefore, hafter⟩

def scripted (onSubmit : Scripted.OnSubmit) : Command Service :=
  .register 0 (.ofEngine .zero [] .native 7 (.scripted { onSubmit }))

theorem submit_held_once :
    let d := ({} : Abi Service).exec (scripted (.hold none))
    (d.submit (some 0) (some 3)).1 = .ok ∧
      ∃ c p, d.lookup (some 0) = some c ∧ some 3 = some p ∧
        ∀ more f, (d.submit (some 0) (some 3)).2.Run more f →
          (f.system.ended c ++ f.system.loans c).count (p, d.system.nextPlace c) = 1 ∧
          (f.system.Gone c → (f.system.ended c).count (p, d.system.nextPlace c) = 1) :=
  ⟨by decide, (Run.submit_all_or_nothing (Run.nil.snoc (scripted (.hold none))) (some 0) (some 3)
    rfl).1 (by decide)⟩

/-- The status is that of a client that is not there, the packet has been called back for. -/
theorem submit_failing_taken :
    let d := ({} : Abi Service).exec (scripted .panic)
    let e := (d.submit (some 0) (some 3)).2
    ({} : Abi Service).Run ([] ++ (({} : Abi Service).system.perform
        ((scripted .panic).ops {})).1) d ∧
      (d.submit (some 0) (some 3)).1 = .clientInvalid ∧
      e.system.ended 0 = [(3, 0)] ∧ (e.system.memory 3).status = Outcome.clientShutdown.code ∧
      ∀ trace, ¬ d.Untaken trace (some 3) e := by
  refine ⟨Run.nil.snoc (scripted .panic), by decide, by decide, by decide, ?_⟩
  intro trace h
  have hmemory := h.memory 3 rfl ?_
  · exact absurd (congrArg Packet.status hmemory) (by decide)
  · rintro (_ | c) <;> rfl

end Courier.Abi
