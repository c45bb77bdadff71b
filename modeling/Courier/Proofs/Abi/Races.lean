import Courier.Proofs.Abi.ConcurrentCalls

/-!
# Submits against stops

Whatever the order in which the steps of the callers come, the first stopper to reach
the registry is answered with `ok` and all others are turned away. Every packet that was
accepted has been called back for once when the first stopper returns, and after that
there are no calls back any more.
-/

namespace Courier.Abi

open Courier.System (Trace issuedIn)

variable {σ : Type} [Engine σ] {K : Custody σ} {c : ClientId} {key : UInt64}
  {s t : ConcurrentCalls σ}
  {i : Nat} {caller : Caller σ} {next : Phase σ} {e : Abi σ}

-- ---------------------------------------------------------------------------
-- The beginning
-- ---------------------------------------------------------------------------

def newClient (d : Abi σ) : ClientId := d.system.clients.length

def opened (d : Abi σ) (k : Client σ) : ConcurrentCalls σ := { abi := (d.add k).2 }

theorem callInvariant_opened {m : Memory} {trace : Trace σ} {d : Abi σ}
    (run : System.Run { memory := m } trace d.system) (hkey : d.registry.next ≠ 0)
    (valid : K.Valid engine) (cluster : Cluster) (endpoints : List Address.Endpoint) (mode : Mode)
    (context : UInt64) :
    CallInvariant K d.newClient d.registry.next
      (opened d (.ofEngine cluster endpoints mode context engine)) := by
  let c := d.newClient
  let k : Client σ := .ofEngine cluster endpoints mode context engine
  have hnew : (d.system.add k).2.client? c = some k :=
    (System.client?_add d.system k c).trans (if_pos rfl)
  have hengine : (d.system.add k).2.engine? c = some engine := by
    rw [System.engine?, hnew]
    rfl
  have hloans : (d.system.add k).2.loans c = [] := by
    rw [System.loans, System.held_of_client hnew]
    rfl
  have hb : d.system.Balanced c [] := by
    have hb := run.balanced (System.balanced_empty m c)
    have hnone : d.system.client? c = none := by simp [System.client?, c, newClient]
    have hlength := hb.length_held
    simp only [System.held, hnone, Option.elim_none, List.length_nil] at hlength
    rwa [List.eq_nil_of_length_eq_zero hlength.symm] at hb
  refine ⟨?_, ?_, ⟨[], hb.add rfl rfl, .nil⟩, fun _ => ⟨engine, hengine, valid, ?_⟩, ?_, ?_⟩
  · exact d.registry.get?_register hkey c
  · exact (congrArg _ hnew).trans rfl
  · exact fun x hx => absurd (hloans ▸ hx) List.not_mem_nil
  · simp [opened]
  · simp [opened]

-- ---------------------------------------------------------------------------
-- Every caller comes to an end
-- ---------------------------------------------------------------------------

theorem Uninterrupted.run {phase last : Phase σ} {d f : Abi σ}
    (alone : Uninterrupted slot kind phase d last f) (habi : s.abi = d)
    (caught : s.callers[i]? = some ⟨slot, kind, phase⟩) :
    ∃ t, ConcurrentCalls.Run K c key s t ∧ t.callers[i]? = some ⟨slot, kind, last⟩ := by
  induction alone generalizing s with
  | rest => exact ⟨s, .nil, caught⟩
  | @step phase d next e last f goes _ ih =>
    subst habi
    have hstep : ConcurrentCalls.Step K c key s (s.move i ⟨slot, kind, phase⟩ next e) :=
      .advance caught goes
    have hcaught : (s.move i ⟨slot, kind, phase⟩ next e).callers[i]? = some ⟨slot, kind, next⟩ := by
      rw [ConcurrentCalls.move, getElem?_set_of_some caught, if_pos rfl]
    obtain ⟨t, hrun, ht⟩ := ih rfl hcaught
    exact ⟨t, (ConcurrentCalls.Run.nil.snoc hstep).trans hrun, ht⟩

-- ---------------------------------------------------------------------------
-- Nothing happens once the client was stopped
-- ---------------------------------------------------------------------------

def Stopped (s : ConcurrentCalls σ) : Prop :=
  ∃ (i : Nat) (slot : SlotId) (loan : Option Loan),
    s.callers[i]? = some ⟨slot, .stop, .returned .ok loan⟩

/-- Then it was the first one, and it has left nothing behind. -/
theorem CallInvariant.of_stopped (h : CallInvariant K c key s)
    (caught : s.callers[i]? = some ⟨slot, .stop, .returned .ok loan⟩) :
    s.arrivals.head? = some i ∧ s.abi.system.engine? c = none ∧ s.abi.system.loans c = [] := by
  by_cases hi : s.arrivals.head? = some i
  · obtain ⟨first, hfirst, -, before⟩ := h.first i hi
    obtain rfl := Option.some.inj (hfirst.symm.trans caught)
    cases before with
    | returned gone empty => exact ⟨hi, gone, empty⟩
  · have hother := h.others i _ caught hi
    cases hother

theorem quiet_advance (gone : s.abi.system.engine? c = none)
    (before : Other c key caller.kind caller.phase)
    (goes : s.abi.advance caller.slot caller.kind caller.phase = some (next, e)) :
    e.system.completions = s.abi.system.completions := by
  obtain ⟨slot, kind, phase⟩ := caller
  cases before with
  | @calling _ k copy =>
    cases kind with
    | submit packet =>
      simp only [advance, Abi.find] at goes
      split at goes
      · next hfind =>
        split at hfind <;> cases hfind
        cases goes
        rfl
      · next hfind =>
        split at hfind <;> cases hfind
        cases goes
        rfl
    | stop =>
      simp only [advance, Abi.remove] at goes
      split at goes <;> cases goes
      · rfl
      · next hremove => exact (congrArg (·.2.system.completions) hremove).symm
  | @found packet =>
    cases packet with
    | none =>
      cases goes
      rfl
    | some p =>
      simp only [advance, System.submit_of_closed gone, Option.some.injEq, Prod.mk.injEq] at goes
      rw [← goes.2]
  | leaving answer =>
    simp only [advance, Option.some.injEq, Prod.mk.injEq] at goes
    rw [← goes.2]
    have hsystem := System.release_of_shared (s := s.abi.system) (c := c)
      fun engine present => by simp [gone] at present
    exact (congrArg System.completions hsystem).trans rfl
  | answered => simp at goes
  | refused => simp at goes

theorem ConcurrentCalls.Step.stopped (step : ConcurrentCalls.Step K c key s t)
    (stopped : Stopped s) : Stopped t := by
  obtain ⟨i, slot, loan, hi⟩ := stopped
  have hmove {j : Nat} {caller : Caller σ} {next : Phase σ} {e : Abi σ}
      (caught : s.callers[j]? = some caller) (back : caller.phase ≠ .returned .ok loan) :
      Stopped (s.move j caller next e) := by
    refine ⟨i, slot, loan, ?_⟩
    rw [ConcurrentCalls.move, getElem?_set_of_some caught, if_neg, hi]
    rintro rfl
    exact back (Option.some.inj (caught.symm.trans hi) ▸ rfl)
  cases step with
  | call slot' kind copy =>
    refine ⟨i, slot, loan, ?_⟩
    rw [List.getElem?_append_left (List.getElem?_eq_some_iff.mp hi).1, hi]
  | advance caught goes =>
    refine hmove caught ?_
    intro hphase
    simp [hphase] at goes
  | workTaken caught taken moves => exact hmove caught (by simp [taken])
  | work => exact ⟨i, slot, loan, hi⟩
  | settle => exact ⟨i, slot, loan, hi⟩
  | fill => exact ⟨i, slot, loan, hi⟩
  | write => exact ⟨i, slot, loan, hi⟩

theorem CallInvariant.quiet (h : CallInvariant K c key s) (stopped : Stopped s)
    (step : ConcurrentCalls.Step K c key s t) :
    t.abi.system.completions = s.abi.system.completions := by
  obtain ⟨i, slot, loan, hi⟩ := stopped
  obtain ⟨hhead, gone, empty⟩ := h.of_stopped hi
  have hfirst {j : Nat} {caller : Caller σ} (caught : s.callers[j]? = some caller)
      (hj : s.arrivals.head? = some j) : caller = ⟨slot, .stop, .returned .ok loan⟩ := by
    obtain rfl := Option.some.inj (hhead.symm.trans hj)
    exact Option.some.inj (caught.symm.trans hi)
  cases step with
  | @advance j caller next abi caught goes =>
    by_cases hj : s.arrivals.head? = some j
    · rw [hfirst caught hj] at goes
      simp at goes
    · exact quiet_advance gone (h.others j caller caught hj) goes
  | work present => simp [gone] at present
  | @workTaken j caller engine _ _ caught taken =>
    by_cases hj : s.arrivals.head? = some j
    · rw [hfirst caught hj] at taken
      cases taken
    · have hother := h.others j caller caught hj
      rw [taken] at hother
      generalize caller.kind = kind at hother
      cases hother
  | settle place ending =>
    exact congrArg System.completions (System.settle_of_nothing_open empty place ending)
  | call => rfl
  | fill => rfl
  | write => rfl

theorem CallInvariant.quiet_run (h : CallInvariant K c key s) (hkey : key ≠ 0) (stopped : Stopped s)
    (run : ConcurrentCalls.Run K c key s t) :
    Stopped t ∧ t.abi.system.completions = s.abi.system.completions := by
  induction run with
  | nil => exact ⟨stopped, rfl⟩
  | snoc run step ih => exact ⟨step.stopped ih.1, ((h.run hkey run).quiet ih.1 step).trans ih.2⟩

-- ---------------------------------------------------------------------------
-- The law of the race
-- ---------------------------------------------------------------------------

theorem CallInvariant.stop_status (h : CallInvariant K c key s)
    (caught : s.callers[i]? = some ⟨slot, .stop, .returned status loan⟩) :
    status = if s.arrivals.head? = some i then .ok else .clientInvalid := by
  split
  · next hi =>
    obtain ⟨first, hfirst, -, before⟩ := h.first i hi
    obtain rfl := Option.some.inj (hfirst.symm.trans caught)
    cases before
    rfl
  · next hi =>
    have hother := h.others i _ caught hi
    cases hother
    rfl

theorem CallInvariant.answered (h : CallInvariant K c key s)
    (caught : s.callers[i]? = some ⟨slot, .submit packet, .returned status loan⟩) :
    Answered packet status loan := by
  have hother := h.others i _ caught fun hi => by
    obtain ⟨first, hfirst, hkind, -⟩ := h.first i hi
    obtain rfl := Option.some.inj (hfirst.symm.trans caught)
    simp at hkind
  cases hother with
  | answered answer => exact answer

/-- The first stopper to reach the registry is answered with `ok`, and all others are turned
away. A submit that is answered with `ok` is called back for once, before the first stopper
returns; one that is not has no part in the calls back, which belong to the accepted packets one
to one. After that nobody is called back any more, and no caller is ever stuck. -/
theorem ConcurrentCalls.Run.race {m : Memory} {trace : Trace σ} {d : Abi σ} {context : UInt64}
    (before : System.Run { memory := m } trace d.system) (hkey : d.registry.next ≠ 0)
    (valid : K.Valid engine)
    (run : ConcurrentCalls.Run K d.newClient d.registry.next
      (opened d (.ofEngine cluster endpoints mode context engine)) s) :
    (∀ (i : Nat) slot status loan, s.callers[i]? = some ⟨slot, .stop, .returned status loan⟩ →
      status = if s.arrivals.head? = some i then .ok else .clientInvalid) ∧
    (∀ (i : Nat) slot packet status loan,
      s.callers[i]? = some ⟨slot, .submit packet, .returned status loan⟩ →
        (status = .ok → ∃ p place, packet = some p ∧ loan = some (p, place) ∧
          (s.abi.system.ended d.newClient ++ s.abi.system.loans d.newClient).count
            (p, place) = 1 ∧
          (Stopped s → (s.abi.system.ended d.newClient).count (p, place) = 1)) ∧
        (status ≠ .ok → loan = none)) ∧
    ((s.abi.system.ended d.newClient ++ s.abi.system.loans d.newClient).Perm
        (s.callers.filterMap (·.phase.loan?)) ∧
      (s.callers.filterMap (·.phase.loan?)).Nodup) ∧
    (Stopped s → ∀ t, ConcurrentCalls.Run K d.newClient d.registry.next s t →
      t.abi.system.completions = s.abi.system.completions) ∧
    ∀ (i : Nat) caller, s.callers[i]? = some caller → ∃ t status loan,
      ConcurrentCalls.Run K d.newClient d.registry.next s t ∧
        t.callers[i]? = some ⟨caller.slot, caller.kind, .returned status loan⟩ := by
  have h := (callInvariant_opened before hkey valid cluster endpoints mode context).run hkey run
  obtain ⟨issued, hb, haccount⟩ := h.account
  have hnodup := haccount.nodup_iff.mpr (nodup_zipIdx issued)
  have hloans := hb.loans.trans haccount.symm
  refine ⟨fun i slot status loan caught => h.stop_status caught, ?_, ⟨hloans, hnodup⟩, ?_, ?_⟩
  · intro i slot packet status loan caught
    have answer := h.answered caught
    constructor
    · intro hok
      obtain ⟨⟨p, place⟩, rfl⟩ := Option.isSome_iff_exists.mp (answer.1.mp hok)
      have hmem : (p, place) ∈ s.callers.filterMap (·.phase.loan?) :=
        List.mem_filterMap.mpr ⟨_, List.mem_of_getElem? caught, rfl⟩
      have honce := (hloans.count_eq (p, place)).trans (List.count_eq_one_of_mem hnodup hmem)
      refine ⟨p, place, answer.2 _ rfl, rfl, honce, ?_⟩
      rintro ⟨j, slot, loan, hstopped⟩
      rwa [(h.of_stopped hstopped).2.2, List.append_nil] at honce
    · intro hne
      exact Option.not_isSome_iff_eq_none.mp (mt answer.1.mpr hne)
  · intro stopped t more
    exact (h.quiet_run hkey stopped more).2
  · intro i caller caught
    obtain ⟨status, loan, e, alone⟩ :=
      uninterrupted_returns caller.slot caller.kind caller.phase s.abi
    obtain ⟨t, hrun, ht⟩ := alone.run rfl caught
    exact ⟨t, status, loan, hrun, ht⟩

/-- A submitter and two stoppers call a fresh client. The submitter finds it before the removal,
submits after it, and is the last but one to return. -/
def lateSubmit : ConcurrentCalls Echo :=
  { abi := (opened {} (.ofEngine .zero [] .echo 7 (Echo.start {} .native))).abi.write 0 { key := 1 }
    callers := [⟨0, .submit (some 3), .calling 1⟩, ⟨0, .stop, .calling 1⟩, ⟨0, .stop, .calling 1⟩] }

theorem race_lateSubmit :
    let s := lateSubmit.schedule [0, 1, 1, 2, 0, 1, 1, 1, 1, 0, 1]
    s.abi.system.ended 0 = [(3, 0)] ∧ Stopped s ∧
      ∀ t, ConcurrentCalls.Run Echo.custody 0 1 s t →
        t.abi.system.completions = s.abi.system.completions := by
  have hcalls : ConcurrentCalls.Run Echo.custody 0 1
      (opened {} (.ofEngine .zero [] .echo 7 (Echo.start {} .native))) lateSubmit :=
    (((ConcurrentCalls.Run.nil.snoc (.write 0 { key := 1 })).snoc
      (.call 0 (.submit (some 3)) (.inl rfl))).snoc (.call 0 .stop (.inl rfl))).snoc
      (.call 0 .stop (.inl rfl))
  have hstopped : Stopped (lateSubmit.schedule [0, 1, 1, 2, 0, 1, 1, 1, 1, 0, 1]) :=
    ⟨1, 0, none, rfl⟩
  have hrun := hcalls.trans (lateSubmit.run_schedule [0, 1, 1, 2, 0, 1, 1, 1, 1, 0, 1])
  have race := ConcurrentCalls.Run.race (d := {}) (System.Run.nil (s := {})) (by decide) trivial
    hrun
  exact ⟨by decide, hstopped, race.2.2.2.1 hstopped⟩

end Courier.Abi
