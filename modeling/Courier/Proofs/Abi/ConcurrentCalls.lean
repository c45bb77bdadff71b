import Courier.Proofs.Abi.Callers
import Courier.Proofs.Engine.Keeping
import Courier.Proofs.Lists
import Courier.Proofs.Registry

/-!
# Callers side by side

Any number of threads submit to a client and stop it, all with copies of one handle,
while the engine of the client does its work. `CallInvariant` is the invariant of this. The
first stopper to reach the registry has the client, everybody else can only have a
reference to it, and the open loans are in the keeping of the engine wherever that is,
or are about to end. Every step of every caller keeps to it (`CallInvariant.run`).
-/

namespace Courier.Abi

open Courier.System (accepts issues)

variable {σ : Type} [Engine σ]

/-- The interface in the middle of any number of calls. -/
structure ConcurrentCalls (σ : Type) where
  abi : Abi σ
  callers : List (Caller σ) := []
  /-- The stoppers that have come to the registry, in this order. -/
  arrivals : List Nat := []

def Caller.arrives {σ : Type} (caller : Caller σ) : Bool :=
  match caller.kind, caller.phase with
  | .stop, .calling key => key != 0
  | _, _ => false

/-- The caller has a reference to the client, or the one that the registry had. -/
def Phase.holds {σ : Type} : Phase σ → Bool
  | calling _ => false
  | returned .. => false
  | _ => true

namespace ConcurrentCalls

def withSystem (s : ConcurrentCalls σ) (system : System σ) : ConcurrentCalls σ :=
  { s with abi := { s.abi with system } }

def move (s : ConcurrentCalls σ) (i : Nat) (caller : Caller σ) (next : Phase σ) (abi : Abi σ) :
    ConcurrentCalls σ where
  abi := abi
  callers := s.callers.set i { caller with phase := next }
  arrivals := if caller.arrives then s.arrivals ++ [i] else s.arrivals

variable (K : Custody σ) (c : ClientId) (key : UInt64)

inductive Step : ConcurrentCalls σ → ConcurrentCalls σ → Prop
  /-- A thread calls with a copy of the handle, which may have been zeroed by another call. -/
  | call {s} (slot : SlotId) (kind : CallKind)
      (copy : (s.abi.slots slot).key = key ∨ (s.abi.slots slot).key = 0) :
      Step s { s with
        callers := s.callers ++ [⟨slot, kind, .calling (s.abi.slots slot).key⟩] }
  | advance {s i caller next abi} (caught : s.callers[i]? = some caller)
      (goes : s.abi.advance caller.slot caller.kind caller.phase = some (next, abi)) :
      Step s (s.move i caller next abi)
  | work {s engine settlements engine'} (present : s.abi.system.engine? c = some engine)
      (moves : K.Moves (s.abi.system.hold c) engine settlements engine') :
      Step s (s.withSystem (s.abi.system.react c engine' settlements))
  /-- So does the engine that has been taken out, before its shutdown. -/
  | workTaken {s i caller engine settlements engine'} (caught : s.callers[i]? = some caller)
      (taken : caller.phase = .shutting c engine)
      (moves : K.Moves (s.abi.system.hold c) engine settlements engine') :
      Step s (s.move i caller (.shutting c engine')
        { s.abi with system := s.abi.system.settleAll c settlements })
  | settle {s} (place : Place) (ending : Ending) :
      Step s (s.withSystem (s.abi.system.settle c place ending))
  | fill {s} (p : PacketId) (packet : Packet) :
      Step s (s.withSystem { s.abi.system with memory := s.abi.system.memory.set p packet })
  /-- The host copies, zeroes or makes up a record. -/
  | write {s} (slot : SlotId) (h : Handle) : Step s { s with abi := s.abi.write slot h }

inductive Run (s : ConcurrentCalls σ) : ConcurrentCalls σ → Prop
  | nil : Run s s
  | snoc {t u} (run : Run s t) (step : Step K c key t u) : Run s u

variable {K c key}

def schedule (s : ConcurrentCalls σ) : List Nat → ConcurrentCalls σ
  | [] => s
  | i :: order =>
    match s.callers[i]? with
    | none => s.schedule order
    | some caller =>
      match s.abi.advance caller.slot caller.kind caller.phase with
      | none => s.schedule order
      | some (next, abi) => (s.move i caller next abi).schedule order

theorem Run.trans {s t u : ConcurrentCalls σ} (first : Run K c key s t) (second : Run K c key t u) :
    Run K c key s u := by
  induction second with
  | nil => exact first
  | snoc _ step ih => exact ih.snoc step

theorem run_schedule (s : ConcurrentCalls σ) (order : List Nat) :
    Run K c key s (s.schedule order) := by
  induction order generalizing s with
  | nil => exact .nil
  | cons i order ih =>
    unfold schedule
    split
    · exact ih s
    · next caught =>
      split
      · exact ih s
      · next goes => exact (Run.nil.snoc (.advance caught goes)).trans (ih _)

end ConcurrentCalls

-- ---------------------------------------------------------------------------
-- The invariant
-- ---------------------------------------------------------------------------

variable {K : Custody σ} {c : ClientId} {key : UInt64} {s t : System σ}

def EngineKeeps (K : Custody σ) (s : System σ) (c : ClientId) : Prop :=
  ∃ engine, s.engine? c = some engine ∧ s.Covered K c engine

/-- How far the first stopper at the registry has come, and where the open loans are then. -/
inductive First (K : Custody σ) (s : System σ) (c : ClientId) : Phase σ → Prop
  | removed (engineKeeps : EngineKeeps K s c) : First K s c (.removed c)
  | zeroed (engineKeeps : EngineKeeps K s c) : First K s c (.zeroed c)
  | shutting {engine} (gone : s.engine? c = none) (covered : s.Covered K c engine) :
      First K s c (.shutting c engine)
  | ending {left} (gone : s.engine? c = none) (due : s.Due c left) :
      First K s c (.ending c left false)
  | leaving (gone : s.engine? c = none) (empty : s.loans c = []) : First K s c (.leaving c .ok none)
  | returned (gone : s.engine? c = none) (empty : s.loans c = []) : First K s c (.returned .ok none)

/-- A submit is answered with `ok` exactly if its packet is on loan. -/
def Answered (packet : Option PacketId) (status : CallStatus) (loan : Option Loan) : Prop :=
  (status = .ok ↔ loan.isSome) ∧ ∀ x ∈ loan, packet = some x.1

omit [Engine σ] in
theorem answered_submit (back : System.Answer) (p : PacketId) (place : Place) :
    Answered (some p) (statusOf back) (if accepts back then some (p, place) else none) := by
  constructor
  · rw [statusOf_eq_ok, ← System.accepts_iff]
    split <;> simp_all
  · split <;> simp

/-- How far all other callers can come. -/
inductive Other (c : ClientId) (key : UInt64) : CallKind → Phase σ → Prop
  | calling {kind k} (copy : k = key ∨ k = 0) : Other c key kind (.calling k)
  | found {packet} : Other c key (.submit packet) (.found c packet)
  | leaving {packet status loan} (answer : Answered packet status loan) :
      Other c key (.submit packet) (.leaving c status loan)
  | answered {packet status loan} (answer : Answered packet status loan) :
      Other c key (.submit packet) (.returned status loan)
  | refused : Other c key .stop (.returned .clientInvalid none)

structure CallInvariant (K : Custody σ) (c : ClientId) (key : UInt64) (s : ConcurrentCalls σ) :
    Prop where
  registry : s.abi.registry.get? key = if s.arrivals = [] then some c else none
  parties : s.abi.system.parties c =
    some ((if s.arrivals = [] then 1 else 0) + s.callers.countP (·.phase.holds), 0)
  /-- The packets on loan and those called back for are the accepted ones. -/
  account : ∃ issued, s.abi.system.Balanced c issued ∧
    (s.callers.filterMap (·.phase.loan?)).Perm issued.zipIdx
  engineKeeps : s.arrivals = [] → EngineKeeps K s.abi.system c
  first : ∀ i, s.arrivals.head? = some i → ∃ caller, s.callers[i]? = some caller ∧
    caller.kind = .stop ∧ First K s.abi.system c caller.phase
  others : ∀ i caller, s.callers[i]? = some caller → s.arrivals.head? ≠ some i →
    Other c key caller.kind caller.phase

-- ---------------------------------------------------------------------------
-- Where the open loans are
-- ---------------------------------------------------------------------------

theorem EngineKeeps.mono (h : EngineKeeps K s c) (engine : t.engine? c = s.engine? c)
    (loans : t.loans c ⊆ s.loans c) : EngineKeeps K t c := by
  obtain ⟨e, he, hcovered⟩ := h
  exact ⟨e, engine.trans he, hcovered.mono loans⟩

namespace First

variable {phase : Phase σ}

theorem mono (h : First K s c phase) (engine : t.engine? c = s.engine? c)
    (loans : t.loans c ⊆ s.loans c) : First K t c phase := by
  cases h with
  | removed engineKeeps => exact .removed (engineKeeps.mono engine loans)
  | zeroed engineKeeps => exact .zeroed (engineKeeps.mono engine loans)
  | shutting gone covered => exact .shutting (engine.trans gone) (covered.mono loans)
  | ending gone due => exact .ending (engine.trans gone) (due.mono loans)
  | leaving gone empty => exact .leaving (engine.trans gone) (List.subset_nil.mp (empty ▸ loans))
  | returned gone empty => exact .returned (engine.trans gone) (List.subset_nil.mp (empty ▸ loans))

/-- As long as the engine is there, the first stopper has not come to it. -/
theorem transfer (h : First K s c phase) (present : s.engine? c = some engine)
    (engineKeeps : EngineKeeps K t c) : First K t c phase := by
  cases h with
  | removed => exact .removed engineKeeps
  | zeroed => exact .zeroed engineKeeps
  | shutting gone => simp [gone] at present
  | ending gone => simp [gone] at present
  | leaving gone => simp [gone] at present
  | returned gone => simp [gone] at present

theorem covered (h : First K s c phase) (present : s.engine? c = some engine) :
    s.Covered K c engine := by
  cases h with
  | removed engineKeeps =>
    obtain ⟨e, he, hcovered⟩ := engineKeeps
    exact Option.some.inj (he.symm.trans present) ▸ hcovered
  | zeroed engineKeeps =>
    obtain ⟨e, he, hcovered⟩ := engineKeeps
    exact Option.some.inj (he.symm.trans present) ▸ hcovered
  | shutting gone => simp [gone] at present
  | ending gone => simp [gone] at present
  | leaving gone => simp [gone] at present
  | returned gone => simp [gone] at present

theorem holds (h : First K s c phase) (present : s.engine? c = some engine) :
    phase.holds = true := by
  cases h with
  | returned gone => simp [gone] at present
  | _ => rfl

theorem loan? (h : First K s c phase) : phase.loan? = none := by cases h <;> rfl

end First

omit [Engine σ] in
theorem Caller.arrives_eq_false {caller : Caller σ} (h : ∀ k, caller.phase ≠ .calling k) :
    caller.arrives = false := by
  unfold Caller.arrives
  split
  · next hphase => exact absurd hphase (h _)
  · rfl

-- ---------------------------------------------------------------------------
-- What a step has to keep
-- ---------------------------------------------------------------------------

namespace CallInvariant

variable {s : ConcurrentCalls σ} {e : Abi σ} {i : Nat} {caller : Caller σ} {next : Phase σ}

theorem keep (h : CallInvariant K c key s) (registry : e.registry = s.abi.registry)
    (parties : e.system.parties c = s.abi.system.parties c)
    (balanced : ∀ issued, s.abi.system.Balanced c issued → e.system.Balanced c issued)
    (engineKeeps : EngineKeeps K s.abi.system c → EngineKeeps K e.system c)
    (first : ∀ phase, First K s.abi.system c phase → First K e.system c phase) :
    CallInvariant K c key { s with abi := e } where
  registry := registry ▸ h.registry
  parties := parties.trans h.parties
  account := by
    obtain ⟨issued, hb, hloans⟩ := h.account
    exact ⟨issued, balanced issued hb, hloans⟩
  engineKeeps harrivals := engineKeeps (h.engineKeeps harrivals)
  first i hi := by
    obtain ⟨caller, hcaller, hkind, hfirst⟩ := h.first i hi
    exact ⟨caller, hcaller, hkind, first _ hfirst⟩
  others := h.others

omit [Engine σ] in
theorem head?_move (hj : j ≠ i) :
    (s.move i caller next e).arrivals.head? = some j ↔ s.arrivals.head? = some j := by
  unfold ConcurrentCalls.move
  simp only
  split
  · cases s.arrivals with
    | nil => simp [hj.symm]
    | cons first rest => simp
  · rfl

theorem move (h : CallInvariant K c key s) (caught : s.callers[i]? = some caller)
    (registry : e.registry.get? key =
      if (s.move i caller next e).arrivals = [] then some c else none)
    (parties : e.system.parties c =
      some ((if (s.move i caller next e).arrivals = [] then 1 else 0) +
        (s.callers.set i { caller with phase := next }).countP (·.phase.holds), 0))
    (account : ∃ issued, e.system.Balanced c issued ∧
      ((s.callers.set i { caller with phase := next }).filterMap (·.phase.loan?)).Perm
        issued.zipIdx)
    (engineKeeps : (s.move i caller next e).arrivals = [] → EngineKeeps K e.system c)
    (leads : (s.move i caller next e).arrivals.head? = some i →
      caller.kind = .stop ∧ First K e.system c next)
    (follows : (s.move i caller next e).arrivals.head? ≠ some i → Other c key caller.kind next)
    (first : s.arrivals.head? ≠ some i →
      ∀ phase, First K s.abi.system c phase → First K e.system c phase) :
    CallInvariant K c key (s.move i caller next e) where
  registry := registry
  parties := parties
  account := account
  engineKeeps := engineKeeps
  first j hj := by
    by_cases hij : i = j
    · subst hij
      exact ⟨_, by rw [ConcurrentCalls.move, getElem?_set_of_some caught, if_pos rfl], leads hj⟩
    · have hj' := (head?_move (Ne.symm hij)).mp hj
      obtain ⟨other, hother, hkind, hfirst⟩ := h.first j hj'
      have behind : s.arrivals.head? ≠ some i := fun hi => hij (Option.some.inj (hi.symm.trans hj'))
      refine ⟨other, ?_, hkind, first behind _ hfirst⟩
      rw [ConcurrentCalls.move, getElem?_set_of_some caught, if_neg hij, hother]
  others j other hother hj := by
    rw [ConcurrentCalls.move, getElem?_set_of_some caught] at hother
    split at hother
    · next hij =>
      subst hij
      obtain rfl := Option.some.inj hother
      exact follows hj
    · next hij => exact h.others j other hother (mt (head?_move (Ne.symm hij)).mpr hj)

/-- A step that takes no reference and gives none up, and has no packet accepted. -/
theorem move_same (h : CallInvariant K c key s) (caught : s.callers[i]? = some caller)
    (holds : next.holds = caller.phase.holds) (loan : next.loan? = caller.phase.loan?)
    (late : s.arrivals = [] → caller.arrives = false)
    (registry : e.registry = s.abi.registry)
    (parties : e.system.parties c = s.abi.system.parties c)
    (balanced : ∀ issued, s.abi.system.Balanced c issued → e.system.Balanced c issued)
    (engineKeeps : EngineKeeps K s.abi.system c → s.arrivals = [] → EngineKeeps K e.system c)
    (leads : s.arrivals.head? = some i → caller.kind = .stop ∧ First K e.system c next)
    (follows : s.arrivals.head? ≠ some i → Other c key caller.kind next)
    (first : s.arrivals.head? ≠ some i →
      ∀ phase, First K s.abi.system c phase → First K e.system c phase) :
    CallInvariant K c key (s.move i caller next e) := by
  have hhead : (s.move i caller next e).arrivals.head? = s.arrivals.head? := by
    unfold ConcurrentCalls.move
    simp only
    split
    · next harrives =>
      cases ha : s.arrivals with
      | nil => simp [late ha] at harrives
      | cons => rfl
    · rfl
  have hnil : (s.move i caller next e).arrivals = [] ↔ s.arrivals = [] := by
    rw [← List.head?_eq_none_iff, hhead, List.head?_eq_none_iff]
  refine h.move caught ?_ ?_ ?_ ?_ ?_ ?_ first
  · simp only [hnil]
    exact registry ▸ h.registry
  · simp only [hnil]
    rw [parties, h.parties, countP_set_same caught holds]
  · obtain ⟨issued, hb, hloans⟩ := h.account
    exact ⟨issued, balanced issued hb, (perm_filterMap_set_same caught loan).trans hloans⟩
  · exact fun ha => engineKeeps (h.engineKeeps (hnil.mp ha)) (hnil.mp ha)
  · exact hhead ▸ leads
  · exact hhead ▸ follows

-- ---------------------------------------------------------------------------
-- The steps of a caller
-- ---------------------------------------------------------------------------

omit [Engine σ] in
theorem arrivals_move_of_late (hlate : caller.arrives = false) :
    (s.move i caller next e).arrivals = s.arrivals := by
  simp [ConcurrentCalls.move, hlate]

theorem shared (h : CallInvariant K c key s) (caught : s.callers[i]? = some caller)
    (hholds : caller.phase.holds = true)
    (aside : ∀ engine, s.abi.system.engine? c = some engine → s.arrivals.head? ≠ some i)
    (present : s.abi.system.engine? c = some engine) :
    ∃ n m, s.abi.system.parties c = some (n + 2, m) := by
  let back : Caller σ := { caller with phase := .returned .ok none }
  have hcount : (s.callers.set i back).countP (·.phase.holds) + 1 =
      s.callers.countP (·.phase.holds) := countP_set_left caught hholds rfl
  by_cases ha : s.arrivals = []
  · refine ⟨(s.callers.set i back).countP (·.phase.holds), 0, h.parties.trans ?_⟩
    rw [if_pos ha, ← hcount, Nat.add_comm 1]
  · obtain ⟨j, hj⟩ : ∃ j, s.arrivals.head? = some j :=
      Option.isSome_iff_exists.mp (by simpa using ha)
    have hij : i ≠ j := fun hij => aside engine present (hij ▸ hj)
    obtain ⟨other, hother, -, hfirst⟩ := h.first j hj
    have hmem : other ∈ s.callers.set i back := by
      refine List.mem_of_getElem? (i := j) ?_
      rw [getElem?_set_of_some caught, if_neg hij, hother]
    have hpos : 0 < (s.callers.set i back).countP (·.phase.holds) :=
      List.countP_pos_iff.mpr ⟨other, hmem, hfirst.holds present⟩
    refine ⟨(s.callers.set i back).countP (·.phase.holds) - 1, 0, h.parties.trans ?_⟩
    rw [if_neg ha, ← hcount, Nat.zero_add]
    congr 2
    omega

theorem leave (h : CallInvariant K c key s) (caught : s.callers[i]? = some caller)
    (phase : caller.phase = .leaving c status loan)
    (leads : s.arrivals.head? = some i → caller.kind = .stop ∧
      s.abi.system.engine? c = none ∧ First K s.abi.system c (.returned status loan))
    (follows : s.arrivals.head? ≠ some i →
      Other c key caller.kind (.returned status loan : Phase σ)) :
    CallInvariant K c key (s.move i caller (.returned status loan) (s.abi.release c).2) := by
  have hholds : caller.phase.holds = true := by simp [phase, Phase.holds]
  have aside (engine : σ) (present : s.abi.system.engine? c = some engine) :
      s.arrivals.head? ≠ some i := by
    intro hi
    simp [(leads hi).2.1] at present
  have hsystem : (s.abi.release c).2.system = s.abi.system.withoutReference c :=
    System.release_of_shared fun engine present => h.shared caught hholds aside present
  have hengine := System.engine?_withoutReference s.abi.system c c
  have hloans : (s.abi.system.withoutReference c).loans c ⊆ s.abi.system.loans c :=
    fun _ hx => System.loans_withoutReference s.abi.system c c ▸ hx
  have harrivals : (s.move i caller (.returned status loan) (s.abi.release c).2).arrivals =
      s.arrivals := arrivals_move_of_late (Caller.arrives_eq_false (by simp [phase]))
  have hcount := countP_set_left (p := fun x => x.phase.holds)
    (b := { caller with phase := .returned status loan }) caught hholds rfl
  obtain ⟨issued, hb, haccount⟩ := h.account
  refine h.move caught ?_ ?_ ⟨issued, ?_, ?_⟩ ?_ ?_ ?_ ?_
  · rw [harrivals]
    exact h.registry
  · rw [harrivals, hsystem, System.parties_withoutReference, h.parties, ← hcount]
    rfl
  · exact hsystem ▸ hb.modify (fun _ => rfl) fun _ => rfl
  · exact (perm_filterMap_set_same caught (by simp [phase, Phase.loan?])).trans haccount
  · rw [harrivals, hsystem]
    exact fun ha => (h.engineKeeps ha).mono hengine hloans
  · rw [harrivals, hsystem]
    exact fun hi => ⟨(leads hi).1, (leads hi).2.2.mono hengine hloans⟩
  · rwa [harrivals]
  · rw [hsystem]
    exact fun _ _ hfirst => hfirst.mono hengine hloans

-- ---------------------------------------------------------------------------
-- The first stopper
-- ---------------------------------------------------------------------------

theorem move_first (h : CallInvariant K c key s) (caught : s.callers[i]? = some caller)
    (hi : s.arrivals.head? = some i) (kind : caller.kind = .stop)
    (before : First K s.abi.system c caller.phase) (after : First K e.system c next)
    (holds : next.holds = caller.phase.holds) (registry : e.registry = s.abi.registry)
    (parties : e.system.parties c = s.abi.system.parties c)
    (balanced : ∀ issued, s.abi.system.Balanced c issued → e.system.Balanced c issued) :
    CallInvariant K c key (s.move i caller next e) := by
  have harrivals : s.arrivals ≠ [] := by
    intro ha
    simp [ha] at hi
  refine h.move_same caught holds (after.loan?.trans before.loan?.symm)
    (fun ha => absurd ha harrivals) registry parties balanced (fun _ ha => absurd ha harrivals)
    (fun _ => ⟨kind, after⟩) (fun hne => absurd hi hne) fun hne => absurd hi hne

theorem advance_first (h : CallInvariant K c key s) (caught : s.callers[i]? = some caller)
    (hi : s.arrivals.head? = some i) (kind : caller.kind = .stop)
    (before : First K s.abi.system c caller.phase)
    (goes : s.abi.advance caller.slot caller.kind caller.phase = some (next, e)) :
    CallInvariant K c key (s.move i caller next e) := by
  obtain ⟨slot, _, phase⟩ := caller
  subst kind
  cases before with
  | removed engineKeeps =>
    simp only [advance, Option.some.injEq, Prod.mk.injEq] at goes
    obtain ⟨rfl, rfl⟩ := goes
    exact h.move_first caught hi rfl (.removed engineKeeps) (.zeroed engineKeeps) rfl rfl rfl
      fun _ hb => hb
  | zeroed engineKeeps =>
    obtain ⟨engine, present, covered⟩ := engineKeeps
    simp only [advance, System.take_of_open present, Option.some.injEq, Prod.mk.injEq] at goes
    obtain ⟨rfl, rfl⟩ := goes
    refine h.move_first caught hi rfl (.zeroed ⟨engine, present, covered⟩) (.shutting ?_ ?_) rfl rfl
      ?_ fun _ hb => hb.take c
    · obtain ⟨k, hk, -⟩ := System.client_of_engine present
      simp [System.engine?, hk]
    · exact covered.mono fun x hx => System.loans_withoutEngine s.abi.system c c ▸ hx
    · exact System.parties_modify (fun _ => rfl) fun _ => rfl
  | shutting gone covered =>
    simp only [advance, Option.some.injEq, Prod.mk.injEq] at goes
    obtain ⟨rfl, rfl⟩ := goes
    have hcalm := K.shutdown_calm _ (s.abi.system.hold c) covered.valid
    rw [hcalm]
    exact h.move_first caught hi rfl (.shutting gone covered) (.ending gone covered.due) rfl rfl rfl
      fun _ hb => hb.log rfl
  | @ending left gone due =>
    cases left with
    | nil =>
      simp only [advance, Option.some.injEq, Prod.mk.injEq] at goes
      obtain ⟨rfl, rfl⟩ := goes
      have hbare := System.bare_abandon s.abi.system c c
      have hempty : (s.abi.system.abandon c).loans c = [] := by
        have hsubset := System.loans_abandon_subset s.abi.system c
        rw [System.Due.nil.mp due] at hsubset
        exact List.subset_nil.mp hsubset
      exact h.move_first caught hi rfl (.ending gone due)
        (.leaving ((System.engine?_congr hbare).trans gone) hempty) rfl rfl
        (System.parties_congr hbare) fun _ hb => hb.abandon c
    | cons x left =>
      simp only [advance, Option.some.injEq, Prod.mk.injEq] at goes
      obtain ⟨rfl, rfl⟩ := goes
      have hbare := System.bare_settle s.abi.system c x.place x.ending c
      exact h.move_first caught hi rfl (.ending gone due)
        (.ending ((System.engine?_congr hbare).trans gone) due.settle) rfl rfl
        (System.parties_congr hbare) fun _ hb => hb.settle c x.place x.ending
  | leaving gone empty =>
    simp only [advance, Option.some.injEq, Prod.mk.injEq] at goes
    obtain ⟨rfl, rfl⟩ := goes
    exact h.leave caught rfl (fun _ => ⟨rfl, gone, .returned gone empty⟩) fun hne => absurd hi hne
  | returned => simp at goes

-- ---------------------------------------------------------------------------
-- All other callers
-- ---------------------------------------------------------------------------

theorem refuse (h : CallInvariant K c key s) (caught : s.callers[i]? = some caller)
    (aside : s.arrivals.head? ≠ some i) (phase : caller.phase = .calling k)
    (late : s.arrivals = [] → caller.arrives = false) :
    CallInvariant K c key (s.move i caller (.returned .clientInvalid none) s.abi) := by
  refine h.move_same caught (by simp [phase, Phase.holds]) (by simp [phase, Phase.loan?]) late rfl
    rfl (fun _ hb => hb) (fun hkeeps _ => hkeeps) (fun hi => absurd hi aside) (fun _ => ?_)
    fun _ _ hfirst => hfirst
  cases caller.kind with
  | submit packet => exact .answered ⟨by simp, by simp⟩
  | stop => exact .refused

theorem find (h : CallInvariant K c key s)
    (caught : s.callers[i]? = some ⟨slot, .submit packet, .calling k⟩)
    (aside : s.arrivals.head? ≠ some i) :
    CallInvariant K c key (s.move i ⟨slot, .submit packet, .calling k⟩ (.found c packet)
      { s.abi with system := s.abi.system.retain c }) := by
  have hengine : (s.abi.system.retain c).engine? c = s.abi.system.engine? c :=
    System.engine?_modify fun _ => rfl
  have hloans : (s.abi.system.retain c).loans c ⊆ s.abi.system.loans c :=
    fun _ hx => System.loans_retain s.abi.system c c ▸ hx
  have hcount := countP_set_joined (p := fun x => x.phase.holds)
    (b := ⟨slot, .submit packet, .found c packet⟩) caught rfl rfl
  obtain ⟨issued, hb, haccount⟩ := h.account
  refine h.move caught h.registry ?_ ⟨issued, hb.modify (fun _ => rfl) fun _ => rfl, ?_⟩
    (fun ha => (h.engineKeeps ha).mono hengine hloans) (fun hi => absurd hi aside) (fun _ => .found)
    fun _ _ hfirst => hfirst.mono hengine hloans
  · rw [System.parties_retain, h.parties, hcount]
    rfl
  · exact (perm_filterMap_set_same caught (by rfl)).trans haccount

theorem remove (h : CallInvariant K c key s) (hkey : key ≠ 0) (ha : s.arrivals = [])
    (caught : s.callers[i]? = some ⟨slot, .stop, .calling key⟩)
    (registry : e.registry.get? key = none) (system : e.system = s.abi.system) :
    CallInvariant K c key (s.move i ⟨slot, .stop, .calling key⟩ (.removed c) e) := by
  have harrivals : (s.move i ⟨slot, .stop, .calling key⟩ (.removed c) e).arrivals = [i] := by
    simp [ConcurrentCalls.move, Caller.arrives, hkey, ha]
  have hcount := countP_set_joined (p := fun x => x.phase.holds)
    (b := ⟨slot, .stop, .removed c⟩) caught rfl rfl
  obtain ⟨issued, hb, haccount⟩ := h.account
  refine h.move caught ?_ ?_ ⟨issued, system ▸ hb, ?_⟩ ?_ ?_ ?_ fun _ _ hfirst => system ▸ hfirst
  · simp [harrivals, registry]
  · rw [harrivals, system, h.parties, hcount, ha]
    simp [Nat.add_comm]
  · exact (perm_filterMap_set_same caught (by rfl)).trans haccount
  · simp [harrivals]
  · exact fun _ => ⟨rfl, .removed (system ▸ h.engineKeeps ha)⟩
  · simp [harrivals]

theorem covered (h : CallInvariant K c key s) (present : s.abi.system.engine? c = some engine) :
    s.abi.system.Covered K c engine := by
  by_cases ha : s.arrivals = []
  · obtain ⟨e, he, hcovered⟩ := h.engineKeeps ha
    exact Option.some.inj (he.symm.trans present) ▸ hcovered
  · obtain ⟨j, hj⟩ : ∃ j, s.arrivals.head? = some j :=
      Option.isSome_iff_exists.mp (by simpa using ha)
    obtain ⟨other, -, -, hfirst⟩ := h.first j hj
    exact hfirst.covered present

theorem submit (h : CallInvariant K c key s)
    (caught : s.callers[i]? = some ⟨slot, .submit (some p), .found c (some p)⟩)
    (aside : s.arrivals.head? ≠ some i) :
    CallInvariant K c key (s.move i ⟨slot, .submit (some p), .found c (some p)⟩
      (.leaving c (statusOf (s.abi.system.submit c p).1)
        (if accepts (s.abi.system.submit c p).1 then some (p, s.abi.system.nextPlace c) else none))
      { s.abi with system := (s.abi.system.submit c p).2 }) := by
  cases hengine : s.abi.system.engine? c with
  | none =>
    rw [System.submit_of_closed hengine]
    exact h.move_same caught rfl rfl (fun _ => rfl) rfl rfl (fun _ hb => hb)
      (fun hkeeps _ => hkeeps) (fun hi => absurd hi aside)
      (fun _ => .leaving (answered_submit _ p _)) fun _ _ hfirst => hfirst
  | some engine =>
    obtain ⟨hcalm, engine', present, covered⟩ := (h.covered hengine).submit hengine p
    obtain ⟨issued, hb, haccount⟩ := h.account
    have hissued := hb.submit c p
    simp only [true_and, System.issues_eq_accepts hcalm] at hissued
    refine h.move caught h.registry ?_ ⟨_, hissued, ?_⟩ (fun _ => ⟨engine', present, covered⟩)
      (fun hi => absurd hi aside) (fun _ => .leaving (answered_submit _ p _))
      fun _ _ hfirst => hfirst.transfer hengine ⟨engine', present, covered⟩
    · rw [System.parties_submit, h.parties, countP_set_same caught (by rfl)]
      rfl
    · have hperm := perm_filterMap_set (fun x : Caller σ => x.phase.loan?) caught
        ⟨slot, .submit (some p), .leaving c (statusOf (s.abi.system.submit c p).1)
          (if accepts (s.abi.system.submit c p).1 then some (p, s.abi.system.nextPlace c)
            else none)⟩
      refine List.Perm.trans hperm ?_
      change ((if accepts (s.abi.system.submit c p).1 then some (p, s.abi.system.nextPlace c)
        else none).toList ++ _).Perm _
      split
      · rw [Option.toList_some, List.zipIdx_append, System.nextPlace, hb.length_held]
        refine (List.perm_append_comm.trans (haccount.append_right _)).trans ?_
        simp
      · simpa using haccount

theorem found (h : CallInvariant K c key s) (copy : k = key ∨ k = 0)
    (hfound : s.abi.registry.get? k = some other) : k = key ∧ other = c ∧ s.arrivals = [] := by
  obtain rfl : k = key := copy.resolve_right (by rintro rfl; simp at hfound)
  rw [h.registry] at hfound
  split at hfound
  · next ha => exact ⟨rfl, (Option.some.inj hfound).symm, ha⟩
  · cases hfound

theorem advance_finding (h : CallInvariant K c key s) (copy : k = key ∨ k = 0)
    (caught : s.callers[i]? = some ⟨slot, .submit packet, .calling k⟩)
    (aside : s.arrivals.head? ≠ some i)
    (goes : s.abi.advance slot (.submit packet) (.calling k) = some (next, e)) :
    CallInvariant K c key (s.move i ⟨slot, .submit packet, .calling k⟩ next e) := by
  simp only [advance, Abi.find] at goes
  cases hfound : s.abi.registry.get? k with
  | none =>
    simp only [hfound, Option.some.injEq, Prod.mk.injEq] at goes
    obtain ⟨rfl, rfl⟩ := goes
    exact h.refuse caught aside rfl fun _ => rfl
  | some other =>
    obtain ⟨-, rfl, -⟩ := h.found copy hfound
    simp only [hfound, Option.some.injEq, Prod.mk.injEq] at goes
    obtain ⟨rfl, rfl⟩ := goes
    exact h.find caught aside

theorem advance_removing (h : CallInvariant K c key s) (hkey : key ≠ 0) (copy : k = key ∨ k = 0)
    (caught : s.callers[i]? = some ⟨slot, .stop, .calling k⟩)
    (aside : s.arrivals.head? ≠ some i)
    (goes : s.abi.advance slot .stop (.calling k) = some (next, e)) :
    CallInvariant K c key (s.move i ⟨slot, .stop, .calling k⟩ next e) := by
  simp only [advance, Abi.remove, Registry.remove_eq] at goes
  cases hfound : s.abi.registry.get? k with
  | none =>
    simp only [hfound, Option.some.injEq, Prod.mk.injEq] at goes
    obtain ⟨rfl, rfl⟩ := goes
    refine h.refuse caught aside rfl ?_
    intro ha
    rcases copy with rfl | rfl
    · simp [h.registry, ha] at hfound
    · rfl
  | some other =>
    obtain ⟨rfl, rfl, ha⟩ := h.found copy hfound
    simp only [hfound, Option.some.injEq, Prod.mk.injEq] at goes
    obtain ⟨rfl, rfl⟩ := goes
    refine h.remove hkey ha caught ?_ rfl
    rw [if_neg hkey]
    exact s.abi.registry.get?_erase k

theorem advance_other (h : CallInvariant K c key s) (hkey : key ≠ 0)
    (caught : s.callers[i]? = some caller) (aside : s.arrivals.head? ≠ some i)
    (before : Other c key caller.kind caller.phase)
    (goes : s.abi.advance caller.slot caller.kind caller.phase = some (next, e)) :
    CallInvariant K c key (s.move i caller next e) := by
  obtain ⟨slot, kind, phase⟩ := caller
  cases before with
  | @calling _ k copy =>
    cases kind with
    | submit packet => exact h.advance_finding copy caught aside goes
    | stop => exact h.advance_removing hkey copy caught aside goes
  | @found packet =>
    cases packet with
    | none =>
      simp only [advance, Option.some.injEq, Prod.mk.injEq] at goes
      obtain ⟨rfl, rfl⟩ := goes
      exact h.move_same caught rfl rfl (fun _ => rfl) rfl rfl (fun _ hb => hb)
        (fun hkeeps _ => hkeeps) (fun hi => absurd hi aside)
        (fun _ => .leaving ⟨by simp, by simp⟩) fun _ _ hfirst => hfirst
    | some p =>
      simp only [advance, Option.some.injEq, Prod.mk.injEq] at goes
      obtain ⟨rfl, rfl⟩ := goes
      exact h.submit caught aside
  | leaving answer =>
    simp only [advance, Option.some.injEq, Prod.mk.injEq] at goes
    obtain ⟨rfl, rfl⟩ := goes
    exact h.leave caught rfl (fun hi => absurd hi aside) fun _ => .answered answer
  | answered => simp at goes
  | refused => simp at goes

-- ---------------------------------------------------------------------------
-- Every step, and every run
-- ---------------------------------------------------------------------------

theorem call (h : CallInvariant K c key s) (slot : SlotId) (kind : CallKind) {k : UInt64}
    (copy : k = key ∨ k = 0) :
    CallInvariant K c key { s with callers := s.callers ++ [⟨slot, kind, .calling k⟩] } where
  registry := h.registry
  parties := by
    rw [List.countP_append]
    exact h.parties
  account := by
    obtain ⟨issued, hb, hloans⟩ := h.account
    refine ⟨issued, hb, ?_⟩
    rw [List.filterMap_append]
    exact (List.append_nil _).symm ▸ hloans
  engineKeeps := h.engineKeeps
  first i hi := by
    obtain ⟨caller, hcaller, hfirst⟩ := h.first i hi
    exact ⟨caller, by
      rw [List.getElem?_append_left (List.getElem?_eq_some_iff.mp hcaller).1, hcaller], hfirst⟩
  others i caller hcaller hi := by
    rw [List.getElem?_append] at hcaller
    split at hcaller
    · exact h.others i caller hcaller hi
    · obtain rfl := List.mem_singleton.mp (List.mem_of_getElem? hcaller)
      exact .calling copy

theorem step (h : CallInvariant K c key s) (hkey : key ≠ 0)
    (step : ConcurrentCalls.Step K c key s s') : CallInvariant K c key s' := by
  cases step with
  | call slot kind copy => exact h.call slot kind copy
  | @advance i caller next abi caught goes =>
    by_cases hi : s.arrivals.head? = some i
    · obtain ⟨first, hfirst, hkind, before⟩ := h.first i hi
      obtain rfl := Option.some.inj (hfirst.symm.trans caught)
      exact h.advance_first caught hi hkind before goes
    · exact h.advance_other hkey caught hi (h.others i caller caught hi) goes
  | @work engine settlements engine' present moves =>
    have hkeeps : EngineKeeps K (s.abi.system.react c engine' settlements) c :=
      let ⟨_, hk, _⟩ := System.client_of_engine present
      ⟨engine', System.engine?_react hk engine' settlements, (h.covered present).react moves⟩
    exact h.keep rfl (System.parties_react _ c engine' settlements)
      (fun _ hb => hb.react c engine' settlements) (fun _ => hkeeps)
      fun _ hfirst => hfirst.transfer present hkeeps
  | @workTaken i caller engine settlements engine' caught taken moves =>
    by_cases hi : s.arrivals.head? = some i
    · obtain ⟨first, hfirst, hkind, before⟩ := h.first i hi
      obtain rfl := Option.some.inj (hfirst.symm.trans caught)
      have hbare := System.bare_settleAll s.abi.system c settlements c
      have after : First K (s.abi.system.settleAll c settlements) c (.shutting c engine') := by
        rw [taken] at before
        cases before with
        | shutting gone covered =>
          exact .shutting ((System.engine?_congr hbare).trans gone) (covered.settleAll moves)
      exact h.move_first caught hi hkind before after (by rw [taken]; rfl) rfl
        (System.parties_congr hbare) fun _ hb => hb.settleAll c settlements
    · have hother := h.others i caller caught hi
      rw [taken] at hother
      generalize caller.kind = kind at hother
      cases hother
  | settle place ending =>
    have hengine := System.engine?_congr (System.bare_settle s.abi.system c place ending c)
    have hloans : (s.abi.system.settle c place ending).loans c ⊆ s.abi.system.loans c :=
      fun _ hx => (System.mem_loans_settle hx).1
    exact h.keep rfl (System.parties_congr (System.bare_settle s.abi.system c place ending c))
      (fun _ hb => hb.settle c place ending) (fun hkeeps => hkeeps.mono hengine hloans)
      fun _ hfirst => hfirst.mono hengine hloans
  | fill p packet =>
    refine h.keep rfl rfl (fun _ hb => hb.congr rfl rfl rfl) (fun hkeeps => ?_) fun _ hfirst => ?_
    · exact hkeeps.mono rfl (List.Subset.refl _)
    · exact hfirst.mono rfl (List.Subset.refl _)
  | write slot r => exact h.keep rfl rfl (fun _ hb => hb) id fun _ => id

theorem run (h : CallInvariant K c key s) (hkey : key ≠ 0)
    (run : ConcurrentCalls.Run K c key s s') : CallInvariant K c key s' := by
  induction run with
  | nil => exact h
  | snoc _ step ih => exact ih.step hkey step

end CallInvariant

end Courier.Abi
