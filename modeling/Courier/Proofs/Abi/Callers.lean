import Courier.Abi
import Courier.Proofs.Client.References

/-!
# A call, step by step

Threads call the handle interface side by side. A call takes its steps one at a time,
and others may come between any two of them: it looks a client up or takes it out of
the registry under one lock, submits to the engine or takes it out of the client under
another, and holds no lock while it shuts an engine down. A call whose steps nobody
comes between is the call of the interface (`uninterrupted_submit`,
`uninterrupted_stop`), and no call ever has to wait (`uninterrupted_returns`).
-/

namespace Courier.Abi

open Courier.System (accepts)

inductive CallKind where
  | submit (packet : Option PacketId)
  | stop
deriving DecidableEq, Repr

inductive Phase (σ : Type) where
  /-- The key has been read from the slot. -/
  | calling (key : UInt64)
  /-- The submitter has a reference to the client. -/
  | found (c : ClientId) (packet : Option PacketId)
  | removed (c : ClientId)
  | zeroed (c : ClientId)
  | shutting (c : ClientId) (engine : σ)
  /-- The engine shuts down and has these packets left to end. -/
  | ending (c : ClientId) (left : List Settlement) (failed : Bool)
  /-- The answer is known. A packet that was accepted has its loan. -/
  | leaving (c : ClientId) (status : CallStatus) (loan : Option Loan)
  | returned (status : CallStatus) (loan : Option Loan)

def Phase.loan? {σ : Type} : Phase σ → Option Loan
  | leaving _ _ loan => loan
  | returned _ loan => loan
  | _ => none

structure Caller (σ : Type) where
  slot : SlotId
  kind : CallKind
  phase : Phase σ

variable {σ : Type} [Engine σ] {d e f : Abi σ} {slot : SlotId} {kind : CallKind}

def advance (d : Abi σ) (slot : SlotId) (kind : CallKind) : Phase σ → Option (Phase σ × Abi σ)
  | .calling key =>
    match kind with
    | .submit packet =>
      match d.find key with
      | (none, d) => some (.returned .clientInvalid none, d)
      | (some c, d) => some (.found c packet, d)
    | .stop =>
      match d.remove key with
      | (none, _) => some (.returned .clientInvalid none, d)
      | (some c, d) => some (.removed c, d)
  | .found c none => some (.leaving c .packetInvalid none, d)
  | .found c (some p) =>
    let (back, system) := d.system.submit c p
    let loan := if accepts back then some (p, d.system.nextPlace c) else none
    some (.leaving c (statusOf back) loan, { d with system })
  | .removed c => some (.zeroed c, d.write slot {})
  | .zeroed c =>
    match d.system.take c with
    | (none, system) =>
      some (.leaving c (statusOf (.value (.error .closed))) none, { d with system })
    | (some engine, system) => some (.shutting c engine, { d with system })
  | .shutting c engine =>
    let teardown := Engine.shutdown engine (d.system.hold c)
    some (.ending c teardown.settlements teardown.panicked,
      { d with system := d.system.log (.released c) })
  | .ending c (x :: left) failed =>
    some (.ending c left failed, { d with system := d.system.settle c x.place x.ending })
  | .ending c [] failed =>
    some (.leaving c (statusOf (if failed then .panicked else .value (.ok ()))) none,
      { d with system := d.system.abandon c })
  | .leaving c status loan => some (.returned status loan, (d.release c).2)
  | .returned .. => none

@[simp] theorem advance_returned (d : Abi σ) (slot : SlotId) (kind : CallKind) (status : CallStatus)
    (loan : Option Loan) : d.advance slot kind (.returned status loan) = none := rfl

/-- The steps of a caller whom nobody comes between. -/
inductive Uninterrupted (slot : SlotId) (kind : CallKind) : Phase σ → Abi σ → Phase σ → Abi σ → Prop
  | rest {phase d} : Uninterrupted slot kind phase d phase d
  | step {phase d next e last f} (goes : d.advance slot kind phase = some (next, e))
      (more : Uninterrupted slot kind next e last f) : Uninterrupted slot kind phase d last f

theorem Uninterrupted.ending_all (c : ClientId) (left : List Settlement) (failed : Bool)
    (d : Abi σ) :
    Uninterrupted slot kind (.ending c left failed) d (.ending c [] failed)
      { d with system := d.system.settleAll c left } := by
  induction left generalizing d with
  | nil => exact .rest
  | cons x left ih => exact .step rfl (ih _)

theorem Uninterrupted.trans {phase next last : Phase σ}
    (first : Uninterrupted slot kind phase d next e)
    (second : Uninterrupted slot kind next e last f) :
    Uninterrupted slot kind phase d last f := by
  induction first with
  | rest => exact second
  | step goes _ ih => exact .step goes (ih second)

-- ---------------------------------------------------------------------------
-- A stop on its own
-- ---------------------------------------------------------------------------

theorem uninterrupted_close (c : ClientId) (d : Abi σ) :
    Uninterrupted slot kind (.zeroed c) d (.returned (d.close c).1 none) (d.close c).2 := by
  cases he : d.system.engine? c with
  | none =>
    have htake : d.advance slot kind (.zeroed c) =
        some (.leaving c (statusOf (.value (.error .closed))) none, d) := by
      simp only [advance, System.take_of_closed he]
    have hclose : d.close c = (statusOf (.value (.error .closed)), (d.release c).2) := by
      rw [close, System.deinit_of_closed he]
    rw [hclose]
    exact .step htake (.step rfl .rest)
  | some engine =>
    have htake : d.advance slot kind (.zeroed c) =
        some (.shutting c engine, { d with system := d.system.withoutEngine c }) := by
      simp only [advance, System.take_of_open he]
    rw [close, System.deinit_of_open he]
    refine .step htake (.step rfl ((Uninterrupted.ending_all c _ _ _).trans ?_))
    exact .step rfl (.step rfl .rest)

theorem uninterrupted_stop (d : Abi σ) (slot : SlotId) :
    Uninterrupted slot .stop (.calling (d.slots slot).key) d (.returned (d.stop (some slot)).1 none)
      (d.stop (some slot)).2 := by
  cases hc : d.remove (d.slots slot).key with
  | mk c removed =>
    cases c with
    | none =>
      simp only [stop, hc]
      exact .step (by simp only [advance, hc]) .rest
    | some c =>
      simp only [stop, hc]
      refine .step (by simp only [advance, hc]; rfl) (.step rfl ?_)
      exact uninterrupted_close c _

-- ---------------------------------------------------------------------------
-- A submit on its own
-- ---------------------------------------------------------------------------

/-- A client that can still be called has not lost its last reference. -/
def Reachable (d : Abi σ) (slot : SlotId) : Prop :=
  ∀ c k, d.lookup (some slot) = some c → d.system.client? c = some k → k.isAlive

theorem uninterrupted_submit (alive : d.Reachable slot) (packet : Option PacketId) :
    ∃ loan, Uninterrupted slot (.submit packet) (.calling (d.slots slot).key) d
      (.returned (d.submit (some slot) packet).1 loan) (d.submit (some slot) packet).2 := by
  cases hc : d.registry.get? (d.slots slot).key with
  | none =>
    have hsubmit : d.submit (some slot) packet = (.clientInvalid, d) := by
      simp [submit, lookup, hc]
    rw [hsubmit]
    exact ⟨none, .step (by simp only [advance, find, hc]) .rest⟩
  | some c =>
    have hlookup : d.lookup (some slot) = some c := by simpa [lookup] using hc
    have hfind : d.advance slot (.submit packet) (.calling (d.slots slot).key) =
        some (.found c packet, { d with system := d.system.retain c }) := by
      simp only [advance, find, hc]
    cases packet with
    | none =>
      have hsubmit : d.submit (some slot) none = (.packetInvalid, d) := by
        simp only [submit, hlookup]
      have hrelease : (({ d with system := d.system.retain c } : Abi σ).release c).2 = d := by
        simp only [release, System.release_retain (alive c · hlookup)]
      rw [hsubmit]
      refine ⟨none, .step hfind (.step rfl (.step rfl ?_))⟩
      rw [hrelease]
      exact .rest
    | some p =>
      have hsubmit : d.submit (some slot) (some p) =
          (statusOf (d.system.submit c p).1, { d with system := (d.system.submit c p).2 }) := by
        simp only [submit, hlookup]
      obtain ⟨loan, hreach⟩ : ∃ loan, Abi.advance { d with system := d.system.retain c } slot
          (.submit (some p)) (.found c (some p)) = some
            (.leaving c (statusOf (d.system.submit c p).1) loan,
              { d with system := (d.system.submit c p).2.retain c }) :=
        ⟨_, by simp only [advance, System.submit_retain]; rfl⟩
      have halive := System.isAlive_submit (alive c · hlookup) p
      have hrelease : (({ d with system := (d.system.submit c p).2.retain c } : Abi σ).release
          c).2 = { d with system := (d.system.submit c p).2 } := by
        simp only [release, System.release_retain halive]
      rw [hsubmit]
      refine ⟨loan, .step hfind (.step hreach (.step rfl ?_))⟩
      rw [hrelease]
      exact .rest

-- ---------------------------------------------------------------------------
-- Every call returns
-- ---------------------------------------------------------------------------

def Returns (slot : SlotId) (kind : CallKind) (phase : Phase σ) (d : Abi σ) : Prop :=
  ∃ status loan e, Uninterrupted slot kind phase d (.returned status loan) e

theorem Returns.of_step {phase next : Phase σ} (goes : d.advance slot kind phase = some (next, e))
    (h : Returns slot kind next e) : Returns slot kind phase d := by
  obtain ⟨status, loan, f, more⟩ := h
  exact ⟨status, loan, f, .step goes more⟩

theorem returns_leaving (c : ClientId) (status : CallStatus) (loan : Option Loan) (d : Abi σ) :
    Returns slot kind (.leaving c status loan) d :=
  .of_step rfl ⟨status, loan, _, .rest⟩

theorem returns_ending (c : ClientId) (left : List Settlement) (failed : Bool) (d : Abi σ) :
    Returns slot kind (.ending c left failed) d := by
  obtain ⟨status, loan, f, more⟩ : Returns slot kind (.ending c [] failed)
      { d with system := d.system.settleAll c left } := .of_step rfl (returns_leaving c _ none _)
  exact ⟨status, loan, f, (Uninterrupted.ending_all c left failed d).trans more⟩

theorem returns_zeroed (c : ClientId) (d : Abi σ) : Returns slot kind (.zeroed c) d :=
  ⟨_, none, _, uninterrupted_close c d⟩

theorem uninterrupted_returns (slot : SlotId) (kind : CallKind) (phase : Phase σ) (d : Abi σ) :
    Returns slot kind phase d := by
  have hfound (c : ClientId) (packet : Option PacketId) (d : Abi σ) :
      Returns slot kind (.found c packet) d := by
    cases packet <;> exact .of_step rfl (returns_leaving c _ _ _)
  have hremoved (c : ClientId) (d : Abi σ) : Returns slot kind (.removed c) d :=
    .of_step rfl (returns_zeroed c _)
  cases phase with
  | calling key =>
    cases kind with
    | submit packet =>
      cases hfind : d.find key with
      | mk c e =>
        cases c with
        | none => exact .of_step (by simp only [advance, hfind]; rfl) ⟨_, _, _, .rest⟩
        | some c => exact .of_step (by simp only [advance, hfind]) (hfound c packet e)
    | stop =>
      cases hremove : d.remove key with
      | mk c e =>
        cases c with
        | none => exact .of_step (by simp only [advance, hremove]; rfl) ⟨_, _, _, .rest⟩
        | some c => exact .of_step (by simp only [advance, hremove]) (hremoved c e)
  | found c packet => exact hfound c packet d
  | removed c => exact hremoved c d
  | zeroed c => exact returns_zeroed c d
  | shutting c engine => exact .of_step rfl (returns_ending c _ _ _)
  | ending c left failed => exact returns_ending c left failed d
  | leaving c status loan => exact returns_leaving c status loan d
  | returned status loan => exact ⟨status, loan, d, .rest⟩

end Courier.Abi
