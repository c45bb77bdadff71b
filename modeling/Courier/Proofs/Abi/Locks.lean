import Courier.Proofs.Abi.Submission
import Courier.Proofs.Abi.Tenants
import Mathlib.Data.List.Induction

/-!
# Locks and unwinding

Each engine stands behind a lock. A call that fails is unwound: what it has in its hands goes, the
last thing first, and a lock among these is poisoned. At the interface the unwinding ends, with the
status of a client that is not there. The engine is got at whether its lock is poisoned or not, so
calls taken apart like this do what they do as one (`submit_eq`, `stop_eq`).
-/

namespace Courier

open Courier.System (Answer)

inductive LockResult (α : Type) where
  | sound (content : α)
  | poisoned (content : α)

def LockResult.recover {α : Type} : LockResult α → α
  | sound content => content
  | poisoned content => content

/-- What a call has in its hands. -/
inductive Guard where
  /-- The packet that was submitted and is not ended yet. -/
  | token (c : ClientId) (place : Place)
  /-- An engine taken out of its client, with the packets that it holds. -/
  | engine (c : ClientId)
  | lock (c : ClientId)

/-- The interface with a lock before each engine. -/
structure LockedAbi (σ : Type) where
  abi : Abi σ := {}
  poisoned : ClientId → Bool := fun _ => false

namespace LockedAbi

variable {σ : Type} {l : LockedAbi σ} {c : ClientId} {p : PacketId}

def withSystem (l : LockedAbi σ) (system : System σ) : LockedAbi σ :=
  { l with abi := { l.abi with system } }

def lock (l : LockedAbi σ) (c : ClientId) : LockResult (Option σ) :=
  if l.poisoned c then .poisoned (l.abi.system.engine? c) else .sound (l.abi.system.engine? c)

def poison (l : LockedAbi σ) (c : ClientId) : LockedAbi σ :=
  { l with poisoned := fun d => d == c || l.poisoned d }

def unwind (l : LockedAbi σ) : Guard → LockedAbi σ
  | .token c place => l.withSystem (l.abi.system.settle c place .drop)
  | .engine c => l.withSystem (l.abi.system.abandon c)
  | .lock c => l.poison c

def unwindAll (l : LockedAbi σ) (guards : List Guard) : LockedAbi σ := guards.foldl unwind l

@[simp] theorem system_withSystem (l : LockedAbi σ) (system : System σ) :
    (l.withSystem system).abi.system = system := rfl

theorem recover_lock (l : LockedAbi σ) (c : ClientId) :
    (l.lock c).recover = l.abi.system.engine? c := by
  unfold lock
  split <;> rfl

section

variable [Launch σ]

/-- A submit has the lock throughout, and the packet in its hands until the engine answers. -/
def submitTo (l : LockedAbi σ) (c : ClientId) (p : PacketId) : Answer × LockedAbi σ :=
  match (l.lock c).recover with
  | none => (.value (.error .closed), l)
  | some engine =>
    let place := (l.abi.system.hold c).length
    let r := Engine.submit engine (l.abi.system.hold c) (l.abi.system.memory p)
    let l := l.withSystem (l.abi.system.offer c p r)
    match r.verdict with
    | .accepted => (.value (.ok ()), l)
    | .handedBack =>
      if ((l.abi.system.client? c).bind (·.packet? place)).isSome then
        (.value (.error .engineStopped), l.withSystem (l.abi.system.modify c (·.withdraw)))
      else (.value (.ok ()), l)
    | .panicked => (.panicked, l.unwindAll [.token c place, .lock c])

/-- A deinit has the lock only while it takes the engine, which goes in any case: at the end of the
call or while the call is unwound. -/
def deinit (l : LockedAbi σ) (c : ClientId) : Answer × LockedAbi σ :=
  match (l.lock c).recover with
  | none => (.value (.error .closed), l)
  | some engine =>
    let taken := l.abi.system.withoutEngine c
    let teardown := Engine.shutdown engine (taken.hold c)
    let l := l.withSystem ((taken.log (.released c)).settleAll c teardown.settlements)
    (if teardown.panicked then .panicked else .value (.ok ()), l.unwindAll [.engine c])

def submit (l : LockedAbi σ) (slot : Option SlotId) (packet : Option PacketId) :
    CallStatus × LockedAbi σ :=
  match l.abi.lookup slot with
  | none => (.clientInvalid, l)
  | some c =>
    match packet with
    | none => (.packetInvalid, l)
    | some p => (Abi.statusOf (l.submitTo c p).1, (l.submitTo c p).2)

def stop (l : LockedAbi σ) (slot : Option SlotId) : CallStatus × LockedAbi σ :=
  match slot with
  | none => (.clientInvalid, l)
  | some slot =>
    match l.abi.remove (l.abi.slots slot).key with
    | (none, _) => (.clientInvalid, l)
    | (some c, abi) =>
      let (back, l) := { l with abi := abi.write slot {} }.deinit c
      (Abi.statusOf back, { l with abi := (l.abi.release c).2 })

omit [Launch σ] in
def context (l : LockedAbi σ) (slot : Option SlotId) (out : Option UInt64) :
    CallStatus × Option UInt64 :=
  match l.abi.lookup slot with
  | none => (.clientInvalid, out)
  | some c =>
    match l.abi.system.client? c with
    | none => (.clientInvalid, out)
    | some k =>
      if (l.lock c).recover.isNone then (.clientInvalid, out)
      else
        match out with
        | none => (.invalidArgument, out)
        | some _ => (.ok, some k.context)

-- ---------------------------------------------------------------------------
-- Calls as one
-- ---------------------------------------------------------------------------

def after (l : LockedAbi σ) (c : ClientId) (system : System σ) : Answer → LockedAbi σ
  | .panicked => (l.withSystem system).poison c
  | .value _ => l.withSystem system

omit [Launch σ] in
theorem abi_after (l : LockedAbi σ) (c : ClientId) (system : System σ) (answer : Answer) :
    (l.after c system answer).abi = { l.abi with system } := by
  cases answer <;> rfl

theorem submitTo_eq (l : LockedAbi σ) (c : ClientId) (p : PacketId) :
    l.submitTo c p = ((l.abi.system.submit c p).1,
      l.after c (l.abi.system.submit c p).2 (l.abi.system.submit c p).1) := by
  cases hx : l.abi.system.engine? c with
  | none =>
    rw [System.submit_of_closed hx]
    simp only [submitTo, recover_lock, hx]
    rfl
  | some engine =>
    have hr : l.abi.system.reaction? c p =
        some (Engine.submit engine (l.abi.system.hold c) (l.abi.system.memory p)) := by
      rw [System.reaction?, hx]
      rfl
    rw [System.submit_of_reaction hr]
    simp only [submitTo, recover_lock, hx, System.length_hold, system_withSystem]
    generalize Engine.submit engine (l.abi.system.hold c) (l.abi.system.memory p) = r
    cases r.verdict with
    | accepted => rfl
    | panicked => rfl
    | handedBack =>
      simp only [System.nextPlace]
      by_cases hkept : (((l.abi.system.offer c p r).client? c).bind
          (·.packet? (l.abi.system.held c).length)).isSome = true
      · simp only [hkept, if_true]
        rfl
      · simp only [hkept, Bool.false_eq_true, if_false]
        rfl

theorem deinit_eq (l : LockedAbi σ) (c : ClientId) :
    l.deinit c = ((l.abi.system.deinit c).1, l.withSystem (l.abi.system.deinit c).2) := by
  cases hx : l.abi.system.engine? c with
  | none =>
    rw [System.deinit_of_closed hx]
    simp only [deinit, recover_lock, hx]
    rfl
  | some engine =>
    rw [System.deinit_of_open hx]
    simp only [deinit, recover_lock, hx]
    rfl

theorem submit_eq (l : LockedAbi σ) (slot : Option SlotId) (packet : Option PacketId) :
    (l.submit slot packet).1 = (l.abi.submit slot packet).1 ∧
      (l.submit slot packet).2.abi = (l.abi.submit slot packet).2 := by
  unfold submit Abi.submit
  cases l.abi.lookup slot with
  | none => exact ⟨rfl, rfl⟩
  | some c =>
    cases packet with
    | none => exact ⟨rfl, rfl⟩
    | some p =>
      simp only [submitTo_eq, abi_after, and_self]

theorem stop_eq (l : LockedAbi σ) (slot : Option SlotId) :
    (l.stop slot).1 = (l.abi.stop slot).1 ∧ (l.stop slot).2.abi = (l.abi.stop slot).2 := by
  cases slot with
  | none => exact ⟨rfl, rfl⟩
  | some slot =>
    cases found : l.abi.lookup (some slot) with
    | none =>
      obtain ⟨e, removed⟩ := Abi.remove_of_not_found found
      rw [Abi.stop_of_not_found found]
      simp only [stop, removed, and_self]
    | some c =>
      rw [Abi.stop_of_lookup found]
      simp only [stop, Abi.remove_of_lookup found, deinit_eq]
      exact ⟨rfl, rfl⟩

omit [Launch σ] in
theorem context_eq (l : LockedAbi σ) (slot : Option SlotId) (out : Option UInt64) :
    l.context slot out = l.abi.context slot out := by
  unfold context Abi.context
  cases l.abi.lookup slot with
  | none => rfl
  | some c =>
    simp only [recover_lock, Option.bind_some]
    cases hk : l.abi.system.client? c with
    | none => rfl
    | some k =>
      have hengine : l.abi.system.engine? c = k.engine := by simp [System.engine?, hk]
      simp only [hengine]
      rfl

end

end LockedAbi

-- ---------------------------------------------------------------------------
-- Commands
-- ---------------------------------------------------------------------------

variable {σ : Type} [Launch σ]

def Abi.reply (d : Abi σ) : Abi.Command σ → MultiTenant.Reply
  | .write .. | .register .. => .nothing
  | .start gate call => .started (d.start gate call).1
  | .submit slot packet => .called (d.submit slot packet).1
  | .stop slot => .called (d.stop slot).1
  | .behind op => .answered (d.system.act op).1

namespace LockedAbi

def exec (l : LockedAbi σ) : Abi.Command σ → MultiTenant.Reply × LockedAbi σ
  | .write slot h => (.nothing, { l with abi := l.abi.write slot h })
  | .start gate call =>
    (.started (l.abi.start gate call).1, { l with abi := (l.abi.start gate call).2 })
  | .register slot k => (.nothing, { l with abi := l.abi.register slot k.bare })
  | .submit slot packet => (.called (l.submit slot packet).1, (l.submit slot packet).2)
  | .stop slot => (.called (l.stop slot).1, (l.stop slot).2)
  | .behind (.submit c p) => (.answered (some (l.submitTo c p).1), (l.submitTo c p).2)
  | .behind (.deinit c) => (.answered (some (l.deinit c).1), (l.deinit c).2)
  | .behind op =>
    (.answered (l.abi.system.act op).1, l.withSystem (l.abi.system.act op).2)

def run (l : LockedAbi σ) (commands : List (Abi.Command σ)) : LockedAbi σ :=
  commands.foldl (fun l command => (l.exec command).2) l

/-- The locks make no difference to the host. -/
theorem exec_eq (l : LockedAbi σ) (command : Abi.Command σ) :
    (l.exec command).1 = l.abi.reply command ∧ (l.exec command).2.abi = l.abi.exec command := by
  cases command with
  | write | start | register => exact ⟨rfl, rfl⟩
  | submit slot packet => exact (l.submit_eq slot packet).imp_left (congrArg _)
  | stop slot => exact (l.stop_eq slot).imp_left (congrArg _)
  | behind op =>
    cases op with
    | submit c p =>
      simp only [exec, submitTo_eq, abi_after]
      exact ⟨rfl, rfl⟩
    | deinit c =>
      simp only [exec, deinit_eq]
      exact ⟨rfl, rfl⟩
    | _ => exact ⟨rfl, rfl⟩

theorem run_eq (l : LockedAbi σ) (commands : List (Abi.Command σ)) :
    (l.run commands).abi = commands.foldl Abi.exec l.abi := by
  induction commands generalizing l with
  | nil => rfl
  | cons command rest ih =>
    rw [List.foldl_cons, ← (l.exec_eq command).2]
    exact ih (l.exec command).2

theorem abi_run (l : LockedAbi σ) (commands : List (Abi.Command σ)) :
    ∃ trace, l.abi.Run trace (l.run commands).abi := by
  induction commands using List.reverseRecOn with
  | nil => exact ⟨[], .nil⟩
  | append_singleton commands command ih =>
    obtain ⟨trace, run⟩ := ih
    have hlast : (l.run (commands ++ [command])).abi = (l.run commands).abi.exec command := by
      rw [run_eq, run_eq, List.foldl_append, List.foldl_cons, List.foldl_nil]
    rw [hlast]
    exact ⟨_, run.snoc command⟩

end LockedAbi

end Courier
