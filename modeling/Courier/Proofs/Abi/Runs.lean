import Courier.Abi
import Courier.Proofs.Client.Closing

/-!
# Runs of the handle interface

Hosts may do as they like with their slots, and calls on the interface mix with
everything else that happens to clients. Each command comes down to some operations
on the clients behind the interface, so a run of the interface is a run of its clients
(`Run.system`) and keeps their laws.
-/

namespace Courier.Abi

open Courier.System (Op Trace perform submitted? issues issuedIn)

inductive Command (σ : Type) where
  /-- A host puts a record into a slot: zeroed, copied, kept too long or made up. -/
  | write (slot : SlotId) (h : Handle)
  | start (gate : Gate) (call : StartCall)
  /-- A client with an engine of any kind is registered. -/
  | register (slot : SlotId) (k : Client σ)
  | submit (slot : Option SlotId) (packet : Option PacketId)
  | stop (slot : Option SlotId)
  /-- Something happens to a client past the interface. -/
  | behind (op : Op σ)

variable {σ : Type} [Launch σ] {d e : Abi σ}

def exec (d : Abi σ) : Command σ → Abi σ
  | .write slot h => d.write slot h
  | .start gate call => (d.start gate call).2
  | .register slot k => d.register slot k.bare
  | .submit slot packet => (d.submit slot packet).2
  | .stop slot => (d.stop slot).2
  | .behind op => { d with system := (d.system.act op).2 }

def Command.ops (d : Abi σ) : Command σ → List (Op σ)
  | .write .. => []
  | .start gate call =>
    match call.slot, call.build gate with
    | some _, .ok k => [.start k]
    | _, _ => []
  | .register _ k => [.start k]
  | .submit slot packet =>
    match d.lookup slot, packet with
    | some c, some p => [.submit c p]
    | _, _ => []
  | .stop slot =>
    match slot.bind fun slot => (d.remove (d.slots slot).key).1 with
    | some c => [.deinit c, .release c]
    | none => []
  | .behind op => [op]

theorem bare_start {context : UInt64} {k : Client σ}
    (h : Client.start mode cluster addresses context config gate = .ok k) : k.bare = k := by
  simp only [Client.start, bind, Except.bind, pure, Except.pure, throw, throwThe,
    MonadExceptOf.throw] at h
  split at h
  · cases h
  · split at h
    · cases h
    · split at h
      · cases h
      · cases h
        rfl

theorem bare_build {call : StartCall} {k : Client σ} (h : call.build gate = .ok k) :
    k.bare = k := by
  simp only [StartCall.build, bind, Except.bind, throw, throwThe, MonadExceptOf.throw] at h
  split at h
  · cases h
  · split at h
    · cases h
    · split at h
      · cases h
      · exact bare_start h

theorem system_exec (d : Abi σ) (command : Command σ) :
    (d.exec command).system = (d.system.perform (command.ops d)).2 := by
  cases command with
  | write slot h => rfl
  | start gate call =>
    simp only [exec, start, Command.ops]
    cases call.slot with
    | none => rfl
    | some slot =>
      cases hk : call.build (σ := σ) gate with
      | error e => rfl
      | ok k => simp [perform, System.act, bare_build hk, register, add, write]
  | register slot k => rfl
  | submit slot packet =>
    simp only [exec, submit, Command.ops]
    cases d.lookup slot with
    | none => rfl
    | some c => cases packet <;> rfl
  | stop slot =>
    cases slot with
    | none => rfl
    | some slot =>
      simp only [exec, stop, Command.ops, Option.bind_some]
      cases hc : d.remove (d.slots slot).key with
      | mk c removed =>
        have hs : removed.system = d.system := (congrArg (·.2.system) hc).symm
        cases c with
        | none => rfl
        | some c =>
          simp only [close, release, write, hs]
          rfl
  | behind op => rfl

inductive Run (d : Abi σ) : Trace σ → Abi σ → Prop
  | nil : Run d [] d
  | snoc {trace e} (run : Run d trace e) (command : Command σ) :
      Run d (trace ++ (e.system.perform (command.ops e)).1) (e.exec command)

theorem Run.system (run : d.Run trace e) : d.system.Run trace e.system := by
  induction run with
  | nil => exact .nil
  | snoc _ command ih =>
    rw [system_exec]
    exact ih.append (System.run_perform _ _)

end Courier.Abi
