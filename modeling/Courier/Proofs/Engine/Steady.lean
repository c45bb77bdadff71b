import Courier.Proofs.Engine.Custody
import Courier.Service

/-!
# Engines that do not fail

What handles ask of an engine. Packets are no matter here: a steady engine may keep
them after its shutdown, or hand all of them back.
-/

namespace Courier

structure Steady (σ : Type) [Launch σ] where
  Valid : σ → Prop
  launch_valid {mode cluster endpoints config gate e} :
    Launch.launch mode cluster endpoints config gate = .ok e → Valid e
  submit_calm (e : σ) (h : Hold) (p : Packet) :
    Valid e → (Engine.submit e h p).verdict ≠ .panicked
  submit_valid (e : σ) (h : Hold) (p : Packet) : Valid e → Valid (Engine.submit e h p).engine
  shutdown_calm (e : σ) (h : Hold) : Valid e → (Engine.shutdown e h).panicked = false

namespace Scripted

theorem engine_submit (s : Scripted) (h : Hold) (p : Packet) :
    (Engine.submit s h p).engine = s := by
  simp only [Engine.submit]
  split <;> rfl

theorem submit_calm {s : Scripted} (hs : s.onSubmit ≠ .panic) (h : Hold) (p : Packet) :
    (Engine.submit s h p).verdict ≠ .panicked := by
  simp only [Engine.submit]
  split
  · split <;> simp
  · simp
  · simp
  · simp
  · next failing => exact absurd failing hs

theorem shutdown_calm {s : Scripted} (hs : s.onShutdown ≠ .panic) (h : Hold) :
    (Engine.shutdown s h).panicked = false := by
  simp only [Engine.shutdown]
  split
  · rfl
  · rfl
  · rfl
  · rfl
  · next failing => exact absurd failing hs

end Scripted

namespace Service

def Calm : Service → Prop
  | .scripted s => s.onSubmit ≠ .panic ∧ s.onShutdown ≠ .panic
  | _ => True

def steady : Steady Service where
  Valid := Calm
  launch_valid {mode _ _ _ _ _} launched := by
    cases mode <;> exact Except.ok.inj launched ▸ trivial
  submit_calm e h p he := by
    cases e with
    | echo e => exact Echo.custody.submit_calm e h p trivial
    | forward w => exact Verdict.noConfusion
    | scripted s => exact Scripted.submit_calm he.1 h p
  submit_valid e h p he := by
    cases e with
    | echo | forward => trivial
    | scripted s =>
      change Calm (.scripted (Engine.submit s h p).engine)
      rw [s.engine_submit]
      exact he
  shutdown_calm e h he := by
    cases e with
    | echo | forward => rfl
    | scripted s => exact Scripted.shutdown_calm he.2 h

end Service

end Courier
