import Courier.Client.Start
import Courier.Engine.Echo
import Courier.Engine.Scripted
import Courier.Forward.Worker

/-!
# The engines there are

An engine that echoes, one that forwards, or one that follows a script. Each
mode of a client has its engine; scripts are for scenarios only.
-/

namespace Courier

inductive Service where
  | echo (engine : Echo)
  | forward (engine : Forward.Worker)
  | scripted (engine : Scripted)
deriving Repr

namespace Service

def lift {σ : Type} (f : σ → Service) (r : Reaction σ) : Reaction Service :=
  { engine := f r.engine, settlements := r.settlements, verdict := r.verdict }

instance : Engine Service where
  submit
    | .echo e, h, p => lift .echo (Engine.submit e h p)
    | .forward w, h, p => lift .forward (Engine.submit w h p)
    | .scripted s, h, p => lift .scripted (Engine.submit s h p)
  shutdown
    | .echo e, h => Engine.shutdown e h
    | .forward w, h => Engine.shutdown w h
    | .scripted s, h => Engine.shutdown s h

instance : Launch Service where
  launch mode cluster endpoints config gate :=
    match mode with
    | .echo => .ok (.echo (Echo.start config gate))
    | .native => .ok (.forward (Forward.Worker.start config cluster endpoints))

end Service

end Courier
