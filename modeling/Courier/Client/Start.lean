import Courier.Client.Basic
import Courier.Config.Basic
import Courier.Client.Error
import Courier.Gate

/-!
# Starting a client

A client that needs the network is refused by a restricted gate before anything
else is looked at. Then the addresses are read, and the engine is started last.

A launch may fail for want of memory or of threads (`StartError.outOfMemory`,
`StartError.systemResources`). What a host has left of either is not modelled, so
the engines here never do, but what a caller sees of such a failure is.
-/

namespace Courier

class Launch (σ : Type) extends Engine σ where
  launch : Mode → Cluster → List Address.Endpoint → Config → Gate → Except StartError σ

namespace Client

variable {σ : Type}

def ofEngine (cluster : Cluster) (endpoints : List Address.Endpoint) (mode : Mode)
    (context : UInt64) (engine : σ) : Client σ :=
  { cluster, endpoints, mode, context, engine := some engine }

def start [Launch σ] (mode : Mode) (cluster : Cluster) (addresses : Bytes) (context : UInt64)
    (config : Config) (gate : Gate) : Except StartError (Client σ) := do
  if mode = .native ∧ gate.allowsNative = false then
    throw .unsupported
  let endpoints ← (Address.parseBytes addresses config.maxAddresses.toNat
    config.defaultPort).mapError .address
  let engine ← Launch.launch mode cluster endpoints config gate
  return ofEngine cluster endpoints mode context engine

end Client

end Courier
