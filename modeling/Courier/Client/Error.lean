import Courier.Address.List
import Courier.Status

/-!
# Errors of a client

Why a client could not be started, why a call on one was refused, and the
status that each answers to the host.
-/

namespace Courier

inductive StartError where
  | address (error : Address.Error)
  | outOfMemory
  | systemResources (reason : String)
  | unsupported
  | invalidArgument (name : String)
deriving DecidableEq, Repr

inductive CallError where
  | closed
  | engineStopped
deriving DecidableEq, Repr

namespace StartError

def message : StartError → String
  | address error => "invalid address: " ++ error.message
  | outOfMemory => "out of memory: memory allocation failed because the computed capacity " ++
      "exceeded the collection's maximum"
  | systemResources reason => s!"cannot start engine: {reason}"
  | unsupported => "networking is not available in this host"
  | invalidArgument name => s!"invalid argument: {name}"

def status : StartError → StartStatus
  | address (.limitExceeded ..) => .addressLimitExceeded
  | address _ => .invalidAddress
  | outOfMemory => .outOfMemory
  | systemResources _ => .systemResources
  | unsupported => .unsupported
  | invalidArgument _ => .invalidArgument

end StartError

namespace CallError

def message : CallError → String
  | closed => "client is closed"
  | engineStopped => "engine has stopped"

def status : CallError → CallStatus
  | closed => .clientInvalid
  | engineStopped => .clientInvalid

end CallError

end Courier
