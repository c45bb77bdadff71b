/-!
# Status codes

How a packet ended, and what the calls of the handle interface answer. The
codes are part of the interface and never change; the gaps in the codes of a
start are reserved.
-/

namespace Courier

/-- How a packet ended. -/
inductive Outcome where
  | ok
  | tooMuchData
  | invalidDataSize
  | clientShutdown
  | engineFailure
deriving DecidableEq, Repr

namespace Outcome

def code : Outcome → UInt8
  | ok => 0
  | tooMuchData => 1
  | invalidDataSize => 2
  | clientShutdown => 3
  | engineFailure => 4

def ofCode? (code : UInt8) : Option Outcome :=
  match code.toNat with
  | 0 => some ok
  | 1 => some tooMuchData
  | 2 => some invalidDataSize
  | 3 => some clientShutdown
  | 4 => some engineFailure
  | _ => none

theorem ofCode?_code (o : Outcome) : ofCode? o.code = some o := by cases o <;> rfl

end Outcome

inductive StartStatus where
  | ok
  | unexpected
  | outOfMemory
  | invalidAddress
  | addressLimitExceeded
  | systemResources
  | unsupported
  | invalidArgument
deriving DecidableEq, Repr

def StartStatus.code : StartStatus → UInt32
  | ok => 0
  | unexpected => 1
  | outOfMemory => 2
  | invalidAddress => 3
  | addressLimitExceeded => 4
  | systemResources => 6
  | unsupported => 8
  | invalidArgument => 9

inductive CallStatus where
  | ok
  | clientInvalid
  | packetInvalid
  | invalidArgument
deriving DecidableEq, Repr

def CallStatus.code : CallStatus → UInt32
  | ok => 0
  | clientInvalid => 1
  | packetInvalid => 2
  | invalidArgument => 3

end Courier
