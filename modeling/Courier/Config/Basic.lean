/-!
# Limits and times of a client
-/

namespace Courier

structure Config where
  /-- Bytes of the largest request or reply payload. -/
  maxPayload : UInt32 := 1048576
  /-- Entries of the longest address list. -/
  maxAddresses : UInt64 := 6
  /-- Port of an entry that names an address only. -/
  defaultPort : UInt16 := 3000
  workerName : String := "tb-client"
  /-- Milliseconds for connecting to one endpoint. -/
  connectTimeout : UInt64 := 5000
  /-- Milliseconds for one exchange. -/
  requestTimeout : UInt64 := 30000
deriving DecidableEq, Repr

end Courier
