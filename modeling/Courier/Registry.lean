import Courier.Client.Basic

/-!
# The registry

Clients under keys that count up from one. A key that was given out is never
given out again, and zero is no key, so a record that was zeroed, kept too long
or made up finds nothing.
-/

namespace Courier

structure Registry where
  next : UInt64 := 1
  /-- In the order of registration. -/
  entries : List (UInt64 × ClientId) := []
deriving DecidableEq, Repr

namespace Registry

def size (r : Registry) : Nat := r.entries.length

def keys (r : Registry) : List UInt64 := r.entries.map (·.1)

def erase (r : Registry) (key : UInt64) : Registry :=
  { r with entries := r.entries.filter (·.1 != key) }

def register (r : Registry) (c : ClientId) : UInt64 × Registry :=
  (r.next, { next := r.next + 1, entries := (r.erase r.next).entries ++ [(r.next, c)] })

def get? (r : Registry) (key : UInt64) : Option ClientId :=
  if key = 0 then none else r.entries.lookup key

/-- Only the first caller for a key gets its client. -/
def remove (r : Registry) (key : UInt64) : Option ClientId × Registry :=
  if key = 0 then (none, r) else (r.entries.lookup key, r.erase key)

end Registry

end Courier
