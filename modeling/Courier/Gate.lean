/-!
# The capability gate

Whether the host gives out threads and sockets. A restricted host has echo
clients only, and they complete within the submit.
-/

namespace Courier

inductive Gate where
  | native
  | restricted
deriving DecidableEq, Repr

def Gate.allowsNative : Gate → Bool
  | native => true
  | restricted => false

end Courier
