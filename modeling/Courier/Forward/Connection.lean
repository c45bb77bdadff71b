import Courier.Address.Ip
import Courier.Bytes

/-!
# Connections

One side of a stream connection: what has been written to it and read from it, each
in the portions in which it went over, what has arrived and not been read yet, and
whether anything more will arrive. Each connection has a channel of its own, given
when it was accepted.
-/

namespace Courier.Forward

structure Connection where
  endpoint : Address.Endpoint
  channel : Nat
  sent : List Bytes := []
  taken : List Bytes := []
  inbox : Bytes := []
  ended : Bool := false
deriving DecidableEq, Repr

namespace Connection

def written (c : Connection) : Bytes := c.sent.flatten

def consumed (c : Connection) : Bytes := c.taken.flatten

def arrived (c : Connection) : Bytes := c.consumed ++ c.inbox

def write (c : Connection) (bytes : Bytes) : Connection := { c with sent := c.sent ++ [bytes] }

def read (c : Connection) (count : Nat) : Bytes × Connection :=
  let bytes := c.inbox.take count
  (bytes, { c with taken := c.taken ++ [bytes], inbox := c.inbox.drop count })

def receive (c : Connection) (bytes : Bytes) : Connection :=
  { c with inbox := c.inbox ++ bytes }

def finish (c : Connection) : Connection := { c with ended := true }

end Connection

end Courier.Forward
