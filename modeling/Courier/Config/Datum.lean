import Courier.Decimal.Text
import Courier.Text.Quoted

/-!
# Values of a document

What a configuration is read from, whatever format carried it, and how such a
value is named in an error.
-/

namespace Courier

inductive Datum where
  | integer (n : Int)
  /-- A double, by its bits. -/
  | float (bits : UInt64)
  | text (s : String)
  | boolean (b : Bool)
  | null
  | sequence (items : List Datum)
  /-- Entries in the order in which they are read. -/
  | mapping (entries : List (String × Datum))
deriving Repr

namespace Datum

/-- A document has no place for a double without a bound or a value: it is null. -/
def ofDouble (bits : UInt64) : Datum :=
  match Decimal.Double.ofBits bits with
  | .finite .. => float bits
  | .infinite _ | .notANumber => null

def put (key : String) (value : Datum) : List (String × Datum) → List (String × Datum)
  | [] => [(key, value)]
  | (other, kept) :: rest =>
    if key < other then (key, value) :: (other, kept) :: rest
    else if key = other then (key, value) :: rest
    else (other, kept) :: put key value rest

def ofEntries (entries : List (String × Datum)) : Datum :=
  mapping (entries.foldl (fun kept entry => put entry.1 entry.2 kept) [])

/-- Sixteen digits in front of the point and four zeros behind it stay positional. -/
def floatLayout : Decimal.Layout := ⟨16, 4⟩

def description : Datum → String
  | integer n => s!"integer \x60{n}\x60"
  | float bits => "floating point \x60" ++ Decimal.text floatLayout bits ++ "\x60"
  | text s => "string " ++ Text.quote s
  | boolean b => s!"boolean \x60{b}\x60"
  | null => "null"
  | sequence _ => "sequence"
  | mapping _ => "map"

end Datum

end Courier
