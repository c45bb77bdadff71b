import Courier.Config.Basic
import Courier.Config.Datum

/-!
# Reading a configuration

A document names fields with their values, in any order, or gives the values of
the first fields in the order of their declaration. A field that is not given
has its default. Reading goes from left to right and stops at the first thing
wrong; a name is judged before its value is.
-/

namespace Courier

namespace Config

inductive Field where
  | maxPayload
  | maxAddresses
  | defaultPort
  | workerName
  | connectTimeout
  | requestTimeout
deriving DecidableEq, Repr

namespace Field

def all : List Field :=
  [maxPayload, maxAddresses, defaultPort, workerName, connectTimeout, requestTimeout]

def name : Field → String
  | maxPayload => "max_payload_size"
  | maxAddresses => "max_addresses"
  | defaultPort => "default_port"
  | workerName => "worker_thread_name"
  | connectTimeout => "connect_timeout_ms"
  | requestTimeout => "request_timeout_ms"

def ofName? (name : String) : Option Field := all.find? (·.name == name)

end Field

inductive Wanted where
  | word16
  | word32
  | word64
  | size
  | text
  | document
deriving DecidableEq, Repr

def Wanted.description : Wanted → String
  | word16 => "u16"
  | word32 => "u32"
  | word64 => "u64"
  | size => "usize"
  | text => "a string"
  | document => "struct ClientConfig"

def Wanted.most : Wanted → Nat
  | word16 => 0xffff
  | word32 => 0xffffffff
  | word64 | size => 0xffffffffffffffff
  | text | document => 0

inductive Error where
  | unknownField (name : String)
  | duplicateField (field : Field)
  | invalidType (found : Datum) (wanted : Wanted)
  | outOfRange (found : Int) (wanted : Wanted)
  | tooManyItems (count : Nat)
deriving Repr

def Error.message : Error → String
  | unknownField name =>
    s!"unknown field \x60{name}\x60, expected one of " ++
      ", ".intercalate (Field.all.map fun field => s!"\x60{field.name}\x60")
  | duplicateField field => s!"duplicate field \x60{field.name}\x60"
  | invalidType found wanted =>
    s!"invalid type: {found.description}, expected {wanted.description}"
  | outOfRange found wanted =>
    s!"invalid value: {(Datum.integer found).description}, expected {wanted.description}"
  | tooManyItems count => s!"invalid length {count}, expected fewer elements in array"

def readWord (wanted : Wanted) : Datum → Except Error Nat
  | .integer n =>
    if 0 ≤ n ∧ n ≤ wanted.most then .ok n.toNat else .error (.outOfRange n wanted)
  | found => .error (.invalidType found wanted)

def readText : Datum → Except Error String
  | .text s => .ok s
  | found => .error (.invalidType found .text)

def readWord16 (d : Datum) : Except Error UInt16 := UInt16.ofNat <$> readWord .word16 d

def readWord32 (d : Datum) : Except Error UInt32 := UInt32.ofNat <$> readWord .word32 d

def readWord64 (d : Datum) : Except Error UInt64 := UInt64.ofNat <$> readWord .word64 d

def readSize (d : Datum) : Except Error UInt64 := UInt64.ofNat <$> readWord .size d

structure Draft where
  maxPayload : Option UInt32 := none
  maxAddresses : Option UInt64 := none
  defaultPort : Option UInt16 := none
  workerName : Option String := none
  connectTimeout : Option UInt64 := none
  requestTimeout : Option UInt64 := none

namespace Draft

def has (d : Draft) : Field → Bool
  | .maxPayload => d.maxPayload.isSome
  | .maxAddresses => d.maxAddresses.isSome
  | .defaultPort => d.defaultPort.isSome
  | .workerName => d.workerName.isSome
  | .connectTimeout => d.connectTimeout.isSome
  | .requestTimeout => d.requestTimeout.isSome

def read (d : Draft) (value : Datum) : Field → Except Error Draft
  | .maxPayload => return { d with maxPayload := some (← readWord32 value) }
  | .maxAddresses => return { d with maxAddresses := some (← readSize value) }
  | .defaultPort => return { d with defaultPort := some (← readWord16 value) }
  | .workerName => return { d with workerName := some (← readText value) }
  | .connectTimeout => return { d with connectTimeout := some (← readWord64 value) }
  | .requestTimeout => return { d with requestTimeout := some (← readWord64 value) }

def enter (d : Draft) (entry : String × Datum) : Except Error Draft :=
  match Field.ofName? entry.1 with
  | none => .error (.unknownField entry.1)
  | some field =>
    if d.has field then .error (.duplicateField field) else d.read entry.2 field

def finish (d : Draft) : Config :=
  let default : Config := {}
  { maxPayload := d.maxPayload.getD default.maxPayload
    maxAddresses := d.maxAddresses.getD default.maxAddresses
    defaultPort := d.defaultPort.getD default.defaultPort
    workerName := d.workerName.getD default.workerName
    connectTimeout := d.connectTimeout.getD default.connectTimeout
    requestTimeout := d.requestTimeout.getD default.requestTimeout }

end Draft

def ofEntries (entries : List (String × Datum)) : Except Error Config :=
  Draft.finish <$> entries.foldlM Draft.enter {}

def item {α : Type} (items : List Datum) (place : Nat) (read : Datum → Except Error α)
    (default : α) : Except Error α :=
  match items[place]? with
  | none => .ok default
  | some value => read value

/-- Surplus values are counted after the fields have been read. -/
def ofItems (items : List Datum) : Except Error Config := do
  let default : Config := {}
  let maxPayload ← item items 0 readWord32 default.maxPayload
  let maxAddresses ← item items 1 readSize default.maxAddresses
  let defaultPort ← item items 2 readWord16 default.defaultPort
  let workerName ← item items 3 readText default.workerName
  let connectTimeout ← item items 4 readWord64 default.connectTimeout
  let requestTimeout ← item items 5 readWord64 default.requestTimeout
  if 6 < items.length then
    throw (.tooManyItems items.length)
  return { maxPayload, maxAddresses, defaultPort, workerName, connectTimeout, requestTimeout }

def ofDatum : Datum → Except Error Config
  | .mapping entries => ofEntries entries
  | .sequence items => ofItems items
  | found => .error (.invalidType found .document)

end Config

end Courier
