import Courier.Address.Reader
import Courier.Bytes
import Courier.Text.Blank
import Courier.Text.Quoted

/-!
# Address lists

A list is a text with commas between its entries; blanks around an entry do not
count. An entry is a port of the loopback address, an endpoint, or an address
that gets the default port. The count of entries is checked before any of them
is read, and the leftmost entry that cannot be read is the one reported.
-/

namespace Courier.Address

inductive Error where
  | empty
  | notUtf8
  | malformed (entry : String)
  | limitExceeded (count limit : Nat)
deriving DecidableEq, Repr

def Error.message : Error → String
  | .empty => "address list is empty"
  | .notUtf8 => "address list is not valid UTF-8"
  | .malformed entry => "malformed address entry " ++ Text.quote entry
  | .limitExceeded count limit => s!"{count} addresses given, at most {limit} allowed"

def entries (text : List Char) : List (List Char) :=
  let (first, rest) := text.foldr
    (fun c (first, rest) => if c = ',' then ([], first :: rest) else (c :: first, rest)) ([], [])
  first :: rest

def parseEntry (entry : List Char) (defaultPort : UInt16) : Except Error Endpoint :=
  if entry = [] then .error (.malformed "")
  else if entry.all (isDigit 10) then
    let port := Numeral.value 10 entry
    if port ≤ 0xffff then .ok (.v4 .loopback (UInt16.ofNat port))
    else .error (.malformed (String.ofList entry))
  else
    match Reader.endpoint.whole? entry with
    | some endpoint => .ok endpoint
    | none =>
      match Reader.ip.whole? entry with
      | some ip => .ok (ip.at defaultPort)
      | none => .error (.malformed (String.ofList entry))

def parse (text : List Char) (limit : Nat) (defaultPort : UInt16) :
    Except Error (List Endpoint) :=
  if Text.trim text = [] then .error .empty
  else
    let found := entries text
    if limit < found.length then .error (.limitExceeded found.length limit)
    else found.mapM fun entry => parseEntry (Text.trim entry) defaultPort

def parseBytes (bytes : Bytes) (limit : Nat) (defaultPort : UInt16) :
    Except Error (List Endpoint) :=
  match bytes.toByteArray.utf8Decode? with
  | none => .error .notUtf8
  | some text => parse text.toList limit defaultPort

end Courier.Address
