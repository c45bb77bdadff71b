import Courier.Text.GraphemeExtend
import Courier.Text.Ignorable
import Courier.Text.Unprintable

/-!
# Quoted text

A text between double quotes, written so that every character of it can be
seen. The quote, the backslash and four controls have a short escape; what
extends a grapheme, is ignored or has no visible form is written by its code
point in lower hexadecimal digits.
-/

namespace Courier.Text

/-- The two halfwidth katakana voicing marks: the only letters that extend a
grapheme. They fill a cell of their own and can be seen standing alone. -/
def voicingMark : Ranges := [(0xff9e, 0xff9f)]

def isHidden (c : Char) : Bool :=
  (graphemeExtend.contains c && !voicingMark.contains c) || defaultIgnorable.contains c ||
    unprintable.contains c

def escape (c : Char) : List Char :=
  if c = '"' then ['\\', '"']
  else if c = '\\' then ['\\', '\\']
  else if c = '\x00' then ['\\', '0']
  else if c = '\t' then ['\\', 't']
  else if c = '\n' then ['\\', 'n']
  else if c = '\r' then ['\\', 'r']
  else if isHidden c then
    '\\' :: 'u' :: '\x7b' :: Nat.toDigits 16 c.toNat ++ ['\x7d']
  else [c]

def quote (text : String) : String :=
  String.ofList ('"' :: text.toList.flatMap escape ++ ['"'])

end Courier.Text
