import ColumnQuery.Text.Formless
import ColumnQuery.Text.Mark

/-! # Quoted texts

In a failure report a text stands between double quotes. Quotes and backslashes are preceded by a
backslash, the usual control characters have letters, and every other character that has no visible
form of its own is written by its code point.
-/

namespace ColumnQuery.Text

/-- A character by its code point. -/
def codePoint (c : Char) : List Char :=
  ['\\', 'u', '\x7b'] ++ Nat.toDigits 16 c.toNat ++ ['\x7d']

/-- A character that would show nothing inside quotes, or would change the quote before it. -/
def isHidden (c : Char) : Bool := isFormless c || isIgnorable c || isMark c

/-- A character inside quotes. -/
def escape : Char → List Char
  | '"' => ['\\', '"']
  | '\\' => ['\\', '\\']
  | '\n' => ['\\', 'n']
  | '\r' => ['\\', 'r']
  | '\t' => ['\\', 't']
  | '\x00' => ['\\', '0']
  | c => if isHidden c then codePoint c else [c]

def quote (text : String) : String :=
  "\"" ++ String.ofList (text.toList.flatMap escape) ++ "\""

end ColumnQuery.Text
