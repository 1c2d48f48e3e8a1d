/-! # Reading JSON

Readers take a text from its front and return what is left of it, or nothing where the text is not
JSON. Most values are only skipped: their form is checked and their content is dropped.
-/

namespace ColumnQuery.Json

def isBlank (c : Char) : Bool := c = ' ' || c = '\t' || c = '\n' || c = '\r'

def skipBlanks (text : List Char) : List Char := text.dropWhile isBlank

def hexDigit? (c : Char) : Option Nat :=
  if c.isDigit then some (c.toNat - '0'.toNat)
  else if 'a' ≤ c ∧ c ≤ 'f' then some (c.toNat - 'a'.toNat + 10)
  else if 'A' ≤ c ∧ c ≤ 'F' then some (c.toNat - 'A'.toNat + 10)
  else none

/-- The code unit that four hexadecimal digits denote. -/
def codeUnit? (a b c d : Char) : Option Nat := do
  return (((← hexDigit? a) * 16 + (← hexDigit? b)) * 16 + (← hexDigit? c)) * 16 + (← hexDigit? d)

/-- The character of an escape by one letter. -/
def shortEscape? : Char → Option Char
  | '"' => some '"'
  | '\\' => some '\\'
  | '/' => some '/'
  | 'b' => some '\x08'
  | 'f' => some '\x0c'
  | 'n' => some '\n'
  | 'r' => some '\r'
  | 't' => some '\t'
  | _ => none

/-- Code units that stand for a character together with the next one. -/
def isLeading (unit : Nat) : Bool := decide (0xd800 ≤ unit) && decide (unit < 0xdc00)

/-- Code units that stand for a character together with the one before. -/
def isTrailing (unit : Nat) : Bool := decide (0xdc00 ≤ unit) && decide (unit < 0xe000)

/-- The character of a pair of code units. -/
def pairChar (leading trailing : Nat) : Char :=
  Char.ofNat (0x10000 + (leading - 0xd800) * 0x400 + (trailing - 0xdc00))

/-- Read a text after its opening quote, up to its closing quote. -/
def readText : List Char → Option (List Char × List Char)
  | [] => none
  | '"' :: rest => some ([], rest)
  | '\\' :: 'u' :: a :: b :: c :: d :: rest => do
    let unit ← codeUnit? a b c d
    if isTrailing unit then none
    else if isLeading unit then
      match rest with
      | '\\' :: 'u' :: e :: f :: g :: h :: rest => do
        let next ← codeUnit? e f g h
        if isTrailing next then
          let (read, rest) ← readText rest
          return (pairChar unit next :: read, rest)
        else none
      | _ => none
    else
      let (read, rest) ← readText rest
      return (Char.ofNat unit :: read, rest)
  | '\\' :: c :: rest => do
    let escaped ← shortEscape? c
    let (read, rest) ← readText rest
    return (escaped :: read, rest)
  | c :: rest =>
    if c < ' ' then none
    else do
      let (read, rest) ← readText rest
      return (c :: read, rest)

/-- Skip a text after its opening quote. Code units need not form characters. -/
def skipText : List Char → Option (List Char)
  | [] => none
  | '"' :: rest => some rest
  | '\\' :: 'u' :: a :: b :: c :: d :: rest =>
    if (codeUnit? a b c d).isSome then skipText rest else none
  | '\\' :: c :: rest => if (shortEscape? c).isSome then skipText rest else none
  | c :: rest => if c < ' ' then none else skipText rest

/-- Skip at least one digit. -/
def skipDigits (text : List Char) : Option (List Char) :=
  match text.span Char.isDigit with
  | ([], _) => none
  | (_, rest) => some rest

/-- Skip the fraction of a number, if there is one. -/
def skipFraction : List Char → Option (List Char)
  | '.' :: rest => skipDigits rest
  | text => some text

/-- Skip a sign, if there is one. -/
def skipSign : List Char → List Char
  | '+' :: rest => rest
  | '-' :: rest => rest
  | text => text

/-- Skip the exponent of a number, if there is one. -/
def skipExponent : List Char → Option (List Char)
  | 'e' :: rest => skipDigits (skipSign rest)
  | 'E' :: rest => skipDigits (skipSign rest)
  | text => some text

/-- Read the whole part of a number: a zero alone, or digits that do not begin with one. -/
def readWhole (text : List Char) : Option (Nat × List Char) :=
  match text.span Char.isDigit with
  | ([], _) => none
  | ('0' :: _ :: _, _) => none
  | (digits, rest) =>
    some (digits.foldl (fun value c => 10 * value + (c.toNat - '0'.toNat)) 0, rest)

def skipNumber (text : List Char) : Option (List Char) := do
  let unsigned := match text with
    | '-' :: rest => rest
    | text => text
  let (_, rest) ← readWhole unsigned
  skipExponent (← skipFraction rest)

/-- Read a number that is written without sign, fraction and exponent. -/
def readNatural (text : List Char) : Option (Nat × List Char) := do
  let (value, rest) ← readWhole text
  match rest with
  | c :: _ => if c = '.' ∨ c = 'e' ∨ c = 'E' then none else return (value, rest)
  | [] => return (value, rest)

def skipWord (word text : List Char) : Option (List Char) :=
  if word.isPrefixOf text then some (text.drop word.length) else none

mutual

/-- Skip a value, within a number of nested steps. -/
def skipValue : Nat → List Char → Option (List Char)
  | 0, _ => none
  | steps + 1, text =>
    match skipBlanks text with
    | '"' :: rest => skipText rest
    | '[' :: rest =>
      match skipBlanks rest with
      | ']' :: rest => some rest
      | rest => skipElements steps rest
    | '\x7b' :: rest =>
      match skipBlanks rest with
      | '\x7d' :: rest => some rest
      | rest => skipMembers steps rest
    | 't' :: rest => skipWord ['r', 'u', 'e'] rest
    | 'f' :: rest => skipWord ['a', 'l', 's', 'e'] rest
    | 'n' :: rest => skipWord ['u', 'l', 'l'] rest
    | rest => skipNumber rest

/-- Skip the elements of an array and its closing bracket. -/
def skipElements : Nat → List Char → Option (List Char)
  | 0, _ => none
  | steps + 1, text => do
    let rest ← skipValue steps text
    match skipBlanks rest with
    | ']' :: rest => return rest
    | ',' :: rest => skipElements steps rest
    | _ => none

/-- Skip the members of an object and its closing bracket. -/
def skipMembers : Nat → List Char → Option (List Char)
  | 0, _ => none
  | steps + 1, text =>
    match skipBlanks text with
    | '"' :: rest => do
      let rest ← skipText rest
      match skipBlanks rest with
      | ':' :: rest =>
        let rest ← skipValue steps rest
        match skipBlanks rest with
        | '\x7d' :: rest => return rest
        | ',' :: rest => skipMembers steps rest
        | _ => none
      | _ => none
    | _ => none

end

end ColumnQuery.Json
