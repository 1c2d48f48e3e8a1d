import ColumnQuery.Text.Emoji
import ColumnQuery.Text.Width.Character

/-! # What follows a character

Some characters are drawn together with those after them and then take fewer columns, or more, than
each by itself. A line is therefore measured from its end, and a `Tail` says what the part already
measured begins with.
-/

namespace ColumnQuery.Text

/-- What the text after a character begins with, as far as it matters for the width. -/
inductive Tail where
  | plain
  | skinTone
  | flagLetter
  /-- More than one letter of flags. -/
  | flagLetters
  | emoji
  /-- A joiner before an emoji. -/
  | joinedEmoji
  /-- An enclosing keycap and a joiner before an emoji. -/
  | joinedKeycap
  /-- One letter of a flag, and a joiner before an emoji. -/
  | joinedFlagLetter
  /-- An even number of letters of flags, and a joiner before an emoji. -/
  | joinedFlags
  /-- An odd number of letters of flags greater than one, and a joiner before an emoji. -/
  | joinedOddFlags
  /-- Some tags for digits, some for letters and the last tag, and a joiner before an emoji. -/
  | tags (digits letters : Nat)
  | vowelE
  | vowelAi
  | alef
  /-- The letter lamed, or a joiner before it. -/
  | lamed (joined : Bool)
  /-- The letter ya, or a joiner before it. -/
  | ya (joined : Bool)
  /-- The vowel i and a joiner before the letter ya. -/
  | vowelYa
  /-- A consonant, or a joiner before it. -/
  | consonant (joined : Bool)
  /-- The joiner of consonants before a consonant. -/
  | pairedConsonant
  | toneLetter
  /-- The letter orkhon i, or a joiner before it. -/
  | orkhonI (joined : Bool)
  /-- A letter that can be written below another one. -/
  | subscribed
  deriving DecidableEq, Repr

namespace Tail

/-- The joiner of characters that are drawn as one. -/
def joiner : Char := Char.ofNat 0x200d

/-- The letters alef and those derived from it. -/
def alefRanges : List (Nat × Nat) :=
  [(0x622, 0x623), (0x625, 0x625), (0x627, 0x627), (0x671, 0x673), (0x675, 0x675), (0x773, 0x774),
    (0x870, 0x882)]

/-- The letters lam and those derived from it. -/
def lamRanges : List (Nat × Nat) :=
  [(0x644, 0x644), (0x6b5, 0x6b8), (0x76a, 0x76a), (0x8a6, 0x8a6), (0x8c7, 0x8c7)]

/-- The consonants of which two can be joined. -/
def consonantRanges : List (Nat × Nat) := [(0x2d31, 0x2d65), (0x2d6f, 0x2d6f)]

/-- The letters that can be written below another one. -/
def subscribedRanges : List (Nat × Nat) :=
  [(0x1780, 0x1782), (0x1784, 0x1787), (0x1789, 0x178c), (0x178e, 0x1793), (0x1795, 0x1798),
    (0x179b, 0x179d), (0x17a0, 0x17a0), (0x17a2, 0x17a2), (0x17a7, 0x17a7), (0x17ab, 0x17ac),
    (0x17af, 0x17af)]

/-- The tail that begins with a letter. -/
def ofLetter (c : Char) : Tail :=
  if inRanges alefRanges c then alef
  else if inRanges consonantRanges c then consonant false
  else if inRanges subscribedRanges c then subscribed
  else if inRanges [(0xa4fc, 0xa4fd)] c then toneLetter
  else if c.toNat = 0x5dc then lamed false
  else if c.toNat = 0x1a10 then ya false
  else if c.toNat = 0x10c03 then orkhonI false
  else if c.toNat = 0x16d67 then vowelE
  else if c.toNat = 0x16d68 then vowelAi
  else plain

/-- The width of a character that is not drawn together with what follows, and the tail that begins
with it. -/
def ofChar (c : Char) : Int × Tail :=
  if isFlagLetter c then (1, flagLetter)
  else if isSkinTone c then (2, skinTone)
  else if isPicture c then (2, emoji)
  else (charWidth c, ofLetter c)

/-- A tail that begins with a letter of a ligature. -/
def isLigature : Tail → Bool
  | alef | lamed _ | ya _ | vowelYa | consonant _ | pairedConsonant | toneLetter | orkhonI _
  | subscribed => true
  | _ => false

/-- A tail before which some ignorable characters make no difference. -/
def isPatient (tail : Tail) : Bool := tail.isLigature && tail != alef

/-- A joined emoji that can be joined to a picture before it. -/
def isJoinedPicture : Tail → Bool
  | joinedEmoji | joinedKeycap => true
  | _ => false

/-- The ignorable characters that make no difference before a patient tail. -/
def isSkipped (c : Char) : Bool :=
  inRanges [(0x34f, 0x34f), (0x17b4, 0x17b5), (0x180b, 0x180d), (0x180f, 0x180f),
    (0x200d, 0x200d), (0xfe00, 0xfe0f), (0xe0100, 0xe01ef)] c

/-- Put a joiner before a patient tail. -/
def join : Tail → Tail
  | lamed _ => lamed true
  | ya _ => ya true
  | consonant _ => consonant true
  | orkhonI _ => orkhonI true
  | tail => tail

/-- The change of the width and the new tail when a character before a tail of emoji is drawn
together with it. -/
def combineEmoji? (c : Char) : Tail → Option (Int × Tail)
  | skinTone =>
    if isToned c then some (0, emoji) else if c = joiner then some (0, joinedEmoji) else none
  | flagLetter => if isFlagLetter c then some (1, flagLetters) else none
  | flagLetters =>
    if isFlagLetter c then some (1, flagLetters)
    else if c = joiner then some (0, joinedEmoji)
    else none
  | emoji => if c = joiner then some (0, joinedEmoji) else none
  | joinedEmoji =>
    if c.toNat = 0x20e3 then some (0, joinedKeycap)
    else if isFlagLetter c then some (1, joinedFlagLetter)
    else if isSkinTone c then some (0, skinTone)
    else if c.toNat = 0xe007f then some (0, tags 0 0)
    else if isPicture c then some (0, emoji)
    else none
  | joinedFlagLetter => if isFlagLetter c then some (-1, joinedFlags) else none
  | joinedFlags =>
    if isFlagLetter c then some (3, joinedOddFlags)
    else if c = joiner then some (0, joinedEmoji)
    else none
  | joinedOddFlags =>
    if isFlagLetter c then some (-1, joinedFlags)
    else if c = joiner then some (0, joinedEmoji)
    else none
  | tags digits letters =>
    if isTagLetter c && digits = 0 && letters < 6 then some (0, tags 0 (letters + 1))
    else if isTagDigit c && digits < 3 && letters ≤ 4 then some (0, tags (digits + 1) letters)
    else if c.toNat = 0x1f3f4 && (digits = 3 || digits = 0 && 3 ≤ letters) then some (0, emoji)
    else none
  | _ => none

/-- The change of the width and the new tail when a character before a tail of letters is drawn
together with it. -/
def combineLetters? (c : Char) : Tail → Option (Int × Tail)
  | alef =>
    if inRanges lamRanges c then some (0, plain)
    else if isTransparent c then some (0, alef)
    else none
  | lamed true => if c.toNat = 0x5d0 then some (0, plain) else none
  | ya true => if c.toNat = 0x1a17 then some (0, vowelYa) else none
  | vowelYa => if c.toNat = 0x1a15 then some (0, plain) else none
  | consonant joined =>
    if c.toNat = 0x2d7f then some (1, pairedConsonant)
    else if joined && inRanges consonantRanges c then some (0, plain)
    else none
  | pairedConsonant => if inRanges consonantRanges c then some (-1, plain) else none
  | toneLetter => if inRanges [(0xa4f8, 0xa4fb)] c then some (0, plain) else none
  | orkhonI true => if c.toNat = 0x10c32 then some (0, plain) else none
  | subscribed => if c.toNat = 0x17d2 then some (-1, plain) else none
  | vowelE =>
    if c.toNat = 0x16d63 || c.toNat = 0x16d69 then some (0, plain)
    else if c.toNat = 0x16d67 then some (0, vowelAi)
    else if c.toNat = 0x16d68 then some (1, vowelE)
    else none
  | vowelAi => if c.toNat = 0x16d63 then some (0, plain) else none
  | _ => none

/-- The change of the width and the new tail when a character stands before a tail. -/
def prepend (c : Char) (tail : Tail) : Int × Tail :=
  (combineEmoji? c tail <|> combineLetters? c tail).getD (ofChar c)

end Tail

end ColumnQuery.Text
