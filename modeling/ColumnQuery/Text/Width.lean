import ColumnQuery.Text.Width.Tail

/-! # Widths on the screen

The width of a line is measured from its end, so that each character is met after what it may be
drawn together with. A variation selector chooses the style of the character before it; some
ligatures bear it in between.
-/

namespace ColumnQuery.Text

/-- What follows a character: a tail, before it perhaps selectors. -/
structure Context where
  tail : Tail
  asPicture : Bool
  asText : Bool
  asFullWidth : Bool
  deriving DecidableEq, Repr

namespace Context

def ofTail (tail : Tail) : Context := ⟨tail, false, false, false⟩

/-- Put the selector of the picture style before a context. -/
def selectPicture (context : Context) : Context :=
  if context.tail.isLigature then { context with asPicture := true }
  else if context.tail.isJoinedPicture then { ofTail context.tail with asPicture := true }
  else { ofTail .plain with asPicture := true }

/-- Put the selector of the text style before a context. -/
def selectText (context : Context) : Context :=
  if context.tail.isLigature then { context with asText := true }
  else { ofTail .plain with asText := true }

/-- Put the selector of the full width before a context. -/
def selectFullWidth (context : Context) : Context :=
  if context.tail.isLigature then { context with asFullWidth := true }
  else { ofTail .plain with asFullWidth := true }

/-- A context whose selector of the picture style selects nothing. -/
def withoutPicture (context : Context) : Context :=
  if context.tail.isLigature then { context with asPicture := false } else ofTail .plain

/-- The quotation marks that can take the full width. -/
def isQuotation (c : Char) : Bool := inRanges [(0x2018, 0x2019), (0x201c, 0x201d)] c

/-- The change of the width and the new context when a character that is no selector stands before
a tail. -/
def prependUnstyled (c : Char) (tail : Tail) : Int × Context :=
  if tail.isPatient && c = Tail.joiner then (0, ofTail tail.join)
  else if tail.isPatient && Tail.isSkipped c then (0, ofTail tail)
  else
    let (added, tail) := tail.prepend c
    (added, ofTail tail)

/-- The change of the width and the new context when a character stands before a context without a
selector of the picture style. A selector that selects nothing is passed over. -/
def prependUnpictured (c : Char) (context : Context) : Int × Context :=
  if c.toNat ≤ 0xa0 then (1, ofTail .plain)
  else if c.toNat = 0xfe0f then (0, context.selectPicture)
  else if c.toNat = 0xfe0e then (0, context.selectText)
  else if c.toNat = 0xfe01 then (0, context.selectFullWidth)
  else if context.asText && isNarrowAsText c then (1, ofTail .plain)
  else if context.asFullWidth && isQuotation c then (2, ofTail .plain)
  else prependUnstyled c context.tail

/-- The change of the width and the new context when a character stands before a context. -/
def prepend (c : Char) (context : Context) : Int × Context :=
  if context.asPicture then
    if isStyled c then (if context.tail.isJoinedPicture then 0 else 2, ofTail .emoji)
    else prependUnpictured c context.withoutPicture
  else prependUnpictured c context

end Context

/-- The width of a line with what it begins with. -/
def measure (line : List Char) : Int × Context :=
  line.foldr
    (fun c (total, context) =>
      let (added, context) := context.prepend c
      (total + added, context))
    (0, .ofTail .plain)

def width (line : List Char) : Nat := (measure line).1.toNat

end ColumnQuery.Text
