import ColumnQuery.Text.Width

/-! # Wrapped lines

A line that is too wide is broken at its blanks, and the blank at a break is left out. A word that
is too wide for a line of its own is cut where the line ends, and what is left of it begins the
next one. A line with hardly any room left takes no further word.
-/

namespace ColumnQuery.Text

/-- A line on its way: the lines that are complete, the last first, and the characters of the one
that is not, the last first, with its width. -/
structure Wrapping where
  complete : List (List Char)
  reversed : List Char
  width : Nat
  deriving DecidableEq, Repr

namespace Wrapping

/-- The room on a line that is left unused. -/
def unused : Nat := 2

/-- No line yet. -/
def empty : Wrapping := ⟨[], [], 0⟩

/-- Complete the line, unless it is empty. -/
def close (state : Wrapping) : Wrapping :=
  if state.reversed.isEmpty then state else ⟨state.reversed.reverse :: state.complete, [], 0⟩

/-- Complete the line if the room left on it is not used. -/
def closeFull (limit : Nat) (state : Wrapping) : Wrapping :=
  if limit - unused < state.width then state.close else state

/-- Part the next word from the line before it. -/
def addBlank (state : Wrapping) : Wrapping :=
  if state.reversed.isEmpty then state
  else { state with reversed := ' ' :: state.reversed, width := state.width + 1 }

/-- Add a character of a word that is cut. -/
def addCharacter (limit : Nat) (state : Wrapping) (c : Char) : Wrapping :=
  let added := Text.width [c]
  let state := if limit < state.width + added then state.close else state
  { state with reversed := c :: state.reversed, width := state.width + added }

def addWhole (word : List Char) (added : Nat) (state : Wrapping) : Wrapping :=
  let state := state.addBlank
  { state with reversed := word.reverse ++ state.reversed, width := state.width + added }

/-- Whether a word of some width begins on this line: it fits whole, or it has to be cut and there
is room for a part of it. -/
def takesWord (limit added : Nat) (state : Wrapping) : Bool :=
  let room := limit - state.addBlank.width
  if added ≤ limit then state.addBlank.width + added ≤ limit else unused < room

def addWord (limit : Nat) (state : Wrapping) (word : List Char) : Wrapping :=
  let added := Text.width word
  let state := if state.takesWord limit added then state else state.close
  let state :=
    if added ≤ limit then state.addWhole word added
    else word.foldl (addCharacter limit) state.addBlank
  state.closeFull limit

def lines (state : Wrapping) : List (List Char) := state.close.complete.reverse

end Wrapping

/-- A line, over several lines if it is wider than a limit. -/
def wrap (limit : Nat) (line : List Char) : List (List Char) :=
  if width line ≤ limit then [line]
  else ((line.splitOn ' ').foldl (Wrapping.addWord limit) .empty).lines

end ColumnQuery.Text
