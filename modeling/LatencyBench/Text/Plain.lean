/-
Plain text: what is left of a text that no terminal reads.

A control sequence starts with an escape character and goes on until a
character that ends its kind.  Plain text has no control sequences and no
control characters other than breaks.  A break inside a sequence is kept, and
with it everything up to the next control character.
-/

import LatencyBench.Text.Utf8

namespace LatencyBench.Plain

/-- Where in a control sequence a character stands.  A command may have
arguments.  A device is named by a header of arguments and what stands between
them and its name, and then gets a text; a title is a text of its own. -/
inductive Place where
  | outside
  | escape
  | escapeMiddle
  | command
  | device
  | deviceArguments
  | deviceMiddle
  | text
  | title
deriving DecidableEq, Repr

def within (character : Char) (first last : Nat) : Bool :=
  decide (first ≤ character.toNat) && decide (character.toNat ≤ last)

def isBreak (character : Char) : Bool :=
  [0x09, 0x0A, 0x0C, 0x0D].contains character.toNat

def isVisible (character : Char) : Bool :=
  isBreak character || (0x20 ≤ character.toNat && character.toNat != 0x7F)

/-- Whether the written form of a character holds the byte that ends texts. -/
def endsText (character : Char) : Bool :=
  (Utf8.encode character.toString).contains 0x9C

namespace Place

def afterEscape (character : Char) : Place :=
  if character = '[' then .command
  else if character = ']' then .title
  else if character = 'P' then .device
  else if ['X', '^', '_'].contains character then .text
  else if within character 0x20 0x2F then .escapeMiddle
  else if within character 0x30 0x7E then .outside
  else .escape

def afterHeader (place : Place) (character : Char) : Place :=
  if within character 0x20 0x2F then .deviceMiddle
  else if within character 0x40 0x7E then .text
  else if within character 0x30 0x3F then
    match place with
    | .device => .deviceArguments
    | .deviceArguments =>
        if within character 0x30 0x3B then .deviceArguments else .text
    | _ => .text
  else place

/-- Where the next character stands.  Two control characters break off any
sequence, and an escape character starts another. -/
def next (place : Place) (character : Char) : Place :=
  if character.toNat = 0x18 ∨ character.toNat = 0x1A then .outside
  else if character.toNat = 0x1B then .escape
  else
    match place with
    | .outside => .outside
    | .escape => afterEscape character
    | .escapeMiddle =>
        if within character 0x30 0x7E then .outside else .escapeMiddle
    | .command => if within character 0x40 0x7E then .outside else .command
    | .text => if endsText character then .outside else .text
    | .title => if character.toNat = 0x07 then .outside else .title
    | header => header.afterHeader character

def keeps (place : Place) (character : Char) : Bool :=
  match place with
  | .outside => isVisible character
  | .escape => isBreak character
  | .escapeMiddle => isBreak character
  | .command => isBreak character
  | _ => false

end Place

/-- A reader of text.  While it is `keeping`, only a control character leads
back to the place it stands at. -/
structure Reader where
  place : Place
  keeping : Bool
deriving DecidableEq, Repr

/-- Reads a character, and says whether it is kept.  One that is not plain
Latin cannot belong to a sequence, so that the place is forgotten. -/
def Reader.step (reader : Reader) (character : Char) : Reader × Bool :=
  if reader.keeping && isVisible character then
    let place := if character.toNat < 0x80 then reader.place else .outside
    ({ place := place
       keeping := true }, true)
  else if reader.place.keeps character then
    ({ reader with keeping := true }, true)
  else
    ({ place := reader.place.next character
       keeping := false }, false)

def Reader.keep (reader : Reader) : List Char → List Char
  | [] => []
  | character :: rest =>
      let (next, kept) := reader.step character
      if kept then character :: next.keep rest else next.keep rest

def ofText (text : String) : String :=
  let reader : Reader :=
    { place := .outside
      keeping := false }
  String.ofList (reader.keep text.toList)

end LatencyBench.Plain
