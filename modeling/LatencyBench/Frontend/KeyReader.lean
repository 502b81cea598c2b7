/-
How the bytes that a terminal sends are read as key presses.

A reader holds bytes until they make up a press, or something else, or cannot
become either; then it lets go of all of them.  An escape character on its own
is the Escape key if nothing else has been sent along with it; before another
character it stands for the Alt key, and before some it starts a sequence.

Sequences tell of cursor and function keys, of the mouse, of pastes and of the
terminal itself.  They are read to their end and dropped, since the console
reacts to none of them, except for those that give the code of a key.
-/

import LatencyBench.Decimal.Whole
import LatencyBench.Frontend.Key
import LatencyBench.Text.Utf8

namespace LatencyBench

/-- What bytes amount to: a beginning, a key press, or nothing of interest. -/
inductive KeyReading where
  | unfinished
  | press (press : KeyPress)
  | dropped
deriving DecidableEq, Repr

namespace KeyReading

def ofCode (code : KeyCode) : KeyReading := .press (.alone code)

def withAlt : KeyReading → KeyReading
  | .press found => .press { found with modifiers := .alt :: found.modifiers }
  | .unfinished => .unfinished
  | .dropped => .dropped

/-! ### Characters -/

def characterLength? (first : UInt8) : Option Nat :=
  if first < 0x80 then some 1
  else if first < 0xC0 then none
  else if first < 0xE0 then some 2
  else if first < 0xF0 then some 3
  else if first < 0xF8 then some 4
  else none

def goesOn (byte : UInt8) : Bool := 0x80 ≤ byte && byte < 0xC0

/-- Reads a character of which the first byte is given apart.  Bytes that are
no character are dropped once there are enough of them. -/
def ofCharacter (first : UInt8) (rest : List UInt8) : KeyReading :=
  if Utf8.isValid (first :: rest) then
    match (Utf8.decodeLossy (first :: rest)).toList with
    | character :: _ => ofCode (.character character)
    | [] => .dropped
  else
    match characterLength? first with
    | none => .dropped
    | some length =>
        if rest.all goesOn && rest.length + 1 < length then .unfinished
        else .dropped

/-- Reads bytes that start with no escape character.  With raw input a line
feed is what the control key makes of the letter j. -/
def ofPlain (raw : Bool) (first : UInt8) (rest : List UInt8) : KeyReading :=
  let code := first.toNat
  if code = 0x0D then ofCode .enter
  else if code = 0x0A ∧ !raw then ofCode .enter
  else if code = 0x09 then ofCode .tab
  else if code = 0x7F then ofCode .backspace
  else if code = 0 then .press (.withControl ' ')
  else if code < 0x1B then
    .press (.withControl (Char.ofNat (code + 0x60)))
  else if 0x1C ≤ code ∧ code < 0x20 then
    .press (.withControl (Char.ofNat (code + 0x18)))
  else ofCharacter first rest

/-! ### Sequences -/

def endsIn (bytes : List UInt8) (letters : List Char) : Bool :=
  bytes.getLast?.any fun last => letters.contains (Char.ofNat last.toNat)

def firstNumber? (greatest : Nat) (parts : List String) : Option Nat :=
  match parts with
  | [] => none
  | part :: _ =>
      match Decimal.readWhole 0 greatest part with
      | .ok value => some value.toNat
      | .error _ => none

def modifiersOf (number : Nat) : List Modifier :=
  let all : List Modifier :=
    [.shift, .alt, .control, .superKey, .hyper, .metaKey]
  (all.zipIdx.filter fun entry => (number - 1).testBit entry.2).map Prod.fst

/-- The code of a key that has one; the Enter key of a number pad has a code
of its own. -/
def keyOfNumber? (raw : Bool) (number : Nat) : Option KeyCode :=
  if number = 57414 ∨ number = 0x0D then some .enter
  else if number = 0x0A ∧ !raw then some .enter
  else if number = 0x1B then some .escape
  else if number = 0x09 then some .tab
  else if number = 0x7F then some .backspace
  else if number.isValidChar then some (.character (Char.ofNat number))
  else none

/-- Reads the numbers that give the code of a key, the keys held with it, and
whether it goes down; a key that repeats or goes up is no press.  While the
Shift key is held, a second code says which character it makes. -/
def ofNumbers (raw : Bool) (text : String) : KeyReading :=
  let parts := (text.splitOn ";").map fun part => part.splitOn ":"
  let codes := parts.getD 0 []
  let held := parts.getD 1 []
  match (firstNumber? 4294967295 codes).bind (keyOfNumber? raw) with
  | none => .dropped
  | some code =>
      match firstNumber? 255 held with
      | none => ofCode code
      | some number =>
          let modifiers := modifiersOf number
          let motion := (firstNumber? 255 (held.drop 1)).getD 1
          let other :=
            (firstNumber? 4294967295 (codes.drop 1)).filter fun number =>
              decide number.isValidChar
          if motion = 2 ∨ motion = 3 then .dropped
          else
            match modifiers.contains .shift, other with
            | true, some shifted =>
                .press
                  { code := .character (Char.ofNat shifted)
                    modifiers := modifiers.filter fun key => key ≠ .shift }
            | _, _ =>
                .press
                  { code := code
                    modifiers := modifiers }

/-- The bytes around a paste, without the escape character. -/
def pasteStart : List UInt8 := Utf8.encode "200~"
def pasteEnd : List UInt8 := 0x1B :: Utf8.encode "[201~"

def ofNumbered (raw : Bool) (inside : List UInt8) : KeyReading :=
  let ended :=
    decide (1 < inside.length) &&
      inside.getLast?.any fun last => 64 ≤ last && last ≤ 126
  if !ended then .unfinished
  else if pasteStart.isPrefixOf inside then
    if pasteEnd.isSuffixOf inside then .dropped else .unfinished
  else if endsIn inside ['u'] then
    let numbers := inside.dropLast
    if Utf8.isValid numbers then ofNumbers raw (Utf8.decodeLossy numbers)
    else .dropped
  else .dropped

def ofSequence (raw : Bool) (inside : List UInt8) : KeyReading :=
  let waitUnless (complete : Bool) : KeyReading :=
    if complete then .dropped else .unfinished
  match inside with
  | [] => .unfinished
  | first :: rest =>
      match Char.ofNat first.toNat with
      | '[' => waitUnless !rest.isEmpty
      | 'M' => waitUnless (3 ≤ rest.length)
      | '<' => waitUnless (endsIn rest ['m', 'M'])
      | '?' =>
          waitUnless
            (endsIn rest ['c'] || (endsIn rest ['u'] && 2 ≤ rest.length))
      | other =>
          if other.isDigit then ofNumbered raw inside else .dropped

/-- Reads the bytes held so far; `more` says whether others have been sent
along with them. -/
def ofBytes (raw more : Bool) : List UInt8 → KeyReading
  | [] => .unfinished
  | first :: rest =>
      if first = 0x1B then
        match rest with
        | [] => if more then .unfinished else ofCode .escape
        | second :: others =>
            if second = 0x1B then ofCode .escape
            else if second = 0x4F then
              if others.isEmpty then .unfinished else .dropped
            else if second = 0x5B then ofSequence raw others
            else (ofBytes raw more rest).withAlt
      else ofPlain raw first rest

end KeyReading

/-- A reader of keys, and the bytes it holds.  The input is raw if the
terminal hands over every byte as it is. -/
structure KeyReader where
  raw : Bool
  held : List UInt8
deriving DecidableEq, Repr

namespace KeyReader

def start (raw : Bool) : KeyReader :=
  { raw := raw
    held := [] }

def feed (reader : KeyReader) (more : Bool) (byte : UInt8) :
    KeyReader × List KeyPress :=
  let held := reader.held ++ [byte]
  match KeyReading.ofBytes reader.raw more held with
  | .unfinished => ({ reader with held := held }, [])
  | .press found => ({ reader with held := [] }, [found])
  | .dropped => ({ reader with held := [] }, [])

def feedAll (reader : KeyReader) : List UInt8 → KeyReader × List KeyPress
  | [] => (reader, [])
  | byte :: rest =>
      let (next, presses) := reader.feed (!rest.isEmpty) byte
      let (last, more) := next.feedAll rest
      (last, presses ++ more)

end KeyReader

end LatencyBench
