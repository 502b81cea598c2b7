/-
The keys that a console reacts to.
-/

namespace LatencyBench

inductive KeyCode where
  | enter
  | escape
  | tab
  | backTab
  | backspace
  | left
  | right
  | up
  | down
  | home
  | endKey
  | pageUp
  | pageDown
  | insert
  | delete
  | null
  | function (number : UInt8)
  | character (character : Char)
deriving DecidableEq, Repr

inductive Modifier where
  | shift
  | control
  | alt
  | superKey
  | hyper
  | metaKey
deriving DecidableEq, Repr

structure KeyPress where
  code : KeyCode
  modifiers : List Modifier
deriving DecidableEq, Repr

def KeyPress.alone (code : KeyCode) : KeyPress :=
  { code := code
    modifiers := [] }

def KeyPress.withControl (character : Char) : KeyPress :=
  { code := .character character
    modifiers := [.control] }

inductive ConsoleKey where
  | send
  | quit
deriving DecidableEq, Repr

/-- Enter and the space bar send; Escape, the letter q, and the letter c with
the control key quit.  Other keys do nothing. -/
def ConsoleKey.ofPress? (press : KeyPress) : Option ConsoleKey :=
  match press.code with
  | .enter => some .send
  | .escape => some .quit
  | .character ' ' => some .send
  | .character 'q' => some .quit
  | .character 'c' =>
      if Modifier.control ∈ press.modifiers then some .quit else none
  | _ => none

end LatencyBench
