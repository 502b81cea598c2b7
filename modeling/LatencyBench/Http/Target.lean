/-
What a request may ask for: a path with a query, a star, an authority, or an
absolute address.
-/

import LatencyBench.Http.Head

namespace LatencyBench.Http

inductive TargetError where
  | character
  | authority
  | format
  | empty
  | tooLong
deriving DecidableEq, Repr

def TargetError.message : TargetError → String
  | .character => "invalid uri character"
  | .authority => "invalid authority"
  | .format => "invalid format"
  | .empty => "empty string"
  | .tooLong => "uri too long"

def slash : UInt8 := 0x2F
def questionMark : UInt8 := 0x3F
def hash : UInt8 := 0x23
def percent : UInt8 := 0x25

def isQuery (byte : UInt8) : Bool :=
  byte = 0x21 || (0x24 ≤ byte && byte ≤ 0x3B) || byte = 0x3D || 0x3F ≤ byte

/-- Whether a byte may stand in a path: the bytes of queries and the double
quote, but neither the question mark nor the grave accent. -/
def isPath (byte : UInt8) : Bool :=
  (isQuery byte && byte != questionMark && byte != 0x60) || byte = 0x22

/-- The error in a query.  What follows a hash does not count. -/
def queryError? : List UInt8 → Option TargetError
  | [] => none
  | byte :: rest =>
      if byte = hash then none
      else if isQuery byte then queryError? rest
      else some .character

def pathError? : List UInt8 → Option TargetError
  | [] => none
  | byte :: rest =>
      if byte = hash then none
      else if byte = questionMark then queryError? rest
      else if isPath byte then pathError? rest
      else some .character

/-! ### Authorities -/

def authorityMarks : List UInt8 := Utf8.encode "!$&'()*+,-.:;=@[]_~"

structure AuthorityScan where
  length : Nat := 0
  colons : Nat := 0
  opened : Bool := false
  closed : Bool := false
  percent : Bool := false
  endsWithAt : Bool := false

def AuthorityScan.finish (scan : AuthorityScan) :
    Except TargetError Nat :=
  if scan.opened != scan.closed || 1 < scan.colons || scan.endsWithAt ||
      scan.percent then
    .error .authority
  else .ok scan.length

/-- The length of the authority that bytes begin with. -/
def AuthorityScan.scan (seen : AuthorityScan) :
    List UInt8 → Except TargetError Nat
  | [] => seen.finish
  | byte :: rest =>
      let next :=
        { seen with
          length := seen.length + 1
          endsWithAt := false }
      if byte = slash || byte = questionMark || byte = hash then seen.finish
      else if byte = colon then
        if 8 ≤ seen.colons then .error .authority
        else { next with colons := seen.colons + 1 }.scan rest
      else if byte = 0x5B then
        if seen.percent || seen.opened then .error .authority
        else { next with opened := true }.scan rest
      else if byte = 0x5D then
        if !seen.opened || seen.closed then .error .authority
        else
          { next with closed := true, colons := 0, percent := false }.scan
            rest
      else if byte = 0x40 then
        { next with colons := 0, percent := false, endsWithAt := true }.scan
          rest
      else if byte = Http.percent then { next with percent := true }.scan rest
      else if isDigit byte || isLetter byte ||
          authorityMarks.contains byte then
        next.scan rest
      else .error .character

/-! ### Targets -/

/-- The length of the scheme that bytes begin with, if a colon and two
slashes follow it. -/
def schemeLength? (index : Nat) : List UInt8 → Option Nat
  | [] => none
  | byte :: rest =>
      if byte = colon then
        if rest.take 2 = [slash, slash] then some index else none
      else if isDigit byte || isLetter byte || byte = 0x2B || byte = 0x2D ||
          byte = 0x2E then
        schemeLength? (index + 1) rest
      else none

def maxTargetLength : Nat := 65534

def absoluteError? (target : List UInt8) : Option TargetError :=
  match schemeLength? 0 target with
  | none =>
      match AuthorityScan.scan {} target with
      | .error error => some error
      | .ok length =>
          if length = target.length then none else some .format
  | some scheme =>
      let rest := target.drop (scheme + 3)
      match AuthorityScan.scan {} rest with
      | .error error => some error
      | .ok length =>
          if length = 0 then some .format
          else pathError? (rest.drop length)

def targetError? (target : List UInt8) : Option TargetError :=
  if maxTargetLength < target.length then some .tooLong
  else
    match target with
    | [] => some .empty
    | first :: _ =>
        if first = slash then pathError? target
        else if target = [0x2A] then none
        else absoluteError? target

end LatencyBench.Http
