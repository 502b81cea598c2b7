/-
Addresses of the internet protocol, with and without a port: their text
forms, and reading them back.

An address of version four is four decimal numbers; leading zeros are not
admitted.  An address of version six is eight groups of hexadecimal digits,
the longest run of at least two zero groups written as a double colon, and an
address that embeds one of version four shows it.
-/

namespace LatencyBench.Net

inductive IpAddress where
  | v4 (first second third fourth : UInt8)
  | v6 (groups : Vector UInt16 8)
deriving DecidableEq, Repr, Inhabited

/-- An address with a port.  `scope` names an interface and is zero unless a
text of version six gives it. -/
structure SocketAddress where
  ip : IpAddress
  port : UInt16
  scope : UInt32 := 0
deriving DecidableEq, Repr

def IpAddress.unspecified : IpAddress := .v4 0 0 0 0

def IpAddress.loopback : IpAddress := .v4 127 0 0 1

/-! ### Written form -/

/-- A run of zero groups: where it starts and how long it is. -/
structure ZeroRun where
  start : Nat
  length : Nat

/-- The first of the longest runs of zeros, looking from `index` on; `current`
is the run that ends just before it. -/
def longestZeroRun (longest current : ZeroRun) (index : Nat) :
    List UInt16 → ZeroRun
  | [] => longest
  | group :: rest =>
      if group = 0 then
        let run : ZeroRun :=
          { start := if current.length = 0 then index else current.start
            length := current.length + 1 }
        longestZeroRun (if longest.length < run.length then run else longest)
          run (index + 1) rest
      else
        longestZeroRun longest { start := 0, length := 0 } (index + 1) rest

def groupsText (groups : List UInt16) : String :=
  ":".intercalate
    (groups.map fun group => String.ofList (Nat.toDigits 16 group.toNat))

def octetsText (first second third fourth : Nat) : String :=
  ".".intercalate ([first, second, third, fourth].map toString)

def ipv6Text (groups : List UInt16) : String :=
  match groups with
  | [0, 0, 0, 0, 0, 0xFFFF, high, low] =>
      "::ffff:" ++
        octetsText (high.toNat / 256) (high.toNat % 256)
          (low.toNat / 256) (low.toNat % 256)
  | _ =>
      let run := longestZeroRun { start := 0, length := 0 }
        { start := 0, length := 0 } 0 groups
      if 1 < run.length then
        groupsText (groups.take run.start) ++ "::" ++
          groupsText (groups.drop (run.start + run.length))
      else
        groupsText groups

def IpAddress.text : IpAddress → String
  | .v4 first second third fourth =>
      octetsText first.toNat second.toNat third.toNat fourth.toNat
  | .v6 groups => ipv6Text groups.toList

def SocketAddress.text (address : SocketAddress) : String :=
  match address.ip with
  | .v4 .. => address.ip.text ++ ":" ++ toString address.port.toNat
  | .v6 _ =>
      let scope :=
        if address.scope = 0 then "" else "%" ++ toString address.scope.toNat
      "[" ++ address.ip.text ++ scope ++ "]:" ++ toString address.port.toNat

/-! ### Reading -/

/-- A reader takes a value off the front of a text, or fails and leaves the
choice of another reading to its caller. -/
abbrev Reader (α : Type) := List Char → Option (α × List Char)

def digitValue? (base : Nat) (character : Char) : Option Nat :=
  let value :=
    if '0' ≤ character ∧ character ≤ '9' then character.toNat - 48
    else if 'a' ≤ character ∧ character ≤ 'f' then character.toNat - 87
    else if 'A' ≤ character ∧ character ≤ 'F' then character.toNat - 55
    else base
  if value < base then some value else none

def readDigits (base value count : Nat) : List Char → Nat × Nat × List Char
  | [] => (value, count, [])
  | character :: rest =>
      match digitValue? base character with
      | some digit => readDigits base (value * base + digit) (count + 1) rest
      | none => (value, count, character :: rest)

/-- A number below `bound`.  Past `maxDigits` digits it is refused, and so is
a leading zero before another digit unless `zeros` admits it. -/
def readNumber (base bound : Nat) (maxDigits : Option Nat) (zeros : Bool) :
    Reader Nat := fun text =>
  let (value, count, rest) := readDigits base 0 0 text
  let tooLong := maxDigits.any (· < count)
  let leadingZero := text.head? == some '0' && 1 < count
  if count = 0 ∨ tooLong ∨ (leadingZero && !zeros) ∨ bound ≤ value then none
  else some (value, rest)

def readCharacter (wanted : Char) : Reader Unit
  | character :: rest => if character = wanted then some ((), rest) else none
  | [] => none

def readPart {α : Type} (separator : Char) (index : Nat) (read : Reader α) :
    Reader α := fun text =>
  if index = 0 then read text
  else do
    let ((), rest) ← readCharacter separator text
    read rest

def readOctet (index : Nat) : Reader UInt8 := fun text => do
  let (value, rest) ←
    readPart '.' index (readNumber 10 256 (some 3) false) text
  return (value.toUInt8, rest)

def readIpv4 : Reader (UInt8 × UInt8 × UInt8 × UInt8) := fun text => do
  let (first, text) ← readOctet 0 text
  let (second, text) ← readOctet 1 text
  let (third, text) ← readOctet 2 text
  let (fourth, text) ← readOctet 3 text
  return ((first, second, third, fourth), text)

/-- Groups of a version six address, at most `room` of them after the
`index` already read.  The last two may be written as a version four address,
which ends the list; the flag says whether they were. -/
def readGroups (index : Nat) :
    Nat → List Char → List UInt16 × Bool × List Char
  | 0, text => ([], false, text)
  | room + 1, text =>
      let embedded :=
        if room = 0 then none else readPart ':' index readIpv4 text
      match embedded with
      | some ((first, second, third, fourth), rest) =>
          ([first.toUInt16 * 256 + second.toUInt16,
            third.toUInt16 * 256 + fourth.toUInt16], true, rest)
      | none =>
          match readPart ':' index (readNumber 16 65536 (some 4) true) text with
          | none => ([], false, text)
          | some (group, rest) =>
              let (groups, ended, rest) := readGroups (index + 1) room rest
              (group.toUInt16 :: groups, ended, rest)

/-- A version six address: eight groups, or fewer around a double colon that
stands for at least one group of zeros. -/
def readIpv6 : Reader (Vector UInt16 8) := fun text =>
  let (front, embedded, rest) := readGroups 0 8 text
  let ofList (groups : List UInt16) : Vector UInt16 8 :=
    Vector.ofFn fun index => groups.getD index.val 0
  if front.length = 8 then some (ofList front, rest)
  else if embedded then none
  else do
    let ((), rest) ← readCharacter ':' rest
    let ((), rest) ← readCharacter ':' rest
    let (back, _, rest) := readGroups 0 (8 - (front.length + 1)) rest
    let zeros := List.replicate (8 - front.length - back.length) 0
    return (ofList (front ++ zeros ++ back), rest)

def readWhole {α : Type} (read : Reader α) (text : String) : Option α :=
  match read text.toList with
  | some (value, []) => some value
  | _ => none

def readIp : Reader IpAddress := fun text =>
  match readIpv4 text with
  | some ((first, second, third, fourth), rest) =>
      some (.v4 first second third fourth, rest)
  | none => do
      let (groups, rest) ← readIpv6 text
      return (.v6 groups, rest)

def IpAddress.parse? (text : String) : Option IpAddress :=
  readWhole readIp text

def readPort : Reader UInt16 := fun text => do
  let ((), rest) ← readCharacter ':' text
  let (port, rest) ← readNumber 10 65536 none true rest
  return (port.toUInt16, rest)

/-- A percent sign and the number of an interface; without one the scope is
zero and nothing is taken. -/
def readScope (text : List Char) : UInt32 × List Char :=
  let scope := do
    let ((), rest) ← readCharacter '%' text
    readNumber 10 4294967296 none true rest
  match scope with
  | some (value, rest) => (value.toUInt32, rest)
  | none => (0, text)

def readSocketAddress : Reader SocketAddress := fun text =>
  let v4 : Option (SocketAddress × List Char) := do
    let ((first, second, third, fourth), rest) ← readIpv4 text
    let (port, rest) ← readPort rest
    return ({ ip := .v4 first second third fourth, port := port }, rest)
  match v4 with
  | some found => some found
  | none => do
      let ((), rest) ← readCharacter '[' text
      let (groups, rest) ← readIpv6 rest
      let (scope, rest) := readScope rest
      let ((), rest) ← readCharacter ']' rest
      let (port, rest) ← readPort rest
      return ({ ip := .v6 groups, port := port, scope := scope }, rest)

def SocketAddress.parse? (text : String) : Option SocketAddress :=
  readWhole readSocketAddress text

end LatencyBench.Net
