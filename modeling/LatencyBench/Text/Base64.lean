/-
Base 64: three bytes as four characters, the last group filled up with equals
signs.
-/

namespace LatencyBench.Base64

def digit (value : Nat) : Char :=
  if value < 26 then Char.ofNat (65 + value)
  else if value < 52 then Char.ofNat (97 + (value - 26))
  else if value < 62 then Char.ofNat (48 + (value - 52))
  else if value = 62 then '+'
  else '/'

def digits : List UInt8 → List Char
  | [] => []
  | [first] =>
      let group := first.toNat * 16
      [digit (group / 64), digit (group % 64), '=', '=']
  | [first, second] =>
      let group := (first.toNat * 256 + second.toNat) * 4
      [digit (group / 4096), digit (group / 64 % 64), digit (group % 64),
        '=']
  | first :: second :: third :: rest =>
      let group :=
        (first.toNat * 256 + second.toNat) * 256 + third.toNat
      digit (group / 262144) :: digit (group / 4096 % 64) ::
        digit (group / 64 % 64) :: digit (group % 64) :: digits rest

def encode (bytes : List UInt8) : String :=
  String.ofList (digits bytes)

end LatencyBench.Base64
