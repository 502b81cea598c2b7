/-
Quoted text for logs and error messages: double quotes around it, and inside
them an escape for every character that a reader could not see or would
mistake for the end.
-/

import LatencyBench.Text.Printable

namespace LatencyBench.Quoted

def escape (character : Char) : List Char :=
  if character = Char.ofNat 0 then ['\\', '0']
  else if character = '\t' then ['\\', 't']
  else if character = '\r' then ['\\', 'r']
  else if character = '\n' then ['\\', 'n']
  else if character = '"' then ['\\', '"']
  else if character = '\\' then ['\\', '\\']
  else if Printable.isPrintable character then [character]
  else
    ['\\', 'u', Char.ofNat 0x7B] ++ Nat.toDigits 16 character.toNat ++
      [Char.ofNat 0x7D]

def quote (text : String) : String :=
  String.ofList ('"' :: text.toList.flatMap escape ++ ['"'])

end LatencyBench.Quoted
