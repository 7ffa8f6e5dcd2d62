import Agora.Text.Invisible
/-!
What would not show on its own is spelled by its number.
-/
namespace Agora.Text

def hexDigits (n : Nat) : List Char :=
  Nat.toDigits 16 n

def showChar (c : Char) : List Char :=
  if c = '\x22' then ['\x5c', '\x22']
  else if c = '\x5c' then ['\x5c', '\x5c']
  else if c = '\n' then ['\x5c', 'n']
  else if c = '\r' then ['\x5c', 'r']
  else if c = '\t' then ['\x5c', 't']
  else if c = '\x00' then ['\x5c', '0']
  else if isInvisible c then ['\x5c', 'u', '\x7b'] ++ hexDigits c.toNat ++ ['\x7d']
  else [c]

def showQuoted (s : List Char) : List Char :=
  '\x22' :: s.flatMap showChar ++ ['\x22']

def shown (s : String) : String :=
  String.ofList (showQuoted s.toList)

end Agora.Text
