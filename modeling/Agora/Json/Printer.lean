import Agora.Json.Basic
import Agora.Number.Hex
import Agora.Number.Shortest

namespace Agora.Json

/-- Numbers with a fraction or exponent keep their point, and are written with an exponent from
`1e+16` on and below `0.00001`. -/
def realLayout : DecimalLayout :=
  { least := some (-4), most := some 16, keepsPoint := true, halfway := .even }

def escapeChar (c : Char) : List Char :=
  if c = '\x22' then ['\x5c', '\x22']
  else if c = '\x5c' then ['\x5c', '\x5c']
  else if c = '\x08' then ['\x5c', 'b']
  else if c = '\x0c' then ['\x5c', 'f']
  else if c = '\n' then ['\x5c', 'n']
  else if c = '\r' then ['\x5c', 'r']
  else if c = '\t' then ['\x5c', 't']
  else if c.toNat < 0x20 then
    ['\x5c', 'u', '0', '0', Hex.digit (c.toNat / 16), Hex.digit (c.toNat % 16)]
  else [c]

def renderString (s : String) : List Char :=
  '\x22' :: s.toList.flatMap escapeChar ++ ['\x22']

def renderReal (x : Binary64) : List Char :=
  if x.isFinite then realLayout.text x else "null".toList

mutual

def render : Json → List Char
  | .null => "null".toList
  | .bool b => if b then "true".toList else "false".toList
  | .int i => Digits.ofInt i
  | .real x => renderReal x
  | .str s => renderString s
  | .arr [] => "[]".toList
  | .arr (v :: items) => '[' :: render v ++ renderItems items
  | .obj [] => ['\x7b', '\x7d']
  | .obj ((k, v) :: fields) => '\x7b' :: renderString k ++ ':' :: render v ++ renderFields fields

def renderItems : List Json → List Char
  | [] => [']']
  | v :: items => ',' :: render v ++ renderItems items

def renderFields : List (String × Json) → List Char
  | [] => ['\x7d']
  | (k, v) :: fields => ',' :: renderString k ++ ':' :: render v ++ renderFields fields

end

def compress (v : Json) : String :=
  String.ofList v.render

def newline (depth : Nat) : List Char :=
  '\n' :: List.replicate (2 * depth) ' '

mutual

def renderLines (depth : Nat) : Json → List Char
  | .null => "null".toList
  | .bool b => if b then "true".toList else "false".toList
  | .int i => Digits.ofInt i
  | .real x => renderReal x
  | .str s => renderString s
  | .arr [] => "[]".toList
  | .arr (v :: items) =>
      '[' :: newline (depth + 1) ++ renderLines (depth + 1) v ++ renderItemLines depth items
  | .obj [] => ['\x7b', '\x7d']
  | .obj ((k, v) :: fields) =>
      '\x7b' :: newline (depth + 1) ++ renderString k ++ ':' :: ' ' :: renderLines (depth + 1) v
        ++ renderFieldLines depth fields

def renderItemLines (depth : Nat) : List Json → List Char
  | [] => newline depth ++ [']']
  | v :: items =>
      ',' :: newline (depth + 1) ++ renderLines (depth + 1) v ++ renderItemLines depth items

def renderFieldLines (depth : Nat) : List (String × Json) → List Char
  | [] => newline depth ++ ['\x7d']
  | (k, v) :: fields =>
      ',' :: newline (depth + 1) ++ renderString k ++ ':' :: ' ' :: renderLines (depth + 1) v
        ++ renderFieldLines depth fields

end

def pretty (v : Json) : String :=
  String.ofList (v.renderLines 0)

end Agora.Json
