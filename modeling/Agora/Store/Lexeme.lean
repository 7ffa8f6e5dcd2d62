import Agora.Number.Hex
import Agora.Store.Value
import Agora.Text.Ascii
/-!
Each lexeme keeps its own text and the text skipped after it, so that a column of a result can be
named by the text of its expression.
-/
namespace Agora.Store

inductive Symbol where
  | word (s : String)
  | name (s : String)
  /-- A name in double quotes, which may also be a text. -/
  | nameOrText (s : String)
  | text (s : String)
  | blob (bytes : List UInt8)
  | integer (n : Nat)
  | real (x : Binary64)
  | param (n : Option Nat)
  | mark (c : Char)
  | illegal
  deriving DecidableEq, Repr

structure Lexeme where
  symbol : Symbol
  written : List Char
  after : List Char
  deriving DecidableEq, Repr

namespace Lexeme

def isSpace (c : Char) : Bool :=
  c = ' ' || c = '\t' || c = '\n' || c = '\x0c' || c = '\r' || c = '\ufeff'

def isNameStart (c : Char) : Bool :=
  Ascii.isLetter c || c = '_' || 0x80 ≤ c.toNat

def isNamePart (c : Char) : Bool :=
  isNameStart c || Digits.isDigit c || c = '$'

/-- How many characters of a text a comment takes that starts with it; one that is not closed takes
all. -/
def blockLength : List Char → Nat
  | [] => 0
  | '*' :: '/' :: _ => 2
  | _ :: s => 1 + blockLength s

def skipped (fuel : Nat) (s : List Char) : Nat :=
  match fuel, s with
  | fuel + 1, c :: r =>
      if isSpace c then 1 + skipped fuel r
      else if c = '-' ∧ r.head? = some '-' then
        let n := (s.takeWhile (· ≠ '\n')).length
        n + skipped fuel (s.drop n)
      else if c = '/' ∧ r.head? = some '*' ∧ 1 < r.length then
        let n := 2 + blockLength (s.drop 2)
        n + skipped fuel (s.drop n)
      else 0
  | _, _ => 0

/-- The inside of a text in quotes, read after the opening one, and the rest. A doubled quote stands
for one. -/
def quoted? (q : Char) : List Char → Option (List Char × List Char)
  | [] => none
  | c :: s =>
      if c = q then
        match s with
        | [] => some ([], [])
        | d :: r =>
            if d = q then (quoted? q r).map fun (t, rest) => (q :: t, rest)
            else some ([], d :: r)
      else (quoted? q s).map fun (t, rest) => (c :: t, rest)

def bytes? : List Char → Option (List UInt8)
  | [] => some []
  | a :: b :: s => do
      let a ← Hex.value? a
      let b ← Hex.value? b
      return UInt8.ofNat (16 * a + b) :: (← bytes? s)
  | [_] => none

def ofQuoted (symbol : List Char → Symbol) (q : Char) (s : List Char) : Symbol × List Char :=
  match quoted? q s with
  | some (t, rest) => (symbol t, rest)
  | none => (.illegal, [])

def exponentLength (s : List Char) : Nat :=
  match s with
  | c :: r =>
      if c = 'e' || c = 'E' then
        let signed := r.head? = some '+' || r.head? = some '-'
        let ds := (if signed then r.drop 1 else r).takeWhile Digits.isDigit
        if ds.isEmpty then 0 else 1 + (if signed then 1 else 0) + ds.length
      else 0
  | [] => 0

/-- A number, which no letter may follow directly. -/
def number (s : List Char) : Symbol × List Char :=
  let whole := (s.takeWhile Digits.isDigit).length
  let rest := s.drop whole
  let point := if rest.head? = some '.' then
    1 + ((rest.drop 1).takeWhile Digits.isDigit).length else 0
  let exponent := exponentLength (rest.drop point)
  let length := whole + point + exponent
  let written := s.take length
  let rest := s.drop length
  if (rest.head?.map isNamePart).getD false then (.illegal, [])
  else if point + exponent = 0 then (.integer (Digits.value written), rest)
  else match Binary64.read? written with
    | some x => (.real x, rest)
    | none => (.illegal, [])

def first (c : Char) (s : List Char) : Symbol × List Char :=
  if c = '\x27' then ofQuoted (fun t => .text (String.ofList t)) '\x27' s
  else if c = '\x22' then ofQuoted (fun t => .nameOrText (String.ofList t)) '\x22' s
  else if c = '\x60' then ofQuoted (fun t => .name (String.ofList t)) '\x60' s
  else if c = '[' then
    if s.contains ']' then
      (.name (String.ofList (s.takeWhile (· ≠ ']'))), (s.dropWhile (· ≠ ']')).drop 1)
    else (.illegal, [])
  else if (c = 'x' || c = 'X') && s.head? = some '\x27' then
    match quoted? '\x27' (s.drop 1) with
    | some (t, rest) => match bytes? t with
      | some bytes => (.blob bytes, rest)
      | none => (.illegal, [])
    | none => (.illegal, [])
  else if isNameStart c then
    (.word (String.ofList (c :: s.takeWhile isNamePart)), s.dropWhile isNamePart)
  else if Digits.isDigit c || (c = '.' && (s.head?.map Digits.isDigit).getD false) then
    number (c :: s)
  else if c = '?' then
    let ds := s.takeWhile Digits.isDigit
    (.param (if ds.isEmpty then none else some (Digits.value ds)), s.dropWhile Digits.isDigit)
  else if "(),.*=-+".toList.contains c then (.mark c, s)
  else (.illegal, [])

/-- The lexemes of a text that starts with none skipped, up to its first semicolon; at most `fuel`
of them. -/
def scan (fuel : Nat) (s : List Char) : List Lexeme :=
  match fuel, s with
  | fuel + 1, c :: s =>
      if c = ';' then []
      else
        let (symbol, rest) := first c s
        let n := skipped rest.length rest
        { symbol, written := (c :: s).take (1 + s.length - rest.length), after := rest.take n }
          :: scan fuel (rest.drop n)
  | _, _ => []

def fromFirst (fuel : Nat) (s : List Char) : List Char :=
  match fuel, s.drop (skipped s.length s) with
  | fuel + 1, ';' :: s => fromFirst fuel s
  | _, s => s

/-- The lexemes of the first statement of a text, which a null character ends. -/
def ofText (s : List Char) : List Lexeme :=
  let s := s.takeWhile (· ≠ '\x00')
  scan s.length (fromFirst s.length s)

def text (ls : List Lexeme) : String :=
  String.ofList
    ((ls.flatMap fun l => l.written ++ l.after).reverse.dropWhile Value.isSpace).reverse

end Lexeme

end Agora.Store
