import Agora.Toml.Value
import Agora.Number.Hex
import Agora.Text.Ascii

namespace Agora.Toml

abbrev Scan (α : Type) := List Char → Option (α × List Char)

def quote : Char := '\x22'

def apostrophe : Char := '\x27'

def backslash : Char := '\x5c'

def isSpace (c : Char) : Bool :=
  c = ' ' || c = '\t'

def skipSpace (s : List Char) : List Char :=
  s.dropWhile isSpace

def isPrinting (c : Char) : Bool :=
  c = '\t' || (0x20 ≤ c.toNat && c.toNat ≠ 0x7F)

def isBareKeyChar (c : Char) : Bool :=
  Ascii.isLetter c || ('0' ≤ c && c ≤ '9') || c = '_' || c = '-'

def newline? : List Char → Option (List Char)
  | '\n' :: s => some s
  | '\r' :: '\n' :: s => some s
  | _ => none

def skipComment (s : List Char) : List Char :=
  match s with
  | '#' :: r => r.dropWhile isPrinting
  | s => s

def lineEnd? (s : List Char) : Option (List Char) :=
  match skipComment (skipSpace s) with
  | [] => some []
  | s => newline? s

def skipLines (fuel : Nat) (s : List Char) : List Char :=
  match fuel with
  | 0 => s
  | fuel + 1 =>
      match newline? (skipComment (skipSpace s)) with
      | some s => skipLines fuel s
      | none => if (skipSpace s).head? = some '#' then skipComment (skipSpace s) else skipSpace s

def charByNumber (count : Nat) : Scan Char := fun s => do
  if s.length < count then none
  let ds ← (s.take count).mapM Hex.value?
  let n := ds.foldl (fun n d => 16 * n + d) 0
  if n < 0xD800 ∨ (0xDFFF < n ∧ n < 0x110000) then return (Char.ofNat n, s.drop count) else none

def escape : Scan Char
  | [] => none
  | c :: s =>
      if c = 'b' then some ('\x08', s)
      else if c = 't' then some ('\t', s)
      else if c = 'n' then some ('\n', s)
      else if c = 'f' then some ('\x0c', s)
      else if c = 'r' then some ('\r', s)
      else if c = 'e' then some ('\x1b', s)
      else if c = quote || c = backslash then some (c, s)
      else if c = 'x' then charByNumber 2 s
      else if c = 'u' then charByNumber 4 s
      else if c = 'U' then charByNumber 8 s
      else none

def basicTail (fuel : Nat) : Scan (List Char) := fun s =>
  match fuel, s with
  | fuel + 1, c :: s =>
      if c = quote then some ([], s)
      else if c = backslash then do
        let (d, s) ← escape s
        let (ds, s) ← basicTail fuel s
        return (d :: ds, s)
      else if isPrinting c then do
        let (ds, s) ← basicTail fuel s
        return (c :: ds, s)
      else none
  | _, _ => none

def literalTail : Scan (List Char)
  | [] => none
  | c :: s =>
      if c = apostrophe then some ([], s)
      else if isPrinting c then (literalTail s).map fun (ds, r) => (c :: ds, r)
      else none

/-- The end of a string of several lines: three quotes, of which up to two more belong to the
string itself. -/
def tripleEnd? (q : Char) (s : List Char) : Option (List Char × List Char) :=
  let quotes := s.takeWhile (· = q)
  if 3 ≤ quotes.length then
    let inside := min (quotes.length - 3) 2
    some (quotes.take inside, s.drop (inside + 3))
  else none

/-- What follows a backslash at the end of a line: the next thing that is not blank. -/
def lineContinuation? (fuel : Nat) (s : List Char) : Option (List Char) :=
  (newline? (skipSpace s)).map (blankLines fuel)
where
  blankLines : Nat → List Char → List Char
    | 0, s => s
    | fuel + 1, s => match newline? (skipSpace s) with
      | some s => blankLines fuel s
      | none => skipSpace s

def longBasicTail (fuel : Nat) : Scan (List Char) := fun s =>
  match fuel, s with
  | 0, _ => none
  | _, [] => none
  | fuel + 1, c :: r =>
      match tripleEnd? quote (c :: r) with
      | some found => some found
      | none =>
          if c = backslash then
            match lineContinuation? r.length r with
            | some r => longBasicTail fuel r
            | none => do
                let (d, r) ← escape r
                let (ds, r) ← longBasicTail fuel r
                return (d :: ds, r)
          else if isPrinting c || c = '\n' then do
            let (ds, r) ← longBasicTail fuel r
            return (c :: ds, r)
          else if c = '\r' ∧ r.head? = some '\n' then do
            let (ds, r) ← longBasicTail fuel r
            return (c :: ds, r)
          else none

def longLiteralTail : Scan (List Char)
  | [] => none
  | c :: r =>
      match tripleEnd? apostrophe (c :: r) with
      | some found => some found
      | none =>
          if isPrinting c || c = '\n' || (c = '\r' && r.head? = some '\n') then
            (longLiteralTail r).map fun (ds, r) => (c :: ds, r)
          else none

/-- A line break directly after the opening does not belong to the string. -/
def dropNewline (s : List Char) : List Char :=
  (newline? s).getD s

def string : Scan String := fun s =>
  let found := match s with
    | '\x22' :: '\x22' :: '\x22' :: r => longBasicTail (r.length + 1) (dropNewline r)
    | '\x27' :: '\x27' :: '\x27' :: r => longLiteralTail (dropNewline r)
    | '\x22' :: r => basicTail (r.length + 1) r
    | '\x27' :: r => literalTail r
    | _ => none
  found.map fun (cs, r) => (String.ofList cs, r)

def simpleKey : Scan String := fun s =>
  match s with
  | '\x22' :: r => (basicTail (r.length + 1) r).map fun (cs, r) => (String.ofList cs, r)
  | '\x27' :: r => (literalTail r).map fun (cs, r) => (String.ofList cs, r)
  | s =>
      let bare := s.takeWhile isBareKeyChar
      if bare.isEmpty then none else some (String.ofList bare, s.dropWhile isBareKeyChar)

def dottedKey (fuel : Nat) : Scan (List String × String) := fun s =>
  match fuel with
  | 0 => none
  | fuel + 1 => do
      let (part, s) ← simpleKey (skipSpace s)
      match skipSpace s with
      | '.' :: r => do
          let ((path, key), r) ← dottedKey fuel r
          return ((part :: path, key), r)
      | s => return (([], part), s)

end Agora.Toml
