import Agora.Number.Digits
import Agora.Number.Hex
import Agora.Text.Alphanumeric
import Agora.Text.Ascii
import Agora.Text.Blank
/-!
Tokens of SQL texts, as far as the kind of a statement and its end depend on them. All else is
`other`, and the way in which operators are grouped does not show.
-/
namespace Agora.Sql

inductive Token where
  | blank
  | word (text : List Char)
  /-- A name in quotes, which is never a keyword. -/
  | name
  | openParen
  | closeParen
  | semicolon
  | other
  deriving DecidableEq, Repr

def isOctalDigit (c : Char) : Bool :=
  '0' ≤ c && c ≤ '7'

/-- Letters, the underscore, and every character from U+007F to U+FFFF. -/
def isWordStart (c : Char) : Bool :=
  Ascii.isLetter c || c = '_' || (0x7F ≤ c.toNat && c.toNat ≤ 0xFFFF)

def isWordPart (c : Char) : Bool :=
  isWordStart c || Digits.isDigit c

def isSpace (c : Char) : Bool :=
  c = ' ' || c = '\t' || c = '\n' || c = '\r'

def apostrophe : Char :=
  '\x27'

def backslash : Char :=
  '\x5c'

/-! Each of the following gives what follows a piece of text, read from behind its opening; `none`
where it has no end. -/

def afterLine (s : List Char) : List Char :=
  (s.dropWhile (· ≠ '\n')).drop 1

/-- Block comments nest: `depth` counts those that enclose the one at hand, and `previous` is the
character before. -/
def afterBlock? (depth : Nat) (previous : Char) : List Char → Option (List Char)
  | [] => none
  | c :: s =>
      if previous = '/' ∧ c = '*' then afterBlock? (depth + 1) c s
      else if previous = '*' ∧ c = '/' then
        match depth with
        | 0 => some s
        | depth + 1 => afterBlock? depth c s
      else afterBlock? depth c s

def afterName? (quote : Char) : List Char → Option (List Char)
  | [] => none
  | c :: s =>
      if c = quote then
        match s with
        | [] => some []
        | d :: r => if d = quote then afterName? quote r else some (d :: r)
      else afterName? quote s

/-- A string ends at an apostrophe that is not doubled; where backslashes escape, the character
after one is skipped. -/
def afterString? (escapes : Bool) : List Char → Option (List Char)
  | [] => none
  | c :: s =>
      if c = apostrophe then
        match s with
        | [] => some []
        | d :: r => if d = apostrophe then afterString? escapes r else some (d :: r)
      else if escapes ∧ c = backslash then
        match s with
        | [] => none
        | _ :: r => afterString? escapes r
      else afterString? escapes s

def isScalar (n : Nat) : Bool :=
  n ≠ 0 && (n < 0xD800 || (0xDFFF < n && n < 0x110000))

def isAscii (n : Nat) : Bool :=
  n ≠ 0 && n < 0x80

def hexNumber? (ds : List Char) : Option Nat :=
  let ds := if ds.head? = some '+' then ds.drop 1 else ds
  if ds ≠ [] ∧ ds.all Hex.isDigit then some (Hex.number 16 ds) else none

def afterNumber? (count : Nat) (s : List Char) : Option (List Char) :=
  if s.length < count then none
  else if (hexNumber? (s.take count)).any isScalar then some (s.drop count) else none

/-- An escape of at most `most` digits more after `first`, which have to be the number of an ASCII
character, modulo 256. -/
def afterDigits? (isDigit : Char → Bool) (base : Nat) (first : List Char) (most : Nat)
    (s : List Char) : Option (List Char) :=
  let ds := (s.take most).takeWhile isDigit
  if isAscii (Hex.number base (first ++ ds) % 256) then some (s.drop ds.length) else none

def afterEscape? : List Char → Option (List Char)
  | [] => none
  | c :: s =>
      if c = 'u' then afterNumber? 4 s
      else if c = 'U' then afterNumber? 8 s
      else if c = 'x' then
        if (s.head?.map Hex.isDigit).getD false then afterDigits? Hex.isDigit 16 [] 2 s else some s
      else if isOctalDigit c then afterDigits? isOctalDigit 8 [c] 2 s
      else if c = '\x00' then none
      else some s

theorem afterNumber?_length {count : Nat} {s r : List Char} (h : afterNumber? count s = some r) :
    r.length ≤ s.length := by
  unfold afterNumber? at h
  split at h
  · simp at h
  · split at h <;> simp_all
    rw [← h]
    simp

theorem afterDigits?_length {p : Char → Bool} {base most : Nat} {first s r : List Char}
    (h : afterDigits? p base first most s = some r) : r.length ≤ s.length := by
  unfold afterDigits? at h
  simp only at h
  split at h <;> simp_all
  rw [← h]
  simp

theorem afterEscape?_length {s r : List Char} (h : afterEscape? s = some r) :
    r.length < s.length := by
  unfold afterEscape? at h
  split at h
  · simp at h
  · rename_i s
    have h₁ := fun n => @afterNumber?_length n s r
    have h₂ := fun p b n f => @afterDigits?_length p b n f s r
    grind

/-- A string whose backslashes escape as in C: doubled apostrophes stay inside. -/
def afterEscapedString? (s : List Char) : Option (List Char) :=
  match s with
  | [] => none
  | c :: s =>
      if c = apostrophe then
        match s with
        | [] => some []
        | d :: r => if d = apostrophe then afterEscapedString? r else some (d :: r)
      else if c = backslash then
        match h : afterEscape? s with
        | none => none
        | some r =>
            have := afterEscape?_length h
            afterEscapedString? r
      else afterEscapedString? s
  termination_by s.length

/-- A string between double dollars; `dollar` tells whether the character before was one. -/
def afterDollars? (dollar : Bool) : List Char → Option (List Char)
  | [] => none
  | c :: s => if c = '$' ∧ dollar then some s else afterDollars? (c = '$') s

/-- Compares a text with a tag character by character; the one that differs is consumed, too. -/
def afterTag? : List Char → List Char → Option (Bool × List Char)
  | [], s => some (true, s)
  | _ :: _, [] => none
  | t :: tag, c :: s => if c = t then afterTag? tag s else some (false, s)

theorem afterTag?_length {tag s r : List Char} {b : Bool} (h : afterTag? tag s = some (b, r)) :
    r.length ≤ s.length := by
  induction tag generalizing s with
  | nil => simp_all [afterTag?]
  | cons t tag ih =>
      cases s with
      | nil => simp [afterTag?] at h
      | cons c s => grind [afterTag?]

def afterTagged? (tag : List Char) (s : List Char) : Option (List Char) :=
  match s with
  | [] => none
  | c :: s =>
      if c ≠ '$' then afterTagged? tag s
      else
        match h : afterTag? tag s with
        | none => none
        | some (matched, r) =>
            have := afterTag?_length h
            if matched ∧ r.head? = some '$' then some (r.drop 1) else afterTagged? tag r
  termination_by s.length

def afterDollar? (s : List Char) : Option (List Char) :=
  if s.head? = some '$' then afterDollars? false (s.drop 1)
  else
    let isTagPart := fun c => Text.isAlphanumeric c || c = '_'
    let tag := s.takeWhile isTagPart
    let rest := s.dropWhile isTagPart
    if rest.head? = some '$' then afterTagged? tag (rest.drop 1) else some rest

def afterExponent (s : List Char) : List Char :=
  match s with
  | [] => []
  | c :: r =>
      if c = 'e' || c = 'E' then
        let r := if r.head? = some '+' || r.head? = some '-' then r.drop 1 else r
        if (r.head?.map Digits.isDigit).getD false then r.dropWhile Digits.isDigit else s
      else s

def afterSuffix (s : List Char) : List Char :=
  if s.head? = some 'L' then s.drop 1 else s

/-- A number that starts with the digit or the point `c`; a point without digits is none. -/
def afterNumeral (c : Char) (s : List Char) : List Char :=
  let rest := s.dropWhile Digits.isDigit
  if c = '.' then
    if (s.head?.map Digits.isDigit).getD false then afterSuffix (afterExponent rest) else s
  else if c = '0' ∧ s.head? = some 'x' then (s.drop 1).dropWhile Hex.isDigit
  else if rest.head? = some '.' then
    afterSuffix (afterExponent ((rest.drop 1).dropWhile Digits.isDigit))
  else afterSuffix (afterExponent rest)

/-- The operators of two characters whose second could start something else. -/
def isOperatorPair (c d : Char) : Bool :=
  [('#', '-'), ('|', '/'), ('|', '|'), ('@', '@'), ('@', '?'), ('<', '@'), ('<', '<'), ('^', '@')].contains
    (c, d)

/-- An operator that starts with `c`. It matters only where it takes a character that would start
something else. -/
def afterOperator (c : Char) : List Char → List Char
  | [] => []
  | d :: s =>
      if c = '|' ∧ d = '|' ∧ s.head? = some '/' then s.drop 1
      else if isOperatorPair c d then s
      else d :: s

inductive Start where
  | space
  | skippingString
  | escapedString
  | word
  | string
  | name (endQuote : Char)
  | numeral
  | openParen
  | closeParen
  | semicolon
  | lineComment
  | blockComment
  | placeholder
  | dollar
  | operator
  deriving DecidableEq, Repr

def Start.of (c : Char) (next : Option Char) : Start :=
  if isSpace c then .space
  else if (c = 'n' || c = 'N' || c = 'x' || c = 'X') && next = some apostrophe then
    .skippingString
  else if (c = 'e' || c = 'E') && next = some apostrophe then .escapedString
  else if isWordStart c then .word
  else if c = apostrophe then .string
  else if c = '\x22' || c = '\x60' then .name c
  else if c = '[' then .name ']'
  else if Digits.isDigit c || c = '.' then .numeral
  else if c = '(' then .openParen
  else if c = ')' then .closeParen
  else if c = ';' then .semicolon
  else if c = '-' && next = some '-' then .lineComment
  else if c = '/' && next = some '*' then .blockComment
  else if c = '?' then .placeholder
  else if c = '$' then .dollar
  else if Text.isBlank c then .space
  else .operator

def next? (c : Char) (s : List Char) : Option (Token × List Char) :=
  match Start.of c s.head? with
  | .space => some (.blank, s)
  | .skippingString => (afterString? true (s.drop 1)).map (.other, ·)
  | .escapedString => (afterEscapedString? (s.drop 1)).map (.other, ·)
  | .word => some (.word (c :: s.takeWhile isWordPart), s.dropWhile isWordPart)
  | .string => (afterString? false s).map (.other, ·)
  | .name endQuote => (afterName? endQuote s).map (.name, ·)
  | .numeral => some (.other, afterNumeral c s)
  | .openParen => some (.openParen, s)
  | .closeParen => some (.closeParen, s)
  | .semicolon => some (.semicolon, s)
  | .lineComment => some (.blank, afterLine (s.drop 1))
  | .blockComment => (afterBlock? 0 ' ' (s.drop 1)).map (.blank, ·)
  | .placeholder => some (.other, s.dropWhile Text.isNumeric)
  | .dollar => (afterDollar? s).map (.other, ·)
  | .operator => some (.other, afterOperator c s)

end Agora.Sql
