import Agora.Toml.Text
import Agora.Number.Binary64
import Agora.Number.Digits

namespace Agora.Toml

def isWordChar (c : Char) : Bool :=
  isBareKeyChar c || c = '+' || c = '.' || c = ':'

/-- Digits of a base, single underscores between them allowed; gives them without. -/
def digits? (isDigit : Char → Bool) : List Char → Option (List Char)
  | [] => none
  | [c] => if isDigit c then some [c] else none
  | c :: '_' :: s => if isDigit c then (digits? isDigit s).map (c :: ·) else none
  | c :: s => if isDigit c then (digits? isDigit s).map (c :: ·) else none

def decimal? (s : List Char) : Option Nat :=
  match digits? Digits.isDigit s with
  | none => none
  | some ds => if 1 < ds.length ∧ ds.head? = some '0' then none else some (Digits.value ds)

/-- Whether an integer has a place in 128 bits, signed or not. -/
def isHeld (i : Int) : Bool :=
  -0x80000000000000000000000000000000 ≤ i && i ≤ 0xffffffffffffffffffffffffffffffff

def integer? (s : List Char) : Option Int :=
  let inBase (base : Nat) (ds : List Char) : Option Int :=
    (digits? (fun c => (Hex.value? c).any (· < base)) ds).map fun ds => Hex.number base ds
  (match s with
    | '0' :: 'x' :: ds => inBase 16 ds
    | '0' :: 'o' :: ds => inBase 8 ds
    | '0' :: 'b' :: ds => inBase 2 ds
    | s => (decimal? (Digits.sign s).2).map (Digits.signed (Digits.sign s).1)).filter isHeld

def splitAt? (isMark : Char → Bool) (s : List Char) : Option (List Char × List Char) :=
  match s.dropWhile (!isMark ·) with
  | [] => none
  | _ :: rest => some (s.takeWhile (!isMark ·), rest)

def fractionAndExponent? (s : List Char) : Option (List Char × Int) :=
  let exponent? (s : List Char) : Option Int :=
    (digits? Digits.isDigit (Digits.sign s).2).map fun ds =>
      Digits.signed (Digits.sign s).1 (Digits.value ds)
  match splitAt? (fun c => c = 'e' || c = 'E') s with
  | none => (digits? Digits.isDigit s).map (·, 0)
  | some (f, e) => do return (← digits? Digits.isDigit f, ← exponent? e)

def isFloat (s : List Char) : Bool :=
  let s := (Digits.sign s).2
  let fits (whole fraction : List Char) (exponent : Int) : Bool :=
    (Binary64.ofDecimal false (Digits.value (whole ++ fraction))
      (exponent - fraction.length)).isFinite
  if s = "inf".toList ∨ s = "nan".toList then true
  else match splitAt? (· = '.') s with
    | some (w, r) =>
        match decimal? w, digits? Digits.isDigit w, fractionAndExponent? r with
        | some _, some whole, some (fraction, exponent) => fits whole fraction exponent
        | _, _, _ => false
    | none =>
        match splitAt? (fun c => c = 'e' || c = 'E') s with
        | some (w, e) =>
            match decimal? w, digits? Digits.isDigit w,
                digits? Digits.isDigit (Digits.sign e).2 with
            | some _, some whole, some ds =>
                fits whole [] (Digits.signed (Digits.sign e).1 (Digits.value ds))
            | _, _, _ => false
        | none => false

def fixed (count : Nat) : Scan Nat := fun s =>
  if count ≤ s.length ∧ (s.take count).all Digits.isDigit then
    some (Digits.value (s.take count), s.drop count)
  else none

def expect (c : Char) : Scan Unit
  | [] => none
  | d :: s => if c = d then some ((), s) else none

def isLeapYear (year : Nat) : Bool :=
  year % 4 = 0 && (year % 100 ≠ 0 || year % 400 = 0)

def daysIn (year month : Nat) : Nat :=
  if month = 2 then (if isLeapYear year then 29 else 28)
  else if month = 4 ∨ month = 6 ∨ month = 9 ∨ month = 11 then 30
  else 31

def date : Scan Unit := fun s => do
  let (year, s) ← fixed 4 s
  let (_, s) ← expect '-' s
  let (month, s) ← fixed 2 s
  let (_, s) ← expect '-' s
  let (day, s) ← fixed 2 s
  if 1 ≤ month ∧ month ≤ 12 ∧ 1 ≤ day ∧ day ≤ daysIn year month then return ((), s) else none

def seconds : Scan Unit := fun s => do
  let (second, s) ← fixed 2 s
  if 60 < second then none
  match s with
  | '.' :: r =>
      let (ds, rest) := Digits.span r
      if ds.isEmpty then none else return ((), rest)
  | s => return ((), s)

def time : Scan Unit := fun s => do
  let (hour, s) ← fixed 2 s
  let (_, s) ← expect ':' s
  let (minute, s) ← fixed 2 s
  if 23 < hour ∨ 59 < minute then none
  match s with
  | ':' :: r => seconds r
  | s => return ((), s)

def isOffset (s : List Char) : Bool :=
  match s with
  | [] => true
  | ['Z'] | ['z'] => true
  | c :: s =>
      (c = '+' || c = '-') &&
        ((do
          let (hour, s) ← fixed 2 s
          let (_, s) ← expect ':' s
          let (minute, s) ← fixed 2 s
          return decide (hour ≤ 23 ∧ minute ≤ 59 ∧ s = [])).getD false)

def isDatetime (s : List Char) : Bool :=
  match date s with
  | some (_, []) => true
  | some (_, c :: s) =>
      (c = 'T' || c = 't' || c = ' ') && ((time s).map fun x => isOffset x.2).getD false
  | none => ((time s).map fun x => x.2.isEmpty).getD false

/-- A value of one word. A date may be parted from its time by a space. -/
def plain : Scan Value := fun s =>
  let word := s.takeWhile isWordChar
  let rest := s.dropWhile isWordChar
  let (word, rest) := match (date word), rest with
    | some (_, []), ' ' :: c :: r =>
        if Digits.isDigit c then
          (word ++ ' ' :: (c :: r).takeWhile isWordChar, (c :: r).dropWhile isWordChar)
        else (word, rest)
    | _, _ => (word, rest)
  if word = "true".toList then some (.bool true, rest)
  else if word = "false".toList then some (.bool false, rest)
  else match integer? word with
    | some i => some (.int i, rest)
    | none =>
        if isFloat word then some (.float, rest)
        else if isDatetime word then some (.datetime, rest)
        else none

end Agora.Toml
