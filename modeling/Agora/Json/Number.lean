import Agora.Json.Basic
import Agora.Number.Digits
/-!
A whole number that fits in 64 bits, signed or not, is read exactly. Any other is read in two
roundings: its leading digits, as many as fit in 64 bits, are rounded to a floating-point number,
and that is multiplied or divided by a power of ten.
-/
namespace Agora

namespace Binary64

def times (x y : Binary64) : Binary64 :=
  ofRatio (x.isNegative != y.isNegative) (x.ratio.1 * y.ratio.1) (x.ratio.2 * y.ratio.2)

def dividedBy (x y : Binary64) : Binary64 :=
  ofRatio (x.isNegative != y.isNegative) (x.ratio.1 * y.ratio.2) (x.ratio.2 * y.ratio.1)

def powerOfTen (n : Nat) : Binary64 :=
  ofNat (tenTo n)

/-- `digits * 10 ^ exponent` in two roundings, or three below `10 ^ -308`; `none` beyond the
greatest number. -/
def scale? (digits : Nat) (exponent : Int) : Option Binary64 :=
  let x := ofNat digits
  if digits = 0 then some (zero false)
  else if 308 < exponent then none
  else if 0 ≤ exponent then
    let y := x.times (powerOfTen exponent.toNat)
    if y.isFinite then some y else none
  else if -308 ≤ exponent then some (x.dividedBy (powerOfTen (-exponent).toNat))
  else if -616 ≤ exponent then
    some ((x.dividedBy (powerOfTen 308)).dividedBy (powerOfTen (-exponent - 308).toNat))
  else some (zero false)

end Binary64

namespace Json

structure Numeral where
  negative : Bool
  whole : List Char
  fraction : List Char
  isReal : Bool
  exponent : Int
  deriving DecidableEq, Repr

/-- Appends digits to a number as long as it fits in 64 bits; gives the digits left over. -/
def fitDigits (n : Nat) : List Char → Nat × List Char
  | [] => (n, [])
  | c :: ds =>
      if 10 * n + Digits.digitValue c < UInt64.size then fitDigits (10 * n + Digits.digitValue c) ds
      else (n, c :: ds)

def Numeral.real? (x : Numeral) : Option Binary64 :=
  let (n, droppedWhole) := fitDigits 0 x.whole
  let (m, droppedFraction) := fitDigits n x.fraction
  let places : Int := x.fraction.length - droppedFraction.length
  (Binary64.scale? m (x.exponent + droppedWhole.length - places)).map (·.withSign x.negative)

def Numeral.value? (x : Numeral) : Option Json :=
  let n := Digits.value x.whole
  if x.isReal then x.real?.map .real
  else if x.negative then
    if n = 0 then some (.real (Binary64.zero true))
    else if Digits.leastInt64 ≤ -(n : Int) then some (.int (-n))
    else x.real?.map .real
  else if n < UInt64.size then some (.int n)
  else x.real?.map .real

def whole? (s : List Char) : Option (List Char × List Char) :=
  match Digits.span s with
  | ([], _) => none
  | ('0' :: _ :: _, _) => none
  | (ds, rest) => some (ds, rest)

def fraction? : List Char → Option (Option (List Char) × List Char)
  | '.' :: s =>
      match Digits.span s with
      | ([], _) => none
      | (ds, rest) => some (some ds, rest)
  | s => some (none, s)

def exponent? : List Char → Option (Option Int × List Char)
  | [] => some (none, [])
  | c :: s =>
      if c = 'e' || c = 'E' then
        match Digits.span (Digits.sign s).2 with
        | ([], _) => none
        | (ds, rest) => some (some (Digits.signed (Digits.sign s).1 (Digits.value ds)), rest)
      else some (none, c :: s)

def minus : List Char → Bool × List Char
  | '-' :: s => (true, s)
  | s => (false, s)

def numeral? (s : List Char) : Option (Numeral × List Char) :=
  (whole? (minus s).2).bind fun (whole, s₁) =>
    (fraction? s₁).bind fun (fraction, s₂) =>
      (exponent? s₂).map fun (exponent, s₃) =>
        ({ negative := (minus s).1, whole, fraction := fraction.getD []
           isReal := fraction.isSome || exponent.isSome
           exponent := exponent.getD 0 }, s₃)

theorem whole?_length {s r ds : List Char} (h : whole? s = some (ds, r)) :
    r.length < s.length := by
  have := Digits.span_length s
  unfold whole? at h
  split at h
  · simp at h
  · simp at h
  · rename_i ds' rest hne _ hs
    have := List.length_pos_iff.2 hne
    simp_all
    omega

theorem fraction?_length {s r : List Char} {f : Option (List Char)}
    (h : fraction? s = some (f, r)) : r.length ≤ s.length := by
  unfold fraction? at h
  split at h
  · rename_i s
    have := Digits.span_length s
    split at h <;> simp_all
    omega
  · simp_all

theorem sign_length (s : List Char) : (Digits.sign s).2.length ≤ s.length := by
  unfold Digits.sign
  split <;> simp

theorem exponent?_length {s r : List Char} {e : Option Int} (h : exponent? s = some (e, r)) :
    r.length ≤ s.length := by
  unfold exponent? at h
  split at h
  · simp_all
  · rename_i c s
    have := Digits.span_length (Digits.sign s).2
    have := sign_length s
    grind

theorem minus_length (s : List Char) : (minus s).2.length ≤ s.length := by
  unfold minus
  split <;> simp

theorem numeral?_length {s r : List Char} {x : Numeral} (h : numeral? s = some (x, r)) :
    r.length < s.length := by
  simp only [numeral?, Option.bind_eq_some_iff, Option.map_eq_some_iff, Prod.exists] at h
  obtain ⟨whole, s₁, h₁, fraction, s₂, h₂, exponent, s₃, h₃, h₄⟩ := h
  have := whole?_length h₁
  have := fraction?_length h₂
  have := exponent?_length h₃
  have := minus_length s
  grind

end Json

end Agora
