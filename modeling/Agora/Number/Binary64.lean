/-!
Binary floating-point numbers of 64 bits, without the undefined results: a sign, a significand below
`2 ^ 53` and an exponent of two that is at least `-1074`. Every quotient of natural numbers has a
nearest one; of two equally near the one with the even significand is taken.
-/
namespace Agora

inductive Binary64 where
  | finite (negative : Bool) (significand : Nat) (exponent : Int)
  | infinite (negative : Bool)
  deriving DecidableEq, Repr

namespace Binary64

def twoTo (n : Nat) : Nat :=
  Nat.pow 2 n

def tenTo (n : Nat) : Nat :=
  Nat.pow 10 n

def leastNormal : Nat := 0x10000000000000

def significandBound : Nat := 0x20000000000000

def leastExponent : Int := -1074

def greatestExponent : Int := 971

def zero (negative : Bool) : Binary64 :=
  .finite negative 0 leastExponent

def isFinite : Binary64 → Bool
  | .finite .. => true
  | .infinite _ => false

def isZero : Binary64 → Bool
  | .finite _ m _ => m = 0
  | .infinite _ => false

def isNegative : Binary64 → Bool
  | .finite s .. => s
  | .infinite s => s

/-- The quotient rounded to the nearest natural number, a half to the even one. -/
def roundQuotient (num den : Nat) : Nat :=
  let q := num / den
  let r := num % den
  if 2 * r < den then q
  else if den < 2 * r then q + 1
  else if q % 2 = 0 then q else q + 1

def inUnits (num den : Nat) (e : Int) : Nat × Nat :=
  if 0 ≤ e then (num, den * twoTo e.toNat) else (num * twoTo (-e).toNat, den)

/-- The exponent at which `num / den` has 53 bits before the point, or the least one. -/
def exponentOf (num den : Nat) : Int :=
  let e := (num.log2 : Int) - den.log2 - 53
  let (n, d) := inUnits num den e
  max (if significandBound ≤ n / d then e + 1 else e) leastExponent

def pack (negative : Bool) (significand : Nat) (exponent : Int) : Binary64 :=
  if greatestExponent < exponent then .infinite negative
  else .finite negative significand exponent

/-- The number nearest to `num / den`; beyond the greatest one lies infinity. -/
def ofRatio (negative : Bool) (num den : Nat) : Binary64 :=
  if num = 0 then zero negative
  else
    let e := exponentOf num den
    let (n, d) := inUnits num den e
    let m := roundQuotient n d
    if m = significandBound then pack negative leastNormal (e + 1) else pack negative m e

def ofNat (n : Nat) : Binary64 :=
  ofRatio false n 1

def ofInt (i : Int) : Binary64 :=
  ofRatio (decide (i < 0)) i.natAbs 1

def ratio : Binary64 → Nat × Nat
  | .finite _ m e => if 0 ≤ e then (m * twoTo e.toNat, 1) else (m, twoTo (-e).toNat)
  | .infinite _ => (0, 1)

def toInt? : Binary64 → Option Int
  | .infinite _ => none
  | x@(.finite s ..) =>
      let (n, d) := x.ratio
      if n % d = 0 then some (if s then -((n / d : Nat) : Int) else (n / d : Nat)) else none

def withSign (negative : Bool) : Binary64 → Binary64
  | .finite _ m e => .finite negative m e
  | .infinite _ => .infinite negative

def neg (x : Binary64) : Binary64 :=
  x.withSign !x.isNegative

/-- Whether two numbers are equal in value: the two zeros are. -/
def sameValue (x y : Binary64) : Bool :=
  x = y || (x.isZero && y.isZero)

/-- The number nearest to `digits * 10 ^ exponent`. Beyond 400 places on either side the answer is
known from the count of digits alone. -/
def ofDecimal (negative : Bool) (digits : Nat) (exponent : Int) : Binary64 :=
  if digits = 0 then zero negative
  else
    let top := exponent + (digits.log2 / 3 : Nat)
    if 400 < exponent then .infinite negative
    else if top < -400 then zero negative
    else if 0 ≤ exponent then ofRatio negative (digits * tenTo exponent.toNat) 1
    else ofRatio negative digits (tenTo (-exponent).toNat)

end Binary64

end Agora
