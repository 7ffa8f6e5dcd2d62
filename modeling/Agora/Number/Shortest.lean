import Agora.Number.Binary64
import Agora.Number.Digits

namespace Agora

structure Decimal where
  digits : Nat
  exponent : Int
  deriving DecidableEq, Repr

inductive HalfwayRule where
  | even
  | up
  deriving DecidableEq, Repr

namespace HalfwayRule

def takesNext : HalfwayRule → Nat → Bool
  | even, c => c % 2 = 1
  | up, _ => true

end HalfwayRule

namespace Binary64

/-- The reals that round to `m * 2 ^ e`, in units of `2 ^ (e - 2)`; the ends belong to them iff `m`
is even. Below a power of two the numbers lie twice as dense. -/
def lowEnd (m : Nat) (e : Int) : Nat :=
  if m = leastNormal ∧ leastExponent < e then 4 * m - 1 else 4 * m - 2

def highEnd (m : Nat) : Nat :=
  4 * m + 2

def gridScale (e k : Int) : Nat × Nat :=
  (tenTo k.toNat * twoTo (2 - e).toNat, twoTo (e - 2).toNat * tenTo (-k).toNat)

def readsBack (m : Nat) (e k : Int) (c : Nat) : Bool :=
  let (grid, unit) := gridScale e k
  let low := lowEnd m e * unit
  let high := highEnd m * unit
  if m % 2 = 0 then low ≤ c * grid && c * grid ≤ high else low < c * grid && c * grid < high

/-- The multiple of `10 ^ k` nearest to `m * 2 ^ e` among those that read back. -/
def onGrid? (halfway : HalfwayRule) (m : Nat) (e k : Int) : Option Nat :=
  let (grid, unit) := gridScale e k
  let v := 4 * m * unit
  let c := v / grid
  match readsBack m e k c, readsBack m e k (c + 1) with
  | true, true =>
      let twice := 2 * (v - c * grid)
      if grid < twice || (twice = grid && halfway.takesNext c) then some (c + 1) else some c
  | true, false => some c
  | false, true => some (c + 1)
  | false, false => none

def belowPower (m : Nat) (e k : Int) : Bool :=
  let (grid, unit) := gridScale e k
  4 * m * unit < grid

/-- The least `k` with `m * 2 ^ e < 10 ^ k`, from an estimate by the count of bits. -/
def magnitude (m : Nat) (e : Int) : Int :=
  let k := (e + m.log2) * 1233 / 4096
  if belowPower m e k then k
  else if belowPower m e (k + 1) then k + 1
  else k + 2

/-- The first grid, from one digit to seventeen, that has a multiple reading back. -/
def shortest (halfway : HalfwayRule) (m : Nat) (e : Int) : Decimal :=
  let top := magnitude m e
  let found := (List.range 17).findSome? fun (n : Nat) =>
    let k := top - n - 1
    (onGrid? halfway m e k).map fun c => (⟨c, k⟩ : Decimal)
  found.getD ⟨0, 0⟩

end Binary64

/-- How a decimal is laid out. The point is written out if the power of ten just above the number
lies between `least` and `most`, where those are given. -/
structure DecimalLayout where
  least : Option Int
  most : Option Int
  keepsPoint : Bool
  halfway : HalfwayRule
  deriving DecidableEq, Repr

namespace DecimalLayout

def isPlain (layout : DecimalLayout) (top : Int) : Bool :=
  layout.least.all (· ≤ top) && layout.most.all (top ≤ ·)

def plain (keepsPoint : Bool) (ds : List Char) (top : Int) : List Char :=
  if top ≤ 0 then '0' :: '.' :: List.replicate (-top).toNat '0' ++ ds
  else if ds.length ≤ top.toNat then
    ds ++ List.replicate (top.toNat - ds.length) '0' ++ (if keepsPoint then ['.', '0'] else [])
  else ds.take top.toNat ++ '.' :: ds.drop top.toNat

def scientific (ds : List Char) (top : Int) : List Char :=
  ds.take 1 ++ (if ds.length ≤ 1 then [] else '.' :: ds.drop 1)
    ++ 'e' :: (if 0 < top then '+' :: Digits.ofInt (top - 1) else Digits.ofInt (top - 1))

def digitsText (layout : DecimalLayout) (ds : List Char) (top : Int) : List Char :=
  if layout.isPlain top then plain layout.keepsPoint ds top else scientific ds top

def dropLastZeros (ds : List Char) : List Char :=
  (ds.reverse.dropWhile (· = '0')).reverse

def text (layout : DecimalLayout) : Binary64 → List Char
  | .infinite negative => (if negative then ['-'] else []) ++ ['i', 'n', 'f']
  | .finite negative m e =>
      (if negative then ['-'] else []) ++
        if m = 0 then '0' :: (if layout.keepsPoint then ['.', '0'] else [])
        else
          let d := Binary64.shortest layout.halfway m e
          let ds := Digits.ofNat d.digits
          layout.digitsText (dropLastZeros ds) (d.exponent + ds.length)

end DecimalLayout

end Agora
