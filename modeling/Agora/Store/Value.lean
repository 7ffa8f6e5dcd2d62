import Agora.Scalar
import Agora.Schema

namespace Agora

inductive Value where
  | null
  | integer (i : Int64)
  | real (x : Binary64)
  | text (s : String)
  | blob (bytes : List UInt8)
  deriving DecidableEq, Repr

namespace Value

def ofScalar : Scalar → Value
  | .null => null
  | .integer i => integer i
  | .real x => real x
  | .text s => text s

def ofInt (i : Int) : Value :=
  if Digits.inInt64 i then integer (Int64.ofInt i) else real (Binary64.ofInt i)

/-- The fifteen leading digits of `m * 2 ^ e`, a half rounded up, with the power of ten just above
the number. -/
def leadingDigits (m : Nat) (e : Int) : List Char × Int :=
  let top := Binary64.magnitude m e
  let (grid, unit) := Binary64.gridScale e (top - 15)
  let c := (8 * m * unit + grid) / (2 * grid)
  (DecimalLayout.dropLastZeros (Digits.ofNat c), if c < 1000000000000000 then top else top + 1)

def exponentText (e : Int) : List Char :=
  (if e < 0 then '-' else '+') :: ((if e.natAbs < 10 then ['0'] else []) ++ Digits.ofNat e.natAbs)

/-- The text of a number in a column of texts: fifteen digits at most, and at least one after the
point. -/
def realText : Binary64 → List Char
  | .infinite negative => (if negative then ['-'] else []) ++ ['I', 'n', 'f']
  | .finite negative m e =>
      if m = 0 then ['0', '.', '0']
      else
        let (ds, top) := leadingDigits m e
        (if negative then ['-'] else []) ++
          if -3 ≤ top ∧ top ≤ 15 then DecimalLayout.plain true ds top
          else ds.take 1 ++ '.' :: (if ds.length ≤ 1 then ['0'] else ds.drop 1)
            ++ 'e' :: exponentText (top - 1)

def ofReal (x : Binary64) : Value :=
  match x.toInt? with
  | some i => if Digits.inInt64 i ∧ i ≠ Digits.leastInt64 then integer (Int64.ofInt i) else real x
  | none => real x

def isSpace (c : Char) : Bool :=
  c = ' ' || ('\t' ≤ c && c ≤ '\r')

def trim (s : List Char) : List Char :=
  ((s.dropWhile isSpace).reverse.dropWhile isSpace).reverse

def ofNumericText (s : String) : Value :=
  let cs := trim s.toList
  match Digits.readInt? cs with
  | some i => ofInt i
  | none => match Binary64.read? cs with
    | some x => ofReal x
    | none => text s

def keptIn : ColumnType → Value → Value
  | .integer, real x => ofReal x
  | .integer, text s => ofNumericText s
  | .text, integer i => text (String.ofList (Digits.ofInt64 i))
  | .text, real x => text (String.ofList (realText x))
  | _, v => v

def isNull : Value → Bool
  | null => true
  | _ => false

/-- Whether two values count as equal in a condition; nothing equals null. -/
def equals : Value → Value → Bool
  | null, _ => false
  | _, null => false
  | integer i, real x => x.toInt? = some i.toInt
  | real x, integer i => x.toInt? = some i.toInt
  | real x, real y => x.sameValue y
  | v, w => v = w

def holds : Value → Bool
  | integer i => i ≠ 0
  | real x => !x.isZero
  | _ => false

def magnitude : Value → Option (Int × Nat)
  | integer i => some (i.toInt, 1)
  | real x@(.finite s ..) => some (if s then -(x.ratio.1 : Int) else x.ratio.1, x.ratio.2)
  | _ => none

/-- Null stands first, then numbers, texts and blobs. -/
def rank : Value → Nat
  | null => 0
  | real (.infinite true) => 1
  | integer _ | real (.finite ..) => 2
  | real (.infinite false) => 3
  | text _ => 4
  | blob _ => 5

def less (v w : Value) : Bool :=
  v.rank < w.rank || v.rank = w.rank &&
    match v, w with
    | text s, text t => s < t
    | blob a, blob b => a < b
    | _, _ => match v.magnitude, w.magnitude with
      | some (n, d), some (m, e) => n * e < m * d
      | _, _ => false

def base64Char (n : Nat) : Char :=
  if n < 26 then Char.ofNat ('A'.toNat + n)
  else if n < 52 then Char.ofNat ('a'.toNat + (n - 26))
  else if n < 62 then Char.ofNat ('0'.toNat + (n - 52))
  else if n = 62 then '+' else '/'

def base64 : List UInt8 → List Char
  | a :: b :: c :: rest =>
      let n := a.toNat * 65536 + b.toNat * 256 + c.toNat
      base64Char (n / 262144) :: base64Char (n / 4096 % 64) :: base64Char (n / 64 % 64)
        :: base64Char (n % 64) :: base64 rest
  | [a, b] =>
      let n := a.toNat * 256 + b.toNat
      [base64Char (n / 1024), base64Char (n / 16 % 64), base64Char (n * 4 % 64), '=']
  | [a] => [base64Char (a.toNat / 4), base64Char (a.toNat * 16 % 64), '=', '=']
  | [] => []

/-- A value in a result. Numbers without end are null. -/
def toJson : Value → Json
  | null => .null
  | integer i => .int i.toInt
  | real x => if x.isFinite then .real x else .null
  | text s => .str s
  | blob bytes => .str (String.ofList (base64 bytes))

end Value

end Agora
