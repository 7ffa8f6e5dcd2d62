import Agora.Json.Printer
import Agora.Number.Digits
import Agora.Text.Quoted

namespace Agora

namespace Binary64

structure Parts where
  whole : List Char
  fraction : List Char
  exponent : Int
  deriving DecidableEq, Repr

def exponentPart? : List Char → Option Int
  | [] => some 0
  | c :: s => if c = 'e' ∨ c = 'E' then Digits.readInt? s else none

def fractionPart (s : List Char) : List Char × List Char :=
  match s with
  | '.' :: s => Digits.span s
  | s => ([], s)

def parts? (s : List Char) : Option Parts :=
  let (whole, s) := Digits.span s
  let (fraction, s) := fractionPart s
  if whole = [] ∧ fraction = [] then none
  else (exponentPart? s).map fun exponent => { whole, fraction, exponent }

def read? (s : List Char) : Option Binary64 :=
  (parts? (Digits.sign s).2).map fun p =>
    ofDecimal (Digits.sign s).1 (Digits.value (p.whole ++ p.fraction))
      (p.exponent - p.fraction.length)

end Binary64

inductive Scalar where
  | null
  | integer (i : Int64)
  | real (x : Binary64)
  | text (s : String)
  deriving DecidableEq, Repr

namespace Scalar

/-- Numbers are shown in full, without exponent and without a point that no digit follows. -/
def realLayout : DecimalLayout :=
  { least := none, most := none, keepsPoint := false, halfway := .up }

def display : Scalar → String
  | null => "NULL"
  | integer i => String.ofList (Digits.ofInt64 i)
  | real x => String.ofList (realLayout.text x)
  | text s => Text.shown s

def isNullWord (s : List Char) : Bool :=
  s.map Char.toLower = "null".toList

/-- The scalar that a word of the command line stands for: `null` in any case, an integer, a finite
number, or else the text itself. -/
def ofLiteral (s : String) : Scalar :=
  if isNullWord s.toList then null
  else match Digits.readInt64? s.toList with
    | some i => integer i
    | none => match (Binary64.read? s.toList).filter Binary64.isFinite with
      | some x => real x
      | none => text s

/-- The scalar that a JSON value is, if it is one. Integers that do not fit become numbers. -/
def ofJson? : Json → Option Scalar
  | .null => some null
  | .int i => some (if Digits.inInt64 i then integer (Int64.ofInt i) else real (Binary64.ofInt i))
  | .real x => some (real x)
  | .str s => some (text s)
  | _ => none

def toJson : Scalar → Json
  | null => .null
  | integer i => .int i.toInt
  | real x => .real x
  | text s => .str s

end Scalar

end Agora
