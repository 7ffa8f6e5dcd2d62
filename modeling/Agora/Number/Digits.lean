namespace Agora.Digits

def isDigit (c : Char) : Bool :=
  '0' ≤ c && c ≤ '9'

def digitValue (c : Char) : Nat :=
  c.toNat - '0'.toNat

def value (ds : List Char) : Nat :=
  ds.foldl (fun n c => 10 * n + digitValue c) 0

def readNat? (s : List Char) : Option Nat :=
  if s ≠ [] ∧ s.all isDigit then some (value s) else none

/-- Takes off a sign; `true` stands for minus. -/
def sign : List Char → Bool × List Char
  | '-' :: s => (true, s)
  | '+' :: s => (false, s)
  | s => (false, s)

def signed (negative : Bool) (n : Nat) : Int :=
  if negative then -(n : Int) else n

def readInt? (s : List Char) : Option Int :=
  (readNat? (sign s).2).map (signed (sign s).1)

def leastInt64 : Int := -9223372036854775808

def greatestInt64 : Int := 9223372036854775807

def inInt64 (i : Int) : Bool :=
  leastInt64 ≤ i && i ≤ greatestInt64

def readInt64? (s : List Char) : Option Int64 :=
  (readInt? s).bind fun i => if inInt64 i then some (Int64.ofInt i) else none

def span (s : List Char) : List Char × List Char :=
  (s.takeWhile isDigit, s.dropWhile isDigit)

theorem span_length (s : List Char) : (span s).1.length + (span s).2.length = s.length := by
  rw [← List.length_append]
  simp [span]

def ofNat (n : Nat) : List Char :=
  if n < 10 then [Char.ofNat ('0'.toNat + n)]
  else ofNat (n / 10) ++ [Char.ofNat ('0'.toNat + n % 10)]

def ofInt (i : Int) : List Char :=
  if i < 0 then '-' :: ofNat i.natAbs else ofNat i.natAbs

def ofInt64 (i : Int64) : List Char :=
  ofInt i.toInt

end Agora.Digits
