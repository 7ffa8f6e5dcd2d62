import Agora.Sql.Lexer

namespace Agora.Sql

inductive Kind where
  | read
  | write
  | schema
  | other
  | unknown
  deriving DecidableEq, Repr

namespace Kind

def text : Kind → String
  | read => "read"
  | write => "write"
  | schema => "schema"
  | other => "other"
  | unknown => "unknown"

end Kind

/-- The upper case of a character, where it consists of ASCII letters; other characters stay. -/
def upperChar (c : Char) : List Char :=
  if 'a' ≤ c ∧ c ≤ 'z' then [Char.ofNat (c.toNat - 32)]
  else if c = 'ı' then ['I']
  else if c = 'ſ' then ['S']
  else if c = 'ß' then ['S', 'S']
  else if c = 'ﬀ' then ['F', 'F']
  else if c = 'ﬁ' then ['F', 'I']
  else if c = 'ﬂ' then ['F', 'L']
  else if c = 'ﬃ' then ['F', 'F', 'I']
  else if c = 'ﬄ' then ['F', 'F', 'L']
  else if c = 'ﬅ' ∨ c = 'ﬆ' then ['S', 'T']
  else [c]

def upperWord (w : List Char) : List Char :=
  w.flatMap upperChar

inductive Keyword where
  | statement (kind : Kind)
  | with
  deriving DecidableEq, Repr

def keywordTable : List (String × Keyword) :=
  [("SELECT", .statement .read), ("VALUES", .statement .read),
    ("INSERT", .statement .write), ("UPDATE", .statement .write),
    ("DELETE", .statement .write), ("REPLACE", .statement .write),
    ("CREATE", .statement .schema), ("ALTER", .statement .schema),
    ("DROP", .statement .schema), ("TRUNCATE", .statement .schema), ("WITH", .with)]

def keyword? (word : List Char) : Option Keyword :=
  (keywordTable.find? fun k => k.1.toList = upperWord word).map (·.2)

/-- The kind of a statement from its tokens, read outside parentheses. After `WITH` the first
keyword that tells a kind decides, and other words are passed over. -/
def kindOf (depth : Nat) (inWith : Bool) : List Token → Kind
  | [] => if inWith then .read else .unknown
  | .blank :: ts => kindOf depth inWith ts
  | .openParen :: ts => kindOf (depth + 1) inWith ts
  | .closeParen :: ts => kindOf (depth - 1) inWith ts
  | .word w :: ts =>
      if depth = 0 then
        match keyword? w with
        | some (.statement kind) => kind
        | some .with => kindOf depth true ts
        | none => if inWith then kindOf depth inWith ts else .other
      else if inWith then kindOf depth inWith ts
      else .unknown
  | .name :: ts =>
      if inWith then kindOf depth inWith ts else if depth = 0 then .other else .unknown
  | .semicolon :: ts => if inWith then kindOf depth inWith ts else .unknown
  | .other :: ts => if inWith then kindOf depth inWith ts else .unknown

def kind (sql : List Char) : Kind :=
  match tokens? sql with
  | none => .unknown
  | some ts => kindOf 0 false ts

def Token.isSolid : Token → Bool
  | .blank | .semicolon => false
  | _ => true

def continues (ts : List Token) : Bool :=
  (ts.dropWhile (· ≠ .semicolon)).any Token.isSolid

/-- Whether a text holds more than one statement. A text without tokens is let pass. -/
def hasSecondStatement (sql : List Char) : Bool :=
  match tokens? sql with
  | none => false
  | some ts => continues ts

end Agora.Sql
