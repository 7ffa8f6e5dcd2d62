import Agora.Number.Binary64
import Agora.Number.Digits
/-!
Whole numbers and numbers with a fraction or exponent are told apart; the fields of an object that
was read stand in the order of their names, each name once.
-/
namespace Agora

inductive Json where
  | null
  | bool (b : Bool)
  | int (i : Int)
  | real (x : Binary64)
  | str (s : String)
  | arr (items : List Json)
  | obj (fields : List (String × Json))
  deriving Repr, BEq, Inhabited

namespace Json

abbrev Fields := List (String × Json)

namespace Fields

def get? (fields : Fields) (name : String) : Option Json :=
  (fields.find? (·.1 = name)).map (·.2)

/-- Puts a field in the place its name has among the others; a field of that name is replaced. -/
def insert (name : String) (value : Json) : Fields → Fields
  | [] => [(name, value)]
  | (other, v) :: rest =>
      if name = other then (name, value) :: rest
      else if name < other then (name, value) :: (other, v) :: rest
      else (other, v) :: insert name value rest

/-- Of several fields of one name the last counts. -/
def ofList (fields : List (String × Json)) : Fields :=
  fields.foldl (fun acc f => insert f.1 f.2 acc) []

end Fields

def get? (name : String) : Json → Option Json
  | .obj fields => Fields.get? fields name
  | _ => none

def str? : Json → Option String
  | .str s => some s
  | _ => none

def arr? : Json → Option (List Json)
  | .arr items => some items
  | _ => none

def int64? : Json → Option Int64
  | .int i => if Digits.inInt64 i then some (Int64.ofInt i) else none
  | _ => none

def ofInt64 (i : Int64) : Json :=
  .int i.toInt

end Json

end Agora
