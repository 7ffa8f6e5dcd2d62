import Agora.Store.Value

namespace Agora.Store

inductive Expr where
  | value (v : Value)
  /-- The parameter of a number, counted from 1. -/
  | param (n : Nat)
  | column (source : Option String) (name : String)
  /-- A name in double quotes: of a column, if there is one of that name, or else a text. -/
  | columnOrText (name : String)
  | coalesce (first second : Expr)
  | changes
  | count (table key : String) (outer : Expr)
  | sum (summand table key : String) (outer : Expr)
  deriving DecidableEq, Repr

inductive Condition where
  | equal (left right : Expr)
  | nonzero (e : Expr)
  deriving DecidableEq, Repr

/-- What a result shows. Without a name of its own, a column is shown under its name in the table,
and anything else under its text. -/
inductive Item where
  | all
  | rowCount (name : Option String) (text : String)
  | expr (e : Expr) (name : Option String) (text : String)
  deriving DecidableEq, Repr

structure Source where
  table : String
  name : String
  deriving DecidableEq, Repr

structure LeftJoin where
  source : Source
  key : String
  outer : Expr
  deriving DecidableEq, Repr

structure Select where
  items : List Item
  source : Option Source := none
  join : Option LeftJoin := none
  conditions : List Condition := []
  /-- What the rows are sorted by, with `true` for descending. -/
  order : List (Expr × Bool) := []
  limit : Option Expr := none
  deriving DecidableEq, Repr

inductive Rows where
  | values (rows : List (List Expr))
  | guarded (row : List Expr) (conditions : List Condition)
  deriving DecidableEq, Repr

/-- What to do where an insertion meets a row with the same key: take over columns of the row that
was to be inserted. -/
structure OnConflict where
  key : List String
  updates : List (String × String)
  deriving DecidableEq, Repr

inductive Statement where
  | empty
  | select (s : Select)
  | insert (table : String) (columns : Option (List String)) (rows : Rows)
      (onConflict : Option OnConflict) (returning : List Item)
  | update (table : String) (updates : List (String × Expr)) (conditions : List Condition)
  | delete (table : String) (conditions : List Condition)
  | begin
  | commit
  | rollback
  | deferReferences (on : Bool)
  deriving DecidableEq, Repr

end Agora.Store
