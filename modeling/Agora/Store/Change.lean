import Agora.Store.Evaluation
/-!
A record is taken in if it has a value where one is required, only allowed values, and no key that
another record has, in this order; the first rule it breaks is the error.
-/
namespace Agora.Store

abbrev Assignment := List (Column × Value)

namespace TableState

def isMissing (r : Record) (c : Column) : Bool :=
  c.notNull && (r.get c.name).isNull

/-- Null is allowed by every condition. -/
def isForbidden (r : Record) (c : Column) : Bool :=
  let v := r.get c.name
  !c.oneOf.isEmpty && !v.isNull && !c.oneOf.any fun i => v.equals (.ofInt i)

/-- The sets of columns that no two records share, the last declared first. -/
def keys (t : Table) : List (List String) :=
  (((t.columns.filter (·.isUnique)).map ([·.name])) ++ t.keys).reverse

/-- Whether two records have the same key; a key with null in it is never the same. -/
def sameKey (key : List String) (r s : Record) : Bool :=
  key.all fun c => (r.get c).equals (s.get c)

def unique (t : TableState) (key : List String) : StatementError :=
  .violation (.unique (key.map (t.schema.name ++ "." ++ ·)))

def checkValues (t : TableState) (r : Record) : Except StatementError Unit :=
  match t.schema.columns.find? (isMissing r) with
  | some c => .error (.violation (.notNull (t.schema.name ++ "." ++ c.name)))
  | none => match t.schema.columns.find? (isForbidden r) with
    | some c => .error (.violation (.check c.condition))
    | none => .ok ()

def checkKeys (t : TableState) (others : List Record) (r : Record) : Except StatementError Unit :=
  if others.any (·.id = r.id) then .error (t.unique [Column.id.name])
  else match (keys t.schema).find? fun key => others.any (sameKey key r) with
    | some key => .error (t.unique key)
    | none => .ok ()

def mismatch : StatementError :=
  .other "datatype mismatch"

def assign (r : Record) (values : Assignment) : Except StatementError Record :=
  values.foldlM (fun r (c, v) =>
    let v := v.keptIn c.type
    if c.isId then
      match v with
      | .integer id => .ok { r with id }
      | _ => .error mismatch
    else .ok { r with fields := r.fields.map fun f => if f.1 = c.name then (f.1, v) else f }) r

def update (t : TableState) (old : Record) (values : Assignment) :
    Except StatementError (Record × TableState) := do
  let r ← assign old values
  t.checkValues r
  t.checkKeys (t.remove old.id).records r
  return (r, (t.remove old.id).put r)

def initial (now : String) (values : Assignment) (c : Column) : Value :=
  match values.find? (·.1.name = c.name) with
  | some (_, v) => v.keptIn c.type
  | none => if c.defaultsToNow then .text now else .null

def initialId (t : TableState) (values : Assignment) : Except StatementError Int64 :=
  match ((values.find? (·.1.isId)).map fun (c, v) => v.keptIn c.type).getD .null with
  | .null => match t.nextId? with
    | some id => .ok id
    | none => .error (.other "database or disk is full")
  | .integer id => .ok id
  | _ => .error mismatch

def candidate (t : TableState) (now : String) (values : Assignment) :
    Except StatementError Record := do
  let id ← t.initialId values
  let columns := t.schema.columns.filter (!·.isId)
  return { id, fields := columns.map fun c => (c.name, initial now values c) }

/-- Puts a new record into the table. Where another has the key of `onConflict`, that one takes over
columns of the new record instead, whose id is used up all the same. -/
def insert (t : TableState) (now : String) (onConflict : Option OnConflict) (values : Assignment) :
    Except StatementError (Record × TableState) := do
  let r ← t.candidate now values
  t.checkValues r
  let met := onConflict.bind fun o =>
    (t.records.find? (sameKey o.key r)).map fun old => (old, o.updates)
  match met with
  | some (old, updates) =>
      let taken := updates.filterMap fun (c, source) =>
        (columnOf? t.schema c).map fun column => (column, r.get source)
      (t.useId r.id).update old taken
  | none =>
      t.checkKeys t.records r
      return (r, (t.useId r.id).put r)

end TableState

structure Result where
  rows : List ResultRow := []
  database : Database
  changes : Nat

namespace Insertion

def columnsOf (t : TableState) (columns : Option (List String)) :
    Except StatementError (List Column) :=
  match columns with
  | none => .ok t.schema.columns
  | some names => names.mapM fun name =>
      match columnOf? t.schema name with
      | some c => .ok c
      | none => .error (.other ("table " ++ t.schema.name ++ " has no column named " ++ name))

def exprs : Rows → List (List Expr)
  | .values rows => rows
  | .guarded row _ => [row]

def guards : Rows → List Condition
  | .values _ => []
  | .guarded _ conditions => conditions

def returnScope (table : String) (t : TableState) (record : Option Record) : Scope :=
  [{ name := table, schema := t.schema, record }]

/-- The key that a conflict is about has to be a key of the table. -/
def checkConflict (t : TableState) (o : OnConflict) : Except StatementError Unit := do
  let key ← o.key.mapM (Expr.checkColumn t)
  o.updates.forM fun (c, source) => do
    let _ ← Expr.checkColumn t c
    let _ ← Expr.checkColumn t source
  let names := key.map (·.name)
  if names = [Column.id.name] ∨ (TableState.keys t.schema).any fun k =>
      k.all names.contains && names.all k.contains then return ()
  else throw (.other
    "ON CONFLICT clause does not match any PRIMARY KEY or UNIQUE constraint")

def check (db : Database) (table : String) (columns : Option (List String)) (rows : Rows)
    (onConflict : Option OnConflict) (returning : List Item) : Except StatementError Unit := do
  let t ← Expr.checkTable db table
  let columns ← columnsOf t columns
  if (exprs rows).any (·.length ≠ columns.length) then
    throw (.other ("table " ++ t.schema.name ++ " has " ++ toString columns.length
      ++ " columns but other values were supplied"))
  (exprs rows).forM (·.forM (·.check db []))
  (guards rows).forM (·.check db [])
  onConflict.toList.forM (checkConflict t)
  returning.forM (·.check db (returnScope table t none))

def spelled (t : TableState) (o : OnConflict) : OnConflict :=
  let spell := fun name => ((columnOf? t.schema name).map (·.name)).getD name
  { key := o.key.map spell, updates := o.updates.map fun (c, s) => (spell c, spell s) }

def run (ctx : Context) (now : String) (table : String) (columns : Option (List String))
    (rows : Rows) (onConflict : Option OnConflict) (returning : List Item) :
    Except StatementError Result := do
  let t ← Expr.checkTable ctx.database table
  let columns ← columnsOf t columns
  let onConflict := onConflict.map (spelled t)
  let wanted := if (guards rows).all (·.holds ctx) then exprs rows else []
  let (shown, t) ← wanted.foldlM (fun (shown, t) row => do
    let (r, t) ← TableState.insert t now onConflict (columns.zip (row.map (·.eval ctx)))
    let ctx := { ctx with scope := returnScope table t (some r) }
    return (shown ++ [Item.row ctx 1 returning], t)) (([] : List ResultRow), t)
  return { rows := if returning.isEmpty then [] else shown
           database := ctx.database.replace t
           changes := shown.length }

end Insertion

def meeting (ctx : Context) (table : String) (t : TableState) (conditions : List Condition) :
    List Record :=
  t.records.filter fun r =>
    let scope := [{ name := table, schema := t.schema, record := some r }]
    conditions.all (·.holds { ctx with scope })

def tableScope (table : String) (t : TableState) : Scope :=
  [{ name := table, schema := t.schema, record := none }]

namespace Update

def check (db : Database) (table : String) (updates : List (String × Expr))
    (conditions : List Condition) : Except StatementError Unit := do
  let t ← Expr.checkTable db table
  updates.forM fun (c, e) => do
    let _ ← Expr.checkColumn t c
    e.check db (tableScope table t)
  conditions.forM (·.check db (tableScope table t))

def run (ctx : Context) (table : String) (updates : List (String × Expr))
    (conditions : List Condition) : Except StatementError Result := do
  let t ← Expr.checkTable ctx.database table
  let met := meeting ctx table t conditions
  let t ← met.foldlM (fun t r => do
    let scope := [{ name := table, schema := t.schema, record := some r }]
    let values := updates.filterMap fun (c, e) =>
      (columnOf? t.schema c).map fun column => (column, e.eval { ctx with scope })
    return (← TableState.update t r values).2) t
  return { database := ctx.database.replace t, changes := met.length }

end Update

namespace Deletion

def check (db : Database) (table : String) (conditions : List Condition) :
    Except StatementError Unit := do
  let t ← Expr.checkTable db table
  conditions.forM (·.check db (tableScope table t))

/-- Only the records deleted by the statement itself are counted. -/
def run (ctx : Context) (table : String) (conditions : List Condition) :
    Except StatementError Result := do
  let t ← Expr.checkTable ctx.database table
  let met := meeting ctx table t conditions
  let rest := { t with records := t.records.filter fun r => !met.any (·.id = r.id) }
  return { database := ctx.database.replace rest, changes := met.length }

end Deletion

end Agora.Store
