import Agora.Executor
import Agora.Store.Database
/-!
Names are checked before anything is evaluated, so that a name nobody knows is an error also where
no row is met.
-/
namespace Agora.Store

structure Bound where
  name : String
  schema : Table
  record : Option Record
  deriving DecidableEq, Repr

abbrev Scope := List Bound

namespace Scope

def find (scope : Scope) (source : Option String) (column : String) :
    List (Column × Option Record) :=
  scope.filterMap fun b =>
    if source.all fun s => Read.fold s = Read.fold b.name then
      (columnOf? b.schema column).map fun c => (c, b.record)
    else none

def value (scope : Scope) (source : Option String) (column : String) : Option Value :=
  (scope.find source column).head?.map fun (c, r) => r.elim .null (·.get c.name)

def shownName (source : Option String) (column : String) : String :=
  source.elim column (· ++ "." ++ column)

/-- Exactly one column may be meant. -/
def check (scope : Scope) (source : Option String) (column : String) :
    Except StatementError Unit :=
  match scope.find source column with
  | [] => .error (.noSuchColumn (shownName source column))
  | [_] => .ok ()
  | _ => .error (.other ("ambiguous column name: " ++ shownName source column))

end Scope

structure Context where
  database : Database
  params : List Value := []
  changes : Nat := 0
  scope : Scope := []

/-- The type of a column decides how a value is compared with it. -/
def compared (left right : Option ColumnType) (v w : Value) : Bool :=
  match left, right with
  | some t, none => v.equals (w.keptIn t)
  | none, some t => (v.keptIn t).equals w
  | some .integer, some .text => v.equals (w.keptIn .integer)
  | some .text, some .integer => (v.keptIn .integer).equals w
  | _, _ => v.equals w

namespace Expr

def type? (scope : Scope) : Expr → Option ColumnType
  | column source name => (scope.find source name).head?.map (·.1.type)
  | columnOrText name => (scope.find none name).head?.map (·.1.type)
  | _ => none

def matching (db : Database) (table key : String) (type : Option ColumnType) (v : Value) :
    List Record :=
  match db.table? table with
  | none => []
  | some t => match columnOf? t.schema key with
    | none => []
    | some c => t.records.filter fun r => compared (some c.type) type (r.get c.name) v

/-- The sum of the whole numbers among values; null if there are no values. -/
def sumOf (values : List Value) : Value :=
  if values.isEmpty then .null
  else .ofInt (values.foldl (fun total v => match v with
    | .integer i => total + i.toInt
    | _ => total) 0)

def eval (ctx : Context) : Expr → Value
  | value v => v
  | param n => ctx.params.getD (n - 1) .null
  | column source name => (ctx.scope.value source name).getD .null
  | columnOrText name => (ctx.scope.value none name).getD (.text name)
  | coalesce a b => let v := a.eval ctx; if v.isNull then b.eval ctx else v
  | changes => .ofInt ctx.changes
  | count table key outer =>
      .ofInt (matching ctx.database table key (outer.type? ctx.scope) (outer.eval ctx)).length
  | sum summand table key outer =>
      let records := matching ctx.database table key (outer.type? ctx.scope) (outer.eval ctx)
      match (ctx.database.table? table).bind fun t => columnOf? t.schema summand with
      | some c => sumOf ((records.map (·.get c.name)).filter (!·.isNull))
      | none => .null

def checkTable (db : Database) (name : String) : Except StatementError TableState :=
  match db.table? name with
  | some t => .ok t
  | none => .error (.noSuchTable name)

def checkColumn (t : TableState) (name : String) : Except StatementError Column :=
  match columnOf? t.schema name with
  | some c => .ok c
  | none => .error (.noSuchColumn name)

def check (db : Database) (scope : Scope) : Expr → Except StatementError Unit
  | column source name => scope.check source name
  | columnOrText name => if (scope.find none name).isEmpty then .ok () else scope.check none name
  | coalesce a b => do
      a.check db scope
      b.check db scope
  | count table key outer => do
      let t ← checkTable db table
      let _ ← checkColumn t key
      outer.check db scope
  | sum summand table key outer => do
      let t ← checkTable db table
      let _ ← checkColumn t summand
      let _ ← checkColumn t key
      outer.check db scope
  | _ => .ok ()

end Expr

namespace Condition

def holds (ctx : Context) : Condition → Bool
  | equal a b => compared (a.type? ctx.scope) (b.type? ctx.scope) (a.eval ctx) (b.eval ctx)
  | nonzero e => (e.eval ctx).holds

def check (db : Database) (scope : Scope) : Condition → Except StatementError Unit
  | equal a b => do
      a.check db scope
      b.check db scope
  | nonzero e => e.check db scope

end Condition

abbrev ResultRow := List (String × Value)

namespace Item

def label (scope : Scope) (e : Expr) (name : Option String) (text : String) : String :=
  match name, e with
  | some n, _ => n
  | none, .column source c => ((scope.find source c).head?.map (·.1.name)).getD text
  | none, .columnOrText c => ((scope.find none c).head?.map (·.1.name)).getD text
  | none, _ => text

def allColumns (scope : Scope) : ResultRow :=
  scope.flatMap fun b => b.schema.columns.map fun c =>
    (c.name, b.record.elim .null (·.get c.name))

/-- What an item shows of `rowCount` rows, the last of which is in scope. -/
def shown (ctx : Context) (rowCount : Nat) : Item → ResultRow
  | all => allColumns ctx.scope
  | .rowCount name text => [(name.getD text, .ofInt rowCount)]
  | expr e name text => [(label ctx.scope e name text, e.eval ctx)]

def isCount : Item → Bool
  | rowCount .. => true
  | _ => false

def check (db : Database) (scope : Scope) : Item → Except StatementError Unit
  | all => if scope.isEmpty then .error (.other "no tables specified") else .ok ()
  | expr e _ _ => e.check db scope
  | rowCount .. => .ok ()

def row (ctx : Context) (rowCount : Nat) (items : List Item) : ResultRow :=
  items.flatMap (·.shown ctx rowCount)

end Item

namespace Select

def emptyScope (s : Select) (db : Database) : Except StatementError Scope := do
  let sources := s.source.toList ++ (s.join.map (·.source)).toList
  sources.mapM fun source => do
    let t ← Expr.checkTable db source.table
    return { name := source.name, schema := t.schema, record := none }

def bind (db : Database) (source : Source) : List Bound :=
  match db.table? source.table with
  | none => []
  | some t => t.records.map fun r => { name := source.name, schema := t.schema, record := some r }

def joined (ctx : Context) (j : LeftJoin) (b : Bound) : List Scope :=
  let ctx := { ctx with scope := [b] }
  let found := (bind ctx.database j.source).filter fun other =>
    (Condition.equal (.column (some j.source.name) j.key) j.outer).holds
      { ctx with scope := [b, other] }
  if found.isEmpty then
    match ctx.database.table? j.source.table with
    | none => []
    | some t => [[b, { name := j.source.name, schema := t.schema, record := none }]]
  else found.map ([b, ·])

def scopes (ctx : Context) (s : Select) : List Scope :=
  match s.source, s.join with
  | none, _ => [[]]
  | some source, none => (bind ctx.database source).map ([·])
  | some source, some j => (bind ctx.database source).flatMap (joined ctx j)

/-- Whether one list of sort keys stands before another; `true` reverses a key's order. -/
def before : List (Value × Bool) → List (Value × Bool) → Bool
  | (v, down) :: vs, (w, _) :: ws =>
      if v.less w then !down else if w.less v then down else before vs ws
  | _, _ => false

def sorted (ctx : Context) (order : List (Expr × Bool)) (scopes : List Scope) : List Scope :=
  if order.isEmpty then scopes
  else
    let keyed := scopes.map fun scope =>
      (order.map fun (e, down) => (e.eval { ctx with scope }, down), scope)
    (keyed.mergeSort fun a b => !before b.1 a.1).map (·.2)

def check (s : Select) (db : Database) : Except StatementError Unit := do
  let scope ← s.emptyScope db
  s.items.forM (·.check db scope)
  s.join.toList.forM fun j =>
    (Condition.equal (.column (some j.source.name) j.key) j.outer).check db scope
  s.conditions.forM (·.check db scope)
  s.order.forM (·.1.check db scope)
  s.limit.toList.forM (·.check db [])

/-- The rows that a limit leaves; a negative one leaves all. -/
def limited (limit : Option Value) (rows : List ResultRow) :
    Except StatementError (List ResultRow) :=
  match limit with
  | none => .ok rows
  | some v => match v.keptIn .integer with
    | .integer i => .ok (if i < 0 then rows else rows.take i.toInt.toNat)
    | _ => .error (.other "datatype mismatch")

def run (ctx : Context) (s : Select) : Except StatementError (List ResultRow) :=
  let kept := (s.scopes ctx).filter fun scope =>
    s.conditions.all (·.holds { ctx with scope })
  let rows :=
    if s.items.any (·.isCount) then
      [Item.row { ctx with scope := kept.getLastD [] } kept.length s.items]
    else (sorted ctx s.order kept).map fun scope => Item.row { ctx with scope } kept.length s.items
  limited (s.limit.map (·.eval ctx)) rows

end Select

end Agora.Store
