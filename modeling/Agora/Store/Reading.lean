import Agora.Store.Lexeme
import Agora.Store.Statement

namespace Agora.Store

structure Reading where
  rest : List Lexeme
  params : Nat := 0
  deriving DecidableEq, Repr

abbrev Read := StateT Reading Option

namespace Read

def reserved : List String :=
  ["add", "all", "alter", "and", "as", "autoincrement", "between", "case", "check", "collate",
    "commit", "constraint", "create", "default", "deferrable", "delete", "distinct", "drop", "else",
    "escape", "except", "exists", "foreign", "from", "group", "having", "in", "index", "insert",
    "inner", "intersect", "into", "is", "isnull", "join", "left", "limit", "not", "nothing", "notnull", "null", "on",
    "or", "order", "primary", "references", "returning", "select", "set", "table", "then", "to",
    "transaction", "union", "unique", "update", "using", "values", "when", "where"]

/-- Names are the same whatever the case of their ASCII letters. -/
def fold (s : String) : String :=
  s.map Char.toLower

def symbol : Read Symbol := fun r =>
  match r.rest with
  | [] => none
  | l :: rest => some (l.symbol, { r with rest })

def symbolIf (f : Symbol → Option α) : Read α := do
  match f (← symbol) with
  | some a => return a
  | none => failure

def mark (c : Char) : Read Unit :=
  symbolIf fun
    | .mark d => if c = d then some () else none
    | _ => none

def keyword (k : String) : Read Unit :=
  symbolIf fun
    | .word s => if fold s = k then some () else none
    | _ => none

def keywords (ks : List String) : Read Unit :=
  ks.forM keyword

def plainName : Read String :=
  symbolIf fun
    | .word s => if reserved.contains (fold s) then none else some s
    | .name s => some s
    | .nameOrText s => some s
    | _ => none

def name : Read String :=
  plainName <|> symbolIf fun
    | .text s => some s
    | _ => none

def opt (p : Read α) : Read (Option α) :=
  (some <$> p) <|> pure none

def isNext (p : Read Unit) : Read Bool :=
  (p *> pure true) <|> pure false

def inParens (p : Read α) : Read α := do
  mark '('
  let a ← p
  mark ')'
  return a

def several (p : Read α) (separator : Read Unit) (fuel : Nat) : Read (List α) := do
  let a ← p
  match fuel with
  | 0 => return [a]
  | fuel + 1 => do
      if ← isNext separator then return a :: (← several p separator fuel)
      else return [a]

def list (p : Read α) (separator : Read Unit) : Read (List α) := do
  several p separator (← get).rest.length

def commaList (p : Read α) : Read (List α) :=
  list p (mark ',')

def withText (p : Read α) : Read (α × String) := do
  let start := (← get).rest
  let a ← p
  return (a, Lexeme.text (start.take (start.length - (← get).rest.length)))

def greatestParam : Nat := 32766

/-- A parameter without number takes the one after the highest so far. -/
def param : Read Expr := do
  let given ← symbolIf fun
    | .param n => some n
    | _ => none
  let n := given.getD ((← get).params + 1)
  guard (1 ≤ n ∧ n ≤ greatestParam)
  modify fun r => { r with params := max r.params n }
  return .param n

def literal : Read Value :=
  symbolIf fun
    | .text s => some (.text s)
    | .blob bytes => some (.blob bytes)
    | .integer n => some (.ofInt n)
    | .real x => some (.real x)
    | .word s => if fold s = "null" then some .null else none
    | _ => none

def negated : Read Value :=
  symbolIf fun
    | .integer n => some (.ofInt (-n))
    | .real x => some (.real x.neg)
    | _ => none

def columnName : Read (Option String × String) :=
  (do
    let source ← name
    mark '.'
    return (some source, ← name))
  <|> do return (none, ← plainName)

def column : Read Expr :=
  (do
    let source ← name
    mark '.'
    return .column (some source) (← name))
  <|> symbolIf fun
    | .word s => if reserved.contains (fold s) then none else some (.column none s)
    | .name s => some (.column none s)
    | .nameOrText s => some (.columnOrText s)
    | _ => none

def otherName : Read (Option String) :=
  opt ((keyword "as" *> name) <|> name)

def source : Read Source := do
  let table ← name
  return { table, name := (← otherName).getD table }

def belongsTo (s : Source) (column : Option String × String) : Bool :=
  column.1.all fun given => fold given = fold s.name

def keyed (outer : Read Expr) : Read (Source × String × Expr) := do
  keyword "from"
  let s ← source
  keyword "where"
  let key ← columnName
  guard (belongsTo s key)
  mark '='
  return (s, key.2, ← outer)

def count (outer : Read Expr) : Read Expr := do
  keywords ["select", "count"]
  inParens (mark '*')
  let (s, key, e) ← keyed outer
  return .count s.table key e

def sum (outer : Read Expr) : Read Expr := do
  keywords ["select", "sum"]
  let summand ← inParens columnName
  let (s, key, e) ← keyed outer
  guard (belongsTo s summand)
  return .sum summand.2 s.table key e

def changes : Read Expr := do
  keyword "changes"
  mark '('
  mark ')'
  return .changes

def coalesce (argument : Read Expr) : Read Expr := do
  keyword "coalesce"
  inParens do
    let first ← argument
    mark ','
    return .coalesce first (← argument)

def nested (fuel : Nat) : Read Expr :=
  match fuel with
  | 0 => failure
  | fuel + 1 =>
      .value <$> literal
      <|> (mark '-' *> .value <$> negated)
      <|> (mark '+' *> nested fuel)
      <|> param
      <|> inParens (count (nested fuel) <|> sum (nested fuel) <|> nested fuel)
      <|> changes
      <|> coalesce (nested fuel)
      <|> column

def expr : Read Expr := do
  nested (← get).rest.length

def condition : Read Condition := do
  let left ← expr
  if ← isNext (mark '=') then return .equal left (← expr) else return .nonzero left

def conditions : Read (List Condition) := do
  if ← isNext (keyword "where") then list condition (keyword "and") else return []

def rowCount : Read Item := do
  let (_, text) ← withText (keyword "count" *> inParens (mark '*'))
  return .rowCount (← otherName) text

def item : Read Item :=
  (mark '*' *> pure .all) <|> rowCount <|> do
    let (e, text) ← withText expr
    return .expr e (← otherName) text

def leftJoin : Read LeftJoin := do
  keyword "left"
  let _ ← isNext (keyword "outer")
  keyword "join"
  let s ← source
  keyword "on"
  let key ← columnName
  guard (belongsTo s key)
  mark '='
  return { source := s, key := key.2, outer := ← expr }

def sortKey : Read (Expr × Bool) := do
  let e ← expr
  if ← isNext (keyword "desc") then return (e, true)
  let _ ← isNext (keyword "asc")
  return (e, false)

def select : Read Statement := do
  keyword "select"
  let items ← commaList item
  let source ← opt (keyword "from" *> source)
  let join ← if source.isSome then opt leftJoin else pure none
  let conditions ← conditions
  let order ← opt (keywords ["order", "by"] *> commaList sortKey)
  let limit ← opt (keyword "limit" *> expr)
  return .select { items, source, join, conditions, order := order.getD [], limit }

def rows : Read Rows :=
  (keyword "values" *> .values <$> commaList (inParens (commaList expr))) <|> do
    keyword "select"
    let row ← commaList expr
    return .guarded row (← conditions)

def onConflict : Read OnConflict := do
  keywords ["on", "conflict"]
  let key ← inParens (commaList name)
  keywords ["do", "update", "set"]
  let updates ← commaList do
    let c ← name
    mark '='
    keyword "excluded"
    mark '.'
    return (c, ← name)
  return { key, updates }

def insert : Read Statement := do
  keywords ["insert", "into"]
  let table ← name
  let columns ← opt (inParens (commaList name))
  let rows ← rows
  let onConflict ← opt onConflict
  let returning ← opt (keyword "returning" *> commaList item)
  return .insert table columns rows onConflict (returning.getD [])

def update : Read Statement := do
  keyword "update"
  let table ← name
  keyword "set"
  let updates ← commaList do
    let c ← name
    mark '='
    return (c, ← expr)
  return .update table updates (← conditions)

def delete : Read Statement := do
  keywords ["delete", "from"]
  let table ← name
  return .delete table (← conditions)

/-- A transaction may be given a name, which says nothing. The words of joins are names here. -/
def transaction : Read Unit := do
  if ← isNext (keyword "transaction") then
    let _ ← isNext ((fun _ => ()) <$> name <|> keyword "left" <|> keyword "inner")

def begin : Read Statement := do
  keyword "begin"
  let _ ← opt (keyword "deferred" <|> keyword "immediate" <|> keyword "exclusive")
  transaction
  return .begin

def commit : Read Statement := do
  keyword "commit" <|> keyword "end"
  transaction
  return .commit

def rollback : Read Statement := do
  keyword "rollback"
  transaction
  return .rollback

def switch : Read Bool :=
  symbolIf fun
    | .word s => some (["on", "yes", "true"].contains (fold s))
    | .text s => some (["on", "yes", "true"].contains (fold s))
    | .integer n => some (n ≠ 0)
    | _ => none

def deferReferences : Read Statement := do
  keywords ["pragma", "defer_foreign_keys"]
  mark '='
  return .deferReferences (← switch)

def empty : Read Statement := do
  guard (← get).rest.isEmpty
  return .empty

def statement : Read Statement :=
  select <|> insert <|> update <|> delete <|> begin <|> commit <|> rollback <|> deferReferences
    <|> empty

end Read

def Statement.read? (sql : String) : Option (Statement × Nat) :=
  match Read.statement.run { rest := Lexeme.ofText sql.toList } with
  | some (s, { rest := [], params }) => some (s, params)
  | _ => none

end Agora.Store
