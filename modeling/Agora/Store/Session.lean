import Agora.Connection
import Agora.Store.Change
/-!
A statement that fails changes nothing, and of a batch all statements count or none, unless one of
them ends the transaction that the batch is run in.
-/
namespace Agora

open Store

structure Store where
  database : Store.Database := {}
  foreignKeys : Bool := true
  now : String := ""
  /-- Whether what was opened holds tables at all. -/
  isReadable : Bool := true
  /-- While a transaction is open, the tables before it. -/
  saved : Option Store.Database := none
  defersReferences : Bool := false
  changes : Nat := 0
  deriving DecidableEq, Repr

namespace Store

def Statement.isChange : Statement → Bool
  | .insert .. | .update .. | .delete .. => true
  | _ => false

def needsTables : Statement → Bool
  | .select s => s.source.isSome
  | statement => statement.isChange

def check (db : Database) : Statement → Except StatementError Unit
  | .select s => s.check db
  | .insert table columns rows onConflict returning =>
      Insertion.check db table columns rows onConflict returning
  | .update table updates conditions => Update.check db table updates conditions
  | .delete table conditions => Deletion.check db table conditions
  | _ => .ok ()

/-- A statement without parameters or with as many as it needs. A surplus counts as one. -/
def checkParams (given needed : Nat) : Except StatementError Unit :=
  if given = needed then .ok () else .error (.parameterCount (min given (needed + 1)) needed)

def rollback (s : Store) : Store :=
  match s.saved with
  | none => s
  | some saved => { s with database := saved, saved := none, defersReferences := false }

def commit (s : Store) : Except StatementError Store :=
  match s.saved with
  | none => .error (.other "cannot commit - no transaction is active")
  | some saved =>
      if s.foreignKeys ∧ saved.breaksReferences s.database then
        .error (.violation .foreignKey)
      else .ok { s with saved := none, defersReferences := false }

def begin (s : Store) : Except StatementError Store :=
  if s.saved.isSome then .error (.other "cannot start a transaction within a transaction")
  else .ok { s with saved := some s.database }

def settle (s : Store) (changes : Nat) (after : Database) : Except StatementError Store :=
  let checksNow := s.foreignKeys && !(s.defersReferences && s.saved.isSome)
  if checksNow && s.database.breaksReferences after then .error (.violation .foreignKey)
  else .ok { s with
    database := after, changes, defersReferences := s.defersReferences && s.saved.isSome }

def settleDeletion (s : Store) (changes : Nat) (after : Database) : Except StatementError Store :=
  s.settle changes (if s.foreignKeys then s.database.cascade after else after)

def context (s : Store) (params : List Scalar) : Context :=
  { database := s.database, params := params.map .ofScalar, changes := s.changes }

def perform (s : Store) (params : List Scalar) :
    Statement → Except StatementError (List ResultRow × Store)
  | .empty => .error (.other "no statement")
  | .select q => do return (← q.run (s.context params), s)
  | .insert table columns rows onConflict returning => do
      let r ← Insertion.run (s.context params) s.now table columns rows onConflict returning
      return (r.rows, ← s.settle r.changes r.database)
  | .update table updates conditions => do
      let r ← Update.run (s.context params) table updates conditions
      return (r.rows, ← s.settle r.changes r.database)
  | .delete table conditions => do
      let r ← Deletion.run (s.context params) table conditions
      return (r.rows, ← s.settleDeletion r.changes r.database)
  | .begin => do return ([], ← s.begin)
  | .commit => do return ([], ← s.commit)
  | .rollback =>
      if s.saved.isSome then .ok ([], s.rollback)
      else .error (.other "cannot rollback - no transaction is active")
  | .deferReferences on => .ok ([], { s with defersReferences := on })

def prepare (s : Store) (b : BoundStatement) : Except StatementError Statement := do
  let some (statement, needed) := Statement.read? b.sql | throw (.other "syntax error")
  if needsTables statement ∧ !s.isReadable then throw .notADatabase
  check s.database statement
  checkParams b.params.length needed
  return statement

def toRow (row : ResultRow) : Row :=
  Json.Fields.ofList (row.map fun (name, v) => (name, v.toJson))

/-- What a statement leaves that fails as it is run: a change then counts as one of no rows. -/
def afterFailure (s : Store) (statement : Statement) : Store :=
  if statement.isChange then { s with changes := 0 } else s

def query (b : BoundStatement) (s : Store) : Except StatementError (List Row) × Store :=
  match s.prepare b with
  | .error e => (.error e, s)
  | .ok statement => match s.perform b.params statement with
    | .error e => (.error e, s.afterFailure statement)
    | .ok (rows, s) => (.ok (rows.map toRow), s)

def connection : Connection Store where
  query
  begin s :=
    if !s.isReadable then (.error .notADatabase, s)
    else match s.begin with
      | .error e => (.error e, s)
      | .ok s => (.ok (), s)
  commit s :=
    match s.commit with
    | .error e => (.error e, s)
    | .ok s => (.ok (), s)
  rollback

def execute : BoundStatement → Store → Except ExecutorError (List Row) × Store :=
  connection.execute

def executeBatch : List BoundStatement → Store → Except ExecutorError (List (List Row)) × Store :=
  connection.executeBatch

def install (s : Store) : Except ExecutorError Unit × Store :=
  if s.isReadable then (.ok (), { s with database := s.database.install Schema.tables })
  else (.error (.database Schema.creationScript .notADatabase), s)

def executor : Executor Store :=
  connection.executor

end Store

end Agora
