import Agora.Scalar

namespace Agora

abbrev Row := Json.Fields

structure BoundStatement where
  sql : String
  /-- Bound to `?1`, `?2`, ... in this order. -/
  params : List Scalar := []
  deriving DecidableEq, Repr

inductive Violation where
  | unique (columns : List String)
  | notNull (column : String)
  | check (condition : String)
  | foreignKey
  | named (text : String)
  deriving DecidableEq, Repr

namespace Violation

def message : Violation → String
  | unique columns => "UNIQUE constraint failed: " ++ String.intercalate ", " columns
  | notNull column => "NOT NULL constraint failed: " ++ column
  | check condition => "CHECK constraint failed: " ++ condition
  | foreignKey => "FOREIGN KEY constraint failed"
  | named text => text

end Violation

inductive StatementError where
  | violation (v : Violation)
  | multipleStatements
  | parameterCount (given needed : Nat)
  | noSuchTable (name : String)
  | noSuchColumn (name : String)
  | notADatabase
  | other (text : String)
  deriving DecidableEq, Repr

namespace StatementError

def message : StatementError → String
  | violation v => v.message
  | multipleStatements => "Multiple statements provided"
  | parameterCount given needed =>
      "Wrong number of parameters passed to query. Got " ++ toString given ++ ", needed "
        ++ toString needed
  | noSuchTable name => "no such table: " ++ name
  | noSuchColumn name => "no such column: " ++ name
  | notADatabase => "file is not a database"
  | other text => text

def isViolation : StatementError → Bool
  | violation _ => true
  | _ => false

end StatementError

inductive ExecutorError where
  | database (sql : String) (cause : StatementError)
  | cannotOpen (text : String)
  /-- The connection was lost to an earlier failure. -/
  | poisoned
  | unfinished (text : String)
  | unsupported (capability : String)
  deriving DecidableEq, Repr

namespace ExecutorError

def message : ExecutorError → String
  | database sql cause =>
      "database rejected statement: " ++ cause.message ++ "\nSQL: " ++ sql
  | cannotOpen text => "failed to open database: " ++ text
  | poisoned => "database connection lock poisoned"
  | unfinished text => "database task failed: " ++ text
  | unsupported capability => "unsupported by this executor: " ++ capability

def isConstraintViolation : ExecutorError → Bool
  | database _ cause => cause.isViolation
  | _ => false

def sql? : ExecutorError → Option String
  | database sql _ => some sql
  | _ => none

end ExecutorError

structure Executor (τ : Type) where
  /-- Whether batches are committed as a whole or not at all; if not, none is run. -/
  commitsBatches : Bool
  execute : BoundStatement → τ → Except ExecutorError (List Row) × τ
  executeBatch : List BoundStatement → τ → Except ExecutorError (List (List Row)) × τ

namespace Executor

def noBatches : ExecutorError :=
  .unsupported "atomic statement batches"

def single (execute : BoundStatement → τ → Except ExecutorError (List Row) × τ) : Executor τ where
  commitsBatches := false
  execute
  executeBatch _ t := (.error noBatches, t)

end Executor

inductive ExecutorCall where
  | statement (s : BoundStatement)
  | batch (statements : List BoundStatement)
  deriving DecidableEq, Repr

structure ScriptedAnswer where
  rows : List Row := []
  results : List (List Row) := []
  error : Option (String → ExecutorError) := none

structure ExecutorScript where
  answers : List ScriptedAnswer := []
  calls : List ExecutorCall := []

namespace ExecutorScript

def next (script : ExecutorScript) (call : ExecutorCall) : ScriptedAnswer × ExecutorScript :=
  (script.answers.headD {}, { answers := script.answers.tail, calls := script.calls ++ [call] })

def execute (s : BoundStatement) (script : ExecutorScript) :
    Except ExecutorError (List Row) × ExecutorScript :=
  let (answer, script) := script.next (.statement s)
  (match answer.error with
    | some e => .error (e s.sql)
    | none => .ok answer.rows, script)

def executeBatch (statements : List BoundStatement) (script : ExecutorScript) :
    Except ExecutorError (List (List Row)) × ExecutorScript :=
  let (answer, script) := script.next (.batch statements)
  (match answer.error with
    | some e => .error (e ((statements.head?.map (·.sql)).getD ""))
    | none => .ok answer.results, script)

def executor (commitsBatches : Bool) : Executor ExecutorScript :=
  if commitsBatches then { commitsBatches, execute, executeBatch } else .single execute

end ExecutorScript

end Agora
