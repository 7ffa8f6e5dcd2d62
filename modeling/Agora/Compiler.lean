import Agora.Reply.Statement
import Agora.Sql.Kind
import Agora.Task

namespace Agora

inductive QueryError where
  | compilationFailed (error : SynthesisError)
  | executionFailed (error : ExecutorError)
  deriving DecidableEq, Repr

namespace QueryError

def message : QueryError → String
  | compilationFailed error => "compilation failed: " ++ error.message
  | executionFailed error => "execution failed: " ++ error.message

def isConstraintViolation : QueryError → Bool
  | executionFailed error => error.isConstraintViolation
  | _ => false

def isCompletionUnavailable : QueryError → Bool
  | compilationFailed (.completionUnavailable _) => true
  | _ => false

end QueryError

structure CompilerOptions where
  requireStatement : Bool := true
  logSql : Bool := true
  deriving DecidableEq, Repr

def CompilerOptions.ofSettings (s : CompilerSettings) : CompilerOptions where
  requireStatement := s.requireStatement
  logSql := s.logSql

structure CompiledStatement where
  sql : String
  params : List Scalar
  kind : Sql.Kind
  deriving DecidableEq, Repr

abbrev Query (α : Type) := ExceptT QueryError Task α

namespace Query

def synthesize (intent : String) : Query String :=
  ExceptT.mk (.synthesize intent fun r => .done (r.mapError .compilationFailed))

def execute (s : BoundStatement) : Query (List Row) :=
  ExceptT.mk (.execute s fun r => .done (r.mapError .executionFailed))

def executeBatch (statements : List BoundStatement) : Query (List (List Row)) :=
  ExceptT.mk (.executeBatch statements fun r => .done (r.mapError .executionFailed))

def lookup : Query (Option (List Row) × UInt64) :=
  ExceptT.mk (.lookup fun r => .done (.ok r))

def store (rows : List Row) (generation : UInt64) : Query Unit :=
  ExceptT.mk (.store rows generation (.done (.ok ())))

def invalidate : Query Unit :=
  ExceptT.mk (.invalidate (.done (.ok ())))

end Query

namespace CompilerOptions

def statementOf (options : CompilerOptions) (raw : String) (params : List Scalar) :
    Except QueryError CompiledStatement :=
  let sql := Reply.clean raw.toList
  if options.requireStatement ∧ !Reply.startsWithStatement sql then
    .error (.compilationFailed (.noStatement raw))
  else .ok { sql := String.ofList sql, params, kind := Sql.kind sql }

def compile (options : CompilerOptions) (intent : String) (params : List Scalar) :
    Query CompiledStatement := do
  let raw ← Query.synthesize intent
  ExceptT.mk (.done (options.statementOf raw params))

def compileAndRun (options : CompilerOptions) (intent : String) (params : List Scalar) :
    Query (List Row) := do
  let statement ← options.compile intent params
  Query.execute ⟨statement.sql, statement.params⟩

def runOne (options : CompilerOptions) (intent : String) (params : List Scalar) :
    Query (Option Row) := do
  return (← options.compileAndRun intent params).head?

end CompilerOptions

def runRaw (sql : String) (params : List Scalar) : Query (List Row) :=
  Query.execute ⟨sql, params⟩

end Agora
