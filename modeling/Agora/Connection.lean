import Agora.Executor
import Agora.Sql.Kind

namespace Agora

structure Connection (σ : Type) where
  /-- Runs the first statement of a text and drops what stands behind it. -/
  query : BoundStatement → σ → Except StatementError (List Row) × σ
  begin : σ → Except StatementError Unit × σ
  commit : σ → Except StatementError Unit × σ
  /-- What becomes of a transaction that is given up; without one, nothing is done. -/
  rollback : σ → σ

namespace Connection

variable {σ : Type}

/-- The engine would drop a second statement, so it is not asked. -/
def run (c : Connection σ) (b : BoundStatement) (s : σ) : Except StatementError (List Row) × σ :=
  if Sql.hasSecondStatement b.sql.toList then (.error .multipleStatements, s) else c.query b s

def execute (c : Connection σ) (b : BoundStatement) (s : σ) :
    Except ExecutorError (List Row) × σ :=
  let (answer, s) := c.run b s
  (answer.mapError (.database b.sql), s)

def executeAll (c : Connection σ) : List BoundStatement → σ →
    Except ExecutorError (List (List Row)) × σ
  | [], s => (.ok [], s)
  | b :: bs, s =>
      match c.execute b s with
      | (.error e, s) => (.error e, s)
      | (.ok rows, s) =>
          let (rest, s) := c.executeAll bs s
          (rest.map (rows :: ·), s)

def beginText : String :=
  "BEGIN IMMEDIATE"

def commitText : String :=
  "COMMIT"

def executeBatch (c : Connection σ) (statements : List BoundStatement) (s : σ) :
    Except ExecutorError (List (List Row)) × σ :=
  match c.begin s with
  | (.error e, s) => (.error (.database beginText e), s)
  | (.ok (), s) => match c.executeAll statements s with
    | (.error e, s) => (.error e, c.rollback s)
    | (.ok results, s) => match c.commit s with
      | (.error e, s) => (.error (.database commitText e), c.rollback s)
      | (.ok (), s) => (.ok results, s)

def executor (c : Connection σ) : Executor σ :=
  { commitsBatches := true, execute := c.execute, executeBatch := c.executeBatch }

end Connection

end Agora
