import Agora.Compiler
import Agora.Intent
import Agora.Toggle.Mode

namespace Agora

inductive VoteValue where
  | up
  | down
  deriving DecidableEq, Repr

namespace VoteValue

def toInt64 : VoteValue → Int64
  | up => 1
  | down => -1

def ofRaw? (raw : Int64) : Option VoteValue :=
  if raw = 1 then some up else if raw = -1 then some down else none

def display : VoteValue → String
  | up => "+1"
  | down => "-1"

def name : VoteValue → String
  | up => "Up"
  | down => "Down"

end VoteValue

inductive VoteOutcome where
  | cast (value : VoteValue)
  /-- There was another vote before; `none` if the stored row had no readable value. -/
  | changed (before : Option VoteValue) (value : VoteValue)
  | withdrawn (value : VoteValue)
  | rejected (raw : Int64)
  deriving DecidableEq, Repr

namespace VoteOutcome

def isApplied : VoteOutcome → Bool
  | rejected _ => false
  | _ => true

def current : VoteOutcome → Option VoteValue
  | cast v | changed _ v => some v
  | withdrawn _ | rejected _ => none

def beforeText : Option VoteValue → String
  | none => "None"
  | some v => "Some(" ++ v.name ++ ")"

def display : VoteOutcome → String
  | cast v => "Cast(" ++ v.name ++ ")"
  | changed before v =>
      "Changed \x7b from: " ++ beforeText before ++ ", to: " ++ v.name ++ " \x7d"
  | withdrawn v => "Withdrawn(" ++ v.name ++ ")"
  | rejected raw => "Rejected(" ++ Intent.number raw ++ ")"

end VoteOutcome

namespace VoteToggle

def stored (row : Row) : Option VoteValue :=
  ((row.get? "value").bind Json.int64?).bind VoteValue.ofRaw?

def transition (prior : Option Row) (desired : VoteValue) : VoteOutcome :=
  match prior with
  | none => .cast desired
  | some row =>
      if stored row = some desired then .withdrawn desired else .changed (stored row) desired

def selectSql : String :=
  "SELECT value FROM votes WHERE \"messageId\" = ?1 AND \"userId\" = ?2"

def deleteSameSql : String :=
  "DELETE FROM votes WHERE \"messageId\" = ?1 AND \"userId\" = ?2 AND value = ?3"

/-- Inserts or replaces, unless the deletion before took a row away. -/
def upsertSql : String :=
  "INSERT INTO votes (\"messageId\", \"userId\", value)\n"
    ++ "SELECT ?1, ?2, ?3 WHERE changes() = 0\n"
    ++ "ON CONFLICT (\"messageId\", \"userId\") DO UPDATE SET value = excluded.value"

def batch (message user : Int64) (desired : VoteValue) : List BoundStatement :=
  let key : List Scalar := [.integer message, .integer user]
  let keyed := key ++ [.integer desired.toInt64]
  [⟨selectSql, key⟩, ⟨deleteSameSql, keyed⟩, ⟨upsertSql, keyed⟩]

def atomic (message user : Int64) (desired : VoteValue) : Query VoteOutcome := do
  let results ← Query.executeBatch (batch message user desired)
  return transition (results.head?.bind List.head?) desired

def writeIntent (message user : Int64) (desired : VoteValue) : VoteOutcome → Intent
  | .withdrawn _ => .deleteVote message user
  | .changed _ v => .updateVote message user v.toInt64
  | _ => .insertVote message user desired.toInt64

def compiled (options : CompilerOptions) (message user : Int64) (desired : VoteValue) :
    Query VoteOutcome := do
  let prior ← options.runOne (Intent.findVote message user).text []
  let outcome := transition prior desired
  let _ ← options.compileAndRun (writeIntent message user desired outcome).text []
  return outcome

def toggle (options : CompilerOptions) (usesBatch : Bool) (message user raw : Int64) :
    Query VoteOutcome :=
  match VoteValue.ofRaw? raw with
  | none => return .rejected raw
  | some desired =>
      if usesBatch then atomic message user desired else compiled options message user desired

end VoteToggle

end Agora
