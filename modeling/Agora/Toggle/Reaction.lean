import Agora.Compiler
import Agora.Intent
import Agora.Toggle.Mode

namespace Agora

inductive ReactionOutcome where
  | added
  | removed
  deriving DecidableEq, Repr

def ReactionOutcome.display : ReactionOutcome → String
  | added => "Added"
  | removed => "Removed"

namespace ReactionToggle

def ofPresence (wasThere : Bool) : ReactionOutcome :=
  if wasThere then .removed else .added

def selectSql : String :=
  "SELECT id FROM reactions WHERE \"messageId\" = ?1 AND \"userId\" = ?2 AND emoji = ?3"

def deleteSql : String :=
  "DELETE FROM reactions WHERE \"messageId\" = ?1 AND \"userId\" = ?2 AND emoji = ?3"

/-- Inserts, unless the deletion before took a row away. -/
def insertSql : String :=
  "INSERT INTO reactions (\"messageId\", \"userId\", emoji)\n"
    ++ "SELECT ?1, ?2, ?3 WHERE changes() = 0"

def batch (message user : Int64) (emoji : String) : List BoundStatement :=
  let key : List Scalar := [.integer message, .integer user, .text emoji]
  [⟨selectSql, key⟩, ⟨deleteSql, key⟩, ⟨insertSql, key⟩]

def atomic (message user : Int64) (emoji : String) : Query ReactionOutcome := do
  let results ← Query.executeBatch (batch message user emoji)
  return ofPresence (results.head?.any (!·.isEmpty))

def writeIntent (message user : Int64) (emoji : String) : ReactionOutcome → Intent
  | .removed => .deleteReaction message user emoji
  | .added => .insertReaction message user emoji

def compiled (options : CompilerOptions) (message user : Int64) (emoji : String) :
    Query ReactionOutcome := do
  let found ← options.runOne (Intent.findReaction message user emoji).text []
  let outcome := ofPresence found.isSome
  let _ ← options.compileAndRun (writeIntent message user emoji outcome).text []
  return outcome

def toggle (options : CompilerOptions) (usesBatch : Bool) (message user : Int64)
    (emoji : String) : Query ReactionOutcome :=
  if usesBatch then atomic message user emoji else compiled options message user emoji

end ReactionToggle

end Agora
