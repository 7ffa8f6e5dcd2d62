import Agora.Json.Reader
import Agora.Toggle.Reaction
import Agora.Toggle.Vote
/-!
All but the listing of messages goes through intents, or through the fixed statements of a toggle.
The listing is kept in a cache, which posting a message, posting a comment and an applied vote
invalidate; reactions are not part of the listing.
-/
namespace Agora

inductive BoardError where
  | invalidInput (field : String)
  | query (error : QueryError)
  deriving DecidableEq, Repr

namespace BoardError

def message : BoardError → String
  | invalidInput field => field ++ " must not be empty"
  | query error => error.message

def isConstraintViolation : BoardError → Bool
  | invalidInput _ => false
  | query error => error.isConstraintViolation

end BoardError

abbrev Operation (α : Type) := ExceptT BoardError Task α

namespace Operation

def ofQuery (q : Query α) : Operation α :=
  ExceptT.mk do return (← q.run).mapError .query

def require (field value : String) : Operation Unit :=
  if Text.allBlank value.toList then throw (.invalidInput field) else pure ()

def invalidate : Operation Unit :=
  ofQuery Query.invalidate

end Operation

open Operation

structure Board where
  options : CompilerOptions := {}
  mode : ToggleMode := .auto
  commitsBatches : Bool
  deriving DecidableEq, Repr

structure Profile where
  user : Row
  messages : List Row
  deriving Repr

namespace Board

/-- Every message with its author and counts, newest first. A message without author is listed,
too. -/
def listingSql : String :=
  "SELECT\n"
    ++ "    m.id,\n"
    ++ "    m.title,\n"
    ++ "    m.content,\n"
    ++ "    m.\"createdAt\",\n"
    ++ "    u.username,\n"
    ++ "    COALESCE((SELECT SUM(v.value) FROM votes v WHERE v.\"messageId\" = m.id), 0)"
    ++ " AS \"voteCount\",\n"
    ++ "    (SELECT COUNT(*) FROM comments c WHERE c.\"messageId\" = m.id) AS \"commentCount\"\n"
    ++ "FROM messages m\n"
    ++ "LEFT JOIN users u ON u.id = m.\"userId\"\n"
    ++ "ORDER BY m.\"createdAt\" DESC, m.id DESC"

def ask (b : Board) (intent : Intent) : Operation (Option Row) :=
  ofQuery (b.options.runOne intent.text [])

def askAll (b : Board) (intent : Intent) : Operation (List Row) :=
  ofQuery (b.options.compileAndRun intent.text [])

def rowId? (row : Row) : Option Int64 :=
  (row.get? "id").bind Json.int64?

def listMessages : Operation (List Row) :=
  ofQuery do
    match ← Query.lookup with
    | (some rows, _) => return rows
    | (none, generation) =>
        let rows ← runRaw listingSql []
        Query.store rows generation
        return rows

/-- Gives the id of the message, if the store reports one. -/
def createMessage (b : Board) (user : Int64) (title content : String) :
    Operation (Option Int64) := do
  require "title" title
  require "content" content
  let row ← b.ask (.createMessage user title content)
  invalidate
  return row.bind rowId?

def jsonColumns : List String :=
  ["comments", "reactions", "userReactions"]

/-- The value of a JSON text; any other value, and a text that is none, stays. -/
def decodeJson : Json → Json
  | .str s => (Json.parse? s).getD (.str s)
  | v => v

def decodeJsonColumns (row : Row) : Row :=
  row.map fun (name, v) => (name, if jsonColumns.contains name then decodeJson v else v)

def messageDetail (b : Board) (message : Int64) (viewer : Option Int64) :
    Operation (Option Row) := do
  return (← b.ask (.messageDetail message viewer)).map decodeJsonColumns

def addComment (b : Board) (message user : Int64) (content : String) : Operation Unit := do
  require "comment" content
  let _ ← b.askAll (.addComment message user content)
  invalidate

def vote (b : Board) (message user raw : Int64) : Operation VoteOutcome := do
  let outcome ← ofQuery
    (VoteToggle.toggle b.options (b.mode.usesBatch b.commitsBatches) message user raw)
  if outcome.isApplied then invalidate
  return outcome

def react (b : Board) (message user : Int64) (emoji : String) : Operation ReactionOutcome := do
  require "emoji" emoji
  ofQuery (ReactionToggle.toggle b.options (b.mode.usesBatch b.commitsBatches) message user emoji)

def findUser (b : Board) (username : String) : Operation (Option Row) := do
  require "username" username
  b.ask (.findUser username)

def createUser (b : Board) (username email passwordHash : String) : Operation (Option Row) := do
  require "username" username
  require "email" email
  require "password hash" passwordHash
  b.ask (.createUser username email passwordHash)

/-- A user with their messages; nothing for a name that no user with an id has. -/
def userProfile (b : Board) (username : String) : Operation (Option Profile) := do
  let some user ← b.findUser username | return none
  let some id := rowId? user | return none
  return some { user, messages := ← b.askAll (.userMessages id) }

end Board

end Agora
