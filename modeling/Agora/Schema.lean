import Agora.Text.Ascii
/-!
One list of tables gives the statements that create the store, the description of the store in the
synthesizer's instruction, and the rules that the store enforces.
-/
namespace Agora

inductive ColumnType where
  | integer
  | text
  deriving DecidableEq, Repr

structure Column where
  name : String
  type : ColumnType
  isId : Bool := false
  notNull : Bool := false
  isUnique : Bool := false
  defaultsToNow : Bool := false
  /-- If not empty, the only values allowed. -/
  oneOf : List Int := []
  /-- The table whose ids the values are; a row goes away with the one it refers to. -/
  parent : Option String := none
  deriving DecidableEq, Repr

structure Table where
  name : String
  columns : List Column
  keys : List (List String) := []
  deriving DecidableEq, Repr

structure TableText where
  name : String
  columns : List (String × String)
  constraints : List String
  deriving DecidableEq, Repr

/-- A name in double quotes, if its case would be lost without. -/
def identifier (name : String) : String :=
  if name.toList.any Ascii.isUpper then "\"" ++ name ++ "\"" else name

namespace TableText

def columnTexts (t : TableText) : List String :=
  t.columns.map fun c => identifier c.1 ++ " " ++ c.2

def creation (t : TableText) : String :=
  "CREATE TABLE IF NOT EXISTS " ++ t.name ++ " (\n"
    ++ String.intercalate ",\n" ((t.columnTexts ++ t.constraints).map ("    " ++ ·)) ++ "\n);"

def description (t : TableText) : String :=
  "- " ++ t.name ++ " (" ++ String.intercalate ", " (t.columnTexts ++ t.constraints) ++ ")"

end TableText

namespace Column

def id : Column :=
  { name := "id", type := .integer, isId := true }

def text (name : String) : Column :=
  { name, type := .text, notNull := true }

def uniqueText (name : String) : Column :=
  { name, type := .text, notNull := true, isUnique := true }

def timestamp (name : String) : Column :=
  { name, type := .text, notNull := true, defaultsToNow := true }

def reference (name parent : String) : Column :=
  { name, type := .integer, parent := some parent }

def typeText : ColumnType → String
  | .integer => "INTEGER"
  | .text => "TEXT"

def condition (c : Column) : String :=
  c.name ++ " IN (" ++ String.intercalate ", " (c.oneOf.map toString) ++ ")"

def definition (c : Column) : String :=
  typeText c.type
    ++ (if c.isId then " PRIMARY KEY AUTOINCREMENT" else "")
    ++ (if c.notNull then " NOT NULL" else "")
    ++ (if c.isUnique then " UNIQUE" else "")
    ++ (if c.defaultsToNow then " DEFAULT CURRENT_TIMESTAMP" else "")
    ++ (if c.oneOf.isEmpty then "" else " CHECK (" ++ c.condition ++ ")")
    ++ (c.parent.elim "" fun t => " REFERENCES " ++ t ++ "(id) ON DELETE CASCADE")

end Column

namespace Table

def keyText (key : List String) : String :=
  "UNIQUE (" ++ String.intercalate ", " (key.map identifier) ++ ")"

def toText (t : Table) : TableText :=
  { name := t.name
    columns := t.columns.map fun c => (c.name, c.definition)
    constraints := t.keys.map keyText }

end Table

namespace Schema

def users : Table :=
  { name := "users"
    columns := [.id, .uniqueText "username", .uniqueText "email", .text "passwordHash",
      .timestamp "createdAt", .timestamp "updatedAt"] }

def messages : Table :=
  { name := "messages"
    columns := [.id, .reference "userId" "users", .text "title", .text "content",
      .timestamp "createdAt"] }

def comments : Table :=
  { name := "comments"
    columns := [.id, .reference "messageId" "messages", .reference "userId" "users",
      .text "content", .timestamp "createdAt"] }

def votes : Table :=
  { name := "votes"
    columns := [.id, .reference "messageId" "messages", .reference "userId" "users",
      { name := "value", type := .integer, notNull := true, oneOf := [-1, 1] }]
    keys := [["messageId", "userId"]] }

def reactions : Table :=
  { name := "reactions"
    columns := [.id, .reference "messageId" "messages", .reference "userId" "users",
      .text "emoji"]
    keys := [["messageId", "userId", "emoji"]] }

/-- Parents stand before their children. -/
def tables : List Table :=
  [users, messages, comments, votes, reactions]

def creationScript : String :=
  String.intercalate "\n\n" (tables.map (·.toText.creation))

def description : String :=
  String.intercalate "\n" (tables.map (·.toText.description))

end Schema

end Agora
