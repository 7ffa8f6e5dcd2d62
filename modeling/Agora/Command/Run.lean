import Agora.Board
import Agora.Command.Line
import Agora.Json.Printer
import Agora.Settings.Location
import Agora.Store.Saved
import Agora.Store.Session

namespace Agora

structure Host (m : Type → Type) where
  environment : Environment
  read : String → m FileContent
  /-- Gives whether the file could be written. -/
  write : String → String → m Bool
  now : String

structure Report where
  code : Nat
  output : String := ""
  errors : String := ""
  deriving DecidableEq, Repr

namespace Report

def success (output : String) : Report :=
  { code := 0, output }

def failure (message : String) : Report :=
  { code := 1, errors := "Error: " ++ message ++ "\n" }

def misuse : Report :=
  { code := 2, errors := "See parley --help for what can be asked for.\n" }

end Report

namespace Host

/-- The parts of a path, taken by their names alone: a part and two points after it are nothing. -/
def resolve (parts : List String) : List String :=
  parts.foldl (fun done p =>
    if p = "" ∨ p = "." then done
    else if p = ".." ∧ done ≠ [] ∧ done.getLast? ≠ some ".." then done.dropLast
    else done ++ [p]) []

def normal (path : String) : String :=
  let parts := String.intercalate "/" (resolve (path.splitOn "/"))
  if path.startsWith "/" then "/" ++ parts else if parts.isEmpty then "." else parts

def isPrivate (path : String) : Bool :=
  path = DatabaseSettings.memoryPath || path.isEmpty

def nullPosition (path : String) : Nat :=
  (String.ofList (path.toList.takeWhile (· ≠ '\x00'))).utf8ByteSize

def unopened (path : String) : ExecutorError :=
  .cannotOpen ("unable to open database file: " ++ path)

/-- The store in a file. A text that holds no tables is opened, too, but cannot be used. -/
def ofContent (store : Store) : FileContent → Store
  | .text s =>
      if s.isEmpty then store
      else match Store.Saved.read? Schema.tables s with
        | some database => { store with database }
        | none => { store with isReadable := false }
  | _ => { store with isReadable := false }

def openStore [Monad m] (host : Host m) (path : String) (foreignKeys : Bool) :
    m (Except ExecutorError Store) := do
  let fresh : Store := { foreignKeys, now := host.now }
  if path.contains '\x00' then
    return .error (.cannotOpen
      ("nul byte found in provided data at position: " ++ toString (nullPosition path)))
  if isPrivate path then return .ok fresh
  match ← host.read (normal path) with
  | .directory => return .error (unopened path)
  | .absent =>
      if ← host.write (normal path) "" then return .ok fresh else return .error (unopened path)
  | content => return .ok (ofContent fresh content)

def keep [Monad m] (host : Host m) (path : String) (before after : Store) : m Unit := do
  if isPrivate path ∨ after.rollback.database = before.database then return ()
  let _ ← host.write (normal path) (Store.Saved.text after.rollback.database)

end Host

namespace Command

def rowsText (rows : List Row) : String :=
  (Json.arr (rows.map .obj)).pretty ++ "\n"

def statementText (s : CompiledStatement) : String :=
  "-- kind: " ++ s.kind.text ++ "\n" ++ s.sql ++ "\n"

def board (settings : Settings) : Board where
  options := .ofSettings settings.compiler
  mode := settings.toggle.mode
  commitsBatches := true

def operation (b : Board) : Command → Operation String
  | init => return ""
  | sql intent => return statementText (← Operation.ofQuery (b.options.compile intent []))
  | ask intent params => do
      let query := b.options.compileAndRun intent (params.map Scalar.ofLiteral)
      return rowsText (← Operation.ofQuery query)
  | list => return rowsText (← Board.listMessages)
  | vote message user value => return (← b.vote message user value).display ++ "\n"
  | react message user emoji => return (← b.react message user emoji).display ++ "\n"

def installed : String :=
  "Schema installed\n"

def perform (net : Network σ) (net₀ : σ) (settings : Settings) (env : Environment)
    (command : Command) (store : Store) : Except String String × Store :=
  if command = init then
    let (result, store) := store.install
    ((result.map fun _ => installed).mapError ExecutorError.message, store)
  else
    let services : Services (DeferredClient × σ) Store :=
      { synthesizer := DeferredClient.synthesizer net, executor := Store.executor }
    let client : DeferredClient := { settings := settings.completion, environment := env }
    let world : World (DeferredClient × σ) Store :=
      { synthesis := (client, net₀), store, listing := { ttl := settings.cache.listingTtl.toNat } }
    let (result, world) := Task.run services (operation (board settings) command).run world
    (result.mapError BoardError.message, world.store)

end Command

namespace CommandLine

def run [Monad m] (host : Host m) (net : Network σ) (net₀ : σ) (line : CommandLine) :
    m Report := do
  let loaded ← match line.config with
    | some path => Settings.ofFile host.read path
    | none => Settings.load host.read host.environment
  match loaded with
  | .error e => return .failure e.message
  | .ok settings =>
      match settings.database.resolvedPath host.environment with
      | .error e => return .failure e.message
      | .ok path =>
          match ← host.openStore path settings.database.foreignKeys with
          | .error e => return .failure e.message
          | .ok store =>
              let (result, after) :=
                line.command.perform net net₀ settings host.environment store
              host.keep path store after
              match result with
              | .ok output => return .success output
              | .error message => return .failure message

end CommandLine

namespace Invocation

def versionText : String :=
  "parley 0.1.0\n"

def helpText : String :=
  "A discussion board whose queries are written by a language model\n"
    ++ "\n"
    ++ "Usage: parley [--config <CONFIG>] <COMMAND>\n"
    ++ "\n"
    ++ "  init                               Create the board tables\n"
    ++ "  sql <INTENT>                       Show the statement for an intent\n"
    ++ "  ask <INTENT> [--param <VALUE>]...  Run the statement for an intent\n"
    ++ "  list                               List messages, newest first\n"
    ++ "  vote <MESSAGE> <USER> <VALUE>      Toggle a vote (1 or -1)\n"
    ++ "  react <MESSAGE> <USER> <EMOJI>     Toggle an emoji reaction\n"

def run [Monad m] (host : Host m) (net : Network σ) (net₀ : σ) : Invocation → m Report
  | command line => line.run host net net₀
  | version => return .success versionText
  | help => return .success helpText
  | misuse => return .misuse

end Invocation

end Agora
