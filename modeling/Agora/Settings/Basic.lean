import Agora.Settings.Environment
import Agora.Toggle.Mode
import Agora.Text.Blank

namespace Agora

structure DatabaseSettings where
  /-- The file of the store, or `:memory:`; may refer to environment variables. -/
  path : String := "board.db"
  foreignKeys : Bool := true
  deriving DecidableEq, Repr

structure CompletionSettings where
  endpoint : String := "https://ai.hackclub.com/proxy/v1/chat/completions"
  model : String := "google/gemini-3-flash-preview"
  apiKey : Option String := some "$\x7bAI_API_KEY\x7d"
  /-- In seconds; 0 is no deadline. -/
  timeout : UInt64 := 60
  deriving DecidableEq, Repr

structure CompilerSettings where
  requireStatement : Bool := true
  logSql : Bool := true
  deriving DecidableEq, Repr

structure CacheSettings where
  /-- In milliseconds. -/
  listingTtl : UInt64 := 60000
  deriving DecidableEq, Repr

structure ToggleSettings where
  mode : ToggleMode := .auto
  deriving DecidableEq, Repr

structure Settings where
  database : DatabaseSettings := {}
  completion : CompletionSettings := {}
  compiler : CompilerSettings := {}
  cache : CacheSettings := {}
  toggle : ToggleSettings := {}
  deriving DecidableEq, Repr

inductive SettingsError where
  | fileNotFound (path : String)
  | unreadable
  | malformed
  | missingVariable (name : String)
  | invalid (reason : String)
  deriving DecidableEq, Repr

namespace SettingsError

def message : SettingsError → String
  | fileNotFound path => "Config file not found: " ++ path
  | unreadable => "Failed to read config file"
  | malformed => "Failed to parse config file"
  | missingVariable name => "Missing environment variable: " ++ name
  | invalid reason => "Invalid configuration: " ++ reason

end SettingsError

def Environment.resolve (env : Environment) (s : String) : Except SettingsError String :=
  (env.expand s).mapError .missingVariable

namespace DatabaseSettings

def memoryPath : String :=
  ":memory:"

def resolvedPath (s : DatabaseSettings) (env : Environment) : Except SettingsError String :=
  env.resolve s.path

def isInMemory (s : DatabaseSettings) : Bool :=
  s.path = memoryPath

end DatabaseSettings

namespace CompletionSettings

def resolvedApiKey (s : CompletionSettings) (env : Environment) :
    Except SettingsError (Option String) :=
  match s.apiKey with
  | none => .ok none
  | some key => (env.resolve key).map some

def deadline? (s : CompletionSettings) : Option Nat :=
  if s.timeout = 0 then none else some s.timeout.toNat

end CompletionSettings

namespace Settings

def isBlankText (s : String) : Bool :=
  Text.allBlank s.toList

def validate (s : Settings) : Except SettingsError Settings :=
  if isBlankText s.database.path then .error (.invalid "database.path must not be empty")
  else if isBlankText s.completion.endpoint then
    .error (.invalid "completion.endpoint must not be empty")
  else if s.cache.listingTtl = 0 then
    .error (.invalid "cache.listing_ttl_ms must be positive")
  else .ok s

end Settings

end Agora
