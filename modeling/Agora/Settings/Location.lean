import Agora.Settings.Reader
/-!
The file that the environment names comes first, then the one in the working directory, then the one
of the user.
-/
namespace Agora

inductive FileContent where
  | absent
  | directory
  | text (s : String)
  | binary
  deriving DecidableEq, Repr

namespace FileContent

def exists? : FileContent → Bool
  | absent => false
  | _ => true

end FileContent

namespace Settings

def ofContent (path : String) : FileContent → Except SettingsError Settings
  | .absent => .error (.fileNotFound path)
  | .directory | .binary => .error .unreadable
  | .text s => ofToml s

def ofFile [Monad m] (read : String → m FileContent) (path : String) :
    m (Except SettingsError Settings) :=
  return ofContent path (← read path)

def localFile : String :=
  "parley.toml"

def userFile? (env : Environment) : Option String :=
  let base := match env.get? "XDG_CONFIG_HOME" with
    | some dir => if dir.startsWith "/" then some dir else none
    | none => none
  let home := (env.get? "HOME").filter (!·.isEmpty)
  (base.orElse fun _ => home.map (· ++ "/.config")).map (· ++ "/parley/config.toml")

def ofFirst [Monad m] (read : String → m FileContent) :
    List String → m (Except SettingsError Settings)
  | [] => return .ok {}
  | path :: paths => do
      let content ← read path
      if content.exists? then return ofContent path content else ofFirst read paths

def load [Monad m] (read : String → m FileContent) (env : Environment) :
    m (Except SettingsError Settings) :=
  match env.get? "PARLEY_CONFIG" with
  | some path => ofFile read path
  | none => ofFirst read (localFile :: (userFile? env).toList)

end Settings

end Agora
