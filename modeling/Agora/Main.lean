import Agora.Command.Run
import Agora.Text.Timestamp
import Std.Time.DateTime.Timestamp

namespace Agora.Main

def environment : IO Environment := do
  let bytes ← try IO.FS.readBinFile "/proc/self/environ" catch _ => pure ByteArray.empty
  let entries := (String.fromUTF8? bytes).getD ""
  return (entries.splitOn "\x00").foldl (fun env entry =>
    match entry.splitOn "=" with
    | name :: value :: more => env.set name (String.intercalate "=" (value :: more))
    | _ => env) {}

def contentOf (file : IO.FS.Handle) : IO FileContent :=
  try
    match String.fromUTF8? (← file.readBinToEnd) with
    | some s => return .text s
    | none => return .binary
  catch
    | .inappropriateType .. => return .directory
    | _ => return .binary

def read (path : String) : IO FileContent := do
  let opened : Except FileContent IO.FS.Handle ←
    try
      pure (.ok (← IO.FS.Handle.mk path .read))
    catch
      | .noFileOrDirectory .. | .inappropriateType .. => pure (.error .absent)
      | _ => pure (.error .binary)
  match opened with
  | .ok file => contentOf file
  | .error content => return content

def write (path content : String) : IO Bool :=
  try
    IO.FS.writeFile path content
    return true
  catch _ => return false

def host : IO (Host IO) := do
  let now ← Std.Time.Timestamp.now
  return {
    environment := ← environment
    read
    write
    now := Timestamp.text now.toSecondsSinceUnixEpoch.val.toNat }

end Agora.Main

open Agora in
def main (words : List String) : IO UInt32 := do
  let report ← (CommandLine.ofWords words).run (← Main.host) Network.offline ()
  IO.print report.output
  IO.eprint report.errors
  return UInt32.ofNat report.code
