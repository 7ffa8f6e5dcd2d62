import Agora.Settings.Basic
import Agora.Toml.Document
/-!
A section is a table with a key for each field, or an array with the fields in order. Keys that are
no fields are passed over, and fields that are missing keep their values.
-/
namespace Agora

namespace Toml.Value

def text? : Value → Option String
  | .str s => some s
  | _ => none

def bool? : Value → Option Bool
  | .bool b => some b
  | _ => none

def uint64? : Value → Option UInt64
  | .int i => if 0 ≤ i ∧ i < UInt64.size then some (UInt64.ofNat i.toNat) else none
  | _ => none

/-- A choice by its name, alone or as the one key of a table that holds nothing else. -/
def choice? (ofName? : String → Option α) : Value → Option α
  | .str s => ofName? s
  | .table _ [(s, .table _ [])] | .table _ [(s, .arr [])] => ofName? s
  | _ => none

end Toml.Value

structure SettingField (α : Type) where
  key : String
  read : Toml.Value → α → Option α

namespace SettingField

def of (key : String) (read : Toml.Value → Option β) (put : β → α → α) : SettingField α where
  key
  read v a := (read v).map (put · a)

def readTable (fields : List (SettingField α)) (entries : Toml.Entries) (a : α) : Option α :=
  entries.foldlM (fun a (key, v) =>
    match fields.find? (·.key = key) with
    | some field => field.read v a
    | none => some a) a

def readArray : List (SettingField α) → List Toml.Value → α → Option α
  | field :: fields, v :: vs, a => (field.read v a).bind (readArray fields vs)
  | _, _, a => some a

def readSection (fields : List (SettingField α)) (a : α) : Toml.Value → Option α
  | .table _ entries => readTable fields entries a
  | .arr vs => readArray fields vs a
  | .tables ts => readArray fields (ts.map fun t => .table t.1 t.2) a
  | _ => none

end SettingField

namespace Settings

open SettingField Toml.Value

def databaseFields : List (SettingField DatabaseSettings) :=
  [.of "path" text? fun v s => { s with path := v },
    .of "foreign_keys" bool? fun v s => { s with foreignKeys := v }]

def completionFields : List (SettingField CompletionSettings) :=
  [.of "endpoint" text? fun v s => { s with endpoint := v },
    .of "model" text? fun v s => { s with model := v },
    .of "api_key" text? fun v s => { s with apiKey := some v },
    .of "timeout_secs" uint64? fun v s => { s with timeout := v }]

def compilerFields : List (SettingField CompilerSettings) :=
  [.of "require_statement" bool? fun v s => { s with requireStatement := v },
    .of "log_sql" bool? fun v s => { s with logSql := v }]

def cacheFields : List (SettingField CacheSettings) :=
  [.of "listing_ttl_ms" uint64? fun v s => { s with listingTtl := v }]

def toggleFields : List (SettingField ToggleSettings) :=
  [.of "mode" (choice? ToggleMode.ofName?) fun v s => { s with mode := v }]

def sections : List (SettingField Settings) :=
  [.of "database" (readSection databaseFields {}) fun v s => { s with database := v },
    .of "completion" (readSection completionFields {}) fun v s => { s with completion := v },
    .of "compiler" (readSection compilerFields {}) fun v s => { s with compiler := v },
    .of "cache" (readSection cacheFields {}) fun v s => { s with cache := v },
    .of "toggle" (readSection toggleFields {}) fun v s => { s with toggle := v }]

def ofToml (text : String) : Except SettingsError Settings :=
  match (Toml.read? text).bind fun entries => readTable sections entries {} with
  | none => .error .malformed
  | some s => s.validate

end Settings

end Agora
