import Agora.Json.Reader
import Agora.Store.Database

namespace Agora.Store.Saved

/-- Numbers with a fraction are kept by their parts, since their decimal texts may be rounded. -/
def ofValue : Value → Json
  | .null => .null
  | .integer i => .ofInt64 i
  | .text s => .str s
  | .real (.finite s m e) => .arr [.bool s, .int m, .int e]
  | .real (.infinite s) => .arr [.bool s]
  | .blob bytes => .obj [("blob", .arr (bytes.map fun b => .int b.toNat))]

def byte? : Json → Option UInt8
  | .int i => if 0 ≤ i ∧ i < 256 then some (UInt8.ofNat i.toNat) else none
  | _ => none

def value? : Json → Option Value
  | .null => some .null
  | .int i => if Digits.inInt64 i then some (.integer (Int64.ofInt i)) else none
  | .str s => some (.text s)
  | .arr [.bool s, .int m, .int e] => some (.real (.finite s m.toNat e))
  | .arr [.bool s] => some (.real (.infinite s))
  | .obj [("blob", .arr bytes)] => (bytes.mapM byte?).map .blob
  | _ => none

def ofRecord (r : Record) : Json :=
  .arr (.ofInt64 r.id :: r.fields.map fun (name, v) => .arr [.str name, ofValue v])

def field? : Json → Option (String × Value)
  | .arr [.str name, v] => (value? v).map (name, ·)
  | _ => none

def record? : Json → Option Record
  | .arr (id :: fields) => do return { id := ← id.int64?, fields := ← fields.mapM field? }
  | _ => none

def ofTable (t : TableState) : Json :=
  .arr [.str t.schema.name, .ofInt64 t.lastId, .arr (t.records.map ofRecord)]

def table? (schemas : List Table) : Json → Option TableState
  | .arr [.str name, last, .arr records] => do
      return {
        schema := ← schemas.find? (·.name = name)
        records := ← records.mapM record?
        lastId := ← last.int64? }
  | _ => none

def text (db : Database) : String :=
  (Json.obj [("tables", .arr (db.tables.map ofTable))]).compress

def read? (schemas : List Table) (s : String) : Option Database := do
  let tables ← (← (← Json.parse? s).get? "tables").arr?
  return { tables := ← tables.mapM (table? schemas) }

end Agora.Store.Saved
