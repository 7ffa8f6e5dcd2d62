import Agora.Store.Reading
/-!
A store holds for each table its records, in the order of their ids, and the highest id that was
ever given away.
-/
namespace Agora.Store

structure Record where
  id : Int64
  fields : List (String × Value)
  deriving DecidableEq, Repr

namespace Record

def get (r : Record) (column : String) : Value :=
  if column = Column.id.name then .integer r.id else (r.fields.lookup column).getD .null

end Record

structure TableState where
  schema : Table
  records : List Record := []
  lastId : Int64 := 0
  deriving DecidableEq, Repr

structure Database where
  tables : List TableState := []
  deriving DecidableEq, Repr

def columnOf? (t : Table) (name : String) : Option Column :=
  t.columns.find? fun c => Read.fold c.name = Read.fold name

namespace TableState

/-- The id of the next record that is given none; none is left after the greatest number. -/
def nextId? (t : TableState) : Option Int64 :=
  let last := t.records.foldl (fun n r => max n r.id) t.lastId
  if last = Int64.maxValue then none else some (last + 1)

def put (t : TableState) (r : Record) : TableState :=
  { t with records := t.records.takeWhile (·.id < r.id) ++ r :: t.records.dropWhile (·.id < r.id) }

def remove (t : TableState) (id : Int64) : TableState :=
  { t with records := t.records.filter (·.id ≠ id) }

def useId (t : TableState) (id : Int64) : TableState :=
  { t with lastId := max t.lastId id }

end TableState

namespace Database

def table? (db : Database) (name : String) : Option TableState :=
  db.tables.find? fun t => Read.fold t.schema.name = Read.fold name

def replace (db : Database) (t : TableState) : Database :=
  { tables := db.tables.map fun u => if u.schema.name = t.schema.name then t else u }

def install (db : Database) (tables : List Table) : Database :=
  { tables := db.tables ++
      (tables.filter fun t => (db.table? t.name).isNone).map fun t => { schema := t } }

def hasId (db : Database) (table : String) (v : Value) : Bool :=
  (db.table? table).any fun t => t.records.any fun r => Value.integer r.id = v

structure Reference where
  table : String
  id : Int64
  column : String
  parent : String
  value : Value
  deriving DecidableEq, Repr

def referencesOf (t : Table) (r : Record) : List Reference :=
  t.columns.filterMap fun c => c.parent.bind fun parent =>
    let value := r.get c.name
    if value.isNull then none
    else some { table := t.name, id := r.id, column := c.name, parent, value }

def dangling (db : Database) : List Reference :=
  (db.tables.flatMap fun t => t.records.flatMap (referencesOf t.schema)).filter
    fun ref => !db.hasId ref.parent ref.value

def breaksReferences (before after : Database) : Bool :=
  let known := before.dangling
  after.dangling.any (!known.contains ·)

def isOrphan (before db : Database) (t : Table) (r : Record) : Bool :=
  (referencesOf t r).any fun ref =>
    before.hasId ref.parent ref.value && !db.hasId ref.parent ref.value

def dropOrphans (before db : Database) (t : TableState) : Database :=
  db.replace { t with records := t.records.filter (!isOrphan before db t.schema ·) }

/-- Takes away the records that refer to records that are gone, parents before their children. -/
def cascade (before after : Database) : Database :=
  after.tables.foldl (fun db t => dropOrphans before db t) after

end Database

end Agora.Store
