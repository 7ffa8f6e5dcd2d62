/-!
How a table came about decides whether it can still be added to.
-/
namespace Agora.Toml

inductive Origin where
  | header
  /-- On the way to the table of a header. -/
  | implicit
  /-- On the way to a dotted key. -/
  | dotted
  | inline
  deriving DecidableEq, Repr

inductive Value where
  | str (s : String)
  | int (i : Int)
  | float
  | bool (b : Bool)
  | datetime
  | arr (items : List Value)
  | table (origin : Origin) (entries : List (String × Value))
  /-- The tables of a doubly bracketed header. -/
  | tables (items : List (Origin × List (String × Value)))
  deriving Repr, Inhabited

abbrev Entries := List (String × Value)

namespace Entries

def get? (entries : Entries) (key : String) : Option Value :=
  (entries.find? (·.1 = key)).map (·.2)

def put (key : String) (value : Value) : Entries → Entries
  | [] => [(key, value)]
  | (k, v) :: rest => if k = key then (key, value) :: rest else (k, v) :: put key value rest

end Entries

abbrev Change := Origin → Entries → Option (Origin × Entries)

/-- Makes a change in the table that a path leads to, from header to header. Tables that are missing
on the way come about; of several tables under one name the last is taken. -/
def underHeaders (change : Change) : List String → Change
  | [], origin, entries => change origin entries
  | key :: path, origin, entries =>
      match entries.get? key with
      | none => do
          let (o, es) ← underHeaders change path .implicit []
          return (origin, entries.put key (.table o es))
      | some (.table o es) =>
          if o = .inline then none
          else do
            let (o, es) ← underHeaders change path o es
            return (origin, entries.put key (.table o es))
      | some (.tables items) =>
          match items.reverse with
          | [] => none
          | (o, es) :: earlier => do
              let last ← underHeaders change path o es
              return (origin, entries.put key (.tables (last :: earlier).reverse))
      | some _ => none

/-- Makes a change in the table that the path of a dotted key leads to. Only tables that have no
header of their own can be gone through. -/
def underDots (change : Change) : List String → Change
  | [], origin, entries => change origin entries
  | key :: path, origin, entries =>
      match entries.get? key with
      | none => do
          let (o, es) ← underDots change path .dotted []
          return (origin, entries.put key (.table o es))
      | some (.table o es) =>
          if o = .dotted ∨ o = .implicit then do
            let (o, es) ← underDots change path o es
            return (origin, entries.put key (.table o es))
          else none
      | some _ => none

/-- Adds a key that is not there yet. Behind a dotted path the table has to be one that dotted keys
made. -/
def addEntry (isDotted : Bool) (key : String) (value : Value) : Change := fun origin entries =>
  if isDotted ∧ origin ≠ .dotted then none
  else if (entries.get? key).isSome then none
  else some (origin, entries ++ [(key, value)])

def addDotted (path : List String) (key : String) (value : Value) : Change :=
  underDots (addEntry (!path.isEmpty) key value) path

def openTable (key : String) : Change := fun origin entries =>
  match entries.get? key with
  | none => some (origin, entries ++ [(key, .table .header [])])
  | some (.table .implicit es) => some (origin, entries.put key (.table .header es))
  | some _ => none

def openNextTable (key : String) : Change := fun origin entries =>
  match entries.get? key with
  | none => some (origin, entries ++ [(key, .tables [(.header, [])])])
  | some (.tables items) =>
      some (origin, entries.put key (.tables (items ++ [(.header, [])])))
  | some _ => none

end Agora.Toml
