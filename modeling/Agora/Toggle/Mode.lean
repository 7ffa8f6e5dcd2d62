namespace Agora

inductive ToggleMode where
  /-- In one batch where the store commits batches, else as `compiled`. -/
  | auto
  | atomic
  | compiled
  deriving DecidableEq, Repr

namespace ToggleMode

def name : ToggleMode → String
  | auto => "auto"
  | atomic => "atomic"
  | compiled => "compiled"

def ofName? (s : String) : Option ToggleMode :=
  [auto, atomic, compiled].find? (·.name = s)

def usesBatch (mode : ToggleMode) (commitsBatches : Bool) : Bool :=
  match mode with
  | auto => commitsBatches
  | atomic => true
  | compiled => false

end ToggleMode

end Agora
