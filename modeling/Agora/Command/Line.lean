import Agora.Number.Digits
/-!
Options may stand before and after arguments, with their value in the same word or in the next one;
after two hyphens alone all words are arguments. A line is read up to the first word that asks for
help or cannot stand where it stands.
-/
namespace Agora

inductive Command where
  | init
  | sql (intent : String)
  | ask (intent : String) (params : List String)
  | list
  | vote (message user value : Int64)
  | react (message user : Int64) (emoji : String)
  deriving DecidableEq, Repr

structure CommandLine where
  config : Option String := none
  command : Command
  deriving DecidableEq, Repr

inductive Invocation where
  | command (line : CommandLine)
  | version
  | help
  | misuse
  deriving DecidableEq, Repr

namespace CommandLine

structure Argument where
  isNumber : Bool := false
  mayHyphen : Bool := false
  deriving DecidableEq, Repr

inductive Verb where
  | init
  | sql
  | ask
  | list
  | vote
  | react
  deriving DecidableEq, Repr

namespace Verb

def name : Verb → String
  | init => "init"
  | sql => "sql"
  | ask => "ask"
  | list => "list"
  | vote => "vote"
  | react => "react"

def ofName? (s : String) : Option Verb :=
  [init, sql, ask, list, vote, react].find? (·.name = s)

def arguments : Verb → List Argument
  | init | list => []
  | sql | ask => [{}]
  | vote => [{ isNumber := true }, { isNumber := true }, { isNumber := true, mayHyphen := true }]
  | react => [{ isNumber := true }, { isNumber := true }, {}]

end Verb

inductive ValueOption where
  | config
  | param
  deriving DecidableEq, Repr

inductive Stop where
  | version
  | help
  | misuse
  deriving DecidableEq, Repr

inductive Meaning where
  | value
  /-- Two hyphens: the rest are arguments. -/
  | rest
  | option (o : ValueOption) (attached : Option String)
  | stop (s : Stop)
  deriving DecidableEq, Repr

structure Gathered where
  verb : Option Verb := none
  config : Option String := none
  params : List String := []
  arguments : List String := []
  deriving DecidableEq, Repr

namespace Gathered

def expected (g : Gathered) : Option Argument :=
  (g.verb.bind fun v => v.arguments[g.arguments.length]?)

def mayHyphen (g : Gathered) : Bool :=
  (g.expected.map (·.mayHyphen)).getD false

def optionOf? (g : Gathered) (long : String) (short : Char) : Option ValueOption :=
  if long = "config" ∨ short = 'c' then some .config
  else if (long = "param" ∨ short = 'p') ∧ g.verb = some .ask then some .param
  else none

def stopOf? (g : Gathered) (long : String) (short : Char) : Option Stop :=
  if long = "help" ∨ short = 'h' then some .help
  else if (long = "version" ∨ short = 'V') ∧ g.verb = none then some .version
  else none

def noShort : Char := '-'

def long (g : Gathered) (name : String) (attached : Option String) : Meaning :=
  match g.optionOf? name noShort, g.stopOf? name noShort with
  | some o, _ => .option o attached
  | none, some s => .stop (if attached.isSome then .misuse else s)
  | none, none => if g.mayHyphen then .value else .stop .misuse

def isShort (g : Gathered) (c : Char) : Bool :=
  (g.optionOf? "" c).isSome || (g.stopOf? "" c).isSome

def attachedTo : List Char → Option String
  | [] => none
  | '=' :: s => some (String.ofList s)
  | s => some (String.ofList s)

def short (g : Gathered) (c : Char) (s : List Char) : Meaning :=
  if g.mayHyphen && !(c :: s).all g.isShort then .value
  else match g.optionOf? "" c, g.stopOf? "" c with
    | some o, _ => .option o (attachedTo s)
    | none, some stop => .stop stop
    | none, none => .stop .misuse

/-- What a word is after the words before it; `pending` is the option that has no value yet. -/
def meaning (g : Gathered) (pending : Option ValueOption) (word : String) : Meaning :=
  if pending = some .param then .value
  else match word.toList with
    | ['-', '-'] => .rest
    | '-' :: '-' :: s =>
        g.long (String.ofList (s.takeWhile (· ≠ '=')))
          (if s.contains '=' then some (String.ofList ((s.dropWhile (· ≠ '=')).drop 1)) else none)
    | '-' :: c :: s => g.short c s
    | _ => .value

def give (g : Gathered) (value : String) : ValueOption → Except Stop Gathered
  | .config =>
      if g.config.isSome ∨ value.isEmpty then .error .misuse
      else .ok { g with config := some value }
  | .param => .ok { g with params := g.params ++ [value] }

def place (g : Gathered) (word : String) : Except Stop Gathered :=
  match g.expected with
  | none => .error .misuse
  | some a =>
      if a.isNumber ∧ (Digits.readInt64? word.toList).isNone then .error .misuse
      else .ok { g with arguments := g.arguments ++ [word] }

def read (g : Gathered) (pending : Option ValueOption) : List String → Except Stop Gathered
  | [] => if pending.isSome then .error .misuse else .ok g
  | word :: words =>
      match g.meaning pending word, pending with
      | .value, some o => do read (← g.give word o) none words
      | .value, none => do read (← g.place word) none words
      | _, some _ => .error .misuse
      | .rest, none => words.foldlM place g
      | .option o none, none => read g (some o) words
      | .option o (some value), none => do read (← g.give value o) none words
      | .stop s, none => .error s

end Gathered

def number (word : String) : Int64 :=
  (Digits.readInt64? word.toList).getD 0

def commandOf? (g : Gathered) : Option Command :=
  g.verb.bind fun verb => match verb, g.arguments with
    | .init, [] => some .init
    | .list, [] => some .list
    | .sql, [intent] => some (.sql intent)
    | .ask, [intent] => some (.ask intent g.params)
    | .vote, [m, u, v] => some (.vote (number m) (number u) (number v))
    | .react, [m, u, emoji] => some (.react (number m) (number u) emoji)
    | _, _ => none

/-- Reads what follows the verb. A file named there counts more than one named before. -/
def afterVerb (config : Option String) (verb : Verb) (words : List String) : Except Stop Invocation :=
  do
    let g ← Gathered.read { verb := some verb } none words
    match commandOf? g with
    | some command => return .command { config := g.config.or config, command }
    | none => throw .misuse

def helpWord : String :=
  "help"

def helpOn : List String → Stop
  | [] => .help
  | [name] => if name = helpWord ∨ (Verb.ofName? name).isSome then .help else .misuse
  | _ => .misuse

def beforeVerb (g : Gathered) (pending : Option ValueOption) :
    List String → Except Stop Invocation
  | [] => .error .misuse
  | word :: words =>
      match g.meaning pending word, pending with
      | .value, some o => do beforeVerb (← g.give word o) none words
      | .value, none =>
          if word = helpWord then .error (helpOn words)
          else match Verb.ofName? word with
            | some verb => afterVerb g.config verb words
            | none => .error .misuse
      | _, some _ => .error .misuse
      | .rest, none => .error .misuse
      | .option o none, none => beforeVerb g (some o) words
      | .option o (some value), none => do beforeVerb (← g.give value o) none words
      | .stop s, none => .error s

def ofWords (words : List String) : Invocation :=
  match beforeVerb {} none words with
  | .ok i => i
  | .error .version => .version
  | .error .help => .help
  | .error .misuse => .misuse

end CommandLine

end Agora
