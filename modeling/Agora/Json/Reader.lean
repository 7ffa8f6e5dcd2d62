import Agora.Json.Token
/-!
The tokens of a text are consumed one after the other with a stack of the arrays and objects that
are still open; at most 127 may be open at a time.
-/
namespace Agora.Json

def deepest : Nat := 127

inductive Frame where
  | arr (items : List Json)
  | obj (fields : List (String × Json))
  /-- An object whose next field has its name already. -/
  | field (fields : List (String × Json)) (name : String)
  deriving Repr

inductive Expect where
  | value
  | valueOrClose
  | name
  | nameOrClose
  | colon
  | commaOrClose
  | nothing (result : Json)
  deriving Repr

structure State where
  stack : List Frame := []
  expect : Expect := .value
  deriving Repr

def State.finish (stack : List Frame) (v : Json) : Option State :=
  match stack with
  | [] => some ⟨[], .nothing v⟩
  | .arr items :: rest => some ⟨.arr (v :: items) :: rest, .commaOrClose⟩
  | .field fields name :: rest => some ⟨.obj ((name, v) :: fields) :: rest, .commaOrClose⟩
  | .obj _ :: _ => none

def State.push (stack : List Frame) (frame : Frame) (expect : Expect) : Option State :=
  if stack.length < deepest then some ⟨frame :: stack, expect⟩ else none

def State.closeArr : List Frame → Option State
  | .arr items :: rest => State.finish rest (.arr items.reverse)
  | _ => none

def State.closeObj : List Frame → Option State
  | .obj fields :: rest => State.finish rest (.obj (Fields.ofList fields.reverse))
  | _ => none

def State.start (stack : List Frame) : Token → Option State
  | .openArr => State.push stack (.arr []) .valueOrClose
  | .openObj => State.push stack (.obj []) .nameOrClose
  | .str s => State.finish stack (.str s)
  | .atom v => State.finish stack v
  | _ => none

def State.name : List Frame → Token → Option State
  | .obj fields :: rest, .str s => some ⟨.field fields s :: rest, .colon⟩
  | _, _ => none

def State.comma : List Frame → Option State
  | stack@(.arr _ :: _) => some ⟨stack, .value⟩
  | stack@(.obj _ :: _) => some ⟨stack, .name⟩
  | _ => none

def State.step (st : State) (t : Token) : Option State :=
  match st.expect, t with
  | .valueOrClose, .closeArr => State.closeArr st.stack
  | .nameOrClose, .closeObj => State.closeObj st.stack
  | .commaOrClose, .closeArr => State.closeArr st.stack
  | .commaOrClose, .closeObj => State.closeObj st.stack
  | .commaOrClose, .comma => State.comma st.stack
  | .colon, .colon => some ⟨st.stack, .value⟩
  | .value, t => State.start st.stack t
  | .valueOrClose, t => State.start st.stack t
  | .name, t => State.name st.stack t
  | .nameOrClose, t => State.name st.stack t
  | _, _ => none

def State.result? (st : State) : Option Json :=
  match st.expect with
  | .nothing v => some v
  | _ => none

def read? (s : List Char) : Option Json :=
  (tokens? s).bind fun ts => (ts.foldlM State.step ({} : State)).bind State.result?

def parse? (s : String) : Option Json :=
  read? s.toList

end Agora.Json
