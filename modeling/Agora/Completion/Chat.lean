import Agora.Completion.Error
import Agora.Json.Printer

namespace Agora

structure Prompt where
  system : String
  user : String
  deriving DecidableEq, Repr

inductive ChatRole where
  | system
  | user
  deriving DecidableEq, Repr

def ChatRole.text : ChatRole → String
  | system => "system"
  | user => "user"

structure ChatMessage where
  role : ChatRole
  content : String
  deriving DecidableEq, Repr

structure ChatRequest where
  model : String
  messages : List ChatMessage
  deriving DecidableEq, Repr

namespace ChatMessage

def toJson (m : ChatMessage) : Json :=
  .obj [("role", .str m.role.text), ("content", .str m.content)]

end ChatMessage

namespace ChatRequest

def ofPrompt (model : String) (prompt : Prompt) : ChatRequest :=
  { model, messages := [⟨.system, prompt.system⟩, ⟨.user, prompt.user⟩] }

def toJson (r : ChatRequest) : Json :=
  .obj [("model", .str r.model), ("messages", .arr (r.messages.map ChatMessage.toJson))]

def body (r : ChatRequest) : String :=
  r.toJson.compress

end ChatRequest

def extractCompletion (response : Json) : Except CompletionError String :=
  match (response.get? "choices").bind Json.arr? with
  | none | some [] => .error (.malformed "response has no choices")
  | some (choice :: _) =>
      match ((choice.get? "message").bind (Json.get? "content")).bind Json.str? with
      | some text => .ok text
      | none => .error (.malformed "first choice has no text content")

end Agora
