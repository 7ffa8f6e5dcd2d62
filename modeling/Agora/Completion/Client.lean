import Agora.Completion.Chat
import Agora.Json.Reader

namespace Agora

structure HttpRequest where
  url : String
  authorization : Option String
  contentType : String
  body : String
  deriving DecidableEq, Repr

inductive HttpBody where
  | whole (text : String)
  /-- The connection closes before the announced end. -/
  | truncated
  /-- Nothing more comes before the deadline. -/
  | stalled
  deriving DecidableEq, Repr

inductive Exchange where
  | unreachable (cause : String)
  | silent
  | response (status : Nat) (body : HttpBody)
  deriving DecidableEq, Repr

structure Network (σ : Type) where
  exchange : HttpRequest → σ → Exchange × σ

def Network.offline : Network σ where
  exchange request s :=
    (.unreachable ("error sending request for url (" ++ request.url ++ ")"), s)

structure CompletionClient where
  endpoint : String
  model : String
  apiKey : Option String := none
  /-- In milliseconds; without one a silent endpoint is waited for forever. -/
  deadline : Option Nat := none
  deriving DecidableEq, Repr

namespace CompletionClient

/-- Controls other than the tab cannot stand in a header. -/
def isHeaderChar (c : Char) : Bool :=
  c = '\t' || (0x20 ≤ c.toNat && c.toNat ≠ 0x7F)

def authorization (client : CompletionClient) : Option String :=
  client.apiKey.map ("Bearer " ++ ·)

def request? (client : CompletionClient) (prompt : Prompt) : Option HttpRequest :=
  if (client.authorization.getD "").toList.all isHeaderChar then
    some { url := client.endpoint
           authorization := client.authorization
           contentType := "application/json"
           body := (ChatRequest.ofPrompt client.model prompt).body }
  else none

def deadlineSeconds (client : CompletionClient) : Nat :=
  client.deadline.getD 0 / 1000

def isSuccess (status : Nat) : Bool :=
  200 ≤ status && status < 300

def undecodable : String :=
  "error decoding response body"

def interpret (client : CompletionClient) : Exchange → Except CompletionError String
  | .unreachable cause => .error (.unreachable cause)
  | .silent => .error (.timeout client.deadlineSeconds)
  | .response status body =>
      if isSuccess status then
        match body with
        | .whole text => match Json.parse? text with
          | some json => extractCompletion json
          | none => .error (.malformed undecodable)
        | .truncated => .error (.malformed undecodable)
        | .stalled => .error (.timeout client.deadlineSeconds)
      else
        match body with
        | .whole text => .error (.status status text)
        | .truncated | .stalled =>
            .error (.status status ("<body unreadable: " ++ undecodable ++ ">"))

def complete (net : Network σ) (client : CompletionClient) (prompt : Prompt) (s : σ) :
    Except CompletionError String × σ :=
  match client.request? prompt with
  | none => (.error (.unreachable "builder error"), s)
  | some request =>
      let (exchange, s) := net.exchange request s
      (client.interpret exchange, s)

end CompletionClient

end Agora
