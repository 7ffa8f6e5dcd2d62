namespace Agora

inductive CompletionError where
  | unreachable (cause : String)
  /-- No answer within the deadline, in seconds. -/
  | timeout (seconds : Nat)
  | status (code : Nat) (body : String)
  | malformed (reason : String)
  deriving DecidableEq, Repr

namespace CompletionError

def message : CompletionError → String
  | unreachable cause => "completion endpoint unreachable: " ++ cause
  | timeout seconds =>
      "completion request timed out after " ++ toString seconds ++ " seconds"
  | status code body => "completion endpoint returned " ++ toString code ++ ": " ++ body
  | malformed reason => "malformed completion response: " ++ reason

def isRetriable : CompletionError → Bool
  | unreachable _ | timeout _ => true
  | status code _ => code = 429 || 500 ≤ code
  | malformed _ => false

end CompletionError

end Agora
