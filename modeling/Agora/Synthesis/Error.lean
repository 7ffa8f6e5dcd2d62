import Agora.Completion.Error
import Agora.Text.Quoted

namespace Agora

inductive SynthesisError where
  | completionUnavailable (error : CompletionError)
  | unconfigured (reason : String)
  | unknownIntent (intent : String)
  | noStatement (raw : String)
  deriving DecidableEq, Repr

namespace SynthesisError

def message : SynthesisError → String
  | completionUnavailable error => "completion unavailable: " ++ error.message
  | unconfigured reason => "completion service not configured: " ++ reason
  | unknownIntent intent => "no SQL registered for intent: " ++ intent
  | noStatement raw => "completion did not contain a SQL statement: " ++ Text.shown raw

end SynthesisError

end Agora
