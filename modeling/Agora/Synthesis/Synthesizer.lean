import Agora.Completion.Client
import Agora.Settings.Basic
import Agora.Synthesis.Error
import Agora.Synthesis.Instruction

namespace Agora

structure Synthesizer (σ : Type) where
  synthesize : String → σ → Except SynthesisError String × σ

/-- A table of intents and their replies, the latest entry first. -/
structure Fixture where
  entries : List (String × String) := []
  calls : Nat := 0
  deriving DecidableEq, Repr

namespace Fixture

def insert (f : Fixture) (intent reply : String) : Fixture :=
  { f with entries := (intent, reply) :: f.entries }

def reply? (f : Fixture) (intent : String) : Option String :=
  (f.entries.find? (·.1 = intent)).map (·.2)

def synthesizer : Synthesizer Fixture where
  synthesize intent f :=
    (match f.reply? intent with
      | some reply => .ok reply
      | none => .error (.unknownIntent intent), { f with calls := f.calls + 1 })

end Fixture

structure CompletionService (σ : Type) where
  complete : Prompt → σ → Except CompletionError String × σ

def CompletionService.synthesizer (service : CompletionService σ) : Synthesizer σ where
  synthesize intent s :=
    let (result, s) := service.complete ⟨systemInstruction, intent⟩ s
    (result.mapError .completionUnavailable, s)

structure ReplyScript where
  replies : List (Except CompletionError String) := []
  prompts : List Prompt := []

namespace ReplyScript

def service : CompletionService ReplyScript where
  complete prompt s :=
    let prompts := s.prompts ++ [prompt]
    match s.replies with
    | [] => (.error (.malformed "script exhausted"), { s with prompts })
    | reply :: replies => (reply, { replies, prompts })

end ReplyScript

structure DeferredClient where
  settings : CompletionSettings
  environment : Environment
  client : Option CompletionClient := none
  deriving DecidableEq, Repr

namespace DeferredClient

def clientOf (settings : CompletionSettings) (apiKey : Option String) : CompletionClient where
  endpoint := settings.endpoint
  model := settings.model
  apiKey
  deadline := settings.deadline?.map (1000 * ·)

/-- The client that is set up already, or else a new one. Where the key cannot be resolved nothing is
set up. -/
def resolve (d : DeferredClient) : Except SynthesisError CompletionClient :=
  match d.client with
  | some client => .ok client
  | none =>
      match d.settings.resolvedApiKey d.environment with
      | .ok key => .ok (clientOf d.settings key)
      | .error e => .error (.unconfigured e.message)

def synthesizer (net : Network σ) : Synthesizer (DeferredClient × σ) where
  synthesize intent := fun (d, s) =>
    match d.resolve with
    | .error e => (.error e, d, s)
    | .ok client =>
        let (result, s) := client.complete net ⟨systemInstruction, intent⟩ s
        (result.mapError .completionUnavailable, { d with client := some client }, s)

end DeferredClient

end Agora
