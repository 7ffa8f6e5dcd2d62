import Agora.Cache
import Agora.Executor
import Agora.Synthesis.Synthesizer
/-!
Between two calls of a task another task may run, so that tasks can be interleaved step by step as
well as run from start to end.
-/
namespace Agora

inductive Task (α : Type) where
  | done (result : α)
  | synthesize (intent : String) (next : Except SynthesisError String → Task α)
  | execute (statement : BoundStatement) (next : Except ExecutorError (List Row) → Task α)
  | executeBatch (statements : List BoundStatement)
      (next : Except ExecutorError (List (List Row)) → Task α)
  | lookup (next : Option (List Row) × UInt64 → Task α)
  | store (rows : List Row) (generation : UInt64) (next : Task α)
  | invalidate (next : Task α)

namespace Task

def bind : Task α → (α → Task β) → Task β
  | done a, f => f a
  | synthesize intent next, f => synthesize intent fun r => (next r).bind f
  | execute statement next, f => execute statement fun r => (next r).bind f
  | executeBatch statements next, f => executeBatch statements fun r => (next r).bind f
  | lookup next, f => lookup fun r => (next r).bind f
  | store rows generation next, f => store rows generation (next.bind f)
  | invalidate next, f => invalidate (next.bind f)

instance : Monad Task where
  pure := done
  bind := bind

end Task

structure World (σ τ : Type) where
  synthesis : σ
  store : τ
  listing : ReadCache (List Row)
  now : Nat := 0

structure Services (σ τ : Type) where
  synthesizer : Synthesizer σ
  executor : Executor τ

namespace World

def advance (w : World σ τ) (ms : Nat) : World σ τ :=
  { w with now := w.now + ms }

end World

namespace Task

def step (services : Services σ τ) : Task α → World σ τ → Task α × World σ τ
  | done a, w => (done a, w)
  | synthesize intent next, w =>
      let (r, s) := services.synthesizer.synthesize intent w.synthesis
      (next r, { w with synthesis := s })
  | execute statement next, w =>
      let (r, t) := services.executor.execute statement w.store
      (next r, { w with store := t })
  | executeBatch statements next, w =>
      let (r, t) := services.executor.executeBatch statements w.store
      (next r, { w with store := t })
  | lookup next, w => (next (w.listing.lookup w.now), w)
  | store rows generation next, w =>
      (next, { w with listing := w.listing.store w.now rows generation })
  | invalidate next, w => (next, { w with listing := w.listing.invalidate })

def run (services : Services σ τ) : Task α → World σ τ → α × World σ τ
  | done a, w => (a, w)
  | synthesize intent next, w =>
      let (r, s) := services.synthesizer.synthesize intent w.synthesis
      (next r).run services { w with synthesis := s }
  | execute statement next, w =>
      let (r, t) := services.executor.execute statement w.store
      (next r).run services { w with store := t }
  | executeBatch statements next, w =>
      let (r, t) := services.executor.executeBatch statements w.store
      (next r).run services { w with store := t }
  | lookup next, w => (next (w.listing.lookup w.now)).run services w
  | store rows generation next, w =>
      next.run services { w with listing := w.listing.store w.now rows generation }
  | invalidate next, w => next.run services { w with listing := w.listing.invalidate }

end Task

end Agora
