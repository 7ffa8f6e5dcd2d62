import Agora.Board
/-!
A path takes a task over a list of calls, whatever their answers are; so what is shown of all paths
holds for every synthesizer and executor, and whatever other tasks do between two calls.
-/
namespace Agora

inductive Call where
  | synthesize (intent : String) (reply : Except SynthesisError String)
  | execute (statement : BoundStatement) (answer : Except ExecutorError (List Row))
  | executeBatch (statements : List BoundStatement)
      (answer : Except ExecutorError (List (List Row)))
  | lookup (found : Option (List Row) × UInt64)
  | store (rows : List Row) (generation : UInt64)
  | invalidate

namespace Call

def statements : Call → List BoundStatement
  | execute s _ => [s]
  | executeBatch statements _ => statements
  | _ => []

def isSynthesis : Call → Bool
  | synthesize .. => true
  | _ => false

def isExecution : Call → Bool
  | execute .. | executeBatch .. => true
  | _ => false

def isCommit : Call → Bool
  | execute _ (.ok _) | executeBatch _ (.ok _) => true
  | _ => false

def isEntryAccess : Call → Bool
  | lookup _ | store .. => true
  | _ => false

def isInvalidation : Call → Bool
  | invalidate => true
  | _ => false

end Call

namespace Task

variable {α β σ τ : Type}

inductive Makes : Task α → Call → Task α → Prop
  | synthesize {intent next} (r) : Makes (.synthesize intent next) (.synthesize intent r) (next r)
  | execute {s next} (r) : Makes (.execute s next) (.execute s r) (next r)
  | executeBatch {ss next} (r) : Makes (.executeBatch ss next) (.executeBatch ss r) (next r)
  | lookup {next} (found) : Makes (.lookup next) (.lookup found) (next found)
  | store {rows generation next} : Makes (.store rows generation next) (.store rows generation) next
  | invalidate {next} : Makes (.invalidate next) .invalidate next

inductive Path : Task α → List Call → Task α → Prop
  | nil {t} : Path t [] t
  | cons {t u v c cs} : Makes t c u → Path u cs v → Path t (c :: cs) v

theorem Path.snoc {t u v : Task α} {c : Call} {cs : List Call} (h : Path t cs u)
    (hc : Makes u c v) : Path t (cs ++ [c]) v := by
  induction h with
  | nil => exact .cons hc .nil
  | cons hm _ ih => exact .cons hm (ih hc)

theorem path_done {a : α} {cs : List Call} {u : Task α} (h : Path (.done a) cs u) :
    cs = [] ∧ u = .done a := by
  cases h with
  | nil => exact ⟨rfl, rfl⟩
  | cons hm _ => cases hm

theorem makes_bind {t : Task α} {f : α → Task β} {c : Call} {u : Task β}
    (h : Makes (t.bind f) c u) : (∃ a, t = .done a) ∨ ∃ v, Makes t c v ∧ u = v.bind f := by
  cases t with
  | done a => exact .inl ⟨a, rfl⟩
  | synthesize => cases h; exact .inr ⟨_, .synthesize _, rfl⟩
  | execute => cases h; exact .inr ⟨_, .execute _, rfl⟩
  | executeBatch => cases h; exact .inr ⟨_, .executeBatch _, rfl⟩
  | lookup => cases h; exact .inr ⟨_, .lookup _, rfl⟩
  | store => cases h; exact .inr ⟨_, .store, rfl⟩
  | invalidate => cases h; exact .inr ⟨_, .invalidate, rfl⟩

theorem path_bind {t : Task α} {f : α → Task β} {cs : List Call} {u : Task β}
    (h : Path (t.bind f) cs u) :
    (∃ v, Path t cs v ∧ u = v.bind f) ∨
      ∃ a ds es, cs = ds ++ es ∧ Path t ds (.done a) ∧ Path (f a) es u := by
  induction cs generalizing t with
  | nil => cases h; exact .inl ⟨t, .nil, rfl⟩
  | cons c cs ih =>
    obtain ⟨_, hm, hp⟩ : ∃ w, Makes (t.bind f) c w ∧ Path w cs u := by
      cases h with
      | cons hm hp => exact ⟨_, hm, hp⟩
    rcases makes_bind hm with ⟨a, rfl⟩ | ⟨v, hv, rfl⟩
    · exact .inr ⟨a, [], c :: cs, rfl, .nil, .cons hm hp⟩
    · rcases ih hp with ⟨w, hw, rfl⟩ | ⟨a, ds, es, rfl, hd, he⟩
      · exact .inl ⟨w, .cons hv hw, rfl⟩
      · exact .inr ⟨a, c :: ds, es, rfl, .cons hv hd, he⟩

theorem path_bind_done {t : Task α} {f : α → Task β} {cs : List Call} {b : β}
    (h : Path (t.bind f) cs (.done b)) :
    ∃ a ds es, cs = ds ++ es ∧ Path t ds (.done a) ∧ Path (f a) es (.done b) := by
  rcases path_bind h with ⟨v, hv, hb⟩ | h
  · cases v with
    | done a => exact ⟨a, cs, [], by simp, hv, hb ▸ .nil⟩
    | _ => simp [Task.bind] at hb
  · exact h

def Always (P : List Call → Prop) (t : Task α) : Prop :=
  ∀ cs u, Path t cs u → P cs

theorem always_done {P : List Call → Prop} (h : P []) (a : α) : Always P (.done a) := by
  intro cs u hp
  obtain ⟨rfl, -⟩ := path_done hp
  exact h

theorem always_bind {P : List Call → Prop} {t : Task α} {f : α → Task β}
    (happend : ∀ cs ds, P cs → P ds → P (cs ++ ds)) (ht : Always P t)
    (hf : ∀ a, Always P (f a)) : Always P (t.bind f) := by
  intro cs u hp
  rcases path_bind hp with ⟨v, hv, -⟩ | ⟨a, ds, es, rfl, hd, he⟩
  · exact ht _ _ hv
  · exact happend _ _ (ht _ _ hd) (hf a _ _ he)

def call? (services : Services σ τ) : Task α → World σ τ → Option Call
  | done _, _ => none
  | synthesize intent _, w =>
      some (.synthesize intent (services.synthesizer.synthesize intent w.synthesis).1)
  | execute s _, w => some (.execute s (services.executor.execute s w.store).1)
  | executeBatch ss _, w => some (.executeBatch ss (services.executor.executeBatch ss w.store).1)
  | lookup _, w => some (.lookup (w.listing.lookup w.now))
  | store rows generation _, _ => some (.store rows generation)
  | invalidate _, _ => some .invalidate

theorem makes_step {services : Services σ τ} {t : Task α} {w : World σ τ} {c : Call}
    (h : t.call? services w = some c) : Makes t c (t.step services w).1 := by
  cases t with
  | done => simp [call?] at h
  | synthesize => cases h; exact .synthesize _
  | execute => cases h; exact .execute _
  | executeBatch => cases h; exact .executeBatch _
  | lookup => cases h; exact .lookup _
  | store => cases h; exact .store
  | invalidate => cases h; exact .invalidate

def calls (services : Services σ τ) : Task α → World σ τ → List Call
  | done _, _ => []
  | synthesize intent next, w =>
      let (r, s) := services.synthesizer.synthesize intent w.synthesis
      .synthesize intent r :: (next r).calls services { w with synthesis := s }
  | execute s next, w =>
      let (r, t) := services.executor.execute s w.store
      .execute s r :: (next r).calls services { w with store := t }
  | executeBatch ss next, w =>
      let (r, t) := services.executor.executeBatch ss w.store
      .executeBatch ss r :: (next r).calls services { w with store := t }
  | lookup next, w =>
      .lookup (w.listing.lookup w.now) :: (next (w.listing.lookup w.now)).calls services w
  | store rows generation next, w =>
      .store rows generation ::
        next.calls services { w with listing := w.listing.store w.now rows generation }
  | invalidate next, w =>
      .invalidate :: next.calls services { w with listing := w.listing.invalidate }

theorem path_calls (services : Services σ τ) (t : Task α) (w : World σ τ) :
    Path t (t.calls services w) (.done (t.run services w).1) := by
  induction t generalizing w with
  | done => exact .nil
  | synthesize _ _ ih => exact .cons (.synthesize _) (ih _ _)
  | execute _ _ ih => exact .cons (.execute _) (ih _ _)
  | executeBatch _ _ ih => exact .cons (.executeBatch _) (ih _ _)
  | lookup _ ih => exact .cons (.lookup _) (ih _ _)
  | store _ _ _ ih => exact .cons .store (ih _)
  | invalidate _ ih => exact .cons .invalidate (ih _)

section Runs

variable {ρ : Type} (services : Services σ τ)

def runEach : List (Task α) → World σ τ → List α × World σ τ
  | [], w => ([], w)
  | t :: ts, w =>
      let (a, w) := t.run services w
      let (as, w) := runEach ts w
      (a :: as, w)

theorem runEach_cons {t : Task α} {ts : List (Task α)} {w w' : World σ τ} {a : α}
    (h : t.run services w = (a, w')) : runEach services (t :: ts) w =
      (a :: (runEach services ts w').1, (runEach services ts w').2) := by
  simp only [runEach, h]

theorem length_runEach (ts : List (Task α)) (w : World σ τ) :
    (runEach services ts w).1.length = ts.length := by
  induction ts generalizing w with
  | nil => rfl
  | cons t ts ih => exact congrArg (· + 1) (ih _)

theorem runEach_map_getElem? (f : ρ → Task α) (before later : List ρ) (r : ρ) (w : World σ τ) :
    (runEach services ((before ++ r :: later).map f) w).1[before.length]? =
      some ((f r).run services (runEach services (before.map f) w).2).1 := by
  induction before generalizing w with
  | nil => rfl
  | cons b before ih => exact ih _

end Runs

end Task

end Agora
