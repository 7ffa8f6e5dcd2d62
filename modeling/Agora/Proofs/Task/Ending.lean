import Agora.Proofs.Task.Operation

namespace Agora

open Agora.Task

namespace Call

def changesCache : Call → Bool
  | store .. | invalidate => true
  | _ => false

@[simp] theorem isCommit_synthesize (intent : String) (reply : Except SynthesisError String) :
    (synthesize intent reply).isCommit = false := rfl

@[simp] theorem isCommit_execute (s : BoundStatement) (answer : Except ExecutorError (List Row)) :
    (execute s answer).isCommit = answer.isOk := by
  cases answer <;> rfl

@[simp] theorem isCommit_executeBatch (ss : List BoundStatement)
    (answer : Except ExecutorError (List (List Row))) :
    (executeBatch ss answer).isCommit = answer.isOk := by
  cases answer <;> rfl

end Call

@[simp] theorem isOk_mapError {ε ε' α : Type} (f : ε → ε') (r : Except ε α) :
    (r.mapError f).isOk = r.isOk := by
  cases r <;> rfl

variable {ε α β σ τ : Type}

def EndsWith (Q : List Call → Except ε α → Prop) (x : ExceptT ε Task α) : Prop :=
  ∀ cs r, Path x.run cs (.done r) → Q cs r

section Rules

variable {Q : List Call → Except ε α → Prop} {R : List Call → Except ε β → Prop}
  {x : ExceptT ε Task α}

theorem endsWith_done {r : Except ε α} (h : Q [] r) : EndsWith Q (ExceptT.mk (.done r)) := by
  intro cs r' hp
  obtain ⟨rfl, hr⟩ := path_done (a := r) hp
  cases hr
  exact h

theorem endsWith_pure {a : α} (h : Q [] (.ok a)) : EndsWith Q (pure a : ExceptT ε Task α) :=
  endsWith_done h

theorem EndsWith.mono {Q' : List Call → Except ε α → Prop} (h : EndsWith Q x)
    (himp : ∀ cs r, Q cs r → Q' cs r) : EndsWith Q' x :=
  fun cs r hp => himp cs r (h cs r hp)

theorem EndsWith.andThen {f : α → ExceptT ε Task β} (hx : EndsWith Q x)
    (herror : ∀ cs e, Q cs (.error e) → R cs (.error e))
    (hok : ∀ cs a, Q cs (.ok a) → EndsWith (fun ds => R (cs ++ ds)) (f a)) :
    EndsWith R (x >>= f) := by
  intro cs r hp
  rw [run_bind] at hp
  obtain ⟨s, ds, es, rfl, hd, he⟩ := path_bind_done hp
  have hs := hx ds s hd
  cases s with
  | error e =>
    obtain ⟨rfl, hr⟩ := path_done he
    cases hr
    simpa using herror ds e hs
  | ok a => exact hok ds a hs es r he

end Rules

def CacheFree (cs : List Call) : Prop :=
  ∀ c ∈ cs, c.changesCache = false

theorem composes_cacheFree : Composes CacheFree where
  nil := by simp [CacheFree]
  append _ _ hc hd := by simpa [CacheFree, or_imp, forall_and] using ⟨hc, hd⟩

/-- A failure before which the cache was left alone. -/
def Spares (cs : List Call) (r : Except ε α) : Prop :=
  r.isOk = false → CacheFree cs

/-- At most one call of the executor, and no failure after it has done what it was asked to do. -/
structure Single (cs : List Call) (r : Except ε α) : Prop where
  once : cs.countP Call.isExecution ≤ 1
  spares : Spares cs r
  uncommitted : r.isOk = false → ∀ c ∈ cs, c.isCommit = false

/-- No call of the executor, and no failure. -/
structure Quiet (cs : List Call) (r : Except ε α) : Prop where
  noExecution : cs.countP Call.isExecution = 0
  ok : r.isOk = true

section Parts

variable {x : ExceptT ε Task α}

theorem quiet_pure (a : α) : EndsWith Quiet (pure a : ExceptT ε Task α) :=
  endsWith_pure ⟨rfl, rfl⟩

theorem spares_of_always (h : Always CacheFree x.run) : EndsWith Spares x :=
  fun cs _ hp _ => h cs _ hp

theorem EndsWith.single_of_quiet (hx : EndsWith Quiet x) : EndsWith Single x :=
  hx.mono fun _ _ h => ⟨by simp [h.noExecution], by simp [Spares, h.ok], by simp [h.ok]⟩

theorem EndsWith.quiet_andThen {f : α → ExceptT ε Task β} (hx : EndsWith Quiet x)
    (hf : ∀ a, EndsWith Quiet (f a)) : EndsWith Quiet (x >>= f) :=
  hx.andThen (fun _ _ h => nomatch h.ok) fun _ a h => (hf a).mono fun _ _ h' =>
    ⟨by simp [h.noExecution, h'.noExecution], h'.ok⟩

theorem single_nil (r : Except ε α) : Single [] r :=
  ⟨Nat.zero_le _, fun _ => composes_cacheFree.nil, by simp⟩

theorem single_ok {cs : List Call} (h : cs.countP Call.isExecution ≤ 1) (a : α) :
    Single cs (.ok a : Except ε α) :=
  ⟨h, by simp [Spares, Except.isOk, Except.toBool], by simp [Except.isOk, Except.toBool]⟩

theorem single_done (r : Except ε α) : EndsWith Single (ExceptT.mk (.done r) : ExceptT ε Task α) :=
  endsWith_done (single_nil r)

theorem EndsWith.single_andThen {f : α → ExceptT ε Task β} (hx : EndsWith Single x)
    (hf : ∀ a, EndsWith Quiet (f a)) : EndsWith Single (x >>= f) :=
  hx.andThen (fun _ _ h => ⟨h.once, h.spares, h.uncommitted⟩) fun _ a h => (hf a).mono
    fun _ _ h' => ⟨by simpa [h'.noExecution] using h.once, by simp [Spares, h'.ok], by simp [h'.ok]⟩

theorem EndsWith.spares_andThen {f : α → ExceptT ε Task β} (hx : EndsWith Spares x)
    (hf : ∀ a, EndsWith Quiet (f a)) : EndsWith Spares (x >>= f) :=
  hx.andThen (fun _ _ h => h) fun _ a _ => (hf a).mono fun _ _ h' => by simp [Spares, h'.ok]

theorem EndsWith.single_map {f : α → β} (hx : EndsWith Single x) : EndsWith Single (f <$> x) :=
  hx.single_andThen fun a => quiet_pure (f a)

theorem EndsWith.spares_map {f : α → β} (hx : EndsWith Spares x) : EndsWith Spares (f <$> x) :=
  hx.spares_andThen fun a => quiet_pure (f a)

theorem quiet_invalidate : EndsWith Quiet Operation.invalidate := by
  intro cs r hp
  cases hp with
  | cons hm hp =>
    cases hm with
    | invalidate =>
      obtain ⟨rfl, hr⟩ := path_done hp
      cases hr
      exact ⟨rfl, rfl⟩

end Parts

section Queries

variable {q : Query α}

theorem EndsWith.ofQuery {Q : List Call → Except QueryError α → Prop}
    {R : List Call → Except BoardError α → Prop} (h : EndsWith Q q)
    (hmap : ∀ cs r, Q cs r → R cs (r.mapError .query)) : EndsWith R (Operation.ofQuery q) := by
  intro cs r hp
  rw [run_ofQuery] at hp
  obtain ⟨s, ds, es, rfl, hd, he⟩ := path_bind_done hp
  obtain ⟨rfl, hr⟩ := path_done he
  cases hr
  simpa using hmap ds s (h ds s hd)

theorem EndsWith.single_ofQuery (h : EndsWith Single q) : EndsWith Single (Operation.ofQuery q) :=
  h.ofQuery fun _ _ hs =>
    ⟨hs.once, by simpa [Spares] using hs.spares, by simpa using hs.uncommitted⟩

theorem EndsWith.spares_ofQuery (h : EndsWith Spares q) : EndsWith Spares (Operation.ofQuery q) :=
  h.ofQuery fun _ _ hs => by simpa [Spares] using hs

theorem single_compileAndRun (options : CompilerOptions) (intent : String)
    (params : List Scalar) : EndsWith Single (options.compileAndRun intent params) := by
  intro cs r hp
  rcases path_compileAndRun hp with ⟨rfl | ⟨reply, rfl⟩, -⟩ | ⟨raw, s, answer, -, rfl, hr⟩
  · exact single_nil r
  · exact ⟨Nat.zero_le _, by simp [Spares, CacheFree, Call.changesCache], by simp⟩
  · cases hr
    exact ⟨Nat.le_refl _, by simp [Spares, CacheFree, Call.changesCache], by simp⟩

theorem always_cacheFree_compileAndRun (options : CompilerOptions) (intent : String)
    (params : List Scalar) : Always CacheFree (options.compileAndRun intent params).run := by
  intro cs u hp
  rcases path_compileAndRun hp with ⟨rfl | ⟨reply, rfl⟩, -⟩ | ⟨raw, s, answer, -, rfl, -⟩ <;>
    simp [CacheFree, Call.changesCache]

theorem single_executeBatch (statements : List BoundStatement) :
    EndsWith Single (Query.executeBatch statements) := by
  intro cs r hp
  cases hp with
  | cons hm hp =>
    cases hm with
    | executeBatch answer =>
      obtain ⟨rfl, hr⟩ := path_done hp
      cases hr
      exact ⟨Nat.le_refl _, by simp [Spares, CacheFree, Call.changesCache], by simp⟩

theorem single_runOne (options : CompilerOptions) (intent : String) (params : List Scalar) :
    EndsWith Single (options.runOne intent params) :=
  (single_compileAndRun options intent params).single_andThen fun _ => quiet_pure _

end Queries

/-- Where the executor fails such a call, what is seen of its state stays as it was. -/
def Call.FailsClean {ν : Type} (executor : Executor τ) (view : τ → ν) : Call → Prop
  | execute s _ => ∀ t, (executor.execute s t).1.isOk = false →
      view (executor.execute s t).2 = view t
  | executeBatch ss _ => ∀ t, (executor.executeBatch ss t).1.isOk = false →
      view (executor.executeBatch ss t).2 = view t
  | _ => True

section Runs

variable (services : Services σ τ) {t : Task α} {w : World σ τ}

theorem run_listing (h : CacheFree (t.calls services w)) :
    (t.run services w).2.listing = w.listing := by
  induction t generalizing w with
  | done => rfl
  | synthesize _ _ ih | execute _ _ ih | executeBatch _ _ ih =>
    exact ih _ (List.forall_mem_cons.1 h).2
  | lookup _ ih => exact ih _ (List.forall_mem_cons.1 h).2
  | store | invalidate => exact nomatch (List.forall_mem_cons.1 h).1

theorem run_store {ν : Type} (view : τ → ν)
    (hclean : ∀ c ∈ t.calls services w, c.FailsClean services.executor view)
    (h : ∀ c ∈ t.calls services w, c.isCommit = false) :
    view (t.run services w).2.store = view w.store := by
  induction t generalizing w with
  | done => rfl
  | synthesize _ _ ih | lookup _ ih =>
    exact ih _ (List.forall_mem_cons.1 hclean).2 (List.forall_mem_cons.1 h).2
  | execute s _ ih | executeBatch ss _ ih =>
    obtain ⟨hclean, hcleanRest⟩ := List.forall_mem_cons.1 hclean
    obtain ⟨hfirst, hrest⟩ := List.forall_mem_cons.1 h
    exact (ih _ hcleanRest hrest).trans (hclean w.store (by simpa using hfirst))
  | store _ _ _ ih | invalidate _ ih =>
    exact ih (List.forall_mem_cons.1 hclean).2 (List.forall_mem_cons.1 h).2

end Runs

end Agora
