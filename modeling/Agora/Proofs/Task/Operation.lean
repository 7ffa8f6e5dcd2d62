import Agora.Proofs.Task.Call

namespace Agora

open Agora.Task

variable {ε α β : Type} {P : List Call → Prop}

theorem run_bind (x : ExceptT ε Task α) (f : α → ExceptT ε Task β) :
    (x >>= f).run = x.run.bind fun
      | .ok a => (f a).run
      | .error e => .done (.error e) := rfl

theorem run_map (f : α → β) (x : ExceptT ε Task α) :
    (f <$> x).run = x.run.bind fun
      | .ok a => .done (.ok (f a))
      | .error e => .done (.error e) := rfl

theorem run_ofQuery (q : Query α) :
    (Operation.ofQuery q).run = q.run.bind fun r => .done (r.mapError .query) := rfl

theorem path_andThen_ok {x : ExceptT ε Task α} {f : α → ExceptT ε Task β} {cs : List Call} {b : β}
    (h : Path (x >>= f).run cs (.done (.ok b))) :
    ∃ a ds es, cs = ds ++ es ∧ Path x.run ds (.done (.ok a)) ∧ Path (f a).run es (.done (.ok b)) := by
  rw [run_bind] at h
  obtain ⟨r, ds, es, rfl, hd, he⟩ := path_bind_done h
  cases r with
  | error e => obtain ⟨-, he⟩ := path_done he; cases he
  | ok a => exact ⟨a, ds, es, rfl, hd, he⟩

theorem path_map_ok {f : α → β} {x : ExceptT ε Task α} {cs : List Call} {b : β}
    (h : Path (f <$> x).run cs (.done (.ok b))) :
    ∃ a, b = f a ∧ Path x.run cs (.done (.ok a)) := by
  rw [run_map] at h
  obtain ⟨r, ds, es, rfl, hd, he⟩ := path_bind_done h
  cases r with
  | error e => obtain ⟨-, he⟩ := path_done he; cases he
  | ok a =>
    obtain ⟨rfl, he⟩ := path_done he
    cases he
    exact ⟨a, rfl, by simpa using hd⟩

theorem path_ofQuery_ok {q : Query α} {cs : List Call} {a : α}
    (h : Path (Operation.ofQuery q).run cs (.done (.ok a))) : Path q.run cs (.done (.ok a)) := by
  rw [run_ofQuery] at h
  obtain ⟨r, ds, es, rfl, hd, he⟩ := path_bind_done h
  obtain ⟨rfl, he⟩ := path_done he
  cases r with
  | error e => cases he
  | ok a => cases he; simpa using hd

theorem path_pure_ok {a b : α} {cs : List Call}
    (h : Path (pure a : ExceptT ε Task α).run cs (.done (.ok b))) : cs = [] ∧ b = a := by
  obtain ⟨rfl, he⟩ := path_done (a := Except.ok a) h
  cases he
  exact ⟨rfl, rfl⟩

structure Composes (P : List Call → Prop) : Prop where
  nil : P []
  append : ∀ cs ds, P cs → P ds → P (cs ++ ds)

namespace Composes

theorem always_pure (hP : Composes P) (r : Except ε α) : Always P (.done r) :=
  always_done hP.nil r

theorem always_andThen (hP : Composes P) {x : ExceptT ε Task α} {f : α → ExceptT ε Task β}
    (hx : Always P x.run) (hf : ∀ a, Always P (f a).run) : Always P (x >>= f).run := by
  rw [run_bind]
  refine always_bind hP.append hx ?_
  rintro (e | a)
  · exact hP.always_pure _
  · exact hf a

theorem always_map (hP : Composes P) {f : α → β} {x : ExceptT ε Task α}
    (hx : Always P x.run) : Always P (f <$> x).run := by
  rw [run_map]
  refine always_bind hP.append hx ?_
  rintro (e | a) <;> exact hP.always_pure _

theorem always_ofQuery (hP : Composes P) {q : Query α} (hq : Always P q.run) :
    Always P (Operation.ofQuery q).run := by
  rw [run_ofQuery]
  exact always_bind hP.append hq fun _ => hP.always_pure _

theorem always_require (hP : Composes P) (field value : String) :
    Always P (Operation.require field value).run := by
  unfold Operation.require
  split <;> exact hP.always_pure _

theorem always_executeBatch (hP : Composes P) {statements : List BoundStatement}
    (hbatch : ∀ answer, P [.executeBatch statements answer]) :
    Always P (Query.executeBatch statements).run := by
  intro cs u hp
  cases hp with
  | nil => exact hP.nil
  | cons hm hp =>
    cases hm with
    | executeBatch answer =>
      obtain ⟨rfl, -⟩ := path_done hp
      exact hbatch answer

theorem always_invalidate (hP : Composes P) (hinvalidate : P [.invalidate]) :
    Always P Operation.invalidate.run := by
  refine hP.always_ofQuery ?_
  intro cs u hp
  cases hp with
  | nil => exact hP.nil
  | cons hm hp =>
    cases hm with
    | invalidate =>
      obtain ⟨rfl, -⟩ := path_done hp
      exact hinvalidate

end Composes

theorem run_compileAndRun (options : CompilerOptions) (intent : String) (params : List Scalar) :
    (options.compileAndRun intent params).run = .synthesize intent fun
      | .error e => .done (.error (.compilationFailed e))
      | .ok raw => match options.statementOf raw params with
        | .error e => .done (.error e)
        | .ok s => .execute ⟨s.sql, s.params⟩ fun answer =>
            .done (answer.mapError .executionFailed) := by
  change Task.synthesize intent _ = _
  congr 1
  funext reply
  cases reply with
  | error e => rfl
  | ok raw =>
    change Task.bind (Task.bind (.done (options.statementOf raw params)) _) _ = _
    cases hs : options.statementOf raw params <;> simp only [hs] <;> rfl

theorem path_compileAndRun {options : CompilerOptions} {intent : String} {params : List Scalar}
    {cs : List Call} {u : Task (Except QueryError (List Row))}
    (h : Path (options.compileAndRun intent params).run cs u) :
    ((cs = [] ∨ ∃ reply, cs = [.synthesize intent reply]) ∧ ∀ rows, u ≠ .done (.ok rows)) ∨
      ∃ raw s answer, options.statementOf raw params = .ok s ∧
        cs = [.synthesize intent (.ok raw), .execute ⟨s.sql, s.params⟩ answer] ∧
        u = .done (answer.mapError .executionFailed) := by
  rw [run_compileAndRun] at h
  cases h with
  | nil => exact .inl ⟨.inl rfl, by simp⟩
  | cons hm hp =>
    cases hm with
    | synthesize reply =>
      cases reply with
      | error e =>
        obtain ⟨rfl, rfl⟩ := path_done hp
        exact .inl ⟨.inr ⟨_, rfl⟩, by simp⟩
      | ok raw =>
        simp only at hp
        split at hp
        · obtain ⟨rfl, rfl⟩ := path_done hp
          exact .inl ⟨.inr ⟨_, rfl⟩, by simp⟩
        · rename_i s hs
          cases hp with
          | nil => exact .inl ⟨.inr ⟨_, rfl⟩, by simp⟩
          | cons hm hp =>
            cases hm with
            | execute answer =>
              obtain ⟨rfl, rfl⟩ := path_done hp
              exact .inr ⟨raw, s, answer, hs, rfl, rfl⟩

def EndsInCommit (cs : List Call) : Prop :=
  ∃ ds c, cs = ds ++ [c] ∧ c.isCommit

theorem EndsInCommit.append_left {cs : List Call} (ds : List Call) (h : EndsInCommit cs) :
    EndsInCommit (ds ++ cs) := by
  obtain ⟨es, c, rfl, hc⟩ := h
  exact ⟨ds ++ es, c, by simp, hc⟩

theorem endsInCommit_compileAndRun {options : CompilerOptions} {intent : String}
    {params : List Scalar} {cs : List Call} {rows : List Row}
    (h : Path (options.compileAndRun intent params).run cs (.done (.ok rows))) :
    EndsInCommit cs := by
  rcases path_compileAndRun h with ⟨-, hu⟩ | ⟨raw, s, answer, -, rfl, hu⟩
  · exact absurd rfl (hu rows)
  · cases answer with
    | error e => cases hu
    | ok rows => exact ⟨[_], _, rfl, rfl⟩

theorem endsInCommit_runOne {options : CompilerOptions} {intent : String} {params : List Scalar}
    {cs : List Call} {row : Option Row}
    (h : Path (options.runOne intent params).run cs (.done (.ok row))) : EndsInCommit cs := by
  obtain ⟨rows, ds, es, rfl, hd, he⟩ := path_andThen_ok h
  obtain ⟨rfl, -⟩ := path_pure_ok he
  simpa using endsInCommit_compileAndRun hd

theorem endsInCommit_executeBatch {statements : List BoundStatement} {cs : List Call}
    {results : List (List Row)}
    (h : Path (Query.executeBatch statements).run cs (.done (.ok results))) : EndsInCommit cs := by
  cases h with
  | cons hm hp =>
    cases hm with
    | executeBatch answer =>
      obtain ⟨rfl, he⟩ := path_done hp
      cases answer with
      | error e => cases he
      | ok results => exact ⟨[], _, rfl, rfl⟩

theorem endsInCommit_voteToggle {options : CompilerOptions} {usesBatch : Bool}
    {message user raw : Int64} {cs : List Call} {outcome : VoteOutcome}
    (h : Path (VoteToggle.toggle options usesBatch message user raw).run cs (.done (.ok outcome)))
    (happlied : outcome.isApplied) : EndsInCommit cs := by
  unfold VoteToggle.toggle at h
  split at h
  · obtain ⟨-, rfl⟩ := path_pure_ok h
    cases happlied
  · split at h
    · obtain ⟨results, ds, es, rfl, hd, he⟩ := path_andThen_ok h
      obtain ⟨rfl, -⟩ := path_pure_ok he
      simpa using endsInCommit_executeBatch hd
    · obtain ⟨prior, ds, es, rfl, -, he⟩ := path_andThen_ok h
      obtain ⟨rows, es, fs, rfl, hw, hf⟩ := path_andThen_ok he
      obtain ⟨rfl, -⟩ := path_pure_ok hf
      simpa using (endsInCommit_compileAndRun hw).append_left ds

end Agora
