import Agora.Proofs.Board.Pool
import Agora.Proofs.Reply.Statement

namespace Agora

open Agora.Task

variable {σ τ : Type} {options : CompilerOptions}

section Asking

open Reply

variable (services : Services σ τ) (options : CompilerOptions) (intent : String)
  (params : List Scalar) (w : World σ τ)

theorem statementOf_eq (raw : String) (params : List Scalar) :
    options.statementOf raw params =
      if options.requireStatement ∧ !startsWithStatement (clean raw.toList) then
        .error (.compilationFailed (.noStatement raw))
      else .ok { sql := String.ofList (clean raw.toList), params,
                 kind := Sql.kind (clean raw.toList) } := rfl

theorem statementOf_refused {raw : String} (hrequired : options.requireStatement)
    (hline : ¬ HasStatementLine (stripFences (Text.trim raw.toList))) :
    options.statementOf raw params = .error (.compilationFailed (.noStatement raw)) := by
  rw [statementOf_eq, if_pos]
  rw [← startsWithStatement_clean_iff, Bool.not_eq_true] at hline
  exact ⟨hrequired, by rw [hline]; rfl⟩

theorem statementOf_accepted {raw : String}
    (h : options.requireStatement → HasStatementLine (stripFences (Text.trim raw.toList))) :
    ∃ kind, options.statementOf raw params =
      .ok { sql := String.ofList (clean raw.toList), params, kind } := by
  refine ⟨Sql.kind (clean raw.toList), ?_⟩
  rw [statementOf_eq, if_neg]
  rintro ⟨hrequired, hstart⟩
  have := (startsWithStatement_clean_iff _).2 (h hrequired)
  simp [this] at hstart

theorem calls_compileAndRun_failed {e : SynthesisError}
    (h : (services.synthesizer.synthesize intent w.synthesis).1 = .error e) :
    (options.compileAndRun intent params).run.calls services w =
        [.synthesize intent (.error e)] ∧
      ((options.compileAndRun intent params).run.run services w).1 =
        .error (.compilationFailed e) := by
  rw [run_compileAndRun]
  simp [Task.calls, Task.run, h]

theorem calls_compileAndRun_refused {raw : String}
    (h : (services.synthesizer.synthesize intent w.synthesis).1 = .ok raw)
    (hrequired : options.requireStatement)
    (hline : ¬ HasStatementLine (stripFences (Text.trim raw.toList))) :
    (options.compileAndRun intent params).run.calls services w =
        [.synthesize intent (.ok raw)] ∧
      ((options.compileAndRun intent params).run.run services w).1 =
        .error (.compilationFailed (.noStatement raw)) := by
  have hs := statementOf_refused options params hrequired hline
  rw [run_compileAndRun]
  simp [Task.calls, Task.run, h, hs]

theorem calls_compileAndRun_accepted {raw : String}
    (h : (services.synthesizer.synthesize intent w.synthesis).1 = .ok raw)
    (hline : options.requireStatement → HasStatementLine (stripFences (Text.trim raw.toList))) :
    ∃ answer,
      answer = (services.executor.execute ⟨String.ofList (clean raw.toList), params⟩ w.store).1 ∧
      (options.compileAndRun intent params).run.calls services w =
        [.synthesize intent (.ok raw),
          .execute ⟨String.ofList (clean raw.toList), params⟩ answer] ∧
      ((options.compileAndRun intent params).run.run services w).1 =
        answer.mapError .executionFailed := by
  obtain ⟨kind, hs⟩ := statementOf_accepted options params hline
  rw [run_compileAndRun]
  exact ⟨_, rfl, by simp [Task.calls, h, hs], by simp [Task.run, h, hs]⟩

theorem run_compile : (options.compile intent params).run = .synthesize intent fun
    | .error e => .done (.error (.compilationFailed e))
    | .ok raw => .done (options.statementOf raw params) := by
  change Task.synthesize intent _ = _
  congr 1
  funext reply
  cases reply <;> rfl

theorem calls_compile : ∃ reply,
    (options.compile intent params).run.calls services w = [.synthesize intent reply] := by
  refine ⟨(services.synthesizer.synthesize intent w.synthesis).1, ?_⟩
  rw [run_compile]
  simp only [Task.calls]
  split <;> rfl

end Asking

def fixedStatements : List String :=
  [Board.listingSql, VoteToggle.selectSql, VoteToggle.deleteSameSql, VoteToggle.upsertSql,
    ReactionToggle.selectSql, ReactionToggle.deleteSql, ReactionToggle.insertSql]

structure StatementIn (options : CompilerOptions) (raw : String) (s : BoundStatement) : Prop where
  sql : s.sql = String.ofList (Reply.clean raw.toList)
  params : s.params = []
  fenceFree : Reply.hasFence s.sql.toList = false
  keyword : options.requireStatement → Reply.startsWithStatement s.sql.toList

theorem statementIn_of_statementOf {raw : String} {s : CompiledStatement}
    (h : options.statementOf raw [] = .ok s) : StatementIn options raw ⟨s.sql, s.params⟩ := by
  rw [statementOf_eq] at h
  split at h
  · cases h
  · rename_i hkeyword
    cases h
    refine ⟨rfl, rfl, ?_, fun hrequired => ?_⟩
    · simpa using Reply.hasFence_clean raw.toList
    · simpa [hrequired] using hkeyword

/-- Whether every statement handed to the executor is written by hand, or is the one in the reply
that was given right before. -/
def Sourced (options : CompilerOptions) (cs : List Call) : Prop :=
  ∀ k c, cs[k]? = some c → ∀ s ∈ c.statements, s.sql ∈ fixedStatements ∨
    ∃ j intent raw answer, k = j + 1 ∧ cs[j]? = some (.synthesize intent (.ok raw)) ∧
      c = .execute s answer ∧ StatementIn options raw s

theorem Sourced.append {cs ds : List Call} (hc : Sourced options cs) (hd : Sourced options ds) :
    Sourced options (cs ++ ds) := by
  intro k c hk s hs
  rcases Nat.lt_or_ge k cs.length with hlt | hge
  · rw [List.getElem?_append_left hlt] at hk
    rcases hc k c hk s hs with hfixed | ⟨j, intent, raw, answer, rfl, hj, he, hin⟩
    · exact .inl hfixed
    · refine .inr ⟨j, intent, raw, answer, rfl, ?_, he, hin⟩
      rwa [List.getElem?_append_left (by omega)]
  · rw [List.getElem?_append_right hge] at hk
    rcases hd _ c hk s hs with hfixed | ⟨j, intent, raw, answer, hj, hcall, he, hin⟩
    · exact .inl hfixed
    · refine .inr ⟨cs.length + j, intent, raw, answer, by omega, ?_, he, hin⟩
      rwa [List.getElem?_append_right (by omega), Nat.add_sub_cancel_left]

theorem sourced_of_fixed {cs : List Call}
    (h : ∀ c ∈ cs, ∀ s ∈ c.statements, s.sql ∈ fixedStatements) : Sourced options cs :=
  fun _ c hk s hs => .inl (h c (List.mem_of_getElem? hk) s hs)

theorem sourced_reply {raw : String} {s : CompiledStatement}
    (h : options.statementOf raw [] = .ok s) (intent : String)
    (answer : Except ExecutorError (List Row)) :
    Sourced options [.synthesize intent (.ok raw), .execute ⟨s.sql, s.params⟩ answer] := by
  intro k c hk t ht
  match k with
  | 0 =>
    obtain rfl := Option.some.inj hk
    cases ht
  | 1 =>
    obtain rfl := Option.some.inj hk
    obtain rfl := List.mem_singleton.1 ht
    exact .inr ⟨0, intent, raw, answer, rfl, rfl, rfl, statementIn_of_statementOf h⟩
  | k + 2 => cases hk

theorem covers_sourced (options : CompilerOptions) : Covers options (Sourced options) where
  nil := sourced_of_fixed (by simp)
  append _ _ := Sourced.append
  compiled intent := by
    intro cs u hp
    rcases path_compileAndRun hp with ⟨rfl | ⟨reply, rfl⟩, -⟩ | ⟨raw, s, answer, hs, rfl, -⟩
    · exact sourced_of_fixed (by simp)
    · exact sourced_of_fixed (by simp [Call.statements])
    · exact sourced_reply hs intent answer
  voteBatch message user desired answer :=
    sourced_of_fixed (by simp [Call.statements, VoteToggle.batch, fixedStatements])
  reactionBatch message user emoji answer :=
    sourced_of_fixed (by simp [Call.statements, ReactionToggle.batch, fixedStatements])
  invalidation := sourced_of_fixed (by simp [Call.statements])

theorem always_sourced (b : Board) (r : Request) : Always (Sourced b.options) (r.task b) := by
  by_cases hr : r = .listMessages
  · subst hr
    intro cs u hp
    refine sourced_of_fixed ?_
    cases path_listMessages hp <;> simp [Call.statements, fixedStatements]
  · exact (covers_sourced b.options).always_request r hr

/-- What reaches the store. An intent is synthesized once; a failure, and a refused reply, end the
query there; else the cleaned reply is executed once, and what comes of it comes back. In a run of
any operations a statement that is not written by hand stands in the reply that the same operation
was given in the call before, so that no reply is executed twice or by another operation. -/
theorem executed_statements_sourced (services : Services σ τ) (options : CompilerOptions) :
    (∀ intent params w,
      let asked := (options.compileAndRun intent params).run
      match (services.synthesizer.synthesize intent w.synthesis).1 with
      | .error e => asked.calls services w = [.synthesize intent (.error e)] ∧
          (asked.run services w).1 = .error (.compilationFailed e)
      | .ok raw =>
          let accepted := options.requireStatement →
            Reply.HasStatementLine (Reply.stripFences (Text.trim raw.toList))
          let s : BoundStatement := ⟨String.ofList (Reply.clean raw.toList), params⟩
          (¬ accepted → asked.calls services w = [.synthesize intent (.ok raw)] ∧
            (asked.run services w).1 = .error (.compilationFailed (.noStatement raw))) ∧
          (accepted → ∃ answer, answer = (services.executor.execute s w.store).1 ∧
            asked.calls services w = [.synthesize intent (.ok raw), .execute s answer] ∧
            (asked.run services w).1 = answer.mapError .executionFailed)) ∧
    (∀ intent params w, ∃ reply,
      (options.compile intent params).run.calls services w = [.synthesize intent reply]) ∧
    (∀ b : Board, b.options = options → ∀ w moves i,
      Sourced options (callsOf i (Pool.run services b { world := w } moves).history)) := by
  refine ⟨fun intent params w => ?_, fun intent params w => calls_compile .., ?_⟩
  · dsimp only
    split
    · rename_i e h
      exact calls_compileAndRun_failed _ _ _ _ _ h
    · rename_i raw h
      refine ⟨fun hrefused => ?_, fun haccepted => ?_⟩
      · obtain ⟨hrequired, hline⟩ := Classical.not_imp.1 hrefused
        exact calls_compileAndRun_refused _ _ _ _ _ h hrequired hline
      · exact calls_compileAndRun_accepted _ _ _ _ _ h haccepted
  · rintro b rfl w moves i
    exact (Pool.tracked_run (Pool.tracked_empty b w) moves).callsOf_of_always
      (covers_sourced b.options).nil (always_sourced b) i

end Agora
