import Agora.Connection

namespace Agora.Connection

variable {σ α : Type} {c : Connection σ}

inductive Ran (c : Connection σ) : List BoundStatement → σ → List (List Row) → σ → Prop
  | nil {s} : Ran c [] s [] s
  | cons {b bs s s₁ s₂ rows results} : c.execute b s = (.ok rows, s₁) → Ran c bs s₁ results s₂ →
      Ran c (b :: bs) s (rows :: results) s₂

section Runs

variable {s t u : σ} {b : BoundStatement} {statements : List BoundStatement}
  {results : List (List Row)}

theorem execute_eq_ok {rows : List Row} (h : c.execute b s = (.ok rows, t)) :
    c.query b s = (.ok rows, t) := by
  unfold execute run at h
  by_cases hsecond : Sql.hasSecondStatement b.sql.toList
  · rw [if_pos hsecond] at h
    cases h
  · rw [if_neg hsecond] at h
    cases hquery : c.query b s with
    | mk answer s' =>
      rw [hquery] at h
      cases answer <;> cases h
      rfl

theorem execute_eq_error {e : ExecutorError} (h : c.execute b s = (.error e, t)) :
    ∃ cause, e = .database b.sql cause ∧ (t = s ∨ c.query b s = (.error cause, t)) := by
  unfold execute run at h
  by_cases hsecond : Sql.hasSecondStatement b.sql.toList
  · rw [if_pos hsecond] at h
    cases h
    exact ⟨.multipleStatements, rfl, .inl rfl⟩
  · rw [if_neg hsecond] at h
    cases hquery : c.query b s with
    | mk answer s' =>
      rw [hquery] at h
      cases answer with
      | ok rows => cases h
      | error cause =>
        cases h
        exact ⟨cause, rfl, .inr rfl⟩

theorem Ran.length (h : Ran c statements s results t) : results.length = statements.length := by
  induction h with
  | nil => rfl
  | cons _ _ ih => simp [ih]

theorem Ran.executeAll_append (h : Ran c statements s results t) (rest : List BoundStatement) :
    c.executeAll (statements ++ rest) s =
      ((c.executeAll rest t).1.map (results ++ ·), (c.executeAll rest t).2) := by
  induction h with
  | nil => cases hrest : c.executeAll rest _ with
    | mk answer _ => cases answer <;> simp [Except.map, hrest]
  | @cons b bs s s₁ s₂ rows results hfirst _ ih =>
    rw [List.cons_append, executeAll, hfirst]
    dsimp only
    rw [ih]
    cases (c.executeAll rest s₂).1 <;> rfl

theorem Ran.executeAll_eq (h : Ran c statements s results t) :
    c.executeAll statements s = (.ok results, t) := by
  simpa [executeAll, Except.map] using h.executeAll_append []

theorem Ran.executeAll_stopped (h : Ran c statements s results t) {e : ExecutorError}
    (hfails : c.execute b t = (.error e, u)) (rest : List BoundStatement) :
    c.executeAll (statements ++ b :: rest) s = (.error e, u) := by
  rw [h.executeAll_append]
  simp [executeAll, hfails, Except.map]

theorem ran_or_stopped (c : Connection σ) (statements : List BoundStatement) (s : σ) :
    (∃ results t, Ran c statements s results t) ∨
      ∃ before b after results t cause u, statements = before ++ b :: after ∧
        Ran c before s results t ∧ c.execute b t = (.error (.database b.sql cause), u) := by
  induction statements generalizing s with
  | nil => exact .inl ⟨[], s, .nil⟩
  | cons b bs ih =>
    cases hb : c.execute b s with
    | mk answer s₁ => cases answer with
      | error e =>
        obtain ⟨cause, rfl, -⟩ := execute_eq_error hb
        exact .inr ⟨[], b, bs, [], s, cause, s₁, rfl, .nil, hb⟩
      | ok rows =>
        rcases ih s₁ with ⟨results, t, hran⟩ |
          ⟨before, b', after, results, t, cause, u, hsplit, hran, hfails⟩
        · exact .inl ⟨rows :: results, t, .cons hb hran⟩
        · exact .inr ⟨b :: before, b', after, rows :: results, t, cause, u, by simp [hsplit],
            .cons hb hran, hfails⟩

end Runs

section Outcomes

variable {s opened last t : σ} {statements : List BoundStatement} {results : List (List Row)}

theorem executeBatch_busy {cause : StatementError} (h : c.begin s = (.error cause, t))
    (statements : List BoundStatement) :
    c.executeBatch statements s = (.error (.database beginText cause), t) := by
  rw [executeBatch, h]

variable (hbegin : c.begin s = (.ok (), opened))
include hbegin

theorem executeBatch_stopped {e : ExecutorError}
    (hall : c.executeAll statements opened = (.error e, t)) :
    c.executeBatch statements s = (.error e, c.rollback t) := by
  simp only [executeBatch, hbegin, hall]

variable (hall : c.executeAll statements opened = (.ok results, last))
include hall

theorem executeBatch_uncommitted {cause : StatementError}
    (hcommit : c.commit last = (.error cause, t)) :
    c.executeBatch statements s = (.error (.database commitText cause), c.rollback t) := by
  simp only [executeBatch, hbegin, hall, hcommit]

theorem executeBatch_committed (hcommit : c.commit last = (.ok (), t)) :
    c.executeBatch statements s = (.ok results, t) := by
  simp only [executeBatch, hbegin, hall, hcommit]

end Outcomes

inductive Stops (c : Connection σ) (s : σ) : List BoundStatement → ExecutorError → σ → Prop
  | busy {statements cause t} : c.begin s = (.error cause, t) →
      Stops c s statements (.database beginText cause) t
  | statement {opened before results last b cause t} (after) : c.begin s = (.ok (), opened) →
      Ran c before opened results last → c.execute b last = (.error (.database b.sql cause), t) →
      Stops c s (before ++ b :: after) (.database b.sql cause) (c.rollback t)
  | uncommitted {opened statements results last cause t} : c.begin s = (.ok (), opened) →
      Ran c statements opened results last → c.commit last = (.error cause, t) →
      Stops c s statements (.database commitText cause) (c.rollback t)

theorem executeBatch_cases (c : Connection σ) (statements : List BoundStatement) (s : σ) :
    (∃ opened results last t, c.executeBatch statements s = (.ok results, t) ∧
      c.begin s = (.ok (), opened) ∧ Ran c statements opened results last ∧
      c.commit last = (.ok (), t)) ∨
    ∃ e t, c.executeBatch statements s = (.error e, t) ∧ Stops c s statements e t := by
  obtain ⟨answer, opened, hbegin⟩ : ∃ answer opened, c.begin s = (answer, opened) := ⟨_, _, rfl⟩
  cases answer with
  | error cause => exact .inr ⟨_, _, executeBatch_busy hbegin statements, .busy hbegin⟩
  | ok =>
    rcases ran_or_stopped c statements opened with ⟨results, last, hran⟩ |
      ⟨before, b, after, results, last, cause, t, rfl, hran, hfails⟩
    · obtain ⟨answer, t, hcommit⟩ : ∃ answer t, c.commit last = (answer, t) := ⟨_, _, rfl⟩
      cases answer with
      | ok => exact .inl ⟨_, _, _, _, executeBatch_committed hbegin hran.executeAll_eq hcommit,
          hbegin, hran, hcommit⟩
      | error cause => exact .inr ⟨_, _, executeBatch_uncommitted hbegin hran.executeAll_eq hcommit,
          .uncommitted hbegin hran hcommit⟩
    · exact .inr ⟨_, _, executeBatch_stopped hbegin (hran.executeAll_stopped hfails after),
        .statement after hbegin hran hfails⟩

def Undoable (tables : σ → α) (saved : σ → Option α) (a : α) (s : σ) : Prop :=
  saved s = some a ∨ saved s = none ∧ tables s = a

/-- The rules of transactions. A state shows its tables and, within a transaction, the tables that a
rollback goes back to. What fails within a transaction may roll it back, but cannot commit it. -/
structure Transacts (c : Connection σ) (tables : σ → α) (saved : σ → Option α) : Prop where
  begin_ok : ∀ {s t}, c.begin s = (.ok (), t) →
    saved s = none ∧ tables t = tables s ∧ saved t = some (tables s)
  begin_error : ∀ {s e t}, c.begin s = (.error e, t) → tables t = tables s ∧ saved t = saved s
  query_error : ∀ {s a b e t}, saved s = some a → c.query b s = (.error e, t) →
    Undoable tables saved a t
  commit_ok : ∀ {s t}, c.commit s = (.ok (), t) → tables t = tables s ∧ saved t = none
  commit_error : ∀ {s a e t}, saved s = some a → c.commit s = (.error e, t) →
    Undoable tables saved a t
  rollback_open : ∀ {s a}, saved s = some a →
    tables (c.rollback s) = a ∧ saved (c.rollback s) = none
  rollback_idle : ∀ {s}, saved s = none → c.rollback s = s

/-- Where a statement runs, the transaction around it stays open. -/
def StaysOpen (c : Connection σ) (saved : σ → Option α) (b : BoundStatement) : Prop :=
  ∀ {s a rows t}, saved s = some a → c.query b s = (.ok rows, t) → saved t = some a

section Transactions

variable {tables : σ → α} {saved : σ → Option α} {s t : σ} {a : α}
  {statements : List BoundStatement}

theorem Ran.stays_open {results : List (List Row)} (h : Ran c statements s results t)
    (hopen : saved s = some a) (hstays : ∀ b ∈ statements, c.StaysOpen saved b) :
    saved t = some a := by
  induction h with
  | nil => exact hopen
  | cons hfirst _ ih =>
    obtain ⟨hstays, hrest⟩ := List.forall_mem_cons.1 hstays
    exact ih (hstays hopen (execute_eq_ok hfirst)) hrest

variable (h : c.Transacts tables saved)
include h

theorem Transacts.rolledBack (ht : Undoable tables saved a t) :
    tables (c.rollback t) = a ∧ saved (c.rollback t) = none := by
  rcases ht with hopen | ⟨hidle, htables⟩
  · exact h.rollback_open hopen
  · rw [h.rollback_idle hidle]
    exact ⟨htables, hidle⟩

theorem Transacts.execute_error {b : BoundStatement} {e : ExecutorError} (hopen : saved s = some a)
    (hfails : c.execute b s = (.error e, t)) : Undoable tables saved a t := by
  obtain ⟨cause, -, rfl | hquery⟩ := execute_eq_error hfails
  · exact .inl hopen
  · exact h.query_error hopen hquery

theorem Transacts.undone {e : ExecutorError} (hstops : Stops c s statements e t)
    (hstays : ∀ b ∈ statements, c.StaysOpen saved b) : tables t = tables s ∧ saved t = saved s := by
  cases hstops with
  | busy hbegin => exact h.begin_error hbegin
  | statement after hbegin hran hfails =>
    obtain ⟨hidle, -, hopen⟩ := h.begin_ok hbegin
    have hopen' := hran.stays_open hopen fun b hb => hstays b (List.mem_append_left _ hb)
    rw [hidle]
    exact h.rolledBack (h.execute_error hopen' hfails)
  | uncommitted hbegin hran hcommit =>
    obtain ⟨hidle, -, hopen⟩ := h.begin_ok hbegin
    rw [hidle]
    exact h.rolledBack (h.commit_error (hran.stays_open hopen hstays) hcommit)

/-- A batch runs to its end and is committed, or it stops, and then nothing of it counts as long as
none of its statements ends the transaction. -/
theorem batch_all_or_nothing (statements : List BoundStatement) (s : σ) :
    (∃ opened results last t, c.executeBatch statements s = (.ok results, t) ∧
      c.begin s = (.ok (), opened) ∧ tables opened = tables s ∧
      Ran c statements opened results last ∧ results.length = statements.length ∧
      tables t = tables last ∧ saved t = none) ∨
    ∃ e t, c.executeBatch statements s = (.error e, t) ∧ Stops c s statements e t ∧
      ((∀ b ∈ statements, c.StaysOpen saved b) → tables t = tables s ∧ saved t = saved s) := by
  rcases executeBatch_cases c statements s with
    ⟨opened, results, last, t, hbatch, hbegin, hran, hcommit⟩ | ⟨e, t, hbatch, hstops⟩
  · exact .inl ⟨opened, results, last, t, hbatch, hbegin, (h.begin_ok hbegin).2.1, hran,
      hran.length, h.commit_ok hcommit⟩
  · exact .inr ⟨e, t, hbatch, hstops, h.undone hstops⟩

end Transactions

end Agora.Connection
