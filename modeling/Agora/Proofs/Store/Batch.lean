import Agora.Proofs.Store.Session

namespace Agora.Store

def endsTransaction (b : BoundStatement) : Bool :=
  match Statement.read? b.sql with
  | some (.commit, _) | some (.rollback, _) => true
  | _ => false

example : endsTransaction { sql := "END TRANSACTION \"left\"" } = true := by decide +kernel

section Steps

variable {s t : Agora.Store} {b : BoundStatement}

theorem exists_of_bind_eq_ok {ε α β : Type} {x : Except ε α} {f : α → Except ε β} {b : β}
    (h : x >>= f = .ok b) : ∃ a, x = .ok a ∧ f a = .ok b := by
  cases x with
  | error e => cases h
  | ok a => exact ⟨a, rfl, h⟩

theorem saved_settle {n : Nat} {db : Database} (h : s.settle n db = .ok t) : t.saved = s.saved := by
  rcases settle_cases s n db with hsettle | hsettle <;> rw [hsettle] at h
  · cases h
    rfl
  · cases h

theorem saved_perform {params : List Scalar} {statement : Statement} {rows : List ResultRow}
    (hopen : s.saved.isSome) (hcommit : statement ≠ .commit) (hrollback : statement ≠ .rollback)
    (h : s.perform params statement = .ok (rows, t)) : t.saved = s.saved := by
  cases statement with
  | empty => cases h
  | select q =>
    obtain ⟨_, _, h⟩ := exists_of_bind_eq_ok h
    cases h
    rfl
  | insert | update | delete =>
    obtain ⟨_, _, h⟩ := exists_of_bind_eq_ok h
    obtain ⟨_, hsettle, h⟩ := exists_of_bind_eq_ok h
    cases h
    exact saved_settle hsettle
  | begin =>
    obtain ⟨_, hbegin, _⟩ := exists_of_bind_eq_ok h
    rw [begin, if_pos hopen] at hbegin
    cases hbegin
  | commit => exact absurd rfl hcommit
  | rollback => exact absurd rfl hrollback
  | deferReferences on =>
    cases h
    rfl

theorem read_of_prepare {statement : Statement} (h : s.prepare b = .ok statement) :
    ∃ params, Statement.read? b.sql = some (statement, params) := by
  cases hread : Statement.read? b.sql with
  | none =>
    simp only [prepare, hread] at h
    cases h
  | some r =>
    obtain ⟨read, needed⟩ := r
    simp only [prepare, hread] at h
    split at h
    · cases h
    · obtain ⟨_, _, h⟩ := exists_of_bind_eq_ok h
      obtain ⟨_, _, h⟩ := exists_of_bind_eq_ok h
      cases h
      exact ⟨needed, rfl⟩

theorem query_eq_ok {rows : List Row} (h : query b s = (.ok rows, t)) :
    ∃ statement params results, Statement.read? b.sql = some (statement, params) ∧
      s.perform b.params statement = .ok (results, t) := by
  unfold query at h
  cases hprepare : s.prepare b with
  | error e => simp [hprepare] at h
  | ok statement =>
    obtain ⟨params, hread⟩ := read_of_prepare hprepare
    cases hperform : s.perform b.params statement with
    | error e => simp [hprepare, hperform] at h
    | ok result =>
      simp only [hprepare, hperform, Prod.mk.injEq] at h
      exact ⟨statement, params, result.1, hread, by rw [hperform, ← h.2]⟩

theorem staysOpen_of_endsTransaction (hends : endsTransaction b = false) :
    connection.StaysOpen saved b := by
  intro s a rows t hopen hquery
  obtain ⟨statement, params, results, hread, hperform⟩ := query_eq_ok hquery
  rw [← hopen]
  refine saved_perform (by simp [hopen]) ?_ ?_ hperform <;> rintro rfl <;>
    simp [endsTransaction, hread] at hends

theorem query_eq_error {e : StatementError} (h : query b s = (.error e, t)) :
    t = { s with changes := t.changes } := by
  unfold query at h
  cases hprepare : s.prepare b with
  | error e =>
    rw [hprepare] at h
    cases h
    rfl
  | ok statement =>
    cases hperform : s.perform b.params statement with
    | ok result => simp [hprepare, hperform] at h
    | error e =>
      simp only [hprepare, hperform, Prod.mk.injEq] at h
      rw [← h.2, afterFailure]
      split <;> rfl

theorem commit_ok (h : s.commit = .ok t) : t = closed s := by
  unfold commit at h
  split at h
  · cases h
  · split at h
    · cases h
    · cases h
      rfl

end Steps

theorem transacts_connection : connection.Transacts database saved where
  begin_ok {s t} h := by
    cases hreadable : s.isReadable with
    | false => simp [connection, hreadable] at h
    | true =>
      cases hsaved : s.saved with
      | some db => simp [connection, hreadable, begin, hsaved] at h
      | none =>
        rw [connection_begin hreadable hsaved] at h
        cases h
        exact ⟨rfl, rfl, rfl⟩
  begin_error {s e t} h := by
    simp only [connection] at h
    split at h
    · cases h
      exact ⟨rfl, rfl⟩
    · split at h <;> cases h
      exact ⟨rfl, rfl⟩
  query_error hopen h := by
    rw [Connection.Undoable, query_eq_error h]
    exact .inl hopen
  commit_ok {s t} h := by
    simp only [connection] at h
    cases hcommit : s.commit with
    | error e => simp [hcommit] at h
    | ok s' =>
      rw [hcommit] at h
      cases h
      rw [commit_ok hcommit]
      exact ⟨rfl, rfl⟩
  commit_error {s a e t} hopen h := by
    simp only [connection] at h
    split at h <;> cases h
    exact .inl hopen
  rollback_open hopen := by simp [connection, rollback, hopen]
  rollback_idle hidle := by simp [connection, rollback, hidle]

theorem executeBatch_undone {statements : List BoundStatement} {s t : Agora.Store}
    {e : ExecutorError} (h : s.executeBatch statements = (.error e, t))
    (hends : ∀ b ∈ statements, endsTransaction b = false) : t.database = s.database := by
  rcases connection.executeBatch_cases statements s with
    ⟨_, _, _, _, hok, -⟩ | ⟨_, _, herror, hstops⟩
  · cases h.symm.trans hok
  · cases h.symm.trans herror
    exact (transacts_connection.undone hstops fun b hb =>
      staysOpen_of_endsTransaction (hends b hb)).1

section Concrete

def newUser : BoundStatement :=
  { sql := "INSERT INTO users (username, email, \"passwordHash\") VALUES ('ada', 'ada@mail', 'x')" }

def fromNowhere : BoundStatement :=
  { sql := "SELECT id FROM nowhere" }

theorem exists_error_of_not_isOk {ε α σ : Type} {r : Except ε α × σ} (h : r.1.isOk = false) :
    ∃ e, r = (.error e, r.2) := by
  obtain ⟨answer, state⟩ := r
  cases answer with
  | ok a => cases h
  | error e => exact ⟨e, rfl⟩

theorem batch_undone : ∃ e s',
    executeBatch [newUser, fromNowhere] { database := blank } = (.error e, s') ∧
      s'.database = blank ∧ s'.saved = none := by
  have hfails : (executeBatch [newUser, fromNowhere] { database := blank }).1.isOk = false := by
    decide +kernel
  have hstays : ∀ b ∈ [newUser, fromNowhere], connection.StaysOpen saved b := fun b hb =>
    staysOpen_of_endsTransaction <|
      (by decide +kernel : ∀ b ∈ [newUser, fromNowhere], endsTransaction b = false) b hb
  rcases Connection.batch_all_or_nothing transacts_connection [newUser, fromNowhere]
    { database := blank } with ⟨_, results, _, t, hok, -⟩ | ⟨e, s', herror, -, hundone⟩
  · rw [executeBatch, hok] at hfails
    cases hfails
  · exact ⟨e, s', herror, hundone hstays⟩

/-- A batch that commits by itself: what it did before stays, though the batch fails. -/
theorem batch_half_committed : ∃ e s',
    executeBatch [newUser, { sql := "COMMIT" }, fromNowhere] { database := blank } =
      (.error e, s') ∧ s'.database ≠ blank := by
  obtain ⟨e, h⟩ : ∃ e, executeBatch [newUser, { sql := "COMMIT" }, fromNowhere]
      { database := blank } = (.error e, _) :=
    exists_error_of_not_isOk (by decide +kernel)
  exact ⟨e, _, h, by decide +kernel⟩

end Concrete

end Agora.Store
