import Agora.Proofs.Store.Batch
import Agora.Compiler

namespace Agora.Store

def unlessChanged (row : List Expr) : Rows :=
  .guarded row [.equal .changes (.value (.integer 0))]

/-- What the three statements of a toggle do: show column `c` of the records that meet `p`, take
away those that meet `q`, and put in a record of `values`. -/
structure TogglesRow (t : Table) (c : Column) (p q : Pattern) (values : Assignment)
    (onConflict : Option OnConflict) (select delete insert : BoundStatement) : Prop where
  leaf : Leaf t
  selects : ∃ e text conditions, IsColumn t e c ∧
    Keyed (select.params.map .ofScalar) t conditions p ∧
    Reads select.sql (.select (selectOf t t.name e text conditions)) select.params.length
  deletes : ∃ conditions, Keyed (delete.params.map .ofScalar) t conditions q ∧
    Reads delete.sql (.delete t.name conditions) delete.params.length
  inserts : ∃ columns row,
    Insertion.columnsOf { schema := t } columns = .ok (values.map (·.1)) ∧
    List.Forall₂ (Operand (insert.params.map .ofScalar)) row (values.map (·.2)) ∧
    Reads insert.sql (.insert t.name columns (unlessChanged row) onConflict [])
      insert.params.length
  spelled : onConflict.map (Insertion.spelled { schema := t }) = onConflict

namespace TogglesRow

variable {t : Table} {c : Column} {p q : Pattern} {values : Assignment}
  {onConflict : Option OnConflict} {select delete insert : BoundStatement}

theorem endsTransaction (h : TogglesRow t c p q values onConflict select delete insert) :
    ∀ b ∈ [select, delete, insert], endsTransaction b = false := by
  obtain ⟨_, _, _, -, -, hselect⟩ := h.selects
  obtain ⟨_, -, hdelete⟩ := h.deletes
  obtain ⟨_, _, -, -, hinsert⟩ := h.inserts
  simp [Store.endsTransaction, hselect.read, hdelete.read, hinsert.read]

theorem guard_eq (row : List Expr) (s : Agora.Store) (params : List Scalar) :
    (Insertion.guards (unlessChanged row)).all (·.holds (s.context params)) =
      (Value.ofInt s.changes).equals (.integer 0) := by
  simp [unlessChanged, Insertion.guards, Condition.holds, Expr.eval, Expr.type?, compared, context]

theorem guard_open (row : List Expr) {s : Agora.Store} (hchanges : s.changes = 0)
    (params : List Scalar) :
    (Insertion.guards (unlessChanged row)).all (·.holds (s.context params)) = true := by
  rw [guard_eq, hchanges]
  decide +kernel

theorem with_changes_zero {s : Agora.Store} (h : s.changes = 0) : { s with changes := 0 } = s := by
  rw [← h]

section Statements

variable {s : Agora.Store} (h : TogglesRow t c p q values onConflict select delete insert)
  (hs : Ready s)
include h hs

theorem execute_selection : s.execute select =
    (.ok (((s.database.at t).records.filter (·.meets p)).map fun r =>
      toRow [(c.name, r.get c.name)]), s) := by
  obtain ⟨e, text, conditions, hcolumn, hkeyed, hreads⟩ := h.selects
  exact execute_select hreads hs h.leaf.mem hkeyed hcolumn

theorem execute_deletion (hl : Lawful (s.database.at t)) : s.execute delete =
    (.ok [], changedTo s ((s.database.at t).records.filter (·.meets q)).length
      (s.database.replace ((s.database.at t).without q))) := by
  obtain ⟨conditions, hkeyed, hreads⟩ := h.deletes
  exact execute_delete hreads hs h.leaf hl hkeyed

theorem execute_deletion_none (hl : Lawful (s.database.at t))
    (hnone : (s.database.at t).records.filter (·.meets q) = []) :
    s.execute delete = (.ok [], changedTo s 0 s.database) := by
  have hwithout : (s.database.at t).without q = s.database.at t := by
    have hkept : (s.database.at t).records.filter (!·.meets q) = (s.database.at t).records :=
      List.filter_eq_self.2 fun x hx => by simpa using List.filter_eq_nil_iff.1 hnone x hx
    rw [TableState.without, hkept]
  rw [h.execute_deletion hs hl, hnone, hwithout, hs.shaped.replace_at h.leaf.mem]
  rfl

theorem execute_insertion_skipped (hchanges : s.changes = 1) :
    s.execute insert = (.ok [], changedTo s 0 s.database) := by
  obtain ⟨columns, row, hcolumns, hrow, hreads⟩ := h.inserts
  refine execute_insert_skipped hreads hs h.leaf (.of_operands hs h.leaf.mem rfl hcolumns hrow) ?_
  rw [guard_eq, hchanges]
  decide +kernel

theorem execute_insertion_settled (hchanges : s.changes = 0) {r : Record} {u : TableState}
    (hinsert : (s.database.at t).insert s.now onConflict values = .ok (r, u)) :
    s.execute insert = match s.settle 1 (s.database.replace u) with
      | .ok s' => (.ok [], s')
      | .error e => (.error (.database insert.sql e), s) := by
  obtain ⟨columns, row, hcolumns, hrow, hreads⟩ := h.inserts
  have hexecute := execute_insert_settled hreads hs h.leaf
    (.of_operands hs h.leaf.mem rfl hcolumns hrow) (guard_open row hchanges _) h.spelled hinsert
  rwa [with_changes_zero hchanges] at hexecute

theorem execute_insertion (hchanges : s.changes = 0) {r : Record} {u : TableState}
    (hinsert : (s.database.at t).insert s.now onConflict values = .ok (r, u))
    (hkeeps : Keeps s.database (s.database.replace u)) :
    s.execute insert = (.ok [], changedTo s 1 (s.database.replace u)) := by
  rw [h.execute_insertion_settled hs hchanges hinsert, settle_ok hkeeps]

theorem execute_insertion_error (hchanges : s.changes = 0) {e : StatementError}
    (hinsert : (s.database.at t).insert s.now onConflict values = .error e) :
    s.execute insert = (.error (.database insert.sql e), s) := by
  obtain ⟨columns, row, hcolumns, hrow, hreads⟩ := h.inserts
  have hexecute := execute_insert_error hreads hs h.leaf
    (.of_operands hs h.leaf.mem rfl hcolumns hrow) (guard_open row hchanges _) h.spelled hinsert
  rwa [with_changes_zero hchanges] at hexecute

end Statements

section Batches

variable {s : Agora.Store} {db : Database}
  (h : TogglesRow t c p q values onConflict select delete insert)
  (hs : Rests s db) (hdb : Shaped db) (hl : Lawful (db.at t))
include h hs hdb hl

theorem batch_taken {r : Record} (hfound : (db.at t).records.filter (·.meets q) = [r]) :
    ∃ s', s.executeBatch [select, delete, insert] =
        (.ok [((db.at t).records.filter (·.meets p)).map fun r =>
          toRow [(c.name, r.get c.name)], [], []], s') ∧
      Rests s' (db.replace ((db.at t).without q)) := by
  obtain rfl := hs.database
  have hready := (hs.ready hdb).opened
  have hdelete := h.execute_deletion hready hl
  rw [opened_database, hfound] at hdelete
  have hdb' : Shaped (s.database.replace ((s.database.at t).without q)) :=
    hdb.replace (by simpa [hdb.at_schema h.leaf.mem] using h.leaf.mem)
  -- one record was taken away, so the guard of the insertion fails
  have hinsert := h.execute_insertion_skipped (hready.changedTo (n := 1) hdb') rfl
  exact executeBatch_ok hs (executeAll_three (h.execute_selection hready) hdelete hinsert)
    hs.readable rfl (keeps_without hdb h.leaf _)

theorem batch_put (hnone : (db.at t).records.filter (·.meets q) = []) {r : Record} {u : TableState}
    (hinsert : (db.at t).insert s.now onConflict values = .ok (r, u))
    (hkeeps : Keeps db (db.replace u)) :
    ∃ s', s.executeBatch [select, delete, insert] =
        (.ok [((db.at t).records.filter (·.meets p)).map fun r =>
          toRow [(c.name, r.get c.name)], [], []], s') ∧
      Rests s' (db.replace u) := by
  obtain rfl := hs.database
  have hready := (hs.ready hdb).opened
  have hinsert' := h.execute_insertion (hready.changedTo (n := 0) hdb) rfl hinsert hkeeps
  exact executeBatch_ok hs (executeAll_three (h.execute_selection hready)
    (h.execute_deletion_none hready hl hnone) hinsert') hs.readable rfl hkeeps

theorem batch_put_or_refused (hnone : (db.at t).records.filter (·.meets q) = []) {r : Record}
    {u : TableState} (hinsert : (db.at t).insert s.now onConflict values = .ok (r, u)) :
    ∃ s', (s.executeBatch [select, delete, insert] =
        (.ok [((db.at t).records.filter (·.meets p)).map fun r =>
          toRow [(c.name, r.get c.name)], [], []], s') ∧ Rests s' (db.replace u)) ∨
      ∃ e, s.executeBatch [select, delete, insert] = (.error e, s') ∧ Rests s' db := by
  obtain rfl := hs.database
  have hready := (hs.ready hdb).opened
  have hselect := h.execute_selection hready
  have hdelete := h.execute_deletion_none hready hl hnone
  have hinsert' := h.execute_insertion_settled (hready.changedTo (n := 0) hdb) rfl hinsert
  have hdatabase : (changedTo (opened s) 0 s.database).database = s.database := rfl
  rw [hdatabase] at hinsert'
  -- the references are checked at once, or else at the commit
  obtain hsettle | hsettle :=
    settle_cases (changedTo (opened s) 0 s.database) 1 (s.database.replace u)
  · rw [hsettle] at hinsert'
    exact executeBatch_settled hs (executeAll_three hselect hdelete hinsert') hs.readable rfl
  · rw [hsettle] at hinsert'
    obtain ⟨s', hbatch, hrests⟩ :=
      executeBatch_error hs (executeAll_three hselect hdelete hinsert') hs.readable rfl
    exact ⟨s', .inr ⟨_, hbatch, hrests⟩⟩

theorem batch_refused (hnone : (db.at t).records.filter (·.meets q) = []) {e : StatementError}
    (hinsert : (db.at t).insert s.now onConflict values = .error e) :
    ∃ s', s.executeBatch [select, delete, insert] = (.error (.database insert.sql e), s') ∧
      Rests s' db := by
  obtain rfl := hs.database
  have hready := (hs.ready hdb).opened
  have hinsert' := h.execute_insertion_error (hready.changedTo (n := 0) hdb) rfl hinsert
  exact executeBatch_error hs (executeAll_three (h.execute_selection hready)
    (h.execute_deletion_none hready hl hnone) hinsert') hs.readable rfl

end Batches

end TogglesRow

section Tasks

variable {α σ : Type}

def onStore (synthesizer : Synthesizer σ) : Services σ Agora.Store :=
  { synthesizer, executor := Agora.Store.executor }

def noIdLeft (sql : String) : QueryError :=
  .executionFailed (.database sql (.other "database or disk is full"))

theorem run_executeBatch (synthesizer : Synthesizer σ) (statements : List BoundStatement)
    (f : List (List Row) → α) (w : World σ Agora.Store) :
    (do return f (← Query.executeBatch statements) : Query α).run.run (onStore synthesizer) w =
      (((w.store.executeBatch statements).1.mapError QueryError.executionFailed).map f,
        { w with store := (w.store.executeBatch statements).2 }) := by
  have hrun : (do return f (← Query.executeBatch statements) : Query α).run =
      .executeBatch statements fun answer =>
        .done ((answer.mapError QueryError.executionFailed).map f) := by
    change Task.executeBatch _ _ = _
    congr 1
    funext answer
    cases answer <;> rfl
  rw [hrun]
  rfl

end Tasks

end Agora.Store
