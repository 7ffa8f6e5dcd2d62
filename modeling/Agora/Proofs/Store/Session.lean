import Agora.Proofs.Connection
import Agora.Proofs.Store.Statement

namespace Agora.Store

section Checking

def blank : Database :=
  { tables := Schema.tables.map fun t => { schema := t } }

theorem shaped_blank : Shaped blank :=
  ⟨by simp [blank, Function.comp_def]⟩

variable {db : Database}

theorem map_schema_table? (h : Shaped db) (name : String) :
    (db.table? name).map (·.schema) =
      Schema.tables.find? fun t => Read.fold t.name = Read.fold name := by
  rw [← h.schemas, List.find?_map]
  rfl

theorem checkTable_bind {β : Type} (h : Shaped db) (name : String)
    {f : TableState → Except StatementError β} (hf : ∀ t, f t = f { schema := t.schema }) :
    (Expr.checkTable db name >>= f) = (Expr.checkTable blank name >>= f) := by
  have hschema := (map_schema_table? h name).trans (map_schema_table? shaped_blank name).symm
  simp only [Expr.checkTable]
  cases hdb : db.table? name with
  | none => cases hblank : blank.table? name with
    | none => rfl
    | some u => simp [hdb, hblank] at hschema
  | some t => cases hblank : blank.table? name with
    | none => simp [hdb, hblank] at hschema
    | some u =>
      have htu : t.schema = u.schema := by simpa [hdb, hblank] using hschema
      change f t = f u
      rw [hf t, hf u, htu]

theorem expr_check_eq (h : Shaped db) (scope : Scope) (e : Expr) :
    e.check db scope = e.check blank scope := by
  induction e with
  | coalesce a b iha ihb => rw [Expr.check, Expr.check, iha, ihb]
  | count table key outer ih =>
    rw [Expr.check, Expr.check, ih]
    exact checkTable_bind h table fun _ => rfl
  | sum summand table key outer ih =>
    rw [Expr.check, Expr.check, ih]
    exact checkTable_bind h table fun _ => rfl
  | _ => rfl

theorem condition_check_eq (h : Shaped db) (scope : Scope) (c : Condition) :
    c.check db scope = c.check blank scope := by
  cases c <;> simp only [Condition.check, expr_check_eq h]

theorem item_check_eq (h : Shaped db) (scope : Scope) (i : Item) :
    i.check db scope = i.check blank scope := by
  cases i <;> simp only [Item.check, expr_check_eq h]

theorem check_eq (h : Shaped db) (statement : Statement) :
    check db statement = check blank statement := by
  cases statement with
  | select q =>
    have hscope : q.emptyScope db = q.emptyScope blank := by
      simp only [Select.emptyScope]
      congr 1
      funext source
      exact checkTable_bind h source.table fun _ => rfl
    simp only [check, Select.check, hscope, expr_check_eq h, condition_check_eq h, item_check_eq h]
  | insert table columns rows onConflict returning =>
    simp only [check, Insertion.check, expr_check_eq h, condition_check_eq h, item_check_eq h]
    exact checkTable_bind h table fun _ => rfl
  | update table updates conditions =>
    simp only [check, Update.check, expr_check_eq h, condition_check_eq h]
    exact checkTable_bind h table fun _ => rfl
  | delete table conditions =>
    simp only [check, Deletion.check, condition_check_eq h]
    exact checkTable_bind h table fun _ => rfl
  | _ => rfl

end Checking

structure Reads (sql : String) (statement : Statement) (params : Nat) : Prop where
  single : Sql.hasSecondStatement sql.toList = false
  read : Statement.read? sql = some (statement, params)
  known : check blank statement = .ok ()

/-- A text consists of certain characters. Where it is put together from literals, so are they, and
nothing has to be decoded. -/
def Spells (sql : String) (cs : List Char) : Prop :=
  sql = String.ofList cs

theorem Spells.append {s t : String} {cs ds : List Char} (hs : Spells s cs) (ht : Spells t ds) :
    Spells (s ++ t) (cs ++ ds) := by
  rw [Spells, hs, ht, String.ofList_append]

theorem Spells.toList {sql : String} {cs : List Char} (h : Spells sql cs) : sql.toList = cs := by
  rw [h, String.toList_ofList]

def readChars? (cs : List Char) : Option (Statement × Nat) :=
  match Read.statement.run { rest := Lexeme.ofText cs } with
  | some (s, { rest := [], params }) => some (s, params)
  | _ => none

theorem Reads.of_spells {sql : String} {cs : List Char} {statement : Statement} {params : Nat}
    (h : Spells sql cs) (hsingle : Sql.hasSecondStatement cs = false)
    (hread : readChars? cs = some (statement, params)) (hknown : check blank statement = .ok ()) :
    Reads sql statement params where
  single := by rw [h.toList, hsingle]
  read := by
    rw [Statement.read?, h.toList]
    exact hread
  known := hknown

theorem execute_eq {s : Agora.Store} {sql : String} {statement : Statement} {params : List Scalar}
    (h : Reads sql statement params.length) (hs : Ready s) :
    s.execute ⟨sql, params⟩ = match s.perform params statement with
      | .ok (rows, s') => (.ok (rows.map toRow), s')
      | .error e => (.error (.database sql e), s.afterFailure statement) := by
  have hprepare : s.prepare ⟨sql, params⟩ = .ok statement := by
    have hcheck := (check_eq hs.shaped statement).trans h.known
    simp [prepare, h.read, hs.readable, hcheck, checkParams, bind, Except.bind, pure, Except.pure]
  have hrun : connection.run ⟨sql, params⟩ s = s.query ⟨sql, params⟩ :=
    if_neg (by simp [h.single])
  rw [execute, Connection.execute, hrun]
  unfold query
  rw [hprepare]
  dsimp only
  cases s.perform params statement <;> rfl

section Execution

variable {s : Agora.Store} {sql : String} {params : List Scalar} {t : Table}
  {conditions : List Condition} {p : Pattern}

theorem execute_select {e : Expr} {c : Column} {name text : String}
    (h : Reads sql (.select (selectOf t name e text conditions)) params.length) (hs : Ready s)
    (ht : t ∈ Schema.tables) (hk : Keyed (params.map .ofScalar) t conditions p)
    (he : IsColumn t e c) : s.execute ⟨sql, params⟩ =
      (.ok (((s.database.at t).records.filter (·.meets p)).map fun r =>
        toRow [(c.name, r.get c.name)]), s) := by
  have hexecute := execute_eq h hs
  rw [perform_select hs ht hk he] at hexecute
  simpa [List.map_map, Function.comp_def] using hexecute

theorem execute_delete (h : Reads sql (.delete t.name conditions) params.length) (hs : Ready s)
    (ht : Leaf t) (hl : Lawful (s.database.at t))
    (hk : Keyed (params.map .ofScalar) t conditions p) : s.execute ⟨sql, params⟩ =
      (.ok [], changedTo s ((s.database.at t).records.filter (·.meets p)).length
        (s.database.replace ((s.database.at t).without p))) := by
  have hexecute := execute_eq h hs
  rwa [perform_delete hs ht hl hk] at hexecute

theorem execute_update {name : String} {e : Expr} {old : Record} {c : Column} {v : Value}
    (h : Reads sql (.update t.name [(name, e)] conditions) params.length) (hs : Ready s)
    (ht : Leaf t) (hk : Keyed (params.map .ofScalar) t conditions p)
    (hone : (s.database.at t).records.filter (·.meets p) = [old])
    (hcol : columnOf? t name = some c) (he : Operand (params.map .ofScalar) e v) {r : Record}
    {u : TableState} (hupdate : (s.database.at t).update old [(c, v)] = .ok (r, u))
    (hkeeps : Keeps s.database (s.database.replace u)) :
    s.execute ⟨sql, params⟩ = (.ok [], changedTo s 1 (s.database.replace u)) := by
  have hexecute := execute_eq h hs
  rwa [perform_update hs ht hk hone hcol he hupdate hkeeps] at hexecute

theorem execute_update_none {updates : List (String × Expr)}
    (h : Reads sql (.update t.name updates conditions) params.length) (hs : Ready s)
    (ht : Leaf t) (hk : Keyed (params.map .ofScalar) t conditions p)
    (hnone : (s.database.at t).records.filter (·.meets p) = []) :
    s.execute ⟨sql, params⟩ = (.ok [], changedTo s 0 s.database) := by
  have hexecute := execute_eq h hs
  rwa [perform_update_none hs ht hk hnone] at hexecute

theorem spelled_at (hs : Ready s) (ht : t ∈ Schema.tables) (onConflict : Option OnConflict) :
    onConflict.map (Insertion.spelled (s.database.at t)) =
      onConflict.map (Insertion.spelled { schema := t }) := by
  have hspelled : Insertion.spelled (s.database.at t) = Insertion.spelled { schema := t } := by
    funext o
    rw [spelled_schema, hs.shaped.at_schema ht]
  rw [hspelled]

variable {columns : Option (List String)} {rows : Rows} {values : Assignment}
  {onConflict : Option OnConflict}
  (h : Reads sql (.insert t.name columns rows onConflict []) params.length) (hs : Ready s)
  (ht : Leaf t) (hrow : OneRow s params t columns rows values)
include h hs ht hrow

theorem execute_insert_skipped
    (hguard : (Insertion.guards rows).all (·.holds (s.context params)) = false) :
    s.execute ⟨sql, params⟩ = (.ok [], changedTo s 0 s.database) := by
  have hexecute := execute_eq h hs
  rwa [perform_insert_skipped hs ht hrow hguard] at hexecute

variable (hguard : (Insertion.guards rows).all (·.holds (s.context params)) = true)
  (hspelled : onConflict.map (Insertion.spelled { schema := t }) = onConflict)
include hguard hspelled

theorem execute_insert_settled {r : Record} {u : TableState}
    (hinsert : (s.database.at t).insert s.now onConflict values = .ok (r, u)) :
    s.execute ⟨sql, params⟩ = match s.settle 1 (s.database.replace u) with
      | .ok s' => (.ok [], s')
      | .error e => (.error (.database sql e), { s with changes := 0 }) := by
  have hexecute := execute_eq h hs
  rw [perform_insert_settled hs ht hrow hguard onConflict
    (by rwa [spelled_at hs ht.mem, hspelled])] at hexecute
  rw [hexecute]
  cases s.settle 1 (s.database.replace u) <;> rfl

theorem execute_insert {r : Record} {u : TableState}
    (hinsert : (s.database.at t).insert s.now onConflict values = .ok (r, u))
    (hkeeps : Keeps s.database (s.database.replace u)) :
    s.execute ⟨sql, params⟩ = (.ok [], changedTo s 1 (s.database.replace u)) := by
  rw [execute_insert_settled h hs ht hrow hguard hspelled hinsert, settle_ok hkeeps]

theorem execute_insert_error {e : StatementError}
    (hinsert : (s.database.at t).insert s.now onConflict values = .error e) :
    s.execute ⟨sql, params⟩ = (.error (.database sql e), { s with changes := 0 }) := by
  have hexecute := execute_eq h hs
  rwa [perform_insert_error hs ht hrow hguard onConflict
    (by rwa [spelled_at hs ht.mem, hspelled])] at hexecute

end Execution

structure Rests (s : Agora.Store) (db : Database) : Prop where
  readable : s.isReadable
  idle : s.saved = none
  database : s.database = db

theorem Rests.changedTo {s : Agora.Store} {db : Database} (h : Rests s db) (n : Nat)
    (db' : Database) : Rests (changedTo s n db') db' :=
  ⟨h.readable, h.idle, rfl⟩

theorem Rests.unchanged {s : Agora.Store} {db : Database} (h : Rests s db) :
    Rests { s with changes := 0 } db :=
  ⟨h.readable, h.idle, h.database⟩

section Batches

variable {s s' : Agora.Store} {statements : List BoundStatement}

theorem Rests.ready {db : Database} (h : Rests s db) (hdb : Shaped db) : Ready s :=
  ⟨h.readable, h.database ▸ hdb⟩

def opened (s : Agora.Store) : Agora.Store :=
  { s with saved := some s.database }

@[simp] theorem opened_database : (opened s).database = s.database := rfl

theorem Ready.opened (h : Ready s) : Ready (opened s) :=
  ⟨h.readable, h.shaped⟩

theorem begin_ok (hidle : s.saved = none) : s.begin = .ok (opened s) := by
  simp [begin, hidle, opened]

theorem connection_begin (hreadable : s.isReadable) (hidle : s.saved = none) :
    connection.begin s = (.ok (), opened s) := by
  simp [connection, hreadable, begin_ok hidle]

def closed (s : Agora.Store) : Agora.Store :=
  { s with saved := none, defersReferences := false }

theorem rests_closed (hreadable : s.isReadable) : Rests (closed s) s.database :=
  ⟨hreadable, rfl, rfl⟩

theorem rests_rollback {db : Database} (hreadable : s.isReadable) (hsaved : s.saved = some db) :
    Rests s.rollback db := by
  constructor <;> simp [rollback, hsaved, hreadable]

theorem executeBatch_ok {db : Database} (hs : Rests s db) {results : List (List Row)}
    (hall : connection.executeAll statements (opened s) = (.ok results, s'))
    (hreadable : s'.isReadable) (hsaved : s'.saved = some db) (hkeeps : Keeps db s'.database) :
    ∃ s'', s.executeBatch statements = (.ok results, s'') ∧ Rests s'' s'.database := by
  have hcommit : connection.commit s' = (.ok (), closed s') := by
    simp [connection, commit, hsaved, hkeeps.breaksReferences, closed]
  exact ⟨_, Connection.executeBatch_committed (connection_begin hs.readable hs.idle) hall hcommit,
    rests_closed hreadable⟩

theorem executeBatch_settled {db : Database} (hs : Rests s db) {results : List (List Row)}
    (hall : connection.executeAll statements (opened s) = (.ok results, s'))
    (hreadable : s'.isReadable) (hsaved : s'.saved = some db) :
    ∃ s'', (s.executeBatch statements = (.ok results, s'') ∧ Rests s'' s'.database) ∨
      ∃ e, s.executeBatch statements = (.error e, s'') ∧ Rests s'' db := by
  have hbegin := connection_begin hs.readable hs.idle
  by_cases hbreaks : s'.foreignKeys ∧ db.breaksReferences s'.database
  · have hcommit : connection.commit s' = (.error (.violation .foreignKey), s') := by
      simp [connection, commit, hsaved, hbreaks]
    exact ⟨_, .inr ⟨_, Connection.executeBatch_uncommitted hbegin hall hcommit,
      rests_rollback hreadable hsaved⟩⟩
  · have hcommit : connection.commit s' = (.ok (), closed s') := by
      simp only [connection, commit, hsaved, if_neg hbreaks, closed]
    exact ⟨_, .inl ⟨Connection.executeBatch_committed hbegin hall hcommit,
      rests_closed hreadable⟩⟩

theorem executeBatch_busy (hreadable : s.isReadable) (hbusy : s.saved.isSome)
    (statements : List BoundStatement) : ∃ e, s.executeBatch statements = (.error e, s) := by
  have hbegin : connection.begin s =
      (.error (.other "cannot start a transaction within a transaction"), s) := by
    simp [connection, begin, hreadable, hbusy]
  exact ⟨_, Connection.executeBatch_busy hbegin statements⟩

theorem executeBatch_error {db : Database} (hs : Rests s db) {e : ExecutorError}
    (hall : connection.executeAll statements (opened s) = (.error e, s'))
    (hreadable : s'.isReadable) (hsaved : s'.saved = some db) :
    ∃ s'', s.executeBatch statements = (.error e, s'') ∧ Rests s'' db :=
  ⟨_, Connection.executeBatch_stopped (connection_begin hs.readable hs.idle) hall,
    rests_rollback hreadable hsaved⟩

theorem executeAll_three {a b c : BoundStatement} {s₁ s₂ s₃ : Agora.Store}
    {rows₁ rows₂ : List Row} {answer : Except ExecutorError (List Row)}
    (ha : s.execute a = (.ok rows₁, s₁)) (hb : s₁.execute b = (.ok rows₂, s₂))
    (hc : s₂.execute c = (answer, s₃)) :
    connection.executeAll [a, b, c] s = (answer.map fun rows₃ => [rows₁, rows₂, rows₃], s₃) := by
  rw [execute] at ha hb hc
  cases answer <;> simp [Connection.executeAll, ha, hb, hc, Except.map]

end Batches

end Agora.Store
