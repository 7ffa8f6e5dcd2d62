import Agora.Proofs.Store.Database

namespace Agora.Store

structure Ready (s : Agora.Store) : Prop where
  readable : s.isReadable
  shaped : Shaped s.database

def changedTo (s : Agora.Store) (n : Nat) (db : Database) : Agora.Store :=
  { s with database := db, changes := n, defersReferences := s.defersReferences && s.saved.isSome }

section Settling

variable {s : Agora.Store} {n : Nat}

theorem Ready.changedTo (h : Ready s) {db : Database} (hdb : Shaped db) :
    Ready (changedTo s n db) :=
  ⟨h.readable, hdb⟩

theorem settle_cases (s : Agora.Store) (n : Nat) (db : Database) :
    s.settle n db = .ok (changedTo s n db) ∨
      s.settle n db = .error (.violation .foreignKey) := by
  unfold settle
  dsimp only
  split
  · exact .inr rfl
  · exact .inl rfl

theorem settle_ok {db : Database} (h : Keeps s.database db) :
    s.settle n db = .ok (changedTo s n db) := by
  simp [settle, h.breaksReferences, changedTo]

theorem settleDeletion_ok {u : TableState} (hs : Shaped s.database) (hu : Leaf u.schema)
    (h : Keeps s.database (s.database.replace u)) :
    s.settleDeletion n (s.database.replace u) =
      .ok (changedTo s n (s.database.replace u)) := by
  simp [settleDeletion, cascade_replace hs hu, settle_ok h]

end Settling

section Conditions

variable {params : List Value} {t : Table}

inductive Operand (params : List Value) : Expr → Value → Prop
  | value (v) : Operand params (.value v) v
  | param {n v} : params[n - 1]? = some v → Operand params (.param n) v

theorem Operand.type? {e : Expr} {v : Value} (h : Operand params e v) (scope : Scope) :
    e.type? scope = none := by
  cases h <;> rfl

theorem Operand.eval {e : Expr} {v : Value} (h : Operand params e v) (ctx : Context)
    (hctx : ctx.params = params) : e.eval ctx = v := by
  cases h with
  | value => rfl
  | param hv => simp [Expr.eval, hctx, hv]

inductive IsColumn (t : Table) : Expr → Column → Prop
  | name {n c} : columnOf? t n = some c → IsColumn t (.column none n) c
  | quoted {n c} : columnOf? t n = some c → IsColumn t (.columnOrText n) c

section

variable {e : Expr} {c : Column} {name : String}

theorem find_single (t : Table) (name : String) (r : Option Record) (n : String) :
    Scope.find [{ name, schema := t, record := r }] none n =
      ((columnOf? t n).map fun c => (c, r)).toList := by
  cases h : columnOf? t n <;> simp [Scope.find, h]

theorem IsColumn.type? (h : IsColumn t e c) (r : Option Record) :
    e.type? [{ name, schema := t, record := r }] = some c.type := by
  cases h with
  | name hc | quoted hc => simp [Expr.type?, find_single, hc]

theorem IsColumn.eval (h : IsColumn t e c) (ctx : Context) (r : Record) :
    e.eval { ctx with scope := [{ name, schema := t, record := some r }] } = r.get c.name := by
  cases h with
  | name hc | quoted hc => simp [Expr.eval, Scope.value, find_single, hc]

theorem IsColumn.label (h : IsColumn t e c) (r : Option Record) (text : String) :
    Item.label [{ name, schema := t, record := r }] e none text = c.name := by
  cases h with
  | name hc | quoted hc => simp [Item.label, find_single, hc]

end

inductive Keyed (params : List Value) (t : Table) : List Condition → Pattern → Prop
  | nil : Keyed params t [] []
  | cons {e e' c v conditions p} : IsColumn t e c → Operand params e' v → v.keptIn c.type = v →
      Keyed params t conditions p → Keyed params t (.equal e e' :: conditions) ((c.name, v) :: p)

theorem Keyed.holds {conditions : List Condition} {p : Pattern} (h : Keyed params t conditions p)
    {ctx : Context} (hctx : ctx.params = params) (name : String) (r : Record) :
    conditions.all (·.holds { ctx with scope := [{ name, schema := t, record := some r }] }) =
      r.meets p := by
  induction h with
  | nil => rfl
  | @cons e e' c v conditions p he he' hv _ ih =>
    have hhead : (Condition.equal e e').holds
        { ctx with scope := [{ name, schema := t, record := some r }] } =
          (r.get c.name).equals v := by
      rw [Condition.holds, he.type?, he'.type?, he.eval,
        he'.eval { ctx with scope := [{ name, schema := t, record := some r }] } hctx, compared, hv]
    rw [List.all_cons, hhead, ih]
    rfl

end Conditions

section Statements

variable {s : Agora.Store} {params : List Scalar} {t : Table} {conditions : List Condition}
  {p : Pattern}

theorem Ready.checkTable (hs : Ready s) (ht : t ∈ Schema.tables) :
    Expr.checkTable (s.context params).database t.name = .ok (s.database.at t) := by
  have htable : (s.context params).database.table? t.name = _ := hs.shaped.table?_at ht
  rw [Expr.checkTable, htable]

theorem meeting_eq (hs : Ready s) (ht : t ∈ Schema.tables)
    (hk : Keyed (params.map .ofScalar) t conditions p) (name : String) :
    meeting (s.context params) name (s.database.at t) conditions =
      (s.database.at t).records.filter (·.meets p) := by
  refine List.filter_congr fun r _ => ?_
  rw [hs.shaped.at_schema ht]
  exact hk.holds rfl name r

def selectOf (t : Table) (name : String) (e : Expr) (text : String)
    (conditions : List Condition) : Select :=
  { items := [.expr e none text], source := some ⟨t.name, name⟩, conditions }

theorem perform_select (hs : Ready s) (ht : t ∈ Schema.tables)
    (hk : Keyed (params.map .ofScalar) t conditions p) {e : Expr} {c : Column}
    (he : IsColumn t e c) (name text : String) :
    s.perform params (.select (selectOf t name e text conditions)) =
      .ok (((s.database.at t).records.filter (·.meets p)).map fun r => [(c.name, r.get c.name)],
        s) := by
  have hscopes : (selectOf t name e text conditions).scopes (s.context params) =
      (s.database.at t).records.map fun r => [{ name, schema := t, record := some r }] := by
    have hbind : Select.bind s.database ⟨t.name, name⟩ =
        (s.database.at t).records.map fun r => { name, schema := t, record := some r } := by
      simp [Select.bind, hs.shaped.table?_at ht, hs.shaped.at_schema ht]
    simp [selectOf, Select.scopes, context, hbind, Function.comp_def]
  have hkept : ((selectOf t name e text conditions).scopes (s.context params)).filter
      (fun scope => conditions.all (·.holds { s.context params with scope })) =
        ((s.database.at t).records.filter (·.meets p)).map fun r =>
          [{ name, schema := t, record := some r }] := by
    rw [hscopes, List.filter_map]
    congr 1
    exact List.filter_congr fun r _ => hk.holds rfl name r
  have hrow (r : Record) (n : Nat) : Item.row
      { s.context params with scope := [{ name, schema := t, record := some r }] } n
      [.expr e none text] = [(c.name, r.get c.name)] := by
    simp [Item.row, Item.shown, he.label, he.eval]
  have hrun : (selectOf t name e text conditions).run (s.context params) =
      .ok (((s.database.at t).records.filter (·.meets p)).map fun r => [(c.name, r.get c.name)]) := by
    simp only [Select.run]
    rw [show (selectOf t name e text conditions).conditions = conditions from rfl, hkept]
    simp [selectOf, Item.isCount, Select.sorted, Select.limited, hrow, Function.comp_def]
  simp only [perform, hrun]
  rfl

theorem filter_not_meets {t : TableState} (ht : Lawful t) (p : Pattern) :
    t.records.filter (fun r => !(t.records.filter (·.meets p)).any (·.id = r.id)) =
      t.records.filter (!·.meets p) := by
  refine List.filter_congr fun r hr => congrArg not ?_
  rw [Bool.eq_iff_iff, List.any_eq_true]
  constructor
  · rintro ⟨s, hs, hid⟩
    obtain ⟨hs, hsp⟩ := List.mem_filter.1 hs
    exact ht.eq_of_id hs hr (by simpa using hid) ▸ hsp
  · exact fun hm => ⟨r, List.mem_filter.2 ⟨hr, hm⟩, by simp⟩

theorem perform_delete (hs : Ready s) (ht : Leaf t) (hl : Lawful (s.database.at t))
    (hk : Keyed (params.map .ofScalar) t conditions p) :
    s.perform params (.delete t.name conditions) =
      .ok ([], changedTo s ((s.database.at t).records.filter (·.meets p)).length
        (s.database.replace ((s.database.at t).without p))) := by
  have hschema := hs.shaped.at_schema ht.mem
  have hrun : Deletion.run (s.context params) t.name conditions =
      .ok { database := s.database.replace ((s.database.at t).without p)
            changes := ((s.database.at t).records.filter (·.meets p)).length } := by
    simp only [Deletion.run, hs.checkTable ht.mem, bind, Except.bind, meeting_eq hs ht.mem hk,
      filter_not_meets hl]
    rfl
  have hsettle := settleDeletion_ok (n := ((s.database.at t).records.filter (·.meets p)).length)
    hs.shaped (u := (s.database.at t).without p) (by simpa [hschema] using ht)
    (keeps_without hs.shaped ht p)
  simp only [perform, hrun, bind, Except.bind, hsettle]
  rfl

section Insertion

theorem columnsOf_schema (u : TableState) (columns : Option (List String)) :
    Insertion.columnsOf u columns = Insertion.columnsOf { schema := u.schema } columns := rfl

theorem spelled_schema (u : TableState) (o : OnConflict) :
    Insertion.spelled u o = Insertion.spelled { schema := u.schema } o := rfl

structure OneRow (s : Agora.Store) (params : List Scalar) (t : Table) (columns : Option (List String))
    (rows : Rows) (values : Assignment) : Prop where
  row : ∃ row cols, Insertion.exprs rows = [row] ∧
    Insertion.columnsOf (s.database.at t) columns = .ok cols ∧
    cols.zip (row.map (·.eval (s.context params))) = values

variable {columns : Option (List String)} {rows : Rows} {values : Assignment}

theorem OneRow.of_operands (hs : Ready s) (ht : t ∈ Schema.tables) {row : List Expr}
    (hexprs : Insertion.exprs rows = [row])
    (hcols : Insertion.columnsOf { schema := t } columns = .ok (values.map (·.1)))
    (hrow : List.Forall₂ (Operand (params.map .ofScalar)) row (values.map (·.2))) :
    OneRow s params t columns rows values := by
  have heval : row.map (·.eval (s.context params)) = values.map (·.2) := by
    clear hexprs
    generalize values.map (·.2) = vs at hrow
    induction hrow with
    | nil => rfl
    | cons he _ ih => rw [List.map_cons, he.eval (s.context params) rfl, ih]
  refine ⟨row, values.map (·.1), hexprs, ?_, ?_⟩
  · rw [columnsOf_schema, hs.shaped.at_schema ht]
    exact hcols
  · rw [heval, List.zip_map']
    simp

theorem perform_insert_skipped (hs : Ready s) (ht : Leaf t)
    (hrow : OneRow s params t columns rows values)
    (hguard : (Insertion.guards rows).all (·.holds (s.context params)) = false)
    (onConflict : Option OnConflict) :
    s.perform params (.insert t.name columns rows onConflict []) =
      .ok ([], changedTo s 0 s.database) := by
  obtain ⟨row, cols, -, hcols, -⟩ := hrow.row
  have hrun : Insertion.run (s.context params) s.now t.name columns rows onConflict [] =
      .ok { database := s.database, changes := 0 } := by
    have hsame : (s.context params).database.replace (s.database.at t) = s.database :=
      hs.shaped.replace_at ht.mem
    simp only [Insertion.run, hs.checkTable ht.mem, bind, Except.bind, hcols, hguard,
      Bool.false_eq_true, if_false, List.foldlM_nil, pure, Except.pure, hsame]
    rfl
  have hsettle := settle_ok (n := 0) (Keeps.refl s.database)
  simp only [perform, hrun, bind, Except.bind, hsettle]
  rfl

theorem perform_insert_settled (hs : Ready s) (ht : Leaf t)
    (hrow : OneRow s params t columns rows values)
    (hguard : (Insertion.guards rows).all (·.holds (s.context params)) = true)
    (onConflict : Option OnConflict) {r : Record} {u : TableState}
    (hinsert : (s.database.at t).insert s.now
      (onConflict.map (Insertion.spelled (s.database.at t))) values = .ok (r, u)) :
    s.perform params (.insert t.name columns rows onConflict []) =
      (s.settle 1 (s.database.replace u)).map fun s' => ([], s') := by
  obtain ⟨row, cols, hexprs, hcols, hvalues⟩ := hrow.row
  have hrun : Insertion.run (s.context params) s.now t.name columns rows onConflict [] =
      .ok { database := s.database.replace u, changes := 1 } := by
    simp only [Insertion.run, hs.checkTable ht.mem, bind, Except.bind, hcols, hguard, if_true,
      hexprs, List.foldlM_cons, List.foldlM_nil, hvalues, hinsert, pure, Except.pure]
    rfl
  simp only [perform, hrun, bind, Except.bind]
  cases s.settle 1 (s.database.replace u) <;> rfl

theorem perform_insert_error (hs : Ready s) (ht : Leaf t)
    (hrow : OneRow s params t columns rows values)
    (hguard : (Insertion.guards rows).all (·.holds (s.context params)) = true)
    (onConflict : Option OnConflict) {e : StatementError}
    (hinsert : (s.database.at t).insert s.now
      (onConflict.map (Insertion.spelled (s.database.at t))) values = .error e) :
    s.perform params (.insert t.name columns rows onConflict []) = .error e := by
  obtain ⟨row, cols, hexprs, hcols, hvalues⟩ := hrow.row
  have hrun : Insertion.run (s.context params) s.now t.name columns rows onConflict [] =
      .error e := by
    simp only [Insertion.run, hs.checkTable ht.mem, bind, Except.bind, hcols, hguard, if_true,
      hexprs, List.foldlM_cons, hvalues, hinsert]
  simp only [perform, hrun, bind, Except.bind]

end Insertion

theorem perform_update (hs : Ready s) (ht : Leaf t)
    (hk : Keyed (params.map .ofScalar) t conditions p) {old : Record}
    (hone : (s.database.at t).records.filter (·.meets p) = [old]) {name : String} {e : Expr}
    {c : Column} {v : Value} (hcol : columnOf? t name = some c)
    (he : Operand (params.map .ofScalar) e v) {r : Record} {u : TableState}
    (hupdate : (s.database.at t).update old [(c, v)] = .ok (r, u))
    (hkeeps : Keeps s.database (s.database.replace u)) :
    s.perform params (.update t.name [(name, e)] conditions) =
      .ok ([], changedTo s 1 (s.database.replace u)) := by
  have hvalue (scope : Scope) : e.eval { s.context params with scope } = v := he.eval _ rfl
  have hrun : Update.run (s.context params) t.name [(name, e)] conditions =
      .ok { database := s.database.replace u, changes := 1 } := by
    simp only [Update.run, hs.checkTable ht.mem, bind, Except.bind, meeting_eq hs ht.mem hk, hone,
      List.foldlM_cons, List.foldlM_nil, List.filterMap_cons, List.filterMap_nil,
      hs.shaped.at_schema ht.mem, hcol, Option.map_some, hvalue, hupdate, pure, Except.pure]
    rfl
  simp only [perform, hrun, bind, Except.bind, settle_ok hkeeps]
  rfl

theorem perform_update_none (hs : Ready s) (ht : Leaf t)
    (hk : Keyed (params.map .ofScalar) t conditions p)
    (hnone : (s.database.at t).records.filter (·.meets p) = [])
    (updates : List (String × Expr)) :
    s.perform params (.update t.name updates conditions) =
      .ok ([], changedTo s 0 s.database) := by
  have hsame : (s.context params).database.replace (s.database.at t) = s.database :=
    hs.shaped.replace_at ht.mem
  have hrun : Update.run (s.context params) t.name updates conditions =
      .ok { database := s.database, changes := 0 } := by
    simp only [Update.run, hs.checkTable ht.mem, bind, Except.bind, meeting_eq hs ht.mem hk, hnone,
      List.foldlM_nil, pure, Except.pure, hsame]
    rfl
  simp only [perform, hrun, bind, Except.bind, settle_ok (n := 0) (Keeps.refl s.database)]
  rfl

end Statements

end Agora.Store
