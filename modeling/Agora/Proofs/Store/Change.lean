import Agora.Proofs.Store.Record

namespace Agora.Store

structure Regular (t : Table) : Prop where
  columns : t.columns = Column.id :: plain t
  names : (t.columns.map (·.name)).Nodup

theorem regular_of_mem {t : Table} (h : t ∈ Schema.tables) : Regular t := by
  have hall : ∀ t ∈ Schema.tables,
      t.columns = Column.id :: plain t ∧ (t.columns.map (·.name)).Nodup := by decide +kernel
  exact ⟨(hall t h).1, (hall t h).2⟩

section Columns

variable {t : Table} {c : Column} {v : Value} {r : Record} {values : Assignment}

theorem not_isId_of_plain (hc : c ∈ plain t) : c.isId = false := by
  simpa using (List.mem_filter.1 hc).2

theorem Regular.ne_id (h : Regular t) (hc : c ∈ plain t) : c.name ≠ Column.id.name := by
  have hnames := h.names
  rw [h.columns, List.map_cons, List.nodup_cons] at hnames
  exact fun he => hnames.1 (he ▸ List.mem_map_of_mem hc)

theorem Regular.eq_of_name (h : Regular t) {d : Column} (hc : c ∈ t.columns) (hd : d ∈ t.columns)
    (hname : c.name = d.name) : c = d :=
  List.inj_on_of_nodup_map h.names hc hd hname

theorem Regular.mem_of_plain (h : Regular t) (hc : c ∈ plain t) : c ∈ t.columns :=
  h.columns ▸ List.mem_cons_of_mem _ hc

theorem admits_id (id : Int64) : Admits Column.id (.integer id) :=
  ⟨rfl, rfl, rfl⟩

def Record.withField (r : Record) (c : String) (v : Value) : Record :=
  { r with fields := r.fields.map fun f => if f.1 = c then (f.1, v) else f }

@[simp] theorem Record.withField_id (r : Record) (c : String) (v : Value) :
    (r.withField c v).id = r.id := rfl

theorem lookup_withField (fields : List (String × Value)) (c n : String) (v : Value) :
    (fields.map fun f => if f.1 = c then (f.1, v) else f).lookup n =
      if n = c then (fields.lookup n).map fun _ => v else fields.lookup n := by
  induction fields with
  | nil => simp
  | cons f fields ih =>
    obtain ⟨m, w⟩ := f
    by_cases hm : m = c
    · by_cases hn : n = m
      · simp [hm, hn]
      · have hbeq : (n == m) = false := by simpa using hn
        simpa [List.lookup_cons, hm ▸ hbeq, hm, hm ▸ hn] using ih
    · by_cases hn : n = m
      · simp [hm, hn]
      · have hbeq : (n == m) = false := by simpa using hn
        simpa [List.lookup_cons, hm, hbeq] using ih

theorem lookup_isSome {fields : List (String × Value)} {n : String}
    (h : n ∈ fields.map (·.1)) : (fields.lookup n).isSome := by
  induction fields with
  | nil => cases h
  | cons f fields ih =>
    obtain ⟨m, w⟩ := f
    by_cases hn : n = m
    · simp [hn]
    · have hbeq : (n == m) = false := by simpa using hn
      simpa [List.lookup_cons, hbeq] using ih (by simpa [hn] using h)

theorem Record.get_withField {n : String} {c : String} (hc : c ≠ Column.id.name)
    (hmem : c ∈ r.fields.map (·.1)) :
    (r.withField c v).get n = if n = c then v else r.get n := by
  simp only [Record.get, Record.withField, lookup_withField]
  by_cases hn : n = c
  · obtain ⟨w, hw⟩ := Option.isSome_iff_exists.1 (lookup_isSome hmem)
    simp [hn, hc, hw]
  · simp [hn]

theorem Proper.get_withField (hr : Proper t r) (hreg : Regular t) (hc : c ∈ plain t) (n : String) :
    (r.withField c.name v).get n = if n = c.name then v else r.get n :=
  Record.get_withField (hreg.ne_id hc) (hr.fields ▸ List.mem_map_of_mem hc)

theorem Proper.withField (hr : Proper t r) (hreg : Regular t) (hc : c ∈ plain t)
    (hv : Admits c v) : Proper t (r.withField c.name v) where
  fields := by
    rw [← hr.fields, Record.withField, List.map_map]
    exact List.map_congr_left fun f _ => by simp only [Function.comp]; split <;> rfl
  values d hd := by
    rw [hr.get_withField hreg hc]
    split
    · rename_i hname
      exact hreg.eq_of_name hd (hreg.mem_of_plain hc) hname ▸ hv
    · exact hr.values d hd

theorem Proper.meets_withField (hr : Proper t r) (hreg : Regular t) (hc : c ∈ plain t)
    {p : Pattern} (hp : c.name ∉ p.map (·.1)) :
    (r.withField c.name v).meets p = r.meets p := by
  have hget : ∀ x ∈ p, (r.withField c.name v).get x.1 = r.get x.1 := fun x hx => by
    rw [hr.get_withField hreg hc, if_neg]
    exact fun he => hp (he ▸ List.mem_map_of_mem hx)
  rw [Bool.eq_iff_iff, Record.meets, Record.meets, List.all_eq_true, List.all_eq_true]
  exact forall₂_congr fun x hx => by rw [hget x hx]

def newRecord (id : Int64) (values : Assignment) : Record :=
  { id, fields := values.map fun cv => (cv.1.name, cv.2) }

structure Complete (t : Table) (values : Assignment) : Prop where
  columns : values.map (·.1) = plain t
  admitted : ∀ cv ∈ values, Admits cv.1 cv.2

theorem Complete.names (h : Complete t values) (hreg : Regular t) :
    (values.map fun cv => cv.1.name).Nodup := by
  have hnames := hreg.names
  rw [hreg.columns, List.map_cons, List.nodup_cons, ← h.columns, List.map_map] at hnames
  exact hnames.2

theorem Complete.mem_plain (h : Complete t values) (hmem : (c, v) ∈ values) : c ∈ plain t :=
  h.columns ▸ List.mem_map_of_mem hmem

theorem lookup_of_mem {fields : List (String × Value)} (hnodup : (fields.map (·.1)).Nodup)
    {n : String} (h : (n, v) ∈ fields) : fields.lookup n = some v := by
  induction fields with
  | nil => cases h
  | cons f fields ih =>
    obtain ⟨m, w⟩ := f
    rw [List.map_cons, List.nodup_cons] at hnodup
    rcases List.mem_cons.1 h with he | h
    · simp [Prod.mk.inj he]
    · have hne : n ≠ m := fun he => hnodup.1 (he ▸ List.mem_map_of_mem (f := (·.1)) h)
      have hbeq : (n == m) = false := by simpa using hne
      simpa [List.lookup_cons, hbeq] using ih hnodup.2 h

theorem Complete.get_newRecord (h : Complete t values) (hreg : Regular t) (id : Int64)
    (hmem : (c, v) ∈ values) : (newRecord id values).get c.name = v := by
  have hne := hreg.ne_id (h.mem_plain hmem)
  have hnames : ((newRecord id values).fields.map (·.1)).Nodup := by
    simpa [newRecord, Function.comp_def] using h.names hreg
  have hfield : (c.name, v) ∈ (newRecord id values).fields :=
    List.mem_map_of_mem (f := fun cv : Column × Value => (cv.1.name, cv.2)) hmem
  rw [Record.get, if_neg hne, lookup_of_mem hnames hfield]
  rfl

theorem Complete.proper_newRecord (h : Complete t values) (hreg : Regular t) (id : Int64) :
    Proper t (newRecord id values) where
  fields := by
    rw [← h.columns, newRecord, List.map_map, List.map_map]
    rfl
  values c hc := by
    rw [hreg.columns] at hc
    rcases List.mem_cons.1 hc with rfl | hc
    · exact admits_id id
    · rw [← h.columns] at hc
      obtain ⟨cv, hcv, rfl⟩ := List.mem_map.1 hc
      rw [h.get_newRecord hreg id hcv]
      exact h.admitted cv hcv

end Columns

section Update

variable {t : TableState} {old : Record} {c : Column} {v : Value}

theorem assign_withField (r : Record) (hc : c.isId = false) (hv : Admits c v) :
    TableState.assign r [(c, v)] = .ok (r.withField c.name v) := by
  simp only [TableState.assign, List.foldlM_cons, List.foldlM_nil, hv.kept, hc,
    Bool.false_eq_true, if_false]
  rfl

theorem update_withField (ht : Lawful t) (hreg : Regular t.schema) (hold : old ∈ t.records)
    (hc : c ∈ plain t.schema) (hv : Admits c v)
    (hkeys : ∀ key ∈ TableState.keys t.schema, c.name ∉ key) :
    t.update old [(c, v)] = .ok (old.withField c.name v,
        (t.remove old.id).put (old.withField c.name v)) ∧
      Lawful ((t.remove old.id).put (old.withField c.name v)) := by
  have hproper : Proper t.schema (old.withField c.name v) :=
    (ht.proper old hold).withField hreg hc hv
  have hids : ∀ s ∈ (t.remove old.id).records, s.id ≠ (old.withField c.name v).id :=
    fun s hs => (TableState.mem_remove.1 hs).2
  have hfree : ∀ q : Pattern, q.map (·.1) ∈ TableState.keys t.schema →
      (old.withField c.name v).meets q → ∀ s ∈ (t.remove old.id).records, ¬ s.meets q := by
    intro q hq hnew s hs hsq
    rw [(ht.proper old hold).meets_withField hreg hc (hkeys _ hq)] at hnew
    obtain ⟨hs, hne⟩ := TableState.mem_remove.1 hs
    exact hne (congrArg Record.id (ht.unique q hq s hs old hold hsq hnew))
  refine ⟨?_, (ht.remove old.id).put hproper hids hfree⟩
  simp only [TableState.update, assign_withField old (not_isId_of_plain hc) hv, bind, Except.bind,
    TableState.checkValues_ok hproper, TableState.checkKeys_ok hids hfree]
  rfl

end Update

section Insertion

variable {t : TableState} {values : Assignment} {p : Pattern} {now : String} {id : Int64}

theorem find?_name {values : Assignment} (h : (values.map fun cv => cv.1.name).Nodup)
    {cv : Column × Value} (hcv : cv ∈ values) :
    values.find? (·.1.name = cv.1.name) = some cv := by
  induction values with
  | nil => cases hcv
  | cons dw values ih =>
    rw [List.map_cons, List.nodup_cons] at h
    rcases List.mem_cons.1 hcv with rfl | hcv
    · simp
    · have hne : dw.1.name ≠ cv.1.name := fun he => h.1 (he ▸ List.mem_map_of_mem hcv)
      rw [List.find?_cons_of_neg (by simpa using hne)]
      exact ih h.2 hcv

theorem initialId_eq (h : Complete t.schema values) : t.initialId values =
    match t.nextId? with
    | some id => .ok id
    | none => .error (.other "database or disk is full") := by
  have hnone : values.find? (·.1.isId) = none := by
    refine List.find?_eq_none.2 fun cv hcv => ?_
    simp [not_isId_of_plain (h.mem_plain hcv)]
  cases hid : t.nextId? with
  | none => simp [TableState.initialId, hnone, hid]
  | some id => simp [TableState.initialId, hnone, hid]

theorem candidate_ok (h : Complete t.schema values) (hreg : Regular t.schema)
    (hid : t.nextId? = some id) : t.candidate now values = .ok (newRecord id values) := by
  have hfields : (plain t.schema).map (fun c => (c.name, TableState.initial now values c)) =
      values.map fun cv => (cv.1.name, cv.2) := by
    rw [← h.columns, List.map_map]
    refine List.map_congr_left fun cv hcv => ?_
    simp [TableState.initial, find?_name (h.names hreg) hcv, (h.admitted cv hcv).kept]
  simp only [TableState.candidate, initialId_eq h, hid]
  exact congrArg (fun fields => Except.ok (Record.mk id fields)) hfields

theorem insert_full (h : Complete t.schema values) (hid : t.nextId? = none) (now : String)
    (onConflict : Option OnConflict) :
    t.insert now onConflict values = .error (.other "database or disk is full") := by
  simp only [TableState.insert, TableState.candidate, initialId_eq h, hid]
  rfl

/-- The values in the only key of a table, each equal to nothing but itself. -/
structure KeyFor (t : Table) (p : Pattern) (values : Assignment) : Prop where
  keys : TableState.keys t = [p.map (·.1)]
  exact_values : ∀ x ∈ p, x.2.isExact
  given : ∀ x ∈ p, ∃ c, c.name = x.1 ∧ (c, x.2) ∈ values

namespace KeyFor

theorem get_newRecord (hp : KeyFor t.schema p values) (h : Complete t.schema values)
    (hreg : Regular t.schema) (id : Int64) {x : String × Value} (hx : x ∈ p) :
    (newRecord id values).get x.1 = x.2 := by
  obtain ⟨c, hc, hmem⟩ := hp.given x hx
  rw [← hc, h.get_newRecord hreg id hmem]

theorem sameKey (hp : KeyFor t.schema p values) (h : Complete t.schema values)
    (hreg : Regular t.schema) (id : Int64) (s : Record) :
    TableState.sameKey (p.map (·.1)) (newRecord id values) s = s.meets p := by
  rw [TableState.sameKey, Record.meets, List.all_map, Bool.eq_iff_iff, List.all_eq_true,
    List.all_eq_true]
  refine forall₂_congr fun x hx => ?_
  rw [Function.comp_apply, hp.get_newRecord h hreg id hx, Value.equals_comm]

theorem meets_of_common (hp : KeyFor t.schema p values) (h : Complete t.schema values)
    (hreg : Regular t.schema) {q : Pattern} (hq : q.map (·.1) ∈ TableState.keys t.schema)
    (hnew : (newRecord id values).meets q) {s : Record} (hs : s.meets q) : s.meets p := by
  rw [hp.keys, List.mem_singleton] at hq
  refine List.all_eq_true.2 fun x hx => ?_
  have hname : x.1 ∈ q.map (·.1) := hq ▸ List.mem_map_of_mem hx
  obtain ⟨y, hy, hname⟩ := List.mem_map.1 hname
  have hnewy := List.all_eq_true.1 hnew y hy
  have hsy := List.all_eq_true.1 hs y hy
  rw [hname, hp.get_newRecord h hreg id hx] at hnewy
  exact Value.equals_of_common (hp.exact_values x hx) hnewy (hname ▸ hsy)

end KeyFor

variable (ht : Lawful t) (hreg : Regular t.schema) (h : Complete t.schema values)
  (hp : KeyFor t.schema p values)
include ht hreg h hp

theorem insert_free (hid : t.nextId? = some id) (hfree : ∀ s ∈ t.records, ¬ s.meets p)
    (now : String) {onConflict : Option OnConflict} (ho : ∀ o ∈ onConflict, o.key = p.map (·.1)) :
    t.insert now onConflict values =
        .ok (newRecord id values, (t.useId id).put (newRecord id values)) ∧
      Lawful ((t.useId id).put (newRecord id values)) := by
  have hproper := h.proper_newRecord hreg id
  have hids : ∀ s ∈ t.records, s.id ≠ (newRecord id values).id := TableState.nextId?_fresh hid
  have hkeys : ∀ q : Pattern, q.map (·.1) ∈ TableState.keys t.schema →
      (newRecord id values).meets q → ∀ s ∈ t.records, ¬ s.meets q :=
    fun q hq hnew s hs hsq => hfree s hs (hp.meets_of_common h hreg hq hnew hsq)
  have hmet : (onConflict.bind fun o => (t.records.find?
      (TableState.sameKey o.key (newRecord id values))).map fun old => (old, o.updates)) = none := by
    cases onConflict with
    | none => rfl
    | some o =>
      have hfind : t.records.find? (TableState.sameKey o.key (newRecord id values)) = none :=
        List.find?_eq_none.2 fun s hs => by
          rw [ho o rfl, hp.sameKey h hreg]
          exact hfree s hs
      simp [hfind]
  refine ⟨?_, (ht.useId id).put hproper hids hkeys⟩
  simp only [TableState.insert, candidate_ok h hreg hid, bind, Except.bind,
    TableState.checkValues_ok hproper, hmet, TableState.checkKeys_ok hids hkeys]
  rfl

omit ht in
theorem insert_taken (hid : t.nextId? = some id) {old : Record} (hold : old ∈ t.records)
    (hm : old.meets p) (now : String) :
    t.insert now none values = .error (t.unique (p.map (·.1))) := by
  have hfresh : ∀ s ∈ t.records, s.id ≠ (newRecord id values).id := TableState.nextId?_fresh hid
  have hids : ¬ t.records.any (·.id = (newRecord id values).id) := by simpa using hfresh
  have hsame : t.records.any (TableState.sameKey (p.map (·.1)) (newRecord id values)) = true :=
    List.any_eq_true.2 ⟨old, hold, by rwa [hp.sameKey h hreg]⟩
  have hkeys : t.checkKeys t.records (newRecord id values) = .error (t.unique (p.map (·.1))) := by
    simp only [TableState.checkKeys, if_neg hids, hp.keys, List.find?_cons, hsame]
  simp only [TableState.insert, candidate_ok h hreg hid, bind, Except.bind,
    TableState.checkValues_ok (h.proper_newRecord hreg id), Option.bind_none, hkeys]

theorem insert_met (hid : t.nextId? = some id) (now : String) {old : Record}
    (hold : old ∈ t.records) (hm : old.meets p) {c : Column} {v : Value} (hcv : (c, v) ∈ values)
    (hkey : c.name ∉ p.map (·.1)) (hcol : columnOf? t.schema c.name = some c) :
    t.insert now (some { key := p.map (·.1), updates := [(c.name, c.name)] }) values =
        .ok (old.withField c.name v,
          ((t.useId id).remove old.id).put (old.withField c.name v)) ∧
      Lawful (((t.useId id).remove old.id).put (old.withField c.name v)) := by
  have hkeys : ∀ key ∈ TableState.keys (t.useId id).schema, c.name ∉ key := by
    intro key hk
    rw [TableState.useId_schema, hp.keys, List.mem_singleton] at hk
    exact hk ▸ hkey
  have hfind : t.records.find? (TableState.sameKey (p.map (·.1)) (newRecord id values)) =
      some old := by
    have hone := ht.filter_meets (hp.keys ▸ List.mem_singleton_self _) hold hm
    rw [funext (hp.sameKey h hreg id), ← List.head?_filter, hone]
    rfl
  -- the id went to the candidate row before the row it meets was found
  obtain ⟨hupdate, hlawful⟩ := update_withField (ht.useId id) hreg hold (h.mem_plain hcv)
    (h.admitted _ hcv) hkeys
  refine ⟨?_, hlawful⟩
  simp only [TableState.insert, candidate_ok h hreg hid, bind, Except.bind, Option.bind,
    TableState.checkValues_ok (h.proper_newRecord hreg id), hfind, Option.map_some,
    List.filterMap_cons, List.filterMap_nil, hcol, h.get_newRecord hreg id hcv]
  exact hupdate

end Insertion

end Agora.Store
