import Agora.Proofs.Store.Change
import Agora.Store.Session
/-!
A table that no other refers to can be replaced without touching the others; its references dangle
no more than before as long as each record refers to what was there already.
-/
namespace Agora.Store

structure Shaped (db : Database) : Prop where
  schemas : db.tables.map (·.schema) = Schema.tables

def Database.at (db : Database) (t : Table) : TableState :=
  (db.table? t.name).getD { schema := t }

theorem eq_of_fold_name : ∀ t ∈ Schema.tables, ∀ u ∈ Schema.tables,
    Read.fold t.name = Read.fold u.name → t = u := by
  decide +kernel

theorem eq_of_name {t u : Table} (ht : t ∈ Schema.tables) (hu : u ∈ Schema.tables)
    (h : t.name = u.name) : t = u :=
  eq_of_fold_name t ht u hu (congrArg Read.fold h)

theorem columnOf?_eq {t : Table} (ht : t ∈ Schema.tables) {c : Column} (hc : c ∈ t.columns)
    {name : String} (hname : c.name = name) : columnOf? t name = some c := by
  have hall : ∀ t ∈ Schema.tables, ∀ c ∈ t.columns, columnOf? t c.name = some c := by
    decide +kernel
  exact hname ▸ hall t ht c hc

namespace Shaped

variable {db : Database} {t : Table} {ts u v : TableState}

theorem schema_mem (h : Shaped db) (hts : ts ∈ db.tables) : ts.schema ∈ Schema.tables :=
  h.schemas ▸ List.mem_map_of_mem hts

theorem table?_at (h : Shaped db) (ht : t ∈ Schema.tables) : db.table? t.name = some (db.at t) := by
  rw [← h.schemas] at ht
  obtain ⟨ts, hts, rfl⟩ := List.mem_map.1 ht
  cases hfind : db.table? ts.schema.name with
  | none => exact absurd (List.find?_eq_none.1 hfind ts hts) (by simp)
  | some x => simp [Database.at, hfind]

theorem at_mem (h : Shaped db) (ht : t ∈ Schema.tables) : db.at t ∈ db.tables :=
  List.mem_of_find?_eq_some (h.table?_at ht)

theorem at_schema (h : Shaped db) (ht : t ∈ Schema.tables) : (db.at t).schema = t := by
  have hname := List.find?_some (h.table?_at ht)
  exact eq_of_fold_name _ (h.schema_mem (h.at_mem ht)) _ ht (by simpa using hname)

theorem eq_at (h : Shaped db) (hts : ts ∈ db.tables) : ts = db.at ts.schema := by
  have hnodup : (db.tables.map (·.schema)).Nodup := by
    rw [h.schemas]
    decide +kernel
  exact List.inj_on_of_nodup_map hnodup hts (h.at_mem (h.schema_mem hts))
    (h.at_schema (h.schema_mem hts)).symm

theorem tables_eq (h : Shaped db) : db.tables = Schema.tables.map db.at := by
  rw [← h.schemas, List.map_map]
  exact (List.map_id' db.tables).symm.trans (List.map_congr_left fun ts hts => h.eq_at hts)

theorem ext {db' : Database} (h : Shaped db) (h' : Shaped db')
    (heq : ∀ t ∈ Schema.tables, db.at t = db'.at t) : db = db' := by
  obtain ⟨tables⟩ := db
  obtain ⟨tables'⟩ := db'
  congr 1
  exact (h.tables_eq.trans (List.map_congr_left heq)).trans h'.tables_eq.symm

theorem replace (h : Shaped db) (hu : u.schema ∈ Schema.tables) : Shaped (db.replace u) where
  schemas := by
    rw [← h.schemas, Database.replace, List.map_map]
    refine List.map_congr_left fun ts hts => ?_
    rw [Function.comp_apply]
    split
    · rename_i hname
      exact (eq_of_name (h.schema_mem hts) hu hname).symm
    · rfl

theorem at_replace_self (h : Shaped db) (hu : u.schema ∈ Schema.tables) :
    (db.replace u).at u.schema = u := by
  refine ((h.replace hu).eq_at ?_).symm
  refine List.mem_map.2 ⟨db.at u.schema, h.at_mem hu, ?_⟩
  rw [if_pos (congrArg Table.name (h.at_schema hu))]

theorem at_replace (h : Shaped db) (ht : t ∈ Schema.tables) (hu : u.schema = t) :
    (db.replace u).at t = u := by
  subst hu
  exact h.at_replace_self ht

theorem at_replace_of_ne (h : Shaped db) (hu : u.schema ∈ Schema.tables) (ht : t ∈ Schema.tables)
    (hne : t ≠ u.schema) : (db.replace u).at t = db.at t := by
  have hmem : db.at t ∈ (db.replace u).tables := by
    refine List.mem_map.2 ⟨db.at t, h.at_mem ht, if_neg fun hname => hne ?_⟩
    rw [h.at_schema ht] at hname
    exact eq_of_name ht hu hname
  have heq := (h.replace hu).eq_at hmem
  rw [h.at_schema ht] at heq
  exact heq.symm

theorem replace_at (h : Shaped db) (ht : t ∈ Schema.tables) : db.replace (db.at t) = db := by
  have hschema := h.at_schema ht
  refine (h.replace (hschema.symm ▸ ht)).ext h fun u hu => ?_
  by_cases hut : u = t
  · rw [hut, h.at_replace ht hschema]
  · exact h.at_replace_of_ne (hschema.symm ▸ ht) hu (hschema.symm ▸ hut)

end Shaped

structure Leaf (t : Table) : Prop where
  mem : t ∈ Schema.tables
  childless : ∀ u ∈ Schema.tables, ∀ c ∈ u.columns, c.parent ≠ some t.name

theorem leaf_votes : Leaf Schema.votes :=
  ⟨by decide +kernel, by decide +kernel⟩

theorem leaf_reactions : Leaf Schema.reactions :=
  ⟨by decide +kernel, by decide +kernel⟩

theorem parent_mem : ∀ t ∈ Schema.tables, ∀ c ∈ t.columns, ∀ parent ∈ c.parent,
    ∃ u ∈ Schema.tables, u.name = parent := by
  decide +kernel

theorem mem_referencesOf {t : Table} {r : Record} {ref : Database.Reference} :
    ref ∈ Database.referencesOf t r ↔ ∃ c ∈ t.columns, c.parent = some ref.parent ∧
      (r.get c.name).isNull = false ∧
      ref = { table := t.name, id := r.id, column := c.name, parent := ref.parent,
              value := r.get c.name } := by
  simp only [Database.referencesOf, List.mem_filterMap]
  refine exists_congr fun c => and_congr_right fun _ => ?_
  cases hparent : c.parent with
  | none => simp
  | some parent =>
    by_cases hnull : (r.get c.name).isNull
    · simp [hnull]
    · simp only [Option.bind_some, hnull, Bool.false_eq_true, if_false, Option.some.injEq, true_and]
      constructor
      · rintro rfl
        exact ⟨rfl, rfl⟩
      · rintro ⟨rfl, href⟩
        exact href.symm

section References

variable {db : Database} {t : Table} {u : TableState}

theorem hasId_replace (h : Shaped db) (hu : Leaf u.schema) (ht : t ∈ Schema.tables) {r : Record}
    {ref : Database.Reference} (href : ref ∈ Database.referencesOf t r) :
    (db.replace u).hasId ref.parent ref.value = db.hasId ref.parent ref.value := by
  obtain ⟨c, hc, hparent, -, -⟩ := mem_referencesOf.1 href
  obtain ⟨p, hp, hname⟩ := parent_mem t ht c hc ref.parent hparent
  have hne : p ≠ u.schema := by
    rintro rfl
    exact hu.childless t ht c hc (hname ▸ hparent)
  rw [Database.hasId, Database.hasId, ← hname, h.table?_at hp, (h.replace hu.mem).table?_at hp,
    h.at_replace_of_ne hu.mem hp hne]

theorem isOrphan_replace (h : Shaped db) (hu : Leaf u.schema) (ht : t ∈ Schema.tables)
    (r : Record) : Database.isOrphan db (db.replace u) t r = false := by
  refine List.any_eq_false.2 fun ref href => ?_
  rw [hasId_replace h hu ht href]
  simp

theorem foldl_fixed {α β : Type} {f : β → α → β} {b : β} {l : List α}
    (h : ∀ a ∈ l, f b a = b) : l.foldl f b = b := by
  induction l with
  | nil => rfl
  | cons a l ih =>
    rw [List.foldl_cons, h a (by simp)]
    exact ih fun c hc => h c (by simp [hc])

theorem cascade_replace (h : Shaped db) (hu : Leaf u.schema) :
    db.cascade (db.replace u) = db.replace u := by
  have h' := h.replace hu.mem
  refine foldl_fixed fun ts hts => ?_
  have hkept : ts.records.filter (!Database.isOrphan db (db.replace u) ts.schema ·) = ts.records :=
    List.filter_eq_self.2 fun r _ => by simp [isOrphan_replace h hu (h'.schema_mem hts) r]
  rw [Database.dropOrphans, hkept]
  exact (congrArg _ (h'.eq_at hts)).trans (h'.replace_at (h'.schema_mem hts))

def Keeps (before after : Database) : Prop :=
  ∀ ref ∈ after.dangling, ref ∈ before.dangling

theorem Keeps.refl (db : Database) : Keeps db db :=
  fun _ h => h

theorem Keeps.breaksReferences {before after : Database} (h : Keeps before after) :
    before.breaksReferences after = false := by
  refine List.any_eq_false.2 fun ref href => ?_
  simpa using h ref href

theorem mem_dangling {ref : Database.Reference} : ref ∈ db.dangling ↔
    (∃ ts ∈ db.tables, ∃ r ∈ ts.records, ref ∈ Database.referencesOf ts.schema r) ∧
      db.hasId ref.parent ref.value = false := by
  simp [Database.dangling]

theorem keeps_replace (h : Shaped db) (hu : Leaf u.schema)
    (hrefs : ∀ r ∈ u.records, ∀ ref ∈ Database.referencesOf u.schema r,
      db.hasId ref.parent ref.value ∨
        ∃ s ∈ (db.at u.schema).records, ref ∈ Database.referencesOf u.schema s) :
    Keeps db (db.replace u) := by
  intro ref href
  obtain ⟨⟨ts, hts, r, hr, hmem⟩, hid⟩ := mem_dangling.1 href
  rw [hasId_replace h hu ((h.replace hu.mem).schema_mem hts) hmem] at hid
  have heq := (h.replace hu.mem).eq_at hts
  by_cases hsame : ts.schema = u.schema
  · rw [hsame, h.at_replace_self hu.mem] at heq
    subst heq
    rcases hrefs r hr ref hmem with hyes | ⟨s, hs, hsref⟩
    · rw [hid] at hyes
      cases hyes
    · refine mem_dangling.2 ⟨⟨_, h.at_mem hu.mem, s, hs, ?_⟩, hid⟩
      rwa [h.at_schema hu.mem]
  · have hmem' := (h.replace hu.mem).schema_mem hts
    rw [h.at_replace_of_ne hu.mem hmem' hsame] at heq
    exact mem_dangling.2 ⟨⟨ts, heq ▸ h.at_mem hmem', r, hr, hmem⟩, hid⟩

theorem keeps_without (h : Shaped db) (ht : Leaf t) (p : Pattern) :
    Keeps db (db.replace ((db.at t).without p)) := by
  have hschema := h.at_schema ht.mem
  refine keeps_replace h (by simpa [hschema] using ht) fun r hr ref href => .inr ⟨r, ?_, href⟩
  simpa [hschema] using (TableState.mem_without.1 hr).1

theorem mem_referencesOf_newRecord {values : Assignment} (ht : t ∈ Schema.tables)
    (hv : Complete t values) {id : Int64} {ref : Database.Reference}
    (href : ref ∈ Database.referencesOf t (newRecord id values)) :
    ∃ c, (c, ref.value) ∈ values ∧ c.parent = some ref.parent := by
  have hreg := regular_of_mem ht
  obtain ⟨c, hc, hparent, -, heq⟩ := mem_referencesOf.1 href
  rw [hreg.columns] at hc
  rcases List.mem_cons.1 hc with rfl | hc
  · cases hparent
  · rw [← hv.columns] at hc
    obtain ⟨⟨d, v⟩, hdv, rfl⟩ := List.mem_map.1 hc
    rw [hv.get_newRecord hreg id hdv] at heq
    exact ⟨d, by simpa [congrArg Database.Reference.value heq] using hdv, hparent⟩

theorem keeps_newRecord {values : Assignment} (h : Shaped db) (ht : Leaf t)
    (hv : Complete t values)
    (hparents : ∀ c v parent, (c, v) ∈ values → c.parent = some parent → db.hasId parent v)
    (id : Int64) :
    Keeps db (db.replace (((db.at t).useId id).put (newRecord id values))) := by
  have hschema := h.at_schema ht.mem
  refine keeps_replace h (by simpa [hschema] using ht) fun r hr ref href => ?_
  simp only [TableState.put_schema, TableState.useId_schema, hschema] at href ⊢
  rcases TableState.mem_put.1 hr with rfl | hr
  · obtain ⟨c, hc, hparent⟩ := mem_referencesOf_newRecord ht.mem hv href
    exact .inl (hparents c _ _ hc hparent)
  · exact .inr ⟨r, hr, href⟩

theorem mem_referencesOf_withField (ht : t ∈ Schema.tables) {r : Record} (hr : Proper t r)
    {c : Column} {v : Value} (hc : c ∈ plain t) (hparent : c.parent = none)
    {ref : Database.Reference} (href : ref ∈ Database.referencesOf t (r.withField c.name v)) :
    ref ∈ Database.referencesOf t r := by
  have hreg := regular_of_mem ht
  obtain ⟨d, hd, hdparent, hnull, heq⟩ := mem_referencesOf.1 href
  have hne : d.name ≠ c.name := by
    intro hname
    rw [hreg.eq_of_name hd (hreg.mem_of_plain hc) hname, hparent] at hdparent
    cases hdparent
  rw [hr.get_withField hreg hc, if_neg hne] at hnull heq
  exact mem_referencesOf.2 ⟨d, hd, hdparent, hnull, heq⟩

theorem keeps_withField (h : Shaped db) (ht : Leaf t) (hl : Lawful (db.at t)) {old : Record}
    (hold : old ∈ (db.at t).records) {c : Column} {v : Value} (hc : c ∈ plain t)
    (hparent : c.parent = none) {u : TableState} (hschema : u.schema = t)
    (hu : ∀ r ∈ u.records, r = old.withField c.name v ∨ r ∈ (db.at t).records) :
    Keeps db (db.replace u) := by
  subst hschema
  refine keeps_replace h ht fun r hr ref href => ?_
  rcases hu r hr with rfl | hr
  · have hproper := hl.proper old hold
    rw [h.at_schema ht.mem] at hproper
    exact .inr ⟨old, hold, mem_referencesOf_withField ht.mem hproper hc hparent href⟩
  · exact .inr ⟨r, hr, href⟩

end References

end Agora.Store
