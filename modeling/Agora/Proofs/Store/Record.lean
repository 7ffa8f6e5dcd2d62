import Mathlib.Data.List.Nodup
import Agora.Store.Change

namespace Agora

namespace Value

theorem sameValue_comm (x y : Binary64) : x.sameValue y = y.sameValue x := by
  simp only [Binary64.sameValue, Bool.and_comm]
  congr 1
  exact decide_eq_decide.2 eq_comm

theorem equals_comm (v w : Value) : v.equals w = w.equals v := by
  cases v <;> cases w <;> simp [equals, sameValue_comm, eq_comm]

theorem equals_self {v w : Value} (h : v.equals w) : w.equals w := by
  cases w with
  | null => cases v <;> exact absurd h (by simp [equals])
  | real x => simp [equals, Binary64.sameValue]
  | _ => simp [equals]

theorem toInt?_of_isZero {x : Binary64} (h : x.isZero) : x.toInt? = some 0 := by
  cases x with
  | infinite s => simp [Binary64.isZero] at h
  | finite s m e =>
    have hm : m = 0 := by simpa [Binary64.isZero] using h
    subst hm
    by_cases he : 0 ≤ e <;> cases s <;> simp [Binary64.toInt?, Binary64.ratio, he]

theorem toInt?_eq_of_sameValue {x y : Binary64} (h : x.sameValue y) : x.toInt? = y.toInt? := by
  simp only [Binary64.sameValue, Bool.or_eq_true, decide_eq_true_eq, Bool.and_eq_true] at h
  rcases h with rfl | ⟨hx, hy⟩
  · rfl
  · rw [toInt?_of_isZero hx, toInt?_of_isZero hy]

def isExact : Value → Bool
  | integer _ | text _ => true
  | _ => false

theorem equals_of_common {u v w : Value} (hu : u.isExact) (h : u.equals v) (hw : w.equals v) :
    w.equals u := by
  cases u with
  | integer i =>
    cases v with
    | integer j =>
      obtain rfl : i = j := by simpa [equals] using h
      exact hw
    | real y =>
      have hy : y.toInt? = some i.toInt := by simpa [equals] using h
      cases w with
      | integer k =>
        have hk : y.toInt? = some k.toInt := by simpa [equals] using hw
        simp [equals, Int64.toInt_inj.1 (Option.some.inj (hk.symm.trans hy))]
      | real x =>
        have hx : x.toInt? = y.toInt? := toInt?_eq_of_sameValue (by simpa [equals] using hw)
        simp [equals, hx, hy]
      | _ => simp [equals] at hw
    | _ => simp [equals] at h
  | text s =>
    cases v with
    | text t =>
      obtain rfl : s = t := by simpa [equals] using h
      exact hw
    | _ => simp [equals] at h
  | _ => cases hu

end Value

namespace Store

abbrev Pattern := List (String × Value)

def Record.meets (r : Record) (p : Pattern) : Bool :=
  p.all fun x => (r.get x.1).equals x.2

structure Admits (c : Column) (v : Value) : Prop where
  kept : v.keptIn c.type = v
  present : (c.notNull && v.isNull) = false
  allowed : (!c.oneOf.isEmpty && !v.isNull && !c.oneOf.any fun i => v.equals (.ofInt i)) = false

def plain (t : Table) : List Column :=
  t.columns.filter (!·.isId)

structure Proper (t : Table) (r : Record) : Prop where
  fields : r.fields.map (·.1) = (plain t).map (·.name)
  values : ∀ c ∈ t.columns, Admits c (r.get c.name)

structure Lawful (t : TableState) : Prop where
  proper : ∀ r ∈ t.records, Proper t.schema r
  ids : (t.records.map (·.id)).Nodup
  unique : ∀ p : Pattern, p.map (·.1) ∈ TableState.keys t.schema →
    ∀ r ∈ t.records, ∀ s ∈ t.records, r.meets p → s.meets p → r = s

namespace TableState

variable {t : TableState} {r : Record}

theorem put_perm (t : TableState) (r : Record) : (t.put r).records.Perm (r :: t.records) := by
  have h : (t.put r).records =
      t.records.takeWhile (·.id < r.id) ++ r :: t.records.dropWhile (·.id < r.id) := rfl
  rw [h]
  refine List.perm_middle.trans (List.Perm.cons r ?_)
  rw [List.takeWhile_append_dropWhile]

@[simp] theorem mem_put {s : Record} : s ∈ (t.put r).records ↔ s = r ∨ s ∈ t.records := by
  rw [(t.put_perm r).mem_iff, List.mem_cons]

@[simp] theorem put_schema : (t.put r).schema = t.schema := rfl
@[simp] theorem remove_schema (id : Int64) : (t.remove id).schema = t.schema := rfl
@[simp] theorem useId_schema (id : Int64) : (t.useId id).schema = t.schema := rfl
@[simp] theorem useId_records (id : Int64) : (t.useId id).records = t.records := rfl

@[simp] theorem mem_remove {s : Record} {id : Int64} :
    s ∈ (t.remove id).records ↔ s ∈ t.records ∧ s.id ≠ id := by
  simp [remove]

def without (t : TableState) (p : Pattern) : TableState :=
  { t with records := t.records.filter (!·.meets p) }

@[simp] theorem without_schema (p : Pattern) : (t.without p).schema = t.schema := rfl

@[simp] theorem mem_without {s : Record} {p : Pattern} :
    s ∈ (t.without p).records ↔ s ∈ t.records ∧ s.meets p = false := by
  simp [without]

theorem max_le_left (a b : Int64) : a ≤ max a b := by
  change a ≤ if a ≤ b then b else a
  split
  · assumption
  · exact Int64.le_refl a

theorem max_le_right (a b : Int64) : b ≤ max a b := by
  change b ≤ if a ≤ b then b else a
  split
  · exact Int64.le_refl b
  · exact (Int64.le_total a b).resolve_left ‹_›

theorem le_foldl_max (records : List Record) (n : Int64) :
    n ≤ records.foldl (fun n r => max n r.id) n ∧
      ∀ r ∈ records, r.id ≤ records.foldl (fun n r => max n r.id) n := by
  induction records generalizing n with
  | nil => simp
  | cons r records ih =>
    obtain ⟨hmax, hrest⟩ := ih (max n r.id)
    simp only [List.foldl_cons, List.mem_cons, forall_eq_or_imp]
    exact ⟨Int64.le_trans (max_le_left n r.id) hmax,
      Int64.le_trans (max_le_right n r.id) hmax, hrest⟩

theorem lt_succ {i : Int64} (h : i ≠ Int64.maxValue) : i < i + 1 := by
  have hne : i.toInt ≠ 9223372036854775807 := fun e => h (Int64.toInt_inj.1 (e.trans (by decide)))
  have hlt := Int64.toInt_lt i
  have hle := Int64.le_toInt i
  rw [Int64.lt_iff_toInt_lt, Int64.toInt_add, Int.bmod_eq_of_le] <;> simp <;> omega

theorem nextId?_fresh {id : Int64} (h : t.nextId? = some id) : ∀ s ∈ t.records, s.id ≠ id := by
  simp only [nextId?] at h
  split at h
  · cases h
  · rename_i hmax
    obtain rfl := Option.some.inj h
    intro s hs hid
    have hle := (le_foldl_max t.records t.lastId).2 s hs
    rw [hid] at hle
    exact Int64.lt_irrefl (Int64.lt_of_lt_of_le (lt_succ hmax) hle)

end TableState

namespace Lawful

variable {t : TableState}

theorem of_nil (h : t.records = []) : Lawful t :=
  ⟨by simp [h], by simp [h], by simp [h]⟩

theorem eq_of_id (h : Lawful t) {r s : Record} (hr : r ∈ t.records) (hs : s ∈ t.records)
    (hid : r.id = s.id) : r = s :=
  List.inj_on_of_nodup_map h.ids hr hs hid

theorem filter (h : Lawful t) (f : Record → Bool) :
    Lawful { t with records := t.records.filter f } where
  proper r hr := h.proper r (List.mem_filter.1 hr).1
  ids := h.ids.sublist (List.filter_sublist.map _)
  unique p hp r hr s hs :=
    h.unique p hp r (List.mem_filter.1 hr).1 s (List.mem_filter.1 hs).1

theorem useId (h : Lawful t) (id : Int64) : Lawful (t.useId id) :=
  ⟨h.proper, h.ids, h.unique⟩

theorem remove (h : Lawful t) (id : Int64) : Lawful (t.remove id) :=
  h.filter _

theorem without (h : Lawful t) (p : Pattern) : Lawful (t.without p) :=
  h.filter _

theorem put (h : Lawful t) {r : Record} (hr : Proper t.schema r)
    (hid : ∀ s ∈ t.records, s.id ≠ r.id)
    (hkey : ∀ p : Pattern, p.map (·.1) ∈ TableState.keys t.schema → r.meets p →
      ∀ s ∈ t.records, ¬ s.meets p) : Lawful (t.put r) where
  proper s hs := by
    rcases TableState.mem_put.1 hs with rfl | hs
    · exact hr
    · exact h.proper s hs
  ids := by
    have hperm := (t.put_perm r).map (·.id)
    rw [hperm.nodup_iff, List.map_cons, List.nodup_cons]
    refine ⟨fun hmem => ?_, h.ids⟩
    obtain ⟨s, hs, heq⟩ := List.mem_map.1 hmem
    exact hid s hs heq
  unique p hp a ha b hb hma hmb := by
    rcases TableState.mem_put.1 ha with har | ha <;> rcases TableState.mem_put.1 hb with hbr | hb
    · exact har.trans hbr.symm
    · exact absurd hmb (hkey p hp (har ▸ hma) b hb)
    · exact absurd hma (hkey p hp (hbr ▸ hmb) a ha)
    · exact h.unique p hp a ha b hb hma hmb

theorem filter_meets (h : Lawful t) {p : Pattern} (hp : p.map (·.1) ∈ TableState.keys t.schema)
    {r : Record} (hr : r ∈ t.records) (hm : r.meets p) : t.records.filter (·.meets p) = [r] := by
  have hmem : ∀ s, s ∈ t.records.filter (·.meets p) ↔ s = r := by
    intro s
    rw [List.mem_filter]
    constructor
    · exact fun ⟨hs, hsm⟩ => h.unique p hp s hs r hr hsm hm
    · rintro rfl
      exact ⟨hr, hm⟩
  have hnodup : (t.records.filter (·.meets p)).Nodup := (List.Nodup.of_map _ h.ids).filter _
  generalize t.records.filter (·.meets p) = found at hmem hnodup
  match found with
  | [] => simpa using hmem r
  | [s] => rw [(hmem s).1 (by simp)]
  | s :: s' :: _ =>
    have hs := (hmem s).1 (by simp)
    have hs' := (hmem s').1 (by simp)
    simp [hs, hs'] at hnodup

end Lawful

namespace TableState

variable {t : TableState} {r : Record}

theorem checkValues_ok (hr : Proper t.schema r) : t.checkValues r = .ok () := by
  have hmissing : t.schema.columns.find? (TableState.isMissing r) = none :=
    List.find?_eq_none.2 fun c hc => Bool.not_eq_true _ ▸ (hr.values c hc).present
  have hforbidden : t.schema.columns.find? (TableState.isForbidden r) = none :=
    List.find?_eq_none.2 fun c hc => Bool.not_eq_true _ ▸ (hr.values c hc).allowed
  simp [TableState.checkValues, hmissing, hforbidden]

def keyOf (key : List String) (s : Record) : Pattern :=
  key.map fun c => (c, s.get c)

theorem sameKey_eq_meets (key : List String) (r s : Record) :
    sameKey key r s = r.meets (keyOf key s) := by
  simp [sameKey, Record.meets, keyOf, List.all_map, Function.comp_def]

theorem meets_keyOf {key : List String} {r s : Record} (h : sameKey key r s) :
    s.meets (keyOf key s) := by
  simp only [sameKey, List.all_eq_true] at h
  simp only [Record.meets, keyOf, List.all_map, List.all_eq_true, Function.comp_apply]
  exact fun c hc => Value.equals_self (h c hc)

theorem checkKeys_ok {others : List Record} (hid : ∀ s ∈ others, s.id ≠ r.id)
    (hkey : ∀ p : Pattern, p.map (·.1) ∈ keys t.schema → r.meets p →
      ∀ s ∈ others, ¬ s.meets p) : t.checkKeys others r = .ok () := by
  have hany : ¬ others.any (·.id = r.id) := by simpa using hid
  have hnone : ((keys t.schema).find? fun key => others.any (sameKey key r)) = none := by
    refine List.find?_eq_none.2 fun key hk hsame => ?_
    obtain ⟨s, hs, h⟩ := List.any_eq_true.1 hsame
    refine hkey (keyOf key s) ?_ (by rwa [← sameKey_eq_meets]) s hs (meets_keyOf h)
    simpa [keyOf, Function.comp_def] using hk
  simp [checkKeys, hany, hnone]

end TableState

end Store

end Agora
