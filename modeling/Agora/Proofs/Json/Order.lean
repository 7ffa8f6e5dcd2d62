import Agora.Proofs.Json.RoundTrip
import Mathlib.Data.String.Basic

namespace Agora.Json

namespace Fields

def Sorted (fields : Fields) : Prop :=
  fields.Pairwise fun f g => f.1 < g.1

def DistinctNames (fields : Fields) : Prop :=
  (fields.map (·.1)).Nodup

theorem get?_cons (name other : String) (v : Json) (fields : Fields) :
    get? ((other, v) :: fields) name = if other = name then some v else get? fields name := by
  by_cases h : other = name <;> simp [get?, h]

theorem get?_insert (name other : String) (v : Json) (fields : Fields) :
    (insert name v fields).get? other = if name = other then some v else fields.get? other := by
  induction fields with
  | nil => rw [insert, get?_cons]
  | cons f fields ih =>
    obtain ⟨first, w⟩ := f
    rw [insert]
    split
    · rename_i h
      subst h
      simp only [get?_cons]
      split <;> rfl
    · rename_i hne
      split
      · rw [get?_cons]
      · rw [get?_cons, ih, get?_cons]
        split
        · rename_i h
          rw [if_neg (h ▸ hne)]
        · rfl

theorem mem_insert {name : String} {v : Json} {fields : Fields} {f : String × Json}
    (h : f ∈ insert name v fields) : f = (name, v) ∨ f ∈ fields := by
  induction fields with
  | nil => exact .inl (List.mem_singleton.1 h)
  | cons g fields ih =>
    obtain ⟨first, w⟩ := g
    rw [insert] at h
    split at h
    · exact (List.mem_cons.1 h).imp id (List.mem_cons_of_mem _)
    · split at h
      · exact List.mem_cons.1 h
      · rcases List.mem_cons.1 h with rfl | h
        · exact .inr List.mem_cons_self
        · exact (ih h).imp id (List.mem_cons_of_mem _)

theorem sorted_insert {fields : Fields} (h : Sorted fields) (name : String) (v : Json) :
    Sorted (insert name v fields) := by
  induction fields with
  | nil => exact List.pairwise_singleton _ _
  | cons g fields ih =>
    obtain ⟨first, w⟩ := g
    obtain ⟨hfirst, htail⟩ := List.pairwise_cons.1 h
    rw [insert]
    split
    · rename_i heq
      subst heq
      exact List.pairwise_cons.2 ⟨hfirst, htail⟩
    · rename_i hne
      split
      · rename_i hlt
        refine List.pairwise_cons.2 ⟨fun f hf => ?_, h⟩
        rcases List.mem_cons.1 hf with rfl | hf
        · exact hlt
        · exact hlt.trans (hfirst f hf)
      · rename_i hge
        refine List.pairwise_cons.2 ⟨fun f hf => ?_, ih htail⟩
        rcases mem_insert hf with rfl | hf
        · exact lt_of_le_of_ne (not_lt.1 hge) (Ne.symm hne)
        · exact hfirst f hf

theorem insert_last {name : String} {v : Json} {fields : Fields}
    (h : ∀ f ∈ fields, f.1 < name) : insert name v fields = fields ++ [(name, v)] := by
  induction fields with
  | nil => rfl
  | cons f fields ih =>
    obtain ⟨first, w⟩ := f
    have hlt : first < name := h (first, w) List.mem_cons_self
    rw [insert, if_neg hlt.ne', if_neg hlt.asymm, ih fun f hf => h f (List.mem_cons_of_mem _ hf)]
    rfl

section OfList

abbrev insertAll (acc fields : Fields) : Fields :=
  fields.foldl (fun acc f => insert f.1 f.2 acc) acc

theorem get?_insertAll {fields : Fields} (h : DistinctNames fields) (acc : Fields)
    (name : String) : (insertAll acc fields).get? name = (fields.get? name).or (acc.get? name) := by
  induction fields generalizing acc with
  | nil => rfl
  | cons f fields ih =>
    obtain ⟨first, v⟩ := f
    obtain ⟨hfirst, htail⟩ := List.nodup_cons.1 h
    rw [get?_cons]
    refine (ih htail _).trans ?_
    rw [get?_insert]
    by_cases hname : first = name
    · have hnone : get? fields name = none := by
        rw [get?, Option.map_eq_none_iff, List.find?_eq_none]
        rintro f hf heq
        exact hfirst (List.mem_map.2 ⟨f, hf, by rw [hname]; exact of_decide_eq_true heq⟩)
      simp [hname, hnone]
    · simp [hname]

theorem get?_ofList {fields : Fields} (h : DistinctNames fields) (name : String) :
    (ofList fields).get? name = fields.get? name := by
  refine (get?_insertAll h [] name).trans ?_
  exact Option.or_none

theorem sorted_insertAll {acc : Fields} (h : Sorted acc) (fields : Fields) :
    Sorted (insertAll acc fields) := by
  induction fields generalizing acc with
  | nil => exact h
  | cons f fields ih => exact ih (sorted_insert h f.1 f.2)

theorem sorted_ofList (fields : Fields) : Sorted (ofList fields) :=
  sorted_insertAll .nil fields

theorem mem_insertAll {acc fields : Fields} {f : String × Json} (h : f ∈ insertAll acc fields) :
    f ∈ acc ∨ f ∈ fields := by
  induction fields generalizing acc with
  | nil => exact .inl h
  | cons g fields ih =>
    rcases ih h with h | h
    · rcases mem_insert h with rfl | h
      · exact .inr List.mem_cons_self
      · exact .inl h
    · exact .inr (List.mem_cons_of_mem g h)

theorem mem_ofList {fields : Fields} {f : String × Json} (h : f ∈ ofList fields) : f ∈ fields :=
  (mem_insertAll h).resolve_left List.not_mem_nil

theorem insertAll_of_sorted {acc fields : Fields} (h : Sorted (acc ++ fields)) :
    insertAll acc fields = acc ++ fields := by
  induction fields generalizing acc with
  | nil => exact (List.append_nil acc).symm
  | cons f fields ih =>
    have hlast : insert f.1 f.2 acc = acc ++ [f] :=
      insert_last fun g hg => (List.pairwise_append.1 h).2.2 g hg f List.mem_cons_self
    have hrest := ih (by rwa [List.append_assoc] : Sorted ((acc ++ [f]) ++ fields))
    rw [List.append_assoc] at hrest
    rw [← hlast] at hrest
    exact hrest

theorem ofList_of_sorted {fields : Fields} (h : Sorted fields) : ofList fields = fields :=
  @insertAll_of_sorted [] fields h

end OfList

end Fields

inductive AllObjects (P : Fields → Prop) : Json → Prop
  | null : AllObjects P .null
  | bool (b : Bool) : AllObjects P (.bool b)
  | int (i : Int) : AllObjects P (.int i)
  | real (x : Binary64) : AllObjects P (.real x)
  | str (s : String) : AllObjects P (.str s)
  | arr {items : List Json} : (∀ v ∈ items, AllObjects P v) → AllObjects P (.arr items)
  | obj {fields : Fields} : P fields → (∀ f ∈ fields, AllObjects P f.2) → AllObjects P (.obj fields)

abbrev DistinctNames : Json → Prop :=
  AllObjects Fields.DistinctNames

abbrev InOrder : Json → Prop :=
  AllObjects Fields.Sorted

/-- Values that differ in nothing but the order of fields. -/
inductive SameValue : Json → Json → Prop
  | refl (v : Json) : SameValue v v
  | arr {items others : List Json} : items.length = others.length →
      (∀ (i : Nat) (v w : Json), items[i]? = some v → others[i]? = some w → SameValue v w) →
      SameValue (.arr items) (.arr others)
  | obj {fields others : Fields} :
      (∀ name, (fields.get? name).isSome = (others.get? name).isSome) →
      (∀ name v w, fields.get? name = some v → others.get? name = some w → SameValue v w) →
      SameValue (.obj fields) (.obj others)

section Ordered

theorem orderedItems_eq (items : List Json) : orderedItems items = items.map ordered := by
  induction items with
  | nil => rfl
  | cons v items ih => rw [orderedItems, ih, List.map_cons]

theorem orderedFields_eq (fields : Fields) :
    orderedFields fields = fields.map fun f => (f.1, f.2.ordered) := by
  induction fields with
  | nil => rfl
  | cons f fields ih => rw [orderedFields, ih, List.map_cons]

theorem get?_orderedFields (fields : Fields) (name : String) :
    Fields.get? (orderedFields fields) name = (fields.get? name).map ordered := by
  induction fields with
  | nil => rfl
  | cons f fields ih =>
    rw [orderedFields, Fields.get?_cons, Fields.get?_cons, ih]
    split <;> rfl

theorem Fields.DistinctNames.ordered {fields : Fields} (h : fields.DistinctNames) :
    Fields.DistinctNames (orderedFields fields) := by
  rw [Fields.DistinctNames, orderedFields_eq, List.map_map]
  exact h

theorem Nested.mono {n m : Nat} {v : Json} (h : Nested n v) (hle : n ≤ m) : Nested m v := by
  induction h generalizing m with
  | null => exact .null
  | bool b => exact .bool b
  | int h => exact .int h
  | str s => exact .str s
  | arr _ ih =>
    obtain ⟨m, rfl⟩ := Nat.exists_eq_add_of_le' (Nat.le_of_add_left_le hle)
    exact .arr fun v hv => ih v hv (by omega)
  | obj _ ih =>
    obtain ⟨m, rfl⟩ := Nat.exists_eq_add_of_le' (Nat.le_of_add_left_le hle)
    exact .obj fun f hf => ih f hf (by omega)

variable {n : Nat} {v : Json}

theorem Nested.inOrder_ordered (h : Nested n v) : v.ordered.InOrder := by
  induction h with
  | null => exact .null
  | bool b => exact .bool b
  | int => exact .int _
  | str s => exact .str s
  | arr _ ih =>
    rw [Json.ordered, orderedItems_eq]
    refine .arr fun w hw => ?_
    obtain ⟨v, hv, rfl⟩ := List.mem_map.1 hw
    exact ih v hv
  | obj _ ih =>
    refine .obj (Fields.sorted_ofList _) fun f hf => ?_
    have hmem := Fields.mem_ofList hf
    rw [orderedFields_eq] at hmem
    obtain ⟨g, hg, rfl⟩ := List.mem_map.1 hmem
    exact ih g hg

theorem sameValue_ordered (h : Nested n v) (hnames : v.DistinctNames) : SameValue v.ordered v := by
  induction h with
  | null | bool | int | str => exact .refl _
  | arr _ ih =>
    cases hnames with
    | arr hitems =>
      rw [Json.ordered, orderedItems_eq]
      refine .arr (List.length_map _) fun i v w hv hw => ?_
      rw [List.getElem?_map, hw] at hv
      cases hv
      have hmem := List.mem_of_getElem? hw
      exact ih w hmem (hitems w hmem)
  | @obj n fields _ ih =>
    cases hnames with
    | obj hdistinct hfields =>
      have hget (name : String) : Fields.get? (Fields.ofList (orderedFields fields)) name =
          (fields.get? name).map Json.ordered := by
        rw [Fields.get?_ofList hdistinct.ordered, get?_orderedFields]
      refine .obj (fun name => ?_) fun name v w hv hw => ?_
      · rw [hget, Option.isSome_map]
      · rw [hget, hw] at hv
        cases hv
        obtain ⟨f, hf, rfl⟩ := Option.map_eq_some_iff.1 hw
        have hmem := List.mem_of_find?_eq_some hf
        exact ih f hmem (hfields f hmem)

theorem ordered_of_inOrder (h : Nested n v) (horder : v.InOrder) : v.ordered = v := by
  induction h with
  | null | bool | int | str => rfl
  | arr _ ih =>
    cases horder with
    | arr hitems =>
      rw [Json.ordered, orderedItems_eq, List.map_congr_left fun v hv => ih v hv (hitems v hv),
        List.map_id']
  | obj _ ih =>
    cases horder with
    | obj hsorted hfields =>
      rw [Json.ordered, orderedFields_eq,
        List.map_congr_left fun f hf => by rw [ih f hf (hfields f hf)], List.map_id',
        Fields.ofList_of_sorted hsorted]

end Ordered

end Agora.Json
