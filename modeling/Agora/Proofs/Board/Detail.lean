import Agora.Board
import Agora.Proofs.Json.Accepted
import Agora.Proofs.Json.Order

namespace Agora.Board

section Column

def decodeColumn (name : String) (v : Json) : Json :=
  if jsonColumns.contains name then decodeJson v else v

theorem names_decodeJsonColumns (row : Row) :
    (decodeJsonColumns row).map (·.1) = row.map (·.1) := by
  rw [decodeJsonColumns, List.map_map]
  rfl

theorem get?_decodeJsonColumns (row : Row) (name : String) :
    (decodeJsonColumns row).get? name = (row.get? name).map (decodeColumn name) := by
  induction row with
  | nil => rfl
  | cons f row ih =>
    obtain ⟨first, v⟩ := f
    have hcons : decodeJsonColumns ((first, v) :: row) =
        (first, decodeColumn first v) :: decodeJsonColumns row := rfl
    rw [hcons, Json.Fields.get?_cons, Json.Fields.get?_cons, ih]
    split
    · rename_i h
      rw [h]
      rfl
    · rfl

theorem decodeColumn_of_not_mem {name : String} (h : name ∉ jsonColumns) (v : Json) :
    decodeColumn name v = v :=
  if_neg (by simpa using h)

theorem decodeJson_cases (v : Json) :
    decodeJson v = v ∨ ∃ text w, v = .str text ∧ Json.IsTextOf w text.toList ∧
      Json.parse? text = some (decodeJson v) := by
  cases v with
  | str text =>
    cases h : Json.parse? text with
    | none => exact .inl (by rw [decodeJson, h]; rfl)
    | some u =>
      obtain ⟨w, hw, -⟩ := Json.isTextOf_of_parse? h
      exact .inr ⟨text, w, rfl, hw, by rw [decodeJson, h]; rfl⟩
  | _ => exact .inl rfl

theorem decodeColumn_of_no_text {v : Json} (h : ∀ text, v = .str text →
    (∀ w, ¬Json.IsTextOf w text.toList) ∨ Json.parse? text = none) (name : String) :
    decodeColumn name v = v := by
  rw [decodeColumn]
  split
  · rcases decodeJson_cases v with hsame | ⟨text, w, hv, hw, hread⟩
    · exact hsame
    · rcases h text hv with hnone | hnone
      · exact absurd hw (hnone w)
      · rw [hread] at hnone
        cases hnone
  · rfl

theorem decodeColumn_compress {name : String} (hname : name ∈ jsonColumns) {v : Json}
    (hv : v.Nested Json.deepest) : decodeColumn name (.str v.compress) = v.ordered := by
  rw [decodeColumn, if_pos (by simpa using hname), decodeJson, Json.parse?_compress hv]
  rfl

end Column

/-- Every row keeps its columns, and each column its value, unless it is one of those that hold JSON
texts and holds one; then it holds the value of that text, whatever the other columns hold. -/
theorem detail_decodes_columns (row : Row) :
    (decodeJsonColumns row).map (·.1) = row.map (·.1) ∧
    (∀ name, name ∉ jsonColumns → (decodeJsonColumns row).get? name = row.get? name) ∧
    (∀ name, (∀ text, row.get? name = some (.str text) →
        (∀ w, ¬Json.IsTextOf w text.toList) ∨ Json.parse? text = none) →
      (decodeJsonColumns row).get? name = row.get? name) ∧
    (∀ name v, name ∈ jsonColumns → v.Nested 99 → v.DistinctNames →
      row.get? name = some (.str v.compress) →
      ∃ w, (decodeJsonColumns row).get? name = some w ∧ w.SameValue v ∧ w.InOrder ∧
        (v.InOrder → w = v)) ∧
    (∀ (other : Row) name, other.get? name = row.get? name →
      (decodeJsonColumns other).get? name = (decodeJsonColumns row).get? name) := by
  refine ⟨names_decodeJsonColumns row, fun name hname => ?_, fun name hname => ?_,
    fun name v hname hv hnames hget => ?_, fun other name hget => ?_⟩
  · rw [get?_decodeJsonColumns]
    cases row.get? name with
    | none => rfl
    | some v => rw [Option.map_some, decodeColumn_of_not_mem hname]
  · rw [get?_decodeJsonColumns]
    cases hget : row.get? name with
    | none => rfl
    | some v =>
      rw [Option.map_some, decodeColumn_of_no_text]
      rintro text rfl
      exact hname text hget
  · have hdeep : v.Nested Json.deepest := hv.mono (by decide)
    refine ⟨v.ordered, ?_, Json.sameValue_ordered hv hnames, hv.inOrder_ordered,
      Json.ordered_of_inOrder hv⟩
    rw [get?_decodeJsonColumns, hget, Option.map_some, decodeColumn_compress hname hdeep]
  · rw [get?_decodeJsonColumns, get?_decodeJsonColumns, hget]

def storedComments : Json :=
  .arr [.obj [("author", .str "a\x22b\\"), ("id", .int 7)]]

def storedDetail : Row :=
  [("comments", .str storedComments.compress), ("reactions", .str "[1"), ("title", .str "[1]")]

theorem detail_decodes_columns_stored :
    storedComments.Nested 99 ∧ storedComments.DistinctNames ∧ storedComments.InOrder ∧
    (decodeJsonColumns storedDetail).get? "comments" = some storedComments ∧
    Json.parse? "[1" = none ∧
    (decodeJsonColumns storedDetail).get? "reactions" = some (.str "[1") ∧
    "title" ∉ jsonColumns ∧
    (decodeJsonColumns storedDetail).get? "title" = some (.str "[1]") ∧
    (decodeJsonColumns [("comments", .null), ("reactions", .str "[1")]).get? "reactions" =
      (decodeJsonColumns storedDetail).get? "reactions" := by
  have hnested : storedComments.Nested 99 := by
    refine .arr fun v hv => ?_
    obtain rfl := List.mem_singleton.1 hv
    refine .obj fun f hf => ?_
    obtain rfl | rfl : f = ("author", _) ∨ f = ("id", _) := by simpa using hf
    · exact .str _
    · exact .int ⟨by decide, by decide⟩
  have hall {P : Json.Fields → Prop}
      (h : P [("author", .str "a\x22b\\"), ("id", .int 7)]) : Json.AllObjects P storedComments := by
    refine .arr fun v hv => ?_
    obtain rfl := List.mem_singleton.1 hv
    refine .obj h fun f hf => ?_
    obtain rfl | rfl : f = ("author", _) ∨ f = ("id", _) := by simpa using hf
    · exact .str _
    · exact .int _
  have hnames : storedComments.DistinctNames := hall (by simp [Json.Fields.DistinctNames])
  have hsorted : "author" < "id" := by decide +kernel
  have horder : storedComments.InOrder := hall (List.pairwise_pair.2 hsorted)
  have hbroken : Json.parse? "[1" = none := by decide +kernel
  obtain ⟨-, hother, hkept, hdecoded, halone⟩ := detail_decodes_columns storedDetail
  obtain ⟨w, hw, -, -, hsame⟩ :=
    hdecoded "comments" storedComments (by decide) hnested hnames rfl
  refine ⟨hnested, hnames, horder, hsame horder ▸ hw, hbroken, ?_, by decide,
    hother "title" (by decide), halone _ "reactions" rfl⟩
  refine hkept "reactions" fun text htext => .inr ?_
  obtain rfl : "[1" = text := by simpa [storedDetail, Json.Fields.get?] using htext
  exact hbroken

end Agora.Board
