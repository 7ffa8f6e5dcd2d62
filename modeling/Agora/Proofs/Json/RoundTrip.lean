import Agora.Json.Reader
import Agora.Proofs.Json.Token

namespace Agora.Json

/-- Values that are written exactly, nested at most so deep. -/
inductive Nested : Nat → Json → Prop where
  | null {n : Nat} : Nested n .null
  | bool {n : Nat} (b : Bool) : Nested n (.bool b)
  | int {n : Nat} {i : Int} (h : FitsWord i) : Nested n (.int i)
  | str {n : Nat} (s : String) : Nested n (.str s)
  | arr {n : Nat} {items : List Json} (h : ∀ v ∈ items, Nested n v) : Nested (n + 1) (.arr items)
  | obj {n : Nat} {fields : Fields} (h : ∀ f ∈ fields, Nested n f.2) :
      Nested (n + 1) (.obj fields)

mutual

def ordered : Json → Json
  | .null => .null
  | .bool b => .bool b
  | .int i => .int i
  | .real x => .real x
  | .str s => .str s
  | .arr items => .arr (orderedItems items)
  | .obj fields => .obj (Fields.ofList (orderedFields fields))

def orderedItems : List Json → List Json
  | [] => []
  | v :: items => ordered v :: orderedItems items

def orderedFields : Fields → Fields
  | [] => []
  | (name, v) :: fields => (name, ordered v) :: orderedFields fields

end

mutual

def tokensOf : Json → List Token
  | .null => [.atom .null]
  | .bool b => [.atom (.bool b)]
  | .int i => [.atom (.int i)]
  | .real x => [.atom (.real x)]
  | .str s => [.str s]
  | .arr [] => [.openArr, .closeArr]
  | .arr (v :: items) => .openArr :: tokensOf v ++ itemTokens items
  | .obj [] => [.openObj, .closeObj]
  | .obj ((name, v) :: fields) =>
      .openObj :: .str name :: .colon :: tokensOf v ++ fieldTokens fields

def itemTokens : List Json → List Token
  | [] => [.closeArr]
  | v :: items => .comma :: tokensOf v ++ itemTokens items

def fieldTokens : Fields → List Token
  | [] => [.closeObj]
  | (name, v) :: fields => .comma :: .str name :: .colon :: tokensOf v ++ fieldTokens fields

end

def Token.mark? : Token → Option Char
  | openArr => some '['
  | closeArr => some ']'
  | openObj => some '\x7b'
  | closeObj => some '\x7d'
  | comma => some ','
  | colon => some ':'
  | str _ | atom _ => none

section Tokens

abbrev ReadsAs (text : List Char) (ts : List Token) (rest : List Char) : Prop :=
  tokens? (text ++ rest) = (tokens? rest).map (ts ++ ·)

theorem ReadsAs.append {a b rest : List Char} {ts us : List Token}
    (ha : ReadsAs a ts (b ++ rest)) (hb : ReadsAs b us rest) :
    ReadsAs (a ++ b) (ts ++ us) rest := by
  rw [ReadsAs, List.append_assoc, ha, hb, Option.map_map]
  simp [Function.comp_def]

theorem readsAs_mark {t : Token} {c : Char} (h : t.mark? = some c) (rest : List Char) :
    ReadsAs [c] [t] rest := by
  cases t <;> cases h <;> exact tokens?_cons (by decide) (by simp [next?])

theorem readsAs_word {v : Json} (c : Char) (word : List Char) (hrender : v.render = c :: word)
    (hc : isSpace c = false) (h : ∀ s, next? c s = word? word v s) (rest : List Char) :
    ReadsAs v.render [.atom v] rest := by
  rw [hrender]
  refine tokens?_cons hc ?_
  show next? c (word ++ rest) = _
  rw [h, word?, if_pos (by simp), List.drop_left]

theorem endsNumber_mark {t : Token} {c : Char} (h : t.mark? = some c) (s : List Char) :
    EndsNumber (c :: s) := by
  intro d hd
  obtain rfl : c = d := Option.some.inj hd
  cases t <;> cases h <;> decide

theorem endsNumber_renderItems (items : List Json) (rest : List Char) :
    EndsNumber (renderItems items ++ rest) := by
  cases items with
  | nil => exact endsNumber_mark (t := .closeArr) rfl _
  | cons v items => exact endsNumber_mark (t := .comma) rfl _

theorem endsNumber_renderFields (fields : Fields) (rest : List Char) :
    EndsNumber (renderFields fields ++ rest) := by
  cases fields with
  | nil => exact endsNumber_mark (t := .closeObj) rfl _
  | cons f fields => exact endsNumber_mark (t := .comma) rfl _

abbrev ReadsInside (v : Json) : Prop :=
  ∀ rest, EndsNumber rest → ReadsAs v.render (tokensOf v) rest

theorem readsAs_items {items : List Json} (h : ∀ v ∈ items, ReadsInside v) (rest : List Char) :
    ReadsAs (renderItems items) (itemTokens items) rest := by
  induction items with
  | nil => exact readsAs_mark (t := .closeArr) rfl rest
  | cons v items ih =>
    have hv := h v List.mem_cons_self _ (endsNumber_renderItems items rest)
    have hitems := ih fun w hw => h w (List.mem_cons_of_mem v hw)
    exact ((readsAs_mark (t := .comma) rfl _).append hv).append hitems

theorem readsAs_field {t : Token} {c : Char} (hc : t.mark? = some c) (name : String) {v : Json}
    (hv : ReadsInside v) {fields : Fields} {rest : List Char}
    (hfields : ReadsAs (renderFields fields) (fieldTokens fields) rest) :
    ReadsAs (c :: renderString name ++ ':' :: v.render ++ renderFields fields)
      (t :: .str name :: .colon :: tokensOf v ++ fieldTokens fields) rest := by
  have hname : ReadsAs (renderString name) [.str name]
      ([':'] ++ v.render ++ (renderFields fields ++ rest)) :=
    tokens?_renderString name _
  have hvalue : ReadsAs ([':'] ++ v.render) ([.colon] ++ tokensOf v)
      (renderFields fields ++ rest) :=
    (readsAs_mark rfl _).append (hv _ (endsNumber_renderFields fields rest))
  exact (((readsAs_mark hc _).append hname).append hvalue).append hfields

theorem readsAs_fields {fields : Fields} (h : ∀ f ∈ fields, ReadsInside f.2) (rest : List Char) :
    ReadsAs (renderFields fields) (fieldTokens fields) rest := by
  induction fields with
  | nil => exact readsAs_mark (t := .closeObj) rfl rest
  | cons f fields ih =>
    have hfields := ih fun g hg => h g (List.mem_cons_of_mem f hg)
    exact readsAs_field (t := .comma) rfl f.1 (h f List.mem_cons_self) hfields

theorem readsInside {n : Nat} {v : Json} (hv : Nested n v) : ReadsInside v := by
  induction hv with
  | null =>
    exact fun rest _ =>
      readsAs_word 'n' ['u', 'l', 'l'] rfl (by decide) (fun s => by simp [next?]) rest
  | bool b =>
    intro rest _
    cases b with
    | false =>
      exact readsAs_word 'f' ['a', 'l', 's', 'e'] rfl (by decide) (fun s => by simp [next?]) rest
    | true =>
      exact readsAs_word 't' ['r', 'u', 'e'] rfl (by decide) (fun s => by simp [next?]) rest
  | int h => exact fun rest hrest => tokens?_ofInt h hrest
  | str s => exact fun rest _ => tokens?_renderString s rest
  | @arr n items h ih =>
    intro rest _
    cases items with
    | nil =>
      exact (readsAs_mark (t := .openArr) rfl _).append (readsAs_mark (t := .closeArr) rfl rest)
    | cons v items =>
      have hv := ih v List.mem_cons_self _ (endsNumber_renderItems items rest)
      have hitems := readsAs_items (fun w hw => ih w (List.mem_cons_of_mem v hw)) rest
      exact ((readsAs_mark (t := .openArr) rfl _).append hv).append hitems
  | @obj n fields h ih =>
    intro rest _
    cases fields with
    | nil =>
      exact (readsAs_mark (t := .openObj) rfl _).append (readsAs_mark (t := .closeObj) rfl rest)
    | cons f fields =>
      have hfields := readsAs_fields (fun g hg => ih g (List.mem_cons_of_mem f hg)) rest
      exact readsAs_field (t := .openObj) rfl f.1 (ih f List.mem_cons_self) hfields

theorem tokens?_render {n : Nat} {v : Json} (hv : Nested n v) :
    tokens? v.render = some (tokensOf v) := by
  have hread := readsInside hv [] (by simp [EndsNumber])
  rwa [ReadsAs, List.append_nil, tokens?, Option.map_some, List.append_nil] at hread

end Tokens

section Reading

abbrev ComesTo (ts : List Token) (v : Json) (stack : List Frame) : Prop :=
  ts.foldlM State.step ⟨stack, .value⟩ = State.finish stack v

theorem foldlM_itemTokens {items : List Json} {stack : List Frame}
    (h : ∀ v ∈ items, ∀ done, ComesTo (tokensOf v) v.ordered (.arr done :: stack))
    (done : List Json) :
    (itemTokens items).foldlM State.step ⟨.arr done :: stack, .commaOrClose⟩ =
      State.finish stack (.arr (done.reverse ++ orderedItems items)) := by
  induction items generalizing done with
  | nil =>
    rw [itemTokens, orderedItems, List.append_nil]
    simp [State.step, State.closeArr]
  | cons v items ih =>
    have hv := h v List.mem_cons_self done
    have hitems := ih (fun w hw => h w (List.mem_cons_of_mem v hw)) (v.ordered :: done)
    rw [itemTokens, orderedItems]
    show (tokensOf v ++ itemTokens items).foldlM State.step ⟨.arr done :: stack, .value⟩ = _
    rw [List.foldlM_append, hv]
    simpa [State.finish] using hitems

theorem foldlM_fieldTokens {fields : Fields} {stack : List Frame}
    (h : ∀ f ∈ fields, ∀ done, ComesTo (tokensOf f.2) f.2.ordered (.field done f.1 :: stack))
    (done : Fields) :
    (fieldTokens fields).foldlM State.step ⟨.obj done :: stack, .commaOrClose⟩ =
      State.finish stack (.obj (Fields.ofList (done.reverse ++ orderedFields fields))) := by
  induction fields generalizing done with
  | nil =>
    rw [fieldTokens, orderedFields, List.append_nil]
    simp [State.step, State.closeObj]
  | cons f fields ih =>
    obtain ⟨name, v⟩ := f
    have hv := h (name, v) List.mem_cons_self done
    have hfields := ih (fun g hg => h g (List.mem_cons_of_mem _ hg)) ((name, v.ordered) :: done)
    rw [fieldTokens, orderedFields]
    show (tokensOf v ++ fieldTokens fields).foldlM State.step
      ⟨.field done name :: stack, .value⟩ = _
    rw [List.foldlM_append, hv]
    simpa [State.finish] using hfields

theorem foldlM_first (v : Json) (stack : List Frame) :
    (tokensOf v).foldlM State.step ⟨stack, .valueOrClose⟩ =
      (tokensOf v).foldlM State.step ⟨stack, .value⟩ := by
  obtain ⟨t, ts, hts, ht⟩ : ∃ t ts, tokensOf v = t :: ts ∧ t ≠ .closeArr := by
    cases v with
    | arr items => cases items <;> exact ⟨_, _, rfl, by simp⟩
    | obj fields => cases fields <;> exact ⟨_, _, rfl, by simp⟩
    | _ => exact ⟨_, _, rfl, by simp⟩
  rw [hts, List.foldlM_cons, List.foldlM_cons]
  cases t <;> first | rfl | exact absurd rfl ht

theorem comesTo_ordered {n : Nat} {v : Json} (hv : Nested n v) {stack : List Frame}
    (hdepth : stack.length + n ≤ deepest) : ComesTo (tokensOf v) v.ordered stack := by
  -- each level puts one frame on the stack, so the depth that is left and the stack keep their sum
  induction hv generalizing stack with
  | null | bool _ | int _ | str _ => simp [ComesTo, tokensOf, ordered, State.step, State.start]
  | @arr n items h ih =>
    have hpush : State.push stack (.arr []) .valueOrClose =
        some ⟨.arr [] :: stack, .valueOrClose⟩ := if_pos (by omega)
    have hitem (v : Json) (hv : v ∈ items) (done : List Json) :
        ComesTo (tokensOf v) v.ordered (.arr done :: stack) :=
      ih v hv (by rw [List.length_cons]; omega)
    cases items with
    | nil =>
      rw [ComesTo, tokensOf, ordered, orderedItems, List.foldlM_cons]
      simp [State.step, State.start, hpush, State.closeArr]
    | cons v items =>
      have hitems := foldlM_itemTokens (fun w hw => hitem w (List.mem_cons_of_mem v hw))
        [v.ordered]
      rw [ComesTo, tokensOf, ordered, orderedItems]
      show (State.push stack (.arr []) .valueOrClose >>= _) = _
      rw [hpush]
      show (tokensOf v ++ itemTokens items).foldlM State.step ⟨.arr [] :: stack, .valueOrClose⟩ = _
      rw [List.foldlM_append, foldlM_first, hitem v List.mem_cons_self []]
      simpa [State.finish] using hitems
  | @obj n fields h ih =>
    have hpush : State.push stack (.obj []) .nameOrClose =
        some ⟨.obj [] :: stack, .nameOrClose⟩ := if_pos (by omega)
    have hfield (f : String × Json) (hf : f ∈ fields) (done : Fields) :
        ComesTo (tokensOf f.2) f.2.ordered (.field done f.1 :: stack) :=
      ih f hf (by rw [List.length_cons]; omega)
    cases fields with
    | nil =>
      rw [ComesTo, tokensOf, ordered, orderedFields, List.foldlM_cons]
      simp [State.step, State.start, hpush, State.closeObj]
    | cons f fields =>
      obtain ⟨name, v⟩ := f
      have hfields := foldlM_fieldTokens (fun g hg => hfield g (List.mem_cons_of_mem _ hg))
        [(name, v.ordered)]
      rw [ComesTo, tokensOf, ordered, orderedFields]
      show (State.push stack (.obj []) .nameOrClose >>= _) = _
      rw [hpush]
      show (tokensOf v ++ fieldTokens fields).foldlM State.step
        ⟨.field [] name :: stack, .value⟩ = _
      rw [List.foldlM_append, hfield (name, v) List.mem_cons_self []]
      simpa [State.finish] using hfields

end Reading

theorem parse?_compress {v : Json} (hv : Nested deepest v) :
    parse? v.compress = some v.ordered := by
  have hread : ComesTo (tokensOf v) v.ordered [] := comesTo_ordered hv (by simp)
  rw [ComesTo] at hread
  rw [parse?, compress, String.toList_ofList, read?, tokens?_render hv, Option.bind_some, hread]
  rfl

end Agora.Json
