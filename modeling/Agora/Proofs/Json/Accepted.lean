import Agora.Proofs.Json.Grammar

namespace Agora.Json

def Accepts (st : State) (ts : List Token) (v : Json) : Prop :=
  (ts.foldlM State.step st).bind State.result? = some v

def Token.IsPlain (t : Token) : Prop :=
  ∀ v, t = .atom v → tokensOf v = [t] ∧ v.ordered = v

section Plain

theorem Numeral.plain_of_value? {x : Numeral} {v : Json} (h : x.value? = some v) :
    tokensOf v = [.atom v] ∧ v.ordered = v := by
  have hreal (r : Option Binary64) (h : r.map Json.real = some v) :
      tokensOf v = [.atom v] ∧ v.ordered = v := by
    obtain ⟨y, -, rfl⟩ := Option.map_eq_some_iff.1 h
    exact ⟨rfl, rfl⟩
  simp only [Numeral.value?] at h
  repeat' split at h
  all_goals first
    | exact hreal _ h
    | cases h; exact ⟨rfl, rfl⟩

theorem Spells.isPlain {t : Token} {l : List Char} (h : Spells t l) : t.IsPlain := by
  rintro v rfl
  cases h with
  | mark h => cases h
  | number _ hv => exact Numeral.plain_of_value? hv
  | _ => exact ⟨rfl, rfl⟩

theorem Spelled.isPlain {ts : List Token} {s : List Char} (h : Spelled ts s) :
    ∀ t ∈ ts, t.IsPlain := by
  induction h with
  | nil => nofun
  | space _ _ ih => exact ih
  | cons ht _ ih => exact List.forall_mem_cons.2 ⟨ht.isPlain, ih⟩

end Plain

section Machine

variable {st : State} {t : Token} {ts : List Token} {v : Json}

theorem accepts_cons : Accepts st (t :: ts) v ↔ ∃ st', st.step t = some st' ∧ Accepts st' ts v := by
  rw [Accepts, List.foldlM_cons]
  cases h : st.step t <;> simp [Accepts]

/-- Where a value is expected, the tokens of a value come first, and the reader goes on with that
value put in its place. -/
def ReadsValues (n : Nat) : Prop :=
  ∀ ts : List Token, ts.length ≤ n → (∀ t ∈ ts, t.IsPlain) → ∀ stack v,
    Accepts ⟨stack, .value⟩ ts v →
      ∃ w us st, ts = tokensOf w ++ us ∧ State.finish stack w.ordered = some st ∧ Accepts st us v

theorem items_of_accepts {n : Nat} (hvalues : ReadsValues n) {done : List Json}
    {stack : List Frame} (hlen : ts.length ≤ n) (hplain : ∀ t ∈ ts, t.IsPlain)
    (h : Accepts ⟨.arr done :: stack, .commaOrClose⟩ ts v) :
    ∃ items us st, ts = itemTokens items ++ us ∧
      State.finish stack (.arr (done.reverse ++ orderedItems items)) = some st ∧
      Accepts st us v := by
  -- each item and the comma before it are taken off before the next one
  induction hk : ts.length using Nat.strongRecOn generalizing ts done with
  | ind k ih =>
    cases ts with
    | nil => cases h
    | cons t ts =>
      obtain ⟨st, hstep, hrest⟩ := accepts_cons.1 h
      cases t with
      | closeArr =>
        refine ⟨[], ts, st, rfl, ?_, hrest⟩
        rw [orderedItems, List.append_nil]
        exact hstep
      | comma =>
        cases hstep
        obtain ⟨w, us, st, rfl, hfinish, hus⟩ := hvalues ts (Nat.le_of_succ_le hlen)
          (fun t ht => hplain t (List.mem_cons_of_mem _ ht)) _ _ hrest
        cases hfinish
        obtain ⟨items, vs, st, rfl, hitems, hvs⟩ := ih _
          (by simp only [← hk, List.length_cons, List.length_append]; omega)
          (by simp only [List.length_cons, List.length_append] at hlen; omega)
          (fun t ht => hplain t (by simp [ht])) hus rfl
        refine ⟨w :: items, vs, st, by simp [itemTokens], ?_, hvs⟩
        simpa [orderedItems] using hitems
      | _ => cases hstep

theorem field_of_accepts {n : Nat} (hvalues : ReadsValues n) {done : Fields}
    {stack : List Frame} (hlen : ts.length ≤ n) (hplain : ∀ t ∈ ts, t.IsPlain)
    (h : Accepts ⟨.obj done :: stack, .name⟩ ts v) :
    ∃ name w us, ts = .str name :: .colon :: tokensOf w ++ us ∧
      Accepts ⟨.obj ((name, w.ordered) :: done) :: stack, .commaOrClose⟩ us v := by
  cases ts with
  | nil => cases h
  | cons t ts =>
    obtain ⟨st, hstep, hrest⟩ := accepts_cons.1 h
    cases t with
    | str name =>
      cases hstep
      cases ts with
      | nil => cases hrest
      | cons t ts =>
        obtain ⟨st, hstep, hrest⟩ := accepts_cons.1 hrest
        cases t with
        | colon =>
          cases hstep
          obtain ⟨w, us, st, rfl, hfinish, hus⟩ := hvalues ts
            (by simp only [List.length_cons] at hlen; omega)
            (fun t ht => hplain t (by simp [ht])) _ _ hrest
          cases hfinish
          exact ⟨name, w, us, rfl, hus⟩
        | _ => cases hstep
    | _ => cases hstep

theorem fields_of_accepts {n : Nat} (hvalues : ReadsValues n) {done : Fields}
    {stack : List Frame} (hlen : ts.length ≤ n) (hplain : ∀ t ∈ ts, t.IsPlain)
    (h : Accepts ⟨.obj done :: stack, .commaOrClose⟩ ts v) :
    ∃ fields us st, ts = fieldTokens fields ++ us ∧
      State.finish stack (.obj (Fields.ofList (done.reverse ++ orderedFields fields))) = some st ∧
      Accepts st us v := by
  -- each field and the comma before it are taken off before the next one
  induction hk : ts.length using Nat.strongRecOn generalizing ts done with
  | ind k ih =>
    cases ts with
    | nil => cases h
    | cons t ts =>
      obtain ⟨st, hstep, hrest⟩ := accepts_cons.1 h
      cases t with
      | closeObj =>
        refine ⟨[], ts, st, rfl, ?_, hrest⟩
        rw [orderedFields, List.append_nil]
        exact hstep
      | comma =>
        cases hstep
        obtain ⟨name, w, us, rfl, hus⟩ := field_of_accepts hvalues (Nat.le_of_succ_le hlen)
          (fun t ht => hplain t (List.mem_cons_of_mem _ ht)) hrest
        obtain ⟨fields, vs, st, rfl, hfields, hvs⟩ := ih _
          (by simp only [← hk, List.length_cons, List.length_append]; omega)
          (by simp only [List.length_cons, List.length_append] at hlen; omega)
          (fun t ht => hplain t (by simp [ht])) hus rfl
        refine ⟨(name, w) :: fields, vs, st, by simp [fieldTokens], ?_, hvs⟩
        simpa [orderedFields] using hfields
      | _ => cases hstep

theorem accepts_first {stack : List Frame} (hclose : t ≠ .closeArr)
    (h : Accepts ⟨stack, .valueOrClose⟩ (t :: ts) v) : Accepts ⟨stack, .value⟩ (t :: ts) v := by
  rw [accepts_cons] at h ⊢
  cases t with
  | closeArr => exact absurd rfl hclose
  | _ => exact h

theorem accepts_firstName {stack : List Frame} (hclose : t ≠ .closeObj)
    (h : Accepts ⟨stack, .nameOrClose⟩ (t :: ts) v) : Accepts ⟨stack, .name⟩ (t :: ts) v := by
  rw [accepts_cons] at h ⊢
  cases t with
  | closeObj => exact absurd rfl hclose
  | _ => exact h

theorem push_eq_some {stack : List Frame} {frame : Frame} {expect : Expect}
    (h : State.push stack frame expect = some st) : st = ⟨frame :: stack, expect⟩ := by
  rw [State.push, Option.ite_none_right_eq_some] at h
  exact (Option.some.inj h.2).symm

theorem array_of_accepts {n : Nat} (hvalues : ReadsValues n) {stack : List Frame}
    (hlen : ts.length ≤ n) (hplain : ∀ t ∈ ts, t.IsPlain)
    (h : Accepts ⟨.arr [] :: stack, .valueOrClose⟩ ts v) :
    ∃ items us st, .openArr :: ts = tokensOf (.arr items) ++ us ∧
      State.finish stack (Json.arr items).ordered = some st ∧ Accepts st us v := by
  cases ts with
  | nil => cases h
  | cons t ts =>
    by_cases hclose : t = .closeArr
    · subst hclose
      obtain ⟨st, hstep, hrest⟩ := accepts_cons.1 h
      exact ⟨[], ts, st, rfl, hstep, hrest⟩
    · obtain ⟨w, us, st, hts, hfinish, hus⟩ := hvalues _ hlen hplain _ _ (accepts_first hclose h)
      cases hfinish
      rw [hts] at hlen hplain
      obtain ⟨items, vs, st, rfl, hitems, hvs⟩ := items_of_accepts hvalues
        (by rw [List.length_append] at hlen; omega)
        (fun t ht => hplain t (List.mem_append_right _ ht)) hus
      refine ⟨w :: items, vs, st, by simp [hts, tokensOf], ?_, hvs⟩
      simpa [ordered, orderedItems] using hitems

theorem object_of_accepts {n : Nat} (hvalues : ReadsValues n) {stack : List Frame}
    (hlen : ts.length ≤ n) (hplain : ∀ t ∈ ts, t.IsPlain)
    (h : Accepts ⟨.obj [] :: stack, .nameOrClose⟩ ts v) :
    ∃ fields us st, .openObj :: ts = tokensOf (.obj fields) ++ us ∧
      State.finish stack (Json.obj fields).ordered = some st ∧ Accepts st us v := by
  cases ts with
  | nil => cases h
  | cons t ts =>
    by_cases hclose : t = .closeObj
    · subst hclose
      obtain ⟨st, hstep, hrest⟩ := accepts_cons.1 h
      exact ⟨[], ts, st, rfl, hstep, hrest⟩
    · obtain ⟨name, w, us, hts, hus⟩ := field_of_accepts hvalues hlen hplain
        (accepts_firstName hclose h)
      rw [hts] at hlen hplain
      obtain ⟨fields, vs, st, rfl, hfields, hvs⟩ := fields_of_accepts hvalues
        (by rw [List.length_append] at hlen; omega)
        (fun t ht => hplain t (List.mem_append_right _ ht)) hus
      refine ⟨(name, w) :: fields, vs, st, by simp [hts, tokensOf], ?_, hvs⟩
      simpa [ordered, orderedFields] using hfields

theorem readsValues (n : Nat) : ReadsValues n := by
  induction n with
  | zero =>
    intro ts hlen _ stack v h
    obtain rfl := List.eq_nil_of_length_eq_zero (Nat.le_zero.1 hlen)
    cases h
  | succ n ih =>
    intro ts hlen hplain stack v h
    cases ts with
    | nil => cases h
    | cons t ts =>
      have hshort : ts.length ≤ n := Nat.le_of_succ_le_succ hlen
      obtain ⟨hhead, htail⟩ := List.forall_mem_cons.1 hplain
      obtain ⟨st, hstep, hrest⟩ := accepts_cons.1 h
      cases t with
      | openArr =>
        obtain rfl := push_eq_some hstep
        obtain ⟨items, hitems⟩ := array_of_accepts ih hshort htail hrest
        exact ⟨.arr items, hitems⟩
      | openObj =>
        obtain rfl := push_eq_some hstep
        obtain ⟨fields, hfields⟩ := object_of_accepts ih hshort htail hrest
        exact ⟨.obj fields, hfields⟩
      | str s => exact ⟨.str s, ts, st, rfl, hstep, hrest⟩
      | atom w =>
        obtain ⟨htokens, hordered⟩ := hhead w rfl
        refine ⟨w, ts, st, by rw [htokens]; rfl, ?_, hrest⟩
        rw [hordered]
        exact hstep
      | _ => cases hstep

end Machine

theorem isTextOf_of_parse? {s : String} {v : Json} (h : parse? s = some v) :
    ∃ w, IsTextOf w s.toList ∧ v = w.ordered := by
  obtain ⟨ts, hts, haccepts⟩ := Option.bind_eq_some_iff.1 h
  have hspelled := spelled_of_tokens? hts
  obtain ⟨w, us, st, rfl, hfinish, hus⟩ :=
    readsValues ts.length ts (Nat.le_refl _) hspelled.isPlain [] v haccepts
  cases hfinish
  cases us with
  | nil =>
    rw [List.append_nil] at hspelled
    exact ⟨w, hspelled, (Option.some.inj hus).symm⟩
  | cons t us =>
    obtain ⟨st, hstep, -⟩ := accepts_cons.1 hus
    cases hstep

end Agora.Json
