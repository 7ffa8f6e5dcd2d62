import Agora.Proofs.Reply.Statement

namespace Agora.Reply

structure IsClean (s : List Char) : Prop where
  blank_free_start : ∀ c ∈ s.head?, Text.isBlank c = false
  blank_free_end : ∀ c ∈ s.getLast?, Text.isBlank c = false
  fence_free : ¬ fence <:+: s
  keyword_first : startsWithStatement s ∨ ¬ HasStatementLine s

section Trim

theorem head?_trimStart (s : List Char) :
    ∀ c ∈ (Text.trimStart s).head?, Text.isBlank c = false := by
  intro c hc
  have h := List.head?_dropWhile_not Text.isBlank s
  rw [show (s.dropWhile Text.isBlank).head? = some c from hc] at h
  simpa using h

theorem getLast?_trimEnd (s : List Char) :
    ∀ c ∈ (Text.trimEnd s).getLast?, Text.isBlank c = false := by
  intro c hc
  rw [Text.trimEnd, List.getLast?_reverse] at hc
  exact head?_trimStart s.reverse c hc

theorem head?_trim (s : List Char) : ∀ c ∈ (Text.trim s).head?, Text.isBlank c = false := by
  intro c hc
  obtain ⟨t, ht⟩ := trimEnd_isPrefix (Text.trimStart s)
  refine head?_trimStart s c ?_
  rw [← ht, List.head?_append, show (Text.trimEnd (Text.trimStart s)).head? = some c from hc]
  rfl

theorem trim_eq_self {s : List Char} (hstart : ∀ c ∈ s.head?, Text.isBlank c = false)
    (hend : ∀ c ∈ s.getLast?, Text.isBlank c = false) : Text.trim s = s := by
  have hdrop {t : List Char} (h : ∀ c ∈ t.head?, Text.isBlank c = false) :
      t.dropWhile Text.isBlank = t := by
    cases t with
    | nil => rfl
    | cons c t => exact List.dropWhile_cons_of_neg (by simp [h c rfl])
  rw [Text.trim, Text.trimStart, hdrop hstart, Text.trimEnd, hdrop, List.reverse_reverse]
  rwa [List.head?_reverse]

end Trim

theorem stripFences_eq_self {s : List Char} (h : ¬ fence <:+: s) : stripFences s = s := by
  rw [stripFences, dif_neg fun hs => h ((hasFence_iff s).1 hs)]

theorem keyword_first_clean (raw : List Char) :
    startsWithStatement (clean raw) ∨ ¬ HasStatementLine (clean raw) := by
  rw [startsWithStatement_clean_iff, ← hasStatementLine_trim, or_iff_not_imp_left]
  intro hnone
  have hkept : clean raw = Text.trim (stripFences (Text.trim raw)) := by
    rw [hasStatementLine_iff, Bool.not_eq_true, Option.isSome_eq_false_iff,
      Option.isNone_iff_eq_none] at hnone
    simp only [clean, hnone]
  rwa [hkept]

theorem isClean_clean (raw : List Char) : IsClean (clean raw) where
  blank_free_start := by
    simp only [clean]
    split <;> exact head?_trim _
  blank_free_end := by
    simp only [clean]
    split <;> exact getLast?_trimEnd _
  fence_free h := by simpa [hasFence_clean] using (hasFence_iff _).2 h
  keyword_first := keyword_first_clean raw

theorem clean_eq_self {s : List Char} (h : IsClean s) : clean s = s := by
  have htrim := trim_eq_self h.blank_free_start h.blank_free_end
  have htext : Text.trim (stripFences (Text.trim s)) = s := by
    rw [htrim, stripFences_eq_self h.fence_free, htrim]
  simp only [clean, htext]
  rcases h.keyword_first with hstart | hnone
  · rw [fromKeywordLine?_self hstart]
    exact htrim
  · rw [hasStatementLine_iff, Bool.not_eq_true, Option.isSome_eq_false_iff,
      Option.isNone_iff_eq_none] at hnone
    rw [hnone]

/-- Cleaning gives the clean texts and leaves exactly those as they are; cleaning twice is cleaning
once, and no fence marker survives. -/
theorem clean_onto_fixpoints (s : List Char) :
    (clean s = s ↔ IsClean s) ∧ IsClean (clean s) ∧ clean (clean s) = clean s ∧
      ¬ fence <:+: clean s :=
  ⟨⟨fun h => h ▸ isClean_clean s, clean_eq_self⟩, isClean_clean s, clean_eq_self (isClean_clean s),
    (isClean_clean s).fence_free⟩

end Agora.Reply
