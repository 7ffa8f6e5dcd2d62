import Mathlib.Data.List.TakeWhile
import Agora.Proofs.Reply.Fence

namespace Agora.Reply

def HasStatementLine (s : List Char) : Prop :=
  ∃ line ∈ s.splitOn '\n', (leadingKeyword? line).isSome

theorem splitOn_cons (a c : Char) (s : List Char) : (c :: s).splitOn a =
    if c = a then [] :: s.splitOn a else (s.splitOn a).modifyHead (c :: ·) := by
  simp [List.splitOn, List.splitOnP_cons_eq_if_modifyHead]

theorem splitOn_eq_firstLine_cons (s : List Char) :
    ∃ ls, s.splitOn '\n' = firstLine s :: ls := by
  induction s with
  | nil => exact ⟨[], rfl⟩
  | cons c s ih =>
    obtain ⟨ls, hls⟩ := ih
    rw [splitOn_cons, hls]
    by_cases hc : c = '\n'
    · exact ⟨firstLine s :: ls, by simp [hc, firstLine]⟩
    · exact ⟨ls, by simp [hc, firstLine]⟩

theorem leadingKeyword?_nil : leadingKeyword? [] = none := by
  decide

theorem fromKeywordLine?_isSome_iff (b : Bool) (s : List Char) :
    (fromKeywordLine? b s).isSome ↔
      ∃ line ∈ if b then s.splitOn '\n' else (s.splitOn '\n').tail,
        (leadingKeyword? line).isSome := by
  induction s generalizing b with
  | nil => cases b <;> simp [fromKeywordLine?, List.splitOn, leadingKeyword?_nil]
  | cons c s ih =>
    have hfirst : fromKeywordLine? b (c :: s) =
        if b && startsWithStatement (c :: s) then some (c :: s)
        else fromKeywordLine? (c = '\n') s := rfl
    obtain ⟨ls, hls⟩ := splitOn_eq_firstLine_cons s
    obtain ⟨ms, hms⟩ := splitOn_eq_firstLine_cons (c :: s)
    have hrest : (c :: s).splitOn '\n' = firstLine (c :: s) ::
        if c = '\n' then s.splitOn '\n' else (s.splitOn '\n').tail := by
      rw [hms]
      rw [splitOn_cons, hls] at hms
      split at hms <;> simp_all
    rw [hfirst, hrest]
    cases b with
    | false => simpa using ih (c = '\n')
    | true =>
      by_cases hs : startsWithStatement (c :: s)
      · simp [hs, show (leadingKeyword? (firstLine (c :: s))).isSome from hs]
      · simp only [Bool.true_and, hs, Bool.false_eq_true, if_false, if_true, List.mem_cons,
          exists_eq_or_imp]
        rw [ih, or_iff_right (show ¬ (leadingKeyword? (firstLine (c :: s))).isSome from hs)]
        simp

theorem fromKeywordLine?_starts {b : Bool} {s t : List Char} (h : fromKeywordLine? b s = some t) :
    startsWithStatement t := by
  induction s generalizing b with
  | nil => simp [fromKeywordLine?] at h
  | cons c s ih =>
    rw [fromKeywordLine?] at h
    split at h
    · rename_i hs
      obtain rfl := Option.some.inj h
      exact (Bool.and_eq_true_iff.1 hs).2
    · exact ih h

theorem fromKeywordLine?_self {s : List Char} (h : startsWithStatement s) :
    fromKeywordLine? true s = some s := by
  cases s with
  | nil => exact absurd h (by decide)
  | cons c s => simp [fromKeywordLine?, h]

section Blanks

theorem not_isLetter_of_isBlank {c : Char} (h : Text.isBlank c) : Ascii.isLetter c = false := by
  simp only [Text.isBlank, Text.inRanges, Text.blankRanges, List.any_cons, List.any_nil,
    Bool.or_false, Bool.or_eq_true, Bool.and_eq_true, decide_eq_true_eq] at h
  simp only [Ascii.isLetter, Ascii.isUpper, Ascii.isLower, Bool.or_eq_false_iff,
    Bool.and_eq_false_iff, decide_eq_false_iff_not, Char.le_def, UInt32.le_iff_toNat_le]
  have : c.toNat = c.val.toNat := rfl
  have : 'A'.val.toNat = 65 := rfl
  have : 'Z'.val.toNat = 90 := rfl
  have : 'a'.val.toNat = 97 := rfl
  have : 'z'.val.toNat = 122 := rfl
  omega

theorem letters_append_blanks (s : List Char) {t : List Char} (ht : Text.allBlank t) :
    (firstLine (s ++ t)).takeWhile Ascii.isLetter = (firstLine s).takeWhile Ascii.isLetter := by
  induction s with
  | nil =>
    cases t with
    | nil => rfl
    | cons c t =>
      have hc := not_isLetter_of_isBlank (List.all_eq_true.1 ht c (by simp))
      by_cases hn : c = '\n' <;> simp [firstLine, hn, hc]
  | cons c s ih =>
    by_cases hn : c = '\n'
    · simp [firstLine, hn]
    · by_cases hc : Ascii.isLetter c <;> simp_all [firstLine]

theorem leadingKeyword?_cons_blank {c : Char} (hc : Text.isBlank c) (s : List Char) :
    leadingKeyword? (c :: s) = leadingKeyword? s := by
  simp [leadingKeyword?, Text.trimStart, hc]

theorem startsWithStatement_append_blanks (s : List Char) {t : List Char}
    (ht : Text.allBlank t) : startsWithStatement (s ++ t) = startsWithStatement s := by
  unfold startsWithStatement
  congr 1
  induction s with
  | nil =>
    have hblank : ∀ c ∈ firstLine t, Text.isBlank c := fun c hc =>
      List.all_eq_true.1 ht c ((List.takeWhile_prefix _).subset hc)
    rw [List.nil_append, leadingKeyword?, Text.trimStart, List.dropWhile_eq_nil_iff.2 hblank]
    rfl
  | cons c s ih =>
    by_cases hn : c = '\n'
    · simp [firstLine, hn]
    · have hfirst (r : List Char) : firstLine (c :: r) = c :: firstLine r := by
        simp [firstLine, hn]
      rw [List.cons_append, hfirst, hfirst]
      by_cases hc : Text.isBlank c
      · rw [leadingKeyword?_cons_blank hc, leadingKeyword?_cons_blank hc, ih]
      · have hword := letters_append_blanks s ht
        by_cases hl : Ascii.isLetter c <;> simp [leadingKeyword?, Text.trimStart, hc, hl, hword]

theorem fromKeywordLine?_blanks (b : Bool) {t : List Char} (ht : Text.allBlank t) :
    fromKeywordLine? b t = none := by
  induction t generalizing b with
  | nil => rfl
  | cons c t ih =>
    have hstart := startsWithStatement_append_blanks [] ht
    rw [List.nil_append] at hstart
    have hnil : startsWithStatement [] = false := by decide
    rw [fromKeywordLine?, hstart, hnil, Bool.and_false, if_neg Bool.false_ne_true]
    exact ih _ (by simpa [Text.allBlank] using (Bool.and_eq_true_iff.1 ht).2)

theorem fromKeywordLine?_append_blanks (b : Bool) (s : List Char) {t : List Char}
    (ht : Text.allBlank t) :
    (fromKeywordLine? b (s ++ t)).isSome = (fromKeywordLine? b s).isSome := by
  induction s generalizing b with
  | nil => simp [fromKeywordLine?_blanks b ht, fromKeywordLine?]
  | cons c s ih =>
    have hstart := startsWithStatement_append_blanks (c :: s) ht
    rw [List.cons_append] at hstart ⊢
    rw [fromKeywordLine?, fromKeywordLine?, hstart]
    split
    · rfl
    · exact ih _

theorem fromKeywordLine?_cons_blank {c : Char} (hc : Text.isBlank c) (s : List Char) :
    (fromKeywordLine? true (c :: s)).isSome = (fromKeywordLine? true s).isSome := by
  rw [fromKeywordLine?]
  by_cases hn : c = '\n'
  · have : startsWithStatement ('\n' :: s) = false := by
      simp [startsWithStatement, firstLine, leadingKeyword?_nil]
    simp [hn, this]
  · have hstart : startsWithStatement (c :: s) = startsWithStatement s := by
      simp [startsWithStatement, firstLine, hn, leadingKeyword?_cons_blank hc]
    cases s with
    | nil =>
      have : startsWithStatement [c] = false := hstart.trans (by decide)
      simp [this, fromKeywordLine?]
    | cons d s =>
      rw [hstart]
      by_cases hs : startsWithStatement (d :: s) <;> simp [hs, hn, fromKeywordLine?]

theorem hasStatementLine_iff (s : List Char) :
    HasStatementLine s ↔ (fromKeywordLine? true s).isSome := by
  rw [fromKeywordLine?_isSome_iff]
  rfl

theorem trimEnd_append_blanks (s : List Char) :
    ∃ t, Text.allBlank t ∧ s = Text.trimEnd s ++ t := by
  refine ⟨(s.reverse.takeWhile Text.isBlank).reverse, ?_, ?_⟩
  · exact List.all_eq_true.2 fun c hc => List.mem_takeWhile_imp (List.mem_reverse.1 hc)
  · rw [Text.trimEnd, ← List.reverse_append, List.takeWhile_append_dropWhile, List.reverse_reverse]

theorem hasStatementLine_trimEnd (s : List Char) :
    HasStatementLine (Text.trimEnd s) ↔ HasStatementLine s := by
  obtain ⟨t, ht, hs⟩ := trimEnd_append_blanks s
  rw [hasStatementLine_iff, hasStatementLine_iff, ← fromKeywordLine?_append_blanks true _ ht, ← hs]

theorem hasStatementLine_trimStart (s : List Char) :
    HasStatementLine (Text.trimStart s) ↔ HasStatementLine s := by
  induction s with
  | nil => rfl
  | cons c s ih =>
    by_cases hc : Text.isBlank c
    · rw [hasStatementLine_iff (c :: s), fromKeywordLine?_cons_blank hc, ← hasStatementLine_iff,
        ← ih]
      simp [Text.trimStart, hc]
    · simp [Text.trimStart, hc]

theorem hasStatementLine_trim (s : List Char) :
    HasStatementLine (Text.trim s) ↔ HasStatementLine s :=
  (hasStatementLine_trimEnd _).trans (hasStatementLine_trimStart s)

theorem startsWithStatement_trimEnd (s : List Char) :
    startsWithStatement (Text.trimEnd s) = startsWithStatement s := by
  obtain ⟨t, ht, hs⟩ := trimEnd_append_blanks s
  rw [← startsWithStatement_append_blanks _ ht, ← hs]

theorem startsWithStatement_trimStart {s : List Char} (h : startsWithStatement s) :
    startsWithStatement (Text.trimStart s) := by
  induction s with
  | nil => exact h
  | cons c s ih =>
    by_cases hc : Text.isBlank c
    · have hn : c ≠ '\n' := by
        rintro rfl
        simp [startsWithStatement, firstLine, leadingKeyword?_nil] at h
      have hs : startsWithStatement s := by
        simpa [startsWithStatement, firstLine, hn, leadingKeyword?_cons_blank hc] using h
      simpa [Text.trimStart, hc] using ih hs
    · simpa [Text.trimStart, hc] using h

end Blanks

theorem hasStatementLine_of_starts {s : List Char} (h : startsWithStatement s) :
    HasStatementLine s := by
  obtain ⟨ls, hls⟩ := splitOn_eq_firstLine_cons s
  exact ⟨firstLine s, by simp [hls], h⟩

theorem startsWithStatement_clean_iff (raw : List Char) :
    startsWithStatement (clean raw) ↔ HasStatementLine (stripFences (Text.trim raw)) := by
  rw [← hasStatementLine_trim]
  simp only [clean]
  split
  · rename_i s hs
    have hstart := startsWithStatement_trimStart (fromKeywordLine?_starts hs)
    refine iff_of_true ?_ ((hasStatementLine_iff _).2 (by simp [hs]))
    rw [Text.trim, startsWithStatement_trimEnd]
    exact hstart
  · rename_i hs
    have hnone : ¬ HasStatementLine (Text.trim (stripFences (Text.trim raw))) := by
      simp [hasStatementLine_iff, hs]
    exact iff_of_false (fun h => hnone (hasStatementLine_of_starts h)) hnone

end Agora.Reply
