import Agora.Reply.Statement

namespace Agora.Reply

def fence : List Char :=
  [backtick, backtick, backtick]

theorem backticks?_isSome_iff (s : List Char) : (backticks? s).isSome ↔ fence <+: s := by
  match s with
  | [] | [_] | [_, _] => simp [backticks?, fence, List.cons_prefix_cons]
  | a :: b :: c :: s =>
    simp only [backticks?, fence, List.cons_prefix_cons]
    split <;> rename_i h
    · obtain ⟨rfl, rfl, rfl⟩ := h
      simp
    · simp only [Option.isSome_none, Bool.false_eq_true, List.nil_prefix, and_true, false_iff]
      rintro ⟨rfl, rfl, rfl⟩
      exact h ⟨rfl, rfl, rfl⟩

theorem hasFence_iff (s : List Char) : hasFence s ↔ fence <:+: s := by
  induction s with
  | nil => simp [hasFence, fence]
  | cons c s ih =>
    rw [hasFence, Bool.or_eq_true, backticks?_isSome_iff, ih, List.infix_cons_iff]

theorem hasFence_of_isInfix {s t : List Char} (h : s <:+: t) (ht : hasFence t = false) :
    hasFence s = false := by
  rw [← Bool.not_eq_true, hasFence_iff] at ht ⊢
  exact fun hs => ht (hs.trans h)

theorem hasFence_stripFences (s : List Char) : hasFence (stripFences s) = false := by
  fun_induction stripFences s with
  | case1 s h _ ih => exact ih
  | case2 s h => simpa using h

theorem trimStart_suffix (s : List Char) : Text.trimStart s <:+ s :=
  List.dropWhile_suffix _

theorem trimEnd_isPrefix (s : List Char) : Text.trimEnd s <+: s := by
  have h := List.dropWhile_suffix Text.isBlank (l := s.reverse)
  simpa [Text.trimEnd] using List.reverse_prefix.2 h

theorem trim_isInfix (s : List Char) : Text.trim s <:+: s :=
  (trimEnd_isPrefix _).isInfix.trans (trimStart_suffix s).isInfix

theorem fromKeywordLine?_suffix {b : Bool} {s t : List Char} (h : fromKeywordLine? b s = some t) :
    t <:+ s := by
  induction s generalizing b with
  | nil => simp [fromKeywordLine?] at h
  | cons c s ih =>
    rw [fromKeywordLine?] at h
    split at h
    · obtain rfl := Option.some.inj h
      exact List.suffix_rfl
    · exact (ih h).trans (List.suffix_cons c s)

theorem clean_isInfix (raw : List Char) : clean raw <:+: stripFences (Text.trim raw) := by
  simp only [clean]
  split
  · rename_i s hs
    exact (trim_isInfix s).trans ((fromKeywordLine?_suffix hs).isInfix.trans (trim_isInfix _))
  · exact trim_isInfix _

theorem hasFence_clean (raw : List Char) : hasFence (clean raw) = false :=
  hasFence_of_isInfix (clean_isInfix raw) (hasFence_stripFences _)

end Agora.Reply
