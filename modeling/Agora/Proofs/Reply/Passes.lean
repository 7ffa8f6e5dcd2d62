import Agora.Proofs.Reply.Marker
import Mathlib.Logic.Function.Iterate
/-!
Each pass takes three backticks at least, so there are no more passes than a third of the backticks.
-/
namespace Agora.Reply

def isMarkerChar (c : Char) : Bool :=
  c = backtick || isTagChar c || c = '\r' || c = '\n'

section Pass

theorem backticks?_eq_some {s r : List Char} (h : backticks? s = some r) : s = fence ++ r := by
  unfold backticks? at h
  split at h
  · split at h
    · rename_i hticks
      obtain ⟨rfl, rfl, rfl⟩ := hticks
      cases h
      rfl
    · cases h
  · cases h

theorem isMarkerChar_tag {c : Char} (h : isTagChar c) : isMarkerChar c := by
  simp [isMarkerChar, h]

theorem isMarkerChar_lineBreak (s : List Char) : ∀ c ∈ (lineBreak s).1, isMarkerChar c := by
  intro c hc
  fun_cases lineBreak s with
  | case1 s =>
    obtain rfl : c = '\n' := by simpa [lineBreak] using hc
    rfl
  | case2 s =>
    obtain rfl | rfl : c = '\r' ∨ c = '\n' := by simpa [lineBreak] using hc
    · rfl
    · rfl
  | case3 s hlf hcrlf =>
    rw [lineBreak.eq_3 _ hlf hcrlf] at hc
    cases hc

theorem afterBackticks_split (s : List Char) :
    ∃ glued kept rest, s = glued ++ rest ∧ (∀ c ∈ glued, isMarkerChar c) ∧
      afterBackticks s = (kept, rest) ∧ (kept = glued ∨ kept = []) := by
  refine ⟨s.takeWhile isTagChar ++ (lineBreak (s.dropWhile isTagChar)).1, _,
    (lineBreak (s.dropWhile isTagChar)).2, ?_, ?_, rfl, ?_⟩
  · rw [List.append_assoc, lineBreak_append, List.takeWhile_append_dropWhile]
  · intro c hc
    rcases List.mem_append.1 hc with htag | hbreak
    · exact isMarkerChar_tag (List.mem_takeWhile_imp htag)
    · exact isMarkerChar_lineBreak _ c hbreak
  · by_cases hkeyword : (keywordOf? (s.takeWhile isTagChar)).isSome
    · exact .inl (if_pos hkeyword)
    · exact .inr (if_neg hkeyword)

theorem afterBackticks_sublist (s : List Char) :
    ((afterBackticks s).1 ++ (afterBackticks s).2).Sublist s := by
  obtain ⟨glued, kept, rest, rfl, -, hafter, hkept⟩ := afterBackticks_split s
  rw [hafter]
  rcases hkept with rfl | rfl
  · exact List.Sublist.refl _
  · exact List.sublist_append_right glued rest

theorem filter_afterBackticks (s : List Char) :
    ((afterBackticks s).1 ++ (afterBackticks s).2).filter (!isMarkerChar ·) =
      s.filter (!isMarkerChar ·) := by
  obtain ⟨glued, kept, rest, rfl, hglued, hafter, hkept⟩ := afterBackticks_split s
  rw [hafter]
  rcases hkept with rfl | rfl
  · rfl
  · have hnone : glued.filter (!isMarkerChar ·) = [] := by
      rw [List.filter_eq_nil_iff]
      intro c hc
      simp [hglued c hc]
    rw [List.filter_append, List.filter_append, hnone, List.filter_nil]

theorem removeFences_sublist (s : List Char) : (removeFences s).Sublist s := by
  fun_induction removeFences s with
  | case1 => exact List.Sublist.refl []
  | case2 c s _ ih => exact ih.cons_cons c
  | case3 c s r hr _ _ ih =>
    rw [backticks?_eq_some hr]
    calc (afterBackticks r).1 ++ removeFences (afterBackticks r).2
      _ |>.Sublist ((afterBackticks r).1 ++ (afterBackticks r).2) := ih.append_left _
      _ |>.Sublist r := afterBackticks_sublist r
      _ |>.Sublist (fence ++ r) := List.sublist_append_right fence r

theorem filter_removeFences (s : List Char) :
    (removeFences s).filter (!isMarkerChar ·) = s.filter (!isMarkerChar ·) := by
  fun_induction removeFences s with
  | case1 => rfl
  | case2 c s _ ih => rw [List.filter_cons, List.filter_cons, ih]
  | case3 c s r hr _ _ ih =>
    have hfence : fence.filter (!isMarkerChar ·) = [] := rfl
    rw [List.filter_append, ih, ← List.filter_append, filter_afterBackticks,
      backticks?_eq_some hr, List.filter_append, hfence, List.nil_append]

theorem count_removeFences {s : List Char} (h : hasFence s) :
    (removeFences s).count backtick + 3 ≤ s.count backtick := by
  fun_induction removeFences s with
  | case1 => cases h
  | case2 c s hnone ih =>
    have hrest : hasFence s := by simpa [hasFence, hnone] using h
    have := ih hrest
    simp only [List.count_cons]
    omega
  | case3 c s r hr _ _ ih =>
    have hrest := ((removeFences_sublist (afterBackticks r).2).append_left
      (afterBackticks r).1).count_le backtick
    have hmarker := (afterBackticks_sublist r).count_le backtick
    have hfence : fence.count backtick = 3 := rfl
    simp only [backticks?_eq_some hr, List.count_append, hfence] at hrest hmarker ⊢
    omega

end Pass

section Run

theorem stripFences_sublist (s : List Char) : (stripFences s).Sublist s := by
  fun_induction stripFences s with
  | case1 s _ _ ih => exact ih.trans (removeFences_sublist s)
  | case2 s => exact List.Sublist.refl s

theorem filter_stripFences (s : List Char) :
    (stripFences s).filter (!isMarkerChar ·) = s.filter (!isMarkerChar ·) := by
  fun_induction stripFences s with
  | case1 s _ _ ih => rw [ih, filter_removeFences]
  | case2 s => rfl

theorem stripFences_eq_iterate (s : List Char) :
    ∃ n, stripFences s = removeFences^[n] s ∧ 3 * n ≤ s.count backtick ∧
      ∀ k < n, fence <:+: removeFences^[k] s := by
  fun_induction stripFences s with
  | case1 s h _ ih =>
    obtain ⟨n, hresult, hcount, hfound⟩ := ih
    refine ⟨n + 1, hresult, ?_, fun k hk => ?_⟩
    · have := count_removeFences h
      omega
    · cases k with
      | zero => exact (hasFence_iff s).1 h
      | succ k => exact hfound k (by omega)
  | case2 s _ => exact ⟨0, rfl, Nat.zero_le _, fun k hk => absurd hk (Nat.not_lt_zero k)⟩

theorem not_fence_infix_stripFences (s : List Char) : ¬ fence <:+: stripFences s := by
  rw [← hasFence_iff, hasFence_stripFences]
  exact Bool.false_ne_true

end Run

/-- The passes come to an end, at a text without markers that lacks nothing but what markers are
made of. -/
theorem stripFences_takes_only_markers (s : List Char) :
    (∃ n, stripFences s = removeFences^[n] s ∧ 3 * n ≤ s.count backtick ∧
      ∀ k < n, fence <:+: removeFences^[k] s) ∧
    ¬ fence <:+: stripFences s ∧
    (stripFences s).Sublist s ∧
    (stripFences s = s ↔ ¬ fence <:+: s) ∧
    (stripFences s).filter (!isMarkerChar ·) = s.filter (!isMarkerChar ·) := by
  refine ⟨stripFences_eq_iterate s, not_fence_infix_stripFences s, stripFences_sublist s, ?_,
    filter_stripFences s⟩
  constructor
  · intro h
    exact h ▸ not_fence_infix_stripFences s
  · exact stripFences_eq_self

end Agora.Reply
