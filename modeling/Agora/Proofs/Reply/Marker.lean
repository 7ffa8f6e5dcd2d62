import Agora.Proofs.Reply.Image

namespace Agora.Reply

section Seams

theorem fence_prefix_of_append {s t : List Char} (hs : s ≠ []) (hend : s.getLast? ≠ some backtick)
    (h : fence <+: s ++ t) : fence <+: s := by
  match s with
  | [] => exact absurd rfl hs
  | [a] => simp_all [fence, List.cons_prefix_cons]
  | [a, b] =>
    obtain ⟨-, rfl, -⟩ : backtick = a ∧ backtick = b ∧ _ := by
      simpa [fence, List.cons_prefix_cons] using h
    exact absurd rfl hend
  | a :: b :: c :: s => simpa [fence, List.cons_prefix_cons] using h

theorem fence_infix_append {s t : List Char}
    (hseam : s.getLast? ≠ some backtick ∨ t.head? ≠ some backtick) :
    fence <:+: s ++ t ↔ fence <:+: s ∨ fence <:+: t := by
  rw [List.infix_append_iff]
  refine ⟨?_, fun h => h.elim .inl (.inr ∘ .inl)⟩
  rintro (h | h | ⟨u, v, huv, hu, hv⟩)
  · exact .inl h
  · exact .inr h
  · have hbackticks : ∀ c ∈ u ++ v, c = backtick := by
      rw [← huv]
      simp [fence]
    rcases List.eq_nil_or_concat u with rfl | ⟨u, c, rfl⟩
    · exact .inr (huv ▸ hv.isInfix)
    · cases v with
      | nil => exact .inl (by simpa [huv] using hu.isInfix)
      | cons d v =>
        obtain ⟨s, rfl⟩ := hu
        obtain ⟨t, rfl⟩ := hv
        rw [List.concat_eq_append] at hseam hbackticks
        simp_all

theorem removeFences_cons {c : Char} {s : List Char} (h : ¬ fence <+: c :: s) :
    removeFences (c :: s) = c :: removeFences s := by
  have hnone : backticks? (c :: s) = none := by
    simpa using mt (backticks?_isSome_iff _).1 h
  rw [removeFences]
  split <;> simp_all

theorem removeFences_fence (s : List Char) :
    removeFences (fence ++ s) = (afterBackticks s).1 ++ removeFences (afterBackticks s).2 := by
  rw [fence, List.cons_append, removeFences]
  split
  · rename_i h
    cases h
  · rename_i h
    cases h
    rfl

theorem removeFences_append {s t : List Char} (hs : ¬ fence <:+: s)
    (hend : s.getLast? ≠ some backtick) : removeFences (s ++ t) = s ++ removeFences t := by
  induction s with
  | nil => rfl
  | cons c s ih =>
    have hprefix : ¬ fence <+: c :: (s ++ t) := fun h =>
      hs (fence_prefix_of_append (List.cons_ne_nil c s) hend h).isInfix
    rw [List.cons_append, removeFences_cons hprefix, List.cons_append]
    congr 1
    refine ih (fun h => hs (h.trans (List.suffix_cons c s).isInfix)) fun h => hend ?_
    cases s with
    | nil => cases h
    | cons d s => rwa [List.getLast?_cons_cons]

theorem removeFences_eq_self {s : List Char} (h : ¬ fence <:+: s) : removeFences s = s := by
  induction s with
  | nil => rw [removeFences]
  | cons c s ih =>
    rw [removeFences_cons fun hprefix => h hprefix.isInfix,
      ih fun hs => h (hs.trans (List.suffix_cons c s).isInfix)]

theorem stripFences_of_fence {s : List Char} (h : fence <:+: s)
    (hrest : ¬ fence <:+: removeFences s) : stripFences s = removeFences s := by
  rw [stripFences, dif_pos ((hasFence_iff s).2 h), stripFences_eq_self hrest]

/-- Up to two backticks before a marker are not part of it and stay. -/
theorem removeFences_backticks {s : List Char} (hs : s ++ fence = fence ++ s)
    (hkept : afterBackticks s = ([], s)) (hfree : ¬ fence <:+: s) :
    removeFences (s ++ fence) = s := by
  rw [hs, removeFences_fence, hkept]
  exact removeFences_eq_self hfree

theorem removeFences_append_fence {s : List Char} (hs : ¬ fence <:+: s) :
    removeFences (s ++ fence) = s := by
  induction s with
  | nil => exact removeFences_backticks rfl rfl hs
  | cons c s ih =>
    by_cases h : fence <+: c :: (s ++ fence)
    · -- the marker found here begins in the text, which then has one or two backticks only
      match s with
      | [] =>
        obtain rfl : backtick = c := (List.cons_prefix_cons.1 h).1
        exact removeFences_backticks rfl (by decide) hs
      | [d] =>
        obtain ⟨rfl, rfl⟩ : backtick = c ∧ backtick = d := by
          simpa [fence, List.cons_prefix_cons] using h
        exact removeFences_backticks rfl (by decide) hs
      | d :: e :: s =>
        have hprefix : fence <+: c :: d :: e :: s := by
          simpa [fence, List.cons_prefix_cons] using h
        exact absurd hprefix.isInfix hs
    · rw [List.cons_append, removeFences_cons h,
        ih fun h => hs (h.trans (List.suffix_cons c s).isInfix)]

end Seams

section Enclosed

theorem lineBreak_append_fence (s : List Char) :
    lineBreak (s ++ fence) = ((lineBreak s).1, (lineBreak s).2 ++ fence) := by
  fun_cases lineBreak s with
  | case1 s => rfl
  | case2 s => rfl
  | case3 s hlf hcrlf =>
    refine lineBreak.eq_3 _ ?_ ?_
    · intro t ht
      rcases List.append_eq_cons_iff.1 ht with ⟨rfl, hf⟩ | ⟨u, rfl, -⟩
      · exact absurd hf (by simp [fence, backtick])
      · exact hlf u rfl
    · intro t ht
      rcases List.append_eq_cons_iff.1 ht with ⟨rfl, hf⟩ | ⟨u, rfl, hu⟩
      · exact absurd hf (by simp [fence, backtick])
      · rcases List.append_eq_cons_iff.1 hu.symm with ⟨rfl, hf⟩ | ⟨v, rfl, -⟩
        · exact absurd hf (by simp [fence, backtick])
        · exact hcrlf v rfl

theorem afterBackticks_append_fence (s : List Char) :
    afterBackticks (s ++ fence) = ((afterBackticks s).1, (afterBackticks s).2 ++ fence) := by
  have htake : (s ++ fence).takeWhile isTagChar = s.takeWhile isTagChar := by
    induction s with
    | nil => rfl
    | cons c s ih => by_cases hc : isTagChar c <;> simp [hc, ih]
  have hdrop : (s ++ fence).dropWhile isTagChar = s.dropWhile isTagChar ++ fence := by
    clear htake
    induction s with
    | nil => rfl
    | cons c s ih => by_cases hc : isTagChar c <;> simp [hc, ih]
  simp only [afterBackticks, htake, hdrop, lineBreak_append_fence]

theorem lineBreak_append (s : List Char) : (lineBreak s).1 ++ (lineBreak s).2 = s := by
  fun_cases lineBreak s <;> rfl

theorem allBlank_lineBreak (s : List Char) : Text.allBlank (lineBreak s).1 := by
  fun_cases lineBreak s <;> rfl

theorem afterBackticks_parts (s : List Char) :
    ∃ brk rest, s = s.takeWhile isTagChar ++ (brk ++ rest) ∧ Text.allBlank brk ∧
      afterBackticks s = (if (keywordOf? (s.takeWhile isTagChar)).isSome then
        s.takeWhile isTagChar ++ brk else [], rest) := by
  refine ⟨_, (lineBreak (s.dropWhile isTagChar)).2, ?_, allBlank_lineBreak _, rfl⟩
  rw [lineBreak_append, List.takeWhile_append_dropWhile]

theorem stripFences_enclosed {s t kept rest : List Char} (hs : ¬ fence <:+: s)
    (hend : s.getLast? ≠ some backtick) (hafter : afterBackticks t = (kept, rest))
    (hfree : ¬ fence <:+: kept ++ rest) :
    stripFences (s ++ (fence ++ (t ++ fence))) = s ++ (kept ++ rest) := by
  have hrest : ¬ fence <:+: rest := fun h => hfree (h.trans (List.suffix_append kept rest).isInfix)
  have hremoved : removeFences (s ++ (fence ++ (t ++ fence))) = s ++ (kept ++ rest) := by
    rw [removeFences_append hs hend, removeFences_fence, afterBackticks_append_fence, hafter]
    exact congrArg (fun r => s ++ (kept ++ r)) (removeFences_append_fence hrest)
  rw [stripFences_of_fence ⟨s, t ++ fence, by simp⟩, hremoved]
  rw [hremoved, fence_infix_append (.inl hend)]
  exact fun h => h.elim hs hfree

end Enclosed

end Agora.Reply
