import Agora.Proofs.Reply.Fenced
/-!
The search for keyword lines takes letters for a word, and a marker takes digits and some signs as
well.
-/
namespace Agora.Reply

theorem letters_firstLine (s : List Char) :
    (firstLine s).takeWhile Ascii.isLetter = s.takeWhile Ascii.isLetter := by
  rw [firstLine, List.takeWhile_takeWhile]
  congr 1
  funext c
  by_cases hc : c = '\n'
  · subst hc
    rfl
  · simp [hc]

theorem startsWithStatement_trim (s : List Char) :
    startsWithStatement (Text.trim s) = (leadingKeyword? s).isSome := by
  have hhead := head?_trimStart s
  have hstart : Text.trimStart (firstLine (Text.trimStart s)) = firstLine (Text.trimStart s) := by
    cases hs : Text.trimStart s with
    | nil => rfl
    | cons c t =>
      have hc : Text.isBlank c = false := by simpa [hs] using hhead
      have hn : c ≠ '\n' := by
        rintro rfl
        exact absurd hc (by decide)
      simp [firstLine, Text.trimStart, hn, hc]
  rw [Text.trim, startsWithStatement_trimEnd, startsWithStatement, leadingKeyword?, hstart,
    letters_firstLine, leadingKeyword?]

theorem keywordOf?_nil : keywordOf? [] = none := by
  decide

theorem isLetter_of_keyword {word : List Char} (h : (keywordOf? word).isSome) :
    ∀ c ∈ word, Ascii.isLetter c := by
  obtain ⟨k, hk⟩ := Option.isSome_iff_exists.1 h
  have hmem : k ∈ statementKeywords := List.mem_of_find?_eq_some hk
  have hword : k.toList = word.map Ascii.toUpper := by simpa using List.find?_some hk
  have hupper : ∀ k ∈ statementKeywords, k.toList.all Ascii.isUpper := by decide
  intro c hc
  have hc' := List.all_eq_true.1 (hupper k hmem) (Ascii.toUpper c)
    (hword ▸ List.mem_map_of_mem hc)
  rw [Ascii.toUpper] at hc'
  split at hc'
  · simp_all [Ascii.isLetter]
  · simp [Ascii.isLetter, hc']

theorem not_isTagChar_of_isBlank {c : Char} (h : Text.isBlank c) : isTagChar c = false := by
  have hdigit : ('0' ≤ c && c ≤ '9') = false := by
    simp only [Text.isBlank, Text.inRanges, Text.blankRanges, List.any_cons, List.any_nil,
      Bool.or_false, Bool.or_eq_true, Bool.and_eq_true, decide_eq_true_eq] at h
    simp only [Bool.and_eq_false_iff, decide_eq_false_iff_not, Char.le_def, UInt32.le_iff_toNat_le]
    have : c.toNat = c.val.toNat := rfl
    have : '0'.val.toNat = 48 := rfl
    have : '9'.val.toNat = 57 := rfl
    omega
  have hsign (d : Char) (hd : Text.isBlank d = false) : c ≠ d := by
    rintro rfl
    simp [hd] at h
  simp [isTagChar, not_isLetter_of_isBlank h, hdigit, hsign '_' (by decide),
    hsign '+' (by decide), hsign '-' (by decide)]

/-- Whether the letters that a text starts with go on in another character that tags may have. -/
def runsOn (s : List Char) : Bool :=
  (s.dropWhile Ascii.isLetter).head?.any isTagChar

theorem glued_tag {s : List Char} (hkeyword : (leadingKeyword? s).isSome) :
    if runsOn s then s.takeWhile isTagChar ≠ [] ∧ keywordOf? (s.takeWhile isTagChar) = none
    else s.takeWhile isTagChar = [] ∨ (keywordOf? (s.takeWhile isTagChar)).isSome := by
  by_cases hblank : s.head?.any Text.isBlank
  · -- an indented statement has nothing in the place of the tag
    obtain ⟨c, t, rfl⟩ : ∃ c t, s = c :: t := by
      cases s with
      | nil => simp at hblank
      | cons c t => exact ⟨c, t, rfl⟩
    have hc : Text.isBlank c := by simpa using hblank
    simp [runsOn, not_isLetter_of_isBlank hc, not_isTagChar_of_isBlank hc]
  · have hstart : Text.trimStart s = s := by
      cases s with
      | nil => rfl
      | cons c t => exact List.dropWhile_cons_of_neg (by simpa using hblank)
    rw [leadingKeyword?, hstart] at hkeyword
    have hletters : ∀ c ∈ s.takeWhile Ascii.isLetter, isTagChar c := fun c hc => by
      simp [isTagChar, List.mem_takeWhile_imp hc]
    have htag : s.takeWhile isTagChar =
        s.takeWhile Ascii.isLetter ++ (s.dropWhile Ascii.isLetter).takeWhile isTagChar := by
      rw [← List.takeWhile_append_of_pos hletters, List.takeWhile_append_dropWhile]
    have hnext := List.head?_dropWhile_not Ascii.isLetter s
    cases hrest : s.dropWhile Ascii.isLetter with
    | nil => simp [runsOn, htag, hrest, hkeyword]
    | cons d r =>
      have hd : Ascii.isLetter d = false := by simpa [hrest] using hnext
      by_cases htagChar : isTagChar d
      · have hnone : keywordOf? (s.takeWhile isTagChar) = none := by
          rw [← Option.not_isSome_iff_eq_none]
          intro hsome
          have := isLetter_of_keyword hsome d (by simp [htag, hrest, htagChar])
          simp [hd] at this
        have hne : s.takeWhile isTagChar ≠ [] := by simp [htag, hrest, htagChar]
        simp [runsOn, hrest, htagChar, hnone, hne]
      · simp [runsOn, htag, hrest, htagChar, hkeyword]

theorem exists_trim (s : List Char) :
    ∃ t u, Text.allBlank t ∧ Text.allBlank u ∧ s = t ++ (Text.trim s ++ u) := by
  obtain ⟨u, hu, hs⟩ := trimEnd_append_blanks (Text.trimStart s)
  refine ⟨s.takeWhile Text.isBlank, u, List.all_eq_true.2 fun _ => List.mem_takeWhile_imp, hu, ?_⟩
  rw [Text.trim, ← hs, Text.trimStart, List.takeWhile_append_dropWhile]

def inked (s : List Char) : Nat :=
  s.countP (!Text.isBlank ·)

theorem inked_append (s t : List Char) : inked (s ++ t) = inked s + inked t :=
  List.countP_append

theorem inked_of_allBlank {s : List Char} (hs : Text.allBlank s) : inked s = 0 :=
  List.countP_eq_zero.2 fun c hc => by simp [List.all_eq_true.1 hs c hc]

theorem inked_trim (s : List Char) : inked (Text.trim s) = inked s := by
  obtain ⟨t, u, ht, hu, hs⟩ := exists_trim s
  calc inked (Text.trim s)
    _ = inked t + (inked (Text.trim s) + inked u) := by
      rw [inked_of_allBlank ht, inked_of_allBlank hu, Nat.zero_add, Nat.add_zero]
    _ = inked s := by rw [← inked_append, ← inked_append, ← hs]

theorem isPreamble_nil : IsPreamble [] :=
  ⟨.inl rfl, by decide, by rw [hasStatementLine_iff]; decide⟩

section

variable {s : List Char} (hfree : ¬ fence <:+: s)

theorem stripFences_glued {kept rest : List Char} (hafter : afterBackticks s = (kept, rest))
    (h : ¬ fence <:+: kept ++ rest) :
    stripFences (Text.trim (fence ++ s ++ fence)) = kept ++ rest := by
  have hraw : Text.trim (fence ++ s ++ fence) = [] ++ (fence ++ (s ++ fence)) := by
    rw [List.append_assoc]
    exact trim_enclosed [] s
  rw [hraw, stripFences_enclosed (by decide) (by simp) hafter h, List.nil_append]

include hfree

theorem clean_glued_ne (htag : s.takeWhile isTagChar ≠ [])
    (hword : keywordOf? (s.takeWhile isTagChar) = none) :
    clean (fence ++ s ++ fence) ≠ Text.trim s := by
  obtain ⟨brk, rest, hs, -, hafter⟩ := afterBackticks_parts s
  have hrest : ¬ fence <:+: [] ++ rest := fun h => hfree (h.trans
    (hs ▸ ((List.suffix_append brk rest).trans (List.suffix_append _ _)).isInfix))
  have htaken : afterBackticks s = ([], rest) := by
    rw [hafter, hword]
    rfl
  have hstripped := stripFences_glued htaken hrest
  intro h
  have hle : inked (clean (fence ++ s ++ fence)) ≤ inked rest :=
    (hstripped ▸ clean_isInfix _).sublist.countP_le
  have hpos : 0 < inked (s.takeWhile isTagChar) := by
    obtain ⟨c, hc⟩ := List.exists_mem_of_ne_nil _ htag
    refine List.countP_pos_iff.2 ⟨c, hc, ?_⟩
    by_contra hblank
    have := not_isTagChar_of_isBlank (c := c) (by simpa using hblank)
    simp [List.mem_takeWhile_imp hc] at this
  have hsum : inked s = inked (s.takeWhile isTagChar) + (inked brk + inked rest) := by
    rw [← inked_append, ← inked_append, ← hs]
  rw [h, inked_trim] at hle
  omega

theorem clean_glued_eq (hkeyword : (leadingKeyword? s).isSome)
    (htag : s.takeWhile isTagChar = [] ∨ (keywordOf? (s.takeWhile isTagChar)).isSome) :
    clean (fence ++ s ++ fence) = Text.trim s := by
  have htext : Text.trim (stripFences (Text.trim (fence ++ s ++ fence))) = Text.trim s := by
    obtain ⟨brk, rest, hs, hbrk, hafter⟩ := afterBackticks_parts s
    rcases htag with hnil | hsome
    · rw [hnil, List.nil_append] at hs
      rw [hnil, keywordOf?_nil] at hafter
      have hrest : ¬ fence <:+: [] ++ rest := fun h =>
        hfree (h.trans (hs ▸ (List.suffix_append brk rest).isInfix))
      rw [stripFences_glued hafter hrest, List.nil_append, hs]
      exact (trim_blanks_append hbrk rest).symm
    · have hwhole : s.takeWhile isTagChar ++ brk ++ rest = s := by rw [List.append_assoc, ← hs]
      rw [if_pos hsome] at hafter
      rw [stripFences_glued hafter (hwhole.symm ▸ hfree), hwhole]
  have hstart : startsWithStatement (Text.trim s) := by rwa [startsWithStatement_trim]
  exact isPreamble_nil.clean_eq htext
    ⟨head?_trim s, getLast?_trimEnd _, fun h => hfree (h.trans (trim_isInfix s)), .inl hstart⟩
    hstart

end

/-- A statement right behind a fence is got back whole, but for blanks at its ends, if and only if
its keyword does not run on: `SELECT-1` there is a tag, not a statement. -/
theorem clean_glued_iff {s : List Char} (hfree : ¬ fence <:+: s)
    (hkeyword : (leadingKeyword? s).isSome) :
    clean (fence ++ s ++ fence) = Text.trim s ↔ runsOn s = false := by
  have htag := glued_tag hkeyword
  cases hrun : runsOn s with
  | true =>
    rw [hrun, if_pos rfl] at htag
    exact iff_of_false (clean_glued_ne hfree htag.1 htag.2) (by simp)
  | false =>
    rw [hrun, if_neg Bool.false_ne_true] at htag
    exact iff_of_true (clean_glued_eq hfree hkeyword htag) rfl

theorem clean_glued_line_break :
    let s := ['s', 'e', 'l', 'e', 'c', 't', '\r', '\n', '*', ' ', backtick, backtick]
    (¬ fence <:+: s ∧ (leadingKeyword? s).isSome) ∧ clean (fence ++ s ++ fence) = Text.trim s := by
  intro s
  have hfree : ¬ fence <:+: s := by decide
  have hkeyword : (leadingKeyword? s).isSome := by decide
  exact ⟨⟨hfree, hkeyword⟩, (clean_glued_iff hfree hkeyword).2 (by decide)⟩

/-- Of `SELECT-1 AS n` the keyword and the number are lost. -/
theorem clean_glued_sign :
    let s := ['S', 'E', 'L', 'E', 'C', 'T', '-', '1', ' ', 'A', 'S', ' ', 'n']
    (¬ fence <:+: s ∧ (leadingKeyword? s).isSome) ∧
      clean (fence ++ s ++ fence) = ['A', 'S', ' ', 'n'] ∧
      clean (fence ++ s ++ fence) ≠ Text.trim s := by
  intro s
  have hfree : ¬ fence <:+: s := by decide
  refine ⟨⟨hfree, by decide⟩, ?_, clean_glued_ne hfree (by decide) (by decide)⟩
  decide +kernel

end Agora.Reply
