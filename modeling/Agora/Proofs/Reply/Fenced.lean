import Mathlib.Data.List.DropRight
import Agora.Proofs.Reply.Marker

namespace Agora.Reply

section Lines

theorem firstLine_append {p : List Char} (h : '\n' ∈ p) (s : List Char) :
    firstLine (p ++ s) = firstLine p := by
  induction p with
  | nil => cases h
  | cons c p ih =>
    by_cases hc : c = '\n'
    · simp [firstLine, hc]
    · have hp : '\n' ∈ p := (List.mem_cons.1 h).resolve_left (Ne.symm hc)
      simpa [firstLine, hc] using ih hp

theorem fromKeywordLine?_append {b : Bool} {p s : List Char} (hp : p.getLast? = some '\n')
    (hnone : fromKeywordLine? b p = none) :
    fromKeywordLine? b (p ++ s) = fromKeywordLine? true s := by
  induction p generalizing b with
  | nil => cases hp
  | cons c p ih =>
    have hstart : startsWithStatement (c :: (p ++ s)) = startsWithStatement (c :: p) := by
      rw [startsWithStatement, ← List.cons_append, firstLine_append (List.mem_of_getLast? hp)]
      rfl
    rw [fromKeywordLine?] at hnone
    rw [List.cons_append, fromKeywordLine?, hstart]
    split at hnone
    · cases hnone
    · rename_i hfirst
      rw [if_neg hfirst]
      cases p with
      | nil =>
        obtain rfl : c = '\n' := by simpa using hp
        rfl
      | cons d p => exact ih (by rwa [List.getLast?_cons_cons] at hp) hnone

end Lines

section Trim

theorem trim_blanks_append {s : List Char} (hs : Text.allBlank s) (t : List Char) :
    Text.trim (s ++ t) = Text.trim t := by
  rw [Text.trim, Text.trimStart, List.dropWhile_append_of_pos (List.all_eq_true.1 hs)]
  rfl

theorem trimEnd_append_of_blank (s : List Char) {t : List Char} (ht : Text.allBlank t) :
    Text.trimEnd (s ++ t) = Text.trimEnd s := by
  have hblank : ∀ c ∈ t.reverse, Text.isBlank c := fun c hc =>
    List.all_eq_true.1 ht c (List.mem_reverse.1 hc)
  rw [Text.trimEnd, List.reverse_append, List.dropWhile_append_of_pos hblank]
  rfl

theorem trim_append_blanks (s : List Char) {t : List Char} (ht : Text.allBlank t) :
    Text.trim (s ++ t) = Text.trim s := by
  rw [Text.trim, Text.trimStart, List.dropWhile_append]
  split
  · rename_i hs
    have hnil : Text.trimStart s = [] := List.isEmpty_iff.1 hs
    rw [List.dropWhile_eq_nil_iff.2 (List.all_eq_true.1 ht), Text.trim, hnil]
  · exact trimEnd_append_of_blank _ ht

theorem trim_append (s : List Char) {t : List Char} (ht : t ≠ [])
    (hstart : ∀ c ∈ t.head?, Text.isBlank c = false)
    (hend : ∀ c ∈ t.getLast?, Text.isBlank c = false) :
    Text.trim (s ++ t) = Text.trimStart s ++ t := by
  have hblanks : Text.allBlank (s.takeWhile Text.isBlank) :=
    List.all_eq_true.2 fun _ => List.mem_takeWhile_imp
  have hs : s ++ t = s.takeWhile Text.isBlank ++ (Text.trimStart s ++ t) := by
    rw [← List.append_assoc, Text.trimStart, List.takeWhile_append_dropWhile]
  rw [hs, trim_blanks_append hblanks]
  refine trim_eq_self ?_ ?_
  · have hhead := head?_trimStart s
    cases hs : Text.trimStart s with
    | nil => exact hstart
    | cons c r => simpa [hs] using hhead
  · obtain ⟨t, c, rfl⟩ := (List.eq_nil_or_concat t).resolve_left ht
    simpa using hend

theorem trim_enclosed (s t : List Char) :
    Text.trim (s ++ (fence ++ (t ++ fence))) = Text.trimStart s ++ (fence ++ (t ++ fence)) := by
  have hbacktick : Text.isBlank backtick = false := by decide
  refine trim_append s (by simp [fence]) ?_ ?_
  · simpa [fence] using hbacktick
  · rw [← List.append_assoc, List.getLast?_append_of_ne_nil _ (by simp [fence])]
    simpa [fence] using hbacktick

end Trim

/-- A text before a fence: whole lines, none of which could be taken for the statement. -/
structure IsPreamble (p : List Char) : Prop where
  whole_lines : p = [] ∨ p.getLast? = some '\n'
  fence_free : ¬ fence <:+: p
  statement_free : ¬ HasStatementLine p

namespace IsPreamble

variable {p : List Char} (h : IsPreamble p)
include h

theorem getLast?_ne_backtick : p.getLast? ≠ some backtick := by
  rcases h.whole_lines with rfl | hlast
  · simp
  · rw [hlast]
    decide

theorem trimStart : IsPreamble (Text.trimStart p) where
  whole_lines := by
    obtain ⟨s, hs⟩ := trimStart_suffix p
    rcases List.eq_nil_or_concat (Text.trimStart p) with hnil | ⟨t, c, ht⟩
    · exact .inl hnil
    · rcases h.whole_lines with rfl | hlast
      · exact .inl rfl
      · refine .inr ?_
        rw [← hs, ht] at hlast
        rw [ht]
        simpa using hlast
  fence_free hf := h.fence_free (hf.trans (trimStart_suffix p).isInfix)
  statement_free hline := h.statement_free ((hasStatementLine_trimStart p).1 hline)

theorem fromKeywordLine?_append (s : List Char) :
    fromKeywordLine? true (p ++ s) = fromKeywordLine? true s := by
  rcases h.whole_lines with rfl | hlast
  · rfl
  · refine Reply.fromKeywordLine?_append hlast ?_
    simpa [hasStatementLine_iff] using h.statement_free

theorem clean_eq {raw s : List Char} (htext : Text.trim (stripFences (Text.trim raw)) = p ++ s)
    (hs : IsClean s) (hstart : startsWithStatement s) : clean raw = s := by
  simp only [clean, htext, h.fromKeywordLine?_append, fromKeywordLine?_self hstart]
  exact trim_eq_self hs.blank_free_start hs.blank_free_end

end IsPreamble

def IsLineBreak (s : List Char) : Prop :=
  s = ['\n'] ∨ s = ['\r', '\n']

namespace IsLineBreak

variable {s : List Char} (h : IsLineBreak s)
include h

theorem allBlank : Text.allBlank s := by
  rcases h with rfl | rfl <;> decide

theorem fence_infix_append (t : List Char) : fence <:+: t ++ s ↔ fence <:+: t := by
  have hseam : s.head? ≠ some backtick := by
    rcases h with rfl | rfl <;> decide
  have hfree : ¬ fence <:+: s := by
    rcases h with rfl | rfl <;> decide
  rw [Reply.fence_infix_append (.inr hseam), or_iff_left hfree]

theorem afterBackticks_eq {tag : List Char} (htag : ∀ c ∈ tag, isTagChar c) (t : List Char) :
    afterBackticks (tag ++ (s ++ t)) = (if (keywordOf? tag).isSome then tag ++ s else [], t) := by
  have htake : (s ++ t).takeWhile isTagChar = [] := by
    rcases h with rfl | rfl <;> rfl
  have hdrop : (s ++ t).dropWhile isTagChar = s ++ t := by
    rcases h with rfl | rfl <;> rfl
  have hbreak : lineBreak (s ++ t) = (s, t) := by
    rcases h with rfl | rfl <;> rfl
  simp only [afterBackticks, List.takeWhile_append_of_pos htag, List.dropWhile_append_of_pos htag,
    htake, hdrop, hbreak, List.append_nil]

end IsLineBreak

/-- A statement in a fence, with a tag and behind a preamble, is got back as it was. -/
theorem clean_fenced {preamble tag newline statement : List Char} (hp : IsPreamble preamble)
    (htag : ∀ c ∈ tag, isTagChar c) (hword : keywordOf? tag = none) (hn : IsLineBreak newline)
    (hs : IsClean statement) (hstart : startsWithStatement statement) :
    clean (preamble ++ fence ++ tag ++ newline ++ statement ++ newline ++ fence) = statement := by
  have hne : statement ≠ [] := by
    rintro rfl
    exact absurd hstart (by decide)
  have hbefore : IsPreamble (Text.trimStart preamble) := hp.trimStart
  have hbody : ¬ fence <:+: statement ++ newline := fun h =>
    hs.fence_free ((hn.fence_infix_append _).1 h)
  have hafter : afterBackticks (tag ++ (newline ++ (statement ++ newline))) =
      ([], statement ++ newline) := by
    rw [hn.afterBackticks_eq htag, hword]
    rfl
  refine hbefore.clean_eq ?_ hs hstart
  calc Text.trim (stripFences (Text.trim
        (preamble ++ fence ++ tag ++ newline ++ statement ++ newline ++ fence)))
    _ = Text.trim (stripFences (Text.trim
        (preamble ++ (fence ++ ((tag ++ (newline ++ (statement ++ newline))) ++ fence))))) := by
      simp
    _ = Text.trim (Text.trimStart preamble ++ ([] ++ (statement ++ newline))) := by
      rw [trim_enclosed, stripFences_enclosed hbefore.fence_free hbefore.getLast?_ne_backtick
        hafter hbody]
    _ = Text.trim (Text.trimStart preamble ++ statement) := by
      rw [List.nil_append, ← List.append_assoc, trim_append_blanks _ hn.allBlank]
    _ = Text.trimStart preamble ++ statement := by
      rw [trim_append _ hne hs.blank_free_start hs.blank_free_end]
      exact congrArg (· ++ statement) (List.dropWhile_idempotent _ preamble)

theorem clean_fenced_prose :
    let preamble := ['O', 'k', ':', '\n']
    let tag := ['s', 'q', 'l']
    let newline := ['\r', '\n']
    let statement := ['S', 'E', 'L', 'E', 'C', 'T', ' ', backtick, 'a', backtick]
    (IsPreamble preamble ∧ (∀ c ∈ tag, isTagChar c) ∧ keywordOf? tag = none ∧
        IsLineBreak newline ∧ IsClean statement ∧ startsWithStatement statement) ∧
      clean (preamble ++ fence ++ tag ++ newline ++ statement ++ newline ++ fence) = statement := by
  intro preamble tag newline statement
  have hp : IsPreamble preamble :=
    ⟨.inr rfl, by decide, by rw [hasStatementLine_iff]; decide⟩
  have hstart : startsWithStatement statement := by decide
  have hs : IsClean statement :=
    ⟨fun c hc => by cases hc; decide, fun c hc => by cases hc; decide, by decide, .inl hstart⟩
  have htag : ∀ c ∈ tag, isTagChar c := List.all_eq_true.1 (by decide)
  have hword : keywordOf? tag = none := by decide
  exact ⟨⟨hp, htag, hword, .inr rfl, hs, hstart⟩,
    clean_fenced hp htag hword (.inr rfl) hs hstart⟩

end Agora.Reply
