import Agora.Proofs.Reply.Fenced

namespace Agora.Reply

def offsetIn? (index offset : Nat) : List (List Char) → Option Nat
  | [] => none
  | line :: lines =>
      if (leadingKeyword? line).isSome then if 0 < index then some offset else none
      else offsetIn? (index + 1) (offset + (String.ofList line).utf8ByteSize + 1) lines

def statementOffset? (s : List Char) : Option Nat :=
  offsetIn? 0 0 (s.splitOn '\n')

/-- What stands behind some bytes of a text, if they end on the boundary of a character. -/
def sliceFrom? (s : List Char) (offset : Nat) : Option (List Char) :=
  ((String.ofList s).pos? ⟨offset⟩).map fun p => ((String.ofList s).sliceFrom p).copy.toList

def cleanBySlice? (raw : List Char) : Option (List Char) :=
  let text := Text.trim (stripFences (Text.trim raw))
  match statementOffset? text with
  | some offset => (sliceFrom? text offset).map Text.trim
  | none => some text

/-- The first line as it is read from a text, without the carriage return of its line break; an
empty text has none. -/
def lineRead? (s : List Char) : Option (List Char) :=
  if s = [] then none
  else if '\n' ∈ s ∧ (firstLine s).getLast? = some '\r' then some (firstLine s).dropLast
  else some (firstLine s)

def joined (lines : List (List Char)) : List Char :=
  lines.flatMap (· ++ ['\n'])

structure FirstKeywordLine (text : List Char) (before : List (List Char)) (rest : List Char) :
    Prop where
  keyword_free : ∀ l ∈ before, leadingKeyword? l = none
  keyword : ∃ line later, text.splitOn '\n' = before ++ line :: later ∧
    (leadingKeyword? line).isSome
  split : text = joined before ++ rest

inductive CutTo (text : List Char) : List Char → Prop
  | line {before rest} : FirstKeywordLine text before rest → CutTo text (Text.trim rest)
  | whole : (∀ l ∈ text.splitOn '\n', leadingKeyword? l = none) → CutTo text text

section Slice

theorem pos?_of_isValid {s : String} {p : String.Pos.Raw} (h : p.IsValid s) :
    s.pos? p = some (s.pos p h) := by
  have hslice : p.isValidForSlice s.toSlice :=
    String.Pos.Raw.isValidForSlice_eq_true_iff.2 h.toSlice
  rw [String.pos?, String.Slice.pos?, dif_pos hslice]
  rfl

theorem sliceFrom?_append (s t : List Char) :
    sliceFrom? (s ++ t) (String.ofList s).utf8ByteSize = some t := by
  have hsplits := String.Pos.splits_append_rawEndPos (s := String.ofList s) (t := String.ofList t)
  have hpos := pos?_of_isValid
    (String.Pos.Raw.isValid_rawEndPos.append_right (s := String.ofList s) (String.ofList t))
  unfold sliceFrom?
  rw [String.ofList_append]
  refine (congrArg _ hpos).trans ?_
  rw [Option.map_some, hsplits.copy_sliceFrom_eq, String.toList_ofList]

end Slice

section Lines

variable {s line : List Char} {before later lines : List (List Char)}

theorem joined_cons (l : List Char) (ls : List (List Char)) :
    joined (l :: ls) = l ++ ['\n'] ++ joined ls :=
  rfl

theorem intercalate_append (before : List (List Char)) (line : List Char)
    (later : List (List Char)) : ['\n'].intercalate (before ++ line :: later) =
      joined before ++ ['\n'].intercalate (line :: later) := by
  induction before with
  | nil => rfl
  | cons l before ih =>
    rw [List.cons_append, List.intercalate_cons_of_ne_nil (by simp), ih, joined_cons]
    simp

theorem not_mem_of_mem_splitOn (h : line ∈ s.splitOn '\n') : '\n' ∉ line := by
  induction s generalizing line with
  | nil => simp_all [List.splitOn]
  | cons c s ih =>
    obtain ⟨ls, hls⟩ := splitOn_eq_firstLine_cons s
    rw [splitOn_cons, hls] at h
    rw [hls] at ih
    split at h
    · rcases List.mem_cons.1 h with rfl | hmem
      · exact List.not_mem_nil
      · exact ih hmem
    · rename_i hc
      rcases List.mem_cons.1 h with rfl | hmem
      · exact List.not_mem_cons_of_ne_of_not_mem (Ne.symm hc) (ih List.mem_cons_self)
      · exact ih (List.mem_cons_of_mem _ hmem)

theorem splitOn_eq_append (h : s.splitOn '\n' = before ++ line :: later) :
    ∃ rest, s = joined before ++ rest ∧ rest.splitOn '\n' = line :: later := by
  have hfree : ∀ l ∈ line :: later, '\n' ∉ l := fun l hl =>
    not_mem_of_mem_splitOn (h ▸ List.mem_append_right before hl)
  refine ⟨['\n'].intercalate (line :: later), ?_, List.splitOn_intercalate _ hfree (by simp)⟩
  rw [← intercalate_append, ← h, List.intercalate_splitOn]

theorem firstLine_eq (h : s.splitOn '\n' = line :: later) : firstLine s = line := by
  obtain ⟨ls, hls⟩ := splitOn_eq_firstLine_cons s
  exact (List.cons.inj (hls.symm.trans h)).1

theorem fromKeywordLine?_line (hline : '\n' ∉ line) (hnone : leadingKeyword? line = none)
    (rest : List Char) :
    fromKeywordLine? true (line ++ ['\n'] ++ rest) = fromKeywordLine? true rest := by
  have hsearch : fromKeywordLine? true (line ++ ['\n']) = none := by
    rw [← Option.not_isSome_iff_eq_none, fromKeywordLine?_append_blanks true line (by decide),
      fromKeywordLine?_isSome_iff]
    simp [List.splitOn_eq_singleton hline, hnone]
  exact fromKeywordLine?_append (by simp) hsearch

theorem fromKeywordLine?_joined (hfree : ∀ l ∈ before, '\n' ∉ l)
    (hnone : ∀ l ∈ before, leadingKeyword? l = none) (rest : List Char) :
    fromKeywordLine? true (joined before ++ rest) = fromKeywordLine? true rest := by
  induction before with
  | nil => rfl
  | cons l before ih =>
    rw [joined_cons, List.append_assoc, fromKeywordLine?_line (hfree l (by simp))
      (hnone l (by simp))]
    exact ih (fun l' hl' => hfree l' (by simp [hl'])) fun l' hl' => hnone l' (by simp [hl'])

theorem offsetIn?_append (h : ∀ l ∈ before, leadingKeyword? l = none) (index offset : Nat) :
    offsetIn? index offset (before ++ lines) = offsetIn? (index + before.length)
      (offset + (String.ofList (joined before)).utf8ByteSize) lines := by
  induction before generalizing index offset with
  | nil => simp [joined]
  | cons l before ih =>
    have hl : leadingKeyword? l = none := h l (by simp)
    have hsize : (String.ofList (joined (l :: before))).utf8ByteSize =
        (String.ofList l).utf8ByteSize + 1 + (String.ofList (joined before)).utf8ByteSize := by
      rw [joined_cons, String.ofList_append, String.ofList_append, String.utf8ByteSize_append,
        String.utf8ByteSize_append]
      rfl
    calc offsetIn? index offset (l :: before ++ lines)
      _ = offsetIn? (index + 1) (offset + (String.ofList l).utf8ByteSize + 1)
          (before ++ lines) := by
        simp [offsetIn?, hl]
      _ = offsetIn? (index + (l :: before).length)
          (offset + (String.ofList (joined (l :: before))).utf8ByteSize) lines := by
        rw [ih fun l' hl' => h l' (by simp [hl']), hsize, List.length_cons]
        congr 1 <;> omega

end Lines

section Search

variable {text rest : List Char} {before : List (List Char)}

theorem keyword_free_or_first (text : List Char) :
    (∀ l ∈ text.splitOn '\n', leadingKeyword? l = none) ∨
      ∃ before rest, FirstKeywordLine text before rest := by
  cases hfind : (text.splitOn '\n').find? fun l => (leadingKeyword? l).isSome with
  | none => exact .inl fun l hl => by simpa using List.find?_eq_none.1 hfind l hl
  | some line =>
    obtain ⟨hline, before, later, hlines, hbefore⟩ := List.find?_eq_some_iff_append.1 hfind
    obtain ⟨rest, htext, -⟩ := splitOn_eq_append hlines
    exact .inr ⟨before, rest, fun l hl => by simpa using hbefore l hl,
      ⟨line, later, hlines, hline⟩, htext⟩

theorem fromKeywordLine?_eq_none (h : ∀ l ∈ text.splitOn '\n', leadingKeyword? l = none) :
    fromKeywordLine? true text = none := by
  rw [← Option.not_isSome_iff_eq_none, ← hasStatementLine_iff]
  rintro ⟨l, hl, hsome⟩
  simp [h l hl] at hsome

theorem statementOffset?_eq_none (h : ∀ l ∈ text.splitOn '\n', leadingKeyword? l = none) :
    statementOffset? text = none := by
  rw [statementOffset?, ← List.append_nil (text.splitOn '\n'), offsetIn?_append h]
  rfl

namespace FirstKeywordLine

variable (h : FirstKeywordLine text before rest)
include h

theorem fromKeywordLine?_eq : fromKeywordLine? true text = some rest := by
  obtain ⟨line, later, hlines, hline⟩ := h.keyword
  obtain ⟨rest', htext, hrest⟩ := splitOn_eq_append hlines
  obtain rfl : rest' = rest := List.append_cancel_left (htext.symm.trans h.split)
  have hfree : ∀ l ∈ before, '\n' ∉ l := fun l hl =>
    not_mem_of_mem_splitOn (hlines ▸ List.mem_append_left _ hl)
  have hstart : startsWithStatement rest' := by
    rw [startsWithStatement, firstLine_eq hrest]
    exact hline
  rw [h.split, fromKeywordLine?_joined hfree h.keyword_free, fromKeywordLine?_self hstart]

theorem statementOffset?_eq : statementOffset? text =
    if before = [] then none else some (String.ofList (joined before)).utf8ByteSize := by
  obtain ⟨line, later, hlines, hline⟩ := h.keyword
  rw [statementOffset?, hlines, offsetIn?_append h.keyword_free, offsetIn?, if_pos hline]
  simp [List.length_pos_iff]

theorem sliceFrom?_eq : sliceFrom? text (String.ofList (joined before)).utf8ByteSize = some rest := by
  rw [h.split, sliceFrom?_append]

end FirstKeywordLine

end Search

theorem firstLine_eq_self {s : List Char} (h : '\n' ∉ s) : firstLine s = s :=
  List.takeWhile_eq_self_iff.2 fun _ hc => decide_eq_true fun heq => h (heq ▸ hc)

theorem not_mem_firstLine (s : List Char) : '\n' ∉ firstLine s := by
  intro h
  have hne : decide ('\n' ≠ '\n') = true := List.mem_takeWhile_imp (p := (· ≠ '\n')) h
  exact of_decide_eq_true hne rfl

theorem startsWithStatement_eq (s : List Char) :
    startsWithStatement s = ((lineRead? s).bind leadingKeyword?).isSome := by
  unfold lineRead?
  split
  · subst s
    decide
  · split
    · rename_i hbreak
      obtain ⟨line, hline⟩ : ∃ line, firstLine s = line ++ ['\r'] :=
        List.getLast?_eq_some_iff.1 hbreak.2
      have hfree : '\n' ∉ line ++ ['\r'] := hline ▸ not_mem_firstLine s
      have hdropped : '\n' ∉ line := fun hmem => hfree (List.mem_append_left _ hmem)
      calc startsWithStatement s
        _ = startsWithStatement (line ++ ['\r']) := by
          rw [startsWithStatement, startsWithStatement, hline, firstLine_eq_self hfree]
        _ = startsWithStatement line := startsWithStatement_append_blanks line (by decide)
        _ = _ := by
          rw [startsWithStatement, firstLine_eq_self hdropped, hline, List.dropLast_concat]
          rfl
    · rfl

theorem trim_trim (s : List Char) : Text.trim (Text.trim s) = Text.trim s :=
  trim_eq_self (head?_trim s) (getLast?_trimEnd _)

section Cut

variable {raw : List Char}

theorem clean_whole
    (h : ∀ l ∈ (Text.trim (stripFences (Text.trim raw))).splitOn '\n', leadingKeyword? l = none) :
    clean raw = Text.trim (stripFences (Text.trim raw)) := by
  simp only [clean, fromKeywordLine?_eq_none h]

theorem cleanBySlice?_whole
    (h : ∀ l ∈ (Text.trim (stripFences (Text.trim raw))).splitOn '\n', leadingKeyword? l = none) :
    cleanBySlice? raw = some (Text.trim (stripFences (Text.trim raw))) := by
  simp only [cleanBySlice?, statementOffset?_eq_none h]

namespace FirstKeywordLine

variable {before : List (List Char)} {rest : List Char}
  (h : FirstKeywordLine (Text.trim (stripFences (Text.trim raw))) before rest)

include h

theorem clean_eq : clean raw = Text.trim rest := by
  simp only [clean, h.fromKeywordLine?_eq]

theorem cleanBySlice?_eq : cleanBySlice? raw = some (Text.trim rest) := by
  by_cases hbefore : before = []
  · -- nothing is cut off, and the text is trimmed already
    have hrest : rest = Text.trim (stripFences (Text.trim raw)) := by
      rw [h.split, hbefore]
      rfl
    simp only [cleanBySlice?, h.statementOffset?_eq, if_pos hbefore]
    rw [hrest, trim_trim]
  · simp only [cleanBySlice?, h.statementOffset?_eq, if_neg hbefore, h.sliceFrom?_eq,
      Option.map_some]

end FirstKeywordLine

end Cut

/-- A cleaned reply starts with a statement keyword if and only if some line of the unfenced reply
does; it is the unfenced reply from the first such line on, without blanks at its ends, or all of
it if there is none; and a slice at the bytes before that line never fails and gives the same. -/
theorem clean_from_first_keyword_line (raw : List Char) :
    let text := Text.trim (stripFences (Text.trim raw))
    (startsWithStatement (clean raw) ↔ ∃ l ∈ text.splitOn '\n', (leadingKeyword? l).isSome) ∧
      startsWithStatement (clean raw) =
        ((lineRead? (clean raw)).bind leadingKeyword?).isSome ∧
      CutTo text (clean raw) ∧ cleanBySlice? raw = some (clean raw) := by
  intro text
  refine ⟨(startsWithStatement_clean_iff raw).trans (hasStatementLine_trim _).symm,
    startsWithStatement_eq _, ?_⟩
  rcases keyword_free_or_first text with hnone | ⟨before, rest, hfirst⟩
  · rw [cleanBySlice?_whole hnone, clean_whole hnone]
    exact ⟨.whole hnone, rfl⟩
  · rw [hfirst.cleanBySlice?_eq, hfirst.clean_eq]
    exact ⟨.line hfirst, rfl⟩

example : statementOffset? ['é', ':', '\r', '\n', ' ', 'W', 'i', 't', 'h', '\r'] = some 5 := by
  decide

end Agora.Reply
