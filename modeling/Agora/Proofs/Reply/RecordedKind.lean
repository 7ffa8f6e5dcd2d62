import Agora.Compiler
import Agora.Proofs.Reply.Glued
import Agora.Proofs.Sql.Composition
/-!
One kind is read from the tokens of a statement, the other from the letters that it starts with.
They agree, unless the keyword runs on in a digit, an underscore or a letter that is not ASCII.
-/
namespace Agora.Sql

section Letters

variable {c : Char} {w : List Char}

theorem upperChar_of_isLetter (h : Ascii.isLetter c) : upperChar c = [Ascii.toUpper c] := by
  by_cases hlower : Ascii.isLower c
  · have hrange : 'a' ≤ c ∧ c ≤ 'z' := by simpa [Ascii.isLower] using hlower
    rw [upperChar, if_pos hrange, Ascii.toUpper, if_pos hlower]
  · have hupper : Ascii.isUpper c := by simpa [Ascii.isLetter, hlower] using h
    have hne (d : Char) (hd : Ascii.isUpper d = false) : c ≠ d := by
      rintro rfl
      simp [hd] at hupper
    have hrange : ¬ ('a' ≤ c ∧ c ≤ 'z') := by simpa [Ascii.isLower] using hlower
    rw [upperChar, if_neg hrange, Ascii.toUpper, if_neg hlower]
    simp [hne 'ı' (by decide), hne 'ſ' (by decide), hne 'ß' (by decide), hne 'ﬀ' (by decide),
      hne 'ﬁ' (by decide), hne 'ﬂ' (by decide), hne 'ﬃ' (by decide), hne 'ﬄ' (by decide),
      hne 'ﬅ' (by decide), hne 'ﬆ' (by decide)]

theorem upperChar_ne_nil (c : Char) : upperChar c ≠ [] := by
  unfold upperChar
  repeat' split
  all_goals simp

theorem upperWord_letters (h : ∀ c ∈ w, Ascii.isLetter c) :
    upperWord w = w.map Ascii.toUpper := by
  induction w with
  | nil => rfl
  | cons c w ih =>
    rw [upperWord, List.flatMap_cons, upperChar_of_isLetter (h c (by simp))]
    exact congrArg (_ :: ·) (ih fun d hd => h d (by simp [hd]))

theorem isWordPart_of_isLetter (h : Ascii.isLetter c) : isWordPart c := by
  simp [isWordPart, isWordStart, h]

/-- Only `n`, `x` and `e` can start something else than a word, and no keyword starts with them. -/
theorem Start.of_letter (h : Ascii.isLetter c) (hc : Ascii.toUpper c ∉ ['N', 'X', 'E'])
    (next : Option Char) : Start.of c next = .word := by
  have hne (d : Char) (hd : Ascii.toUpper d ∈ ['N', 'X', 'E']) : c ≠ d := by
    rintro rfl
    exact hc hd
  have hspace : isSpace c = false := by
    have hsign (d : Char) (hd : Ascii.isLetter d = false) : c ≠ d := by
      rintro rfl
      simp [hd] at h
    simp [isSpace, hsign ' ' (by decide), hsign '\t' (by decide), hsign '\n' (by decide),
      hsign '\r' (by decide)]
  simp [Start.of, hspace, hne 'n' (by decide), hne 'N' (by decide), hne 'x' (by decide),
    hne 'X' (by decide), hne 'e' (by decide), hne 'E' (by decide), isWordStart, h]

end Letters

section Keyword

variable {w : List Char} {k : String}

theorem upperWord_keyword (h : Reply.keywordOf? w = some k) : upperWord w = k.toList := by
  have hk : k.toList = w.map Ascii.toUpper := by simpa using List.find?_some h
  rw [upperWord_letters (Reply.isLetter_of_keyword (by rw [h]; rfl)), hk]

theorem mem_statementKeywords (h : Reply.keywordOf? w = some k) : k ∈ Reply.statementKeywords :=
  List.mem_of_find?_eq_some h

theorem keyword?_append (h : Reply.keywordOf? w = some k) {v : List Char} (hv : v ≠ []) :
    keyword? (w ++ v) = none := by
  have hlonger : ∀ k ∈ Reply.statementKeywords, ∀ e ∈ keywordTable,
      k.toList <+: e.1.toList → e.1.toList = k.toList := by decide
  have hupper : upperWord (w ++ v) = k.toList ++ upperWord v := by
    rw [← upperWord_keyword h, upperWord, upperWord, upperWord, List.flatMap_append]
  have hne : upperWord v ≠ [] := by
    obtain ⟨c, v, rfl⟩ := List.exists_cons_of_ne_nil hv
    simp [upperWord, upperChar_ne_nil]
  rw [keyword?, Option.map_eq_none_iff, List.find?_eq_none]
  intro e he heq
  have heq : e.1.toList = k.toList ++ upperWord v := by simpa [hupper] using heq
  have hshort := hlonger k (mem_statementKeywords h) e he ⟨_, heq.symm⟩
  rw [heq] at hshort
  exact hne (List.append_right_eq_self.1 hshort)

theorem next?_keyword (h : Reply.keywordOf? w = some k) (r : List Char) :
    ∃ c s, w ++ r = c :: s ∧
      next? c s = some (.word (w ++ r.takeWhile isWordPart), r.dropWhile isWordPart) := by
  have hletters := Reply.isLetter_of_keyword (by rw [h]; rfl : (Reply.keywordOf? w).isSome)
  have hupper := upperWord_keyword h
  rw [upperWord_letters hletters] at hupper
  cases w with
  | nil =>
    rw [Reply.keywordOf?_nil] at h
    cases h
  | cons c w =>
    have hfirst : ∀ k ∈ Reply.statementKeywords,
        k.toList.head? ∉ [some 'N', some 'X', some 'E'] := by
      decide
    have hc : Ascii.toUpper c ∉ ['N', 'X', 'E'] := by
      have hk := hfirst k (mem_statementKeywords h)
      rw [← hupper] at hk
      simpa using hk
    have hparts : ∀ d ∈ w, isWordPart d := fun d hd =>
      isWordPart_of_isLetter (hletters d (List.mem_cons_of_mem _ hd))
    refine ⟨c, w ++ r, rfl, ?_⟩
    rw [next?_word (Start.of_letter (hletters c List.mem_cons_self) hc _),
      List.takeWhile_append_of_pos hparts, List.dropWhile_append_of_pos hparts, List.cons_append]

def keywordKind : String → Kind
  | "SELECT" => .read
  | "INSERT" | "UPDATE" | "DELETE" => .write
  | "CREATE" | "ALTER" | "DROP" => .schema
  | _ => .other

theorem keyword?_eq (h : Reply.keywordOf? w = some k) (hwith : k ≠ "WITH") :
    keyword? w = some (.statement (keywordKind k)) := by
  have hall : ∀ k ∈ Reply.statementKeywords, k ≠ "WITH" →
      (keywordTable.find? fun e => e.1.toList = k.toList).map (·.2) =
        some (.statement (keywordKind k)) := by decide
  rw [keyword?, upperWord_keyword h]
  exact hall k (mem_statementKeywords h) hwith

end Keyword

theorem kind_of_word {c : Char} {s w r : List Char} (h : next? c s = some (.word w, r))
    (hwith : keyword? w ≠ some .with) :
    kind (c :: s) = if tokens? (c :: s) = none then .unknown else
      match keyword? w with
      | some (.statement k) => k
      | _ => .other := by
  rw [kind, tokens?_cons, h, Option.bind_some]
  cases tokens? r with
  | none => rfl
  | some ts =>
    rw [Option.map_some, if_neg (by simp)]
    cases hw : keyword? w with
    | none => simp [kindOf, hw]
    | some keyword =>
      cases keyword with
      | statement k => simp [kindOf, hw]
      | «with» => exact absurd hw hwith

end Agora.Sql

namespace Agora.Reply

open Agora.Sql

theorem takeWhile_eq_nil_iff_head {p : Char → Bool} {s : List Char} :
    s.takeWhile p = [] ↔ s.head?.any p = false := by
  cases s with
  | nil => simp
  | cons c s => by_cases hc : p c <;> simp [hc]

theorem leadingKeyword?_firstLine {s : List Char} (h : ∀ c ∈ s.head?, Text.isBlank c = false) :
    leadingKeyword? (firstLine s) = keywordOf? (s.takeWhile Ascii.isLetter) := by
  have hstart : Text.trimStart (firstLine s) = firstLine s := by
    cases s with
    | nil => rfl
    | cons c s =>
      have hc : Text.isBlank c = false := h c rfl
      by_cases hn : c = '\n' <;> simp [firstLine, Text.trimStart, hn, hc]
  rw [leadingKeyword?, hstart, letters_firstLine]

/-- A reply that starts with a keyword is let pass, and the kind that is recorded is the one that
the keyword tells, unless the text has no tokens or the keyword runs on. -/
theorem recorded_kind_agrees {raw k : String}
    (hk : leadingKeyword? (firstLine (clean raw.toList)) = some k) (hwith : k ≠ "WITH")
    (options : CompilerOptions) (params : List Scalar) :
    let s := clean raw.toList
    options.statementOf raw params = .ok { sql := String.ofList s, params, kind := kind s } ∧
      kind s =
        if tokens? s = none then .unknown
        else if s[k.length]?.any isWordPart then .other
        else keywordKind k := by
  intro s
  have hstarts : startsWithStatement s := by rw [startsWithStatement, hk]; rfl
  have hword : keywordOf? (s.takeWhile Ascii.isLetter) = some k := by
    rw [← leadingKeyword?_firstLine (isClean_clean raw.toList).blank_free_start, hk]
  generalize hw : s.takeWhile Ascii.isLetter = w at hword
  generalize hr : s.dropWhile Ascii.isLetter = r
  have hs : s = w ++ r := by rw [← hw, ← hr, List.takeWhile_append_dropWhile]
  have hlength : k.length = w.length := by
    have hupper : k.toList = w.map Ascii.toUpper := by simpa using List.find?_some hword
    rw [← String.length_toList, hupper, List.length_map]
  have hbehind : s[k.length]? = r.head? := by
    rw [hs, hlength, List.getElem?_append_right (Nat.le_refl _), Nat.sub_self, List.head?_eq_getElem?]
  obtain ⟨c, t, hct, hnext⟩ := next?_keyword hword r
  refine ⟨by simp [CompilerOptions.statementOf, s, hstarts], ?_⟩
  rw [hbehind, hs, hct]
  cases hrun : r.takeWhile isWordPart with
  | nil =>
    have hstop : r.head?.any isWordPart = false := takeWhile_eq_nil_iff_head.1 hrun
    rw [hrun, List.append_nil] at hnext
    rw [kind_of_word hnext (by simp [keyword?_eq hword hwith]), keyword?_eq hword hwith, hstop]
    rfl
  | cons d v =>
    have hgoes : r.head?.any isWordPart := by
      rw [← Bool.not_eq_false, ← takeWhile_eq_nil_iff_head, hrun]
      simp
    have hnone := keyword?_append hword (v := d :: v) (by simp)
    rw [hrun] at hnext
    rw [kind_of_word hnext (by simp [hnone]), hnone, if_pos hgoes]

theorem recorded_kind_agrees_fenced :
    let raw := String.ofList [backtick, backtick, backtick, 's', 'q', 'l', '\n', 'd', 'e', 'l',
      'e', 't', 'e', '\x22', 'a', '\x22', '\n', backtick, backtick, backtick]
    let s := clean raw.toList
    (leadingKeyword? (firstLine s) = some "DELETE" ∧ "DELETE" ≠ "WITH") ∧
      CompilerOptions.statementOf {} raw [] =
        .ok { sql := "delete\x22a\x22", params := [], kind := .write } := by
  intro raw s
  have hs : clean raw.toList = ['d', 'e', 'l', 'e', 't', 'e', '\x22', 'a', '\x22'] := by
    decide +kernel
  have hk : leadingKeyword? (firstLine (clean raw.toList)) = some "DELETE" := by
    rw [hs]
    decide
  have hwith : "DELETE" ≠ "WITH" := by decide
  obtain ⟨hstatement, hkind⟩ := recorded_kind_agrees hk hwith {} []
  have htokens : tokens? (clean raw.toList) = some [.word "delete".toList, .name] := by
    rw [hs]
    decide +kernel
  have hwrite : kind (clean raw.toList) = .write := by
    rw [hkind, htokens, if_neg (by simp), if_neg (by rw [hs]; decide)]
    rfl
  refine ⟨⟨hk, hwith⟩, hstatement.trans ?_⟩
  rw [hwrite, hs]

end Agora.Reply
