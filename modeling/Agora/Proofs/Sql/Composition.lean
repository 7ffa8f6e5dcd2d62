import Agora.Proofs.Sql.Enclosed
import Agora.Sql.Lexer
/-!
A text is read from left to right, and a part keeps its tokens whatever comes next, as long as it
looks alike.
-/
namespace Agora.Sql

section Token

variable {c : Char} {s r : List Char} {t : Token}

theorem next?_of_local {k : Start} (hk : Start.of c s.head? = k)
    {f : List Char → Option (List Char)} (hf : Local f)
    (hnext : ∀ u, Start.of c u.head? = k → next? c u = (f u).map (t, ·))
    (h : f s = some r) : ∃ m, s = m ++ r ∧ ∀ u, Alike r u → next? c (m ++ u) = some (t, u) := by
  obtain ⟨m, rfl, hm⟩ := hf s r h
  refine ⟨m, rfl, fun u hu => ?_⟩
  rw [hnext _ ((hu.append m).start_eq c ▸ hk), hm u hu]
  rfl

theorem afterDollar?_parameter (h : (s.dropWhile isTagPart).head? ≠ some '$') :
    afterDollar? s = some (s.dropWhile isTagPart) := by
  have hdollar : s.head? ≠ some '$' := by
    intro hs
    obtain ⟨u, rfl⟩ := List.head?_eq_some_iff.1 hs
    rw [List.dropWhile_cons_of_neg (by simp [isTagPart_dollar])] at h
    exact h rfl
  unfold afterDollar?
  rw [if_neg hdollar]
  exact if_neg h

theorem next?_dollar (hk : Start.of c s.head? = .dollar)
    (h : (s.dropWhile isTagPart).head? ≠ some '$') :
    next? c s = some (.other, s.dropWhile isTagPart) := by
  unfold next?
  rw [hk]
  dsimp only
  rw [afterDollar?_parameter h]
  rfl

theorem next?_word (hk : Start.of c s.head? = .word) :
    next? c s = some (.word (c :: s.takeWhile isWordPart), s.dropWhile isWordPart) := by
  unfold next?
  rw [hk]

/-- A token is the same token before every text that looks like what follows it; a comment of one
line has to have its line break. -/
theorem next?_local (h : next? c s = some (t, r))
    (hline : Start.of c s.head? = .lineComment → '\n' ∈ s) :
    ∃ m, s = m ++ r ∧ ∀ u, Alike r u → next? c (m ++ u) = some (t, u) := by
  obtain ⟨k, hk⟩ : ∃ k, Start.of c s.head? = k := ⟨_, rfl⟩
  have enclosed (henc : k.encloses) (hbound : k.Bounded s) :
      ∃ m, s = m ++ r ∧ ∀ u, Alike r u → next? c (m ++ u) = some (t, u) := by
    obtain ⟨-, hstop, m, -, rfl, hm⟩ := next?_enclosed henc hk hbound h
    exact ⟨m, rfl, fun u hu => hm u (hstop.congr hk hu)⟩
  have simple {f : List Char → List Char} {t' : Token} (hf : Local fun s => some (f s))
      (hnext : ∀ u, Start.of c u.head? = k → next? c u = some (t', f u)) :
      ∃ m, s = m ++ r ∧ ∀ u, Alike r u → next? c (m ++ u) = some (t, u) := by
    cases (hnext s hk).symm.trans h
    exact next?_of_local hk hf hnext rfl
  cases k with
  | skippingString | escapedString | string | name | blockComment => exact enclosed rfl trivial
  | lineComment => exact enclosed rfl (hline hk)
  | dollar =>
    by_cases hdollar : (s.dropWhile isTagPart).head? = some '$'
    · exact enclosed rfl hdollar
    · cases (next?_dollar hk hdollar).symm.trans h
      obtain ⟨m, hs, hm⟩ := Local.dropWhile (p := isTagPart) (by decide +kernel) s _ rfl
      refine ⟨m, hs, fun u hu => ?_⟩
      have hrest : (m ++ u).dropWhile isTagPart = u := Option.some.inj (hm u hu)
      rw [hs, (hu.append m).start_eq c] at hk
      rw [next?_dollar hk, hrest]
      rw [hrest]
      exact mt (hu.head_eq_iff (by decide)).2 hdollar
  | word =>
    cases (next?_word hk).symm.trans h
    obtain ⟨m, hs, hm⟩ := Local.dropWhile (p := isWordPart) (by decide +kernel) s _ rfl
    have hword {v : List Char} (hv : (m ++ v).dropWhile isWordPart = v) :
        (m ++ v).takeWhile isWordPart = m := by
      have := List.takeWhile_append_dropWhile (p := isWordPart) (l := m ++ v)
      rw [hv] at this
      exact List.append_cancel_right this
    have hfirst : s.takeWhile isWordPart = m := by
      have := List.takeWhile_append_dropWhile (p := isWordPart) (l := s)
      exact List.append_cancel_right (this.trans hs)
    refine ⟨m, hs, fun u hu => ?_⟩
    have hrest : (m ++ u).dropWhile isWordPart = u := Option.some.inj (hm u hu)
    rw [hs, (hu.append m).start_eq c] at hk
    rw [next?_word hk, hfirst, hword hrest, hrest]
  | space | openParen | closeParen | semicolon =>
    exact simple Local.stay fun u hu => by rw [next?, hu]
  | numeral => exact simple (local_afterNumeral c) fun u hu => by rw [next?, hu]
  | placeholder =>
    exact simple (.dropWhile (p := Text.isNumeric) (by decide +kernel)) fun u hu => by rw [next?, hu]
  | operator => exact simple (local_afterOperator c) fun u hu => by rw [next?, hu]

end Token

theorem next?_suffix {c : Char} {s r : List Char} {t : Token} (h : next? c s = some (t, r)) :
    r <:+ s := by
  by_cases hline : Start.of c s.head? = .lineComment → '\n' ∈ s
  · obtain ⟨m, rfl, -⟩ := next?_local h hline
    exact List.suffix_append m r
  · obtain ⟨hk, -⟩ := Classical.not_imp.1 hline
    cases (next?_of_encloses rfl hk).symm.trans h
    exact (List.drop_suffix _ _).trans
      ((List.dropWhile_suffix _).trans (List.drop_suffix _ _))

inductive Lexes : List Char → List Token → List Char → Prop
  | nil (s) : Lexes s [] s
  | cons {c s t r ts u} : next? c s = some (t, r) → Lexes r ts u → Lexes (c :: s) (t :: ts) u

theorem tokens?_cons (c : Char) (s : List Char) :
    tokens? (c :: s) = (next? c s).bind fun p => (tokens? p.2).map (p.1 :: ·) := by
  rw [tokens?]
  split <;> simp_all

namespace Lexes

variable {s u v : List Char} {ts us : List Token}

theorem trans (h : Lexes s ts u) (h' : Lexes u us v) : Lexes s (ts ++ us) v := by
  induction h with
  | nil => exact h'
  | cons hnext _ ih => exact .cons hnext (ih h')

theorem tokens?_eq (h : Lexes s ts u) : tokens? s = (tokens? u).map (ts ++ ·) := by
  induction h with
  | nil s => cases tokens? s <;> rfl
  | cons hnext _ ih =>
    rw [tokens?_cons, hnext, Option.bind_some, ih, Option.map_map]
    rfl

theorem suffix (h : Lexes s ts u) : u <:+ s := by
  induction h with
  | nil s => exact List.suffix_refl s
  | cons hnext _ ih => exact (ih.trans (next?_suffix hnext)).trans (List.suffix_cons _ _)

theorem of_tokens? (h : tokens? s = some ts) : Lexes s ts [] := by
  fun_induction tokens? s generalizing ts with
  | case1 =>
    cases h
    exact .nil []
  | case2 => cases h
  | case3 c s t r hnext _ ih =>
    obtain ⟨ts, hts, rfl⟩ := Option.map_eq_some_iff.1 h
    exact .cons hnext (ih hts)

theorem tokens?_eq_some (h : Lexes s ts []) : tokens? s = some ts := by
  rw [h.tokens?_eq, tokens?]
  simp

end Lexes

def EndsInLineComment (s : List Char) : Prop :=
  ∃ ts q, Lexes s ts ('-' :: '-' :: q) ∧ '\n' ∉ q

theorem not_endsInLineComment {s : List Char} (h : ¬['-', '-'] <:+: s) : ¬EndsInLineComment s := by
  rintro ⟨ts, q, hq, -⟩
  exact h ((List.prefix_append ['-', '-'] q).isInfix.trans hq.suffix.isInfix)

theorem Start.dashes {c : Char} {next : Option Char} (h : Start.of c next = .lineComment) :
    c = '-' ∧ next = some '-' := by
  by_contra hdashes
  have hnot : (c = '-' && next = some '-') = false := by
    rw [← Bool.not_eq_true, Bool.and_eq_true, decide_eq_true_eq, decide_eq_true_eq]
    exact hdashes
  revert h
  simp only [Start.of, hnot, Bool.false_eq_true, if_false, apply_ite (· = Start.lineComment),
    reduceCtorEq, ite_self, imp_self]

theorem afterLine_eq_nil {s : List Char} (h : '\n' ∉ s) : afterLine s = [] := by
  have : s.dropWhile (· ≠ '\n') = [] := by
    rw [List.dropWhile_eq_nil_iff]
    intro c hc
    exact decide_eq_true fun h' => h (h' ▸ hc)
  rw [afterLine, this]
  rfl

theorem Lexes.rest {s u : List Char} {ts : List Token} (h : Lexes s ts u)
    (hline : u = [] → ¬EndsInLineComment s) :
    ∃ p, s = p ++ u ∧ ∀ u', Alike u u' → Lexes (p ++ u') ts u' := by
  induction h with
  | nil s => exact ⟨[], rfl, fun u' _ => .nil u'⟩
  | @cons c s t r ts u hnext htail ih =>
    obtain ⟨p, rfl, hp⟩ := ih fun hu ⟨us, q, hq, hopen⟩ =>
      hline hu ⟨t :: us, q, .cons hnext hq, hopen⟩
    have hbreak : Start.of c s.head? = .lineComment → '\n' ∈ s := by
      intro hk
      by_contra hopen
      obtain ⟨rfl, hdash⟩ := Start.dashes hk
      obtain ⟨q, rfl⟩ := List.head?_eq_some_iff.1 hdash
      have hq : '\n' ∉ q := fun h => hopen (List.mem_cons_of_mem _ h)
      have hcomment : next? '-' ('-' :: q) = some (.blank, afterLine q) := rfl
      rw [hcomment, afterLine_eq_nil hq, Option.some.injEq, Prod.mk.injEq] at hnext
      exact hline (List.append_eq_nil_iff.1 hnext.2.symm).2 ⟨[], q, .nil _, hq⟩
    obtain ⟨m, rfl, hm⟩ := next?_local hnext hbreak
    refine ⟨c :: (m ++ p), by simp, fun u' hu => ?_⟩
    rw [List.cons_append, List.append_assoc]
    exact .cons (hm _ (hu.append p)) (hp u' hu)

theorem tokens?_append_semicolon {a b : List Char} {ts us : List Token} (ha : tokens? a = some ts)
    (hline : ¬EndsInLineComment a) (hb : tokens? b = some us) :
    tokens? (a ++ ';' :: b) = some (ts ++ .semicolon :: us) := by
  obtain ⟨p, hp, hrest⟩ := (Lexes.of_tokens? ha).rest fun _ => hline
  rw [List.append_nil] at hp
  subst hp
  have hsemicolon : Lexes (';' :: b) (.semicolon :: us) [] := .cons rfl (.of_tokens? hb)
  exact ((hrest _ (.end_semicolon b)).trans hsemicolon).tokens?_eq_some

section Encloser

def encloserChars : List Char :=
  ['n', 'N', 'x', 'X', 'e', 'E', apostrophe, '\x22', '\x60', '[', '-', '/', '$']

variable {c : Char} {s : List Char}

theorem Start.encloses_ite {p : Prop} [Decidable p] {k l : Start} (hk : k.encloses = false)
    (hl : l.encloses = false) : (if p then k else l).encloses = false := by
  rw [apply_ite Start.encloses, hk, hl, ite_self]

theorem Start.mem_encloserChars {next : Option Char} (h : (Start.of c next).encloses) :
    c ∈ encloserChars := by
  by_contra hc
  simp only [encloserChars, List.mem_cons, List.not_mem_nil, or_false, not_or] at hc
  obtain ⟨h₁, h₂, h₃, h₄, h₅, h₆, h₇, h₈, h₉, h₁₀, h₁₁, h₁₂, h₁₃⟩ := hc
  have hnot : (Start.of c next).encloses = false := by
    simp only [Start.of, h₁, h₂, h₃, h₄, h₅, h₆, h₇, h₈, h₉, h₁₀, h₁₁, h₁₂, h₁₃, decide_false,
      Bool.or_false, Bool.false_and, Bool.false_eq_true, if_false]
    repeat' apply encloses_ite
    all_goals rfl
  exact Bool.false_ne_true (hnot.symm.trans h)

theorem Start.head_of_encloses {d : Char} {k l : Start} (hl : l.encloses = false)
    (hof : Start.of c s.head? = if decide (s.head? = some d) then k else l)
    (h : (Start.of c s.head?).encloses) : ∃ t, s = d :: t := by
  rw [hof] at h
  split at h
  · rename_i hd
    exact List.head?_eq_some_iff.1 (of_decide_eq_true hd)
  · cases hl.symm.trans h

theorem Start.startsDigits_of_encloses (h : (Start.of c s.head?).encloses) :
    startsDigits (c :: s) = false := by
  by_cases hdash : c = '-'
  · subst hdash
    obtain ⟨t, rfl⟩ := head_of_encloses (k := .lineComment) (l := .operator) rfl rfl h
    rfl
  · have hc := Start.mem_encloserChars h
    simp only [encloserChars, List.mem_cons, List.not_mem_nil, or_false] at hc
    rcases hc with rfl | rfl | rfl | rfl | rfl | rfl | rfl | rfl | rfl | rfl | rfl | rfl | rfl <;>
      first
      | rfl
      | exact absurd rfl hdash

theorem Start.startsExponent_of_encloses (h : (Start.of c s.head?).encloses) :
    startsExponent (c :: s) = false := by
  by_cases hc : c = 'e' ∨ c = 'E'
  · obtain ⟨t, rfl⟩ : ∃ t, s = apostrophe :: t := by
      rcases hc with rfl | rfl <;>
        exact head_of_encloses (k := .escapedString) (l := .word) rfl rfl h
    rcases hc with rfl | rfl <;> rfl
  · simp [startsExponent, not_or.1 hc]

end Encloser

structure Piece (k : Start) (c : Char) (s : List Char) : Prop where
  start : Start.of c s.head? = k
  encloses : k.encloses
  bounded : k.Bounded s
  whole : next? c s = some (k.token, [])

namespace Piece

variable {k : Start} {c : Char} {s s' q : List Char}

theorem ne_nil (h : Piece k c s) : s ≠ [] := by
  obtain ⟨-, -, m, hm, rfl, -⟩ := next?_enclosed h.encloses h.start h.bounded h.whole
  simpa using hm

theorem next?_append (h : Piece k c s) (hq : k.Stops q) : next? c (s ++ q) = some (k.token, q) := by
  obtain ⟨-, -, m, -, hs, hm⟩ := next?_enclosed h.encloses h.start h.bounded h.whole
  rw [List.append_nil] at hs
  subst hs
  exact hm q hq

theorem start_append (h : Piece k c s) (q : List Char) : Start.of c (s ++ q).head? = k := by
  rw [head?_append_of_ne_nil h.ne_nil q [], List.append_nil]
  exact h.start

theorem bounded_append (h : Piece k c s) (q : List Char) : k.Bounded (s ++ q) := by
  have hbound := h.bounded
  cases k with
  | lineComment => exact List.mem_append_left q hbound
  | dollar =>
    obtain ⟨t, ht⟩ := List.head?_eq_some_iff.1 hbound
    rw [Start.Bounded, List.dropWhile_append, ht]
    rfl
  | _ => trivial

theorem stops (h : Piece k c s) {t : Token} (htoken : Lexes (c :: (s ++ q)) [t] q) :
    t = k.token ∧ k.Stops q := by
  cases htoken with
  | cons hnext htail =>
    cases htail
    obtain ⟨ht, hstop, -⟩ :=
      next?_enclosed h.encloses (h.start_append q) (h.bounded_append q) hnext
    exact ⟨ht, hstop⟩

theorem startsDigits_eq_false (h : Piece k c s) (q : List Char) :
    startsDigits (c :: (s ++ q)) = false :=
  Start.startsDigits_of_encloses (by rw [h.start_append]; exact h.encloses)

theorem startsExponent_eq_false (h : Piece k c s) (q : List Char) :
    startsExponent (c :: (s ++ q)) = false :=
  Start.startsExponent_of_encloses (by rw [h.start_append]; exact h.encloses)

theorem alike (h : Piece k c s) (h' : Piece k c s') (q : List Char) :
    Alike (c :: (s ++ q)) (c :: (s' ++ q)) where
  head _ _ := rfl
  digits := (h.startsDigits_eq_false q).trans (h'.startsDigits_eq_false q).symm
  exponent := (h.startsExponent_eq_false q).trans (h'.startsExponent_eq_false q).symm

theorem tokens?_replace (h : Piece k c s) (h' : Piece k c s') {p : List Char} {ts : List Token}
    {t : Token} (hbefore : Lexes (p ++ c :: (s ++ q)) ts (c :: (s ++ q)))
    (htoken : Lexes (c :: (s ++ q)) [t] q) :
    tokens? (p ++ c :: (s ++ q)) = tokens? (p ++ c :: (s' ++ q)) := by
  obtain ⟨p', hp, hrest⟩ := hbefore.rest nofun
  obtain rfl := List.append_cancel_right hp
  obtain ⟨rfl, hstop⟩ := h.stops htoken
  have htoken' : Lexes (c :: (s' ++ q)) [k.token] q := .cons (h'.next?_append hstop) (.nil q)
  rw [(hbefore.trans htoken).tokens?_eq, ((hrest _ (h.alike h' q)).trans htoken').tokens?_eq]

end Piece

end Agora.Sql
