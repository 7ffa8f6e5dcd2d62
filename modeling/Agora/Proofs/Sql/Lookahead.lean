import Mathlib.Data.List.TakeWhile
import Agora.Sql.Token
/-!
What ends a token is in the token itself or right behind it, and to a token a semicolon looks like
the end of the text.
-/
namespace Agora.Sql

def unsigned (s : List Char) : List Char :=
  if s.head? = some '+' then s.drop 1 else if s.head? = some '-' then s.drop 1 else s

def startsDigits (s : List Char) : Bool :=
  (unsigned s).head?.any Digits.isDigit

def startsExponent (s : List Char) : Bool :=
  s.head?.any (fun c => c = 'e' || c = 'E') && startsDigits (s.drop 1)

/-- Texts that look the same to a token that ends before them. -/
structure Alike (s u : List Char) : Prop where
  head : ∀ p : Char → Bool, p ';' = false → s.head?.any p = u.head?.any p
  digits : startsDigits s = startsDigits u
  exponent : startsExponent s = startsExponent u

namespace Alike

variable {s u : List Char}

theorem refl (s : List Char) : Alike s s :=
  ⟨fun _ _ => rfl, rfl, rfl⟩

theorem end_semicolon (s : List Char) : Alike [] (';' :: s) where
  head p hp := by simp [hp]
  digits := rfl
  exponent := rfl

theorem cons (h : Alike s u) (c : Char) : Alike (c :: s) (c :: u) where
  head _ _ := rfl
  digits := by
    simp only [startsDigits, unsigned, List.head?_cons, List.drop_succ_cons, List.drop_zero]
    split
    · exact h.head _ rfl
    · split
      · exact h.head _ rfl
      · rfl
  exponent := by simp [startsExponent, h.digits]

theorem append (h : Alike s u) (m : List Char) : Alike (m ++ s) (m ++ u) := by
  induction m with
  | nil => exact h
  | cons c m ih => exact ih.cons c

theorem head_eq_iff (h : Alike s u) {c : Char} (hc : c ≠ ';') :
    s.head? = some c ↔ u.head? = some c := by
  have hany (t : List Char) : t.head?.any (· = c) ↔ t.head? = some c := by
    cases t <;> simp
  rw [← hany s, ← hany u, h.head (· = c) (by simpa using hc.symm)]

theorem start_eq (h : Alike s u) (c : Char) : Start.of c s.head? = Start.of c u.head? := by
  simp only [Start.of, h.head_eq_iff (show apostrophe ≠ ';' by decide),
    h.head_eq_iff (show '-' ≠ ';' by decide), h.head_eq_iff (show '*' ≠ ';' by decide)]

end Alike

/-- Readers that take the same piece off a text whatever comes next, as long as it looks alike. -/
def Local (f : List Char → Option (List Char)) : Prop :=
  ∀ s r, f s = some r → ∃ m, s = m ++ r ∧ ∀ u, Alike r u → f (m ++ u) = some u

namespace Local

variable {f g : List Char → Option (List Char)}

theorem stay : Local some := by
  rintro s _ ⟨⟩
  exact ⟨[], rfl, fun _ _ => rfl⟩

theorem bind (hf : Local f) (hg : Local g) : Local fun s => (f s).bind g := by
  intro s r h
  obtain ⟨t, hft, hgr⟩ := Option.bind_eq_some_iff.1 h
  obtain ⟨m, rfl, hm⟩ := hf s t hft
  obtain ⟨n, rfl, hn⟩ := hg t r hgr
  refine ⟨m ++ n, by simp, fun u hu => ?_⟩
  simp [hm (n ++ u) (hu.append n), hn u hu]

theorem ite {b : List Char → Prop} [DecidablePred b] (hb : ∀ {s u}, Alike s u → (b s ↔ b u))
    (hf : Local f) (hg : Local g) : Local fun s => if b s then f s else g s := by
  intro s r h
  dsimp only at h ⊢
  by_cases hs : b s
  · rw [if_pos hs] at h
    obtain ⟨m, rfl, hm⟩ := hf s r h
    exact ⟨m, rfl, fun u hu => (if_pos ((hb (hu.append m)).1 hs)).trans (hm u hu)⟩
  · rw [if_neg hs] at h
    obtain ⟨m, rfl, hm⟩ := hg s r h
    exact ⟨m, rfl, fun u hu => (if_neg (mt (hb (hu.append m)).2 hs)).trans (hm u hu)⟩

theorem tail (hf : Local f) {c : Char} (hc : c ≠ ';') (hg : Local g) :
    Local fun s => if s.head? = some c then f (s.drop 1) else g s := by
  intro s r h
  dsimp only at h ⊢
  by_cases hs : s.head? = some c
  · obtain ⟨s, rfl⟩ := List.head?_eq_some_iff.1 hs
    rw [if_pos hs] at h
    obtain ⟨m, rfl, hm⟩ := hf s r h
    exact ⟨c :: m, rfl, fun u hu => (if_pos rfl).trans (hm u hu)⟩
  · rw [if_neg hs] at h
    obtain ⟨m, rfl, hm⟩ := hg s r h
    exact ⟨m, rfl, fun u hu => (if_neg (mt ((hu.append m).head_eq_iff hc).2 hs)).trans (hm u hu)⟩

theorem dropWhile {p : Char → Bool} (hp : p ';' = false) : Local fun s => some (s.dropWhile p) := by
  rintro s _ ⟨⟩
  refine ⟨s.takeWhile p, List.takeWhile_append_dropWhile.symm, fun u hu => ?_⟩
  have hhead : u.head?.any p = false := by
    rw [← hu.head p hp]
    have hnot := List.head?_dropWhile_not p s
    cases h : (s.dropWhile p).head? <;> simp_all
  have hstop : u.dropWhile p = u := by
    cases u with
    | nil => rfl
    | cons c u => exact List.dropWhile_cons_of_neg (by simpa using hhead)
  dsimp only
  rw [List.dropWhile_append_of_pos fun c hc => List.mem_takeWhile_imp hc, hstop]

end Local

section Numerals

theorem local_unsigned : Local fun s => some (unsigned s) := by
  have h := Local.stay.tail (show '+' ≠ ';' by decide)
    (Local.stay.tail (show '-' ≠ ';' by decide) Local.stay)
  have heq : (fun s => some (unsigned s)) = fun s : List Char =>
      if s.head? = some '+' then some (s.drop 1)
      else if s.head? = some '-' then some (s.drop 1) else some s := by
    funext s
    simp only [unsigned, apply_ite some]
  rwa [heq]

def afterLetter? (s : List Char) : Option (List Char) :=
  if startsExponent s then some (s.drop 1) else none

theorem local_afterLetter? : Local afterLetter? := by
  intro s r h
  cases s with
  | nil => cases h
  | cons c s =>
    obtain ⟨hstarts, heq⟩ : startsExponent (c :: s) ∧ s = r := by simpa [afterLetter?] using h
    subst heq
    refine ⟨[c], rfl, fun u hu => ?_⟩
    have hu' : startsExponent (c :: u) := by rwa [← (hu.cons c).exponent]
    simp [afterLetter?, hu']

theorem getD_map_head? (p : Char → Bool) (s : List Char) :
    (s.head?.map p).getD false = s.head?.any p := by
  cases s <;> rfl

theorem afterExponent_cons (c : Char) (s : List Char) : afterExponent (c :: s) =
    if startsExponent (c :: s) then (unsigned s).dropWhile Digits.isDigit else c :: s := by
  have hunsigned : (if s.head? = some '+' || s.head? = some '-' then s.drop 1 else s) =
      unsigned s := by
    by_cases hplus : s.head? = some '+' <;> simp [unsigned, hplus]
  have hstarts : startsExponent (c :: s) =
      ((c = 'e' || c = 'E') && (unsigned s).head?.any Digits.isDigit) := rfl
  rw [hstarts]
  simp only [afterExponent, getD_map_head?, hunsigned]
  by_cases hc : (c = 'e' || c = 'E') = true
  · simp only [hc, if_true, Bool.true_and]
  · simp only [hc, Bool.false_and, if_false, Bool.false_eq_true]

theorem afterExponent_eq (s : List Char) : some (afterExponent s) =
    if startsExponent s then
      (afterLetter? s).bind fun s => some ((unsigned s).dropWhile Digits.isDigit)
    else some s := by
  cases s with
  | nil => rfl
  | cons c s =>
    rw [afterExponent_cons]
    split <;> simp [afterLetter?, *]

theorem local_afterExponent : Local fun s => some (afterExponent s) := by
  have h := Local.ite (b := fun s => startsExponent s) (fun hsu => by rw [hsu.exponent])
    (local_afterLetter?.bind (local_unsigned.bind (.dropWhile (p := Digits.isDigit) rfl)))
    Local.stay
  rwa [funext afterExponent_eq]

theorem local_afterSuffix : Local fun s => some (afterSuffix s) := by
  have h := Local.stay.tail (show 'L' ≠ ';' by decide) Local.stay
  have heq : (fun s => some (afterSuffix s)) =
      fun s : List Char => if s.head? = some 'L' then some (s.drop 1) else some s := by
    funext s
    simp only [afterSuffix, apply_ite some]
  rwa [heq]

def afterFraction (s : List Char) : List Char :=
  afterSuffix (afterExponent (if s.head? = some '.' then (s.drop 1).dropWhile Digits.isDigit else s))

theorem local_afterEnd : Local fun s => some (afterSuffix (afterExponent s)) :=
  local_afterExponent.bind local_afterSuffix

theorem local_afterFraction : Local fun s => some (afterFraction s) := by
  have hdigits : Local fun s => some (s.dropWhile Digits.isDigit) := .dropWhile rfl
  have h := (hdigits.tail (show '.' ≠ ';' by decide) Local.stay).bind local_afterEnd
  have heq : (fun s => some (afterFraction s)) = fun s : List Char =>
      (if s.head? = some '.' then some ((s.drop 1).dropWhile Digits.isDigit) else some s).bind
        fun s => some (afterSuffix (afterExponent s)) := by
    funext s
    simp only [afterFraction]
    split <;> rfl
  rwa [heq]

theorem local_afterNumeral (c : Char) : Local fun s => some (afterNumeral c s) := by
  have hdigits : Local fun s => some (s.dropWhile Digits.isDigit) := .dropWhile rfl
  have hhex : Local fun s => some (s.dropWhile Hex.isDigit) := .dropWhile rfl
  by_cases hpoint : c = '.'
  · have h := Local.ite (b := fun s => s.head?.any Digits.isDigit)
      (fun hsu => by rw [hsu.head Digits.isDigit rfl]) (hdigits.bind local_afterEnd) Local.stay
    have heq : (fun s => some (afterNumeral c s)) = fun s : List Char =>
        if s.head?.any Digits.isDigit then
          (some (s.dropWhile Digits.isDigit)).bind fun s => some (afterSuffix (afterExponent s))
        else some s := by
      funext s
      simp only [afterNumeral, hpoint, if_true, getD_map_head?]
      split <;> rfl
    rwa [heq]
  have hdecimal := hdigits.bind local_afterFraction
  have hnumeral (s : List Char) : afterNumeral c s =
      if c = '0' ∧ s.head? = some 'x' then (s.drop 1).dropWhile Hex.isDigit
      else afterFraction (s.dropWhile Digits.isDigit) := by
    simp only [afterNumeral, afterFraction, if_neg hpoint]
    split
    · rfl
    · split <;> rfl
  by_cases hzero : c = '0'
  · have h := hhex.tail (show 'x' ≠ ';' by decide) hdecimal
    have heq : (fun s => some (afterNumeral c s)) = fun s : List Char =>
        if s.head? = some 'x' then some ((s.drop 1).dropWhile Hex.isDigit)
        else (some (s.dropWhile Digits.isDigit)).bind fun s => some (afterFraction s) := by
      funext s
      rw [hnumeral]
      simp only [hzero, true_and]
      split <;> rfl
    rwa [heq]
  · have heq : (fun s => some (afterNumeral c s)) = fun s : List Char =>
        (some (s.dropWhile Digits.isDigit)).bind fun s => some (afterFraction s) := by
      funext s
      rw [hnumeral, if_neg fun h => hzero h.1]
      rfl
    rwa [heq]

end Numerals

theorem afterOperator_of_head {c : Char} {s : List Char}
    (h : s.head?.any (isOperatorPair c) = false) : afterOperator c s = s := by
  cases s with
  | nil => rfl
  | cons d s =>
    have hpair : isOperatorPair c d = false := h
    have hbars : ¬(c = '|' ∧ d = '|' ∧ s.head? = some '/') := by
      rintro ⟨rfl, rfl, -⟩
      cases hpair
    rw [afterOperator, if_neg hbars, hpair]
    rfl

theorem local_afterOperator (c : Char) : Local fun s => some (afterOperator c s) := by
  have hsemicolon : isOperatorPair c ';' = false := by
    simp [isOperatorPair]
  rintro s _ ⟨⟩
  by_cases hpair : s.head?.any (isOperatorPair c)
  · obtain ⟨d, s, rfl⟩ : ∃ d t, s = d :: t := by
      cases s with
      | nil => cases hpair
      | cons d s => exact ⟨d, s, rfl⟩
    have hpair : isOperatorPair c d := hpair
    by_cases hbars : c = '|' ∧ d = '|' ∧ s.head? = some '/'
    · obtain ⟨s, rfl⟩ := List.head?_eq_some_iff.1 hbars.2.2
      have hstep (u : List Char) : afterOperator c (d :: '/' :: u) = u :=
        if_pos ⟨hbars.1, hbars.2.1, rfl⟩
      refine ⟨[d, '/'], ?_, fun u _ => congrArg some (hstep u)⟩
      rw [hstep]
      rfl
    · have hstep {u : List Char} (hu : Alike s u) : afterOperator c (d :: u) = u := by
        rw [hu.head_eq_iff (show '/' ≠ ';' by decide)] at hbars
        rw [afterOperator, if_neg hbars, if_pos hpair]
      rw [hstep (.refl s)]
      exact ⟨[d], rfl, fun u hu => congrArg some (hstep hu)⟩
  · rw [Bool.not_eq_true] at hpair
    rw [afterOperator_of_head hpair]
    exact ⟨[], rfl, fun u hu => congrArg some (afterOperator_of_head (hu.head _ hsemicolon ▸ hpair))⟩

end Agora.Sql
