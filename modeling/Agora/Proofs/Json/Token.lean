import Agora.Json.Printer
import Agora.Json.Token
import Agora.Proofs.Number.Digits

namespace Agora.Hex

theorem value?_digit : ∀ n < 16, value? (digit n) = some n := by
  decide

end Agora.Hex

namespace Agora.Digits

theorem head?_ofNat_ne_zero (n : Nat) (h : n ≠ 0) : (ofNat n).head? ≠ some '0' := by
  induction n using ofNat.induct with
  | case1 n hlt =>
    have hchar : ∀ d < 10, d ≠ 0 → Char.ofNat ('0'.toNat + d) ≠ '0' := by decide
    rw [ofNat, if_pos hlt]
    simpa using hchar n hlt h
  | case2 n hlt ih =>
    obtain ⟨c, ds, hc⟩ := List.exists_cons_of_ne_nil (ofNat_ne_nil (n / 10))
    have hhead := ih (by omega)
    rw [hc] at hhead
    rw [ofNat, if_neg hlt, hc]
    exact hhead

theorem dropWhile_numeral {ds x : List Char} (hds : ∀ c ∈ ds, isDigit c) (hx : EndsNumeral x) :
    (ds ++ x).dropWhile isDigit = x := by
  have hsplit := List.takeWhile_append_dropWhile (p := isDigit) (l := ds ++ x)
  rw [takeWhile_numeral hds hx] at hsplit
  exact List.append_cancel_left hsplit

end Agora.Digits

namespace Agora.Json

section String

inductive Written (c : Char) : Prop where
  | escaped (code : List Char) (hcode : escapeChar c = '\x5c' :: code)
      (hread : ∀ s, escape? (code ++ s) = some (c, s))
  | plain (hself : escapeChar c = [c]) (hquote : c ≠ '\x22') (hbackslash : c ≠ '\x5c')
      (hcontrol : ¬ c.toNat < 0x20)

theorem escape?_control {c : Char} (h : c.toNat < 0x20) (s : List Char) :
    escape? (['u', '0', '0', Hex.digit (c.toNat / 16), Hex.digit (c.toNat % 16)] ++ s) =
      some (c, s) := by
  have hhigh := Hex.value?_digit (c.toNat / 16) (by omega)
  have hlow := Hex.value?_digit (c.toNat % 16) (by omega)
  have hnumber : ((0 * 16 + 0) * 16 + c.toNat / 16) * 16 + c.toNat % 16 = c.toNat := by omega
  have hhex : hex4? ('0' :: '0' :: Hex.digit (c.toNat / 16) :: Hex.digit (c.toNat % 16) :: s) =
      some (c.toNat, s) := by
    simp [hex4?, hhigh, hlow, show Hex.value? '0' = some 0 by decide]
    omega
  have hpair : isHighSurrogate c.toNat = false ∧ isLowSurrogate c.toNat = false := by
    simp only [isHighSurrogate, isLowSurrogate, Bool.and_eq_false_iff, decide_eq_false_iff_not]
    omega
  have hnumeric : numericEscape?
      ('0' :: '0' :: Hex.digit (c.toNat / 16) :: Hex.digit (c.toNat % 16) :: s) = some (c, s) := by
    simp [numericEscape?, hhex, hpair, Char.ofNat_toNat]
  simpa [escape?] using hnumeric

theorem written (c : Char) : Written c := by
  by_cases hquote : c = '\x22'
  · exact .escaped ['\x22'] (by simp [escapeChar, hquote]) fun s => by simp [escape?, hquote]
  by_cases hbackslash : c = '\x5c'
  · exact .escaped ['\x5c'] (by simp [escapeChar, hbackslash]) fun s => by
      simp [escape?, hbackslash]
  by_cases hb : c = '\x08'
  · exact .escaped ['b'] (by simp [escapeChar, hb]) fun s => by simp [escape?, hb]
  by_cases hf : c = '\x0c'
  · exact .escaped ['f'] (by simp [escapeChar, hf]) fun s => by simp [escape?, hf]
  by_cases hn : c = '\n'
  · exact .escaped ['n'] (by simp [escapeChar, hn]) fun s => by simp [escape?, hn]
  by_cases hr : c = '\r'
  · exact .escaped ['r'] (by simp [escapeChar, hr]) fun s => by simp [escape?, hr]
  by_cases ht : c = '\t'
  · exact .escaped ['t'] (by simp [escapeChar, ht]) fun s => by simp [escape?, ht]
  by_cases hcontrol : c.toNat < 0x20
  · exact .escaped _ (by simp [escapeChar, *]) (escape?_control hcontrol)
  · exact .plain (by simp [escapeChar, *]) hquote hbackslash hcontrol

theorem stringTail?_escape {c : Char} {r s : List Char} (h : escape? r = some (c, s)) :
    stringTail? ('\x5c' :: r) = (stringTail? s).map fun t => (c :: t.1, t.2) := by
  rw [stringTail?, if_neg (by decide), if_pos rfl]
  split
  · rename_i hnone
    rw [h] at hnone
    cases hnone
  · rename_i hsome
    cases hsome.symm.trans h
    rfl

theorem stringTail?_char (c : Char) (s : List Char) :
    stringTail? (escapeChar c ++ s) = (stringTail? s).map fun t => (c :: t.1, t.2) := by
  cases written c with
  | escaped code hcode hread =>
    rw [hcode, List.cons_append]
    exact stringTail?_escape (hread s)
  | plain hself hquote hbackslash hcontrol =>
    rw [hself, List.singleton_append, stringTail?, if_neg hquote, if_neg hbackslash,
      if_neg hcontrol]

theorem stringTail?_written (text rest : List Char) :
    stringTail? (text.flatMap escapeChar ++ '\x22' :: rest) = some (text, rest) := by
  induction text with
  | nil => rw [List.flatMap_nil, List.nil_append, stringTail?, if_pos rfl]
  | cons c text ih =>
    rw [List.flatMap_cons, List.append_assoc, stringTail?_char, ih, Option.map_some]

end String

theorem tokens?_cons {c : Char} {s rest : List Char} {t : Token} (hc : isSpace c = false)
    (h : next? c s = some (t, rest)) : tokens? (c :: s) = (tokens? rest).map (t :: ·) := by
  rw [tokens?, if_neg (by simp [hc])]
  split
  · rename_i hnone
    rw [h] at hnone
    cases hnone
  · rename_i hsome
    cases hsome.symm.trans h
    rfl

theorem tokens?_renderString (text : String) (rest : List Char) :
    tokens? (renderString text ++ rest) = (tokens? rest).map (.str text :: ·) := by
  rw [renderString, List.cons_append, List.cons_append, List.append_assoc, List.singleton_append]
  refine tokens?_cons (by decide) ?_
  rw [next?]
  simp [stringTail?_written]

section Number

def EndsNumber (s : List Char) : Prop :=
  ∀ c ∈ s.head?, Digits.isDigit c = false ∧ c ≠ '.' ∧ c ≠ 'e' ∧ c ≠ 'E'

theorem EndsNumber.endsNumeral {s : List Char} (h : EndsNumber s) : Digits.EndsNumeral s :=
  fun c hc => (h c hc).1

theorem fraction?_none {s : List Char} (h : EndsNumber s) : fraction? s = some (none, s) := by
  cases s with
  | nil => rfl
  | cons c s =>
    have hpoint : c ≠ '.' := (h c rfl).2.1
    unfold fraction?
    split
    · rename_i heq
      exact absurd (List.cons.inj heq).1 hpoint
    · rfl

theorem exponent?_none {s : List Char} (h : EndsNumber s) : exponent? s = some (none, s) := by
  cases s with
  | nil => rfl
  | cons c s =>
    obtain ⟨-, -, hlower, hupper⟩ := h c rfl
    simp [exponent?, hlower, hupper]

theorem whole?_ofNat (n : Nat) {rest : List Char} (h : EndsNumber rest) :
    whole? (Digits.ofNat n ++ rest) = some (Digits.ofNat n, rest) := by
  have hspan : Digits.span (Digits.ofNat n ++ rest) = (Digits.ofNat n, rest) := by
    rw [Digits.span, Digits.takeWhile_numeral (Digits.isDigit_ofNat n) h.endsNumeral,
      Digits.dropWhile_numeral (Digits.isDigit_ofNat n) h.endsNumeral]
  unfold whole?
  rw [hspan]
  split
  · rename_i heq
    exact absurd (Prod.mk.inj heq).1 (Digits.ofNat_ne_nil n)
  · rename_i d ds rest' heq
    have hzero : (Digits.ofNat n).head? = some '0' := by rw [(Prod.mk.inj heq).1]; rfl
    obtain rfl : n = 0 := Classical.byContradiction fun hn =>
      Digits.head?_ofNat_ne_zero n hn hzero
    exact absurd (congrArg List.length (Prod.mk.inj heq).1) (by simp [Digits.ofNat])
  · rename_i heq
    rw [← (Prod.mk.inj heq).1, ← (Prod.mk.inj heq).2]

def Numeral.ofInt (i : Int) : Numeral where
  negative := decide (i < 0)
  whole := Digits.ofNat i.natAbs
  fraction := []
  isReal := false
  exponent := 0

theorem minus_of_ne {s : List Char} (h : s.head? ≠ some '-') : minus s = (false, s) := by
  unfold minus
  split
  · exact absurd rfl h
  · rfl

theorem numeral?_ofInt (i : Int) {rest : List Char} (h : EndsNumber rest) :
    numeral? (Digits.ofInt i ++ rest) = some (Numeral.ofInt i, rest) := by
  have hminus : minus (Digits.ofInt i ++ rest) =
      (decide (i < 0), Digits.ofNat i.natAbs ++ rest) := by
    rw [Digits.ofInt]
    split
    · rename_i hneg
      simp [minus, hneg]
    · rename_i hneg
      rw [minus_of_ne, decide_eq_false hneg]
      intro hhead
      obtain ⟨s, hs⟩ := List.head?_eq_some_iff.1 hhead
      exact Digits.minus_ne_ofNat_append hs.symm
  rw [numeral?, hminus, whole?_ofNat _ h]
  simp [fraction?_none h, exponent?_none h, Numeral.ofInt]

def FitsWord (i : Int) : Prop :=
  Digits.leastInt64 ≤ i ∧ i < UInt64.size

theorem value?_ofInt {i : Int} (h : FitsWord i) : (Numeral.ofInt i).value? = some (.int i) := by
  obtain ⟨hleast, hsize⟩ := h
  simp only [Numeral.value?, Numeral.ofInt, Digits.value_ofNat, Bool.false_eq_true, if_false,
    decide_eq_true_eq]
  by_cases hneg : i < 0
  · have habs : -(i.natAbs : Int) = i := by omega
    rw [if_pos hneg, if_neg (by omega), habs, if_pos hleast]
  · have habs : (i.natAbs : Int) = i := by omega
    rw [if_neg hneg, habs, if_pos (by omega)]

theorem ne_of_startsNumber {c d : Char} (hc : Digits.isDigit c ∨ c = '-')
    (hd : Digits.isDigit d = false ∧ d ≠ '-') : c ≠ d := by
  rintro rfl
  rcases hc with hc | hc
  · rw [hd.1] at hc
    cases hc
  · exact hd.2 hc

theorem next?_number {c : Char} (hc : Digits.isDigit c ∨ c = '-') (s : List Char) :
    next? c s = (numeral? (c :: s)).bind fun x => x.1.value?.map fun v => (.atom v, x.2) := by
  have hne (d : Char) := ne_of_startsNumber (d := d) hc
  simp (disch := decide) only [next?, hne, if_false]

theorem exists_ofInt_cons (i : Int) :
    ∃ c s, Digits.ofInt i = c :: s ∧ (Digits.isDigit c ∨ c = '-') := by
  rw [Digits.ofInt]
  split
  · exact ⟨'-', _, rfl, .inr rfl⟩
  · obtain ⟨c, s, hs⟩ := List.exists_cons_of_ne_nil (Digits.ofNat_ne_nil i.natAbs)
    exact ⟨c, s, hs, .inl (Digits.isDigit_ofNat _ c (hs ▸ List.mem_cons_self))⟩

theorem tokens?_ofInt {i : Int} (hi : FitsWord i) {rest : List Char} (h : EndsNumber rest) :
    tokens? (Digits.ofInt i ++ rest) = (tokens? rest).map (.atom (.int i) :: ·) := by
  have hread := numeral?_ofInt i h
  obtain ⟨c, s, hs, hc⟩ := exists_ofInt_cons i
  rw [hs, List.cons_append] at hread ⊢
  refine tokens?_cons ?_ ?_
  · have hne (d : Char) := ne_of_startsNumber (d := d) hc
    simp (disch := decide) only [isSpace, hne, decide_false, Bool.or_false]
  · rw [next?_number hc, hread, Option.bind_some, value?_ofInt hi, Option.map_some]

end Number

end Agora.Json
