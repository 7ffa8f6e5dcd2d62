import Agora.Json.Token
import Agora.Proofs.Json.RoundTrip
import Agora.Proofs.Number.Numeral

namespace Agora.Json

section Grammar

inductive IsHex4 : List Char → Nat → Prop
  | mk {a b c d i j k l} : Hex.value? a = some i → Hex.value? b = some j → Hex.value? c = some k →
      Hex.value? d = some l → IsHex4 [a, b, c, d] (((i * 16 + j) * 16 + k) * 16 + l)

def escapes : List (Char × Char) :=
  [('\x22', '\x22'), ('\x5c', '\x5c'), ('/', '/'), ('b', '\x08'), ('f', '\x0c'), ('n', '\n'),
    ('r', '\r'), ('t', '\t')]

inductive SpellsChar : List Char → Char → Prop
  | plain {c} : c ≠ '\x22' → c ≠ '\x5c' → ¬ c.toNat < 0x20 → SpellsChar [c] c
  | escaped {e c} : (e, c) ∈ escapes → SpellsChar ['\x5c', e] c
  | numbered {ds n} : IsHex4 ds n → isHighSurrogate n = false → isLowSurrogate n = false →
      SpellsChar ('\x5c' :: 'u' :: ds) (Char.ofNat n)
  | paired {ds es high low} : IsHex4 ds high → IsHex4 es low → isHighSurrogate high →
      isLowSurrogate low →
      SpellsChar ('\x5c' :: 'u' :: (ds ++ '\x5c' :: 'u' :: es)) (joinSurrogates high low)

inductive SpellsText : List Char → List Char → Prop
  | nil : SpellsText [] []
  | cons {l c s t} : SpellsChar l c → SpellsText s t → SpellsText (l ++ s) (c :: t)

inductive IsMinus : List Char → Bool → Prop
  | none : IsMinus [] false
  | minus : IsMinus ['-'] true

structure IsWhole (ds : List Char) : Prop where
  numeral : Digits.IsNumeral ds
  zero : ds.head? = some '0' → ds = ['0']

inductive IsFraction : List Char → Option (List Char) → Prop
  | none : IsFraction [] none
  | digits {ds} : Digits.IsNumeral ds → IsFraction ('.' :: ds) (some ds)

inductive IsExponent : List Char → Option Int → Prop
  | none : IsExponent [] none
  | digits {e s i} : e = 'e' ∨ e = 'E' → Digits.Denotes s i → IsExponent (e :: s) (some i)

inductive SpellsNumeral : List Char → Numeral → Prop
  | mk {sign whole fraction exponent negative f e} : IsMinus sign negative → IsWhole whole →
      IsFraction fraction f → IsExponent exponent e →
      SpellsNumeral (sign ++ (whole ++ (fraction ++ exponent)))
        { negative, whole, fraction := f.getD [], isReal := f.isSome || e.isSome,
          exponent := e.getD 0 }

inductive Spells : Token → List Char → Prop
  | mark {t c} : t.mark? = some c → Spells t [c]
  | null : Spells (.atom .null) ['n', 'u', 'l', 'l']
  | true : Spells (.atom (.bool true)) ['t', 'r', 'u', 'e']
  | false : Spells (.atom (.bool false)) ['f', 'a', 'l', 's', 'e']
  | number {l x v} : SpellsNumeral l x → x.value? = some v → Spells (.atom v) l
  | str {l t} : SpellsText l t → Spells (.str (String.ofList t)) ('\x22' :: (l ++ ['\x22']))

inductive Spelled : List Token → List Char → Prop
  | nil : Spelled [] []
  | space {c s ts} : isSpace c → Spelled ts s → Spelled ts (c :: s)
  | cons {t l s ts} : Spells t l → Spelled ts s → Spelled (t :: ts) (l ++ s)

/-- A text of one value: the tokens that the value is written with, in whatever spelling. -/
def IsTextOf (v : Json) (s : List Char) : Prop :=
  Spelled (tokensOf v) s

end Grammar

section Strings

theorem isHex4_of_hex4? {s r : List Char} {n : Nat} (h : hex4? s = some (n, r)) :
    ∃ ds, s = ds ++ r ∧ IsHex4 ds n := by
  unfold hex4? at h
  split at h
  · split at h
    · rename_i a b c d s _ _ _ _ i j k l ha hb hc hd
      cases h
      exact ⟨[a, b, c, d], rfl, .mk ha hb hc hd⟩
    · cases h
  · cases h

theorem isHex4_of_lowHalf? {s r : List Char} {n : Nat} (h : lowHalf? s = some (n, r)) :
    ∃ ds, s = '\x5c' :: 'u' :: (ds ++ r) ∧ IsHex4 ds n ∧ isLowSurrogate n := by
  fun_cases lowHalf? s with
  | case1 s =>
    obtain ⟨hn, hlow⟩ := Option.filter_eq_some_iff.1 h
    obtain ⟨ds, rfl, hds⟩ := isHex4_of_hex4? hn
    exact ⟨ds, rfl, hds, hlow⟩
  | case2 s hne =>
    rw [lowHalf?.eq_2 s hne] at h
    cases h

theorem spellsChar_of_numericEscape? {s r : List Char} {c : Char}
    (h : numericEscape? s = some (c, r)) :
    ∃ l, '\x5c' :: 'u' :: s = l ++ r ∧ SpellsChar l c := by
  obtain ⟨⟨n, s₁⟩, hn, hc⟩ := Option.bind_eq_some_iff.1 h
  obtain ⟨ds, rfl, hds⟩ := isHex4_of_hex4? hn
  dsimp only at hc
  by_cases hhigh : isHighSurrogate n
  · rw [if_pos hhigh] at hc
    obtain ⟨⟨m, s₂⟩, hm, hpair⟩ := Option.map_eq_some_iff.1 hc
    obtain ⟨rfl, rfl⟩ := Prod.mk.inj hpair
    obtain ⟨es, rfl, hes, hlow⟩ := isHex4_of_lowHalf? hm
    refine ⟨'\x5c' :: 'u' :: (ds ++ '\x5c' :: 'u' :: es), by simp, ?_⟩
    exact .paired hds hes hhigh hlow
  · rw [if_neg hhigh] at hc
    by_cases hlow : isLowSurrogate n
    · rw [if_pos hlow] at hc
      cases hc
    · rw [if_neg hlow] at hc
      cases hc
      exact ⟨_, rfl, .numbered hds (by simpa using hhigh) (by simpa using hlow)⟩

theorem spellsChar_of_escape? {s r : List Char} {c : Char} (h : escape? s = some (c, r)) :
    ∃ l, '\x5c' :: s = l ++ r ∧ SpellsChar l c := by
  cases s with
  | nil => cases h
  | cons e s =>
    have listed {c' : Char} (hmem : (e, c') ∈ escapes) (hread : some (c', s) = some (c, r)) :
        ∃ l, '\x5c' :: e :: s = l ++ r ∧ SpellsChar l c := by
      cases hread
      exact ⟨['\x5c', e], rfl, .escaped hmem⟩
    rw [escape?] at h
    split at h
    · rename_i hself
      have hmem : (e, e) ∈ escapes := by
        simp only [Bool.or_eq_true, decide_eq_true_eq, or_assoc] at hself
        rcases hself with rfl | rfl | rfl <;> decide
      exact listed hmem h
    iterate 5
      split at h
      · rename_i hletter
        exact listed (hletter ▸ by decide) h
    split at h
    · rename_i hu
      subst hu
      exact spellsChar_of_numericEscape? h
    · cases h

theorem spellsText_of_stringTail? {s r t : List Char} (h : stringTail? s = some (t, r)) :
    ∃ l, s = l ++ '\x22' :: r ∧ SpellsText l t := by
  fun_induction stringTail? s generalizing t r with
  | case1 => cases h
  | case2 s =>
    cases h
    exact ⟨[], rfl, .nil⟩
  | case3 => cases h
  | case4 s c s' hescape _ _ ih =>
    obtain ⟨⟨t', r'⟩, htail, hcons⟩ := Option.map_eq_some_iff.1 h
    cases hcons
    obtain ⟨l, rfl, hl⟩ := ih htail
    obtain ⟨w, hw, hc⟩ := spellsChar_of_escape? hescape
    exact ⟨w ++ l, by rw [hw, List.append_assoc], .cons hc hl⟩
  | case5 => cases h
  | case6 c s hquote hbackslash hcontrol ih =>
    obtain ⟨⟨t', r'⟩, htail, hcons⟩ := Option.map_eq_some_iff.1 h
    cases hcons
    obtain ⟨l, rfl, hl⟩ := ih htail
    exact ⟨[c] ++ l, rfl, .cons (.plain hquote hbackslash hcontrol) hl⟩

end Strings

section Numbers

theorem isNumeral_of_span {s ds r : List Char} (h : Digits.span s = (ds, r)) (hne : ds ≠ []) :
    s = ds ++ r ∧ Digits.IsNumeral ds := by
  cases h
  exact ⟨List.takeWhile_append_dropWhile.symm, hne, fun c hc => List.mem_takeWhile_imp hc⟩

theorem isWhole_of_whole? {s ds r : List Char} (h : whole? s = some (ds, r)) :
    s = ds ++ r ∧ IsWhole ds := by
  unfold whole? at h
  split at h
  · cases h
  · cases h
  · rename_i ds' rest hne hzero hspan
    cases h
    obtain ⟨hs, hnumeral⟩ := isNumeral_of_span hspan hne
    refine ⟨hs, hnumeral, fun hhead => ?_⟩
    obtain ⟨es, rfl⟩ := List.head?_eq_some_iff.1 hhead
    cases es with
    | nil => rfl
    | cons e es => exact (hzero e es rfl).elim

theorem isFraction_of_fraction? {s r : List Char} {f : Option (List Char)}
    (h : fraction? s = some (f, r)) : ∃ l, s = l ++ r ∧ IsFraction l f := by
  unfold fraction? at h
  split at h
  · rename_i s
    split at h
    · cases h
    · rename_i ds rest hne hspan
      cases h
      obtain ⟨rfl, hnumeral⟩ := isNumeral_of_span hspan hne
      exact ⟨'.' :: ds, rfl, .digits hnumeral⟩
  · cases h
    exact ⟨[], rfl, .none⟩

theorem sign_append {s ds r : List Char} (h : (Digits.sign s).2 = ds ++ r)
    (hds : Digits.IsNumeral ds) :
    ∃ l, s = l ++ r ∧ Digits.Denotes l (Digits.signed (Digits.sign s).1 (Digits.value ds)) := by
  rw [Digits.value_eq_placed]
  fun_cases Digits.sign s with
  | case1 s =>
    obtain rfl : s = ds ++ r := h
    exact ⟨'-' :: ds, rfl, .minus hds⟩
  | case2 s =>
    obtain rfl : s = ds ++ r := h
    exact ⟨'+' :: ds, rfl, .plus hds⟩
  | case3 s hminus hplus =>
    rw [Digits.sign.eq_3 s hminus hplus] at h
    exact ⟨ds, h, .unsigned hds⟩

theorem isExponent_of_exponent? {s r : List Char} {e : Option Int}
    (h : exponent? s = some (e, r)) : ∃ l, s = l ++ r ∧ IsExponent l e := by
  cases s with
  | nil =>
    cases h
    exact ⟨[], rfl, .none⟩
  | cons c s =>
    by_cases hc : c = 'e' ∨ c = 'E'
    · simp only [exponent?, Bool.or_eq_true, decide_eq_true_eq, if_pos hc] at h
      split at h
      · cases h
      · rename_i ds rest hne hspan
        cases h
        obtain ⟨hs, hnumeral⟩ := isNumeral_of_span hspan hne
        obtain ⟨l, rfl, hl⟩ := sign_append hs hnumeral
        exact ⟨c :: l, rfl, .digits hc hl⟩
    · simp only [exponent?, Bool.or_eq_true, decide_eq_true_eq, if_neg hc] at h
      cases h
      exact ⟨[], rfl, .none⟩

theorem isMinus_minus (s : List Char) : ∃ l, s = l ++ (minus s).2 ∧ IsMinus l (minus s).1 := by
  fun_cases minus s with
  | case1 s => exact ⟨['-'], rfl, .minus⟩
  | case2 s => exact ⟨[], rfl, .none⟩

theorem spellsNumeral_of_numeral? {s r : List Char} {x : Numeral} (h : numeral? s = some (x, r)) :
    ∃ l, s = l ++ r ∧ SpellsNumeral l x := by
  obtain ⟨⟨whole, s₁⟩, hwhole, h⟩ := Option.bind_eq_some_iff.1 h
  obtain ⟨⟨f, s₂⟩, hfraction, h⟩ := Option.bind_eq_some_iff.1 h
  obtain ⟨⟨e, s₃⟩, hexponent, hx⟩ := Option.map_eq_some_iff.1 h
  obtain ⟨rfl, rfl⟩ := Prod.mk.inj hx
  obtain ⟨sign, hs, hsign⟩ := isMinus_minus s
  obtain ⟨hrest, hw⟩ := isWhole_of_whole? hwhole
  obtain ⟨fraction, rfl, hf⟩ := isFraction_of_fraction? hfraction
  obtain ⟨exponent, rfl, he⟩ := isExponent_of_exponent? hexponent
  refine ⟨sign ++ (whole ++ (fraction ++ exponent)), ?_, .mk hsign hw hf he⟩
  rw [hs, hrest]
  simp only [List.append_assoc]

end Numbers

section Tokens

theorem spells_of_word? {c : Char} {word s r : List Char} {v : Json} {t : Token}
    (hspells : Spells (.atom v) (c :: word)) (h : word? word v s = some (t, r)) :
    ∃ l, c :: s = l ++ r ∧ Spells t l := by
  rw [word?, Option.ite_none_right_eq_some] at h
  obtain ⟨hbegins, ht⟩ := h
  cases ht
  obtain ⟨s, rfl⟩ := List.isPrefixOf_iff_prefix.1 hbegins
  exact ⟨c :: word, by simp, hspells⟩

theorem spells_of_next? {c : Char} {s r : List Char} {t : Token} (h : next? c s = some (t, r)) :
    ∃ l, c :: s = l ++ r ∧ Spells t l := by
  have mark {t' : Token} (hmark : t'.mark? = some c) (ht : some (t', s) = some (t, r)) :
      ∃ l, c :: s = l ++ r ∧ Spells t l := by
    cases ht
    exact ⟨[c], rfl, .mark hmark⟩
  rw [next?] at h
  iterate 6
    rw [ite_eq_iff] at h
    rcases h with ⟨hc, h⟩ | ⟨-, h⟩
    · exact mark (hc ▸ rfl) h
  iterate 4 rw [ite_eq_iff] at h
  rcases h with ⟨hc, h⟩ | ⟨-, ⟨hc, h⟩ | ⟨-, ⟨hc, h⟩ | ⟨-, ⟨hc, h⟩ | ⟨-, h⟩⟩⟩⟩
  · obtain ⟨⟨text, r⟩, htail, ht⟩ := Option.map_eq_some_iff.1 h
    cases ht
    obtain ⟨l, rfl, hl⟩ := spellsText_of_stringTail? htail
    exact ⟨'\x22' :: (l ++ ['\x22']), by simp [hc], .str hl⟩
  · exact spells_of_word? (hc ▸ .null) h
  · exact spells_of_word? (hc ▸ .true) h
  · exact spells_of_word? (hc ▸ .false) h
  · obtain ⟨⟨x, r⟩, hx, h⟩ := Option.bind_eq_some_iff.1 h
    obtain ⟨v, hv, ht⟩ := Option.map_eq_some_iff.1 h
    cases ht
    obtain ⟨l, hl, hspells⟩ := spellsNumeral_of_numeral? hx
    exact ⟨l, hl, .number hspells hv⟩

theorem spelled_of_tokens? {s : List Char} {ts : List Token} (h : tokens? s = some ts) :
    Spelled ts s := by
  fun_induction tokens? s generalizing ts with
  | case1 =>
    cases h
    exact .nil
  | case2 c s hc ih => exact .space hc (ih h)
  | case3 => cases h
  | case4 c s hc t r hnext _ ih =>
    obtain ⟨ts, hts, rfl⟩ := Option.map_eq_some_iff.1 h
    obtain ⟨l, hl, ht⟩ := spells_of_next? hnext
    rw [hl]
    exact .cons ht (ih hts)

end Tokens

end Agora.Json
