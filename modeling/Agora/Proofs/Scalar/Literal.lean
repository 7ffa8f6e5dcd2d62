import Agora.Proofs.Number.Numeral
import Agora.Scalar
import Mathlib.Data.List.Forall2

namespace Agora.Scalar

open Digits

def SpellsNull (s : List Char) : Prop :=
  List.Forall₂ (fun c letter => c = letter ∨ c = letter.toUpper) s ['n', 'u', 'l', 'l']

theorem toNat_toLower (c : Char) :
    c.toLower.toNat = if 65 ≤ c.toNat ∧ c.toNat ≤ 90 then c.toNat + 32 else c.toNat := by
  have hupper : (c.val ≥ 'A'.val ∧ c.val ≤ 'Z'.val) ↔ 65 ≤ c.toNat ∧ c.toNat ≤ 90 := Iff.rfl
  unfold Char.toLower
  split
  · rename_i h
    rw [if_pos (hupper.1 h)]
    show (c.val + 32).toNat = c.val.toNat + 32
    rw [UInt32.toNat_add, Nat.mod_eq_of_lt]
    · rfl
    · have := (hupper.1 h).2
      show c.toNat + 32 < 2 ^ 32
      omega
  · rename_i h
    rw [if_neg (mt hupper.2 h)]

structure IsSmall (letter : Char) : Prop where
  first : 97 ≤ letter.toNat
  last : letter.toNat ≤ 122
  capital : letter.toUpper.toNat + 32 = letter.toNat

theorem toLower_eq_iff {letter : Char} (h : IsSmall letter) (c : Char) :
    c.toLower = letter ↔ c = letter ∨ c = letter.toUpper := by
  obtain ⟨hfirst, hlast, hcapital⟩ := h
  rw [← Char.toNat_inj, ← Char.toNat_inj, ← Char.toNat_inj, toNat_toLower]
  split <;> omega

theorem map_toLower_eq_iff {letters : List Char} (h : ∀ letter ∈ letters, IsSmall letter)
    (s : List Char) : s.map Char.toLower = letters ↔
      List.Forall₂ (fun c letter => c = letter ∨ c = letter.toUpper) s letters := by
  induction letters generalizing s with
  | nil => rw [List.map_eq_nil_iff, List.forall₂_nil_right_iff]
  | cons letter letters ih =>
    cases s with
    | nil => simp
    | cons c s =>
      rw [List.map_cons, List.cons.injEq, List.forall₂_cons,
        toLower_eq_iff (h letter List.mem_cons_self),
        ih fun l hl => h l (List.mem_cons_of_mem letter hl)]

theorem isNullWord_iff (s : List Char) : isNullWord s ↔ SpellsNull s := by
  have hsmall : ∀ letter ∈ ['n', 'u', 'l', 'l'], IsSmall letter := by
    intro letter h
    obtain rfl | rfl | rfl : letter = 'n' ∨ letter = 'u' ∨ letter = 'l' := by simpa using h
    all_goals exact ⟨by decide, by decide, by decide⟩
  rw [isNullWord, decide_eq_true_eq]
  exact map_toLower_eq_iff hsmall s

theorem not_spellsNull {s : List Char} {n : Int} (h : Denotes s n) : ¬SpellsNull s := by
  intro hnull
  obtain ⟨c, s, hc, -, rfl⟩ := List.forall₂_cons_right_iff.1 hnull
  have hdigit : isDigit c = false ∧ c ≠ '+' ∧ c ≠ '-' := by
    rcases hc with rfl | rfl <;> decide
  cases h with
  | unsigned h => exact Bool.false_ne_true (hdigit.1 ▸ h.digits c List.mem_cons_self)
  | plus h => exact hdigit.2.1 rfl
  | minus h => exact hdigit.2.2 rfl

theorem ofLiteral_cases (s : String) :
    SpellsNull s.toList ∧ ofLiteral s = null ∨
    ¬SpellsNull s.toList ∧
      ((∃ i, Denotes s.toList i.toInt ∧ ofLiteral s = integer i) ∨
        (∀ i : Int64, ¬Denotes s.toList i.toInt) ∧
          ((∃ x, ofLiteral s = real x) ∨ ofLiteral s = text s)) := by
  by_cases hnull : isNullWord s.toList
  · exact .inl ⟨(isNullWord_iff _).1 hnull, if_pos hnull⟩
  refine .inr ⟨mt (isNullWord_iff _).2 hnull, ?_⟩
  rw [ofLiteral, if_neg hnull]
  cases hint : readInt64? s.toList with
  | some i => exact .inl ⟨i, readInt64?_eq_some_iff.1 hint, rfl⟩
  | none =>
    refine .inr ⟨fun i hi => ?_, ?_⟩
    · rw [readInt64?_eq_some_iff.2 hi] at hint
      cases hint
    · cases (Binary64.read? s.toList).filter Binary64.isFinite with
      | some x => exact .inl ⟨x, rfl⟩
      | none => exact .inr rfl

theorem ofLiteral_eq_integer_iff (s : String) (i : Int64) :
    ofLiteral s = integer i ↔ Denotes s.toList i.toInt := by
  constructor
  · intro h
    rcases ofLiteral_cases s with ⟨-, hs⟩ | ⟨-, ⟨j, hj, hs⟩ | ⟨-, ⟨x, hs⟩ | hs⟩⟩ <;> rw [h] at hs
    · cases hs
    · obtain rfl : i = j := by injection hs
      exact hj
    · cases hs
    · cases hs
  · intro h
    rcases ofLiteral_cases s with ⟨hnull, -⟩ | ⟨-, ⟨j, hj, hs⟩ | ⟨hnone, -⟩⟩
    · exact absurd hnull (not_spellsNull h)
    · rw [hs, Int64.toInt_inj.1 (hj.unique h)]
    · exact absurd h (hnone i)

theorem ofLiteral_eq_null_iff (s : String) : ofLiteral s = null ↔ SpellsNull s.toList := by
  rcases ofLiteral_cases s with ⟨hnull, hs⟩ | ⟨hnull, ⟨i, -, hs⟩ | ⟨-, ⟨x, hs⟩ | hs⟩⟩ <;>
    simp [hs, hnull]

theorem eq_of_ofLiteral_eq_text {s t : String} (h : ofLiteral s = text t) : t = s := by
  rcases ofLiteral_cases s with ⟨-, hs⟩ | ⟨-, ⟨i, -, hs⟩ | ⟨-, ⟨x, hs⟩ | hs⟩⟩ <;> rw [h] at hs
  · cases hs
  · cases hs
  · cases hs
  · injection hs

theorem exists_integer_iff (s : String) (n : Int) :
    (∃ i : Int64, i.toInt = n ∧ ofLiteral s = integer i) ↔
      Denotes s.toList n ∧ -2 ^ 63 ≤ n ∧ n ≤ 2 ^ 63 - 1 := by
  constructor
  · rintro ⟨i, rfl, hi⟩
    have hlt := Int64.toInt_lt i
    exact ⟨(ofLiteral_eq_integer_iff s i).1 hi, Int64.le_toInt i, by omega⟩
  · rintro ⟨hn, hle, hge⟩
    have hint : (Int64.ofInt n).toInt = n := Int64.toInt_ofInt_of_le hle (by omega)
    exact ⟨Int64.ofInt n, hint, (ofLiteral_eq_integer_iff s _).2 (hint.symm ▸ hn)⟩

theorem ofLiteral_of_out_of_range {s : String} {n : Int} (hn : Denotes s.toList n)
    (hrange : n < -2 ^ 63 ∨ 2 ^ 63 - 1 < n) :
    (∃ x, ofLiteral s = real x) ∨ ofLiteral s = text s := by
  rcases ofLiteral_cases s with ⟨hnull, -⟩ | ⟨-, ⟨i, hi, -⟩ | ⟨-, hs⟩⟩
  · exact absurd hnull (not_spellsNull hn)
  · have hle := Int64.le_toInt i
    have hlt := Int64.toInt_lt i
    rw [hn.unique hi] at hrange
    omega
  · exact hs

theorem ofLiteral_display (i : Int64) : ofLiteral (display (integer i)) = integer i := by
  rw [ofLiteral_eq_integer_iff, display, String.toList_ofList]
  exact denotes_ofInt i.toInt

theorem numerals_read_exactly :
    (∀ s n, (∃ i : Int64, i.toInt = n ∧ ofLiteral s = integer i) ↔
      Denotes s.toList n ∧ -2 ^ 63 ≤ n ∧ n ≤ 2 ^ 63 - 1) ∧
    (∀ s n, Denotes s.toList n → n < -2 ^ 63 ∨ 2 ^ 63 - 1 < n →
      (∃ x, ofLiteral s = real x) ∨ ofLiteral s = text s) ∧
    (∀ s, ofLiteral s = null ↔ SpellsNull s.toList) ∧
    (∀ s t, ofLiteral s = text t → t = s) ∧
    (∀ i, ofLiteral (display (integer i)) = integer i) ∧
    Function.Injective fun i => display (integer i) := by
  refine ⟨exists_integer_iff, fun s n => ofLiteral_of_out_of_range, ofLiteral_eq_null_iff,
    fun s t => eq_of_ofLiteral_eq_text, ofLiteral_display, fun i j h => ?_⟩
  have hread : integer i = integer j := by
    rw [← ofLiteral_display i, ← ofLiteral_display j]
    exact congrArg ofLiteral h
  injection hread

theorem numerals_read_exactly_at_limits :
    Denotes "-09223372036854775808".toList (-2 ^ 63) ∧
    Denotes "+9223372036854775808".toList (2 ^ 63) ∧
    (∃ i : Int64, i.toInt = -2 ^ 63 ∧ ofLiteral "-09223372036854775808" = integer i) ∧
    ((∃ x, ofLiteral "+9223372036854775808" = real x) ∨
      ofLiteral "+9223372036854775808" = text "+9223372036854775808") ∧
    ofLiteral "inf" = text "inf" := by
  have hleast : Denotes "-09223372036854775808".toList (-2 ^ 63) :=
    @Denotes.minus "09223372036854775808".toList ⟨by decide, List.all_eq_true.1 (by decide)⟩
  have hbeyond : Denotes "+9223372036854775808".toList (2 ^ 63) :=
    @Denotes.plus "9223372036854775808".toList ⟨by decide, List.all_eq_true.1 (by decide)⟩
  obtain ⟨hinteger, hrange, -⟩ := numerals_read_exactly
  exact ⟨hleast, hbeyond, (hinteger _ _).2 ⟨hleast, by decide, by decide⟩,
    hrange _ _ hbeyond (.inr (by decide)), by decide +kernel⟩

end Agora.Scalar
