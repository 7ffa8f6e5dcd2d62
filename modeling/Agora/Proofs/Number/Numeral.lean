import Agora.Proofs.Number.Digits
import Mathlib.Data.List.Induction
import Mathlib.Data.Nat.Digits.Defs

namespace Agora.Digits

def placed (ds : List Char) : Nat :=
  Nat.ofDigits 10 (ds.map digitValue).reverse

structure IsNumeral (ds : List Char) : Prop where
  nonempty : ds ≠ []
  digits : ∀ c ∈ ds, isDigit c

/-- The number that a text denotes which consists of digits, behind a sign or not. -/
inductive Denotes : List Char → Int → Prop
  | unsigned {ds} : IsNumeral ds → Denotes ds (placed ds)
  | plus {ds} : IsNumeral ds → Denotes ('+' :: ds) (placed ds)
  | minus {ds} : IsNumeral ds → Denotes ('-' :: ds) (-placed ds)

section Reading

theorem value_eq_placed (ds : List Char) : value ds = placed ds := by
  induction ds using List.reverseRecOn with
  | nil => rfl
  | append_singleton ds c ih =>
    rw [value_append_digit, ih, placed, placed, List.map_append, List.reverse_append]
    show _ = Nat.ofDigits 10 (digitValue c :: (ds.map digitValue).reverse)
    rw [Nat.ofDigits_cons]
    omega

theorem readNat?_eq_some_iff {ds : List Char} {n : Nat} :
    readNat? ds = some n ↔ IsNumeral ds ∧ n = placed ds := by
  rw [readNat?, value_eq_placed, Option.ite_none_right_eq_some, Option.some.injEq,
    List.all_eq_true]
  constructor
  · rintro ⟨⟨hne, hdigits⟩, rfl⟩
    exact ⟨⟨hne, hdigits⟩, rfl⟩
  · rintro ⟨⟨hne, hdigits⟩, rfl⟩
    exact ⟨⟨hne, hdigits⟩, rfl⟩

theorem sign_of_isNumeral {ds : List Char} (h : IsNumeral ds) : sign ds = (false, ds) := by
  unfold sign
  split
  · exact absurd (h.digits '-' List.mem_cons_self) (by decide)
  · exact absurd (h.digits '+' List.mem_cons_self) (by decide)
  · rfl

theorem readInt?_eq_some_iff {s : List Char} {i : Int} : readInt? s = some i ↔ Denotes s i := by
  constructor
  · intro h
    obtain ⟨n, hn, rfl⟩ := Option.map_eq_some_iff.1 h
    obtain ⟨hnumeral, rfl⟩ := readNat?_eq_some_iff.1 hn
    revert hnumeral
    fun_cases sign s with
    | case1 s => exact .minus
    | case2 s => exact .plus
    | case3 s => exact .unsigned
  · rintro (h | h | h)
    · rw [readInt?, sign_of_isNumeral h, readNat?_eq_some_iff.2 ⟨h, rfl⟩]
      rfl
    · rw [readInt?, sign, readNat?_eq_some_iff.2 ⟨h, rfl⟩]
      rfl
    · rw [readInt?, sign, readNat?_eq_some_iff.2 ⟨h, rfl⟩]
      rfl

theorem inInt64_iff {i : Int} : inInt64 i ↔ -2 ^ 63 ≤ i ∧ i ≤ 2 ^ 63 - 1 := by
  rw [inInt64, Bool.and_eq_true, decide_eq_true_eq, decide_eq_true_eq]
  exact Iff.rfl

theorem readInt64?_eq_some_iff {s : List Char} {i : Int64} :
    readInt64? s = some i ↔ Denotes s i.toInt := by
  rw [readInt64?, Option.bind_eq_some_iff]
  constructor
  · rintro ⟨n, hn, h⟩
    rw [Option.ite_none_right_eq_some, inInt64_iff] at h
    obtain ⟨⟨hle, hge⟩, hi⟩ := h
    obtain rfl := Option.some.inj hi
    rw [Int64.toInt_ofInt_of_le hle (by omega)]
    exact readInt?_eq_some_iff.1 hn
  · intro h
    have hle := Int64.le_toInt i
    have hlt := Int64.toInt_lt i
    refine ⟨i.toInt, readInt?_eq_some_iff.2 h, ?_⟩
    rw [if_pos (inInt64_iff.2 ⟨hle, by omega⟩), Int64.ofInt_toInt]

theorem isNumeral_ofNat (n : Nat) : IsNumeral (ofNat n) :=
  ⟨ofNat_ne_nil n, isDigit_ofNat n⟩

theorem denotes_ofInt (i : Int) : Denotes (ofInt i) i := by
  have hplaced : (placed (ofNat i.natAbs) : Int) = i.natAbs := by
    rw [← value_eq_placed, value_ofNat]
  rw [ofInt]
  split
  · have hminus := Denotes.minus (isNumeral_ofNat i.natAbs)
    rwa [hplaced, show -(i.natAbs : Int) = i by omega] at hminus
  · have hplain := Denotes.unsigned (isNumeral_ofNat i.natAbs)
    rwa [hplaced, show (i.natAbs : Int) = i by omega] at hplain

theorem Denotes.unique {s : List Char} {i j : Int} (hi : Denotes s i) (hj : Denotes s j) :
    i = j := by
  have hread := readInt?_eq_some_iff.2 hi
  rw [readInt?_eq_some_iff.2 hj] at hread
  exact (Option.some.inj hread).symm

end Reading

end Agora.Digits
