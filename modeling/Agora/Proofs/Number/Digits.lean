import Mathlib.Data.List.TakeWhile
import Agora.Number.Digits

namespace Agora.Digits

def EndsNumeral (s : List Char) : Prop :=
  ∀ c ∈ s.head?, isDigit c = false

theorem isDigit_ofNat_char : ∀ d < 10, isDigit (Char.ofNat ('0'.toNat + d)) := by
  decide

theorem digitValue_ofNat_char : ∀ d < 10, digitValue (Char.ofNat ('0'.toNat + d)) = d := by
  decide

theorem value_append_digit (ds : List Char) (c : Char) :
    value (ds ++ [c]) = 10 * value ds + digitValue c := by
  simp [value]

theorem isDigit_ofNat (n : Nat) : ∀ c ∈ ofNat n, isDigit c := by
  induction n using ofNat.induct with
  | case1 n h =>
    rw [ofNat, if_pos h]
    simpa using isDigit_ofNat_char n h
  | case2 n h ih =>
    rw [ofNat, if_neg h]
    have hlast := isDigit_ofNat_char (n % 10) (Nat.mod_lt n (by decide))
    simpa [or_imp, forall_and] using ⟨ih, hlast⟩

theorem value_ofNat (n : Nat) : value (ofNat n) = n := by
  induction n using ofNat.induct with
  | case1 n h =>
    rw [ofNat, if_pos h]
    simpa [value] using digitValue_ofNat_char n h
  | case2 n h ih =>
    rw [ofNat, if_neg h, value_append_digit, ih,
      digitValue_ofNat_char (n % 10) (Nat.mod_lt n (by decide))]
    omega

theorem ofNat_ne_nil (n : Nat) : ofNat n ≠ [] := by
  rw [ofNat]
  split <;> simp

theorem minus_ne_ofNat_append {s t : List Char} {n : Nat} : '-' :: s ≠ ofNat n ++ t := by
  obtain ⟨c, ds, hc⟩ := List.exists_cons_of_ne_nil (ofNat_ne_nil n)
  have hdigit := isDigit_ofNat n c (by simp [hc])
  rw [hc, List.cons_append]
  intro h
  rw [← (List.cons.inj h).1] at hdigit
  exact absurd hdigit (by decide)

section Append

variable {x y : List Char} (hx : EndsNumeral x) (hy : EndsNumeral y)

theorem takeWhile_numeral {ds : List Char} (hds : ∀ c ∈ ds, isDigit c) (hx : EndsNumeral x) :
    (ds ++ x).takeWhile isDigit = ds := by
  have hnone : x.takeWhile isDigit = [] := by
    cases x with
    | nil => rfl
    | cons c x => exact List.takeWhile_cons_of_neg (by simp [hx c rfl])
  rw [List.takeWhile_append_of_pos hds, hnone, List.append_nil]

include hx hy

theorem ofNat_append_inj {n m : Nat} (h : ofNat n ++ x = ofNat m ++ y) : n = m ∧ x = y := by
  have hdigits : ofNat n = ofNat m := by
    rw [← takeWhile_numeral (isDigit_ofNat n) hx, h, takeWhile_numeral (isDigit_ofNat m) hy]
  refine ⟨?_, List.append_cancel_left (hdigits ▸ h)⟩
  rw [← value_ofNat n, hdigits, value_ofNat]

theorem ofInt_append_inj {i j : Int} (h : ofInt i ++ x = ofInt j ++ y) : i = j ∧ x = y := by
  simp only [ofInt] at h
  split at h <;> split at h
  · rename_i hi hj
    obtain ⟨habs, hrest⟩ := ofNat_append_inj hx hy (List.cons.inj h).2
    exact ⟨by omega, hrest⟩
  · exact (minus_ne_ofNat_append h).elim
  · exact (minus_ne_ofNat_append h.symm).elim
  · rename_i hi hj
    obtain ⟨habs, hrest⟩ := ofNat_append_inj hx hy h
    exact ⟨by omega, hrest⟩

end Append

end Agora.Digits
