import Agora.Sql.Token

namespace Agora.Sql

theorem length_dropWhile_le (p : Char → Bool) (s : List Char) :
    (s.dropWhile p).length ≤ s.length :=
  (List.dropWhile_suffix p).length_le

theorem length_afterLine (s : List Char) : (afterLine s).length ≤ s.length := by
  have := length_dropWhile_le (· ≠ '\n') s
  simp only [afterLine, List.length_drop]
  omega

theorem afterBlock?_length {depth : Nat} {p : Char} {s r : List Char}
    (h : afterBlock? depth p s = some r) : r.length ≤ s.length := by
  induction s generalizing depth p with
  | nil => simp [afterBlock?] at h
  | cons c s ih =>
      have := fun d => @ih d c
      simp only [afterBlock?] at h
      grind

theorem afterName?_length {q : Char} {s r : List Char} (h : afterName? q s = some r) :
    r.length ≤ s.length := by
  fun_induction afterName? q s <;> grind

theorem afterString?_length {e : Bool} {s r : List Char} (h : afterString? e s = some r) :
    r.length ≤ s.length := by
  fun_induction afterString? e s <;> grind

theorem afterEscapedString?_length {s r : List Char} (h : afterEscapedString? s = some r) :
    r.length ≤ s.length := by
  fun_induction afterEscapedString? s <;> grind [afterEscape?_length]

theorem afterDollars?_length {d : Bool} {s r : List Char} (h : afterDollars? d s = some r) :
    r.length ≤ s.length := by
  fun_induction afterDollars? d s <;> grind

theorem afterTagged?_length {tag s r : List Char} (h : afterTagged? tag s = some r) :
    r.length ≤ s.length := by
  fun_induction afterTagged? tag s <;> grind [afterTag?_length]

theorem afterDollar?_length {s r : List Char} (h : afterDollar? s = some r) :
    r.length ≤ s.length := by
  unfold afterDollar? at h
  simp only at h
  split at h
  · have := afterDollars?_length h
    simp at this
    omega
  · have hd := length_dropWhile_le (fun c => Text.isAlphanumeric c || decide (c = '_')) s
    split at h
    · have := afterTagged?_length h
      simp at this
      omega
    · simp_all

theorem length_afterExponent (s : List Char) : (afterExponent s).length ≤ s.length := by
  unfold afterExponent
  split
  · simp
  · rename_i c r
    have := length_dropWhile_le Digits.isDigit r
    have := length_dropWhile_le Digits.isDigit (r.drop 1)
    simp only
    grind

theorem length_afterSuffix (s : List Char) : (afterSuffix s).length ≤ s.length := by
  unfold afterSuffix
  split <;> simp

theorem length_afterOperator (c : Char) (s : List Char) :
    (afterOperator c s).length ≤ s.length := by
  unfold afterOperator
  split
  · simp
  · grind

theorem length_tail_afterSuffix (s : List Char) :
    (afterSuffix (afterExponent s)).length ≤ s.length :=
  Nat.le_trans (length_afterSuffix _) (length_afterExponent s)

theorem length_afterNumeral (c : Char) (s : List Char) :
    (afterNumeral c s).length ≤ s.length := by
  have drops := length_dropWhile_le Digits.isDigit
  have := drops s
  have := length_tail_afterSuffix (s.dropWhile Digits.isDigit)
  have := length_tail_afterSuffix (((s.dropWhile Digits.isDigit).drop 1).dropWhile Digits.isDigit)
  have := drops ((s.dropWhile Digits.isDigit).drop 1)
  have := length_dropWhile_le Hex.isDigit (s.drop 1)
  have : ((s.dropWhile Digits.isDigit).drop 1).length ≤ (s.dropWhile Digits.isDigit).length := by simp
  have : (s.drop 1).length ≤ s.length := by simp
  simp only [afterNumeral]
  grind

theorem next?_length {c : Char} {s r : List Char} {t : Token} (h : next? c s = some (t, r)) :
    r.length ≤ s.length := by
  have : (s.drop 1).length ≤ s.length := by simp
  have := length_dropWhile_le isWordPart s
  have := length_dropWhile_le Text.isNumeric s
  have := length_afterLine (s.drop 1)
  have := length_afterNumeral c s
  have := length_afterOperator c s
  unfold next? at h
  split at h
  case h_2 | h_5 =>
    obtain ⟨u, hu, hr⟩ := Option.map_eq_some_iff.1 h
    have := afterString?_length hu
    grind
  case h_3 =>
    obtain ⟨u, hu, hr⟩ := Option.map_eq_some_iff.1 h
    have := afterEscapedString?_length hu
    grind
  case h_6 =>
    obtain ⟨u, hu, hr⟩ := Option.map_eq_some_iff.1 h
    have := afterName?_length hu
    grind
  case h_12 =>
    obtain ⟨u, hu, hr⟩ := Option.map_eq_some_iff.1 h
    have := afterBlock?_length hu
    grind
  case h_14 =>
    obtain ⟨u, hu, hr⟩ := Option.map_eq_some_iff.1 h
    have := afterDollar?_length hu
    grind
  all_goals grind

def tokens? (s : List Char) : Option (List Token) :=
  match s with
  | [] => some []
  | c :: s =>
      match h : next? c s with
      | none => none
      | some (t, r) =>
          have := next?_length h
          (tokens? r).map (t :: ·)
  termination_by s.length

end Agora.Sql
