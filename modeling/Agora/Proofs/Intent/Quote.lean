import Agora.Intent

namespace Agora

def readQuoted? : List Char → Option (List Char × List Char)
  | [] => none
  | '\x22' :: s => some ([], s)
  | '\x5c' :: [] => none
  | '\x5c' :: c :: s => (readQuoted? s).map fun (a, rest) => (c :: a, rest)
  | c :: s => (readQuoted? s).map fun (a, rest) => (c :: a, rest)

def escapeChar (c : Char) : List Char :=
  if c = '\x22' || c = '\x5c' then ['\x5c', c] else [c]

theorem readQuoted?_escapeChar (c : Char) (s : List Char) :
    readQuoted? (escapeChar c ++ s) = (readQuoted? s).map fun (a, rest) => (c :: a, rest) := by
  by_cases hc : c = '\x22' ∨ c = '\x5c'
  · rcases hc with rfl | rfl <;> rfl
  · obtain ⟨hquote, hbackslash⟩ := not_or.1 hc
    have hself : escapeChar c = [c] := by simp [escapeChar, hquote, hbackslash]
    rw [hself, List.singleton_append, readQuoted?]
    · exact hquote
    · exact fun h => (hbackslash h).elim
    · exact fun _ _ h => (hbackslash h).elim

theorem quoteChars_append (a x : List Char) :
    quoteChars a ++ x = '\x22' :: (a.flatMap escapeChar ++ '\x22' :: x) := by
  simp only [quoteChars, List.cons_append, List.append_assoc, List.nil_append]
  rfl

theorem readQuoted?_escaped (a x : List Char) :
    readQuoted? (a.flatMap escapeChar ++ '\x22' :: x) = some (a, x) := by
  induction a with
  | nil => rfl
  | cons c a ih => rw [List.flatMap_cons, List.append_assoc, readQuoted?_escapeChar, ih]; rfl

theorem readQuoted?_quote (a x : String) :
    (quote a ++ x).toList.head? = some '\x22' ∧
      readQuoted? (quote a ++ x).toList.tail = some (a.toList, x.toList) := by
  rw [String.toList_append, quote, String.toList_ofList, quoteChars_append]
  exact ⟨rfl, readQuoted?_escaped _ _⟩

theorem quote_append_inj {a b x y : String} : quote a ++ x = quote b ++ y ↔ a = b ∧ x = y := by
  constructor
  · intro h
    have hread := (readQuoted?_quote a x).2
    rw [h, (readQuoted?_quote b y).2, Option.some.injEq, Prod.mk.injEq] at hread
    exact ⟨String.toList_inj.1 hread.1.symm, String.toList_inj.1 hread.2.symm⟩
  · rintro ⟨rfl, rfl⟩
    rfl

end Agora
