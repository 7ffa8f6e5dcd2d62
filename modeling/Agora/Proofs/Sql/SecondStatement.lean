import Agora.Proofs.Sql.Composition
import Agora.Sql.Kind
import Agora.Store.Session

namespace Agora.Sql

variable {ts us : List Token}

theorem continues_eq_false (h : .semicolon ∉ ts) : continues ts = false := by
  have hall : ts.dropWhile (· ≠ .semicolon) = [] := by
    rw [List.dropWhile_eq_nil_iff]
    intro t ht
    exact decide_eq_true fun heq => h (heq ▸ ht)
  rw [continues, hall]
  rfl

theorem continues_append_semicolon (h : .semicolon ∉ ts) (us : List Token) :
    continues (ts ++ .semicolon :: us) = us.any Token.isSolid := by
  have hall : ∀ t ∈ ts, decide (t ≠ .semicolon) = true := fun t ht =>
    decide_eq_true fun heq => h (heq ▸ ht)
  rw [continues, List.dropWhile_append_of_pos hall]
  simp [Token.isSolid]

theorem Token.isSolid_iff {t : Token} : t.isSolid ↔ t ≠ .blank ∧ t ≠ .semicolon := by
  cases t <;> simp [isSolid]

theorem hasSecondStatement_eq {s : List Char} (h : tokens? s = some ts) :
    hasSecondStatement s = continues ts := by
  rw [hasSecondStatement, h]

theorem execute_refused {σ : Type} (c : Connection σ) {b : BoundStatement}
    (h : hasSecondStatement b.sql.toList) (s : σ) :
    c.execute b s = (.error (.database b.sql .multipleStatements), s) := by
  have hrun : c.run b s = (.error .multipleStatements, s) := if_pos h
  rw [Connection.execute, hrun]
  rfl

theorem second_statement_seen {a b : List Char} (ha : tokens? a = some ts)
    (hsemicolon : .semicolon ∉ ts) (hline : ¬EndsInLineComment a) (hb : tokens? b = some us) :
    (hasSecondStatement (a ++ ';' :: b) ↔ ∃ t ∈ us, t ≠ .blank ∧ t ≠ .semicolon) ∧
    hasSecondStatement a = false ∧
    (∀ {k c s s' p q before t}, Piece k c s → Piece k c s' →
      Lexes (p ++ c :: (s ++ q)) before (c :: (s ++ q)) → Lexes (c :: (s ++ q)) [t] q →
      hasSecondStatement (p ++ c :: (s ++ q)) = hasSecondStatement (p ++ c :: (s' ++ q))) ∧
    ∀ (bound : BoundStatement) (store : Store), hasSecondStatement bound.sql.toList →
      store.execute bound = (.error (.database bound.sql .multipleStatements), store) := by
  refine ⟨?_, ?_, fun h h' hbefore htoken => ?_, fun bound store h => execute_refused _ h store⟩
  · rw [hasSecondStatement_eq (tokens?_append_semicolon ha hline hb),
      continues_append_semicolon hsemicolon, List.any_eq_true]
    simp only [Token.isSolid_iff]
  · rw [hasSecondStatement_eq ha, continues_eq_false hsemicolon]
  · rw [hasSecondStatement, hasSecondStatement, h.tokens?_replace h' hbefore htoken]

theorem second_statement_seen_behind_string :
    tokens? "SELECT 'a;b'".toList = some [.word "SELECT".toList, .blank, .other] ∧
    ¬EndsInLineComment "SELECT 'a;b'".toList ∧
    tokens? " DROP VIEW v".toList =
      some [.blank, .word "DROP".toList, .blank, .word "VIEW".toList, .blank, .word "v".toList] ∧
    hasSecondStatement ("SELECT 'a;b'".toList ++ ';' :: " DROP VIEW v".toList) ∧
    hasSecondStatement "SELECT 'a;b'".toList = false ∧
    Piece .string apostrophe "a;b'".toList ∧
    Piece .string apostrophe "''; DROP VIEW v; --'".toList ∧
    hasSecondStatement ("SELECT ".toList ++ apostrophe :: ("a;b'".toList ++ [])) =
      hasSecondStatement ("SELECT ".toList ++ apostrophe :: ("''; DROP VIEW v; --'".toList ++ [])) ∧
    ∀ store : Store, store.execute ⟨"SELECT 'a;b'; DROP VIEW v", []⟩ =
      (.error (.database "SELECT 'a;b'; DROP VIEW v" .multipleStatements), store) := by
  have ha : tokens? "SELECT 'a;b'".toList = some [.word "SELECT".toList, .blank, .other] := by
    decide +kernel
  have hline : ¬EndsInLineComment "SELECT 'a;b'".toList :=
    not_endsInLineComment (by decide +kernel)
  have hb : tokens? " DROP VIEW v".toList =
      some [.blank, .word "DROP".toList, .blank, .word "VIEW".toList, .blank, .word "v".toList] := by
    decide +kernel
  have hpiece : Piece .string apostrophe "a;b'".toList :=
    ⟨by decide +kernel, rfl, trivial, by decide +kernel⟩
  have hpiece' : Piece .string apostrophe "''; DROP VIEW v; --'".toList :=
    ⟨by decide +kernel, rfl, trivial, by decide +kernel⟩
  have hword : next? 'S' "ELECT 'a;b'".toList = some (.word "SELECT".toList, " 'a;b'".toList) := by
    decide +kernel
  have hspace : next? ' ' "'a;b'".toList = some (.blank, "'a;b'".toList) := by
    decide +kernel
  have hstring : next? apostrophe "a;b'".toList = some (.other, []) := hpiece.whole
  obtain ⟨hbehind, halone, hinside, hrefused⟩ := second_statement_seen ha (by decide +kernel) hline hb
  exact ⟨ha, hline, hb, hbehind.2 ⟨.word "DROP".toList, by decide +kernel, by decide +kernel⟩,
    halone, hpiece, hpiece',
    hinside hpiece hpiece' (.cons hword (.cons hspace (.nil _))) (.cons hstring (.nil _)),
    fun store => hrefused ⟨"SELECT 'a;b'; DROP VIEW v", []⟩ store (by decide +kernel)⟩

end Agora.Sql
