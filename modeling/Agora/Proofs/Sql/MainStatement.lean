import Agora.Sql.Kind

namespace Agora.Sql

inductive Balanced : List Token → Prop
  | nil : Balanced []
  | token {t ts} : t ≠ .openParen → t ≠ .closeParen → Balanced ts → Balanced (t :: ts)
  | group {ts us} : Balanced ts → Balanced us →
      Balanced (.openParen :: (ts ++ .closeParen :: us))

inductive Parenthesized : List Token → Prop
  | mk {ts} : Balanced ts → Parenthesized (.openParen :: (ts ++ [.closeParen]))

def IsKeyword (keyword : String) (t : Token) : Prop :=
  ∃ w, t = .word w ∧ upperWord w = keyword.toList

def kindKeywords : List String :=
  ["SELECT", "VALUES", "INSERT", "UPDATE", "DELETE", "REPLACE", "CREATE", "ALTER", "DROP",
    "TRUNCATE"]

inductive IsName : Token → Prop
  | quoted : IsName .name
  | plain {w} : upperWord w ∉ kindKeywords.map String.toList → IsName (.word w)

inductive Materialized : List Token → Prop
  | plain {m} : IsKeyword "MATERIALIZED" m → Materialized [m]
  | negated {n m} : IsKeyword "NOT" n → IsKeyword "MATERIALIZED" m → Materialized [n, m]

inductive TableExpression : List Token → Prop
  | mk {n a columns hint body} : IsName n → (columns = [] ∨ Parenthesized columns) →
      IsKeyword "AS" a → (hint = [] ∨ Materialized hint) → Parenthesized body →
      TableExpression (n :: (columns ++ a :: (hint ++ body)))

/-- Expressions with a comma between two; commas are told from other signs nowhere. -/
inductive TableExpressions : List Token → Prop
  | one {ts} : TableExpression ts → TableExpressions ts
  | more {ts us} : TableExpression ts → TableExpressions us →
      TableExpressions (ts ++ .other :: us)

inductive WithStatement (main : List Char) : List Token → Prop
  | plain {w ts rest} : IsKeyword "WITH" w → TableExpressions ts →
      WithStatement main (w :: (ts ++ .word main :: rest))
  | recursive {w r ts rest} : IsKeyword "WITH" w → IsKeyword "RECURSIVE" r →
      TableExpressions ts → WithStatement main (w :: r :: (ts ++ .word main :: rest))

def mainKeywords : List (String × Kind) :=
  [("SELECT", .read), ("VALUES", .read), ("INSERT", .write), ("UPDATE", .write),
    ("DELETE", .write), ("REPLACE", .write)]

def Passes (depth : Nat) (ts : List Token) : Prop :=
  ∀ us, kindOf depth true (ts ++ us) = kindOf depth true us

namespace Passes

variable {depth : Nat} {t : Token} {ts us : List Token}

theorem nil : Passes depth [] := fun _ => rfl

theorem append (h : Passes depth ts) (h' : Passes depth us) : Passes depth (ts ++ us) := by
  intro vs
  rw [List.append_assoc, h, h']

theorem cons (h : Passes depth [t]) (h' : Passes depth ts) : Passes depth (t :: ts) :=
  append h h'

theorem inside (hopen : t ≠ .openParen) (hclose : t ≠ .closeParen) : Passes (depth + 1) [t] := by
  intro us
  cases t with
  | openParen => exact absurd rfl hopen
  | closeParen => exact absurd rfl hclose
  | _ => simp [kindOf]

theorem balanced (h : Balanced ts) : Passes (depth + 1) ts := by
  induction h generalizing depth with
  | nil => exact nil
  | token hopen hclose _ ih => exact (inside hopen hclose).cons ih
  | @group ts us _ _ hinner houter =>
    intro vs
    calc kindOf (depth + 1) true (.openParen :: (ts ++ .closeParen :: us) ++ vs)
      _ = kindOf (depth + 2) true (ts ++ (.closeParen :: (us ++ vs))) := by
        rw [List.cons_append, List.append_assoc]
        rfl
      _ = kindOf (depth + 1) true (us ++ vs) := by
        rw [hinner]
        rfl
      _ = kindOf (depth + 1) true vs := houter vs

theorem parenthesized (h : Parenthesized ts) : Passes depth ts := by
  obtain ⟨hbody⟩ := h
  intro us
  rw [List.cons_append, List.append_assoc, kindOf, balanced hbody]
  rfl

theorem word {w : List Char} (h : ∀ k, keyword? w ≠ some (.statement k)) :
    Passes depth [.word w] := by
  intro us
  rw [List.singleton_append, kindOf]
  cases hw : keyword? w with
  | none => simp
  | some k =>
    cases k with
    | statement k => exact absurd hw (h k)
    | «with» => simp

theorem keyword {k : String} (h : IsKeyword k t)
    (hk : ∀ e ∈ keywordTable, e.1.toList ≠ k.toList) : Passes depth [t] := by
  obtain ⟨w, rfl, hw⟩ := h
  have hnone : keyword? w = none := by
    rw [keyword?, hw, List.find?_eq_none.2 (by simpa using hk)]
    rfl
  exact word fun k => by simp [hnone]

theorem name (h : IsName t) : Passes depth [t] := by
  cases h with
  | quoted =>
    intro us
    rfl
  | @plain w hw =>
    have hkinds : ∀ e ∈ keywordTable, e.2 = .with ∨ e.1.toList ∈ kindKeywords.map String.toList := by
      decide
    refine word fun k hk => ?_
    obtain ⟨e, hfind, hstatement⟩ := Option.map_eq_some_iff.1 hk
    have hupper : e.1.toList = upperWord w := by simpa using List.find?_some hfind
    rcases hkinds e (List.mem_of_find?_eq_some hfind) with hwith | hmem
    · rw [hwith] at hstatement
      cases hstatement
    · exact hw (hupper ▸ hmem)

theorem materialized (h : Materialized ts) : Passes depth ts := by
  cases h with
  | plain hm => exact keyword hm (by decide)
  | negated hn hm => exact (keyword hn (by decide)).cons (keyword hm (by decide))

theorem tableExpression (h : TableExpression ts) : Passes depth ts := by
  obtain ⟨hname, hcolumns, has, hhint, hbody⟩ := h
  have hcolumns : Passes depth _ := hcolumns.elim (fun h => h ▸ nil) parenthesized
  have hhint : Passes depth _ := hhint.elim (fun h => h ▸ nil) materialized
  exact (name hname).cons
    (hcolumns.append ((keyword has (by decide)).cons (hhint.append (parenthesized hbody))))

theorem tableExpressions (h : TableExpressions ts) : Passes depth ts := by
  induction h with
  | one h => exact tableExpression h
  | more h _ ih =>
    have hcomma : Passes depth [.other] := fun us => rfl
    exact (tableExpression h).append (hcomma.cons ih)

end Passes

theorem kindOf_filter (depth : Nat) (inWith : Bool) (ts : List Token) :
    kindOf depth inWith (ts.filter (· ≠ .blank)) = kindOf depth inWith ts := by
  induction ts generalizing depth inWith with
  | nil => rfl
  | cons t ts ih =>
    simp only [ne_eq, decide_not] at ih ⊢
    cases t <;> simp [kindOf, ih]

theorem kindOf_with {w : Token} (h : IsKeyword "WITH" w) (ts : List Token) :
    kindOf 0 false (w :: ts) = kindOf 0 true ts := by
  obtain ⟨w, rfl, hw⟩ := h
  have hkeyword : keyword? w = some .with := by
    rw [keyword?, hw]
    decide
  simp [kindOf, hkeyword]

theorem kindOf_main {w : List Char} {keyword : String} {k : Kind}
    (hmain : (keyword, k) ∈ mainKeywords) (hw : upperWord w = keyword.toList) (ts : List Token) :
    kindOf 0 true (.word w :: ts) = k := by
  have hall : ∀ e ∈ mainKeywords,
      (keywordTable.find? fun e' => e'.1.toList = e.1.toList).map (·.2) = some (.statement e.2) := by
    decide
  have hkeyword : keyword? w = some (.statement k) := by
    rw [keyword?, hw]
    exact hall _ hmain
  simp [kindOf, hkeyword]

/-- A statement behind common table expressions is of the kind that its own keyword tells. -/
theorem kind_of_with {sql main : List Char} {ts : List Token} {keyword : String} {k : Kind}
    (htokens : tokens? sql = some ts) (hform : WithStatement main (ts.filter (· ≠ .blank)))
    (hmain : (keyword, k) ∈ mainKeywords) (hword : upperWord main = keyword.toList) :
    kind sql = k := by
  rw [kind, htokens]
  dsimp only
  rw [← kindOf_filter]
  generalize ts.filter (· ≠ .blank) = solid at hform
  cases hform with
  | plain hwith hexpressions =>
    rw [kindOf_with hwith, Passes.tableExpressions hexpressions, kindOf_main hmain hword]
  | recursive hwith hrecursive hexpressions =>
    rw [kindOf_with hwith, ← List.cons_append, Passes.cons (.keyword hrecursive (by decide))
      (.tableExpressions hexpressions), kindOf_main hmain hword]

theorem kind_of_with_nested :
    let sql := ("with recursive \"select\"(n) AS NOT MATERIALIZED (values (')')), "
      ++ "/*(*/ b as (drop)replace into t").toList
    ∃ ts, tokens? sql = some ts ∧
      WithStatement "replace".toList (ts.filter (· ≠ .blank)) ∧
      ("REPLACE", Kind.write) ∈ mainKeywords ∧ upperWord "replace".toList = "REPLACE".toList ∧
      kind sql = .write := by
  intro sql
  have htokens : tokens? sql = some [.word "with".toList, .blank, .word "recursive".toList, .blank,
      .name, .openParen, .word "n".toList, .closeParen, .blank, .word "AS".toList, .blank,
      .word "NOT".toList, .blank, .word "MATERIALIZED".toList, .blank, .openParen,
      .word "values".toList, .blank, .openParen, .other, .closeParen, .closeParen, .other, .blank,
      .blank, .blank, .word "b".toList, .blank, .word "as".toList, .blank, .openParen,
      .word "drop".toList, .closeParen, .word "replace".toList, .blank, .word "into".toList, .blank,
      .word "t".toList] := by
    decide +kernel
  have word (w : String) : Balanced [.word w.toList] := .token (by simp) (by simp) .nil
  have hgroup : Balanced [.openParen, .other, .closeParen] :=
    @Balanced.group [.other] [] (.token (by simp) (by simp) .nil) .nil
  have hfirst := @TableExpression.mk .name (.word "AS".toList) _
    [.word "NOT".toList, .word "MATERIALIZED".toList] _ .quoted (.inr (.mk (word "n")))
    ⟨_, rfl, by decide⟩ (.inr (.negated ⟨_, rfl, by decide⟩ ⟨_, rfl, by decide⟩))
    (.mk (.token (by simp) (by simp) hgroup : Balanced (.word "values".toList :: _)))
  have hsecond := @TableExpression.mk (.word "b".toList) (.word "as".toList) [] [] _
    (.plain (by decide)) (.inl rfl) ⟨_, rfl, by decide⟩ (.inl rfl) (.mk (word "drop"))
  have hform := @WithStatement.recursive "replace".toList (.word "with".toList)
    (.word "recursive".toList) _ [.word "into".toList, .word "t".toList] ⟨_, rfl, by decide⟩
    ⟨_, rfl, by decide⟩ (.more hfirst (.one hsecond))
  have hmain : ("REPLACE", Kind.write) ∈ mainKeywords := by decide
  have hword : upperWord "replace".toList = "REPLACE".toList := by decide
  exact ⟨_, htokens, hform, hmain, hword, kind_of_with htokens hform hmain hword⟩

end Agora.Sql
