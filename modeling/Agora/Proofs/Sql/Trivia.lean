import Agora.Proofs.Sql.Composition
import Agora.Sql.Kind
import Mathlib.Data.List.Infix

namespace Agora.Sql

def neighbours (s : List Char) : List (Char × Char) :=
  s.zip s.tail

def balance (s : List Char) : Int :=
  (neighbours s).count ('/', '*') - (neighbours s).count ('*', '/')

/-- What follows the opening of a block comment, up to the place where for the first time no comment
is open any more. -/
structure IsBlockRest (s : List Char) : Prop where
  closed : 1 + balance s = 0
  first : ∀ p, p <+: s → p ≠ s → 1 + balance p ≠ 0

instance (s : List Char) : Decidable (IsBlockRest s) :=
  decidable_of_iff (1 + balance s = 0 ∧ ∀ p ∈ s.inits, p ≠ s → 1 + balance p ≠ 0)
    ⟨fun h => ⟨h.1, fun p hp => h.2 p ((List.mem_inits p s).2 hp)⟩,
      fun h => ⟨h.closed, fun p hp => h.first p ((List.mem_inits p s).1 hp)⟩⟩

-- one character is not the end mark and the start mark of a comment at once
example : ¬IsBlockRest ['/'] ∧ IsBlockRest ['/', '*', '/', ' ', '*', '/'] := by decide

inductive IsTrivia : List Char → Prop
  | space {c} : c ∈ [' ', '\t', '\n', '\r'] → IsTrivia [c]
  | block {s} : IsBlockRest s → IsTrivia ('/' :: '*' :: s)
  | line {s} : '\n' ∉ s → IsTrivia ('-' :: '-' :: (s ++ ['\n']))

section Block

theorem balance_cons_cons (p c : Char) (s : List Char) : balance (p :: c :: s) =
    (if p = '/' ∧ c = '*' then 1 else if p = '*' ∧ c = '/' then -1 else 0) + balance (c :: s) := by
  have hpairs : neighbours (p :: c :: s) = (p, c) :: neighbours (c :: s) := rfl
  simp only [balance, hpairs, List.count_cons, beq_iff_eq, Prod.mk.injEq]
  by_cases hopens : p = '/' ∧ c = '*'
  · simp [hopens]
    omega
  · by_cases hcloses : p = '*' ∧ c = '/'
    · simp [hcloses]
      omega
    · simp [hopens, hcloses]

theorem balance_space_cons (s : List Char) : balance (' ' :: s) = balance s := by
  cases s with
  | nil => rfl
  | cons c s => simp [balance_cons_cons]

/-- The comment ends where the comments that are open at its start and those opened in it are closed
for the first time. -/
theorem afterBlock?_append {depth : Nat} {previous : Char} {m : List Char}
    (hclosed : (depth : Int) + 1 + balance (previous :: m) = 0)
    (hfirst : ∀ p, p <+: m → p ≠ m → (depth : Int) + 1 + balance (previous :: p) ≠ 0)
    (s : List Char) : afterBlock? depth previous (m ++ s) = some s := by
  induction m generalizing depth previous with
  | nil =>
    have hnone : balance [previous] = 0 := rfl
    omega
  | cons c m ih =>
    have hproper (p : List Char) (hp : p <+: m) (hne : p ≠ m) :
        (depth : Int) + 1 + balance (previous :: c :: p) ≠ 0 :=
      hfirst (c :: p) (List.cons_prefix_cons.2 ⟨rfl, hp⟩) fun h => hne (List.cons.inj h).2
    rw [balance_cons_cons] at hclosed
    simp only [balance_cons_cons] at hproper
    by_cases hopens : previous = '/' ∧ c = '*'
    · simp only [if_pos hopens] at hclosed hproper
      simp only [List.cons_append, afterBlock?, if_pos hopens]
      refine ih (by push_cast; omega) fun p hp hne => ?_
      have := hproper p hp hne
      push_cast
      omega
    by_cases hcloses : previous = '*' ∧ c = '/'
    · simp only [if_neg hopens, if_pos hcloses] at hclosed hproper
      simp only [List.cons_append, afterBlock?, if_neg hopens, if_pos hcloses]
      cases depth with
      | zero =>
        -- the count is zero right behind this character, so nothing follows it in the comment
        obtain rfl : m = [] := by
          by_contra hm
          exact hproper [] List.nil_prefix (Ne.symm hm) rfl
        rfl
      | succ depth =>
        refine ih (by push_cast at hclosed; omega) fun p hp hne => ?_
        have := hproper p hp hne
        push_cast at this
        omega
    · simp only [if_neg hopens, if_neg hcloses] at hclosed hproper
      simp only [List.cons_append, afterBlock?, if_neg hopens, if_neg hcloses]
      refine ih (by omega) fun p hp hne => ?_
      have := hproper p hp hne
      omega

theorem IsBlockRest.afterBlock? {m : List Char} (h : IsBlockRest m) (s : List Char) :
    afterBlock? 0 ' ' (m ++ s) = some s := by
  apply afterBlock?_append
  · rw [balance_space_cons]
    exact h.closed
  · intro p hp hne
    rw [balance_space_cons]
    exact h.first p hp hne

end Block

section Pieces

theorem IsTrivia.lexes {p : List Char} (h : IsTrivia p) (s : List Char) :
    Lexes (p ++ s) [.blank] s := by
  cases h with
  | @space c hc =>
    have hspace : ∀ c ∈ [' ', '\t', '\n', '\r'], isSpace c :=
      List.all_eq_true.1 (by decide)
    have hstart : Start.of c s.head? = .space := if_pos (hspace c hc)
    have hnext : next? c s = some (.blank, s) := by rw [next?, hstart]
    exact .cons hnext (.nil s)
  | @block m hm =>
    have hnext : next? '/' ('*' :: (m ++ s)) = some (.blank, s) := by
      rw [next?, show Start.of '/' ('*' :: (m ++ s)).head? = .blockComment from rfl]
      exact congrArg (Option.map (Token.blank, ·)) (hm.afterBlock? s)
    exact .cons hnext (.nil s)
  | @line m hm =>
    have hnext : next? '-' ('-' :: (m ++ ['\n'] ++ s)) = some (.blank, s) := by
      rw [next?, show Start.of '-' ('-' :: (m ++ ['\n'] ++ s)).head? = .lineComment from rfl,
        List.append_assoc]
      exact congrArg (fun r => some (Token.blank, r)) (afterLine_append hm s)
    exact .cons hnext (.nil s)

theorem lexes_trivia {pieces : List (List Char)} (h : ∀ p ∈ pieces, IsTrivia p) (s : List Char) :
    Lexes (pieces.flatten ++ s) (List.replicate pieces.length .blank) s := by
  induction pieces with
  | nil => exact .nil s
  | cons p pieces ih =>
    have hp := (h p List.mem_cons_self).lexes (pieces.flatten ++ s)
    have hpieces := ih fun q hq => h q (List.mem_cons_of_mem p hq)
    rw [List.flatten_cons, List.append_assoc]
    exact hp.trans hpieces

theorem kindOf_blanks (n : Nat) (ts : List Token) :
    kindOf 0 false (List.replicate n .blank ++ ts) = kindOf 0 false ts := by
  induction n with
  | zero => rfl
  | succ n ih => exact ih

theorem continues_blanks (n : Nat) (ts : List Token) :
    continues (List.replicate n .blank ++ ts) = continues ts := by
  have hblank : ∀ t ∈ List.replicate n Token.blank, decide (t ≠ .semicolon) = true := by
    intro t ht
    rw [List.eq_of_mem_replicate ht]
    rfl
  rw [continues, List.dropWhile_append_of_pos hblank, continues]

end Pieces

/-- White space and comments before a text change neither what its statement does nor whether a
second one follows. -/
theorem leading_trivia_ignored {pieces : List (List Char)} (h : ∀ p ∈ pieces, IsTrivia p)
    (s : List Char) :
    kind (pieces.flatten ++ s) = kind s ∧
    hasSecondStatement (pieces.flatten ++ s) = hasSecondStatement s ∧
    (tokens? (pieces.flatten ++ s) = none ↔ tokens? s = none) := by
  have htokens := (lexes_trivia h s).tokens?_eq
  rw [kind, kind, hasSecondStatement, hasSecondStatement, htokens]
  cases tokens? s with
  | none => exact ⟨rfl, rfl, Iff.rfl⟩
  | some ts =>
    dsimp only [Option.map_some]
    exact ⟨kindOf_blanks _ ts, continues_blanks _ ts, by simp⟩

theorem leading_trivia_ignored_nested :
    let pieces := ["-- '; DROP\n".toList, ['\t'], "/*/*/ '; $$ SELECT */".toList]
    (∀ p ∈ pieces, IsTrivia p) ∧
    kind (pieces.flatten ++ "DELETE FROM t; SELECT 1".toList) = .write ∧
    hasSecondStatement (pieces.flatten ++ "DELETE FROM t; SELECT 1".toList) ∧
    (tokens? (pieces.flatten ++ "'".toList) = none ↔ tokens? "'".toList = none) := by
  intro pieces
  have htrivia : ∀ p ∈ pieces, IsTrivia p := by
    have hline : IsTrivia "-- '; DROP\n".toList :=
      IsTrivia.line (s := " '; DROP".toList) (by decide)
    have hblock : IsTrivia "/*/*/ '; $$ SELECT */".toList :=
      IsTrivia.block (s := "/*/ '; $$ SELECT */".toList) (by decide +kernel)
    intro p hp
    obtain rfl | rfl | rfl : p = _ ∨ p = _ ∨ p = _ := by simpa [pieces] using hp
    · exact hline
    · exact .space (by decide)
    · exact hblock
  obtain ⟨hkind, hsecond, -⟩ := leading_trivia_ignored htrivia "DELETE FROM t; SELECT 1".toList
  refine ⟨htrivia, hkind.trans (by decide +kernel), hsecond.trans (by decide +kernel), ?_⟩
  exact (leading_trivia_ignored htrivia "'".toList).2.2

end Agora.Sql
