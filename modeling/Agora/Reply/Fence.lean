import Agora.Text.Ascii
/-!
A marker is three backticks, a tag glued to them and one line break. A statement keyword in the
place of the tag is no tag: it belongs to the statement and stays. Taking out the markers may bring
loose backticks together to a new one, so it is done again until none is left.
-/
namespace Agora.Reply

def statementKeywords : List String :=
  ["SELECT", "INSERT", "UPDATE", "DELETE", "WITH", "CREATE", "ALTER", "DROP"]

def keywordOf? (word : List Char) : Option String :=
  statementKeywords.find? fun k => k.toList = word.map Ascii.toUpper

def backtick : Char :=
  '\x60'

def isTagChar (c : Char) : Bool :=
  Ascii.isLetter c || ('0' ≤ c && c ≤ '9') || c = '_' || c = '+' || c = '-'

def lineBreak : List Char → List Char × List Char
  | '\n' :: s => (['\n'], s)
  | '\r' :: '\n' :: s => (['\r', '\n'], s)
  | s => ([], s)

def afterBackticks (s : List Char) : List Char × List Char :=
  let tag := s.takeWhile isTagChar
  let (brk, rest) := lineBreak (s.dropWhile isTagChar)
  (if (keywordOf? tag).isSome then tag ++ brk else [], rest)

def backticks? : List Char → Option (List Char)
  | a :: b :: c :: s => if a = backtick ∧ b = backtick ∧ c = backtick then some s else none
  | _ => none

def hasFence : List Char → Bool
  | [] => false
  | c :: s => (backticks? (c :: s)).isSome || hasFence s

theorem lineBreak_length (s : List Char) :
    (lineBreak s).1.length + (lineBreak s).2.length = s.length := by
  unfold lineBreak
  split <;> simp <;> omega

theorem afterBackticks_length (s : List Char) :
    (afterBackticks s).1.length + (afterBackticks s).2.length ≤ s.length := by
  have hs : (s.takeWhile isTagChar).length + (s.dropWhile isTagChar).length = s.length := by
    rw [← List.length_append, List.takeWhile_append_dropWhile]
  have hb := lineBreak_length (s.dropWhile isTagChar)
  simp only [afterBackticks]
  split <;> simp <;> omega

theorem backticks?_length {s r : List Char} (h : backticks? s = some r) :
    s.length = r.length + 3 := by
  unfold backticks? at h
  split at h <;> simp_all

def removeFences (s : List Char) : List Char :=
  match s with
  | [] => []
  | c :: r =>
      match h : backticks? (c :: r) with
      | none => c :: removeFences r
      | some r' =>
          have := backticks?_length h
          have := afterBackticks_length r'
          (afterBackticks r').1 ++ removeFences (afterBackticks r').2
  termination_by s.length
  decreasing_by all_goals simp_all; try omega

theorem removeFences_length_le (s : List Char) : (removeFences s).length ≤ s.length := by
  fun_induction removeFences s with
  | case1 => simp
  | case2 c r _ ih => simpa using ih
  | case3 c r r' h _ _ ih => simp_all; omega

theorem removeFences_length_lt {s : List Char} (h : hasFence s) :
    (removeFences s).length < s.length := by
  fun_induction removeFences s with
  | case1 => simp [hasFence] at h
  | case2 c r hn ih =>
      simp only [hasFence, hn, Option.isSome_none, Bool.false_or] at h
      simpa using ih h
  | case3 c r r' hr _ _ ih =>
      have := removeFences_length_le (afterBackticks r').2
      simp_all
      omega

def stripFences (s : List Char) : List Char :=
  if h : hasFence s then
    have := removeFences_length_lt h
    stripFences (removeFences s)
  else s
  termination_by s.length

end Agora.Reply
