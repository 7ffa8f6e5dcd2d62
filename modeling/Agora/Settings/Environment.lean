import Agora.Text.Alphanumeric
/-!
Texts refer to variables as `$NAME` or `${NAME}` and are read once from left to right: the values
put in are not read again.
-/
namespace Agora

structure Environment where
  entries : List (String × String) := []
  deriving DecidableEq, Repr

namespace Environment

def isName (name : String) : Bool :=
  !name.isEmpty && name.toList.all fun c => c ≠ '=' && c ≠ '\x00'

def get? (env : Environment) (name : String) : Option String :=
  if isName name then (env.entries.find? (·.1 = name)).map (·.2) else none

def unset (env : Environment) (name : String) : Environment :=
  ⟨env.entries.filter (·.1 ≠ name)⟩

def set (env : Environment) (name value : String) : Environment :=
  ⟨(name, value) :: (env.unset name).entries⟩

def isNameChar (c : Char) : Bool :=
  Text.isAlphanumeric c || c = '_'

/-- The name that a dollar refers to and what follows the reference; a dollar alone refers to
nothing. Without a closing brace the name reaches to the end. -/
def reference? : List Char → Option (List Char × List Char)
  | [] => none
  | c :: s =>
      if c = '\x7b' then
        some (s.takeWhile (· ≠ '\x7d'), (s.dropWhile (· ≠ '\x7d')).drop 1)
      else if isNameChar c then
        some (c :: s.takeWhile isNameChar, s.dropWhile isNameChar)
      else none

theorem reference?_length {s name r : List Char} (h : reference? s = some (name, r)) :
    r.length ≤ s.length := by
  unfold reference? at h
  split at h
  · simp at h
  · rename_i c s
    have h₁ := (List.dropWhile_suffix (l := s) (· ≠ '\x7d')).length_le
    have h₂ := (List.dropWhile_suffix (l := s) isNameChar).length_le
    split at h
    · simp only [Option.some.injEq, Prod.mk.injEq] at h
      rw [← h.2]
      simp at h₁ ⊢
      omega
    · split at h
      · simp only [Option.some.injEq, Prod.mk.injEq] at h
        rw [← h.2]
        simp
        omega
      · simp at h

/-- A text with the values of the variables that it refers to; the error is the name of the first
one that is not set. -/
def expandChars (env : Environment) (s : List Char) : Except String (List Char) :=
  match s with
  | [] => .ok []
  | c :: s =>
      if c ≠ '$' then (expandChars env s).map (c :: ·)
      else
        match h : reference? s with
        | none => (expandChars env s).map ('$' :: ·)
        | some (name, rest) =>
            have := reference?_length h
            match env.get? (String.ofList name) with
            | none => .error (String.ofList name)
            | some value => (expandChars env rest).map (value.toList ++ ·)
  termination_by s.length

def expand (env : Environment) (s : String) : Except String String :=
  (env.expandChars s.toList).map String.ofList

end Environment

end Agora
