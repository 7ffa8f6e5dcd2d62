import Agora.Json.Number
import Agora.Number.Hex

namespace Agora.Json

inductive Token where
  | openArr
  | closeArr
  | openObj
  | closeObj
  | comma
  | colon
  | str (s : String)
  | atom (v : Json)
  deriving Repr, BEq

def hex4? : List Char → Option (Nat × List Char)
  | a :: b :: c :: d :: s =>
      match Hex.value? a, Hex.value? b, Hex.value? c, Hex.value? d with
      | some a, some b, some c, some d => some (((a * 16 + b) * 16 + c) * 16 + d, s)
      | _, _, _, _ => none
  | _ => none

def isHighSurrogate (n : Nat) : Bool :=
  0xD800 ≤ n && n < 0xDC00

def isLowSurrogate (n : Nat) : Bool :=
  0xDC00 ≤ n && n < 0xE000

def joinSurrogates (high low : Nat) : Char :=
  Char.ofNat (0x10000 + (high - 0xD800) * 0x400 + (low - 0xDC00))

def lowHalf? : List Char → Option (Nat × List Char)
  | '\x5c' :: 'u' :: s => (hex4? s).filter fun x => isLowSurrogate x.1
  | _ => none

/-- The character that a numeric escape stands for. Halves of surrogate pairs must come in pairs. -/
def numericEscape? (s : List Char) : Option (Char × List Char) :=
  (hex4? s).bind fun x =>
    if isHighSurrogate x.1 then (lowHalf? x.2).map fun y => (joinSurrogates x.1 y.1, y.2)
    else if isLowSurrogate x.1 then none
    else some (Char.ofNat x.1, x.2)

def escape? : List Char → Option (Char × List Char)
  | [] => none
  | c :: s =>
      if c = '\x22' || c = '\x5c' || c = '/' then some (c, s)
      else if c = 'b' then some ('\x08', s)
      else if c = 'f' then some ('\x0c', s)
      else if c = 'n' then some ('\n', s)
      else if c = 'r' then some ('\r', s)
      else if c = 't' then some ('\t', s)
      else if c = 'u' then numericEscape? s
      else none

theorem hex4?_length {s r : List Char} {n : Nat} (h : hex4? s = some (n, r)) :
    r.length < s.length := by
  unfold hex4? at h
  grind

theorem lowHalf?_length {s r : List Char} {n : Nat} (h : lowHalf? s = some (n, r)) :
    r.length < s.length := by
  unfold lowHalf? at h
  split at h
  · have := hex4?_length (Option.filter_eq_some_iff.1 h).1
    grind
  · simp at h

theorem numericEscape?_length {s r : List Char} {c : Char} (h : numericEscape? s = some (c, r)) :
    r.length < s.length := by
  obtain ⟨x, hx, h⟩ := Option.bind_eq_some_iff.1 h
  have hx := hex4?_length hx
  split at h
  · obtain ⟨y, hy, hr⟩ := Option.map_eq_some_iff.1 h
    have := lowHalf?_length hy
    grind
  · grind

theorem escape?_length {s r : List Char} {c : Char} (h : escape? s = some (c, r)) :
    r.length < s.length := by
  unfold escape? at h
  split at h
  · simp at h
  · rename_i s
    have := numericEscape?_length (s := s) (r := r) (c := c)
    grind

def stringTail? (s : List Char) : Option (List Char × List Char) :=
  match s with
  | [] => none
  | c :: r =>
      if c = '\x22' then some ([], r)
      else if c = '\x5c' then
        match h : escape? r with
        | none => none
        | some (d, r') =>
            have := escape?_length h
            (stringTail? r').map fun t => (d :: t.1, t.2)
      else if c.toNat < 0x20 then none
      else (stringTail? r).map fun t => (c :: t.1, t.2)
  termination_by s.length
  decreasing_by all_goals simp_wf <;> grind

theorem stringTail?_length {s r t : List Char} (h : stringTail? s = some (t, r)) :
    r.length < s.length := by
  fun_induction stringTail? s generalizing t r with
  | case1 => simp at h
  | case2 => simp_all
  | case3 => simp at h
  | case4 s d r' _ _ _ ih =>
      obtain ⟨u, hu, hur⟩ := Option.map_eq_some_iff.1 h
      have := ih hu
      grind
  | case5 => simp at h
  | case6 c s _ _ _ ih =>
      obtain ⟨u, hu, hur⟩ := Option.map_eq_some_iff.1 h
      have := ih hu
      grind

def word? (rest : List Char) (v : Json) (s : List Char) : Option (Token × List Char) :=
  if rest.isPrefixOf s then some (.atom v, s.drop rest.length) else none

def next? (c : Char) (s : List Char) : Option (Token × List Char) :=
  if c = '[' then some (.openArr, s)
  else if c = ']' then some (.closeArr, s)
  else if c = '\x7b' then some (.openObj, s)
  else if c = '\x7d' then some (.closeObj, s)
  else if c = ',' then some (.comma, s)
  else if c = ':' then some (.colon, s)
  else if c = '\x22' then (stringTail? s).map fun t => (.str (String.ofList t.1), t.2)
  else if c = 'n' then word? ['u', 'l', 'l'] .null s
  else if c = 't' then word? ['r', 'u', 'e'] (.bool true) s
  else if c = 'f' then word? ['a', 'l', 's', 'e'] (.bool false) s
  else (numeral? (c :: s)).bind fun x => x.1.value?.map fun v => (.atom v, x.2)

theorem word?_length {w s r : List Char} {v : Json} {t : Token}
    (h : word? w v s = some (t, r)) : r.length ≤ s.length := by
  unfold word? at h
  split at h <;> simp_all
  grind

theorem next?_length {c : Char} {s r : List Char} {t : Token} (h : next? c s = some (t, r)) :
    r.length ≤ s.length := by
  unfold next? at h
  repeat' split at h
  all_goals first
    | exact word?_length h
    | (simp only [Option.some.injEq, Prod.mk.injEq] at h; simp [h.2])
    | skip
  · obtain ⟨u, hu, hur⟩ := Option.map_eq_some_iff.1 h
    have := stringTail?_length hu
    grind
  · obtain ⟨u, hu, hur⟩ := Option.bind_eq_some_iff.1 h
    obtain ⟨v, _, hv⟩ := Option.map_eq_some_iff.1 hur
    have := numeral?_length hu
    grind

def isSpace (c : Char) : Bool :=
  c = ' ' || c = '\t' || c = '\n' || c = '\r'

def tokens? (s : List Char) : Option (List Token) :=
  match s with
  | [] => some []
  | c :: r =>
      if isSpace c then tokens? r
      else
        match h : next? c r with
        | none => none
        | some (t, r') =>
            have := next?_length h
            (tokens? r').map (t :: ·)
  termination_by s.length

end Agora.Json
