import Agora.Settings.Basic
/-!
The pieces of a text do not depend on the environment, and a text that is cut between two of them
has the pieces of both parts.
-/
namespace Agora

theorem ok_of_toOption {x : Except ε α} {a : α} (h : x.toOption = some a) :
    x = .ok a := by
  cases x with
  | error e => cases h
  | ok b => exact congrArg Except.ok (Option.some.inj h)

namespace Environment

inductive Piece where
  | char (c : Char)
  | reference (name : String)
  deriving DecidableEq, Repr

def Piece.name? : Piece → Option String
  | char _ => none
  | reference name => some name

def pieces (s : List Char) : List Piece :=
  match s with
  | [] => []
  | c :: s =>
      if c ≠ '$' then .char c :: pieces s
      else
        match h : reference? s with
        | none => .char '$' :: pieces s
        | some (name, rest) =>
            have := reference?_length h
            .reference (String.ofList name) :: pieces rest
  termination_by s.length

def references (s : String) : List String :=
  (pieces s.toList).filterMap Piece.name?

def Piece.text (env : Environment) : Piece → Except String (List Char)
  | char c => .ok [c]
  | reference name =>
      match env.get? name with
      | none => .error name
      | some value => .ok value.toList

def textOf (env : Environment) : List Piece → Except String (List Char)
  | [] => .ok []
  | piece :: ps => (piece.text env).bind fun x => (env.textOf ps).map (x ++ ·)

def value (env : Environment) (name : String) : Except SettingsError String :=
  match env.get? name with
  | none => .error (.missingVariable name)
  | some value => .ok value

inductive Refers : List Char → List Char → List Char → Prop where
  | braced {name rest : List Char} (hname : '\x7d' ∉ name) :
      Refers ('\x7b' :: name ++ '\x7d' :: rest) name rest
  | unclosed {name : List Char} (hname : '\x7d' ∉ name) : Refers ('\x7b' :: name) name []
  | plain {name rest : List Char} (hne : name ≠ []) (hname : ∀ c ∈ name, isNameChar c)
      (hrest : ∀ c ∈ rest.head?, isNameChar c = false) : Refers (name ++ rest) name rest

def LeavesDollar (s : List Char) : Prop :=
  ∀ c ∈ s.head?, c ≠ '\x7b' ∧ isNameChar c = false

/-- A text may be cut here: no reference is left open, and none goes on behind the cut. -/
structure IsSeam (a b : List Char) : Prop where
  closed : ∀ u v, a = u ++ '$' :: '\x7b' :: v → '\x7d' ∈ v
  name_ended : ∀ u name, a = u ++ '$' :: name → (∀ c ∈ name, isNameChar c) →
    ∀ c ∈ b.head?, isNameChar c = false
  brace_apart : ∀ u, a = u ++ ['$'] → b.head? ≠ some '\x7b'

section Reference

theorem not_isNameChar_brace : isNameChar '\x7b' = false := by decide +kernel

theorem takeWhile_dropWhile_name {p : Char → Bool} {name : List Char} (rest : List Char)
    (hname : ∀ c ∈ name, p c) (hrest : ∀ c ∈ rest.head?, p c = false) :
    (name ++ rest).takeWhile p = name ∧ (name ++ rest).dropWhile p = rest := by
  have hstop : rest.takeWhile p = [] ∧ rest.dropWhile p = rest := by
    cases rest with
    | nil => exact ⟨rfl, rfl⟩
    | cons c rest => simp [hrest c rfl]
  rw [List.takeWhile_append_of_pos hname, List.dropWhile_append_of_pos hname, hstop.1, hstop.2,
    List.append_nil]
  exact ⟨rfl, rfl⟩

theorem ne_brace_of_not_mem {name : List Char} (hname : '\x7d' ∉ name) :
    ∀ c ∈ name, decide (c ≠ '\x7d') = true := by
  intro c hc
  exact decide_eq_true fun h => hname (h ▸ hc)

theorem Refers.eq_some {s name rest : List Char} (h : Refers s name rest) :
    reference? s = some (name, rest) := by
  cases h with
  | braced hname =>
    obtain ⟨htake, hdrop⟩ := takeWhile_dropWhile_name ('\x7d' :: rest)
      (ne_brace_of_not_mem hname) (by simp)
    rw [List.cons_append, reference?, if_pos rfl, htake, hdrop, List.drop_one, List.tail_cons]
  | unclosed hname =>
    obtain ⟨htake, hdrop⟩ := takeWhile_dropWhile_name []
      (ne_brace_of_not_mem hname) (by simp)
    rw [List.append_nil] at htake hdrop
    rw [reference?, if_pos rfl, htake, hdrop, List.drop_nil]
  | plain hne hname hrest =>
    obtain ⟨c, name, rfl⟩ := List.exists_cons_of_ne_nil hne
    have hc : isNameChar c := hname c List.mem_cons_self
    have hbrace : c ≠ '\x7b' := fun h => by simp [h, not_isNameChar_brace] at hc
    obtain ⟨htake, hdrop⟩ := takeWhile_dropWhile_name _
      (fun d hd => hname d (List.mem_cons_of_mem c hd)) hrest
    simp [reference?, hbrace, hc, htake, hdrop]

theorem refers_of_eq_some {s name rest : List Char} (h : reference? s = some (name, rest)) :
    Refers s name rest := by
  cases s with
  | nil => simp [reference?] at h
  | cons c s =>
    by_cases hbrace : c = '\x7b'
    · subst hbrace
      by_cases hclosed : '\x7d' ∈ s
      · obtain ⟨n, r, rfl, hn⟩ := List.eq_append_cons_of_mem hclosed
        have hrefers : Refers ('\x7b' :: n ++ '\x7d' :: r) n r := .braced hn
        cases h.symm.trans hrefers.eq_some
        exact hrefers
      · have hrefers : Refers ('\x7b' :: s) s [] := .unclosed hclosed
        cases h.symm.trans hrefers.eq_some
        exact hrefers
    · by_cases hc : isNameChar c
      · have hrefers : Refers (c :: s.takeWhile isNameChar ++ s.dropWhile isNameChar)
            (c :: s.takeWhile isNameChar) (s.dropWhile isNameChar) := by
          refine .plain (by simp) ?_ ?_
          · have hall := List.all_takeWhile (p := isNameChar) (l := s)
            simpa [hc] using List.all_eq_true.1 hall
          · intro d hd
            have hhead := List.head?_dropWhile_not isNameChar s
            rw [show (s.dropWhile isNameChar).head? = some d from hd] at hhead
            simpa using hhead
        rw [List.cons_append, List.takeWhile_append_dropWhile] at hrefers
        cases h.symm.trans hrefers.eq_some
        exact hrefers
      · simp [reference?, hbrace, hc] at h

theorem reference?_eq_none {s : List Char} : reference? s = none ↔ LeavesDollar s := by
  cases s with
  | nil => simp [reference?, LeavesDollar]
  | cons c s => by_cases hbrace : c = '\x7b' <;> by_cases hc : isNameChar c <;>
      simp [reference?, LeavesDollar, hbrace, hc]

theorem Refers.suffix {s name rest : List Char} (h : Refers s name rest) : rest <:+ s := by
  cases h with
  | @braced name rest _ => exact ⟨'\x7b' :: name ++ ['\x7d'], by simp⟩
  | unclosed _ => exact List.nil_suffix
  | @plain name rest _ _ _ => exact List.suffix_append name rest

end Reference

section Pieces

@[simp] theorem pieces_nil : pieces [] = [] := by
  rw [pieces]

theorem pieces_char {c : Char} (hc : c ≠ '$') (s : List Char) :
    pieces (c :: s) = .char c :: pieces s := by
  rw [pieces, if_pos hc]

theorem pieces_after_dollar (s : List Char) :
    pieces ('$' :: s) = match reference? s with
      | none => .char '$' :: pieces s
      | some (name, rest) => .reference (String.ofList name) :: pieces rest := by
  rw [pieces, if_neg (by simp)]
  split <;> simp_all

theorem pieces_dollar {s : List Char} (h : LeavesDollar s) :
    pieces ('$' :: s) = .char '$' :: pieces s := by
  rw [pieces_after_dollar, reference?_eq_none.2 h]

theorem pieces_reference {s name rest : List Char} (h : Refers s name rest) :
    pieces ('$' :: s) = .reference (String.ofList name) :: pieces rest := by
  rw [pieces_after_dollar, h.eq_some]

theorem pieces_induction {P : List Char → Prop} (nil : P [])
    (char : ∀ c s, c ≠ '$' → P s → P (c :: s))
    (dollar : ∀ s, LeavesDollar s → P s → P ('$' :: s))
    (reference : ∀ s name rest, Refers s name rest → P rest → P ('$' :: s)) (s : List Char) :
    P s := by
  induction s using pieces.induct with
  | case1 => exact nil
  | case2 c s hc ih => exact char c s hc ih
  | case3 c s hc hnone ih =>
    obtain rfl : c = '$' := by simpa using hc
    exact dollar s (reference?_eq_none.1 hnone) ih
  | case4 c s hc name rest hsome _ ih =>
    obtain rfl : c = '$' := by simpa using hc
    exact reference s name rest (refers_of_eq_some hsome) ih

theorem expandChars_after_dollar (env : Environment) (s : List Char) :
    env.expandChars ('$' :: s) = match reference? s with
      | none => (env.expandChars s).map ('$' :: ·)
      | some (name, rest) =>
          ((Piece.reference (String.ofList name)).text env).bind fun x =>
            (env.expandChars rest).map (x ++ ·) := by
  rw [expandChars, if_neg (by simp)]
  split
  · rename_i hnone
    rw [hnone]
  · rename_i name rest hsome
    simp only [hsome, Piece.text]
    cases env.get? (String.ofList name) <;> rfl

theorem expandChars_eq_textOf (env : Environment) (s : List Char) :
    env.expandChars s = env.textOf (pieces s) := by
  induction s using pieces_induction with
  | nil => rw [expandChars, pieces_nil, textOf]
  | char c s hc ih =>
    rw [expandChars, if_pos hc, pieces_char hc, textOf, ih]
    rfl
  | dollar s hs ih =>
    rw [expandChars_after_dollar, reference?_eq_none.2 hs, pieces_dollar hs, textOf, ih]
    rfl
  | reference s name rest hs ih =>
    rw [expandChars_after_dollar, hs.eq_some, pieces_reference hs, textOf, ← ih]

end Pieces

section Seam

variable {a b : List Char}

theorem IsSeam.of_append {u : List Char} (h : IsSeam (u ++ a) b) : IsSeam a b where
  closed v w ha := h.closed (u ++ v) w (by rw [ha, List.append_assoc])
  name_ended v name ha := h.name_ended (u ++ v) name (by rw [ha, List.append_assoc])
  brace_apart v ha := h.brace_apart (u ++ v) (by rw [ha, List.append_assoc])

theorem IsSeam.tail {c : Char} (h : IsSeam (c :: a) b) : IsSeam a b :=
  IsSeam.of_append (u := [c]) h

theorem Refers.append {name rest : List Char} (h : Refers a name rest)
    (hseam : IsSeam ('$' :: a) b) : Refers (a ++ b) name (rest ++ b) := by
  cases h with
  | braced hname =>
    have hbraced : Refers ('\x7b' :: name ++ '\x7d' :: (rest ++ b)) name (rest ++ b) :=
      .braced hname
    simpa using hbraced
  | unclosed hname => exact absurd (hseam.closed [] name rfl) hname
  | plain hne hname hrest =>
    rw [List.append_assoc]
    refine .plain hne hname ?_
    cases rest with
    | nil => exact hseam.name_ended [] name (by simp) hname
    | cons c rest => exact hrest

theorem LeavesDollar.append (h : LeavesDollar a) (hseam : IsSeam ('$' :: a) b) :
    LeavesDollar (a ++ b) := by
  cases a with
  | nil =>
    intro c hc
    exact ⟨fun hbrace => hseam.brace_apart [] rfl (hbrace ▸ hc),
      hseam.name_ended [] [] rfl (by simp) c hc⟩
  | cons c a => exact h

theorem pieces_append (h : IsSeam a b) : pieces (a ++ b) = pieces a ++ pieces b := by
  induction a using pieces_induction with
  | nil => rw [pieces_nil, List.nil_append, List.nil_append]
  | char c a hc ih =>
    rw [List.cons_append, pieces_char hc, pieces_char hc, ih h.tail, List.cons_append]
  | dollar a ha ih =>
    rw [List.cons_append, pieces_dollar (ha.append h), pieces_dollar ha, ih h.tail,
      List.cons_append]
  | reference a name rest ha ih =>
    -- what follows the reference is cut in the same place
    obtain ⟨u, rfl⟩ := ha.suffix
    rw [List.cons_append, pieces_reference (ha.append h), pieces_reference ha,
      ih h.tail.of_append, List.cons_append]

end Seam

section Text

variable (env : Environment)

theorem textOf_append (ps qs : List Piece) :
    env.textOf (ps ++ qs) = (env.textOf ps).bind fun x => (env.textOf qs).map (x ++ ·) := by
  induction ps with
  | nil => cases h : env.textOf qs <;> simp [textOf, Except.bind, Except.map, h]
  | cons piece ps ih =>
    rw [List.cons_append, textOf, textOf, ih]
    cases piece.text env <;> cases env.textOf ps <;> cases env.textOf qs <;>
      simp [Except.bind, Except.map, List.append_assoc]

theorem textOf_cons_eq_ok {env : Environment} {piece : Piece} {ps : List Piece} {t : List Char} :
    env.textOf (piece :: ps) = .ok t ↔
      ∃ x u, piece.text env = .ok x ∧ env.textOf ps = .ok u ∧ x ++ u = t := by
  rw [textOf]
  cases piece.text env <;> cases env.textOf ps <;> simp [Except.bind, Except.map]

theorem textOf_eq_error {ps : List Piece} {name : String} :
    env.textOf ps = .error name ↔
      (ps.filterMap Piece.name?).find? (fun n => (env.get? n).isNone) = some name := by
  induction ps with
  | nil => simp [textOf]
  | cons piece ps ih =>
    cases piece with
    | char c =>
      rw [textOf, List.filterMap_cons, Piece.name?, ← ih]
      cases env.textOf ps <;> simp [Piece.text, Except.bind, Except.map]
    | reference n =>
      rw [textOf, List.filterMap_cons, Piece.name?, List.find?_cons, Piece.text]
      cases env.get? n with
      | none => simp [Except.bind]
      | some value =>
        simp only [Option.isNone_some]
        rw [← ih]
        cases env.textOf ps <;> simp [Except.bind, Except.map]

theorem resolve_eq (s : String) :
    env.resolve s = match env.textOf (pieces s.toList) with
      | .error name => .error (.missingVariable name)
      | .ok t => .ok (String.ofList t) := by
  rw [resolve, expand, expandChars_eq_textOf]
  cases env.textOf (pieces s.toList) <;> rfl

theorem resolve_eq_error {s : String} {e : SettingsError} :
    env.resolve s = .error e ↔
      ∃ name, (references s).find? (fun n => (env.get? n).isNone) = some name ∧
        e = .missingVariable name := by
  simp only [references, ← textOf_eq_error, resolve_eq]
  cases env.textOf (pieces s.toList) <;> simp [eq_comm]

theorem resolve_append {a b : String} (h : IsSeam a.toList b.toList) :
    env.resolve (a ++ b) = (env.resolve a).bind fun x => (env.resolve b).map (x ++ ·) := by
  rw [resolve_eq, resolve_eq, resolve_eq, String.toList_append, pieces_append h, textOf_append]
  cases env.textOf (pieces a.toList) <;> cases env.textOf (pieces b.toList) <;>
    simp [Except.bind, Except.map]

theorem resolve_reference {s name : String} {t : List Char} (hs : s.toList = '$' :: t)
    (h : Refers t name.toList []) : env.resolve s = env.value name := by
  rw [resolve_eq, hs, pieces_reference h, pieces_nil, textOf, Piece.text, String.ofList_toList,
    value]
  cases env.get? name <;> simp [textOf, Except.bind, Except.map]

theorem textOf_of_no_references {t : List Char} (h : (pieces t).filterMap Piece.name? = []) :
    env.textOf (pieces t) = .ok t := by
  induction t using pieces_induction with
  | nil => rw [pieces_nil, textOf]
  | char c t hc ih =>
    rw [pieces_char hc] at h ⊢
    exact textOf_cons_eq_ok.2 ⟨[c], t, rfl, ih h, rfl⟩
  | dollar t ht ih =>
    rw [pieces_dollar ht] at h ⊢
    exact textOf_cons_eq_ok.2 ⟨['$'], t, rfl, ih h, rfl⟩
  | reference t name rest ht _ =>
    rw [pieces_reference ht] at h
    cases h

theorem resolve_of_no_references {s : String} (h : references s = []) :
    env.resolve s = .ok s := by
  rw [resolve_eq, env.textOf_of_no_references h]
  exact congrArg Except.ok String.ofList_toList

theorem pieces_plain {t : List Char} (h : '$' ∉ t) : pieces t = t.map Piece.char := by
  induction t with
  | nil => exact pieces_nil
  | cons c t ih =>
    rw [List.mem_cons, not_or] at h
    rw [pieces_char (Ne.symm h.1), ih h.2, List.map_cons]

theorem resolve_plain {s : String} (h : '$' ∉ s.toList) : env.resolve s = .ok s := by
  refine env.resolve_of_no_references ?_
  rw [references, pieces_plain h, List.filterMap_map, List.filterMap_eq_nil_iff]
  exact fun c _ => rfl

theorem resolve_dollar {s : String} (h : LeavesDollar s.toList) :
    env.resolve ("$" ++ s) = (env.resolve s).map ("$" ++ ·) := by
  have hlist : ("$" ++ s).toList = '$' :: s.toList := by simp
  rw [resolve_eq, resolve_eq, hlist, pieces_dollar h, textOf, Piece.text]
  cases env.textOf (pieces s.toList) <;>
    simp [Except.bind, Except.map, String.ofList_cons]

end Text

/-- Expansion of a text, reference by reference from left to right. -/
theorem resolve_left_to_right (env : Environment) :
    (∀ s : String, '$' ∉ s.toList → env.resolve s = .ok s) ∧
    (∀ name : String, '\x7d' ∉ name.toList →
      env.resolve ("$\x7b" ++ name ++ "\x7d") = env.value name ∧
        env.resolve ("$\x7b" ++ name) = env.value name) ∧
    (∀ name : String, name ≠ "" → (∀ c ∈ name.toList, isNameChar c) →
      env.resolve ("$" ++ name) = env.value name) ∧
    (∀ s : String, LeavesDollar s.toList →
      env.resolve ("$" ++ s) = (env.resolve s).map ("$" ++ ·)) ∧
    (∀ a b : String, IsSeam a.toList b.toList →
      env.resolve (a ++ b) = (env.resolve a).bind fun x => (env.resolve b).map (x ++ ·)) ∧
    ∀ s e, env.resolve s = .error e ↔
      ∃ name, (references s).find? (fun n => (env.get? n).isNone) = some name ∧
        e = .missingVariable name := by
  refine ⟨fun s => env.resolve_plain, fun name hname => ⟨?_, ?_⟩, fun name hne hname => ?_,
    fun s => env.resolve_dollar, fun a b => env.resolve_append, fun s e => env.resolve_eq_error⟩
  · exact env.resolve_reference (by simp) (.braced hname)
  · exact env.resolve_reference (by simp) (.unclosed hname)
  · have hplain : Refers (name.toList ++ []) name.toList [] :=
      .plain (by simpa using hne) hname (by simp)
    rw [List.append_nil] at hplain
    exact env.resolve_reference (by simp) hplain

theorem resolve_left_to_right_nested :
    let env : Environment := { entries := [("X", "a$Y\x7b"), ("Y", "é")] }
    IsSeam "pre$X".toList "-$\x7bY\x7d$".toList ∧
      env.resolve ("pre$X" ++ "-$\x7bY\x7d$") = .ok ("prea$Y\x7b" ++ "-é$") := by
  intro env
  have hseam : IsSeam "pre$X".toList "-$\x7bY\x7d$".toList := by
    refine ⟨fun u v h => ?_, fun _ _ _ _ c hc => ?_, fun _ _ => by simp⟩
    · have hbrace : '\x7b' ∈ "pre$X".toList := h ▸ by simp
      simp at hbrace
    · obtain rfl : '-' = c := by simpa using hc
      decide +kernel
  have hbefore : env.resolve "pre$X" = .ok "prea$Y\x7b" :=
    ok_of_toOption (by decide +kernel)
  have hbehind : env.resolve "-$\x7bY\x7d$" = .ok "-é$" :=
    ok_of_toOption (by decide +kernel)
  refine ⟨hseam, ?_⟩
  rw [(resolve_left_to_right env).2.2.2.2.1 _ _ hseam, hbefore, hbehind]
  rfl

end Environment

end Agora
