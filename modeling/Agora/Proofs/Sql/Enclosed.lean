import Agora.Proofs.Sql.Lookahead

namespace Agora.Sql

/-- A text is read up to `r`, and only `stop` is asked of what follows the piece. -/
def ReadsTo (f : List Char → Option (List Char)) (stop : List Char → Prop) (s r : List Char) : Prop :=
  stop r ∧ ∃ m ≠ [], s = m ++ r ∧ ∀ u, stop u → f (m ++ u) = some u

def Closes (f : List Char → Option (List Char)) (stop : List Char → Prop) : Prop :=
  ∀ s r, f s = some r → ReadsTo f stop s r

theorem head?_append_of_ne_nil {m : List Char} (hm : m ≠ []) (r u : List Char) :
    (m ++ r).head? = (m ++ u).head? := by
  obtain ⟨c, m, rfl⟩ := List.exists_cons_of_ne_nil hm
  rfl

namespace ReadsTo

variable {f g : List Char → Option (List Char)} {stop : List Char → Prop} {s r : List Char}

theorem last (m : List Char) (hm : m ≠ []) (hr : stop r)
    (h : ∀ u, stop u → f (m ++ u) = some u) : ReadsTo f stop (m ++ r) r :=
  ⟨hr, m, hm, rfl, h⟩

theorem step (h : ReadsTo g stop s r) (p : List Char)
    (hf : ∀ u, f (p ++ u) = g u) : ReadsTo f stop (p ++ s) r := by
  obtain ⟨hr, m, hm, rfl, hread⟩ := h
  refine ⟨hr, p ++ m, by simp [hm], by simp, fun u hu => ?_⟩
  rw [List.append_assoc, hf, hread u hu]

end ReadsTo

section Closing

theorem closes_afterBlock? (depth : Nat) (previous : Char) :
    Closes (afterBlock? depth previous) fun _ => True := by
  intro s r h
  induction s generalizing depth previous with
  | nil => cases h
  | cons c s ih =>
    by_cases hopens : previous = '/' ∧ c = '*'
    · have hstep (u : List Char) : afterBlock? depth previous (c :: u) =
          afterBlock? (depth + 1) c u := by simp only [afterBlock?, if_pos hopens]
      exact (ih _ _ (hstep s ▸ h)).step [c] hstep
    by_cases hends : previous = '*' ∧ c = '/'
    · cases depth with
      | zero =>
        have hstep (u : List Char) : afterBlock? 0 previous (c :: u) = some u := by
          simp only [afterBlock?, if_neg hopens, if_pos hends]
        cases (hstep s).symm.trans h
        exact .last [c] nofun trivial fun u _ => hstep u
      | succ depth =>
        have hstep (u : List Char) : afterBlock? (depth + 1) previous (c :: u) =
            afterBlock? depth c u := by simp only [afterBlock?, if_neg hopens, if_pos hends]
        exact (ih _ _ (hstep s ▸ h)).step [c] hstep
    · have hstep (u : List Char) : afterBlock? depth previous (c :: u) = afterBlock? depth c u := by
        simp only [afterBlock?, if_neg hopens, if_neg hends]
      exact (ih _ _ (hstep s ▸ h)).step [c] hstep

theorem afterName?_end {q : Char} {u : List Char} (hu : u.head? ≠ some q) :
    afterName? q (q :: u) = some u := by
  cases u with
  | nil => simp [afterName?]
  | cons d u => simp_all [afterName?]

theorem afterName?_cons {q c : Char} (hc : c ≠ q) (s : List Char) :
    afterName? q (c :: s) = afterName? q s := by
  rw [afterName?.eq_def]
  exact if_neg hc

theorem closes_afterName? (q : Char) : Closes (afterName? q) (·.head? ≠ some q) := by
  intro s r h
  fun_induction afterName? q s with
  | case1 => cases h
  | case2 =>
    cases h
    exact .last [q] nofun nofun fun u hu => afterName?_end hu
  | case3 s ih => exact (ih h).step [q, q] fun u => by simp [afterName?]
  | case4 d s hd =>
    cases h
    exact .last [q] nofun (by simpa using hd) fun u hu => afterName?_end hu
  | case5 c s hc ih => exact (ih h).step [c] (afterName?_cons hc)

theorem afterString?_end {escapes : Bool} {u : List Char} (hu : u.head? ≠ some apostrophe) :
    afterString? escapes (apostrophe :: u) = some u := by
  cases u with
  | nil => simp [afterString?]
  | cons d u => simp_all [afterString?]

theorem afterString?_cons {escapes : Bool} {c : Char} (hc : c ≠ apostrophe)
    (hescapes : ¬(escapes ∧ c = backslash)) (s : List Char) :
    afterString? escapes (c :: s) = afterString? escapes s := by
  rw [afterString?.eq_def]
  exact (if_neg hc).trans (if_neg hescapes)

theorem closes_afterString? (escapes : Bool) :
    Closes (afterString? escapes) (·.head? ≠ some apostrophe) := by
  intro s r h
  fun_induction afterString? escapes s with
  | case1 => cases h
  | case2 =>
    cases h
    exact .last [apostrophe] nofun nofun fun u hu => afterString?_end hu
  | case3 s ih => exact (ih h).step [apostrophe, apostrophe] fun u => by simp [afterString?]
  | case4 d s hd =>
    cases h
    exact .last [apostrophe] nofun (by simpa using hd) fun u hu => afterString?_end hu
  | case5 => cases h
  | case6 c hc hescapes d s ih =>
    obtain ⟨rfl, rfl⟩ := hescapes
    exact (ih h).step [backslash, d] fun u => by rw [List.cons_append, afterString?.eq_def]; rfl
  | case7 c s hc hescapes ih => exact (ih h).step [c] (afterString?_cons hc hescapes)

theorem takeWhile_take_eq_nil {p : Char → Bool} {n : Nat} {s : List Char} :
    (s.take n).takeWhile p = [] ↔ n = 0 ∨ s.head?.any p = false := by
  cases n <;> cases s <;> simp

theorem takeWhile_take_append {p : Char → Bool} {n : Nat} {ds : List Char}
    (hds : ∀ c ∈ ds, p c) (hlen : ds.length ≤ n) (u : List Char) :
    ((ds ++ u).take n).takeWhile p = ds ++ (u.take (n - ds.length)).takeWhile p := by
  rw [List.take_append, List.take_of_length_le hlen, List.takeWhile_append_of_pos hds]

theorem afterDigits?_append {p : Char → Bool} {base most : Nat} {first s r : List Char}
    (h : afterDigits? p base first most s = some r) :
    ∃ m, s = m ++ r ∧
      ∀ u, u.head? = r.head? → afterDigits? p base first most (m ++ u) = some u := by
  obtain ⟨ds, hds⟩ : ∃ ds, (s.take most).takeWhile p = ds := ⟨_, rfl⟩
  have hpre : ds <+: s := hds ▸ (List.takeWhile_prefix p).trans (List.take_prefix most s)
  have hall : ∀ c ∈ ds, p c := fun c hc => List.mem_takeWhile_imp (hds ▸ hc)
  have hlen : ds.length ≤ most := by
    rw [← hds]
    exact (List.takeWhile_prefix p).length_le.trans (List.length_take_le most s)
  simp only [afterDigits?, hds, Option.ite_none_right_eq_some, Option.some.injEq] at h
  obtain ⟨hascii, rfl⟩ := h
  obtain ⟨r, rfl⟩ := hpre
  rw [List.drop_left]
  refine ⟨ds, rfl, fun u hu => ?_⟩
  -- the digits end at the same place, since they do so by their number or by the next character
  have hstop : (r.take (most - ds.length)).takeWhile p = [] := by
    rw [takeWhile_take_append hall hlen] at hds
    simpa using hds
  have htake : ((ds ++ u).take most).takeWhile p = ds := by
    rw [takeWhile_take_append hall hlen]
    rw [takeWhile_take_eq_nil, ← hu, ← takeWhile_take_eq_nil] at hstop
    rw [hstop, List.append_nil]
  simp [afterDigits?, htake, hascii]

theorem afterNumber?_append {count : Nat} {s r : List Char} (h : afterNumber? count s = some r) :
    ∃ m, s = m ++ r ∧ ∀ u, afterNumber? count (m ++ u) = some u := by
  unfold afterNumber? at h
  split at h
  · cases h
  · rename_i hlen
    split at h
    · rename_i hscalar
      cases h
      refine ⟨s.take count, (List.take_append_drop count s).symm, fun u => ?_⟩
      have hcount : (s.take count).length = count := List.length_take_of_le (by omega)
      have htake : (s.take count ++ u).take count = s.take count := List.take_left' hcount
      have hdrop : (s.take count ++ u).drop count = u := List.drop_left' hcount
      simp [afterNumber?, htake, hdrop, hscalar, hcount]
    · cases h

theorem head?_append_congr (m : List Char) {u r : List Char} (h : u.head? = r.head?) :
    (m ++ u).head? = (m ++ r).head? := by
  simp [List.head?_append, h]

theorem afterEscape?_append {s r : List Char} (h : afterEscape? s = some r) :
    ∃ m ≠ [], s = m ++ r ∧ ∀ u, u.head? = r.head? → afterEscape? (m ++ u) = some u := by
  cases s with
  | nil => cases h
  | cons c s =>
    by_cases hshort : c = 'u'
    · have hstep (t : List Char) : afterEscape? (c :: t) = afterNumber? 4 t := if_pos hshort
      obtain ⟨m, rfl, hm⟩ := afterNumber?_append ((hstep s).symm.trans h)
      exact ⟨c :: m, List.cons_ne_nil _ _, rfl, fun u _ => (hstep _).trans (hm u)⟩
    by_cases hlong : c = 'U'
    · have hstep (t : List Char) : afterEscape? (c :: t) = afterNumber? 8 t := by
        simp only [afterEscape?, if_neg hshort, if_pos hlong]
      obtain ⟨m, rfl, hm⟩ := afterNumber?_append ((hstep s).symm.trans h)
      exact ⟨c :: m, List.cons_ne_nil _ _, rfl, fun u _ => (hstep _).trans (hm u)⟩
    by_cases hhex : c = 'x'
    · have hstep (t : List Char) : afterEscape? (c :: t) =
          if t.head?.any Hex.isDigit then afterDigits? Hex.isDigit 16 [] 2 t else some t := by
        simp only [afterEscape?, if_neg hshort, if_neg hlong, if_pos hhex, getD_map_head?]
      rw [hstep] at h
      split at h
      · rename_i hdigit
        obtain ⟨m, rfl, hm⟩ := afterDigits?_append h
        refine ⟨c :: m, List.cons_ne_nil _ _, rfl, fun u hu => ?_⟩
        rw [List.cons_append, hstep, head?_append_congr m hu, if_pos hdigit, hm u hu]
      · rename_i hdigit
        cases h
        refine ⟨[c], List.cons_ne_nil _ _, rfl, fun u hu => ?_⟩
        exact (hstep u).trans (if_neg (hu ▸ hdigit))
    by_cases hoctal : isOctalDigit c
    · have hstep (t : List Char) : afterEscape? (c :: t) = afterDigits? isOctalDigit 8 [c] 2 t := by
        simp only [afterEscape?, if_neg hshort, if_neg hlong, if_neg hhex, if_pos hoctal]
      obtain ⟨m, rfl, hm⟩ := afterDigits?_append ((hstep s).symm.trans h)
      exact ⟨c :: m, List.cons_ne_nil _ _, rfl, fun u hu => (hstep _).trans (hm u hu)⟩
    by_cases hnul : c = '\x00'
    · simp only [afterEscape?, if_neg hshort, if_neg hlong, if_neg hhex, if_neg hoctal,
        if_pos hnul] at h
      cases h
    · have hstep (t : List Char) : afterEscape? (c :: t) = some t := by
        simp only [afterEscape?, if_neg hshort, if_neg hlong, if_neg hhex, if_neg hoctal,
          if_neg hnul]
      cases (hstep s).symm.trans h
      exact ⟨[c], List.cons_ne_nil _ _, rfl, fun u _ => hstep u⟩

theorem afterEscapedString?_end {u : List Char} (hu : u.head? ≠ some apostrophe) :
    afterEscapedString? (apostrophe :: u) = some u := by
  cases u with
  | nil => simp [afterEscapedString?]
  | cons d u => simp_all [afterEscapedString?]

theorem afterEscapedString?_cons {c : Char} (hc : c ≠ apostrophe) (hescape : c ≠ backslash)
    (s : List Char) : afterEscapedString? (c :: s) = afterEscapedString? s := by
  rw [afterEscapedString?.eq_def]
  exact (if_neg hc).trans (if_neg hescape)

theorem afterEscapedString?_escape {s r : List Char} (h : afterEscape? s = some r) :
    afterEscapedString? (backslash :: s) = afterEscapedString? r := by
  rw [afterEscapedString?.eq_def]
  simp only [show backslash ≠ apostrophe by decide, if_false, if_true]
  split <;> simp_all

theorem closes_afterEscapedString? : Closes afterEscapedString? (·.head? ≠ some apostrophe) := by
  intro s r h
  fun_induction afterEscapedString? s with
  | case1 => cases h
  | case2 =>
    cases h
    exact .last [apostrophe] nofun nofun fun u hu => afterEscapedString?_end hu
  | case3 s ih => exact (ih h).step [apostrophe, apostrophe] fun u => by simp [afterEscapedString?]
  | case4 d s hd =>
    cases h
    exact .last [apostrophe] nofun (by simpa using hd) fun u hu => afterEscapedString?_end hu
  | case5 => cases h
  | case6 s t ht _ _ ih =>
    obtain ⟨n, _, rfl, hn⟩ := afterEscape?_append ht
    obtain ⟨hr, m, hm, rfl, hread⟩ := ih h
    refine ⟨hr, backslash :: (n ++ m), nofun, by simp, fun u hu => ?_⟩
    have hescape := hn (m ++ u) (head?_append_of_ne_nil hm u r)
    rw [List.cons_append, List.append_assoc, afterEscapedString?_escape hescape, hread u hu]
  | case7 c s hc hescape ih => exact (ih h).step [c] (afterEscapedString?_cons hc hescape)

theorem closes_afterDollars? (dollar : Bool) : Closes (afterDollars? dollar) fun _ => True := by
  intro s r h
  fun_induction afterDollars? dollar s with
  | case1 => cases h
  | case2 dollar c s hc =>
    cases h
    exact .last [c] nofun trivial fun u _ => if_pos hc
  | case3 dollar c s hc ih => exact (ih h).step [c] fun u => if_neg hc

theorem afterTag?_append {tag s r : List Char} {b : Bool} (h : afterTag? tag s = some (b, r)) :
    ∃ m, s = m ++ r ∧ ∀ u, afterTag? tag (m ++ u) = some (b, u) := by
  induction tag generalizing s with
  | nil =>
    cases h
    exact ⟨[], rfl, fun u => rfl⟩
  | cons t tag ih =>
    cases s with
    | nil => cases h
    | cons c s =>
      by_cases hc : c = t
      · obtain ⟨m, rfl, hm⟩ := ih ((if_pos hc).symm.trans h)
        exact ⟨c :: m, rfl, fun u => (if_pos hc).trans (hm u)⟩
      · cases (if_neg hc).symm.trans h
        exact ⟨[c], rfl, fun u => if_neg hc⟩

theorem afterTagged?_cons {c : Char} (hc : c ≠ '$') (tag s : List Char) :
    afterTagged? tag (c :: s) = afterTagged? tag s := by
  rw [afterTagged?.eq_def]
  exact if_pos hc

theorem afterTagged?_dollar {tag s r : List Char} {b : Bool} (h : afterTag? tag s = some (b, r)) :
    afterTagged? tag ('$' :: s) =
      if b ∧ r.head? = some '$' then some (r.drop 1) else afterTagged? tag r := by
  rw [afterTagged?.eq_def]
  simp only [ne_eq, not_true_eq_false, if_false]
  split <;> simp_all

theorem closes_afterTagged? (tag : List Char) : Closes (afterTagged? tag) fun _ => True := by
  intro s r h
  fun_induction afterTagged? tag s with
  | case1 => cases h
  | case2 c s hc ih => exact (ih h).step [c] (afterTagged?_cons hc tag)
  | case3 => cases h
  | case4 c s hc matched t ht _ hends =>
    obtain rfl := not_not.1 hc
    obtain ⟨n, rfl, hn⟩ := afterTag?_append ht
    obtain ⟨t, rfl⟩ := List.head?_eq_some_iff.1 hends.2
    cases h
    refine ⟨trivial, '$' :: (n ++ ['$']), nofun, by simp, fun u _ => ?_⟩
    have htag : afterTag? tag (n ++ '$' :: u) = some (matched, '$' :: u) := hn _
    simp [afterTagged?_dollar htag, hends.1]
  | case5 c s hc matched t ht _ hends ih =>
    obtain rfl := not_not.1 hc
    obtain ⟨n, rfl, hn⟩ := afterTag?_append ht
    obtain ⟨_, m, hm, rfl, hread⟩ := ih h
    refine ⟨trivial, '$' :: (n ++ m), nofun, by simp, fun u _ => ?_⟩
    rw [List.cons_append, List.append_assoc, afterTagged?_dollar (hn (m ++ u)),
      head?_append_of_ne_nil hm u r, if_neg hends, hread u trivial]

theorem afterLine_append {m : List Char} (hm : '\n' ∉ m) (u : List Char) :
    afterLine (m ++ '\n' :: u) = u := by
  have hall : ∀ c ∈ m, decide (c ≠ '\n') = true := fun c hc =>
    decide_eq_true fun h => hm (h ▸ hc)
  rw [afterLine, List.dropWhile_append_of_pos hall]
  simp

theorem readsTo_afterLine {s : List Char} (h : '\n' ∈ s) :
    ReadsTo (fun s => some (afterLine s)) (fun _ => True) s (afterLine s) := by
  obtain ⟨m, r, rfl, hm⟩ := List.eq_append_cons_of_mem h
  rw [afterLine_append hm, show m ++ '\n' :: r = (m ++ ['\n']) ++ r by simp]
  exact .last _ (by simp) trivial fun u _ => by simp [afterLine_append hm]

def isTagPart (c : Char) : Bool :=
  Text.isAlphanumeric c || c = '_'

theorem isTagPart_dollar : isTagPart '$' = false := by
  decide +kernel

theorem afterDollar?_tag {tag : List Char} (htag : ∀ c ∈ tag, isTagPart c) (u : List Char) :
    afterDollar? (tag ++ '$' :: u) =
      if tag = [] then afterDollars? false u else afterTagged? tag u := by
  have htake : (tag ++ '$' :: u).takeWhile isTagPart = tag := by
    rw [List.takeWhile_append_of_pos htag]
    simp [isTagPart_dollar]
  have hdrop : (tag ++ '$' :: u).dropWhile isTagPart = '$' :: u := by
    rw [List.dropWhile_append_of_pos htag]
    simp [isTagPart_dollar]
  have hbody : afterDollar? (tag ++ '$' :: u) =
      if (tag ++ '$' :: u).head? = some '$' then afterDollars? false ((tag ++ '$' :: u).drop 1)
      else if ((tag ++ '$' :: u).dropWhile isTagPart).head? = some '$' then
        afterTagged? ((tag ++ '$' :: u).takeWhile isTagPart)
          (((tag ++ '$' :: u).dropWhile isTagPart).drop 1)
      else some ((tag ++ '$' :: u).dropWhile isTagPart) := rfl
  rw [hbody, htake, hdrop]
  cases tag with
  | nil => rfl
  | cons c tag =>
    have hc : c ≠ '$' := by
      rintro rfl
      exact Bool.false_ne_true (isTagPart_dollar ▸ htag '$' List.mem_cons_self)
    simp [hc]

theorem readsTo_afterDollar? {s r : List Char} (hs : (s.dropWhile isTagPart).head? = some '$')
    (h : afterDollar? s = some r) : ReadsTo afterDollar? (fun _ => True) s r := by
  obtain ⟨t, ht⟩ := List.head?_eq_some_iff.1 hs
  obtain ⟨tag, htag⟩ : ∃ tag, s.takeWhile isTagPart = tag := ⟨_, rfl⟩
  obtain rfl : s = tag ++ '$' :: t := by
    rw [← ht, ← htag, List.takeWhile_append_dropWhile]
  have hpart : ∀ c ∈ tag, isTagPart c := fun c hc => List.mem_takeWhile_imp (htag ▸ hc)
  have hstep := afterDollar?_tag hpart
  have hread : ReadsTo (fun u => if tag = [] then afterDollars? false u else afterTagged? tag u)
      (fun _ => True) t r := by
    rw [hstep] at h
    by_cases hnil : tag = []
    · simp only [if_pos hnil] at h ⊢
      exact closes_afterDollars? false t r h
    · simp only [if_neg hnil] at h ⊢
      exact closes_afterTagged? tag t r h
  have := hread.step (tag ++ ['$']) (f := afterDollar?) fun u => by
    rw [List.append_assoc]
    exact hstep u
  rwa [List.append_assoc] at this

end Closing

def Start.encloses : Start → Bool
  | .skippingString | .escapedString | .string | .name _ | .lineComment | .blockComment
  | .dollar => true
  | _ => false

def Start.Stops : Start → List Char → Prop
  | .skippingString, u | .escapedString, u | .string, u => u.head? ≠ some apostrophe
  | .name endQuote, u => u.head? ≠ some endQuote
  | _, _ => True

def Start.Bounded : Start → List Char → Prop
  | .lineComment, s => '\n' ∈ s
  | .dollar, s => (s.dropWhile isTagPart).head? = some '$'
  | _, _ => True

def Start.after? : Start → List Char → Option (List Char)
  | .skippingString, s => afterString? true (s.drop 1)
  | .escapedString, s => afterEscapedString? (s.drop 1)
  | .string, s => afterString? false s
  | .name endQuote, s => afterName? endQuote s
  | .lineComment, s => some (afterLine (s.drop 1))
  | .blockComment, s => afterBlock? 0 ' ' (s.drop 1)
  | .dollar, s => afterDollar? s
  | _, _ => none

def Start.token : Start → Token
  | .name _ => .name
  | .lineComment | .blockComment => .blank
  | _ => .other

theorem next?_of_encloses {k : Start} (henc : k.encloses) {c : Char} {s : List Char}
    (hk : Start.of c s.head? = k) : next? c s = (k.after? s).map (k.token, ·) := by
  unfold next?
  rw [hk]
  cases k <;> first | rfl | cases henc

def Start.isPair : Start → Bool
  | .skippingString | .escapedString | .lineComment | .blockComment => true
  | _ => false

theorem Start.isPair_of {c : Char} {next : Option Char} (hquote : next ≠ some apostrophe)
    (hdash : next ≠ some '-') (hstar : next ≠ some '*') : (Start.of c next).isPair = false := by
  simp only [Start.of, hquote, hdash, hstar, decide_false, Bool.and_false, Bool.false_eq_true,
    if_false, apply_ite Start.isPair]
  simp only [Start.isPair, ite_self]

theorem Start.second {c : Char} {s : List Char} {k : Start} (hk : Start.of c s.head? = k)
    (h : k.isPair) : ∃ d t, s = d :: t ∧ d ≠ '\n' := by
  subst hk
  cases s with
  | nil =>
    have hnone : (Start.of c none).isPair = false := isPair_of nofun nofun nofun
    cases hnone.symm.trans h
  | cons d t =>
    refine ⟨d, t, rfl, ?_⟩
    rintro rfl
    have hline : (Start.of c (some '\n')).isPair = false :=
      isPair_of (by decide) (by decide) (by decide)
    cases hline.symm.trans h

def Start.isNameUpTo (q : Char) : Start → Bool
  | .name endQuote => endQuote = q
  | _ => false

theorem Start.endQuote_ne_semicolon (c : Char) (next : Option Char) :
    (Start.of c next).isNameUpTo ';' = false := by
  by_cases hc : c = ';'
  · have hstart : Start.of c next = .semicolon := by
      subst hc
      rfl
    rw [hstart]
    rfl
  · have hbracket : decide (']' = ';') = false := rfl
    simp only [Start.of, apply_ite (Start.isNameUpTo ';')]
    simp only [Start.isNameUpTo, hc, hbracket, decide_false, ite_self]

theorem Start.Stops.congr {k : Start} {c : Char} {next : Option Char} (hk : Start.of c next = k)
    {r u : List Char} (h : Alike r u) (hr : k.Stops r) : k.Stops u := by
  have hquote := mt (h.head_eq_iff (show apostrophe ≠ ';' by decide)).2
  cases k with
  | skippingString | escapedString | string => exact hquote hr
  | name q =>
    have hq : q ≠ ';' := by
      have := Start.endQuote_ne_semicolon c next
      rw [hk] at this
      exact of_decide_eq_false this
    exact mt (h.head_eq_iff hq).2 hr
  | _ => trivial

theorem readsTo_after? {k : Start} (henc : k.encloses) {c : Char} {s r : List Char}
    (hk : Start.of c s.head? = k) (hbound : k.Bounded s) (h : k.after? s = some r) :
    ReadsTo k.after? k.Stops s r := by
  have opened {f : List Char → Option (List Char)} {stop : List Char → Prop} {d : Char}
      {t : List Char} (h : ReadsTo f stop t r) :
      ReadsTo (fun s => f (s.drop 1)) stop (d :: t) r := h.step [d] fun _ => rfl
  cases k with
  | skippingString =>
    obtain ⟨d, t, rfl, -⟩ := Start.second hk rfl
    exact opened (closes_afterString? true t r h)
  | escapedString =>
    obtain ⟨d, t, rfl, -⟩ := Start.second hk rfl
    exact opened (closes_afterEscapedString? t r h)
  | string => exact closes_afterString? false s r h
  | name q => exact closes_afterName? q s r h
  | lineComment =>
    obtain ⟨d, t, rfl, hd⟩ := Start.second hk rfl
    cases h
    exact opened (readsTo_afterLine ((List.mem_cons.1 hbound).resolve_left hd.symm))
  | blockComment =>
    obtain ⟨d, t, rfl, -⟩ := Start.second hk rfl
    exact opened (closes_afterBlock? 0 ' ' t r h)
  | dollar => exact readsTo_afterDollar? hbound h
  | _ => cases henc

theorem next?_enclosed {k : Start} (henc : k.encloses) {c : Char} {s r : List Char} {t : Token}
    (hk : Start.of c s.head? = k) (hbound : k.Bounded s) (h : next? c s = some (t, r)) :
    t = k.token ∧ k.Stops r ∧
      ∃ m ≠ [], s = m ++ r ∧ ∀ u, k.Stops u → next? c (m ++ u) = some (t, u) := by
  rw [next?_of_encloses henc hk] at h
  obtain ⟨r, hr, ⟨⟩⟩ := Option.map_eq_some_iff.1 h
  obtain ⟨hstop, m, hm, rfl, hread⟩ := readsTo_after? henc hk hbound hr
  refine ⟨rfl, hstop, m, hm, rfl, fun u hu => ?_⟩
  rw [head?_append_of_ne_nil hm r u] at hk
  rw [next?_of_encloses henc hk, hread u hu]
  rfl

end Agora.Sql
