import Agora.Proofs.Race.Run

namespace Agora

open Store

namespace Race

variable {σ : Type} {synthesizer : Synthesizer σ} {options : CompilerOptions} {Q : σ → Prop}
  {r r' : Race σ} {p : Nat → Toggle.Phase} {i : Nat} {x : Racer}

def Executes (r r' : Race σ) (i : Nat) (intent : Intent)
    (answer : Except ExecutorError (List Row)) : Prop :=
  ∃ earlier reply s, r.callsOf i = earlier ++ [.synthesize intent.text reply] ∧
    r'.callsOf i = r.callsOf i ++ [.execute s answer]

theorem Sound.executes_find (h : Sound options synthesizer Q r p) (hx : r.racers[i]? = some x)
    (hp : p i = .finding) {s : BoundStatement} {answer : Except ExecutorError (List Row)}
    (hcalls : r'.callsOf i = r.callsOf i ++ [.execute s answer]) :
    Executes r r' i x.toggle.find answer := by
  have hstage := hp ▸ h.stage i x hx
  refine ⟨[], ?_⟩
  generalize htask : x.task = task, hcs : x.calls = cs at hstage
  cases hstage with
  | @finding _ raw =>
    exact ⟨.ok raw, s, by simp [callsOf, hx, hcs], hcalls⟩

theorem Sound.executes_write (h : Sound options synthesizer Q r p) (hx : r.racers[i]? = some x)
    {found : Option Mark} (hp : p i = .writing found) {s : BoundStatement}
    {answer : Except ExecutorError (List Row)}
    (hcalls : r'.callsOf i = r.callsOf i ++ [.execute s answer]) :
    Executes r r' i (x.toggle.write found) answer := by
  have hstage := hp ▸ h.stage i x hx
  generalize htask : x.task = task, hcs : x.calls = cs at hstage
  cases hstage with
  | @writing _ _ _ raw s' rows raw' =>
    exact ⟨[.synthesize x.toggle.find.text (.ok raw), .execute s' (.ok rows)], .ok raw', s,
      by simp [callsOf, hx, hcs], hcalls⟩

def InsertedBetween (course : Nat → Race σ) (i : Nat) (k : Key) (m n : Nat) : Prop :=
  ∃ l, m < l ∧ l < n ∧ ∃ j u rows, j ≠ i ∧ (course 0).toggles[j]? = some u ∧ u.key = k ∧
    Executes (course l) (course (l + 1)) j u.insertion (.ok rows)

/-- How a toggle fails: it makes its lookup in one move and its insert in a later one, which is
refused because the key was taken in between, or for want of an id. -/
def Fails (course : Nat → Race σ) (i : Nat) (t : Toggle) (e : QueryError) : Prop :=
  ∃ m n rows failure, m < n ∧ Executes (course m) (course (m + 1)) i t.find (.ok rows) ∧
    Executes (course n) (course (n + 1)) i t.insertion (.error failure) ∧
    e = .executionFailed failure ∧
    (e.isConstraintViolation = true ∧ InsertedBetween course i t.key m n ∨
      (∃ sql, e = noIdLeft sql) ∧ ((course n).database.at t.table).nextId? = none)

/-- What there is to say of a toggle by its phase: as long as it is about to insert, its key is free
or was taken since its lookup. -/
def Accounted (course : Nat → Race σ) (n i : Nat) (t : Toggle) : Toggle.Phase → Prop
  | .decided none | .writing none => ∃ m rows, m < n ∧
      Executes (course m) (course (m + 1)) i t.find (.ok rows) ∧
      (t.key.Holds (course n).database none ∨ InsertedBetween course i t.key m n)
  | .done (.error e) => Fails course i t e
  | _ => True

theorem InsertedBetween.succ {course : Nat → Race σ} {k : Key} {m n : Nat}
    (h : InsertedBetween course i k m n) : InsertedBetween course i k m (n + 1) := by
  obtain ⟨l, hm, hn, hl⟩ := h
  exact ⟨l, hm, by omega, hl⟩

theorem Accounted.succ {course : Nat → Race σ} {n : Nat} {t : Toggle} {q : Toggle.Phase}
    (h : Accounted course n i t q)
    (hkey : ∀ m < n, t.key.Holds (course n).database none →
      t.key.Holds (course (n + 1)).database none ∨ InsertedBetween course i t.key m (n + 1)) :
    Accounted course (n + 1) i t q := by
  have hlooked (hlooked : ∃ m rows, m < n ∧
      Executes (course m) (course (m + 1)) i t.find (.ok rows) ∧
      (t.key.Holds (course n).database none ∨ InsertedBetween course i t.key m n)) :
      ∃ m rows, m < n + 1 ∧ Executes (course m) (course (m + 1)) i t.find (.ok rows) ∧
        (t.key.Holds (course (n + 1)).database none ∨
          InsertedBetween course i t.key m (n + 1)) := by
    obtain ⟨m, rows, hm, hfind, hsince⟩ := hlooked
    refine ⟨m, rows, by omega, hfind, ?_⟩
    rcases hsince with hnone | hinserted
    · exact hkey m hm hnone
    · exact .inr hinserted.succ
  match q with
  | .decided none => exact hlooked h
  | .writing none => exact hlooked h
  | .done (.error e) => exact h
  | .ready | .finding | .decided (some _) | .writing (some _) | .done (.ok _) => trivial

namespace Chronicle

variable {moves : List Nat} {ps : Nat → Nat → Toggle.Phase} {t : Toggle}

theorem free_or_inserted (h : Chronicle options synthesizer Q r moves ps) {j n m : Nat} {c : Call}
    (hadvance : Advance (r.after synthesizer moves n) (ps n) j x c
      (r.after synthesizer moves (n + 1)) (ps (n + 1)))
    (hne : j ≠ i) (hm : m < n) {k : Key}
    (hnone : k.Holds (r.after synthesizer moves n).database none) :
    k.Holds (r.after synthesizer moves (n + 1)).database none ∨
      InsertedBetween (r.after synthesizer moves) i k m (n + 1) := by
  by_cases hk : k = x.toggle.key
  · subst hk
    rcases hadvance.turn.stays_free (h.sound n).orderly hnone with hstays | ⟨hp, s, rows, rfl⟩
    · exact .inl hstays
    · have hinsert := (h.sound n).executes_write hadvance.self hp hadvance.calls
      have hj := (congrArg (·[j]?) (toggles_after synthesizer r moves n)).symm.trans
        (toggle_of_racers hadvance.self)
      exact .inr ⟨n, hm, by omega, j, x.toggle, rows, hne, hj, rfl, hinsert⟩
  · exact .inl (hadvance.turn.other hk hnone)

theorem accounted_advance (h : Chronicle options synthesizer Q r moves ps) {n : Nat} {c : Call}
    (hadvance : Advance (r.after synthesizer moves n) (ps n) i x c
      (r.after synthesizer moves (n + 1)) (ps (n + 1)))
    (hpast : Accounted (r.after synthesizer moves) n i x.toggle (ps n i)) :
    Accounted (r.after synthesizer moves) (n + 1) i x.toggle (ps (n + 1) i) := by
  have hturn := hadvance.turn
  have hcalls := hadvance.calls
  have hsound := h.sound n
  have hself := hadvance.self
  generalize hp : ps n i = q, hq : ps (n + 1) i = q', hc : c = d,
    hdb : (r.after synthesizer moves (n + 1)).database = db' at hturn
  rw [hp] at hpast
  cases hturn with
  | asks => trivial
  | @finds found s rows hfound =>
    cases found with
    | some w => trivial
    | none =>
      subst hc
      exact ⟨n, rows, by omega, hsound.executes_find hself hp hcalls, .inl (hdb ▸ hfound)⟩
  | @decides found =>
    cases found with
    | some w => trivial
    | none => exact Accounted.succ (q := .writing none) hpast fun m hm hnone => .inl (hdb ▸ hnone)
  | writes => trivial
  | @refused now s sql v hnow hne =>
    subst hc
    obtain ⟨m, rows, hm, hfind, hsince⟩ := hpast
    refine ⟨m, n, rows, _, hm, hfind, hsound.executes_write hself hp hcalls, rfl, .inl ⟨rfl, ?_⟩⟩
    exact hsince.resolve_left fun hnone => hne (hnow.unique hsound.orderly hnone)
  | @full s sql hid =>
    subst hc
    obtain ⟨m, rows, hm, hfind, -⟩ := hpast
    exact ⟨m, n, rows, _, hm, hfind, hsound.executes_write hself hp hcalls, rfl,
      .inr ⟨⟨sql, rfl⟩, hid⟩⟩

theorem accounted (h : Chronicle options synthesizer Q r moves ps)
    (hstart : ps 0 = firstPhases r.toggles) (n : Nat) (ht : r.toggles[i]? = some t) :
    Accounted (r.after synthesizer moves) n i t (ps n i) := by
  induction n with
  | zero =>
    rw [hstart, firstPhases_of_toggle ht]
    rcases Toggle.Phase.first_cases t with hp | ⟨out, hp⟩ <;> rw [hp] <;> trivial
  | succ n ih =>
    rcases h.move n with ⟨hrace, hphases⟩ | ⟨j, x, c, -, hadvance⟩
    · rw [hphases]
      exact ih.succ fun m hm hnone => .inl (hrace ▸ hnone)
    · by_cases hj : j = i
      · subst hj
        have hx := (toggle_of_racers hadvance.self).symm.trans
          ((congrArg (·[j]?) (toggles_after synthesizer r moves n)).trans ht)
        obtain rfl := Option.some.inj hx
        exact h.accounted_advance hadvance ih
      · rw [(hadvance.other i (Ne.symm hj)).2]
        exact ih.succ fun m hm hnone => h.free_or_inserted hadvance hj hm hnone

theorem unchanged (h : Chronicle options synthesizer Q r moves ps) {n : Nat}
    (hp : ∀ out, ps n i ≠ .done (.ok out)) {m : Nat} (hm : m < n) (hi : moves[m]? = some i) :
    (r.after synthesizer moves (m + 1)).database = (r.after synthesizer moves m).database := by
  induction n with
  | zero => cases hm
  | succ n ih =>
    rcases h.move n with ⟨hrace, hphases⟩ | ⟨j, x, c, hj, hadvance⟩
    · rcases Nat.lt_succ_iff_lt_or_eq.1 hm with hlt | rfl
      · exact ih (fun out => hphases ▸ hp out) hlt
      · rw [hrace]
    · by_cases hji : j = i
      · subst hji
        rcases Nat.lt_succ_iff_lt_or_eq.1 hm with hlt | rfl
        · refine ih (fun out hout => ?_) hlt
          have hgoing := hadvance.turn.going
          rw [hout] at hgoing
          cases hgoing
        · exact hadvance.turn.unchanged hp
      · rcases Nat.lt_succ_iff_lt_or_eq.1 hm with hlt | rfl
        · exact ih (fun out => (hadvance.other i (Ne.symm hji)).2 ▸ hp out) hlt
        · exact absurd (Option.some.inj (hj.symm.trans hi)) hji

end Chronicle

end Race

end Agora
