import Agora.Proofs.Race.Run

namespace Agora

open Store

def Key.inTurn (k : Key) (m : Option Mark) (ts : List Toggle) : Option Mark :=
  (ts.filter (·.key = k)).foldl (fun m t => t.next m) m

theorem Key.inTurn_concat (k : Key) (m : Option Mark) (ts : List Toggle) (t : Toggle) :
    k.inTurn m (ts ++ [t]) = if t.key = k then t.next (k.inTurn m ts) else k.inTurn m ts := by
  by_cases hk : t.key = k <;> simp [inTurn, hk]

namespace Race

variable {σ : Type} {synthesizer : Synthesizer σ} {options : CompilerOptions} {Q : σ → Prop}
  {r now now' : Race σ} {p p' : Nat → Toggle.Phase} {i j : Nat} {x : Racer} {c : Call}
  {m : Option Mark} {t : Toggle}

def inOrder (r : Race σ) (order : List Nat) : List Toggle :=
  order.filterMap (r.toggles[·]?)

theorem inOrder_concat {order : List Nat} (ht : r.toggles[i]? = some t) :
    r.inOrder (order ++ [i]) = r.inOrder order ++ [t] := by
  simp [inOrder, ht]

def Answers (r now : Race σ) (i : Nat) (t : Toggle) (m : Option Mark) (reply : Toggle.Reply) :
    Prop :=
  t.mark? = none ∧ reply = .ok (t.outcome none) ∨
    ∃ before later, now.finished = before ++ i :: later ∧
      reply = .ok (t.outcome (t.key.inTurn m (r.inOrder before)))

theorem Answers.mono {reply : Toggle.Reply} (h : Answers r now i t m reply)
    (hfinished : now.finished <+: now'.finished) : Answers r now' i t m reply := by
  refine h.imp id fun ⟨before, later, hbefore, hreply⟩ => ?_
  obtain ⟨rest, hrest⟩ := hfinished
  exact ⟨before, later ++ rest, by rw [← hrest, hbefore]; simp, hreply⟩

structure InTurn (r now : Race σ) (p : Nat → Toggle.Phase) : Prop where
  content : ∀ (k : Key) m, k.Holds r.database m →
    k.Holds now.database (k.inTurn m (r.inOrder now.finished))
  found : ∀ i t found, r.toggles[i]? = some t → (p i).found? = some found →
    t.key.Holds now.database found
  answers : ∀ i t m reply, r.toggles[i]? = some t → (p i).reply? = some reply →
    t.key.Holds r.database m → Answers r now i t m reply

theorem Advance.finished_prefix {r' : Race σ} (h : Advance r p i x c r' p') :
    r.finished <+: r'.finished := by
  rw [h.finished]
  split
  · exact List.prefix_append _ _
  · exact List.prefix_rfl

theorem mark_of_stage {q : Toggle.Phase} {task : Task Toggle.Reply} {cs : List Call}
    (h : Toggle.Stage options t q task cs) (hgoing : q.reply? = none) : t.mark?.isSome := by
  cases h with
  | rejected => cases hgoing
  | done => cases hgoing
  | ready hd => exact hd
  | finding hd => exact hd
  | decided hd => exact hd
  | writing hd => exact hd

theorem open_of_stage {q : Toggle.Phase} {task : Task Toggle.Reply} {cs : List Call}
    (h : Toggle.Stage options t q task cs) :
    cs.countP (·.isExecution) = 1 ↔ q.found?.isSome := by
  cases h with
  | done hcalls => simp [hcalls, Toggle.Phase.found?]
  | _ => simp [Call.isExecution, Toggle.Phase.found?]

theorem Sound.open_iff (h : Sound options synthesizer Q r p) (ht : r.toggles[i]? = some t) :
    r.Open i ↔ (p i).found?.isSome := by
  obtain ⟨x, hx, -⟩ := racers_of_toggle ht
  rw [← open_of_stage (h.stage i x hx), Open, callsOf, hx]
  rfl

namespace InTurn

theorem going (h : InTurn r now p) (hadvance : Advance now p j x c now' p')
    (ht : r.toggles[j]? = some x.toggle) (hgoing : (p' j).reply? = none)
    (hdb : now'.database = now.database) (hm : x.toggle.key.Holds now.database m)
    (hfound : ∀ found, (p' j).found? = some found → found = m) : InTurn r now' p' := by
  have hfinished : now'.finished = now.finished := by rw [hadvance.finished, hgoing]; rfl
  refine ⟨by rw [hdb, hfinished]; exact h.content, fun i t found hi hp => ?_,
    fun i t m' reply hi hp hm' => ?_⟩
  · rw [hdb]
    by_cases hij : i = j
    · subst hij
      obtain rfl := Option.some.inj (ht.symm.trans hi)
      exact hfound found hp ▸ hm
    · exact h.found i t found hi ((hadvance.other i hij).2 ▸ hp)
  · have hij : i ≠ j := by
      rintro rfl
      rw [hgoing] at hp
      cases hp
    refine (h.answers i t m' reply hi ?_ hm').mono hadvance.finished_prefix
    exact (hadvance.other i hij).2 ▸ hp

theorem ended (h : InTurn r now p) (hs : Sound options synthesizer Q now p)
    (hr : Orderly r.database) (hadvance : Advance now p j x c now' p')
    (htoggles : now.toggles = r.toggles) (hm : x.toggle.key.Holds r.database m)
    (hp' : p' j = .done (.ok (x.toggle.outcome
      (x.toggle.key.inTurn m (r.inOrder now.finished)))))
    (hnext : x.toggle.key.Holds now'.database
      (x.toggle.next (x.toggle.key.inTurn m (r.inOrder now.finished))))
    (hapart : ∀ i t, r.toggles[i]? = some t → t.key = x.toggle.key → now.Open i → now.Open j →
      i = j) : InTurn r now' p' := by
  have ht : r.toggles[j]? = some x.toggle := htoggles ▸ toggle_of_racers hadvance.self
  have hfinished : now'.finished = now.finished ++ [j] := by rw [hadvance.finished, hp']; rfl
  refine ⟨fun k m' hm' => ?_, fun i t found hi hp => ?_, fun i t m' reply hi hp hm' => ?_⟩
  · rw [hfinished, inOrder_concat ht, Key.inTurn_concat]
    split
    · rename_i hk
      subst hk
      rwa [hm'.unique hr hm]
    · rename_i hk
      exact hadvance.turn.other (Ne.symm hk) (h.content k m' hm')
  · have hij : i ≠ j := by
      rintro rfl
      rw [hp'] at hp
      cases hp
    rw [(hadvance.other i hij).2] at hp
    have hheld := h.found i t found hi hp
    by_cases hk : t.key = x.toggle.key
    · rcases hadvance.turn.unchanged_or_found with hdb | hopen
      · rwa [hdb]
      · refine absurd (hapart i t hi hk ?_ ?_) hij
        · exact (hs.open_iff (htoggles ▸ hi)).2 (by rw [hp]; rfl)
        · exact (hs.open_iff (htoggles ▸ ht)).2 hopen
    · exact hadvance.turn.other hk hheld
  · by_cases hij : i = j
    · subst hij
      obtain rfl := Option.some.inj (ht.symm.trans hi)
      obtain rfl := hm'.unique hr hm
      rw [hp'] at hp
      exact .inr ⟨now.finished, [], hfinished, (Option.some.inj hp).symm⟩
    · refine (h.answers i t m' reply hi ?_ hm').mono hadvance.finished_prefix
      exact (hadvance.other i hij).2 ▸ hp

theorem advance (h : InTurn r now p) (hs : Sound options synthesizer Q now p)
    (hr : Orderly r.database) (htoggles : now.toggles = r.toggles)
    (hadvance : Advance now p j x c now' p')
    (hroom : ∀ sql, p' j ≠ .done (.error (noIdLeft sql)))
    (hapart : ∀ i t, r.toggles[i]? = some t → t.key = x.toggle.key → now.Open i → now.Open j →
      i = j) : InTurn r now' p' := by
  have ht : r.toggles[j]? = some x.toggle := htoggles ▸ toggle_of_racers hadvance.self
  obtain ⟨m, hm⟩ := x.toggle.key.exists_holds hr
  have hnow := h.content _ m hm
  have hd := mark_of_stage (hs.stage j x hadvance.self) hadvance.turn.going
  rcases hadvance.turn.alone hs.orderly hd hnow
      (fun found hp => (h.found j _ found ht hp).unique hs.orderly hnow) hroom with
    ⟨hgoing, hdb, hfound⟩ | ⟨hp', hnext⟩
  · exact h.going hadvance ht hgoing hdb hnow hfound
  · exact h.ended hs hr hadvance htoggles hm hp' hnext hapart

end InTurn

theorem inTurn_start (options : CompilerOptions) (w : World σ Agora.Store)
    (toggles : List Toggle) :
    InTurn (start options w toggles) (start options w toggles) (firstPhases toggles) := by
  refine ⟨fun k m hm => hm, fun i t found hi hp => ?_, fun i t m reply hi hp _ => ?_⟩ <;>
    rw [toggles_start] at hi <;> rw [firstPhases_of_toggle hi, Toggle.Phase.first] at hp
  · split at hp <;> cases hp
  · split at hp
    · cases hp
    · rename_i hd
      exact .inl ⟨by simpa using hd, (Option.some.inj hp).symm⟩

/-- Whether no two toggles on one key are ever between their lookups and their writes at the same
time. -/
def NeverOverlap (synthesizer : Synthesizer σ) (r : Race σ) (moves : List Nat) : Prop :=
  ∀ n i j t u, r.toggles[i]? = some t → r.toggles[j]? = some u → t.key = u.key →
    (r.after synthesizer moves n).Open i → (r.after synthesizer moves n).Open j → i = j

theorem Chronicle.inTurn {moves : List Nat} {ps : Nat → Nat → Toggle.Phase}
    (h : Chronicle options synthesizer Q r moves ps) (hstart : InTurn r r (ps 0))
    (hroom : (r.run synthesizer moves).NoneFull) (hapart : NeverOverlap synthesizer r moves)
    (n : Nat) : InTurn r (r.after synthesizer moves n) (ps n) := by
  induction n with
  | zero => exact hstart
  | succ n ih =>
    rcases h.move n with ⟨hrace, hphases⟩ | ⟨j, x, c, -, hadvance⟩
    · rwa [hrace, hphases]
    · have htoggles := toggles_after synthesizer r moves n
      have hx := (toggle_of_racers hadvance.self).symm.trans (congrArg (·[j]?) htoggles)
      obtain ⟨y, hy, -⟩ := racers_of_toggle (hadvance.toggles.symm ▸ toggle_of_racers hadvance.self)
      rw [← run_after synthesizer r moves (n + 1)] at hroom
      exact ih.advance (h.sound n) (h.sound 0).orderly htoggles hadvance
        (hroom.ne_noIdLeft (h.sound (n + 1)) hy) fun i t hi hk => hapart n i j t _ hi hx.symm hk

theorem length_of_found {q : Toggle.Phase} {task : Task Toggle.Reply} {cs : List Call}
    (h : Toggle.Stage options t q task cs) (hfound : q.found?.isSome) :
    2 ≤ cs.length ∧ cs.length ≤ 3 ∧ q.reply? = none := by
  cases h with
  | decided => exact ⟨by simp, by simp, rfl⟩
  | writing => exact ⟨by simp, by simp, rfl⟩
  | _ => cases hfound

/-- A toggle is between its lookup and its write from its second move to its fourth. -/
theorem Chronicle.count_of_open {moves : List Nat} {ps : Nat → Nat → Toggle.Phase}
    (h : Chronicle options synthesizer Q r moves ps) (hx : r.racers[i]? = some x)
    (hcalls : x.calls = []) {n : Nat} (hopen : (r.after synthesizer moves n).Open i) :
    2 ≤ (moves.take n).count i ∧ (moves.take n).count i ≤ 3 := by
  have ht := (congrArg (·[i]?) (toggles_after synthesizer r moves n)).trans (toggle_of_racers hx)
  obtain ⟨y, hy, -⟩ := racers_of_toggle ht
  obtain ⟨hle, hge, hgoing⟩ := length_of_found ((h.sound n).stage i y hy)
    (((h.sound n).open_iff ht).1 hopen)
  rcases length_callsOf_run synthesizer (moves.take n) hx with hreply | hlength
  · have hnone := ((h.sound n).reply?_eq hy).trans hgoing
    rw [after] at hnone
    simp [hnone] at hreply
  · rw [after] at hy
    simp only [callsOf, hx, hy, hcalls, Option.elim, List.length_nil, Nat.zero_add] at hlength
    exact hlength ▸ ⟨hle, hge⟩

end Race

end Agora
