import Mathlib.Logic.Function.Basic
import Agora.Proofs.Toggle.Phase

namespace Agora

open Store

def Task.result? {α : Type} : Task α → Option α
  | .done a => some a
  | _ => none

structure Racer where
  toggle : Toggle
  task : Task Toggle.Reply
  calls : List Call := []

structure Race (σ : Type) where
  world : World σ Agora.Store
  racers : List Racer
  finished : List Nat := []

namespace Race

variable {σ : Type}

def start (options : CompilerOptions) (w : World σ Agora.Store) (toggles : List Toggle) :
    Race σ where
  world := w
  racers := toggles.map fun t => { toggle := t, task := t.task options .compiled }

def step (synthesizer : Synthesizer σ) (r : Race σ) (i : Nat) : Race σ :=
  match r.racers[i]? with
  | none => r
  | some x => match x.task.call? (onStore synthesizer) r.world with
    | none => r
    | some c =>
        let (task, w) := x.task.step (onStore synthesizer) r.world
        { world := w
          racers := r.racers.set i { x with task, calls := x.calls ++ [c] }
          finished := if task.result?.isSome then r.finished ++ [i] else r.finished }

def run (synthesizer : Synthesizer σ) (r : Race σ) (moves : List Nat) : Race σ :=
  moves.foldl (step synthesizer) r

def toggles (r : Race σ) : List Toggle := r.racers.map (·.toggle)

def database (r : Race σ) : Database := r.world.store.database

def callsOf (r : Race σ) (i : Nat) : List Call :=
  (r.racers[i]?).elim [] (·.calls)

def reply? (r : Race σ) (i : Nat) : Option Toggle.Reply :=
  r.racers[i]?.bind (·.task.result?)

/-- Whether no toggle of a race has failed but for a constraint. -/
def NoneFull (r : Race σ) : Prop :=
  ∀ i e, r.reply? i = some (.error e) → e.isConstraintViolation = true

def Open (r : Race σ) (i : Nat) : Prop :=
  (r.callsOf i).countP (·.isExecution) = 1

variable {synthesizer : Synthesizer σ} {options : CompilerOptions} {Q : σ → Prop}
  {r r' : Race σ} {i j : Nat} {x : Racer} {c : Call}

theorem call?_eq_none {α τ : Type} {services : Services σ τ} {t : Task α} {w : World σ τ} :
    t.call? services w = none ↔ t.result?.isSome := by
  cases t <;> simp [Task.call?, Task.result?]

theorem step_of_none (hx : r.racers[i]? = none) : r.step synthesizer i = r := by
  simp only [step, hx]

theorem step_of_result (hx : r.racers[i]? = some x) (hdone : x.task.result?.isSome) :
    r.step synthesizer i = r := by
  simp only [step, hx, call?_eq_none.2 hdone]

theorem step_of_call (hx : r.racers[i]? = some x)
    (hc : x.task.call? (onStore synthesizer) r.world = some c) :
    r.step synthesizer i =
      { world := (x.task.step (onStore synthesizer) r.world).2
        racers := r.racers.set i { x with
          task := (x.task.step (onStore synthesizer) r.world).1
          calls := x.calls ++ [c] }
        finished := if (x.task.step (onStore synthesizer) r.world).1.result?.isSome then
          r.finished ++ [i] else r.finished } := by
  simp only [step, hx, hc]

theorem step_cases (synthesizer : Synthesizer σ) (r : Race σ) (i : Nat) :
    (r.step synthesizer i = r ∧ ∀ x, r.racers[i]? = some x → x.task.result?.isSome) ∨
      ∃ x c, r.racers[i]? = some x ∧ x.task.call? (onStore synthesizer) r.world = some c := by
  cases hx : r.racers[i]? with
  | none => exact .inl ⟨step_of_none hx, by simp⟩
  | some x =>
    cases hc : x.task.call? (onStore synthesizer) r.world with
    | none =>
      have hdone := call?_eq_none.1 hc
      exact .inl ⟨step_of_result hx hdone, by simpa using hdone⟩
    | some c => exact .inr ⟨x, c, rfl, hc⟩

@[simp] theorem run_nil (synthesizer : Synthesizer σ) (r : Race σ) :
    r.run synthesizer [] = r := rfl

@[simp] theorem run_cons (synthesizer : Synthesizer σ) (r : Race σ) (i : Nat) (moves : List Nat) :
    r.run synthesizer (i :: moves) = (r.step synthesizer i).run synthesizer moves := rfl

theorem toggles_step (synthesizer : Synthesizer σ) (r : Race σ) (i : Nat) :
    (r.step synthesizer i).toggles = r.toggles := by
  simp only [toggles]
  rcases step_cases synthesizer r i with ⟨hstep, -⟩ | ⟨x, c, hx, hc⟩
  · rw [hstep]
  · rw [step_of_call hx hc]
    refine List.ext_getElem? fun j => ?_
    simp only [List.getElem?_map, List.getElem?_set]
    by_cases hj : i = j
    · subst hj
      obtain ⟨hlt, -⟩ := List.getElem?_eq_some_iff.1 hx
      rw [if_pos rfl, if_pos hlt, hx]
      rfl
    · rw [if_neg hj]

theorem toggles_run (synthesizer : Synthesizer σ) (r : Race σ) (moves : List Nat) :
    (r.run synthesizer moves).toggles = r.toggles := by
  induction moves generalizing r with
  | nil => rfl
  | cons i moves ih => rw [run_cons, ih, toggles_step]

theorem step_of_reply (synthesizer : Synthesizer σ) {reply : Toggle.Reply}
    (h : r.reply? i = some reply) (j : Nat) :
    (r.step synthesizer j).racers[i]? = r.racers[i]? := by
  obtain ⟨x, hx, hdone⟩ := Option.bind_eq_some_iff.1 h
  rcases step_cases synthesizer r j with ⟨hstep, -⟩ | ⟨y, c, hy, hc⟩
  · rw [hstep]
  · rw [step_of_call hy hc, List.getElem?_set]
    split
    · subst j
      obtain rfl : y = x := by simpa [hy] using hx
      rw [call?_eq_none.2 (by simp [hdone])] at hc
      cases hc
    · rfl

theorem run_of_reply {reply : Toggle.Reply} (h : r.reply? i = some reply) (moves : List Nat) :
    (r.run synthesizer moves).racers[i]? = r.racers[i]? := by
  induction moves generalizing r with
  | nil => rfl
  | cons j moves ih =>
    have hstep := step_of_reply synthesizer h j
    rw [run_cons, ih (by rwa [reply?, hstep]), hstep]

theorem reply?_run {reply : Toggle.Reply} (h : r.reply? i = some reply) (moves : List Nat) :
    (r.run synthesizer moves).reply? i = some reply := by
  rwa [reply?, run_of_reply h]

theorem length_callsOf_run (synthesizer : Synthesizer σ) (moves : List Nat)
    (hx : r.racers[i]? = some x) :
    ((r.run synthesizer moves).reply? i).isSome ∨
      ((r.run synthesizer moves).callsOf i).length = (r.callsOf i).length + moves.count i := by
  induction moves generalizing r x with
  | nil => exact .inr rfl
  | cons j moves ih =>
    rw [run_cons]
    rcases step_cases synthesizer r j with ⟨hstep, hidle⟩ | ⟨y, c, hy, hc⟩
    · rw [hstep]
      by_cases hj : j = i
      · subst hj
        obtain ⟨reply, hreply⟩ := Option.isSome_iff_exists.1 (hidle x hx)
        have hnow : r.reply? j = some reply := by simp [reply?, hx, hreply]
        exact .inl (by rw [reply?_run hnow]; rfl)
      · simpa [hj] using ih hx
    · have hstep := step_of_call hy hc
      have hget := congrArg (fun r : Race σ => r.racers[i]?) hstep
      simp only [List.getElem?_set] at hget
      by_cases hj : j = i
      · subst hj
        obtain rfl : y = x := by simpa [hy] using hx
        obtain ⟨hlt, -⟩ := List.getElem?_eq_some_iff.1 hy
        rw [if_pos rfl, if_pos hlt] at hget
        refine (ih hget).imp id fun hlength => hlength.trans ?_
        simp only [callsOf, hget, hx, Option.elim, List.length_append, List.length_singleton,
          List.count_cons_self]
        omega
      · rw [if_neg hj] at hget
        refine (ih (hget.trans hx)).imp id fun hlength => hlength.trans ?_
        rw [List.count_cons_of_ne hj]
        simp only [callsOf, hget]

theorem eq_done {α : Type} {t : Task α} {a : α} (h : t.result? = some a) : t = .done a := by
  cases t with
  | done => rw [Option.some.inj h]
  | _ => cases h

theorem run_eq_step {α τ : Type} (services : Services σ τ) (t : Task α) (w : World σ τ) :
    t.run services w = (t.step services w).1.run services (t.step services w).2 := by
  cases t <;> rfl

theorem run_replicate (hx : r.racers[i]? = some x) {n : Nat}
    (hreply : ((r.run synthesizer (List.replicate n i)).reply? i).isSome) :
    (r.run synthesizer (List.replicate n i)).world =
        (x.task.run (onStore synthesizer) r.world).2 ∧
      (r.run synthesizer (List.replicate n i)).reply? i =
        some (x.task.run (onStore synthesizer) r.world).1 ∧
      ∀ j, j ≠ i → (r.run synthesizer (List.replicate n i)).racers[j]? = r.racers[j]? := by
  induction n generalizing r x with
  | zero =>
    obtain ⟨reply, hdone⟩ := Option.isSome_iff_exists.1 hreply
    rw [List.replicate_zero, run_nil] at hdone ⊢
    have hresult : x.task.result? = some reply := by simpa [reply?, hx] using hdone
    rw [hdone, eq_done hresult]
    exact ⟨rfl, rfl, fun _ _ => rfl⟩
  | succ n ih =>
    rw [List.replicate_succ, run_cons] at hreply ⊢
    rcases step_cases synthesizer r i with ⟨hstep, -⟩ | ⟨y, c, hy, hc⟩
    · rw [hstep] at hreply ⊢
      exact ih hx hreply
    · obtain rfl := Option.some.inj (hx.symm.trans hy)
      have hstep := step_of_call hx hc
      obtain ⟨hlt, -⟩ := List.getElem?_eq_some_iff.1 hx
      have hget := congrArg (fun r : Race σ => r.racers[i]?) hstep
      simp only [List.getElem?_set_self hlt] at hget
      obtain ⟨hworld, hanswer, hothers⟩ := ih hget hreply
      have hworld' : (r.step synthesizer i).world = (x.task.step (onStore synthesizer) r.world).2 :=
        congrArg Race.world hstep
      rw [hworld', ← run_eq_step] at hworld hanswer
      refine ⟨hworld, hanswer, fun j hj => (hothers j hj).trans ?_⟩
      rw [hstep]
      exact List.getElem?_set_ne (Ne.symm hj)

/-- How a race stands, given the phases that its toggles are in. -/
structure Sound (options : CompilerOptions) (synthesizer : Synthesizer σ) (Q : σ → Prop)
    (r : Race σ) (p : Nat → Toggle.Phase) : Prop where
  stands : Stands Q r.world r.database
  orderly : Orderly r.database
  known : ∀ t ∈ r.toggles, Known r.database t.message t.user
  faithful : ∀ t ∈ r.toggles, ∀ intent ∈ t.intents,
    FaithfulAnywhere options synthesizer Q intent
  stage : ∀ i x, r.racers[i]? = some x → Toggle.Stage options x.toggle (p i) x.task x.calls

structure Advance (r : Race σ) (p : Nat → Toggle.Phase) (i : Nat) (x : Racer) (c : Call)
    (r' : Race σ) (p' : Nat → Toggle.Phase) : Prop where
  self : r.racers[i]? = some x
  turn : x.toggle.Turn r.database (p i) c (p' i) r'.database
  calls : r'.callsOf i = r.callsOf i ++ [c]
  toggles : r'.toggles = r.toggles
  other : ∀ j, j ≠ i → r'.racers[j]? = r.racers[j]? ∧ p' j = p j
  finished : r'.finished = if (p' i).reply?.isSome then r.finished ++ [i] else r.finished

theorem result?_of_stage {t : Toggle} {q : Toggle.Phase} {task : Task Toggle.Reply}
    {cs : List Call} (h : Toggle.Stage options t q task cs) : task.result? = q.reply? := by
  cases h <;> rfl

namespace Sound

variable {p : Nat → Toggle.Phase}

theorem reply?_eq (h : Sound options synthesizer Q r p) (hx : r.racers[i]? = some x) :
    r.reply? i = (p i).reply? := by
  rw [reply?, hx]
  exact result?_of_stage (h.stage i x hx)

theorem step (h : Sound options synthesizer Q r p) (i : Nat) :
    (r.step synthesizer i = r ∧ ∀ x, r.racers[i]? = some x → (p i).reply?.isSome) ∨
      ∃ x c p', Advance r p i x c (r.step synthesizer i) p' ∧
        Sound options synthesizer Q (r.step synthesizer i) p' := by
  rcases step_cases synthesizer r i with ⟨hstep, hidle⟩ | ⟨x, c, hx, hc⟩
  · refine .inl ⟨hstep, fun x hx => ?_⟩
    rw [← result?_of_stage (h.stage i x hx)]
    exact hidle x hx
  · have hmem : x.toggle ∈ r.toggles := List.mem_map_of_mem (List.mem_of_getElem? hx)
    obtain ⟨q, task, w, db, htask, hstage, hs, hturn⟩ := Toggle.stage_step (h.stage i x hx)
      h.stands h.orderly (h.known _ hmem) (h.faithful _ hmem) hc
    have hstep := step_of_call hx hc
    have htoggles := toggles_step synthesizer r i
    rw [htask] at hstep
    rw [hstep] at htoggles ⊢
    obtain rfl : db = _ := hs.store.database.symm
    have hget (j : Nat) : (r.racers.set i { x with task, calls := x.calls ++ [c] })[j]? =
        if j = i then some { x with task, calls := x.calls ++ [c] } else r.racers[j]? := by
      obtain ⟨hlt, -⟩ := List.getElem?_eq_some_iff.1 hx
      simp only [List.getElem?_set, eq_comm (a := i), hlt, if_true]
    refine .inr ⟨x, c, Function.update p i q, ⟨hx, ?turn, ?calls, htoggles, ?other, ?finished⟩,
      ⟨hs, hturn.orderly h.orderly, ?known, ?faithful, ?stage⟩⟩
    case turn => rwa [Function.update_self]
    case calls => simp [callsOf, hget, hx]
    case other =>
      intro j hj
      exact ⟨by rw [hget, if_neg hj], Function.update_of_ne hj _ _⟩
    case finished =>
      rw [Function.update_self, ← result?_of_stage hstage]
    case known =>
      intro t ht
      rw [htoggles] at ht
      exact hturn.known (h.known t ht)
    case faithful =>
      intro t ht
      rw [htoggles] at ht
      exact h.faithful t ht
    case stage =>
      intro j y hy
      rw [hget] at hy
      by_cases hj : j = i
      · subst hj
        rw [if_pos rfl] at hy
        obtain rfl := Option.some.inj hy
        rwa [Function.update_self]
      · rw [if_neg hj] at hy
        rw [Function.update_of_ne hj]
        exact h.stage j y hy

end Sound

theorem NoneFull.ne_noIdLeft {moves : List Nat} (hroom : (r.run synthesizer moves).NoneFull)
    {p : Nat → Toggle.Phase} (h : Sound options synthesizer Q r p) (hx : r.racers[i]? = some x)
    (sql : String) : p i ≠ .done (.error (noIdLeft sql)) := by
  intro hp
  have hreply : r.reply? i = some (.error (noIdLeft sql)) := by rw [h.reply?_eq hx, hp]; rfl
  exact absurd (hroom i _ (reply?_run hreply moves)) Bool.false_ne_true

def firstPhases (toggles : List Toggle) (i : Nat) : Toggle.Phase :=
  toggles[i]?.elim .ready .first

theorem firstPhases_of_toggle {toggles : List Toggle} {t : Toggle}
    (ht : toggles[i]? = some t) : firstPhases toggles i = .first t := by
  simp [firstPhases, ht]

theorem toggles_start (options : CompilerOptions) (w : World σ Agora.Store)
    (toggles : List Toggle) : (start options w toggles).toggles = toggles := by
  simp [start, Race.toggles, Function.comp_def]

theorem racers_start (w : World σ Agora.Store) {toggles : List Toggle} {t : Toggle}
    (ht : toggles[i]? = some t) :
    (start options w toggles).racers[i]? =
      some { toggle := t, task := t.task options .compiled } := by
  simp [start, ht]

theorem sound_start {w : World σ Agora.Store} {db : Database} (hs : Stands Q w db)
    (hdb : Orderly db) {toggles : List Toggle}
    (hknown : ∀ t ∈ toggles, Known db t.message t.user)
    (hfaithful : ∀ t ∈ toggles, ∀ intent ∈ t.intents,
      FaithfulAnywhere options synthesizer Q intent) :
    Sound options synthesizer Q (start options w toggles) (firstPhases toggles) := by
  obtain rfl : db = _ := hs.store.database.symm
  refine ⟨hs, hdb, ?known, ?faithful, ?stage⟩
  case known => rwa [toggles_start]
  case faithful => rwa [toggles_start]
  case stage =>
    intro i x hx
    simp only [start, List.getElem?_map, Option.map_eq_some_iff] at hx
    obtain ⟨t, ht, rfl⟩ := hx
    rw [firstPhases_of_toggle ht]
    exact Toggle.stage_first options t

def after (synthesizer : Synthesizer σ) (r : Race σ) (moves : List Nat) (n : Nat) : Race σ :=
  r.run synthesizer (moves.take n)

theorem after_length (synthesizer : Synthesizer σ) (r : Race σ) (moves : List Nat) :
    r.after synthesizer moves moves.length = r.run synthesizer moves := by
  rw [after, List.take_length]

theorem toggles_after (synthesizer : Synthesizer σ) (r : Race σ) (moves : List Nat) (n : Nat) :
    (r.after synthesizer moves n).toggles = r.toggles :=
  toggles_run synthesizer r (moves.take n)

theorem run_append (synthesizer : Synthesizer σ) (r : Race σ) (moves moves' : List Nat) :
    r.run synthesizer (moves ++ moves') = (r.run synthesizer moves).run synthesizer moves' :=
  List.foldl_append

theorem run_after (synthesizer : Synthesizer σ) (r : Race σ) (moves : List Nat) (n : Nat) :
    (r.after synthesizer moves n).run synthesizer (moves.drop n) = r.run synthesizer moves := by
  rw [after, ← run_append, List.take_append_drop]

structure Chronicle (options : CompilerOptions) (synthesizer : Synthesizer σ) (Q : σ → Prop)
    (r : Race σ) (moves : List Nat) (p : Nat → Nat → Toggle.Phase) : Prop where
  sound : ∀ n, Sound options synthesizer Q (r.after synthesizer moves n) (p n)
  move : ∀ n, (r.after synthesizer moves (n + 1) = r.after synthesizer moves n ∧
      p (n + 1) = p n) ∨
    ∃ i x c, moves[n]? = some i ∧ Advance (r.after synthesizer moves n) (p n) i x c
      (r.after synthesizer moves (n + 1)) (p (n + 1))

theorem exists_chronicle {p : Nat → Toggle.Phase} (h : Sound options synthesizer Q r p)
    (moves : List Nat) :
    ∃ ps, ps 0 = p ∧ Chronicle options synthesizer Q r moves ps := by
  induction moves generalizing r p with
  | nil => exact ⟨fun _ => p, rfl, fun _ => by simpa [after] using h, by simp [after]⟩
  | cons i moves ih =>
    obtain ⟨p', hsound, hmove⟩ : ∃ p', Sound options synthesizer Q (r.step synthesizer i) p' ∧
        ((r.step synthesizer i = r ∧ p' = p) ∨
          ∃ x c, Advance r p i x c (r.step synthesizer i) p') := by
      rcases h.step i with ⟨hstep, -⟩ | ⟨x, c, p', hadvance, hsound⟩
      · exact ⟨p, hstep.symm ▸ h, .inl ⟨hstep, rfl⟩⟩
      · exact ⟨p', hsound, .inr ⟨x, c, hadvance⟩⟩
    obtain ⟨ps, rfl, hps⟩ := ih hsound
    refine ⟨fun n => n.casesOn p ps, rfl, fun n => ?_, fun n => ?_⟩
    · cases n with
      | zero => exact h
      | succ n => exact hps.sound n
    · cases n with
      | zero => exact hmove.imp id fun ⟨x, c, hadvance⟩ => ⟨i, x, c, rfl, hadvance⟩
      | succ n => exact hps.move n

theorem racers_of_toggle {t : Toggle} (h : r.toggles[i]? = some t) :
    ∃ x, r.racers[i]? = some x ∧ x.toggle = t := by
  simpa [toggles] using h

theorem toggle_of_racers (h : r.racers[i]? = some x) : r.toggles[i]? = some x.toggle := by
  simp [toggles, h]

theorem length_of_stage {t : Toggle} {q : Toggle.Phase} {task : Task Toggle.Reply}
    {cs : List Call} (h : Toggle.Stage options t q task cs) :
    q.reply?.isSome ∨ cs.length ≤ 3 := by
  cases h <;> simp [Toggle.Phase.reply?]

namespace Chronicle

variable {moves : List Nat} {p : Nat → Nat → Toggle.Phase}

theorem replies (h : Chronicle options synthesizer Q r moves p) (hx : r.racers[i]? = some x)
    (hcalls : x.calls = []) (hmoves : 4 ≤ moves.count i) :
    ((r.run synthesizer moves).reply? i).isSome := by
  rcases length_callsOf_run synthesizer moves hx with hreply | hlength
  · exact hreply
  have htoggle := (congrArg (·[i]?) (toggles_run synthesizer r moves)).trans (toggle_of_racers hx)
  have hsound := h.sound moves.length
  rw [after_length] at hsound
  obtain ⟨y, hy, -⟩ := racers_of_toggle htoggle
  rw [hsound.reply?_eq hy]
  refine (length_of_stage (hsound.stage i y hy)).resolve_right fun hle => ?_
  simp only [callsOf, hx, hy, hcalls, Option.elim, List.length_nil] at hlength
  omega

end Chronicle

theorem Sound.moves_in_a_row {p : Nat → Toggle.Phase} (h : Sound options synthesizer Q r p)
    {t : Toggle} (hx : r.racers[i]? = some { toggle := t, task := t.task options .compiled }) :
    (r.run synthesizer (List.replicate 4 i)).world =
        (t.call (onStore synthesizer) options .compiled r.world).2 ∧
      (r.run synthesizer (List.replicate 4 i)).reply? i =
        some (t.call (onStore synthesizer) options .compiled r.world).1 ∧
      (∀ j, j ≠ i → (r.run synthesizer (List.replicate 4 i)).racers[j]? = r.racers[j]?) ∧
      ∃ p', Sound options synthesizer Q (r.run synthesizer (List.replicate 4 i)) p' := by
  obtain ⟨ps, -, hps⟩ := exists_chronicle h (List.replicate 4 i)
  have hreply := hps.replies hx rfl (by rw [List.count_replicate_self])
  obtain ⟨hworld, hanswer, hothers⟩ := run_replicate hx hreply
  have hsound := hps.sound (List.replicate 4 i).length
  rw [after_length] at hsound
  exact ⟨hworld, hanswer, hothers, _, hsound⟩

theorem Sound.one_after_other {p : Nat → Toggle.Phase} (h : Sound options synthesizer Q r p)
    {t u : Toggle} (hi : r.racers[i]? = some { toggle := t, task := t.task options .compiled })
    (hj : r.racers[j]? = some { toggle := u, task := u.task options .compiled }) (hne : j ≠ i)
    {reply reply' : Toggle.Reply} {w w' : World σ Agora.Store}
    (hfirst : t.call (onStore synthesizer) options .compiled r.world = (reply, w))
    (hsecond : u.call (onStore synthesizer) options .compiled w = (reply', w')) :
    let last := r.run synthesizer (List.replicate 4 i ++ List.replicate 4 j)
    last.reply? i = some reply ∧ last.reply? j = some reply' := by
  intro last
  obtain ⟨hworld, hreply, hothers, p', hsound⟩ := h.moves_in_a_row hi
  obtain ⟨-, hreply', -, -⟩ := hsound.moves_in_a_row ((hothers j hne).trans hj)
  rw [hfirst] at hworld hreply
  rw [hworld, hsecond] at hreply'
  have hlast : last = _ := run_append synthesizer r _ _
  exact ⟨by rw [hlast, reply?_run hreply], by rw [hlast, hreply']⟩

end Race

end Agora
