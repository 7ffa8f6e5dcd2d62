import Agora.Proofs.Board.Request
/-!
A pool holds any number of operations that run at the same time; a move starts one more, has one
make its next call, or lets time pass. The history keeps every call with the world that it was made
in.
-/
namespace Agora

open Agora.Task

variable {σ τ : Type}

structure Moment (σ τ : Type) where
  task : Nat
  call : Call
  world : World σ τ

structure Pool (σ τ : Type) where
  world : World σ τ
  tasks : List (Request × Task (Except BoardError Answer)) := []
  history : List (Moment σ τ) := []

inductive Move where
  | start (r : Request)
  | call (task : Nat)
  | wait (ms : Nat)

def Call.AnsweredBy (services : Services σ τ) (w : World σ τ) : Call → Prop
  | .synthesize intent reply => reply = (services.synthesizer.synthesize intent w.synthesis).1
  | .execute s answer => answer = (services.executor.execute s w.store).1
  | .executeBatch ss answer => answer = (services.executor.executeBatch ss w.store).1
  | .lookup found => found = w.listing.lookup w.now
  | .store .. | .invalidate => True

theorem answeredBy_of_call? {α : Type} {services : Services σ τ} {t : Task α} {w : World σ τ}
    {c : Call} (h : t.call? services w = some c) : c.AnsweredBy services w := by
  cases t <;> cases h <;> first | rfl | trivial

def Call.listingAfter (w : World σ τ) : Call → ReadCache (List Row)
  | .store rows generation => w.listing.store w.now rows generation
  | .invalidate => w.listing.invalidate
  | _ => w.listing

theorem step_listing {α : Type} {services : Services σ τ} {t : Task α} {w : World σ τ} {c : Call}
    (h : t.call? services w = some c) : (t.step services w).2.listing = c.listingAfter w := by
  cases t <;> cases h <;> rfl

theorem step_now {α : Type} (services : Services σ τ) (t : Task α) (w : World σ τ) :
    (t.step services w).2.now = w.now := by
  cases t <;> rfl

namespace Pool

def step (services : Services σ τ) (b : Board) (p : Pool σ τ) : Move → Pool σ τ
  | .start r => { p with tasks := p.tasks ++ [(r, r.task b)] }
  | .wait ms => { p with world := p.world.advance ms }
  | .call i =>
      match p.tasks[i]? with
      | none => p
      | some (r, t) => match t.call? services p.world with
        | none => p
        | some c =>
            { world := (t.step services p.world).2
              tasks := p.tasks.set i (r, (t.step services p.world).1)
              history := p.history ++ [⟨i, c, p.world⟩] }

def run (services : Services σ τ) (b : Board) (p : Pool σ τ) (moves : List Move) : Pool σ τ :=
  moves.foldl (step services b) p

theorem step_cases {services : Services σ τ} {b : Board} {p : Pool σ τ} {m : Move}
    {P : Pool σ τ → Prop} (hidle : P p)
    (hstart : ∀ r, P { p with tasks := p.tasks ++ [(r, r.task b)] })
    (hwait : ∀ ms, P { p with world := p.world.advance ms })
    (hcall : ∀ i r t c, p.tasks[i]? = some (r, t) → t.call? services p.world = some c →
      P { world := (t.step services p.world).2
          tasks := p.tasks.set i (r, (t.step services p.world).1)
          history := p.history ++ [⟨i, c, p.world⟩] }) : P (p.step services b m) := by
  cases m with
  | start r => exact hstart r
  | wait ms => exact hwait ms
  | call i =>
    simp only [step]
    split
    · exact hidle
    · rename_i r t ht
      split
      · exact hidle
      · rename_i c hc
        exact hcall i r t c ht hc

theorem history_prefix_step (services : Services σ τ) (b : Board) (p : Pool σ τ) (m : Move) :
    p.history <+: (p.step services b m).history := by
  apply step_cases (m := m) (P := fun q => p.history <+: q.history)
  · exact List.prefix_rfl
  · exact fun _ => List.prefix_rfl
  · exact fun _ => List.prefix_rfl
  · exact fun _ _ _ _ _ _ => List.prefix_append _ _

theorem history_prefix_run (services : Services σ τ) (b : Board) (p : Pool σ τ)
    (moves : List Move) : p.history <+: (p.run services b moves).history := by
  induction moves generalizing p with
  | nil => exact List.prefix_rfl
  | cons m moves ih => exact (history_prefix_step services b p m).trans (ih _)

end Pool

def callsOf (i : Nat) (h : List (Moment σ τ)) : List Call :=
  (h.filter (·.task = i)).map (·.call)

@[simp] theorem callsOf_nil (i : Nat) : callsOf i ([] : List (Moment σ τ)) = [] := rfl

@[simp] theorem callsOf_append (i : Nat) (h k : List (Moment σ τ)) :
    callsOf i (h ++ k) = callsOf i h ++ callsOf i k := by
  simp [callsOf]

theorem callsOf_cons_self (i : Nat) (c : Call) (w : World σ τ) (h : List (Moment σ τ)) :
    callsOf i (⟨i, c, w⟩ :: h) = c :: callsOf i h := by
  simp [callsOf]

theorem callsOf_cons_ne {i : Nat} {m : Moment σ τ} (hm : m.task ≠ i) (h : List (Moment σ τ)) :
    callsOf i (m :: h) = callsOf i h := by
  simp [callsOf, hm]

theorem callsOf_eq_nil {i : Nat} {h : List (Moment σ τ)} (hi : ∀ m ∈ h, m.task ≠ i) :
    callsOf i h = [] := by
  simpa [callsOf] using hi

theorem callsOf_split {i n : Nat} {c : Call} {w : World σ τ} {h : List (Moment σ τ)}
    (hn : h[n]? = some ⟨i, c, w⟩) :
    callsOf i h = callsOf i (h.take n) ++ c :: callsOf i (h.drop (n + 1)) := by
  obtain ⟨hlt, hm⟩ := List.getElem?_eq_some_iff.1 hn
  have hsplit : h.take n ++ ⟨i, c, w⟩ :: h.drop (n + 1) = h := by
    rw [← hm, ← List.drop_eq_getElem_cons hlt, List.take_append_drop]
  calc callsOf i h = callsOf i (h.take n ++ ⟨i, c, w⟩ :: h.drop (n + 1)) := by rw [hsplit]
    _ = _ := by rw [callsOf_append, callsOf_cons_self]

theorem exists_moment {i : Nat} {c : Call} (ds : List Call) {es : List Call} {h : List (Moment σ τ)}
    (hcs : callsOf i h = ds ++ c :: es) :
    ∃ n w, h[n]? = some ⟨i, c, w⟩ ∧ callsOf i (h.take n) = ds ∧
      callsOf i (h.drop (n + 1)) = es := by
  induction h generalizing ds with
  | nil => simp at hcs
  | cons m h ih =>
    obtain ⟨j, d, w⟩ := m
    by_cases hj : j = i
    · subst hj
      rw [callsOf_cons_self] at hcs
      cases ds with
      | nil =>
        obtain ⟨rfl, hes⟩ := List.cons.inj hcs
        exact ⟨0, w, rfl, rfl, hes⟩
      | cons d' ds =>
        obtain ⟨rfl, hrest⟩ := List.cons.inj hcs
        obtain ⟨n, v, hn, hd, he⟩ := ih _ hrest
        exact ⟨n + 1, v, hn, by simpa [callsOf_cons_self] using hd, he⟩
    · rw [callsOf_cons_ne (m := ⟨j, d, w⟩) hj] at hcs
      obtain ⟨n, v, hn, hd, he⟩ := ih _ hcs
      exact ⟨n + 1, v, hn, by simpa [callsOf_cons_ne (m := ⟨j, d, w⟩) hj] using hd, he⟩

namespace Pool

/-- Each task has come as far as its calls have taken it. -/
structure Tracked (b : Board) (p : Pool σ τ) : Prop where
  path : ∀ i r t, p.tasks[i]? = some (r, t) → Path (r.task b) (callsOf i p.history) t
  started : ∀ m ∈ p.history, m.task < p.tasks.length

theorem tracked_step {services : Services σ τ} {b : Board} {p : Pool σ τ} (hp : p.Tracked b)
    (m : Move) : (p.step services b m).Tracked b := by
  apply step_cases (m := m)
  · exact hp
  · intro r
    refine ⟨?_, fun m hm => ?_⟩
    · intro i r' t ht
      rcases Nat.lt_trichotomy i p.tasks.length with hi | rfl | hi
      · exact hp.path i r' t (by simpa only [List.getElem?_append_left hi] using ht)
      · have hnone : callsOf p.tasks.length p.history = [] :=
          callsOf_eq_nil fun m hm => Nat.ne_of_lt (hp.started m hm)
        simp at ht
        obtain ⟨rfl, rfl⟩ := ht
        simpa only [hnone] using Path.nil
      · rw [List.getElem?_eq_none (by simp; omega)] at ht
        cases ht
    · have := hp.started m hm
      simp
      omega
  · exact fun _ => ⟨hp.path, hp.started⟩
  · intro i r t c ht hc
    refine ⟨?_, ?_⟩
    · intro j r' t' ht'
      rw [callsOf_append]
      by_cases hij : i = j
      · subst hij
        obtain ⟨hlt, -⟩ := List.getElem?_eq_some_iff.1 ht
        simp only [List.getElem?_set_self hlt, Option.some.injEq, Prod.mk.injEq] at ht'
        obtain ⟨rfl, rfl⟩ := ht'
        rw [callsOf_cons_self]
        exact (hp.path i r t ht).snoc (makes_step hc)
      · rw [callsOf_cons_ne hij, callsOf_nil, List.append_nil]
        exact hp.path j r' t' (by simpa [List.getElem?_set_ne hij] using ht')
    · intro m hm
      rw [List.length_set]
      rcases List.mem_append.1 hm with hm | hm
      · exact hp.started m hm
      · obtain rfl := List.mem_singleton.1 hm
        exact (List.getElem?_eq_some_iff.1 ht).1

theorem tracked_run {services : Services σ τ} {b : Board} {p : Pool σ τ} (hp : p.Tracked b)
    (moves : List Move) : (p.run services b moves).Tracked b := by
  induction moves generalizing p with
  | nil => exact hp
  | cons m moves ih => exact ih (tracked_step hp m)

theorem Tracked.callsOf_of_always {b : Board} {p : Pool σ τ} {P : List Call → Prop}
    (hp : p.Tracked b) (hnil : P []) (h : ∀ r, Always P (Request.task b r)) (i : Nat) :
    P (callsOf i p.history) := by
  cases ht : p.tasks[i]? with
  | some rt => exact h rt.1 _ _ (hp.path i rt.1 rt.2 ht)
  | none =>
    have hle := List.getElem?_eq_none_iff.1 ht
    rw [callsOf_eq_nil fun m hm => Nat.ne_of_lt (Nat.lt_of_lt_of_le (hp.started m hm) hle)]
    exact hnil

theorem tracked_empty (b : Board) (w : World σ τ) : Tracked b ({ world := w } : Pool σ τ) :=
  ⟨by simp, by simp⟩

end Pool

end Agora
