import Agora.Proofs.Board.Request
import Agora.Proofs.Toggle.Batch

namespace Agora

open Agora.Task Agora.Store

def Unsynthesized (cs : List Call) : Prop :=
  ∀ c ∈ cs, c.isSynthesis = false

theorem composes_unsynthesized : Composes Unsynthesized where
  nil := by simp [Unsynthesized]
  append cs ds hcs hds c hc := (List.mem_append.1 hc).elim (hcs c) (hds c)

/-- The requests that go through fixed statements alone where toggles are batches. -/
def Request.isFixed : Request → Bool
  | listMessages | vote .. | react .. | invalidateCache => true
  | _ => false

section Paths

variable {b : Board}

theorem always_unsynthesized_listMessages :
    Always Unsynthesized (Request.listMessages.task b) := by
  intro cs u hp
  cases path_listMessages hp <;> simp [Unsynthesized, Call.isSynthesis]

theorem always_unsynthesized_request (hb : b.mode.usesBatch b.commitsBatches) {r : Request}
    (hr : r.isFixed) : Always Unsynthesized (r.task b) := by
  have hP := composes_unsynthesized
  have hinvalidate : Unsynthesized [.invalidate] := by simp [Unsynthesized, Call.isSynthesis]
  cases r with
  | listMessages => exact always_unsynthesized_listMessages
  | vote message user raw =>
    refine hP.always_map <| hP.always_andThen (hP.always_ofQuery ?_) (hP.always_voted hinvalidate)
    exact hP.always_voteToggle (fun hfalse => by simp [hb] at hfalse) raw fun _ _ => by
      simp [Unsynthesized, Call.isSynthesis]
  | react message user emoji =>
    refine hP.always_map <| hP.always_andThen (hP.always_require _ _) fun _ =>
      hP.always_ofQuery ?_
    exact hP.always_reactionToggle (fun hfalse => by simp [hb] at hfalse) emoji fun _ => by
      simp [Unsynthesized, Call.isSynthesis]
  | invalidateCache => exact hP.always_map (hP.always_invalidate hinvalidate)
  | _ => cases hr

end Paths

section TwoRuns

variable {α σ σ' τ : Type} {f : Synthesizer σ} {g : Synthesizer σ'} {executor : Executor τ}
  {t : Task α} {w : World σ τ} {w' : World σ' τ}

structure World.Agrees (w : World σ τ) (w' : World σ' τ) : Prop where
  store : w.store = w'.store
  listing : w.listing = w'.listing
  now : w.now = w'.now

theorem always_next {u : Task α} {c : Call} (h : Always Unsynthesized t) (hm : Makes t c u) :
    Always Unsynthesized u :=
  fun _ _ hp d hd => h _ _ (.cons hm hp) d (List.mem_cons_of_mem _ hd)

theorem not_always_synthesize {intent : String}
    {next : Except SynthesisError String → Task α} :
    ¬ Always Unsynthesized (.synthesize intent next) := by
  intro h
  have := h _ _ (.cons (.synthesize (.error (.unknownIntent intent))) .nil)
  simp [Unsynthesized, Call.isSynthesis] at this

variable (f g executor) in
theorem run_agrees (h : Always Unsynthesized t) (hw : w.Agrees w') :
    (t.run ⟨f, executor⟩ w).1 = (t.run ⟨g, executor⟩ w').1 ∧
      (t.run ⟨f, executor⟩ w).2.Agrees (t.run ⟨g, executor⟩ w').2 := by
  -- every call but a synthesis reads only what the two worlds have in common
  induction t generalizing w w' with
  | done => exact ⟨rfl, hw⟩
  | synthesize => exact absurd h not_always_synthesize
  | execute s next ih =>
    simp only [Task.run, hw.store]
    exact ih _ (always_next h (.execute _)) ⟨rfl, hw.listing, hw.now⟩
  | executeBatch ss next ih =>
    simp only [Task.run, hw.store]
    exact ih _ (always_next h (.executeBatch _)) ⟨rfl, hw.listing, hw.now⟩
  | lookup next ih =>
    simp only [Task.run, hw.listing, hw.now]
    exact ih _ (always_next h (.lookup _)) hw
  | store rows generation next ih =>
    exact ih (always_next h .store) ⟨hw.store, by simp only [hw.listing, hw.now], hw.now⟩
  | invalidate next ih =>
    exact ih (always_next h .invalidate) ⟨hw.store, by simp only [hw.listing], hw.now⟩

theorem run_synthesis {services : Services σ τ} (h : Always Unsynthesized t) :
    (t.run services w).2.synthesis = w.synthesis := by
  induction t generalizing w with
  | done => rfl
  | synthesize => exact absurd h not_always_synthesize
  | execute s next ih => exact ih _ (always_next h (.execute _))
  | executeBatch ss next ih => exact ih _ (always_next h (.executeBatch _))
  | lookup next ih => exact ih _ (always_next h (.lookup _))
  | store rows generation next ih => exact ih (always_next h .store)
  | invalidate next ih => exact ih (always_next h .invalidate)

end TwoRuns

inductive Occurrence where
  | request (r : Request)
  | wait (ms : Nat)
  deriving DecidableEq

structure Usage (σ τ : Type) where
  world : World σ τ
  replies : List (Except BoardError Answer) := []
  calls : List Call := []

namespace Usage

def step (services : Services σ τ) (b : Board) (u : Usage σ τ) : Occurrence → Usage σ τ
  | .wait ms => { u with world := u.world.advance ms }
  | .request r =>
      let (reply, world) := (r.task b).run services u.world
      { world, replies := u.replies ++ [reply],
        calls := u.calls ++ (r.task b).calls services u.world }

def run (services : Services σ τ) (b : Board) (u : Usage σ τ) (os : List Occurrence) :
    Usage σ τ :=
  os.foldl (step services b) u

variable {σ σ' τ : Type} {f : Synthesizer σ} {g : Synthesizer σ'} {executor : Executor τ}
  {b : Board} {u : Usage σ τ} {v : Usage σ' τ}

structure Agrees (u : Usage σ τ) (v : Usage σ' τ) : Prop where
  world : u.world.Agrees v.world
  replies : u.replies = v.replies

theorem agrees_step (hb : b.mode.usesBatch b.commitsBatches) (h : u.Agrees v) {o : Occurrence}
    (ho : ∀ r, o = .request r → r.isFixed) :
    (u.step ⟨f, executor⟩ b o).Agrees (v.step ⟨g, executor⟩ b o) := by
  cases o with
  | wait ms =>
    exact ⟨⟨h.world.store, h.world.listing, congrArg (· + ms) h.world.now⟩, h.replies⟩
  | request r =>
    obtain ⟨hreply, hworld⟩ := run_agrees f g executor
      (always_unsynthesized_request hb (ho r rfl)) h.world
    exact ⟨hworld, by simp only [step, h.replies, hreply]⟩

theorem agrees_run (hb : b.mode.usesBatch b.commitsBatches) {os : List Occurrence}
    (hos : ∀ r, .request r ∈ os → r.isFixed) (h : u.Agrees v) :
    (u.run ⟨f, executor⟩ b os).Agrees (v.run ⟨g, executor⟩ b os) := by
  induction os generalizing u v with
  | nil => exact h
  | cons o os ih =>
    exact ih (fun r hr => hos r (List.mem_cons_of_mem _ hr))
      (agrees_step hb h fun r hr => hos r (by simp [hr]))

def IsSilent (s : σ) (u : Usage σ τ) : Prop :=
  Unsynthesized u.calls ∧ u.world.synthesis = s

theorem isSilent_step {services : Services σ τ} (hb : b.mode.usesBatch b.commitsBatches) {s : σ}
    (h : u.IsSilent s) {o : Occurrence} (ho : ∀ r, o = .request r → r.isFixed) :
    (u.step services b o).IsSilent s := by
  cases o with
  | wait ms => exact h
  | request r =>
    have hr := always_unsynthesized_request hb (ho r rfl)
    exact ⟨composes_unsynthesized.append _ _ h.1 (hr _ _ (path_calls services _ _)),
      (run_synthesis hr).trans h.2⟩

theorem isSilent_run {services : Services σ τ} (hb : b.mode.usesBatch b.commitsBatches) {s : σ}
    {os : List Occurrence} (hos : ∀ r, .request r ∈ os → r.isFixed) (h : u.IsSilent s) :
    (u.run services b os).IsSilent s := by
  induction os generalizing u with
  | nil => exact h
  | cons o os ih =>
    exact ih (fun r hr => hos r (List.mem_cons_of_mem _ hr))
      (isSilent_step hb h fun r hr => hos r (by simp [hr]))

end Usage

/-- On equal stores, with equal caches and clocks, two boards with whatever synthesizers answer a
run of fixed requests the same and leave the same store and the same cache; and no synthesizer is
asked or changed. -/
theorem fixed_requests_ignore_synthesizer {σ σ' : Type} (f : Synthesizer σ) (g : Synthesizer σ')
    (s : σ) (s' : σ') (store : Agora.Store) (listing : ReadCache (List Row)) (now : Nat)
    (options : CompilerOptions) (mode : ToggleMode) (hmode : mode = .auto ∨ mode = .atomic)
    (os : List Occurrence) (hos : ∀ r, .request r ∈ os → r.isFixed) :
    let b : Board := { options, mode, commitsBatches := Store.executor.commitsBatches }
    let u := Usage.run (onStore f) b { world := { synthesis := s, store, listing, now } } os
    let v := Usage.run (onStore g) b { world := { synthesis := s', store, listing, now } } os
    u.replies = v.replies ∧ u.world.store = v.world.store ∧ u.world.listing = v.world.listing ∧
      u.IsSilent s ∧ v.IsSilent s' := by
  intro b u v
  have hb : b.mode.usesBatch b.commitsBatches := by
    rcases hmode with rfl | rfl <;> rfl
  have huv : u.Agrees v := Usage.agrees_run hb hos ⟨⟨rfl, rfl, rfl⟩, rfl⟩
  exact ⟨huv.replies, huv.world.store, huv.world.listing,
    Usage.isSilent_run hb hos ⟨by simp [Unsynthesized], rfl⟩,
    Usage.isSilent_run hb hos ⟨by simp [Unsynthesized], rfl⟩⟩

theorem fixed_requests_ignore_synthesizer_unset :
    let deferred : DeferredClient := { settings := {}, environment := {} }
    let store := ({} : Agora.Store).install.2
    let os : List Occurrence :=
      [.request .listMessages, .request (.vote 1 7 1), .wait 5, .request (.react 1 7 " "),
        .request .invalidateCache, .request (.vote 1 7 0)]
    let b : Board := { mode := .auto, commitsBatches := Store.executor.commitsBatches }
    let u := Usage.run (onStore Fixture.synthesizer) b
      { world := { synthesis := {}, store, listing := { ttl := 10 } } } os
    let v := Usage.run (onStore (DeferredClient.synthesizer (Network.offline : Network Unit))) b
      { world := { synthesis := (deferred, ()), store, listing := { ttl := 10 } } } os
    (∀ r, .request r ∈ os → r.isFixed) ∧
      deferred.resolve =
        .error (.unconfigured "Missing environment variable: AI_API_KEY") ∧
      u.replies = v.replies ∧ u.IsSilent {} ∧ v.IsSilent (deferred, ()) := by
  intro deferred store os b u v
  have hos : ∀ r, .request r ∈ os → r.isFixed := by
    intro r hr
    simp only [os, List.mem_cons, List.not_mem_nil, or_false, reduceCtorEq, false_or,
      Occurrence.request.injEq] at hr
    rcases hr with rfl | rfl | rfl | rfl | rfl <;> rfl
  obtain ⟨hreplies, -, -, hu, hv⟩ := fixed_requests_ignore_synthesizer Fixture.synthesizer
    (DeferredClient.synthesizer Network.offline) {} (deferred, ()) store { ttl := 10 } 0 {} .auto
    (.inl rfl) os hos
  exact ⟨hos, by decide +kernel, hreplies, hu, hv⟩

end Agora
