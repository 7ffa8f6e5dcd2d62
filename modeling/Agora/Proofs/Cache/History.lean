import Mathlib.Algebra.Group.Nat.Defs
import Mathlib.Data.List.Induction
import Agora.Cache
/-!
A computation is a lookup and, later, either the store of what it found or nothing; between the two,
and within the two, whatever else may happen to the cache.
-/
namespace Agora.CacheHistory

/-- What happens to a cache. Computations are numbered by their lookups, from 0 on. -/
inductive Event (α : Type) where
  | lookup
  | store (computation : Nat) (value : α)
  | fail (computation : Nat)
  | invalidate
  | advance (ms : Nat)
  deriving DecidableEq, Repr

variable {α : Type}

def Event.isLookup : Event α → Bool
  | lookup => true
  | _ => false

def Event.isInvalidation : Event α → Bool
  | invalidate => true
  | _ => false

def Event.ms : Event α → Nat
  | advance ms => ms
  | _ => 0

structure Timeline (α : Type) where
  clocked : ClockedCache α
  begun : List UInt64 := []

namespace Timeline

def start (ttl now : Nat) : Timeline α :=
  { clocked := { cache := { ttl }, now } }

def step (t : Timeline α) : Event α → Timeline α
  | .lookup => { t with begun := t.begun ++ [(t.clocked.cache.lookup t.clocked.now).2] }
  | .store i v => match t.begun[i]? with
      | some generation => { t with clocked := t.clocked.store v generation }
      | none => t
  | .fail _ => t
  | .invalidate => { t with clocked := t.clocked.invalidate }
  | .advance ms => { t with clocked := t.clocked.advance ms }

def run (t : Timeline α) (h : List (Event α)) : Timeline α :=
  h.foldl step t

def stored (t : Timeline α) (v : α) : Timeline α :=
  { t with clocked := { t.clocked with
      cache := { t.clocked.cache with entry := some ⟨v, t.clocked.now⟩ } } }

@[simp] theorem run_append (t : Timeline α) (h k : List (Event α)) :
    t.run (h ++ k) = (t.run h).run k :=
  List.foldl_append

@[simp] theorem run_singleton (t : Timeline α) (e : Event α) : t.run [e] = t.step e := rfl

theorem step_ttl (t : Timeline α) (e : Event α) :
    (t.step e).clocked.cache.ttl = t.clocked.cache.ttl := by
  cases e with
  | store i v =>
    simp only [step, ClockedCache.store, ReadCache.store]
    split
    · split <;> rfl
    · rfl
  | _ => rfl

theorem step_now (t : Timeline α) (e : Event α) :
    (t.step e).clocked.now = t.clocked.now + e.ms := by
  cases e with
  | store i v =>
    simp only [step, ClockedCache.store]
    split <;> rfl
  | _ => rfl

theorem step_generation (t : Timeline α) (e : Event α) : (t.step e).clocked.cache.generation =
    if e.isInvalidation then t.clocked.cache.generation + 1
    else t.clocked.cache.generation := by
  cases e with
  | store i v =>
    simp only [step, ClockedCache.store, ReadCache.store]
    split
    · split <;> rfl
    · rfl
  | _ => rfl

theorem step_begun (t : Timeline α) (e : Event α) : (t.step e).begun =
    t.begun ++ if e.isLookup then [t.clocked.cache.generation] else [] := by
  cases e with
  | lookup => rfl
  | store i v =>
    simp only [step]
    split <;> simp [Event.isLookup]
  | _ => exact (List.append_nil _).symm

end Timeline

section History

def lookups (h : List (Event α)) : Nat :=
  h.countP (·.isLookup)

def invalidations (h : List (Event α)) : Nat :=
  h.countP (·.isInvalidation)

def elapsed : List (Event α) → Nat
  | [] => 0
  | e :: h => e.ms + elapsed h

variable {h k before during : List (Event α)} {e : Event α} {i : Nat} {v : α} {w : Nat}

@[simp] theorem lookups_append (h k : List (Event α)) :
    lookups (h ++ k) = lookups h + lookups k :=
  List.countP_append

@[simp] theorem invalidations_append (h k : List (Event α)) :
    invalidations (h ++ k) = invalidations h + invalidations k :=
  List.countP_append

@[simp] theorem elapsed_append (h k : List (Event α)) :
    elapsed (h ++ k) = elapsed h + elapsed k := by
  induction h with
  | nil => exact (Nat.zero_add _).symm
  | cons e h ih => simp only [List.cons_append, elapsed, ih, Nat.add_assoc]

/-- Whether a computation began after `before`, and `during` came after its lookup. -/
structure Began (h : List (Event α)) (i : Nat) (before during : List (Event α)) : Prop where
  split : h = before ++ .lookup :: during
  number : lookups before = i

theorem snoc_eq_append_cons {β : Type} {h before after : List β} {e x : β} :
    h ++ [e] = before ++ x :: after ↔ (after = [] ∧ before = h ∧ x = e) ∨
      ∃ rest, after = rest ++ [e] ∧ h = before ++ x :: rest := by
  constructor
  · intro hsplit
    rcases List.eq_nil_or_concat after with rfl | ⟨rest, last, rfl⟩
    · obtain ⟨rfl, he⟩ := List.append_inj' hsplit rfl
      exact .inl ⟨rfl, rfl, by simpa using he.symm⟩
    · rw [List.concat_eq_append, ← List.cons_append, ← List.append_assoc] at hsplit
      obtain ⟨rfl, he⟩ := List.append_inj' hsplit rfl
      obtain rfl : e = last := by simpa using he
      exact .inr ⟨rest, by simp, rfl⟩
  · rintro (⟨rfl, rfl, rfl⟩ | ⟨rest, rfl, rfl⟩)
    · rfl
    · simp

theorem began_snoc : Began (h ++ [e]) i before during ↔
    (e = .lookup ∧ during = [] ∧ before = h ∧ lookups h = i) ∨
      ∃ rest, during = rest ++ [e] ∧ Began h i before rest := by
  constructor
  · rintro ⟨hsplit, hnumber⟩
    rcases snoc_eq_append_cons.1 hsplit with ⟨rfl, rfl, rfl⟩ | ⟨rest, rfl, hrest⟩
    · exact .inl ⟨rfl, rfl, rfl, hnumber⟩
    · exact .inr ⟨rest, rfl, hrest, hnumber⟩
  · rintro (⟨rfl, rfl, rfl, hnumber⟩ | ⟨rest, rfl, hbegan⟩)
    · exact ⟨rfl, hnumber⟩
    · exact ⟨snoc_eq_append_cons.2 (.inr ⟨rest, rfl, hbegan.split⟩), hbegan.number⟩

theorem Began.lt (hb : Began h i before during) : i < lookups h := by
  rw [hb.split, lookups_append, hb.number]
  simp [lookups, Event.isLookup]

def Accepted (h : List (Event α)) (i : Nat) : Prop :=
  ∃ before during, Began h i before during ∧ 2 ^ 64 ∣ invalidations during

/-- Whether an event settles, after `h`, what the cache holds. -/
inductive Settles (h : List (Event α)) : Event α → Prop
  | invalidate : Settles h .invalidate
  | store {i : Nat} {v : α} : Accepted h i → Settles h (.store i v)

/-- Whether the last event that settles what the cache holds is the store of a value at a time. -/
def Kept (h : List (Event α)) (v : α) (w : Nat) : Prop :=
  ∃ before i after, h = before ++ .store i v :: after ∧ Accepted before i ∧ elapsed before = w ∧
    ∀ p e q, after = p ++ e :: q → ¬ Settles (before ++ .store i v :: p) e

theorem kept_snoc : Kept (h ++ [e]) v w ↔
    (∃ i, e = .store i v ∧ Accepted h i ∧ elapsed h = w) ∨ (¬ Settles h e ∧ Kept h v w) := by
  constructor
  · rintro ⟨before, i, after, hsplit, haccepted, hw, hlast⟩
    rcases snoc_eq_append_cons.1 hsplit with ⟨rfl, rfl, rfl⟩ | ⟨rest, rfl, rfl⟩
    · exact .inl ⟨i, rfl, haccepted, hw⟩
    · refine .inr ⟨hlast rest e [] (by simp), before, i, rest, rfl, haccepted, hw, ?_⟩
      rintro p f q rfl
      exact hlast p f (q ++ [e]) (by simp)
  · rintro (⟨i, rfl, haccepted, hw⟩ | ⟨hnot, before, i, after, rfl, haccepted, hw, hlast⟩)
    · exact ⟨h, i, [], rfl, haccepted, hw, by simp⟩
    · refine ⟨before, i, after ++ [e], by simp, haccepted, hw, fun p f q hsplit => ?_⟩
      rcases snoc_eq_append_cons.1 hsplit with ⟨rfl, rfl, rfl⟩ | ⟨rest, rfl, hrest⟩
      · exact hnot
      · exact hlast p f rest hrest

theorem kept_snoc_of_not_settles (he : ¬ Settles h e) : Kept (h ++ [e]) v w ↔ Kept h v w := by
  rw [kept_snoc]
  refine ⟨fun hk => hk.elim ?_ (·.2), fun hk => .inr ⟨he, hk⟩⟩
  rintro ⟨i, rfl, haccepted, -⟩
  exact absurd (.store haccepted) he

end History

section Invariant

variable {ttl start i : Nat} {h before during : List (Event α)} {t : Timeline α} {e : Event α}
  {v : α}

theorem exists_began (hi : i < lookups h) : ∃ before during, Began h i before during := by
  induction h using List.reverseRecOn with
  | nil => simp [lookups] at hi
  | append_singleton h e ih =>
    by_cases hlt : i < lookups h
    · obtain ⟨before, rest, hbegan⟩ := ih hlt
      exact ⟨before, rest ++ [e], began_snoc.2 (.inr ⟨rest, rfl, hbegan⟩)⟩
    · have hone : lookups [e] = if e.isLookup then 1 else 0 := by
        simp [lookups, List.countP_singleton]
      rw [lookups_append, hone] at hi
      cases e with
      | lookup =>
        refine ⟨h, [], began_snoc.2 (.inl ⟨rfl, rfl, rfl, ?_⟩)⟩
        simp only [Event.isLookup, if_true] at hi
        omega
      | _ => exact absurd (by simpa [Event.isLookup] using hi) hlt

theorem ofNat_add_eq_iff (m n : Nat) :
    UInt64.ofNat (m + n) = UInt64.ofNat m ↔ 2 ^ 64 ∣ n := by
  rw [← UInt64.toNat_inj, UInt64.toNat_ofNat', UInt64.toNat_ofNat']
  omega

structure Tells (ttl start : Nat) (h : List (Event α)) (t : Timeline α) : Prop where
  ttl : t.clocked.cache.ttl = ttl
  now : t.clocked.now = start + elapsed h
  generation : t.clocked.cache.generation = .ofNat (invalidations h)
  count : t.begun.length = lookups h
  begun : ∀ i before during, Began h i before during →
    t.begun[i]? = some (.ofNat (invalidations before))
  entry : ∀ v m, t.clocked.cache.entry = some ⟨v, m⟩ ↔ ∃ w, Kept h v w ∧ m = start + w

namespace Tells

theorem step_store (ht : Tells ttl start h t) (hb : Began h i before during) (v : α) :
    t.step (.store i v) = if 2 ^ 64 ∣ invalidations during then t.stored v else t := by
  have hcount : invalidations h = invalidations before + invalidations during := by
    rw [hb.split, invalidations_append]
    simp [invalidations, Event.isInvalidation]
  simp only [Timeline.step, ht.begun i before during hb, ClockedCache.store, ReadCache.store,
    Timeline.stored, ht.generation, hcount, ofNat_add_eq_iff]
  split <;> rfl

theorem step_store_of_accepted (ht : Tells ttl start h t) (hi : Accepted h i) (v : α) :
    t.step (.store i v) = t.stored v := by
  obtain ⟨before, during, hb, hdvd⟩ := hi
  rw [ht.step_store hb, if_pos hdvd]

theorem step_store_of_refused (ht : Tells ttl start h t) (hi : ¬ Accepted h i) (v : α) :
    t.step (.store i v) = t := by
  by_cases hlt : i < lookups h
  · obtain ⟨before, during, hb⟩ := exists_began hlt
    rw [ht.step_store hb, if_neg fun hdvd => hi ⟨before, during, hb, hdvd⟩]
  · have hnone : t.begun[i]? = none := List.getElem?_eq_none (by rw [ht.count]; omega)
    simp only [Timeline.step, hnone]

theorem new (ttl start : Nat) : Tells ttl start [] (Timeline.start ttl start : Timeline α) where
  ttl := rfl
  now := rfl
  generation := rfl
  count := rfl
  begun _ _ _ hb := absurd hb.lt (by simp [lookups])
  entry v m := by
    refine iff_of_false (by simp [Timeline.start]) ?_
    rintro ⟨w, ⟨before, i, after, hsplit, -⟩, -⟩
    simp at hsplit

theorem entry_step (ht : Tells ttl start h t) (e : Event α) (v : α) (m : Nat) :
    (t.step e).clocked.cache.entry = some ⟨v, m⟩ ↔
      ∃ w, Kept (h ++ [e]) v w ∧ m = start + w := by
  by_cases he : Settles h e
  · have hkept {w} : Kept (h ++ [e]) v w ↔ ∃ i, e = .store i v ∧ Accepted h i ∧ elapsed h = w := by
      simp [kept_snoc, he]
    simp only [hkept]
    cases he with
    | invalidate =>
      simp [Timeline.step, ClockedCache.invalidate, ReadCache.invalidate]
    | store haccepted =>
      rename_i i u
      rw [ht.step_store_of_accepted haccepted]
      simp only [Timeline.stored, Option.some.injEq, CacheEntry.mk.injEq, Event.store.injEq, ht.now]
      constructor
      · rintro ⟨rfl, rfl⟩
        exact ⟨_, ⟨i, ⟨rfl, rfl⟩, haccepted, rfl⟩, rfl⟩
      · rintro ⟨_, ⟨_, ⟨-, rfl⟩, -, rfl⟩, rfl⟩
        exact ⟨rfl, rfl⟩
  · have hsame : (t.step e).clocked.cache.entry = t.clocked.cache.entry := by
      cases e with
      | store i u => rw [ht.step_store_of_refused fun haccepted => he (.store haccepted)]
      | invalidate => exact absurd .invalidate he
      | _ => rfl
    simp only [hsame, ht.entry, kept_snoc_of_not_settles he]

theorem step (ht : Tells ttl start h t) (e : Event α) :
    Tells ttl start (h ++ [e]) (t.step e) where
  ttl := (t.step_ttl e).trans ht.ttl
  now := by
    rw [t.step_now, ht.now, elapsed_append, Nat.add_assoc]
    simp [elapsed]
  generation := by
    rw [t.step_generation, ht.generation, invalidations_append]
    cases e <;> simp [invalidations, Event.isInvalidation]
  count := by
    rw [t.step_begun, List.length_append, ht.count, lookups_append]
    cases e <;> simp [lookups, Event.isLookup]
  begun i before during hb := by
    rw [t.step_begun]
    rcases began_snoc.1 hb with ⟨rfl, rfl, rfl, hi⟩ | ⟨rest, rfl, hbegan⟩
    · rw [List.getElem?_append_right (Nat.le_of_eq (ht.count.trans hi)), ht.count, hi, Nat.sub_self,
        ht.generation]
      rfl
    · rw [List.getElem?_append_left (ht.count ▸ hbegan.lt), ht.begun i before rest hbegan]
  entry := ht.entry_step e

theorem run (ttl start : Nat) (h : List (Event α)) :
    Tells ttl start h ((Timeline.start ttl start).run h) := by
  induction h using List.reverseRecOn with
  | nil => exact new ttl start
  | append_singleton h e ih =>
    rw [Timeline.run_append]
    exact ih.step e

theorem get?_iff (ht : Tells ttl start h t) (v : α) :
    t.clocked.get? = some v ↔ ∃ w, Kept h v w ∧ elapsed h - w < ttl := by
  have hfresh : t.clocked.get? = some v ↔
      ∃ m, t.clocked.cache.entry = some ⟨v, m⟩ ∧ t.clocked.now - m < ttl := by
    rw [ClockedCache.get?, ReadCache.get?, ht.ttl]
    cases t.clocked.cache.entry with
    | none => simp
    | some e =>
      obtain ⟨u, m⟩ := e
      by_cases hm : t.clocked.now - m < ttl <;> simp [Option.filter, ReadCache.isFreshAt, hm]
  rw [hfresh, ht.now]
  constructor
  · rintro ⟨m, hentry, hlt⟩
    obtain ⟨w, hkept, rfl⟩ := (ht.entry v m).1 hentry
    exact ⟨w, hkept, by omega⟩
  · rintro ⟨w, hkept, hlt⟩
    exact ⟨start + w, (ht.entry v _).2 ⟨w, hkept, rfl⟩, by omega⟩

end Tells

end Invariant

section Computations

variable {ε : Type}

def ending (i : Nat) : Except ε α → Event α
  | .ok v => .store i v
  | .error _ => .fail i

theorem lookup_eq (c : ClockedCache α) :
    c.cache.lookup c.now = (c.get?, c.cache.generation) := rfl

theorem getOrTryCompute_hit {c : ClockedCache α} {v : α} (hit : c.get? = some v)
    (compute : ClockedCache α → Except ε α × ClockedCache α) :
    c.getOrTryCompute compute = (.ok v, c) := by
  simp only [ClockedCache.getOrTryCompute, lookup_eq, hit]

theorem getOrCompute_hit {c : ClockedCache α} {v : α} (hit : c.get? = some v)
    (compute : ClockedCache α → α × ClockedCache α) : c.getOrCompute compute = (v, c) := by
  simp only [ClockedCache.getOrCompute, lookup_eq, hit]

theorem step_ending (ttl start : Nat) (h during : List (Event α)) (r : Except ε α) :
    let t := (Timeline.start ttl start).run h
    ((t.run (.lookup :: during)).step (ending (lookups h) r)).clocked = match r with
      | .ok v => (t.run (.lookup :: during)).clocked.store v t.clocked.cache.generation
      | .error _ => (t.run (.lookup :: during)).clocked := by
  intro t
  cases r with
  | error e => rfl
  | ok v =>
    have hbegun : (t.run (.lookup :: during)).begun[lookups h]? =
        some t.clocked.cache.generation := by
      have ht' := Tells.run (α := α) ttl start (h ++ .lookup :: during)
      rw [Timeline.run_append] at ht'
      rw [ht'.begun _ h during ⟨rfl, rfl⟩, (Tells.run ttl start h).generation]
    simp only [ending, Timeline.step, hbegun]

theorem getOrTryCompute_miss (ttl start : Nat) (h during : List (Event α))
    {compute : ClockedCache α → Except ε α × ClockedCache α} :
    let t := (Timeline.start ttl start).run h
    let t' := t.run (.lookup :: during)
    let r := (compute t.clocked).1
    t.clocked.get? = none → (compute t.clocked).2 = t'.clocked →
      t.clocked.getOrTryCompute compute = (r, (t'.step (ending (lookups h) r)).clocked) := by
  intro t t' r hmiss hduring
  simp only [ClockedCache.getOrTryCompute, lookup_eq, hmiss]
  rw [step_ending, ← hduring]
  simp only [r]
  cases compute t.clocked with
  | mk r c => cases r <;> rfl

theorem getOrCompute_miss (ttl start : Nat) (h during : List (Event α))
    {compute : ClockedCache α → α × ClockedCache α} :
    let t := (Timeline.start ttl start).run h
    let t' := t.run (.lookup :: during)
    let v := (compute t.clocked).1
    t.clocked.get? = none → (compute t.clocked).2 = t'.clocked →
      t.clocked.getOrCompute compute = (v, (t'.step (.store (lookups h) v)).clocked) := by
  intro t t' v hmiss hduring
  have hending := step_ending ttl start h during (.ok (ε := Unit) v)
  simp only [ending] at hending
  simp only [ClockedCache.getOrCompute, lookup_eq, hmiss]
  rw [hending, ← hduring]

/-- After any history a cache stores what a computation found if the invalidations since its lookup
are a multiple of 2^64. It serves the value of the latest accepted store as long as nothing was
invalidated since and the time span is not over. A computation is asked only if nothing is served;
then its answer is handed on, and what the cache is left with is what its own events and its end
make of it, where failing adds nothing. -/
theorem cache_follows_history (ε : Type) (ttl start : Nat) (h : List (Event α)) :
    let t := (Timeline.start ttl start).run h
    (∀ i before during v, Began h i before during →
      t.step (.store i v) = if 2 ^ 64 ∣ invalidations during then t.stored v else t) ∧
    (∀ v, t.clocked.get? = some v ↔ ∃ w, Kept h v w ∧ elapsed h - w < ttl) ∧
    (t.clocked.isFresh ↔ ∃ v w, Kept h v w ∧ elapsed h - w < ttl) ∧
    (∀ v, t.clocked.get? = some v →
      (∀ compute : ClockedCache α → Except ε α × ClockedCache α,
        t.clocked.getOrTryCompute compute = (.ok v, t.clocked)) ∧
      ∀ compute : ClockedCache α → α × ClockedCache α,
        t.clocked.getOrCompute compute = (v, t.clocked)) ∧
    (t.clocked.get? = none → ∀ during,
      let t' := t.run (.lookup :: during)
      (∀ compute : ClockedCache α → Except ε α × ClockedCache α,
        (compute t.clocked).2 = t'.clocked →
        let r := (compute t.clocked).1
        t.clocked.getOrTryCompute compute = (r, (t'.step (ending (lookups h) r)).clocked) ∧
          ∀ e, r = .error e → t'.step (ending (lookups h) r) = t') ∧
      ∀ compute : ClockedCache α → α × ClockedCache α, (compute t.clocked).2 = t'.clocked →
        let v := (compute t.clocked).1
        t.clocked.getOrCompute compute = (v, (t'.step (.store (lookups h) v)).clocked)) := by
  intro t
  have ht : Tells ttl start h t := Tells.run ttl start h
  refine ⟨fun i before during v hb => ht.step_store hb v, ht.get?_iff, ?_, fun v hit => ?_,
    fun hmiss during => ⟨fun compute hduring => ⟨?_, ?_⟩, fun compute hduring => ?_⟩⟩
  · simp only [ClockedCache.isFresh, ReadCache.isFresh, Option.isSome_iff_exists]
    exact exists_congr ht.get?_iff
  · exact ⟨getOrTryCompute_hit hit, getOrCompute_hit hit⟩
  · exact getOrTryCompute_miss ttl start h during hmiss hduring
  · rintro e he
    rw [he]
    rfl
  · exact getOrCompute_miss ttl start h during hmiss hduring

end Computations

section Nested

def inner (c : ClockedCache Nat) : Except Unit Nat × ClockedCache Nat :=
  c.getOrTryCompute fun c => (.ok 1, c.invalidate)

def outer (c : ClockedCache Nat) : Except Unit Nat × ClockedCache Nat :=
  c.getOrTryCompute fun c => (.ok 2, (inner c).2)

/-- Neither of two nested computations stores what it found, as the inner one invalidates. -/
theorem cache_follows_history_nested :
    let t : Timeline Nat := Timeline.start 10 0
    let during : List (Event Nat) := [.lookup, .invalidate, .store 1 1]
    t.clocked.get? = none ∧ (inner t.clocked).2 = (t.run (.lookup :: during)).clocked ∧
      outer t.clocked = (.ok 2, (t.run (.lookup :: during ++ [.store 0 2])).clocked) ∧
      (outer t.clocked).2.get? = none := by
  intro t during
  have hmiss : t.clocked.get? = none := rfl
  have hduring : (inner t.clocked).2 = (t.run (.lookup :: during)).clocked := rfl
  obtain ⟨-, -, -, -, hcompute⟩ := cache_follows_history Unit 10 0 ([] : List (Event Nat))
  obtain ⟨houter, -⟩ := (hcompute hmiss during).1 (fun c => (.ok 2, (inner c).2)) hduring
  exact ⟨hmiss, hduring, houter, by decide⟩

end Nested

end Agora.CacheHistory
