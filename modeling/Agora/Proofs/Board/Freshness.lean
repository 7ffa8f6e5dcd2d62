import Mathlib.Algebra.Group.Nat.Defs
import Agora.Proofs.Board.Pool
/-!
The invariant: the entry of the cache was read and then stored, with no invalidation since it was
read; for an invalidation in between would have moved the generation on, and the store would have
been refused.
-/
namespace Agora

open Agora.Task

variable {σ τ : Type}

def invalidations (h : List (Moment σ τ)) : Nat :=
  h.countP (·.call.isInvalidation)

@[simp] theorem invalidations_append (h k : List (Moment σ τ)) :
    invalidations (h ++ k) = invalidations h + invalidations k := by
  simp [invalidations]

theorem invalidations_singleton (m : Moment σ τ) :
    invalidations [m] = if m.call.isInvalidation then 1 else 0 := by
  simp [invalidations, List.countP_singleton]

theorem invalidations_take_add_drop (h : List (Moment σ τ)) (n : Nat) :
    invalidations (h.take n) + invalidations (h.drop n) = invalidations h := by
  rw [← invalidations_append, List.take_append_drop]

theorem invalidations_drop_le (h : List (Moment σ τ)) {m n : Nat} (hmn : m ≤ n) :
    invalidations (h.drop n) ≤ invalidations (h.drop m) :=
  (List.drop_sublist_drop_left h hmn).countP_le

theorem invalidation_before {h : List (Moment σ τ)} {n q : Nat} {m : Moment σ τ}
    (hn : invalidations (h.drop n) = 0) (hq : h[q]? = some m)
    (hm : m.call.isInvalidation) : q < n := by
  apply Nat.lt_of_not_le
  intro hle
  have hmem : m ∈ h.drop n := by
    refine List.mem_of_getElem? (i := q - n) ?_
    rw [List.getElem?_drop, Nat.add_sub_cancel' hle, hq]
  exact absurd (List.countP_eq_zero.1 hn m hmem) (by simpa using hm)

/-- A generation that is back where it was has not moved, unless it went all the way round. -/
theorem eq_zero_of_generation {start : UInt64} {m n : Nat}
    (h : start + UInt64.ofNat (m + n) = start + UInt64.ofNat m) (hn : n < 2 ^ 64) : n = 0 := by
  rw [UInt64.add_right_inj] at h
  have := congrArg UInt64.toNat h
  simp only [UInt64.toNat_ofNat'] at this
  omega

namespace Pool

def LooksUp (p : Pool σ τ) (i n : Nat) : Prop :=
  ∃ found w, p.history[n]? = some ⟨i, .lookup found, w⟩

def Invalidates (p : Pool σ τ) (i n : Nat) : Prop :=
  ∃ w, p.history[n]? = some ⟨i, .invalidate, w⟩

/-- The change that a task makes to the store is done, and it does not call the store again. -/
def Commits (p : Pool σ τ) (i n : Nat) : Prop :=
  (∃ c w, p.history[n]? = some ⟨i, c, w⟩ ∧ c.isCommit) ∧
    ∀ k c w, p.history[k]? = some ⟨i, c, w⟩ → c.isExecution → k ≤ n

def Reads (services : Services σ τ) (p : Pool σ τ) (n : Nat) (rows : List Row) : Prop :=
  ∃ i w, p.history[n]? = some ⟨i, .execute ⟨Board.listingSql, []⟩ (.ok rows), w⟩ ∧
    (services.executor.execute ⟨Board.listingSql, []⟩ w.store).1 = .ok rows

def Stores (p : Pool σ τ) (n : Nat) (rows : List Row) (time : Nat) : Prop :=
  ∃ i generation w, p.history[n]? = some ⟨i, .store rows generation, w⟩ ∧
    w.listing.generation = generation ∧ w.now = time

def Answers (p : Pool σ τ) (i : Nat) (r : Request) (answer : Answer) : Prop :=
  p.tasks[i]? = some (r, .done (.ok answer))

/-- Fewer than 2^64 invalidations go by while a listing is computed. -/
def BoundedFlight (h : List (Moment σ τ)) : Prop :=
  ∀ i m n found rows generation v w, m < n → h[m]? = some ⟨i, .lookup found, v⟩ →
    h[n]? = some ⟨i, .store rows generation, w⟩ → invalidations ((h.take n).drop m) < 2 ^ 64

theorem BoundedFlight.of_prefix {h k : List (Moment σ τ)} (hk : BoundedFlight k)
    (hpre : h <+: k) : BoundedFlight h := by
  obtain ⟨l, rfl⟩ := hpre
  intro i m n found rows generation v w hmn hm hn
  have hlt := (List.getElem?_eq_some_iff.1 hn).1
  have := hk i m n found rows generation v w hmn
    (by rw [List.getElem?_append_left (by omega), hm]) (by rw [List.getElem?_append_left hlt, hn])
  rwa [List.take_append_of_le_length (by omega)] at this

theorem boundedFlight_of_length {h : List (Moment σ τ)} (hlen : h.length < 2 ^ 64) :
    BoundedFlight h := by
  intro i m n found rows generation v w _ _ _
  have hcount : invalidations ((h.take n).drop m) ≤ ((h.take n).drop m).length :=
    List.countP_le_length
  simp only [List.length_drop, List.length_take] at hcount
  omega

def AccountsFor (h : List (Moment σ τ)) (e : CacheEntry (List Row)) : Prop :=
  ∃ r s, r < s ∧ (∃ i w, h[r]? = some ⟨i, .execute ⟨Board.listingSql, []⟩ (.ok e.value), w⟩) ∧
    (∃ i generation w, h[s]? = some ⟨i, .store e.value generation, w⟩ ∧
      w.listing.generation = generation ∧ w.now = e.writtenAt) ∧
    invalidations (h.drop r) = 0

theorem AccountsFor.snoc {h : List (Moment σ τ)} {e : CacheEntry (List Row)} {m : Moment σ τ}
    (he : AccountsFor h e) (hm : m.call.isInvalidation = false) : AccountsFor (h ++ [m]) e := by
  obtain ⟨r, s, hrs, ⟨i, v, hr⟩, ⟨j, g, w, hs, hg, hw⟩, hn⟩ := he
  have hrlt := (List.getElem?_eq_some_iff.1 hr).1
  have hslt := (List.getElem?_eq_some_iff.1 hs).1
  refine ⟨r, s, hrs, ⟨i, v, ?_⟩, ⟨j, g, w, ?_, hg, hw⟩, ?_⟩
  · rw [List.getElem?_append_left hrlt, hr]
  · rw [List.getElem?_append_left hslt, hs]
  · rw [List.drop_append_of_le_length (by omega), invalidations_append, hn]
    simp [invalidations, hm]

structure Sound (services : Services σ τ) (start : World σ τ) (p : Pool σ τ) : Prop where
  ttl : p.world.listing.ttl = start.listing.ttl
  generation : p.world.listing.generation =
    start.listing.generation + UInt64.ofNat (invalidations p.history)
  generations : ∀ n m, p.history[n]? = some m → m.world.listing.generation =
    start.listing.generation + UInt64.ofNat (invalidations (p.history.take n))
  answered : ∀ m ∈ p.history, m.call.AnsweredBy services m.world
  entry : ∀ e, p.world.listing.entry = some e →
    AccountsFor p.history e ∧ e.writtenAt ≤ p.world.now
  served : ∀ n i rows g w, p.history[n]? = some ⟨i, .lookup (some rows, g), w⟩ →
    ∃ e, e.value = rows ∧ AccountsFor (p.history.take n) e ∧ e.writtenAt ≤ w.now ∧
      w.now - e.writtenAt < start.listing.ttl

theorem sound_empty {services : Services σ τ} {w : World σ τ} (hw : w.listing.entry = none) :
    Sound services w { world := w } where
  ttl := rfl
  generation := by simp [invalidations]
  generations := by simp
  answered := by simp
  entry := by simp [hw]
  served := by simp

end Pool

section Cache

variable {w : World σ τ} {c : Call}

theorem ttl_listingAfter (w : World σ τ) (c : Call) :
    (c.listingAfter w).ttl = w.listing.ttl := by
  cases c with
  | store rows generation => simp only [Call.listingAfter, ReadCache.store]; split <;> rfl
  | _ => rfl

theorem generation_listingAfter (w : World σ τ) (c : Call) :
    (c.listingAfter w).generation =
      w.listing.generation + UInt64.ofNat (if c.isInvalidation then 1 else 0) := by
  cases c with
  | store rows generation =>
    simp only [Call.listingAfter, ReadCache.store]
    split <;> simp [Call.isInvalidation]
  | invalidate => rfl
  | _ => simp [Call.listingAfter, Call.isInvalidation]

theorem entry_listingAfter {e : CacheEntry (List Row)} (h : (c.listingAfter w).entry = some e) :
    c = .store e.value w.listing.generation ∧ e.writtenAt = w.now ∨
      w.listing.entry = some e ∧ c.isInvalidation = false := by
  cases c with
  | store rows generation =>
    simp only [Call.listingAfter, ReadCache.store] at h
    split at h
    · rename_i hg
      cases h
      exact .inl ⟨by rw [hg], rfl⟩
    · exact .inr ⟨h, rfl⟩
  | invalidate => cases h
  | _ => exact .inr ⟨h, rfl⟩

theorem entry_of_hit {rows : List Row} {generation : UInt64} {now : Nat}
    {cache : ReadCache (List Row)} (h : (some rows, generation) = cache.lookup now) :
    ∃ e, cache.entry = some e ∧ e.value = rows ∧ now - e.writtenAt < cache.ttl := by
  have hget := (Prod.mk.inj h).1.symm
  obtain ⟨e, he, rfl⟩ := Option.map_eq_some_iff.1 hget
  obtain ⟨he, hfresh⟩ := Option.filter_eq_some_iff.1 he
  exact ⟨e, he, rfl, by simpa [ReadCache.isFreshAt] using hfresh⟩

end Cache

theorem listMessages_of_entryAccess {b : Board} {r : Request} {cs : List Call} {c : Call}
    {u : Task (Except BoardError Answer)} (h : Path (r.task b) cs u) (hc : c ∈ cs)
    (haccess : c.isEntryAccess) : r = .listMessages := by
  have hcovers : Covers b.options (fun cs => ∀ c ∈ cs, c.isEntryAccess = false) := by
    refine ⟨⟨by simp, ?_⟩, ?_, ?_, ?_, ?_⟩
    · intro cs ds hcs hds c hc
      exact (List.mem_append.1 hc).elim (hcs c) (hds c)
    · intro intent cs u hp
      rcases path_compileAndRun hp with ⟨rfl | ⟨reply, rfl⟩, -⟩ | ⟨raw, s, answer, -, rfl, -⟩ <;>
        simp [Call.isEntryAccess]
    all_goals simp [Call.isEntryAccess]
  by_cases hr : r = .listMessages
  · exact hr
  · exact absurd haccess (by simp [hcovers.always_request r hr cs u h c hc])

theorem ListingAt.calls_before_store {ds cs : List Call} {u : Task (Except BoardError Answer)}
    {rows : List Row} {generation : UInt64} (h : ListingAt cs u)
    (hcs : cs = ds ++ [.store rows generation]) :
    ds = [.lookup (none, generation), .execute ⟨Board.listingSql, []⟩ (.ok rows)] := by
  have hlast := congrArg List.getLast? hcs
  have hinit := congrArg List.dropLast hcs
  cases h <;> simp at hlast hinit
  obtain ⟨rfl, rfl⟩ := hlast
  exact hinit.symm

theorem ListingAt.of_lookup {cs ds es : List Call} {u : Task (Except BoardError Answer)}
    {found : Option (List Row) × UInt64} (h : ListingAt cs u)
    (hcs : cs = ds ++ .lookup found :: es) : ds = [] ∧ ListingAt (.lookup found :: es) u := by
  cases ds with
  | nil =>
    rw [List.nil_append] at hcs
    exact ⟨rfl, hcs ▸ h⟩
  | cons d ds =>
    have hmem : Call.lookup found ∈ cs.tail := by simp [hcs]
    cases h <;> simp at hmem

theorem ListingAt.done_of_hit {es : List Call} {u : Task (Except BoardError Answer)}
    {rows : List Row} {generation : UInt64}
    (h : ListingAt (.lookup (some rows, generation) :: es) u) : u = .done (.ok (.rows rows)) := by
  cases h
  rfl

namespace Pool

variable {services : Services σ τ} {b : Board} {start : World σ τ} {p : Pool σ τ}

theorem accountsFor_stored (hp : Sound services start p) (ht : p.Tracked b) {i : Nat}
    {r : Request} {t : Task (Except BoardError Answer)} {rows : List Row}
    (htask : p.tasks[i]? = some (r, t))
    (hcall : t.call? services p.world = some (.store rows p.world.listing.generation))
    (hb : BoundedFlight
      (p.history ++ [⟨i, .store rows p.world.listing.generation, p.world⟩])) :
    AccountsFor (p.history ++ [⟨i, .store rows p.world.listing.generation, p.world⟩])
      ⟨rows, p.world.now⟩ := by
  have hpath := (ht.path i r t htask).snoc (makes_step hcall)
  obtain rfl := listMessages_of_entryAccess hpath (List.mem_append_right _ (.head _)) rfl
  have hcalls := (path_listMessages hpath).calls_before_store rfl
  obtain ⟨m, v, hm, -, hrest⟩ := exists_moment [] hcalls
  obtain ⟨k, v', hk, -, -⟩ := exists_moment [] hrest
  rw [List.getElem?_drop] at hk
  have hmlt := (List.getElem?_eq_some_iff.1 hm).1
  have hklt := (List.getElem?_eq_some_iff.1 hk).1
  have hflight : invalidations (p.history.drop m) < 2 ^ 64 := by
    have := hb i m p.history.length _ _ _ v p.world hmlt
      (by rw [List.getElem?_append_left hmlt, hm]) List.getElem?_concat_length
    rwa [List.take_left] at this
  -- the generation is the one looked up, and the flight is too short for it to have come round
  have hfound := hp.answered _ (List.mem_of_getElem? hm)
  have hgeneration : p.world.listing.generation = v.listing.generation :=
    (Prod.mk.inj hfound).2
  have hstill : invalidations (p.history.drop m) = 0 := by
    have hround : start.listing.generation +
        UInt64.ofNat (invalidations (p.history.take m) + invalidations (p.history.drop m)) =
          start.listing.generation + UInt64.ofNat (invalidations (p.history.take m)) := by
      rw [invalidations_take_add_drop, ← hp.generation, ← hp.generations m _ hm, hgeneration]
    exact eq_zero_of_generation hround hflight
  refine ⟨m + 1 + k, p.history.length, by omega, ⟨i, v', ?_⟩,
    ⟨i, _, p.world, by simp, rfl, rfl⟩, ?_⟩
  · rw [List.getElem?_append_left hklt, hk]
  · have hle := invalidations_drop_le p.history (m := m) (n := m + 1 + k) (by omega)
    rw [hstill, Nat.le_zero] at hle
    rw [List.drop_append_of_le_length (by omega), invalidations_append, hle]
    rfl

theorem moment_snoc {h : List (Moment σ τ)} {m m' : Moment σ τ} {n : Nat}
    (hn : (h ++ [m])[n]? = some m') :
    (n < h.length ∧ h[n]? = some m') ∨ (n = h.length ∧ m' = m) := by
  rcases Nat.lt_trichotomy n h.length with hlt | rfl | hgt
  · exact .inl ⟨hlt, by rwa [List.getElem?_append_left hlt] at hn⟩
  · exact .inr ⟨rfl, by simpa using hn.symm⟩
  · rw [List.getElem?_eq_none (by simp; omega)] at hn
    cases hn

theorem sound_step (hp : Sound services start p) (ht : p.Tracked b) (m : Move)
    (hb : BoundedFlight (p.step services b m).history) :
    Sound services start (p.step services b m) := by
  revert hb
  apply step_cases (m := m) (P := fun q => BoundedFlight q.history → Sound services start q)
  · exact fun _ => hp
  · exact fun _ _ => ⟨hp.ttl, hp.generation, hp.generations, hp.answered, hp.entry, hp.served⟩
  · intro ms _
    refine ⟨hp.ttl, hp.generation, hp.generations, hp.answered, fun e he => ?_, hp.served⟩
    exact ⟨(hp.entry e he).1, Nat.le_add_right_of_le (hp.entry e he).2⟩
  · intro i r t c htask hcall hb
    have hlisting := step_listing hcall
    have hanswered := answeredBy_of_call? hcall
    constructor
    case ttl => simp only [hlisting, ttl_listingAfter, hp.ttl]
    case generation =>
      simp only [hlisting, generation_listingAfter, hp.generation, invalidations_append,
        invalidations_singleton, UInt64.ofNat_add, UInt64.add_assoc]
    case generations =>
      intro n m hn
      rcases moment_snoc hn with ⟨hlt, hn⟩ | ⟨rfl, rfl⟩
      · rw [List.take_append_of_le_length (Nat.le_of_lt hlt)]
        exact hp.generations n m hn
      · simpa using hp.generation
    case answered =>
      intro m hm
      rcases List.mem_append.1 hm with hm | hm
      · exact hp.answered m hm
      · obtain rfl := List.mem_singleton.1 hm
        exact hanswered
    case entry =>
      intro e he
      simp only [step_now] at he ⊢
      rw [hlisting] at he
      rcases entry_listingAfter he with ⟨rfl, hw⟩ | ⟨he, hc⟩
      · refine ⟨?_, Nat.le_of_eq hw⟩
        have := accountsFor_stored hp ht htask hcall hb
        rwa [← hw] at this
      · exact ⟨(hp.entry e he).1.snoc hc, (hp.entry e he).2⟩
    case served =>
      intro n j rows g w hn
      rcases moment_snoc hn with ⟨hlt, hn⟩ | ⟨rfl, hm⟩
      · rw [List.take_append_of_le_length (Nat.le_of_lt hlt)]
        exact hp.served n j rows g w hn
      · cases hm
        obtain ⟨e, he, hvalue, hfresh⟩ := entry_of_hit hanswered
        rw [List.take_left, ← hp.ttl]
        exact ⟨e, hvalue, (hp.entry e he).1, (hp.entry e he).2, hfresh⟩

theorem sound_run (hp : Sound services start p) (ht : p.Tracked b) (moves : List Move)
    (hb : BoundedFlight (p.run services b moves).history) :
    Sound services start (p.run services b moves) := by
  induction moves generalizing p with
  | nil => exact hp
  | cons m moves ih =>
    have hstep := hb.of_prefix (history_prefix_run services b (p.step services b m) moves)
    exact ih (sound_step hp ht m hstep) (tracked_step ht m) hb

theorem callsOf_drop_mem {h : List (Moment σ τ)} {i n k : Nat} {c : Call} {w : World σ τ}
    (hk : h[k]? = some ⟨i, c, w⟩) (hnk : n ≤ k) : c ∈ callsOf i (h.drop n) := by
  refine List.mem_map.2 ⟨⟨i, c, w⟩, List.mem_filter.2 ⟨?_, by simp⟩, rfl⟩
  refine List.mem_of_getElem? (i := k - n) ?_
  rw [List.getElem?_drop, Nat.add_sub_cancel' hnk, hk]

theorem reads_of_moment (hp : Sound services start p) {i n : Nat} {rows : List Row}
    {w : World σ τ}
    (hn : p.history[n]? = some ⟨i, .execute ⟨Board.listingSql, []⟩ (.ok rows), w⟩) :
    p.Reads services n rows :=
  ⟨i, w, hn, (hp.answered _ (List.mem_of_getElem? hn)).symm⟩

theorem commits_then_invalidates (ht : p.Tracked b) {j : Nat} {r : Request} {answer : Answer}
    (hj : p.Answers j r answer) (hw : r.Writes answer) :
    ∃ c q, c < q ∧ p.Commits j c ∧ p.Invalidates j q := by
  obtain ⟨ds, hcalls, es, c, rfl, hc⟩ := writes_ends_in_invalidation (ht.path _ _ _ hj) hw
  rw [List.append_assoc, List.singleton_append] at hcalls
  obtain ⟨n, v, hn, -, hrest⟩ := exists_moment _ hcalls
  obtain ⟨k, v', hk, -, -⟩ := exists_moment [] hrest
  rw [List.getElem?_drop] at hk
  refine ⟨n, n + 1 + k, by omega, ⟨⟨c, v, hn, hc⟩, ?_⟩, v', hk⟩
  intro l d w hl hd
  apply Nat.le_of_not_lt
  intro hlt
  have hmem := callsOf_drop_mem hl (Nat.succ_le_of_lt hlt)
  rw [hrest, List.mem_singleton] at hmem
  subst hmem
  cases hd

theorem listing_of_lookup (ht : p.Tracked b) {i n : Nat} {found : Option (List Row) × UInt64}
    {w : World σ τ} (hn : p.history[n]? = some ⟨i, .lookup found, w⟩) :
    ∃ u, p.tasks[i]? = some (.listMessages, u) ∧ ListingAt (callsOf i p.history) u := by
  have hstarted := ht.started _ (List.mem_of_getElem? hn)
  obtain ⟨⟨r, u⟩, hu⟩ : ∃ x, p.tasks[i]? = some x :=
    ⟨_, List.getElem?_eq_getElem hstarted⟩
  have hpath := ht.path i r u hu
  obtain rfl := listMessages_of_entryAccess hpath (callsOf_drop_mem hn (Nat.zero_le n)) rfl
  exact ⟨u, hu, path_listMessages hpath⟩

theorem reads_after_invalidation (hp : Sound services start p) (ht : p.Tracked b) {i j n q : Nat}
    {rows : List Row} (hq : p.Invalidates j q) (hqn : q < n) (hn : p.LooksUp i n)
    (hi : p.Answers i .listMessages (.rows rows)) : ∃ k, q < k ∧ p.Reads services k rows := by
  obtain ⟨found, w, hn⟩ := hn
  obtain ⟨v, hq⟩ := hq
  obtain ⟨hfirst, hlisting⟩ := (path_listMessages (ht.path _ _ _ hi)).of_lookup (callsOf_split hn)
  generalize hes : callsOf i (p.history.drop (n + 1)) = es at hlisting
  -- the rows came from the cache, or were read after the lookup
  cases hlisting with
  | hit =>
    obtain ⟨e, rfl, ⟨k, s, hks, ⟨l, v', hk⟩, -, hstill⟩, -, -⟩ := hp.served _ _ _ _ _ hn
    have hqtake : (p.history.take n)[q]? = some ⟨j, .invalidate, v⟩ := by
      rw [List.getElem?_take_of_lt hqn, hq]
    have hkn : k < n := by
      have := (List.getElem?_eq_some_iff.1 hk).1
      rw [List.length_take] at this
      omega
    rw [List.getElem?_take_of_lt hkn] at hk
    exact ⟨k, invalidation_before hstill hqtake rfl, reads_of_moment hp hk⟩
  | stored =>
    obtain ⟨k, v', hk, -, -⟩ := exists_moment [] hes
    rw [List.getElem?_drop] at hk
    exact ⟨n + 1 + k, by omega, reads_of_moment hp hk⟩

/-- A listing that looks up after a write's invalidation shows what was read after the write, and
what the cache serves was stored less than the time span before. -/
theorem listing_never_stale (services : Services σ τ) (b : Board) (start : World σ τ)
    (moves : List Move) (hempty : start.listing.entry = none)
    (hflight : BoundedFlight (run services b { world := start } moves).history) :
    let p := run services b { world := start } moves
    (∀ j r answer, p.Answers j r answer → r.Writes answer →
      ∃ c q, c < q ∧ p.Commits j c ∧ p.Invalidates j q ∧
        ∀ i n rows, q < n → p.LooksUp i n → p.Answers i .listMessages (.rows rows) →
          ∃ k, c < k ∧ p.Reads services k rows) ∧
    ∀ i n rows generation w, p.history[n]? = some ⟨i, .lookup (some rows, generation), w⟩ →
      p.Answers i .listMessages (.rows rows) ∧
        ∃ s time, s < n ∧ p.Stores s rows time ∧ time ≤ w.now ∧
          w.now - time < start.listing.ttl := by
  have ht : Tracked b (run services b { world := start } moves) :=
    tracked_run (tracked_empty b start) moves
  have hp : Sound services start (run services b { world := start } moves) :=
    sound_run (sound_empty hempty) (tracked_empty b start) moves hflight
  refine ⟨?_, ?_⟩
  · intro j r answer hj hw
    obtain ⟨c, q, hcq, hc, hq⟩ := commits_then_invalidates ht hj hw
    refine ⟨c, q, hcq, hc, hq, fun i n rows hqn hn hi => ?_⟩
    obtain ⟨k, hqk, hk⟩ := reads_after_invalidation hp ht hq hqn hn hi
    exact ⟨k, Nat.lt_trans hcq hqk, hk⟩
  · intro i n rows generation w hn
    refine ⟨?_, ?_⟩
    · obtain ⟨u, hu, hlisting⟩ := listing_of_lookup ht hn
      obtain ⟨-, hlisting⟩ := hlisting.of_lookup (callsOf_split hn)
      obtain rfl := hlisting.done_of_hit
      exact hu
    · obtain ⟨e, rfl, ⟨k, s, -, -, ⟨l, g, v, hs, hg, htime⟩, -⟩, hle, hfresh⟩ :=
        hp.served _ _ _ _ _ hn
      have hsn : s < n := by
        have := (List.getElem?_eq_some_iff.1 hs).1
        rw [List.length_take] at this
        omega
      rw [List.getElem?_take_of_lt hsn] at hs
      exact ⟨s, e.writtenAt, hsn, ⟨l, g, v, hs, hg, htime⟩, hle, hfresh⟩

/-- A listing that is overtaken by a vote is not kept; the next one is read anew and then served. -/
def overtaken : List Move :=
  [.start .listMessages, .call 0, .call 0, .start (.vote 1 1 1), .call 1, .call 1, .call 0,
    .start .listMessages, .call 2, .call 2, .call 2, .start .listMessages, .wait 59, .call 3]

def overtakenScript : ExecutorScript where
  answers := [{ rows := [[("voteCount", .int 0)]] }, { results := [[], [], []] },
    { rows := [[("voteCount", .int 1)]] }]

def overtakenServices : Services Fixture ExecutorScript :=
  ⟨Fixture.synthesizer, ExecutorScript.executor true⟩

def overtakenStart : World Fixture ExecutorScript :=
  ⟨{}, overtakenScript, { ttl := 60 }, 0⟩

theorem listing_never_stale_overtaken :
    let p := run overtakenServices { commitsBatches := true } { world := overtakenStart } overtaken
    overtakenStart.listing.entry = none ∧ BoundedFlight p.history ∧
      p.Answers 1 (.vote 1 1 1) (.vote (.cast .up)) ∧
      p.Answers 3 .listMessages (.rows [[("voteCount", .int 1)]]) ∧
      (∃ c k, p.Commits 1 c ∧ c < k ∧
        p.Reads overtakenServices k [[("voteCount", .int 1)]]) ∧
      ∃ s time, p.Stores s [[("voteCount", .int 1)]] time ∧ 59 - time < 60 := by
  intro p
  have hempty : overtakenStart.listing.entry = none := rfl
  have hflight : BoundedFlight p.history := boundedFlight_of_length (by decide)
  have hvote : p.Answers 1 (.vote 1 1 1) (.vote (.cast .up)) := rfl
  have hlist : p.Answers 3 .listMessages (.rows [[("voteCount", .int 1)]]) := rfl
  obtain ⟨hwrites, hserved⟩ :=
    listing_never_stale overtakenServices { commitsBatches := true } overtakenStart overtaken
      hempty hflight
  have hlookup : p.history[8]? =
      some ⟨3, .lookup (some [[("voteCount", .int 1)]], 1), p.world⟩ := rfl
  obtain ⟨c, q, -, hc, ⟨v, hq⟩, hlater⟩ := hwrites 1 _ _ hvote rfl
  have hq8 : q < 8 := by
    have hlt : q < 9 := (List.getElem?_eq_some_iff.1 hq).1
    have hne : q ≠ 8 := by
      rintro rfl
      cases hq.symm.trans hlookup
    omega
  obtain ⟨k, hck, hk⟩ := hlater 3 8 _ hq8 ⟨_, _, hlookup⟩ hlist
  obtain ⟨-, s, time, -, hs, -, hfresh⟩ := hserved 3 8 _ _ _ hlookup
  exact ⟨hempty, hflight, hvote, hlist, ⟨c, k, hc, hck, hk⟩, s, time, hs, hfresh⟩

end Pool

end Agora
