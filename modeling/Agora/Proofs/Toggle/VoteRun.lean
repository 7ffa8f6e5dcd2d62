import Mathlib.Data.List.TakeWhile
import Agora.Proofs.Task.Call
import Agora.Proofs.Toggle.Vote

namespace Agora.VoteToggle

open Agora.Store

section Blocks

def trailing (v : VoteValue) (vs : List VoteValue) : Nat :=
  (vs.reverse.takeWhile (· = v)).length

variable {u v : VoteValue} {vs : List VoteValue} {o : Option VoteValue}

theorem next_ne (o : Option VoteValue) (h : u ≠ v) : next o u ≠ some v := by
  unfold next
  split
  · simp
  · exact fun he => h (Option.some.inj he)

theorem exists_trailing (v : VoteValue) (vs : List VoteValue) :
    ∃ us, vs = us ++ List.replicate (trailing v vs) v ∧ us.getLast? ≠ some v := by
  refine ⟨(vs.reverse.dropWhile (· = v)).reverse, ?_, ?_⟩
  · have hblock : vs.reverse.takeWhile (· = v) = List.replicate (trailing v vs) v :=
      List.eq_replicate_iff.2 ⟨rfl, fun u hu => by simpa using List.mem_takeWhile_imp hu⟩
    have hsplit := List.takeWhile_append_dropWhile (p := (· = v)) (l := vs.reverse)
    rw [hblock] at hsplit
    calc vs = vs.reverse.reverse := (List.reverse_reverse vs).symm
      _ = _ := by rw [← hsplit, List.reverse_append, List.reverse_replicate, hsplit]
  · rw [List.getLast?_reverse]
    intro hhead
    have := List.head?_dropWhile_not (· = v) vs.reverse
    rw [hhead] at this
    simp at this

theorem foldl_replicate (v : VoteValue) (o : Option VoteValue) (n : Nat) :
    (List.replicate (n + 1) v).foldl next o =
      if decide ((n + 1) % 2 = 1) != decide (o = some v) then some v else none := by
  induction n with
  | zero => by_cases ho : o = some v <;> simp [next, ho]
  | succ n ih =>
    rw [List.replicate_succ', List.foldl_concat, ih]
    rcases Nat.mod_two_eq_zero_or_one (n + 1) with h | h <;>
      by_cases ho : o = some v <;> simp [next, Nat.add_mod, h, ho]

/-- The block of equal votes at the end decides what is held in the end; what was held at first
counts if there is nothing before the block. -/
theorem foldl_next (hlast : vs.getLast? = some v) (o : Option VoteValue) :
    vs.foldl next o =
      if decide (trailing v vs % 2 = 1) != decide (trailing v vs = vs.length ∧ o = some v)
      then some v else none := by
  -- `us` stands before the block and does not end in `v`, so it leaves `v` only if it is empty
  obtain ⟨us, hvs, hus⟩ := exists_trailing v vs
  have hlength := congrArg List.length hvs
  rw [List.length_append, List.length_replicate] at hlength
  obtain ⟨n, hn⟩ : ∃ n, trailing v vs = n + 1 := by
    refine Nat.exists_eq_succ_of_ne_zero fun hzero => hus ?_
    rw [hzero, List.replicate_zero, List.append_nil] at hvs
    rwa [← hvs]
  have hbefore : us.foldl next o = some v ↔ trailing v vs = vs.length ∧ o = some v := by
    rcases List.eq_nil_or_concat us with rfl | ⟨ws, u, rfl⟩
    · simpa using fun _ => hlength.symm
    · rw [List.concat_eq_append] at hus hlength ⊢
      have hu : u ≠ v := by simpa using hus
      rw [List.foldl_concat]
      refine iff_of_false (next_ne _ hu) fun h => ?_
      simp at hlength
      omega
  calc vs.foldl next o = (us ++ List.replicate (n + 1) v).foldl next o := by rw [← hn, ← hvs]
    _ = _ := by rw [List.foldl_append, foldl_replicate, ← hn, decide_eq_decide.2 hbefore]

end Blocks

structure Request where
  message : Int64
  user : Int64
  raw : Int64
  deriving DecidableEq, Repr

abbrev Reply := Except QueryError VoteOutcome

def Request.task (options : CompilerOptions) (r : Request) : Task Reply :=
  (toggle options true r.message r.user r.raw).run

theorem Request.task_eq (options : CompilerOptions) {r : Request} {v : VoteValue}
    (hraw : r.raw = v.toInt64) : r.task options = (atomic r.message r.user v).run := by
  obtain ⟨message, user, raw⟩ := r
  obtain rfl : raw = v.toInt64 := hraw
  cases v <;> rfl

/-- What the state machine says of a request, given the rows before it. -/
inductive Follows (db : Database) (r : Request) : Reply → Database → Prop
  | rejected : r.raw ≠ 1 → r.raw ≠ -1 → Follows db r (.ok (.rejected r.raw)) db
  | toggled {v o db'} : r.raw = v.toInt64 →
      held "value" (db.at Schema.votes) r.message r.user = valuesOf o →
      (o = some v ∨ (db.at Schema.votes).nextId? ≠ none) →
      held "value" (db'.at Schema.votes) r.message r.user = valuesOf (next o v) →
      (∀ message user, (message, user) ≠ (r.message, r.user) →
        held "value" (db'.at Schema.votes) message user =
          held "value" (db.at Schema.votes) message user) →
      (∀ t ∈ Schema.tables, t ≠ Schema.votes → db'.at t = db.at t) →
      Follows db r (.ok (outcome o v)) db'
  | noIdLeft {v o} : r.raw = v.toInt64 →
      held "value" (db.at Schema.votes) r.message r.user = valuesOf o → o ≠ some v →
      (db.at Schema.votes).nextId? = none → Follows db r (.error (noIdLeft upsertSql)) db

def taken? : Reply → Option VoteValue
  | .ok (.cast v) | .ok (.changed _ v) | .ok (.withdrawn v) => some v
  | _ => none

def takenOn (message user : Int64) (requests : List Request) (replies : List Reply) :
    List VoteValue :=
  (requests.zip replies).filterMap fun (r, reply) =>
    if r.message = message ∧ r.user = user then taken? reply else none

section Run

variable {σ : Type} (synthesizer : Synthesizer σ) (options : CompilerOptions) {db : Database}

theorem taken?_outcome (o : Option VoteValue) (v : VoteValue) :
    taken? (.ok (outcome o v)) = some v := by
  cases o with
  | none => rfl
  | some w => by_cases hw : w = v <;> simp [outcome, hw, taken?]

theorem follows_of_becomes {db' : Database} {r : Request} {v : VoteValue} {o : Option VoteValue}
    (hdb : Shaped db) (hl : Lawful (db.at Schema.votes)) (hraw : r.raw = v.toInt64)
    (ho : Holds (entries "value" (db.at Schema.votes)) r.message r.user o)
    (hroom : o = some v ∨ (db.at Schema.votes).nextId? ≠ none)
    (h : Becomes Schema.votes "value" (after r.message r.user
      (entries "value" (db.at Schema.votes)) (outcome o v)) db db') :
    Follows db r (.ok (outcome o v)) db' := by
  have ht := hdb.at_schema leaf_votes.mem
  have ht' := (h.shaped leaf_votes hdb).at_schema leaf_votes.mem
  have hl' := h.lawful leaf_votes hdb
  have hentries := h.entries leaf_votes hdb
  refine .toggled hraw (ho.held ht hl) hroom ?_ ?_ fun t ht hne => h.other leaf_votes hdb ht hne
  · have hafter := ho.after v
    rw [← hentries] at hafter
    exact hafter.held ht' hl'
  · intro message user hne
    obtain ⟨o', ho'⟩ := exists_holds ht hl message user
    have hafter := ho'.after_other hne (outcome o v)
    rw [← hentries] at hafter
    exact (hafter.held ht' hl').trans (ho'.held ht hl).symm

theorem request_step {w : World σ Agora.Store} (hs : Rests w.store db) (hdb : Shaped db)
    (hl : Lawful (db.at Schema.votes)) (r : Request) (hknown : Known db r.message r.user) :
    ∃ reply w' db', (r.task options).run (onStore synthesizer) w = (reply, w') ∧
      Rests w'.store db' ∧ Shaped db' ∧ Lawful (db'.at Schema.votes) ∧
      (∀ message user, Known db message user → Known db' message user) ∧
      Follows db r reply db' := by
  rcases ofRaw?_cases r.raw with ⟨hup, hdown, hraw⟩ | ⟨v, hraw, hv⟩
  · refine ⟨_, w, db, ?_, hs, hdb, hl, fun _ _ h => h, .rejected hup hdown⟩
    simp only [Request.task, toggle, hraw]
    rfl
  · obtain ⟨o, ho⟩ := exists_holds (hdb.at_schema leaf_votes.mem) hl r.message r.user
    obtain ⟨s', hstep⟩ := atomic_step synthesizer w hs hdb hl hknown v ho
    rw [Request.task_eq options hraw]
    split at hstep
    · rename_i hfull
      obtain ⟨hrun, hs'⟩ := hstep
      exact ⟨_, _, db, hrun, hs', hdb, hl, fun _ _ h => h,
        .noIdLeft hraw (ho.held (hdb.at_schema leaf_votes.mem) hl) hfull.1 hfull.2⟩
    · rename_i hfull
      obtain ⟨db', hrun, hs', hbecomes⟩ := hstep
      refine ⟨_, _, db', hrun, hs', hbecomes.shaped leaf_votes hdb, hbecomes.lawful leaf_votes hdb,
        fun _ _ => hbecomes.known leaf_votes hdb, follows_of_becomes hdb hl hraw ho ?_ hbecomes⟩
      exact (Decidable.em (o = some v)).imp_right fun hne hid => hfull ⟨hne, hid⟩

theorem Follows.held_eq {db' : Database} {r : Request} {reply : Reply} (h : Follows db r reply db')
    {message user : Int64} {o : Option VoteValue}
    (ho : held "value" (db.at Schema.votes) message user = valuesOf o) :
    held "value" (db'.at Schema.votes) message user =
      valuesOf ((takenOn message user [r] [reply]).foldl next o) := by
  cases h with
  | rejected => simpa [takenOn, taken?] using ho
  | noIdLeft => simpa [takenOn, taken?] using ho
  | toggled hraw ho' hroom hkey hother htables =>
    by_cases hr : r.message = message ∧ r.user = user
    · obtain ⟨rfl, rfl⟩ := hr
      obtain rfl := valuesOf_injective (ho.symm.trans ho')
      simpa [takenOn, taken?_outcome] using hkey
    · have hne : (message, user) ≠ (r.message, r.user) := by
        rintro ⟨⟩
        exact hr ⟨rfl, rfl⟩
      simpa [takenOn, hr, ho] using hother message user hne

theorem takenOn_cons (message user : Int64) (r : Request) (rs : List Request) (reply : Reply)
    (replies : List Reply) : takenOn message user (r :: rs) (reply :: replies) =
      takenOn message user [r] [reply] ++ takenOn message user rs replies := by
  simp only [takenOn, List.zip_cons_cons, List.filterMap_cons, List.zip_nil_right,
    List.filterMap_nil]
  split <;> simp_all

theorem runEach_held (requests : List Request) {w : World σ Agora.Store} (hs : Rests w.store db)
    (hdb : Shaped db) (hl : Lawful (db.at Schema.votes))
    (hknown : ∀ r ∈ requests, Known db r.message r.user) :
    let run := Task.runEach (onStore synthesizer) (requests.map (·.task options)) w
    ∃ db', Rests run.2.store db' ∧ Shaped db' ∧ Lawful (db'.at Schema.votes) ∧
      (∀ message user, Known db message user → Known db' message user) ∧
      ∀ message user o, held "value" (db.at Schema.votes) message user = valuesOf o →
        held "value" (db'.at Schema.votes) message user =
          valuesOf ((takenOn message user requests run.1).foldl next o) := by
  -- what a key holds is carried along as the fold of the votes on it that took effect
  induction requests generalizing w db with
  | nil => exact ⟨db, hs, hdb, hl, fun _ _ h => h, fun _ _ _ ho => by simpa [takenOn] using ho⟩
  | cons r rs ih =>
    obtain ⟨reply, w', db', hrun, hs', hdb', hl', hknown', hfollows⟩ :=
      request_step synthesizer options hs hdb hl r (hknown r (by simp))
    obtain ⟨db'', hs'', hdb'', hl'', hknown'', hheld⟩ :=
      ih hs' hdb' hl' fun r' hr' => hknown' _ _ (hknown r' (by simp [hr']))
    rw [List.map_cons, Task.runEach_cons _ hrun]
    refine ⟨db'', hs'', hdb'', hl'', fun m u h => hknown'' m u (hknown' m u h), ?_⟩
    intro message user o ho
    rw [takenOn_cons, List.foldl_append]
    exact hheld message user _ (hfollows.held_eq ho)

/-- Every request of a run gets the outcome that the state machine prescribes from the rows right
before it, or fails for want of an id and leaves the tables as they were; and in the end every key
holds what its last block of equal requests makes of it. -/
theorem votes_follow_state_machine {w : World σ Agora.Store} (hs : Rests w.store db)
    (hdb : Shaped db) (hl : Lawful (db.at Schema.votes)) (requests : List Request)
    (hknown : ∀ r ∈ requests, Known db r.message r.user) :
    let run := Task.runEach (onStore synthesizer) (requests.map (·.task options)) w
    (∀ before r later, requests = before ++ r :: later →
      let earlier := (Task.runEach (onStore synthesizer) (before.map (·.task options)) w).2
      let now := (r.task options).run (onStore synthesizer) earlier
      run.1[before.length]? = some now.1 ∧
        Follows earlier.store.database r now.1 now.2.store.database) ∧
    ∀ message user,
      let votes := takenOn message user requests run.1
      let first := held "value" (db.at Schema.votes) message user
      let last := held "value" (run.2.store.database.at Schema.votes) message user
      (votes = [] → last = first) ∧
      ∀ v, votes.getLast? = some v → last =
        if decide (trailing v votes % 2 = 1) !=
            decide (trailing v votes = votes.length ∧ first = [.integer v.toInt64])
        then [.integer v.toInt64] else [] := by
  refine ⟨?_, fun message user => ?_⟩
  · rintro before r later rfl
    refine ⟨Task.runEach_map_getElem? _ _ before later r w, ?_⟩
    obtain ⟨db', hs', hdb', hl', hknown', -⟩ := runEach_held synthesizer options before hs hdb hl
      fun r' hr' => hknown r' (by simp [hr'])
    obtain ⟨reply, w', db'', hrun, hs'', -, -, -, hfollows⟩ :=
      request_step synthesizer options hs' hdb' hl' r (hknown' _ _ (hknown r (by simp)))
    rw [hrun, hs'.database]
    exact hs''.database ▸ hfollows
  · obtain ⟨db', hs', -, -, -, hheld⟩ :=
      runEach_held synthesizer options requests hs hdb hl hknown
    obtain ⟨o, ho⟩ := exists_holds (hdb.at_schema leaf_votes.mem) hl message user
    have hfirst := ho.held (hdb.at_schema leaf_votes.mem) hl
    have hlast := hheld message user o hfirst
    dsimp only
    rw [hs'.database, hlast, hfirst]
    refine ⟨fun hnone => by rw [hnone, List.foldl_nil], fun v hv => ?_⟩
    have hsome : valuesOf o = [.integer v.toInt64] ↔ o = some v :=
      ⟨fun h => valuesOf_injective (h.trans rfl), fun h => h ▸ rfl⟩
    simp only [foldl_next hv o, hsome]
    split <;> rfl

end Run

theorem run_change {σ : Type} (synthesizer : Synthesizer σ) {w : World σ Agora.Store}
    (hs : Rests w.store (voted 0 1 .up)) :
    ∃ w', ((⟨1, 7, -1⟩ : Request).task {}).run (onStore synthesizer) w =
      (.ok (.changed (some .up) .down), w') := by
  obtain ⟨s', hstep⟩ := atomic_step synthesizer w hs shaped_voted
    (lawful_voted (by decide +kernel)) known_voted .down holds_voted
  rw [if_neg (by rw [voted_votes]; decide +kernel)] at hstep
  obtain ⟨db', hrun, -⟩ := hstep
  rw [← Request.task_eq {} (r := ⟨1, 7, -1⟩) rfl] at hrun
  exact ⟨_, hrun⟩

theorem votes_follow_state_machine_changed :
    let t := cast { schema := Schema.votes } 1 1 7 .up
    let db := seeded t { schema := Schema.reactions }
    let w : World Fixture Agora.Store :=
      { synthesis := {}, store := { database := db }, listing := { ttl := ReadCache.defaultTtl } }
    let requests : List Request := [⟨1, 7, -1⟩, ⟨1, 7, 5⟩]
    let run := Task.runEach (onStore Fixture.synthesizer) (requests.map (·.task {})) w
    (Rests w.store db ∧ Shaped db ∧ Lawful (db.at Schema.votes) ∧
        ∀ r ∈ requests, Known db r.message r.user) ∧
      held "value" (run.2.store.database.at Schema.votes) 1 7 = [.integer (-1)] := by
  intro t db w requests run
  have hrests : Rests w.store db := ⟨rfl, rfl, rfl⟩
  have hdb : Shaped db := shaped_voted
  have hl : Lawful (db.at Schema.votes) := lawful_voted (by decide +kernel)
  have hall : ∀ r ∈ requests, Known db r.message r.user := by
    have hknown : Known db 1 7 := known_voted
    simpa [requests] using hknown
  have hup : Holds (entries "value" (db.at Schema.votes)) 1 7 (some .up) := holds_voted
  obtain ⟨w', hrun⟩ := run_change Fixture.synthesizer hrests
  have hvotes : takenOn 1 7 requests run.1 = [.down] := by
    simp only [run, requests, List.map_cons, Task.runEach_cons _ hrun]
    rfl
  obtain ⟨-, hheld⟩ := votes_follow_state_machine Fixture.synthesizer {} hrests hdb hl requests hall
  refine ⟨⟨hrests, hdb, hl, hall⟩, ?_⟩
  rw [(hheld 1 7).2 .down (by rw [hvotes]; rfl), hvotes, hup.held (hdb.at_schema leaf_votes.mem) hl]
  rfl

/-- Where the greatest number is an id already, a vote down does not take the place of one up. -/
theorem vote_unchanged_without_id :
    let t := cast { schema := Schema.votes, lastId := Int64.maxValue - 1 } Int64.maxValue 1 7 .up
    let db := seeded t { schema := Schema.reactions }
    let w : World Fixture Agora.Store :=
      { synthesis := {}, store := { database := db }, listing := { ttl := ReadCache.defaultTtl } }
    let requests : List Request := [⟨1, 7, -1⟩]
    let replies := (Task.runEach (onStore Fixture.synthesizer) (requests.map (·.task {})) w).1
    (Rests w.store db ∧ Shaped db ∧ Lawful (db.at Schema.votes) ∧ Known db 1 7) ∧
      held "value" (db.at Schema.votes) 1 7 = valuesOf (some .up) ∧
      replies = [.error (noIdLeft upsertSql)] ∧ replies ≠ [.ok (outcome (some .up) .down)] := by
  intro t db w requests replies
  have hrests : Rests w.store db := ⟨rfl, rfl, rfl⟩
  have hdb : Shaped db := shaped_voted
  have hl : Lawful (db.at Schema.votes) := lawful_voted (by decide +kernel)
  have hknown : Known db 1 7 := known_voted
  have hup : Holds (entries "value" (db.at Schema.votes)) 1 7 (some .up) := holds_voted
  obtain ⟨s', hstep⟩ := atomic_step Fixture.synthesizer w hrests hdb hl hknown .down hup
  rw [if_pos (by rw [seeded_votes rfl rfl]; decide +kernel)] at hstep
  have hreplies : replies = [.error (noIdLeft upsertSql)] := by
    have hrun := hstep.1
    rw [← Request.task_eq {} (r := ⟨1, 7, -1⟩) rfl] at hrun
    exact congrArg Prod.fst (Task.runEach_cons _ hrun)
  refine ⟨⟨hrests, hdb, hl, hknown⟩, hup.held (hdb.at_schema leaf_votes.mem) hl, hreplies, ?_⟩
  rw [hreplies]
  simp

end Agora.VoteToggle
