import Mathlib.Algebra.Ring.Parity
import Agora.Proofs.Task.Call
import Agora.Proofs.Toggle.Reaction

namespace Agora

namespace ReactionToggle

open Agora.Store

section Keys

variable {S : Set Entry} {message user message' user' : Int64} {emoji emoji' : String} {b : Bool}

theorem entry_of_key (message user : Int64) (emoji : String) :
    Entry.on message user (.integer message, .integer user, .text emoji) ∧
      ((.integer message, .integer user, .text emoji) : Entry).2.2 = .text emoji := by
  simp [Entry.on, Value.equals]

theorem says_unique {x : Entry} (h : x.on message user ∧ x.2.2 = .text emoji)
    (h' : x.on message' user' ∧ x.2.2 = .text emoji') :
    (message, user, emoji) = (message', user', emoji') := by
  obtain ⟨rfl, rfl⟩ := Entry.on_unique h.1 h'.1
  have he : Value.text emoji = .text emoji' := h.2.symm.trans h'.2
  cases he
  rfl

theorem Holds.after (S : Set Entry) (message user : Int64) (emoji : String)
    (out : ReactionOutcome) :
    Holds (after message user emoji S out) message user emoji (out = .added) := by
  cases out with
  | added => exact iff_of_true rfl ⟨_, Set.mem_insert _ _, entry_of_key message user emoji⟩
  | removed => exact iff_of_false (by decide) fun ⟨x, hx, hsays⟩ => hx.2 hsays

theorem Holds.after_other (hne : (message', user', emoji') ≠ (message, user, emoji))
    (h : Holds S message' user' emoji' b) (out : ReactionOutcome) :
    Holds (ReactionToggle.after message user emoji S out) message' user' emoji' b := by
  refine h.trans ⟨?_, ?_⟩
  · rintro ⟨x, hx, hsays⟩
    refine ⟨x, ?_, hsays⟩
    cases out with
    | added => exact .inr hx
    | removed => exact ⟨hx, fun hx' => hne (says_unique hsays hx')⟩
  · rintro ⟨x, hx, hsays⟩
    refine ⟨x, ?_, hsays⟩
    cases out with
    | added =>
      refine hx.resolve_left ?_
      rintro rfl
      exact hne (says_unique hsays (entry_of_key message user emoji))
    | removed => exact hx.1

theorem after_comm (hne : (message', user', emoji') ≠ (message, user, emoji)) (S : Set Entry)
    (out out' : ReactionOutcome) :
    after message user emoji (after message' user' emoji' S out') out =
      after message' user' emoji' (after message user emoji S out) out' := by
  have hself := entry_of_key message user emoji
  have hself' := entry_of_key message' user' emoji'
  have hadd : ∀ x : Entry, x = (.integer message', .integer user', .text emoji') →
      ¬ (x.on message user ∧ x.2.2 = .text emoji) := by
    rintro _ rfl hsays
    exact hne (says_unique hself' hsays)
  have hadd' : ∀ x : Entry, x = (.integer message, .integer user, .text emoji) →
      ¬ (x.on message' user' ∧ x.2.2 = .text emoji') := by
    rintro _ rfl hsays
    exact hne (says_unique hsays hself)
  ext x
  have := hadd x
  have := hadd' x
  cases out <;> cases out' <;>
    simp only [after, Set.mem_insert_iff, Set.mem_ofPred_eq] <;> tauto

end Keys

structure Request where
  message : Int64
  user : Int64
  emoji : String
  deriving DecidableEq, Repr

abbrev Reply := Except QueryError ReactionOutcome

namespace Request

def task (options : CompilerOptions) (r : Request) : Task Reply :=
  (toggle options true r.message r.user r.emoji).run

def rows (db : Database) (r : Request) : List Record :=
  (db.at Schema.reactions).records.filter (·.meets (key r.message r.user r.emoji))

def isPresent (db : Database) (r : Request) : Bool :=
  !(r.rows db).isEmpty

open Classical in
/-- What a request makes of the reactions if it does not fail. -/
noncomputable def flip (S : Set Entry) (r : Request) : Set Entry :=
  after r.message r.user r.emoji S
    (ofPresence (decide (∃ x ∈ S, x.on r.message r.user ∧ x.2.2 = .text r.emoji)))

section Parity

variable {S : Set Entry} {r r' : Request} {b : Bool}

abbrev Holds (S : Set Entry) (r : Request) (b : Bool) : Prop :=
  ReactionToggle.Holds S r.message r.user r.emoji b

theorem exists_holds (S : Set Entry) (r : Request) : ∃ b, Holds S r b := by
  classical
  exact ⟨decide (∃ x ∈ S, x.on r.message r.user ∧ x.2.2 = .text r.emoji), decide_eq_true_iff⟩

theorem flip_eq (h : Holds S r b) :
    flip S r = after r.message r.user r.emoji S (ofPresence b) := by
  classical
  have hb : decide (∃ x ∈ S, x.on r.message r.user ∧ x.2.2 = .text r.emoji) = b :=
    Bool.eq_iff_iff.2 (decide_eq_true_iff.trans h.symm)
  rw [flip, hb]

theorem key_ne (h : r ≠ r') : (r.message, r.user, r.emoji) ≠ (r'.message, r'.user, r'.emoji) := by
  obtain ⟨m, u, e⟩ := r
  obtain ⟨m', u', e'⟩ := r'
  simpa using h

theorem holds_flip (h : Holds S r b) (r' : Request) :
    Holds (flip S r') r (b ^^ decide (r' = r)) := by
  by_cases hr : r' = r
  · subst hr
    have hafter := ReactionToggle.Holds.after S r'.message r'.user r'.emoji (ofPresence b)
    rw [flip_eq h]
    cases b <;> simpa [ofPresence] using hafter
  · obtain ⟨b', hb'⟩ := exists_holds S r'
    rw [flip_eq hb']
    simpa [hr] using h.after_other (key_ne (Ne.symm hr)) (ofPresence b')

theorem flip_comm (S : Set Entry) (r r' : Request) : flip (flip S r) r' = flip (flip S r') r := by
  by_cases hr : r = r'
  · rw [hr]
  · obtain ⟨b, hb⟩ := exists_holds S r
    obtain ⟨b', hb'⟩ := exists_holds S r'
    have hflip : Holds (flip S r) r' b' := by simpa [hr] using holds_flip hb' r
    have hflip' : Holds (flip S r') r b := by simpa [Ne.symm hr] using holds_flip hb r'
    rw [flip_eq hflip, flip_eq hflip', flip_eq hb, flip_eq hb']
    exact after_comm (key_ne hr) S _ _

theorem holds_foldl_flip (requests : List Request) (h : Holds S r b) :
    Holds (requests.foldl flip S) r (b ^^ decide (Odd (requests.count r))) := by
  induction requests generalizing S b with
  | nil => simpa using h
  | cons r' rs ih =>
    have hrest := ih (holds_flip h r')
    by_cases hr : r' = r
    · subst hr
      have hodd : decide (Odd (rs.count r' + 1)) = !decide (Odd (rs.count r')) := by
        rw [← decide_not]
        exact decide_eq_decide.2 Nat.odd_add_one
      rw [List.count_cons_self, hodd]
      simpa using hrest
    · simpa [hr] using hrest

end Parity

section Tables

variable {db : Database} {r : Request}

theorem holds_isPresent (db : Database) (r : Request) :
    Holds (entries "emoji" (db.at Schema.reactions)) r (r.isPresent db) := by
  obtain ⟨b, hb⟩ := exists_holds (entries "emoji" (db.at Schema.reactions)) r
  have hpresent : r.isPresent db = b := by
    rw [Bool.eq_iff_iff, ReactionToggle.Holds.exists_iff hb]
    simp [isPresent, rows]
  exact hpresent ▸ hb

theorem isPresent_flipped {db' : Database} (h : entries "emoji" (db'.at Schema.reactions) =
      r.flip (entries "emoji" (db.at Schema.reactions))) (r' : Request) :
    r'.isPresent db' = (r'.isPresent db ^^ decide (r = r')) := by
  have hpresent := r'.holds_isPresent db'
  rw [h] at hpresent
  exact hpresent.unique (holds_flip (r'.holds_isPresent db) r)

theorem length_rows (hdb : Shaped db) (hl : Lawful (db.at Schema.reactions)) (r : Request) :
    (r.rows db).length ≤ 1 := by
  cases hrows : r.rows db with
  | nil => simp
  | cons row rest =>
    have hmem : row ∈ r.rows db := hrows ▸ List.mem_cons_self
    obtain ⟨hrow, hm⟩ := List.mem_filter.1 hmem
    rw [← hrows, rows, filter_key (hdb.at_schema leaf_reactions.mem) hl hrow hm]
    simp

end Tables

end Request

inductive Follows (db : Database) (r : Request) : Reply → Database → Prop
  | toggled {db'} : (r.isPresent db ∨ (db.at Schema.reactions).nextId? ≠ none) →
      Becomes Schema.reactions "emoji" (r.flip (entries "emoji" (db.at Schema.reactions))) db db' →
      Follows db r (.ok (ofPresence (r.isPresent db))) db'
  | noIdLeft : r.isPresent db = false → (db.at Schema.reactions).nextId? = none →
      Follows db r (.error (noIdLeft insertSql)) db

def effective (requests : List Request) (replies : List Reply) : List Request :=
  ((requests.zip replies).filter (·.2.isOk)).map (·.1)

theorem effective_cons (r : Request) (rs : List Request) (reply : Reply) (replies : List Reply) :
    effective (r :: rs) (reply :: replies) = effective [r] [reply] ++ effective rs replies := by
  simp only [effective, List.zip_cons_cons, List.zip_nil_right, List.filter_cons, List.filter_nil]
  split <;> rfl

theorem effective_of_isOk {requests : List Request} {replies : List Reply}
    (hlength : replies.length = requests.length) (hok : ∀ reply ∈ replies, reply.isOk) :
    effective requests replies = requests := by
  have hall : (requests.zip replies).filter (·.2.isOk) = requests.zip replies :=
    List.filter_eq_self.2 fun x hx => hok x.2 (List.of_mem_zip hx).2
  rw [effective, hall, List.map_fst_zip hlength.ge]

namespace Follows

variable {db db' : Database} {r : Request} {reply : Reply}

theorem removed_iff (h : Follows db r reply db') : reply = .ok .removed ↔ r.isPresent db := by
  cases h with
  | toggled => cases r.isPresent db <;> simp [ofPresence]
  | noIdLeft habsent => simp [habsent]

theorem entries_eq (h : Follows db r reply db') (hdb : Shaped db) :
    entries "emoji" (db'.at Schema.reactions) =
      (effective [r] [reply]).foldl Request.flip (entries "emoji" (db.at Schema.reactions)) := by
  cases h with
  | toggled _ hbecomes => exact hbecomes.entries leaf_reactions hdb
  | noIdLeft => rfl

end Follows

section Run

variable {σ : Type} (synthesizer : Synthesizer σ) (options : CompilerOptions) {db : Database}

theorem request_step {w : World σ Agora.Store} (hs : Rests w.store db) (hdb : Shaped db)
    (hl : Lawful (db.at Schema.reactions)) (r : Request) (hknown : Known db r.message r.user) :
    ∃ reply w' db', (r.task options).run (onStore synthesizer) w = (reply, w') ∧
      Rests w'.store db' ∧ Shaped db' ∧ Lawful (db'.at Schema.reactions) ∧
      (∀ message user, Known db message user → Known db' message user) ∧
      Follows db r reply db' := by
  have hpresent := r.holds_isPresent db
  obtain ⟨s', hstep⟩ := atomic_step synthesizer w hs hdb hl hknown hpresent
  split at hstep
  · rename_i hfull
    obtain ⟨hrun, hs'⟩ := hstep
    exact ⟨_, _, db, hrun, hs', hdb, hl, fun _ _ h => h, .noIdLeft hfull.1 hfull.2⟩
  · rename_i hroom
    obtain ⟨db', hrun, hs', hbecomes⟩ := hstep
    refine ⟨_, _, db', hrun, hs', hbecomes.shaped leaf_reactions hdb,
      hbecomes.lawful leaf_reactions hdb, fun _ _ => hbecomes.known leaf_reactions hdb,
      .toggled ?_ (Request.flip_eq hpresent ▸ hbecomes)⟩
    by_contra hfull
    simp only [not_or, Bool.not_eq_true, not_not] at hfull
    exact hroom hfull

theorem request_added {w : World σ Agora.Store} (hs : Rests w.store db) (hdb : Shaped db)
    (hl : Lawful (db.at Schema.reactions)) (r : Request) (hknown : Known db r.message r.user)
    (habsent : r.isPresent db = false) {id : Int64}
    (hid : (db.at Schema.reactions).nextId? = some id) :
    let db' := db.replace (add (db.at Schema.reactions) id r.message r.user r.emoji)
    ∃ w', (r.task options).run (onStore synthesizer) w = (.ok .added, w') ∧ Rests w'.store db' ∧
      Becomes Schema.reactions "emoji" (r.flip (entries "emoji" (db.at Schema.reactions)))
        db db' := by
  intro db'
  have hfree := habsent ▸ r.holds_isPresent db
  have habsent' := ReactionToggle.Holds.absent hfree
  have ht := hdb.at_schema leaf_reactions.mem
  obtain ⟨s', hbatch, hrests⟩ := batch_adds hs hdb hl habsent' hknown hid
  have hrun : (r.task options).run (onStore synthesizer) w = _ :=
    run_executeBatch synthesizer (batch r.message r.user r.emoji) _ w
  rw [hbatch] at hrun
  refine ⟨_, hrun, hrests, ?_⟩
  rw [Request.flip_eq hfree]
  exact .of_replace ht (insert_add ht hl habsent' hid "").2 (entries_add ht)

theorem runEach_entries (requests : List Request) {w : World σ Agora.Store}
    (hs : Rests w.store db) (hdb : Shaped db) (hl : Lawful (db.at Schema.reactions))
    (hknown : ∀ r ∈ requests, Known db r.message r.user) :
    let run := Task.runEach (onStore synthesizer) (requests.map (·.task options)) w
    ∃ db', Rests run.2.store db' ∧ Shaped db' ∧ Lawful (db'.at Schema.reactions) ∧
      (∀ message user, Known db message user → Known db' message user) ∧
      entries "emoji" (db'.at Schema.reactions) =
        (effective requests run.1).foldl Request.flip
          (entries "emoji" (db.at Schema.reactions)) := by
  -- the set of reactions is carried along as the fold of the requests that took effect
  induction requests generalizing w db with
  | nil => exact ⟨db, hs, hdb, hl, fun _ _ h => h, rfl⟩
  | cons r rs ih =>
    obtain ⟨reply, w', db', hrun, hs', hdb', hl', hknown', hfollows⟩ :=
      request_step synthesizer options hs hdb hl r (hknown r (by simp))
    obtain ⟨db'', hs'', hdb'', hl'', hknown'', hentries⟩ :=
      ih hs' hdb' hl' fun r' hr' => hknown' _ _ (hknown r' (by simp [hr']))
    rw [List.map_cons, Task.runEach_cons _ hrun]
    refine ⟨db'', hs'', hdb'', hl'', fun m u h => hknown'' m u (hknown' m u h), ?_⟩
    rw [hentries, hfollows.entries_eq hdb, ← List.foldl_append, ← effective_cons]

theorem runEach_removes (requests : List Request) (hdistinct : requests.Nodup)
    {w : World σ Agora.Store} (hs : Rests w.store db) (hdb : Shaped db)
    (hl : Lawful (db.at Schema.reactions))
    (hknown : ∀ r ∈ requests, Known db r.message r.user)
    (hpresent : ∀ r ∈ requests, r.isPresent db) :
    ∀ reply ∈ (Task.runEach (onStore synthesizer) (requests.map (·.task options)) w).1,
      reply = .ok .removed := by
  induction requests generalizing w db with
  | nil => simp [Task.runEach]
  | cons r rs ih =>
    obtain ⟨hnot, hdistinct⟩ := List.nodup_cons.1 hdistinct
    obtain ⟨reply, w', db', hrun, hs', hdb', hl', hknown', hfollows⟩ :=
      request_step synthesizer options hs hdb hl r (hknown r (by simp))
    obtain rfl := hfollows.removed_iff.2 (hpresent r (by simp))
    have hpresent' : ∀ r' ∈ rs, r'.isPresent db' := by
      intro r' hr'
      have hne : r ≠ r' := fun he => hnot (he ▸ hr')
      rw [Request.isPresent_flipped (hfollows.entries_eq hdb) r', hpresent r' (by simp [hr'])]
      simp [hne]
    rw [List.map_cons, Task.runEach_cons _ hrun, List.forall_mem_cons]
    exact ⟨rfl, ih hdistinct hs' hdb' hl' (fun r' hr' => hknown' _ _ (hknown r' (by simp [hr'])))
      hpresent'⟩

/-- Every request of a run does what is there before it calls for, or fails for want of an id and
leaves the tables as they were. In the end a key has a row if and only if it had one at first or
else an odd number of requests on it took effect, and never two; and if the same requests are made
in another order, and none fails in either, the same reactions are left. -/
theorem reactions_count_modulo_two {w : World σ Agora.Store} (hs : Rests w.store db)
    (hdb : Shaped db) (hl : Lawful (db.at Schema.reactions)) (requests : List Request)
    (hknown : ∀ r ∈ requests, Known db r.message r.user) :
    let run := fun rs : List Request =>
      Task.runEach (onStore synthesizer) (rs.map (·.task options)) w
    let last := (run requests).2.store.database
    (∀ before r later, requests = before ++ r :: later →
      let earlier := (run before).2
      let now := (r.task options).run (onStore synthesizer) earlier
      (run requests).1[before.length]? = some now.1 ∧
        Follows earlier.store.database r now.1 now.2.store.database ∧
        (now.1 = .ok .removed ↔ r.isPresent earlier.store.database)) ∧
    (∀ r : Request, (r.rows last).length ≤ 1 ∧ r.isPresent last =
      (r.isPresent db ^^ decide (Odd ((effective requests (run requests).1).count r)))) ∧
    ∀ requests', requests.Perm requests' →
      (∀ reply ∈ (run requests).1 ++ (run requests').1, reply.isOk) →
      entries "emoji" ((run requests').2.store.database.at Schema.reactions) =
        entries "emoji" (last.at Schema.reactions) := by
  intro run last
  refine ⟨?_, fun r => ?_, fun requests' hperm hok => ?_⟩
  · rintro before r later rfl earlier now
    obtain ⟨db', hs', hdb', hl', hknown', -⟩ := runEach_entries synthesizer options before hs hdb hl
      fun r' hr' => hknown r' (by simp [hr'])
    obtain ⟨reply, w', db'', hrun, hs'', -, -, -, hfollows⟩ :=
      request_step synthesizer options hs' hdb' hl' r (hknown' _ _ (hknown r (by simp)))
    have hnow : now = (reply, w') := hrun
    have hfollows' : Follows earlier.store.database r now.1 now.2.store.database := by
      rw [hnow, hs'.database]
      exact hs''.database ▸ hfollows
    exact ⟨Task.runEach_map_getElem? _ _ before later r w, hfollows', hfollows'.removed_iff⟩
  · obtain ⟨db', hs', hdb', hl', -, hentries⟩ := runEach_entries synthesizer options requests hs hdb
      hl hknown
    have hlast : last = db' := hs'.database
    rw [hlast]
    refine ⟨Request.length_rows hdb' hl' r, ?_⟩
    have hfold := Request.holds_foldl_flip (effective requests (run requests).1)
      (r.holds_isPresent db)
    exact (r.holds_isPresent db').unique (hentries ▸ hfold)
  · rw [List.forall_mem_append] at hok
    obtain ⟨db₁, hs₁, -, -, -, hentries₁⟩ := runEach_entries synthesizer options requests hs hdb
      hl hknown
    obtain ⟨db₂, hs₂, -, -, -, hentries₂⟩ := runEach_entries synthesizer options requests' hs hdb
      hl fun r hr => hknown r (hperm.mem_iff.2 hr)
    have hall {rs : List Request} (h : ∀ reply ∈ (run rs).1, reply.isOk) :
        effective rs (run rs).1 = rs :=
      effective_of_isOk (by simp [run, Task.length_runEach]) h
    rw [hall hok.1] at hentries₁
    rw [hall hok.2] at hentries₂
    simp only [last]
    rw [hs₁.database, hs₂.database, hentries₁, hentries₂]
    exact (hperm.foldl_eq' (fun r _ r' _ S => Request.flip_comm S r r') _).symm

end Run

section Sample

def sampleWorld (reactions : TableState) : World Fixture Agora.Store where
  synthesis := {}
  store := { database := seeded { schema := Schema.votes } reactions }
  listing := { ttl := ReadCache.defaultTtl }

def twoReactions : TableState :=
  add (add { schema := Schema.reactions } 1 1 7 "+") 2 1 7 "-"

theorem lawful_twoReactions : Lawful twoReactions := by
  have hfirst : Lawful (add { schema := Schema.reactions } 1 1 7 "+") :=
    (insert_add rfl (.of_nil rfl) (by simp) (by decide +kernel) "").2
  exact (insert_add rfl hfirst (by decide +kernel) (by decide +kernel) "").2

theorem reactions_count_modulo_two_reordered :
    let w := sampleWorld twoReactions
    let db := w.store.database
    let requests : List Request := [⟨1, 7, "+"⟩, ⟨1, 7, "-"⟩]
    let requests' : List Request := [⟨1, 7, "-"⟩, ⟨1, 7, "+"⟩]
    let run := fun rs : List Request =>
      Task.runEach (onStore Fixture.synthesizer) (rs.map (·.task {})) w
    (Rests w.store db ∧ Shaped db ∧ Lawful (db.at Schema.reactions) ∧
      (∀ r ∈ requests, Known db r.message r.user) ∧ requests.Perm requests' ∧
      ∀ reply ∈ (run requests).1 ++ (run requests').1, reply.isOk) ∧
    (Request.rows (run requests).2.store.database ⟨1, 7, "-"⟩).length ≤ 1 ∧
    entries "emoji" ((run requests').2.store.database.at Schema.reactions) =
      entries "emoji" ((run requests).2.store.database.at Schema.reactions) := by
  intro w db requests requests' run
  have hrests : Rests w.store db := ⟨rfl, rfl, rfl⟩
  have hdb : Shaped db := shaped_seeded rfl rfl
  have hl : Lawful (db.at Schema.reactions) :=
    (seeded_reactions rfl rfl : db.at Schema.reactions = twoReactions) ▸ lawful_twoReactions
  have hknown : Known db 1 7 := known_seeded _ _
  have hall : ∀ r ∈ requests, Known db r.message r.user := by
    simpa [requests] using hknown
  have hperm : requests.Perm requests' := .swap _ _ _
  have hremoved : ∀ rs ∈ [requests, requests'], ∀ reply ∈ (run rs).1, reply = .ok .removed := by
    intro rs hrs
    have hmem : ∀ r ∈ rs, r ∈ requests := by
      simp only [List.mem_cons, List.not_mem_nil, or_false] at hrs
      rcases hrs with rfl | rfl <;> simp [requests, requests']
    refine runEach_removes Fixture.synthesizer {} rs ?_ hrests hdb hl
      (fun r hr => hall r (hmem r hr)) fun r hr => ?_
    · simp only [List.mem_cons, List.not_mem_nil, or_false] at hrs
      rcases hrs with rfl | rfl <;> decide
    · have hpresent : ∀ r ∈ requests, r.isPresent db := by decide +kernel
      exact hpresent r (hmem r hr)
  have hok : ∀ reply ∈ (run requests).1 ++ (run requests').1, reply.isOk := by
    intro reply hreply
    rcases List.mem_append.1 hreply with h | h
    · rw [hremoved requests (by simp) reply h]; rfl
    · rw [hremoved requests' (by simp) reply h]; rfl
  obtain ⟨-, hrows, horder⟩ :=
    reactions_count_modulo_two Fixture.synthesizer {} hrests hdb hl requests hall
  exact ⟨⟨hrests, hdb, hl, hall, hperm, hok⟩, (hrows ⟨1, 7, "-"⟩).1, horder requests' hperm hok⟩

def scarce : TableState := { schema := Schema.reactions, lastId := Int64.maxValue - 1 }

def scarceRun (requests : List Request) : List Reply × World Fixture Agora.Store :=
  Task.runEach (onStore Fixture.synthesizer) (requests.map (·.task {})) (sampleWorld scarce)

theorem scarceRun_pair {r r' : Request} (hne : r ≠ r')
    (hknown : ∀ q ∈ [r, r'], Known (sampleWorld scarce).store.database q.message q.user) :
    (scarceRun [r, r']).1 = [.ok .added, .error (noIdLeft insertSql)] ∧
      r.isPresent (scarceRun [r, r']).2.store.database = true ∧
      r'.isPresent (scarceRun [r, r']).2.store.database = false := by
  have hrests : Rests (sampleWorld scarce).store (sampleWorld scarce).store.database :=
    ⟨rfl, rfl, rfl⟩
  have hdb : Shaped (sampleWorld scarce).store.database := shaped_seeded rfl rfl
  have hreactions : (sampleWorld scarce).store.database.at Schema.reactions = scarce :=
    seeded_reactions rfl rfl
  generalize (sampleWorld scarce).store.database = db at hrests hdb hreactions hknown
  have hl : Lawful (db.at Schema.reactions) := hreactions ▸ .of_nil rfl
  have habsent (r : Request) : r.isPresent db = false := by
    simp [Request.isPresent, Request.rows, hreactions, scarce]
  have hid : (db.at Schema.reactions).nextId? = some Int64.maxValue := by
    rw [hreactions]
    decide
  obtain ⟨u, hu⟩ : ∃ u, u = add (db.at Schema.reactions) Int64.maxValue r.message r.user r.emoji :=
    ⟨_, rfl⟩
  have hschema : u.schema = Schema.reactions := hu ▸ hdb.at_schema leaf_reactions.mem
  have hfull : ((db.replace u).at Schema.reactions).nextId? = none := by
    rw [hdb.at_replace leaf_reactions.mem hschema, hu, hreactions]
    rfl
  obtain ⟨w, hfirst, hw, hadded⟩ :=
    hu ▸ request_added Fixture.synthesizer {} hrests hdb hl r (hknown r (by simp)) (habsent r) hid
  have hpresent := Request.isPresent_flipped (hadded.entries leaf_reactions hdb)
  obtain ⟨reply, w', db', hsecond, hw', -, -, -, hfollows⟩ :=
    request_step Fixture.synthesizer {} hw (hadded.shaped leaf_reactions hdb)
      (hadded.lawful leaf_reactions hdb) r'
      (hadded.known leaf_reactions hdb (hknown r' (by simp)))
  have habsent' : r'.isPresent (db.replace u) = false := by simp [hpresent, habsent, hne]
  cases hfollows with
  | toggled hroom => simp [habsent', hfull] at hroom
  | noIdLeft =>
    have hrun : scarceRun [r, r'] = ([.ok .added, .error (noIdLeft insertSql)], w') := by
      simp only [scarceRun, List.map_cons, List.map_nil, Task.runEach_cons _ hfirst,
        Task.runEach, hsecond]
    rw [hrun, hw'.database]
    exact ⟨rfl, by simp [hpresent, habsent], habsent'⟩

/-- Of two requests for reactions, where one id is left, the one that comes first is granted: the
other reaction stays absent though there was one request for it, and the order decides which of the
two is left. -/
theorem reactions_depend_on_order_without_id :
    let db := (sampleWorld scarce).store.database
    let a : Request := ⟨1, 7, "a"⟩
    let b : Request := ⟨1, 7, "b"⟩
    (Rests (sampleWorld scarce).store db ∧ Shaped db ∧ Lawful (db.at Schema.reactions) ∧
      Known db 1 7 ∧ [a, b].Perm [b, a]) ∧
    (scarceRun [a, b]).1 = [.ok .added, .error (noIdLeft insertSql)] ∧
    b.isPresent (scarceRun [a, b]).2.store.database ≠
      (b.isPresent db ^^ decide (Odd ([a, b].count b))) ∧
    entries "emoji" ((scarceRun [b, a]).2.store.database.at Schema.reactions) ≠
      entries "emoji" ((scarceRun [a, b]).2.store.database.at Schema.reactions) := by
  intro db a b
  have hrests : Rests (sampleWorld scarce).store db := ⟨rfl, rfl, rfl⟩
  have hdb : Shaped db := shaped_seeded rfl rfl
  have hl : Lawful (db.at Schema.reactions) :=
    (seeded_reactions rfl rfl : db.at Schema.reactions = scarce) ▸ .of_nil rfl
  have hknown : Known db 1 7 := known_seeded _ _
  have hne : a ≠ b := by decide
  obtain ⟨hreplies, ha, hb⟩ := scarceRun_pair hne (by simpa [a, b] using hknown)
  obtain ⟨-, -, ha'⟩ := scarceRun_pair hne.symm (by simpa [a, b] using hknown)
  refine ⟨⟨hrests, hdb, hl, hknown, .swap _ _ _⟩, hreplies, ?_, fun heq => ?_⟩
  · have habsent : b.isPresent db = false := by decide +kernel
    have hcount : [a, b].count b = 1 := by decide
    rw [habsent, hcount, hb]
    simp
  · have hpresent := a.holds_isPresent (scarceRun [a, b]).2.store.database
    rw [← heq] at hpresent
    have hsame := hpresent.unique (a.holds_isPresent _)
    exact Bool.false_ne_true (ha'.symm.trans (hsame.symm.trans ha))

end Sample

end ReactionToggle

end Agora
