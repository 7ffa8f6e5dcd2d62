import Agora.Proofs.Toggle.Anywhere

namespace Agora

open Store

inductive Toggle where
  | vote (message user raw : Int64)
  | reaction (message user : Int64) (emoji : String)
  deriving DecidableEq, Repr

namespace Toggle

inductive Outcome where
  | vote (o : VoteOutcome)
  | reaction (o : ReactionOutcome)
  deriving DecidableEq, Repr

abbrev Reply := Except QueryError Outcome

def message : Toggle → Int64
  | vote message _ _ | reaction message _ _ => message

def user : Toggle → Int64
  | vote _ user _ | reaction _ user _ => user

def table : Toggle → Table
  | vote .. => Schema.votes
  | reaction .. => Schema.reactions

/-- The intents that a toggle may ask for; a value that is no vote asks for none. -/
def intents : Toggle → List Intent
  | vote message user raw =>
      if (VoteValue.ofRaw? raw).isSome then
        [.findVote message user, .insertVote message user raw, .updateVote message user raw,
          .deleteVote message user]
      else []
  | reaction message user emoji => [.findReaction message user emoji,
      .insertReaction message user emoji, .deleteReaction message user emoji]

variable {σ τ : Type}

def task (options : CompilerOptions) (mode : ToggleMode) : Toggle → Task Reply
  | vote message user raw => (Outcome.vote <$> VoteToggle.toggle options
      (mode.usesBatch Store.executor.commitsBatches) message user raw).run
  | reaction message user emoji => (Outcome.reaction <$> ReactionToggle.toggle options
      (mode.usesBatch Store.executor.commitsBatches) message user emoji).run

def call (services : Services σ τ) (options : CompilerOptions) (mode : ToggleMode)
    (w : World σ τ) (t : Toggle) : Reply × World σ τ :=
  (t.task options mode).run services w

theorem run_mapped {β γ : Type} (f : β → γ) (q : Query β) (services : Services σ τ)
    (w : World σ τ) : (f <$> q).run.run services w =
      ((q.run.run services w).1.map f, (q.run.run services w).2) := by
  rw [run_map, Task.run_of_bind]
  cases (q.run.run services w).1 <;> rfl

section Calls

variable {services : Services σ τ} {options : CompilerOptions} {w : World σ τ}
  {message user : Int64} {mode : ToggleMode}

theorem call_vote {raw : Int64} {reply : Except QueryError VoteOutcome}
    {w' : World σ τ} (h : (VoteToggle.toggle options
      (mode.usesBatch Store.executor.commitsBatches) message user raw).run.run services w =
        (reply, w')) :
    (vote message user raw).call services options mode w = (reply.map .vote, w') := by
  rw [call, task, run_mapped, h]

theorem call_reaction {emoji : String}
    {reply : Except QueryError ReactionOutcome} {w' : World σ τ} (h : (ReactionToggle.toggle options
      (mode.usesBatch Store.executor.commitsBatches) message user emoji).run.run services w =
        (reply, w')) :
    (reaction message user emoji).call services options mode w = (reply.map .reaction, w') := by
  rw [call, task, run_mapped, h]

end Calls

/-- What a toggle answers and leaves, whatever its mode is: what the state machines say, or, where a
row needs an id and none is left, a failure that changes nothing. -/
inductive Toggled (db : Database) : Toggle → Reply → Database → Prop
  | rejected {message user raw} : raw ≠ 1 → raw ≠ -1 →
      Toggled db (.vote message user raw) (.ok (.vote (.rejected raw))) db
  | voted {message user raw v o db'} : raw = v.toInt64 →
      VoteToggle.Holds (entries "value" (db.at Schema.votes)) message user o →
      Becomes Schema.votes "value" (VoteToggle.after message user
        (entries "value" (db.at Schema.votes)) (VoteToggle.outcome o v)) db db' →
      Toggled db (.vote message user raw) (.ok (.vote (VoteToggle.outcome o v))) db'
  | reacted {message user emoji b db'} :
      ReactionToggle.Holds (entries "emoji" (db.at Schema.reactions)) message user emoji b →
      Becomes Schema.reactions "emoji" (ReactionToggle.after message user emoji
        (entries "emoji" (db.at Schema.reactions)) (ReactionToggle.ofPresence b)) db db' →
      Toggled db (.reaction message user emoji)
        (.ok (.reaction (ReactionToggle.ofPresence b))) db'
  | voteFull {message user raw v o} (sql) : raw = v.toInt64 →
      VoteToggle.Holds (entries "value" (db.at Schema.votes)) message user o → o ≠ some v →
      (db.at Schema.votes).nextId? = none →
      Toggled db (.vote message user raw) (.error (noIdLeft sql)) db
  | reactionFull {message user emoji} (sql) :
      ReactionToggle.Holds (entries "emoji" (db.at Schema.reactions)) message user emoji false →
      (db.at Schema.reactions).nextId? = none →
      Toggled db (.reaction message user emoji) (.error (noIdLeft sql)) db

def Same (db db' : Database) : Prop :=
  entries "value" (db.at Schema.votes) = entries "value" (db'.at Schema.votes) ∧
    entries "emoji" (db.at Schema.reactions) = entries "emoji" (db'.at Schema.reactions)

namespace Toggled

variable {db db' db₁ db₁' : Database} {toggle : Toggle} {reply reply₁ : Reply}

theorem orderly (h : Toggled db toggle reply db') (hdb : Orderly db) : Orderly db' := by
  cases h with
  | rejected => exact hdb
  | voted _ _ hbecomes => exact hbecomes.orderly leaf_votes hdb
  | reacted _ hbecomes => exact hbecomes.orderly leaf_reactions hdb
  | voteFull => exact hdb
  | reactionFull => exact hdb

theorem known (h : Toggled db toggle reply db') (hdb : Orderly db) {message user : Int64}
    (hknown : Known db message user) : Known db' message user := by
  cases h with
  | rejected => exact hknown
  | voted _ _ hbecomes => exact hbecomes.known leaf_votes hdb.shaped hknown
  | reacted _ hbecomes => exact hbecomes.known leaf_reactions hdb.shaped hknown
  | voteFull => exact hknown
  | reactionFull => exact hknown

theorem other (h : Toggled db toggle reply db') (hdb : Orderly db) {t : Table}
    (ht : t ∈ Schema.tables) (hne : t ≠ toggle.table) : db'.at t = db.at t := by
  cases h with
  | rejected => rfl
  | voted _ _ hbecomes => exact hbecomes.other leaf_votes hdb.shaped ht hne
  | reacted _ hbecomes => exact hbecomes.other leaf_reactions hdb.shaped ht hne
  | voteFull => rfl
  | reactionFull => rfl

theorem isOk (h : Toggled db toggle reply db') (hid : (db.at toggle.table).nextId? ≠ none) :
    reply.isOk := by
  cases h with
  | voteFull _ _ _ _ hnone => exact absurd hnone hid
  | reactionFull _ _ hnone => exact absurd hnone hid
  | _ => rfl

theorem agree (h : Toggled db toggle reply db') (h₁ : Toggled db₁ toggle reply₁ db₁')
    (hdb : Orderly db) (hdb₁ : Orderly db₁) (hsame : Same db db₁)
    (hok : reply.isOk) (hok₁ : reply₁.isOk) : reply = reply₁ ∧ Same db' db₁' := by
  have hne : Schema.votes ≠ Schema.reactions := by decide
  have hother (t : Table) := h.other hdb (t := t)
  have hother₁ (t : Table) := h₁.other hdb₁ (t := t)
  obtain ⟨hvotes, hreactions⟩ := hsame
  cases h with
  | voteFull => cases hok
  | reactionFull => cases hok
  | rejected hup hdown =>
    cases h₁ with
    | voteFull => cases hok₁
    | rejected => exact ⟨rfl, hvotes, hreactions⟩
    | @voted _ _ _ v _ _ hraw => cases v with
      | up => exact absurd hraw hup
      | down => exact absurd hraw hdown
  | @voted _ _ _ v o _ hraw ho hbecomes =>
    cases h₁ with
    | voteFull => cases hok₁
    | rejected hup hdown => cases v with
      | up => exact absurd hraw hup
      | down => exact absurd hraw hdown
    | @voted _ _ _ v₁ o₁ _ hraw₁ ho₁ hbecomes₁ =>
      obtain rfl := VoteToggle.toInt64_injective (hraw.symm.trans hraw₁)
      rw [← hvotes] at ho₁ hbecomes₁
      have ht := hdb.shaped.at_schema leaf_votes.mem
      obtain rfl : o = o₁ := VoteToggle.valuesOf_injective
        ((ho.held ht hdb.votes).symm.trans (ho₁.held ht hdb.votes))
      refine ⟨rfl, ?_, ?_⟩
      · rw [hbecomes.entries leaf_votes hdb.shaped, hbecomes₁.entries leaf_votes hdb₁.shaped]
      · rw [hother _ leaf_reactions.mem hne.symm, hreactions,
          hother₁ _ leaf_reactions.mem hne.symm]
  | reacted hb hbecomes =>
    cases h₁ with
    | reactionFull => cases hok₁
    | reacted hb₁ hbecomes₁ =>
      rw [← hreactions] at hb₁ hbecomes₁
      obtain rfl := hb.unique hb₁
      refine ⟨rfl, ?_, ?_⟩
      · rw [hother _ leaf_votes.mem hne, hvotes, hother₁ _ leaf_votes.mem hne]
      · rw [hbecomes.entries leaf_reactions hdb.shaped,
          hbecomes₁.entries leaf_reactions hdb₁.shaped]

end Toggled

section Run

variable {synthesizer : Synthesizer σ} {Q : σ → Prop} {options : CompilerOptions} {db : Database}

theorem ends_vote {message user : Int64} {v : VoteValue} {w : World σ Agora.Store}
    (hfaithful : ∀ intent ∈ (vote message user v.toInt64).intents,
      Faithful options synthesizer Q intent)
    (hs : Stands Q w db) (hdb : Orderly db) (hknown : Known db message user)
    {o : Option VoteValue}
    (ho : VoteToggle.Holds (entries "value" (db.at Schema.votes)) message user o)
    (usesBatch : Bool) :
    ∃ reply w' db', (VoteToggle.toggle options usesBatch message user v.toInt64).run.run
        (onStore synthesizer) w = (reply, w') ∧ Stands Q w' db' ∧
      Ends Schema.votes "value" (VoteToggle.after message user
        (entries "value" (db.at Schema.votes)) (VoteToggle.outcome o v)) (VoteToggle.outcome o v)
          (o ≠ some v) db reply db' := by
  have hv : VoteValue.ofRaw? v.toInt64 = some v := by cases v <;> decide
  simp only [intents, hv, Option.isSome_some, if_true, List.mem_cons, List.not_mem_nil, or_false,
    forall_eq_or_imp, forall_eq] at hfaithful
  obtain ⟨hfind, hinsert, hupdate, hdelete⟩ := hfaithful
  rw [VoteToggle.toggle, hv]
  cases usesBatch with
  | false => exact VoteToggle.compiled_step hfind hinsert hupdate hdelete hs hdb hknown ho
  | true =>
    obtain ⟨s', hstep⟩ :=
      VoteToggle.atomic_step synthesizer w hs.store hdb.shaped hdb.votes hknown v ho
    exact hs.ends_of_step hstep

theorem ends_reaction {message user : Int64} {emoji : String} {w : World σ Agora.Store}
    (hfaithful : ∀ intent ∈ (reaction message user emoji).intents,
      Faithful options synthesizer Q intent)
    (hs : Stands Q w db) (hdb : Orderly db) (hknown : Known db message user) {b : Bool}
    (hb : ReactionToggle.Holds (entries "emoji" (db.at Schema.reactions)) message user emoji b)
    (usesBatch : Bool) :
    ∃ reply w' db', (ReactionToggle.toggle options usesBatch message user emoji).run.run
        (onStore synthesizer) w = (reply, w') ∧ Stands Q w' db' ∧
      Ends Schema.reactions "emoji" (ReactionToggle.after message user emoji
        (entries "emoji" (db.at Schema.reactions)) (ReactionToggle.ofPresence b))
          (ReactionToggle.ofPresence b) (b = false) db reply db' := by
  simp only [intents, List.mem_cons, List.not_mem_nil, or_false, forall_eq_or_imp,
    forall_eq] at hfaithful
  obtain ⟨hfind, hinsert, hdelete⟩ := hfaithful
  cases usesBatch with
  | false => exact ReactionToggle.compiled_step hfind hinsert hdelete hs hdb hknown hb
  | true =>
    obtain ⟨s', hstep⟩ := ReactionToggle.atomic_step synthesizer w hs.store hdb.shaped hdb.reactions
      hknown hb
    exact hs.ends_of_step hstep

theorem call_toggled {toggle : Toggle} {w : World σ Agora.Store}
    (hfaithful : ∀ intent ∈ toggle.intents, Faithful options synthesizer Q intent)
    (hs : Stands Q w db) (hdb : Orderly db) (hknown : Known db toggle.message toggle.user)
    (mode : ToggleMode) :
    ∃ reply w' db', toggle.call (onStore synthesizer) options mode w = (reply, w') ∧
      Stands Q w' db' ∧ Toggled db toggle reply db' := by
  cases toggle with
  | vote message user raw =>
    rcases VoteToggle.ofRaw?_cases raw with ⟨hup, hdown, hraw⟩ | ⟨v, rfl, -⟩
    · have hrun : (VoteToggle.toggle options (mode.usesBatch Store.executor.commitsBatches)
          message user raw).run.run (onStore synthesizer) w = (.ok (.rejected raw), w) := by
        simp only [VoteToggle.toggle, hraw]
        rfl
      exact ⟨_, w, db, call_vote hrun, hs, .rejected hup hdown⟩
    · obtain ⟨o, ho⟩ := VoteToggle.exists_holds (hdb.shaped.at_schema leaf_votes.mem) hdb.votes
        message user
      obtain ⟨reply, w', db', hrun, hs', hends⟩ := ends_vote hfaithful hs hdb hknown ho
        (mode.usesBatch Store.executor.commitsBatches)
      refine ⟨_, w', db', call_vote hrun, hs', ?_⟩
      cases hends with
      | done hbecomes => exact .voted rfl ho hbecomes
      | full sql hneeds hid => exact .voteFull sql rfl ho hneeds hid
  | reaction message user emoji =>
    obtain ⟨b, hb⟩ := ReactionToggle.exists_holds (db.at Schema.reactions) message user emoji
    obtain ⟨reply, w', db', hrun, hs', hends⟩ := ends_reaction hfaithful hs hdb hknown hb
      (mode.usesBatch Store.executor.commitsBatches)
    refine ⟨_, w', db', call_reaction hrun, hs', ?_⟩
    cases hends with
    | done hbecomes => exact .reacted hb hbecomes
    | full sql hneeds hid => exact .reactionFull sql (hneeds ▸ hb) hid

def tasks (options : CompilerOptions) (calls : List (Toggle × ToggleMode)) : List (Task Reply) :=
  calls.map fun c => c.1.task options c.2

theorem tasks_cons (options : CompilerOptions) (toggle : Toggle) (mode : ToggleMode)
    (rest : List (Toggle × ToggleMode)) :
    tasks options ((toggle, mode) :: rest) = toggle.task options mode :: tasks options rest :=
  rfl

theorem runEach_same (calls calls₁ : List (Toggle × ToggleMode)) {db₁ : Database}
    (hcalls : calls.map (·.1) = calls₁.map (·.1)) {w w₁ : World σ Agora.Store}
    (hs : Stands Q w db) (hs₁ : Stands Q w₁ db₁) (hdb : Orderly db) (hdb₁ : Orderly db₁)
    (hsame : Same db db₁)
    (hknown : ∀ c ∈ calls, Known db c.1.message c.1.user ∧ Known db₁ c.1.message c.1.user)
    (hfaithful : ∀ c ∈ calls, ∀ intent ∈ c.1.intents, Faithful options synthesizer Q intent) :
    let run := Task.runEach (onStore synthesizer) (tasks options calls) w
    let run₁ := Task.runEach (onStore synthesizer) (tasks options calls₁) w₁
    (∀ reply ∈ run.1, reply.isOk) → (∀ reply ∈ run₁.1, reply.isOk) →
      run.1 = run₁.1 ∧ Same run.2.store.database run₁.2.store.database := by
  -- the boards themselves differ, as the modes use up different ids; their entries do not
  induction calls generalizing calls₁ w w₁ db db₁ with
  | nil =>
    obtain rfl : calls₁ = [] := by simpa using hcalls.symm
    rw [← hs.store.database, ← hs₁.store.database] at hsame
    exact fun _ _ => ⟨rfl, hsame⟩
  | cons c rest ih =>
    obtain ⟨toggle, mode⟩ := c
    obtain ⟨⟨toggle₁, mode₁⟩, rest₁, rfl⟩ : ∃ c rest', calls₁ = c :: rest' := by
      cases calls₁ with
      | nil => simp at hcalls
      | cons c rest' => exact ⟨c, rest', rfl⟩
    simp only [List.map_cons, List.cons.injEq] at hcalls
    obtain ⟨rfl, hrest⟩ := hcalls
    obtain ⟨hkn, hkn₁⟩ := hknown _ (.head _)
    obtain ⟨reply, w', db', hrun, hs', htoggled⟩ :=
      call_toggled (hfaithful _ (.head _)) hs hdb hkn mode
    obtain ⟨reply₁, w₁', db₁', hrun₁, hs₁', htoggled₁⟩ :=
      call_toggled (hfaithful _ (.head _)) hs₁ hdb₁ hkn₁ mode₁
    simp only [tasks_cons, Task.runEach_cons _ hrun, Task.runEach_cons _ hrun₁,
      List.forall_mem_cons]
    intro hok hok₁
    obtain ⟨rfl, hsame'⟩ := htoggled.agree htoggled₁ hdb hdb₁ hsame hok.1 hok₁.1
    obtain ⟨hreplies, hsame''⟩ := ih rest₁ hrest hs' hs₁' (htoggled.orderly hdb)
      (htoggled₁.orderly hdb₁) hsame'
      (fun c hc => ⟨htoggled.known hdb (hknown c (.tail _ hc)).1,
        htoggled₁.known hdb₁ (hknown c (.tail _ hc)).2⟩)
      (fun c hc => hfaithful c (.tail _ hc)) hok.2 hok₁.2
    exact ⟨by rw [hreplies], hsame''⟩

theorem runEach_orderly (calls : List (Toggle × ToggleMode)) {w : World σ Agora.Store}
    (hs : Stands Q w db) (hdb : Orderly db)
    (hknown : ∀ c ∈ calls, Known db c.1.message c.1.user)
    (hfaithful : ∀ c ∈ calls, ∀ intent ∈ c.1.intents, Faithful options synthesizer Q intent) :
    ∃ db', Stands Q (Task.runEach (onStore synthesizer) (tasks options calls) w).2 db' ∧
      Orderly db' ∧ ∀ message user, Known db message user → Known db' message user := by
  induction calls generalizing w db with
  | nil => exact ⟨db, hs, hdb, fun _ _ h => h⟩
  | cons c rest ih =>
    obtain ⟨reply, w', db', hrun, hs', htoggled⟩ :=
      call_toggled (hfaithful c (.head _)) hs hdb (hknown c (.head _)) c.2
    obtain ⟨db'', hs'', hdb'', hknown''⟩ := ih hs' (htoggled.orderly hdb)
      (fun c' hc' => htoggled.known hdb (hknown c' (.tail _ hc')))
      (fun c' hc' => hfaithful c' (.tail _ hc'))
    rw [tasks_cons, Task.runEach_cons _ hrun]
    exact ⟨db'', hs'', hdb'', fun m u h => hknown'' m u (htoggled.known hdb h)⟩

/-- Every toggle of a run does what the state machines say, or finds no id left and changes nothing;
and two runs of the same toggles in any modes, as far as no toggle fails, answer the same and leave
the same votes and reactions. -/
theorem modes_agree {w : World σ Agora.Store} (hs : Stands Q w db) (hdb : Orderly db)
    (calls calls' : List (Toggle × ToggleMode)) (hcalls : calls.map (·.1) = calls'.map (·.1))
    (hknown : ∀ c ∈ calls, Known db c.1.message c.1.user)
    (hfaithful : ∀ c ∈ calls, ∀ intent ∈ c.1.intents, Faithful options synthesizer Q intent) :
    let run := Task.runEach (onStore synthesizer) (tasks options calls) w
    let run' := Task.runEach (onStore synthesizer) (tasks options calls') w
    (∀ before toggle mode later, calls = before ++ (toggle, mode) :: later →
      let earlier := (Task.runEach (onStore synthesizer) (tasks options before) w).2
      let now := toggle.call (onStore synthesizer) options mode earlier
      run.1[before.length]? = some now.1 ∧
        Toggled earlier.store.database toggle now.1 now.2.store.database) ∧
    ((∀ reply ∈ run.1 ++ run'.1, reply.isOk) →
      run.1 = run'.1 ∧ Same run.2.store.database run'.2.store.database) := by
  refine ⟨?_, fun hok => ?_⟩
  · rintro before toggle mode later rfl
    refine ⟨Task.runEach_map_getElem? _ _ before later (toggle, mode) w, ?_⟩
    obtain ⟨db', hs', hdb', hknown'⟩ := runEach_orderly before hs hdb
      (fun c hc => hknown c (List.mem_append_left _ hc))
      (fun c hc => hfaithful c (List.mem_append_left _ hc))
    have hmem : (toggle, mode) ∈ before ++ (toggle, mode) :: later := by simp
    obtain ⟨reply, w', db'', hrun, hs'', htoggled⟩ := call_toggled (hfaithful _ hmem) hs' hdb'
      (hknown' _ _ (hknown _ hmem)) mode
    rw [hrun, hs'.store.database]
    exact hs''.store.database ▸ htoggled
  · rw [List.forall_mem_append] at hok
    exact runEach_same calls calls' hcalls hs hs hdb hdb ⟨rfl, rfl⟩
      (fun c hc => ⟨hknown c hc, hknown c hc⟩) hfaithful hok.1 hok.2

end Run

section Sample

def findVoteSql : String :=
  "SELECT value FROM votes WHERE \"messageId\" = 1 AND \"userId\" = 7"

def insertVoteSql : String :=
  "INSERT INTO votes (\"messageId\", \"userId\", value) VALUES (1, 7, 1)"

def updateVoteSql : String :=
  "UPDATE votes SET value = 1 WHERE \"messageId\" = 1 AND \"userId\" = 7"

def deleteVoteSql : String :=
  "DELETE FROM votes WHERE \"messageId\" = 1 AND \"userId\" = 7"

def findReactionSql : String :=
  "SELECT id FROM reactions WHERE \"messageId\" = 1 AND \"userId\" = 7 AND emoji = '+'"

def insertReactionSql : String :=
  "INSERT INTO reactions (\"messageId\", \"userId\", emoji) VALUES (1, 7, '+')"

def deleteReactionSql : String :=
  "DELETE FROM reactions WHERE \"messageId\" = 1 AND \"userId\" = 7 AND emoji = '+'"

def sampleReplies : List (String × String) :=
  [((Intent.findVote 1 7).text, findVoteSql), ((Intent.insertVote 1 7 1).text, insertVoteSql),
    ((Intent.updateVote 1 7 1).text, updateVoteSql), ((Intent.deleteVote 1 7).text, deleteVoteSql),
    ((Intent.findReaction 1 7 "+").text, findReactionSql),
    ((Intent.insertReaction 1 7 "+").text, insertReactionSql),
    ((Intent.deleteReaction 1 7 "+").text, deleteReactionSql)]

theorem spelled_vote : Spelled findVoteSql .read (VoteToggle.findStatement 1 7) ∧
    Spelled insertVoteSql .write (VoteToggle.insertStatement 1 7 .up) ∧
    Spelled updateVoteSql .write (VoteToggle.updateStatement 1 7 .up) ∧
    Spelled deleteVoteSql .write (VoteToggle.deleteStatement 1 7) := by
  refine ⟨⟨?_, .of_spells rfl ?_ ?_ ?_⟩, ⟨?_, .of_spells rfl ?_ ?_ ?_⟩,
    ⟨?_, .of_spells rfl ?_ ?_ ?_⟩, ⟨?_, .of_spells rfl ?_ ?_ ?_⟩⟩ <;> decide +kernel

theorem spelled_reaction :
    Spelled findReactionSql .read (ReactionToggle.findStatement 1 7 "+") ∧
    Spelled insertReactionSql .write (ReactionToggle.insertStatement 1 7 "+") ∧
    Spelled deleteReactionSql .write (ReactionToggle.deleteStatement 1 7 "+") := by
  refine ⟨⟨?_, .of_spells rfl ?_ ?_ ?_⟩, ⟨?_, .of_spells rfl ?_ ?_ ?_⟩,
    ⟨?_, .of_spells rfl ?_ ?_ ?_⟩⟩ <;> decide +kernel

theorem anywhere_vote : ∀ intent ∈ (vote 1 7 1).intents,
    FaithfulAnywhere {} Fixture.synthesizer (·.entries = sampleReplies) intent := by
  obtain ⟨hfind, hinsert, hupdate, hdelete⟩ := spelled_vote
  have hvote : (vote 1 7 1).intents =
      [.findVote 1 7, .insertVote 1 7 1, .updateVote 1 7 1, .deleteVote 1 7] := rfl
  simp only [hvote, List.forall_mem_cons]
  exact ⟨hfind.faithful (VoteToggle.anywhere_find hfind.reads) (by decide +kernel),
    hinsert.faithful (VoteToggle.anywhere_insert hinsert.reads) (by decide +kernel),
    hupdate.faithful (VoteToggle.anywhere_update hupdate.reads) (by decide +kernel),
    hdelete.faithful (VoteToggle.anywhere_delete hdelete.reads) (by decide +kernel), by simp⟩

theorem anywhere_reaction : ∀ intent ∈ (reaction 1 7 "+").intents,
    FaithfulAnywhere {} Fixture.synthesizer (·.entries = sampleReplies) intent := by
  obtain ⟨hfind, hinsert, hdelete⟩ := spelled_reaction
  simp only [intents, List.forall_mem_cons]
  exact ⟨hfind.faithful (ReactionToggle.anywhere_find hfind.reads) (by decide +kernel),
    hinsert.faithful (ReactionToggle.anywhere_insert hinsert.reads) (by decide +kernel),
    hdelete.faithful (ReactionToggle.anywhere_delete hdelete.reads) (by decide +kernel), by simp⟩

theorem faithful_vote : ∀ intent ∈ (vote 1 7 1).intents,
    Faithful {} Fixture.synthesizer (·.entries = sampleReplies) intent :=
  fun intent hintent => (anywhere_vote intent hintent).faithful

theorem faithful_reaction : ∀ intent ∈ (reaction 1 7 "+").intents,
    Faithful {} Fixture.synthesizer (·.entries = sampleReplies) intent :=
  fun intent hintent => (anywhere_reaction intent hintent).faithful

def sampleBoard (votes : TableState) : Database :=
  seeded votes { schema := Schema.reactions }

def sampleWorld (votes : TableState) : World Fixture Agora.Store where
  synthesis := { entries := sampleReplies }
  store := { database := sampleBoard votes }
  listing := { ttl := ReadCache.defaultTtl }

def sampleCalls (mode mode' : ToggleMode) : List (Toggle × ToggleMode) :=
  [(vote 1 7 1, mode), (reaction 1 7 "+", mode')]

theorem stands_sample (votes : TableState) :
    Stands (·.entries = sampleReplies) (sampleWorld votes) (sampleBoard votes) :=
  ⟨⟨rfl, rfl, rfl⟩, rfl⟩

theorem orderly_sample {votes : TableState} (hv : votes.schema = Schema.votes)
    (hl : Lawful votes) : Orderly (sampleBoard votes) where
  shaped := shaped_seeded hv rfl
  votes := by rwa [sampleBoard, seeded_votes hv rfl]
  reactions := by
    rw [sampleBoard, seeded_reactions hv rfl]
    exact .of_nil rfl

theorem faithful_sample (mode mode' : ToggleMode) : ∀ c ∈ sampleCalls mode mode',
    ∀ intent ∈ c.1.intents,
      Faithful {} Fixture.synthesizer (·.entries = sampleReplies) intent := by
  simp only [sampleCalls, List.forall_mem_cons]
  exact ⟨faithful_vote, faithful_reaction, by simp⟩

theorem isOk_sample {db : Database} {w : World Fixture Agora.Store}
    (hs : Stands (·.entries = sampleReplies) w db) (hdb : Orderly db) (hknown : Known db 1 7)
    (hvotes : (db.at Schema.votes).nextId? ≠ none)
    (hreactions : (db.at Schema.reactions).nextId? ≠ none) (mode mode' : ToggleMode) :
    ∀ reply ∈ (Task.runEach (onStore Fixture.synthesizer) (tasks {} (sampleCalls mode mode')) w).1,
      reply.isOk := by
  obtain ⟨reply, w', db', hrun, hs', htoggled⟩ := call_toggled faithful_vote hs hdb hknown mode
  obtain ⟨reply', w'', db'', hrun', -, htoggled'⟩ := call_toggled faithful_reaction hs'
    (htoggled.orderly hdb) (htoggled.known hdb hknown) mode'
  have hroom : (db'.at Schema.reactions).nextId? ≠ none := by
    rwa [htoggled.other hdb leaf_reactions.mem (by decide)]
  simp only [sampleCalls, tasks_cons, Task.runEach_cons _ hrun, Task.runEach_cons _ hrun',
    List.forall_mem_cons]
  exact ⟨htoggled.isOk hvotes, htoggled'.isOk hroom, by simp [tasks, Task.runEach]⟩

theorem modes_agree_on_sample :
    let w := sampleWorld { schema := Schema.votes }
    let db := sampleBoard { schema := Schema.votes }
    let calls := sampleCalls .atomic .compiled
    let calls' := sampleCalls .compiled .atomic
    let run := Task.runEach (onStore Fixture.synthesizer) (tasks {} calls) w
    let run' := Task.runEach (onStore Fixture.synthesizer) (tasks {} calls') w
    (Stands (·.entries = sampleReplies) w db ∧ Orderly db ∧
      calls.map (·.1) = calls'.map (·.1) ∧
      (∀ c ∈ calls, Known db c.1.message c.1.user) ∧
      (∀ c ∈ calls, ∀ intent ∈ c.1.intents,
        Faithful {} Fixture.synthesizer (·.entries = sampleReplies) intent) ∧
      ∀ reply ∈ run.1 ++ run'.1, reply.isOk) ∧
    run.1 = run'.1 ∧ Same run.2.store.database run'.2.store.database := by
  have hs := stands_sample { schema := Schema.votes }
  have hdb : Orderly (sampleBoard { schema := Schema.votes }) := orderly_sample rfl (.of_nil rfl)
  have hknown : Known (sampleBoard { schema := Schema.votes }) 1 7 := known_seeded _ _
  have hall : ∀ c ∈ sampleCalls .atomic .compiled,
      Known (sampleBoard { schema := Schema.votes }) c.1.message c.1.user := by
    simp only [sampleCalls, List.forall_mem_cons]
    exact ⟨hknown, hknown, by simp⟩
  have hfaithful := faithful_sample .atomic .compiled
  have hok := List.forall_mem_append.2
    ⟨isOk_sample hs hdb hknown (by decide +kernel) (by decide +kernel) .atomic .compiled,
      isOk_sample hs hdb hknown (by decide +kernel) (by decide +kernel) .compiled .atomic⟩
  obtain ⟨-, hagree⟩ := modes_agree hs hdb (sampleCalls .atomic .compiled)
    (sampleCalls .compiled .atomic) rfl hall hfaithful
  exact ⟨⟨hs, hdb, rfl, hall, hfaithful, hok⟩, hagree hok⟩

def lastVote : TableState :=
  VoteToggle.cast { schema := Schema.votes, lastId := Int64.maxValue - 1 } Int64.maxValue 1 7 .down

/-- The vote that is changed by intents is refused in a batch, where no id is left. -/
theorem modes_disagree_without_id :
    let w := sampleWorld lastVote
    let db := sampleBoard lastVote
    let atomic := (vote 1 7 1).call (onStore Fixture.synthesizer) {} .atomic w
    let compiled := (vote 1 7 1).call (onStore Fixture.synthesizer) {} .compiled w
    (Stands (·.entries = sampleReplies) w db ∧ Orderly db ∧ Known db 1 7 ∧
      ∀ intent ∈ (vote 1 7 1).intents,
        Faithful {} Fixture.synthesizer (·.entries = sampleReplies) intent) ∧
    atomic.1 = .error (noIdLeft VoteToggle.upsertSql) ∧
    compiled.1 = .ok (.vote (.changed (some .down) .up)) ∧ atomic.1 ≠ compiled.1 := by
  have hs := stands_sample lastVote
  have hdb : Orderly (sampleBoard lastVote) := orderly_sample rfl
    (VoteToggle.lawful_cast_first (Int64.maxValue - 1) Int64.maxValue 1 7 .down (by decide +kernel))
  have hknown : Known (sampleBoard lastVote) 1 7 := VoteToggle.known_voted
  have hdown : VoteToggle.Holds (entries "value" ((sampleBoard lastVote).at Schema.votes)) 1 7
      (some .down) := VoteToggle.holds_voted
  obtain ⟨s', hstep⟩ := VoteToggle.atomic_step Fixture.synthesizer (sampleWorld lastVote) hs.store
    hdb.shaped hdb.votes hknown .up hdown
  rw [if_pos (by decide +kernel)] at hstep
  have hatomic : ((vote 1 7 1).call (onStore Fixture.synthesizer) {} .atomic
      (sampleWorld lastVote)).1 = .error (noIdLeft VoteToggle.upsertSql) := by
    have hcall : (vote 1 7 1).call (onStore Fixture.synthesizer) {} .atomic (sampleWorld lastVote) =
        _ := call_vote hstep.1
    exact congrArg Prod.fst hcall
  have hcompiled : ((vote 1 7 1).call (onStore Fixture.synthesizer) {} .compiled
      (sampleWorld lastVote)).1 = .ok (.vote (.changed (some .down) .up)) := by
    have hreply : ((VoteToggle.toggle {} false 1 7 1).run.run (onStore Fixture.synthesizer)
        (sampleWorld lastVote)).1 = .ok (.changed (some .down) .up) := by
      decide +kernel
    have hcall : (vote 1 7 1).call (onStore Fixture.synthesizer) {} .compiled
        (sampleWorld lastVote) = _ := call_vote (Prod.ext hreply rfl)
    exact congrArg Prod.fst hcall
  refine ⟨⟨hs, hdb, hknown, faithful_vote⟩, hatomic, hcompiled, ?_⟩
  rw [hatomic, hcompiled]
  simp

end Sample

end Toggle

end Agora
