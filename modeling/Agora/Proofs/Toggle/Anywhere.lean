import Mathlib.Data.Set.Image
import Agora.Proofs.Toggle.Literal

namespace Agora

open Store

/-- Whether the key of the row that an intent inserts is taken. -/
def Intent.Meets (db : Database) : Intent → Prop
  | .insertVote message user _ => ∃ v,
      VoteToggle.Holds (entries "value" (db.at Schema.votes)) message user (some v)
  | .insertReaction message user emoji =>
      ReactionToggle.Holds (entries "emoji" (db.at Schema.reactions)) message user emoji true
  | _ => False

def Intent.Refers (db : Database) : Intent → Prop
  | .insertVote message user _ | .insertReaction message user _ => Known db message user
  | _ => True

inductive Intent.Performs (db : Database) (intent : Intent) :
    Except StatementError (List Row) → Database → Prop
  | done {answer db'} : ¬ intent.Meets db → intent.Does db answer db' →
      Performs db intent answer db'
  | full {e} : intent.Meets db → intent.Does db (.error e) db → Performs db intent (.error e) db
  | refused (v : Violation) : intent.Meets db → Performs db intent (.error (.violation v)) db

def CarriesAnywhere (sql : String) (intent : Intent) : Prop :=
  ∀ s db, Rests s db → Orderly db → intent.Refers db → ∃ answer s' db',
    s.execute ⟨sql, []⟩ = (answer.mapError (.database sql), s') ∧ Rests s' db' ∧
      intent.Performs db answer db'

def FaithfulAnywhere {σ : Type} (options : CompilerOptions) (synthesizer : Synthesizer σ)
    (Q : σ → Prop) (intent : Intent) : Prop :=
  ∀ q, Q q → ∃ raw q' statement, synthesizer.synthesize intent.text q = (.ok raw, q') ∧ Q q' ∧
    options.statementOf raw [] = .ok statement ∧ CarriesAnywhere statement.sql intent

theorem Carries.anywhere {sql : String} {intent : Intent} (h : Carries sql intent)
    (happlies : ∀ db, intent.Applies db) (hmeets : ∀ db, ¬ intent.Meets db) :
    CarriesAnywhere sql intent := by
  intro s db hs hdb _
  obtain ⟨answer, s', db', hexecute, hs', hdoes⟩ := h s db hs hdb (happlies db)
  exact ⟨answer, s', db', hexecute, hs', .done (hmeets db) hdoes⟩

namespace VoteToggle

variable {sql : String} {message user : Int64} {v : VoteValue}

theorem anywhere_find (h : Reads sql (findStatement message user) 0) :
    CarriesAnywhere sql (.findVote message user) :=
  (carries_find h).anywhere (fun _ => trivial) fun _ => id

theorem anywhere_delete (h : Reads sql (deleteStatement message user) 0) :
    CarriesAnywhere sql (.deleteVote message user) :=
  (carries_delete h).anywhere (fun _ => trivial) fun _ => id

theorem after_changed_of_none {S : Set Entry} (h : Holds S message user none)
    (b : Option VoteValue) (v : VoteValue) : after message user S (.changed b v) = S := by
  have hsame : ∀ x ∈ S, (if x.on message user then (x.1, x.2.1, .integer v.toInt64) else x) = x :=
    fun x hx => if_neg (by rw [h x hx]; decide)
  exact (Set.image_congr hsame).trans (Set.image_id' S)

theorem becomes_self {db : Database} (hdb : Orderly db) :
    Becomes Schema.votes "value" (entries "value" (db.at Schema.votes)) db db :=
  ⟨db.at Schema.votes, hdb.shaped.at_schema leaf_votes.mem, hdb.votes, rfl,
    (hdb.shaped.replace_at leaf_votes.mem).symm⟩

theorem anywhere_update (h : Reads sql (updateStatement message user v) 0) :
    CarriesAnywhere sql (.updateVote message user v.toInt64) := by
  intro s db hs hdb _
  rcases key_cases (hdb.shaped.at_schema leaf_votes.mem) hdb.votes message user with
    ⟨hnone, habsent⟩ | ⟨b, hb, -⟩
  · obtain rfl := hs.database
    have hexecute : s.execute ⟨sql, []⟩ = _ := execute_update_none h (hs.ready hdb.shaped)
      leaf_votes (keyed_literalKey message user) (List.filter_eq_nil_iff.2 habsent)
    have hbecomes := becomes_self hdb
    rw [← after_changed_of_none hnone none v] at hbecomes
    exact ⟨.ok [], _, _, hexecute, hs.changedTo _ _, .done id (.updateVote rfl hbecomes)⟩
  · obtain ⟨answer, s', db', hexecute, hs', hdoes⟩ := carries_update h s db hs hdb ⟨b, hb⟩
    exact ⟨answer, s', db', hexecute, hs', .done id hdoes⟩

theorem anywhere_insert (h : Reads sql (insertStatement message user v) 0) :
    CarriesAnywhere sql (.insertVote message user v.toInt64) := by
  intro s db hs hdb hknown
  have ht := hdb.shaped.at_schema leaf_votes.mem
  rcases key_cases ht hdb.votes message user with ⟨hfree, -⟩ | ⟨b, hb, r, hr, hm, -⟩
  · obtain ⟨answer, s', db', hexecute, hs', hdoes⟩ := carries_insert h s db hs hdb ⟨hknown, hfree⟩
    refine ⟨answer, s', db', hexecute, hs', .done ?_ hdoes⟩
    rintro ⟨b, x, hx, hon, -⟩
    rw [hfree x hx] at hon
    cases hon
  · cases hid : (db.at Schema.votes).nextId? with
    | none =>
      have hexecute := marks_votes.execute_full h hs hdb.shaped (admits_value v) hid
      exact ⟨.error _, _, _, hexecute, hs.unchanged, .full ⟨b, hb⟩ (.insertVoteFull hid)⟩
    | some id =>
      have hexecute := marks_votes.execute_refused h hs hdb.shaped (insert_taken
        (regular_votes ht) (complete_votes ht message user v) (keyFor_votes ht message user v)
        hid hr hm s.now)
      exact ⟨.error _, _, _, hexecute, hs.unchanged, .refused _ ⟨b, hb⟩⟩

end VoteToggle

namespace ReactionToggle

variable {sql : String} {message user : Int64} {emoji : String}

theorem anywhere_find (h : Reads sql (findStatement message user emoji) 0) :
    CarriesAnywhere sql (.findReaction message user emoji) :=
  (carries_find h).anywhere (fun _ => trivial) fun _ => id

theorem anywhere_delete (h : Reads sql (deleteStatement message user emoji) 0) :
    CarriesAnywhere sql (.deleteReaction message user emoji) :=
  (carries_delete h).anywhere (fun _ => trivial) fun _ => id

theorem anywhere_insert (h : Reads sql (insertStatement message user emoji) 0) :
    CarriesAnywhere sql (.insertReaction message user emoji) := by
  intro s db hs hdb hknown
  have ht := hdb.shaped.at_schema leaf_reactions.mem
  obtain ⟨b, hb⟩ := exists_holds (db.at Schema.reactions) message user emoji
  cases b with
  | false =>
    obtain ⟨answer, s', db', hexecute, hs', hdoes⟩ := carries_insert h s db hs hdb ⟨hknown, hb⟩
    refine ⟨answer, s', db', hexecute, hs', .done (fun hmeets => ?_) hdoes⟩
    exact Bool.false_ne_true (hb.unique hmeets)
  | true =>
    obtain ⟨r, hr, hm⟩ := hb.exists_iff.1 rfl
    cases hid : (db.at Schema.reactions).nextId? with
    | none =>
      have hexecute := marks_reactions.execute_full h hs hdb.shaped (admits_emoji emoji) hid
      exact ⟨.error _, _, _, hexecute, hs.unchanged, .full hb (.insertReactionFull hid)⟩
    | some id =>
      have hexecute := marks_reactions.execute_refused h hs hdb.shaped (insert_taken
        (regular_reactions ht) (complete_reactions ht message user emoji)
        (keyFor_reactions ht message user emoji) hid hr hm s.now)
      exact ⟨.error _, _, _, hexecute, hs.unchanged, .refused _ hb⟩

end ReactionToggle

namespace Intent

variable {intent : Intent} {db : Database}

theorem Applies.refers (h : intent.Applies db) : intent.Refers db := by
  cases intent with
  | insertVote => exact h.1
  | insertReaction => exact h.1
  | _ => trivial

theorem Applies.not_meets (h : intent.Applies db) : ¬ intent.Meets db := by
  cases intent with
  | insertVote =>
    rintro ⟨v, x, hx, hon, -⟩
    rw [h.2 x hx] at hon
    cases hon
  | insertReaction => exact fun hmeets => Bool.false_ne_true (h.2.unique hmeets)
  | _ => exact id

end Intent

theorem CarriesAnywhere.carries {sql : String} {intent : Intent} (h : CarriesAnywhere sql intent) :
    Carries sql intent := by
  intro s db hs hdb happlies
  obtain ⟨answer, s', db', hexecute, hs', hperforms⟩ := h s db hs hdb happlies.refers
  refine ⟨answer, s', db', hexecute, hs', ?_⟩
  cases hperforms with
  | done _ hdoes => exact hdoes
  | full hmeets => exact absurd hmeets happlies.not_meets
  | refused _ hmeets => exact absurd hmeets happlies.not_meets

section Faithful

variable {options : CompilerOptions} {intent : Intent}

theorem FaithfulAnywhere.faithful {σ : Type} {synthesizer : Synthesizer σ} {Q : σ → Prop}
    (h : FaithfulAnywhere options synthesizer Q intent) :
    Faithful options synthesizer Q intent := by
  intro q hq
  obtain ⟨raw, q', statement, hreply, hq', hstatement, hcarries⟩ := h q hq
  exact ⟨raw, q', statement, hreply, hq', hstatement, hcarries.carries⟩

structure Spelled (sql : String) (kind : Sql.Kind) (statement : Statement) : Prop where
  taken : ({} : CompilerOptions).statementOf sql [] = .ok ⟨sql, [], kind⟩
  reads : Reads sql statement 0

theorem synthesize_of_reply {f : Fixture} {text sql : String} (h : f.reply? text = some sql) :
    Fixture.synthesizer.synthesize text f = (.ok sql, { f with calls := f.calls + 1 }) := by
  simp only [Fixture.synthesizer, h]

theorem Spelled.faithful {sql : String} {kind : Sql.Kind} {statement : Statement}
    (h : Spelled sql kind statement) (hcarries : CarriesAnywhere sql intent)
    {replies : List (String × String)}
    (hreply : ({ entries := replies } : Fixture).reply? intent.text = some sql) :
    FaithfulAnywhere {} Fixture.synthesizer (·.entries = replies) intent := by
  rintro f rfl
  exact ⟨sql, _, _, synthesize_of_reply hreply, rfl, h.taken, hcarries⟩

theorem ReactionToggle.run_free {message user : Int64} {emoji findSql insertSql : String}
    {kind kind' : Sql.Kind} (hfind : Spelled findSql kind (findStatement message user emoji))
    (hinsert : Spelled insertSql kind' (insertStatement message user emoji))
    {w : World Fixture Agora.Store} {db : Database} (hs : Rests w.store db) (hdb : Shaped db)
    (hfree : Holds (entries "emoji" (db.at Schema.reactions)) message user emoji false)
    (hfindReply : w.synthesis.reply? (Intent.findReaction message user emoji).text = some findSql)
    (hinsertReply :
      w.synthesis.reply? (Intent.insertReaction message user emoji).text = some insertSql)
    {answer : Except StatementError (List Row)} {s : Agora.Store}
    (hexecute : w.store.execute ⟨insertSql, []⟩ =
      (answer.mapError (.database insertSql), s)) :
    (compiled {} message user emoji).run.run (onStore Fixture.synthesizer) w =
      ((answer.mapError fun e => .executionFailed (.database insertSql e)).map fun _ => .added,
        { w with
          synthesis := { w.synthesis with calls := w.synthesis.calls + 1 + 1 }, store := s }) := by
  have hexecuteFind : w.store.execute ⟨findSql, []⟩ =
      ((Except.ok []).mapError (.database findSql), w.store) :=
    execute_find_free hfind.reads hs hdb hfree
  have hfound := run_asked (synthesize_of_reply hfindReply) hfind.taken hexecuteFind
  have hreply := synthesize_of_reply
    (f := { w.synthesis with calls := w.synthesis.calls + 1 }) hinsertReply
  exact run_compiled hfound (run_asked hreply hinsert.taken hexecute)

end Faithful

end Agora
