import Agora.Proofs.Store.Entry
import Agora.Proofs.Toggle.Batch
import Agora.Board

namespace Agora.ReactionToggle

open Agora.Store

def emojiColumn : Column :=
  .text "emoji"

def key (message user : Int64) (emoji : String) : Pattern :=
  userKey message user ++ [("emoji", .text emoji)]

def values (message user : Int64) (emoji : String) : Assignment :=
  userValues message user emojiColumn (.text emoji)

def add (t : TableState) (id message user : Int64) (emoji : String) : TableState :=
  (t.useId id).put (newRecord id (values message user emoji))

theorem marks_reactions : Marks Schema.reactions emojiColumn :=
  ⟨leaf_reactions, rfl⟩

theorem admits_emoji (emoji : String) : Admits emojiColumn (.text emoji) :=
  ⟨rfl, rfl, rfl⟩

theorem keyFor_values (message user : Int64) (emoji : String) :
    KeyFor Schema.reactions (key message user emoji) (values message user emoji) where
  keys := by
    simp only [key, userKey, List.map_append, List.map_cons, List.map_nil]
    decide
  exact_values := by simp [key, userKey, Value.isExact]
  given := by
    simp only [key, userKey, List.cons_append, List.nil_append, List.mem_cons, List.not_mem_nil,
      or_false, forall_eq_or_imp, forall_eq]
    exact ⟨⟨_, rfl, .head _⟩, ⟨_, rfl, .tail _ (.head _)⟩, ⟨_, rfl, .tail _ (.tail _ (.head _))⟩⟩

section Batch

def keyConditions : List Condition :=
  [.equal (.columnOrText "messageId") (.param 1), .equal (.columnOrText "userId") (.param 2),
    .equal (.column none "emoji") (.param 3)]

theorem isColumn_id : IsColumn Schema.reactions (.column none "id") .id :=
  .name (columnOf?_eq leaf_reactions.mem (by simp [Schema.reactions]) rfl)

theorem keyed_key (message user : Int64) (emoji : String) :
    Keyed ([Scalar.integer message, .integer user, .text emoji].map .ofScalar) Schema.reactions
      keyConditions (key message user emoji) :=
  .cons marks_reactions.isColumn_message (.param rfl) rfl <|
    .cons marks_reactions.isColumn_user (.param rfl) rfl <|
    .cons marks_reactions.isColumn_third (.param rfl) rfl .nil

theorem reads_selectSql : Reads selectSql
    (.select (selectOf Schema.reactions "reactions" (.column none "id") "id" keyConditions)) 3 :=
  .of_spells rfl (by decide +kernel) (by decide +kernel) (by decide +kernel)

theorem reads_deleteSql :
    Reads deleteSql (.delete Schema.reactions.name keyConditions) 3 :=
  .of_spells rfl (by decide +kernel) (by decide +kernel) (by decide +kernel)

theorem reads_insertSql : Reads insertSql (.insert Schema.reactions.name
    (some ["messageId", "userId", "emoji"]) (unlessChanged [.param 1, .param 2, .param 3])
      none []) 3 :=
  .of_spells (.append rfl rfl) (by decide +kernel) (by decide +kernel) (by decide +kernel)

theorem togglesRow (message user : Int64) (emoji : String) :
    TogglesRow Schema.reactions .id (key message user emoji) (key message user emoji)
      (values message user emoji) none
      ⟨selectSql, [.integer message, .integer user, .text emoji]⟩
      ⟨deleteSql, [.integer message, .integer user, .text emoji]⟩
      ⟨insertSql, [.integer message, .integer user, .text emoji]⟩ where
  leaf := leaf_reactions
  selects := ⟨_, _, _, isColumn_id, keyed_key message user emoji, reads_selectSql⟩
  deletes := ⟨_, keyed_key message user emoji, reads_deleteSql⟩
  inserts := by
    refine ⟨_, _, marks_reactions.columnsOf_names message user _, ?_, reads_insertSql⟩
    exact .cons (.param rfl) <| .cons (.param rfl) <| .cons (.param rfl) .nil
  spelled := rfl

end Batch

section Machine

def Holds (S : Set Entry) (message user : Int64) (emoji : String) (b : Bool) : Prop :=
  b = true ↔ ∃ x ∈ S, x.on message user ∧ x.2.2 = .text emoji

def after (message user : Int64) (emoji : String) (S : Set Entry) : ReactionOutcome → Set Entry
  | .added => insert (.integer message, .integer user, .text emoji) S
  | .removed => {x ∈ S | ¬ (x.on message user ∧ x.2.2 = .text emoji)}

theorem Holds.unique {S : Set Entry} {message user : Int64} {emoji : String} {b b' : Bool}
    (h : Holds S message user emoji b) (h' : Holds S message user emoji b') : b = b' :=
  Bool.eq_iff_iff.2 (h.trans h'.symm)

end Machine

section Tables

variable {t : TableState} {message user id : Int64} {emoji : String} {b : Bool}

theorem equals_text (v : Value) (s : String) : v.equals (.text s) = decide (v = .text s) := by
  cases v <;> simp [Value.equals]

theorem meets_key {r : Record} : r.meets (key message user emoji) ↔
    (entryOf "emoji" r).on message user ∧ (entryOf "emoji" r).2.2 = .text emoji := by
  rw [← meets_userKey]
  simp [key, Record.meets, equals_text, entryOf]

theorem Holds.exists_iff (h : Holds (entries "emoji" t) message user emoji b) :
    b = true ↔ ∃ r ∈ t.records, r.meets (key message user emoji) := by
  refine h.trans ⟨?_, ?_⟩
  · rintro ⟨_, ⟨r, hr, rfl⟩, hx⟩
    exact ⟨r, hr, meets_key.2 hx⟩
  · rintro ⟨r, hr, hm⟩
    exact ⟨_, mem_entries_of hr, meets_key.1 hm⟩

theorem Holds.absent (h : Holds (entries "emoji" t) message user emoji false) :
    ∀ r ∈ t.records, ¬ r.meets (key message user emoji) :=
  fun r hr hm => Bool.false_ne_true (h.exists_iff.2 ⟨r, hr, hm⟩)

theorem exists_holds (t : TableState) (message user : Int64) (emoji : String) :
    ∃ b, Holds (entries "emoji" t) message user emoji b := by
  by_cases h : ∃ x ∈ entries "emoji" t, x.on message user ∧ x.2.2 = .text emoji
  · exact ⟨true, by simpa [Holds] using h⟩
  · exact ⟨false, by simpa [Holds] using h⟩

theorem entries_without : entries "emoji" (t.without (key message user emoji)) =
    after message user emoji (entries "emoji" t) .removed := by
  ext x
  simp only [after, mem_entries, TableState.mem_without, Set.mem_ofPred_eq, ← Bool.not_eq_true]
  constructor
  · rintro ⟨r, ⟨hr, hm⟩, rfl⟩
    exact ⟨⟨r, hr, rfl⟩, fun hx => hm (meets_key.2 hx)⟩
  · rintro ⟨⟨r, hr, rfl⟩, hm⟩
    exact ⟨r, ⟨hr, fun hx => hm (meets_key.1 hx)⟩, rfl⟩

variable (ht : t.schema = Schema.reactions)
include ht

theorem regular_reactions : Regular t.schema :=
  ht ▸ regular_of_mem leaf_reactions.mem

theorem complete_reactions (message user : Int64) (emoji : String) :
    Complete t.schema (values message user emoji) :=
  ht ▸ marks_reactions.complete (admits_emoji emoji)

theorem keyFor_reactions (message user : Int64) (emoji : String) :
    KeyFor t.schema (key message user emoji) (values message user emoji) :=
  ht ▸ keyFor_values message user emoji

theorem entries_add : entries "emoji" (add t id message user emoji) =
    after message user emoji (entries "emoji" t) .added := by
  have hentry : entryOf "emoji" (newRecord id (values message user emoji)) =
      (.integer message, .integer user, .text emoji) :=
    entryOf_newRecord (regular_reactions ht) (complete_reactions ht message user emoji) id
  rw [add, entries_put, entries_useId, hentry, after]

theorem insert_add (hl : Lawful t) (habsent : ∀ r ∈ t.records, ¬ r.meets (key message user emoji))
    (hid : t.nextId? = some id) (now : String) :
    t.insert now none (values message user emoji) =
        .ok (newRecord id (values message user emoji), add t id message user emoji) ∧
      Lawful (add t id message user emoji) :=
  insert_free hl (regular_reactions ht) (complete_reactions ht message user emoji)
    (keyFor_reactions ht message user emoji) hid habsent now (by simp)

theorem filter_key (hl : Lawful t) {r : Record} (hr : r ∈ t.records)
    (hm : r.meets (key message user emoji)) :
    t.records.filter (·.meets (key message user emoji)) = [r] := by
  have hkey := (keyFor_reactions ht message user emoji).keys
  exact hl.filter_meets (hkey ▸ List.mem_singleton_self _) hr hm

end Tables

section Step

variable {σ : Type} {db : Database} {message user : Int64} {emoji : String} {b : Bool}

section

variable {s : Agora.Store} (hs : Rests s db) (hdb : Shaped db)
  (hl : Lawful (db.at Schema.reactions))
include hs hdb hl

theorem batch_removes {r : Record} (hr : r ∈ (db.at Schema.reactions).records)
    (hm : r.meets (key message user emoji)) :
    ∃ s', s.executeBatch (batch message user emoji) =
        (.ok [[toRow [("id", .integer r.id)]], [], []], s') ∧
      Rests s' (db.replace ((db.at Schema.reactions).without (key message user emoji))) := by
  have hfound := filter_key (hdb.at_schema leaf_reactions.mem) hl hr hm
  have hbatch := (togglesRow message user emoji).batch_taken hs hdb hl hfound
  rwa [hfound] at hbatch

variable (habsent : ∀ r ∈ (db.at Schema.reactions).records, ¬ r.meets (key message user emoji))
include habsent

theorem batch_adds (hknown : Known db message user) {id : Int64}
    (hid : (db.at Schema.reactions).nextId? = some id) :
    ∃ s', s.executeBatch (batch message user emoji) = (.ok [[], [], []], s') ∧
      Rests s' (db.replace (add (db.at Schema.reactions) id message user emoji)) := by
  have hnone := List.filter_eq_nil_iff.2 habsent
  obtain ⟨hinsert, -⟩ := insert_add (hdb.at_schema leaf_reactions.mem) hl habsent hid s.now
  have hbatch := (togglesRow message user emoji).batch_put hs hdb hl hnone hinsert
    (keeps_newRecord hdb leaf_reactions (marks_reactions.complete (admits_emoji emoji))
      (hknown.parents rfl) id)
  rwa [hnone] at hbatch

theorem batch_full (hid : (db.at Schema.reactions).nextId? = none) :
    ∃ s', s.executeBatch (batch message user emoji) =
        (.error (.database insertSql (.other "database or disk is full")), s') ∧ Rests s' db :=
  (togglesRow message user emoji).batch_refused hs hdb hl (List.filter_eq_nil_iff.2 habsent)
    (insert_full (complete_reactions (hdb.at_schema leaf_reactions.mem) message user emoji) hid
      s.now none)

end

theorem atomic_step (synthesizer : Synthesizer σ) (w : World σ Agora.Store)
    (hs : Rests w.store db) (hdb : Shaped db) (hl : Lawful (db.at Schema.reactions))
    (hknown : Known db message user)
    (hb : Holds (entries "emoji" (db.at Schema.reactions)) message user emoji b) :
    ∃ s', if b = false ∧ (db.at Schema.reactions).nextId? = none then
        (atomic message user emoji).run.run (onStore synthesizer) w =
            (.error (noIdLeft insertSql), { w with store := s' }) ∧ Rests s' db
      else ∃ db', (atomic message user emoji).run.run (onStore synthesizer) w =
            (.ok (ofPresence b), { w with store := s' }) ∧ Rests s' db' ∧
          Becomes Schema.reactions "emoji" (after message user emoji
            (entries "emoji" (db.at Schema.reactions)) (ofPresence b)) db db' := by
  have ht := hdb.at_schema leaf_reactions.mem
  have hrun : (atomic message user emoji).run.run (onStore synthesizer) w = _ :=
    run_executeBatch synthesizer (batch message user emoji) _ w
  rw [hrun]
  cases b with
  | true =>
    obtain ⟨r, hr, hm⟩ := hb.exists_iff.1 rfl
    obtain ⟨s', hbatch, hrests⟩ := batch_removes hs hdb hl hr hm
    refine ⟨s', ?_⟩
    rw [if_neg (by simp), hbatch]
    exact ⟨_, rfl, hrests, (db.at Schema.reactions).without (key message user emoji), ht,
      hl.without _, entries_without, rfl⟩
  | false =>
    have habsent := hb.absent
    cases hid : (db.at Schema.reactions).nextId? with
    | none =>
      obtain ⟨s', hbatch, hrests⟩ := batch_full hs hdb hl habsent hid
      refine ⟨s', ?_⟩
      rw [if_pos ⟨rfl, rfl⟩, hbatch]
      exact ⟨rfl, hrests⟩
    | some id =>
      obtain ⟨s', hbatch, hrests⟩ := batch_adds hs hdb hl habsent hknown hid
      have hlawful := (insert_add ht hl habsent hid "").2
      refine ⟨s', ?_⟩
      rw [if_neg (by simp), hbatch]
      exact ⟨_, rfl, hrests, add _ id message user emoji, ht, hlawful, entries_add ht, rfl⟩

end Step

end Agora.ReactionToggle
