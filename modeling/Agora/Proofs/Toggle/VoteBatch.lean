import Agora.Proofs.Store.Entry
import Agora.Proofs.Toggle.Batch
import Agora.Board

namespace Agora.VoteToggle

open Agora.Store

def valueColumn : Column :=
  { name := "value", type := .integer, notNull := true, oneOf := [-1, 1] }

def keyAnd (message user : Int64) (v : VoteValue) : Pattern :=
  userKey message user ++ [("value", .integer v.toInt64)]

def values (message user : Int64) (v : VoteValue) : Assignment :=
  userValues message user valueColumn (.integer v.toInt64)

theorem admits_value (v : VoteValue) : Admits valueColumn (.integer v.toInt64) := by
  cases v <;> exact ⟨rfl, rfl, by decide⟩

theorem marks_votes : Marks Schema.votes valueColumn :=
  ⟨leaf_votes, rfl⟩

theorem keyFor_values (message user : Int64) (v : VoteValue) :
    KeyFor Schema.votes (userKey message user) (values message user v) where
  keys := by simp only [userKey, List.map_cons, List.map_nil]; decide
  exact_values := by simp [userKey, Value.isExact]
  given := by
    simp only [userKey, values, userValues, List.mem_cons, List.not_mem_nil, or_false,
      forall_eq_or_imp, forall_eq]
    exact ⟨⟨_, rfl, .inl rfl⟩, ⟨_, rfl, .inr (.inl rfl)⟩⟩

theorem ofReal_of_toInt? {x : Binary64} {v : VoteValue} (h : x.toInt? = some v.toInt64.toInt) :
    Value.ofReal x = .integer v.toInt64 := by
  rw [Value.ofReal, h]
  dsimp only
  rw [Int64.ofInt_toInt, if_pos]
  cases v <;> decide +kernel

theorem eq_of_admits {x : Value} (h : Admits valueColumn x) :
    ∃ v : VoteValue, x = .integer v.toInt64 := by
  have hequals : ∃ v : VoteValue, x.equals (.integer v.toInt64) := by
    have hnull : x.isNull = false := by simpa [valueColumn] using h.present
    have honeOf := h.allowed
    simp only [valueColumn, List.isEmpty_cons, Bool.not_false, Bool.true_and, hnull, List.any_cons,
      List.any_nil, Bool.or_false, Bool.not_eq_false', Bool.or_eq_true] at honeOf
    exact honeOf.elim (fun hdown => ⟨.down, hdown⟩) fun hup => ⟨.up, hup⟩
  obtain ⟨v, hv⟩ := hequals
  refine ⟨v, ?_⟩
  cases x with
  | integer i => simpa [Value.equals] using hv
  | real x =>
    have hkept : Value.ofReal x = .real x := h.kept
    rw [ofReal_of_toInt? (by simpa [Value.equals] using hv)] at hkept
    cases hkept
  | _ => simp [Value.equals] at hv

def keyConditions : List Condition :=
  [.equal (.columnOrText "messageId") (.param 1), .equal (.columnOrText "userId") (.param 2)]

def valueConditions : List Condition :=
  keyConditions ++ [.equal (.column none "value") (.param 3)]

theorem reads_selectSql : Reads selectSql
    (.select (selectOf Schema.votes "votes" (.column none "value") "value" keyConditions)) 2 :=
  .of_spells rfl (by decide +kernel) (by decide +kernel) (by decide +kernel)

theorem reads_deleteSameSql : Reads deleteSameSql (.delete Schema.votes.name valueConditions) 3 :=
  .of_spells rfl (by decide +kernel) (by decide +kernel) (by decide +kernel)

def upsertConflict : OnConflict :=
  { key := ["messageId", "userId"], updates := [("value", "value")] }

theorem reads_upsertSql : Reads upsertSql (.insert Schema.votes.name
    (some ["messageId", "userId", "value"]) (unlessChanged [.param 1, .param 2, .param 3])
      (some upsertConflict) []) 3 :=
  .of_spells (.append (.append rfl rfl) rfl) (by decide +kernel) (by decide +kernel)
    (by decide +kernel)

theorem togglesRow (message user : Int64) (v : VoteValue) :
    TogglesRow Schema.votes valueColumn (userKey message user) (keyAnd message user v)
      (values message user v) (some upsertConflict)
      ⟨selectSql, [.integer message, .integer user]⟩
      ⟨deleteSameSql, [.integer message, .integer user, .integer v.toInt64]⟩
      ⟨upsertSql, [.integer message, .integer user, .integer v.toInt64]⟩ where
  leaf := leaf_votes
  selects := by
    refine ⟨_, _, _, marks_votes.isColumn_third, ?_, reads_selectSql⟩
    exact .cons marks_votes.isColumn_message (.param rfl) rfl <|
      .cons marks_votes.isColumn_user (.param rfl) rfl .nil
  deletes := by
    refine ⟨_, ?_, reads_deleteSameSql⟩
    exact .cons marks_votes.isColumn_message (.param rfl) rfl <|
      .cons marks_votes.isColumn_user (.param rfl) rfl <|
      .cons marks_votes.isColumn_third (.param rfl) rfl .nil
  inserts := by
    refine ⟨_, _, marks_votes.columnsOf_names message user _, ?_, reads_upsertSql⟩
    exact .cons (.param rfl) <| .cons (.param rfl) <| .cons (.param rfl) .nil
  spelled := by decide +kernel

section Tables

variable {t : TableState} {message user id : Int64} {v : VoteValue}

theorem meets_keyAnd {r : Record} : r.meets (keyAnd message user v) =
    (r.meets (userKey message user) && (r.get "value").equals (.integer v.toInt64)) := by
  simp [keyAnd, Record.meets]

theorem keyAnd_of_value {r : Record} {w : VoteValue} (hw : r.get "value" = .integer w.toInt64) :
    r.meets (keyAnd message user v) = (r.meets (userKey message user) && decide (w = v)) := by
  rw [meets_keyAnd, hw]
  congr 1
  cases w <;> cases v <;> decide

def cast (t : TableState) (id message user : Int64) (v : VoteValue) : TableState :=
  (t.useId id).put (newRecord id (values message user v))

/-- The table with another vote in the place of one; an id is used up all the same. -/
def change (t : TableState) (id : Int64) (old : Record) (v : VoteValue) : TableState :=
  ((t.useId id).remove old.id).put (old.withField "value" (.integer v.toInt64))

variable (ht : t.schema = Schema.votes) (hl : Lawful t)
include ht

theorem regular_votes : Regular t.schema :=
  ht ▸ regular_of_mem leaf_votes.mem

theorem complete_votes (message user : Int64) (v : VoteValue) :
    Complete t.schema (values message user v) :=
  ht ▸ marks_votes.complete (admits_value v)

theorem keyFor_votes (message user : Int64) (v : VoteValue) :
    KeyFor t.schema (userKey message user) (values message user v) :=
  ht ▸ keyFor_values message user v

theorem insert_none_left (hid : t.nextId? = none) (now : String) :
    t.insert now (some upsertConflict) (values message user v) =
      .error (.other "database or disk is full") :=
  insert_full (complete_votes ht message user v) hid now _

include hl

theorem insert_cast (habsent : ∀ r ∈ t.records, ¬ r.meets (userKey message user))
    (hid : t.nextId? = some id) (now : String) (onConflict : Option OnConflict)
    (ho : ∀ o ∈ onConflict, o.key = (userKey message user).map (·.1)) :
    t.insert now onConflict (values message user v) =
        .ok (newRecord id (values message user v), cast t id message user v) ∧
      Lawful (cast t id message user v) :=
  insert_free hl (regular_votes ht) (complete_votes ht message user v)
    (keyFor_votes ht message user v) hid habsent now ho

theorem insert_change {old : Record} (hold : old ∈ t.records)
    (hm : old.meets (userKey message user)) (hid : t.nextId? = some id) (now : String) :
    t.insert now (some upsertConflict) (values message user v) =
        .ok (old.withField "value" (.integer v.toInt64), change t id old v) ∧
      Lawful (change t id old v) := by
  refine insert_met hl (regular_votes ht) (complete_votes ht message user v)
    (keyFor_votes ht message user v) hid now hold hm (c := valueColumn)
    (by simp [values, userValues]) ?_ ?_
  · simp [userKey, valueColumn]
  · rw [ht]
    decide +kernel

theorem filter_key {r : Record} (hr : r ∈ t.records) (hm : r.meets (userKey message user)) :
    t.records.filter (·.meets (userKey message user)) = [r] := by
  have hkey := (keyFor_votes ht message user .up).keys
  exact hl.filter_meets (hkey ▸ List.mem_singleton_self _) hr hm

theorem filter_keyAnd {r : Record} {w : VoteValue} (hr : r ∈ t.records)
    (hm : r.meets (userKey message user)) (hw : r.get "value" = .integer w.toInt64) :
    t.records.filter (·.meets (keyAnd message user v)) = if w = v then [r] else [] := by
  have hsplit : t.records.filter (·.meets (keyAnd message user v)) =
      (t.records.filter (·.meets (userKey message user))).filter
        fun x => (x.get "value").equals (.integer v.toInt64) := by
    rw [List.filter_filter]
    exact List.filter_congr fun x _ => by rw [meets_keyAnd, Bool.and_comm]
  rw [hsplit, filter_key ht hl hr hm, List.filter_singleton, hw]
  cases w <;> cases v <;> rfl

theorem without_keyAnd {r : Record} (hr : r ∈ t.records) (hm : r.meets (userKey message user))
    (hv : r.get "value" = .integer v.toInt64) :
    t.without (keyAnd message user v) = t.without (userKey message user) := by
  simp only [TableState.without]
  congr 1
  refine List.filter_congr fun x hx => congrArg not ?_
  by_cases hxm : x.meets (userKey message user)
  · have hxr : x ∈ t.records.filter (·.meets (userKey message user)) := List.mem_filter.2 ⟨hx, hxm⟩
    rw [filter_key ht hl hr hm, List.mem_singleton] at hxr
    simp [hxr, keyAnd_of_value hv]
  · simp [meets_keyAnd, hxm]

end Tables

theorem lawful_cast_first (last id message user : Int64) (v : VoteValue)
    (hid : ({ schema := Schema.votes, lastId := last } : TableState).nextId? = some id) :
    Lawful (cast { schema := Schema.votes, lastId := last } id message user v) :=
  (insert_cast rfl (.of_nil rfl) (by simp) hid "" none (by simp)).2

section Batch

variable {s : Agora.Store} {db : Database} {message user : Int64} {v : VoteValue}
variable (hs : Rests s db) (hdb : Shaped db) (hl : Lawful (db.at Schema.votes))
include hs hdb hl

theorem batch_withdraws {r : Record} (hr : r ∈ (db.at Schema.votes).records)
    (hm : r.meets (userKey message user)) (hv : r.get "value" = .integer v.toInt64) :
    ∃ s', s.executeBatch (batch message user v) =
        (.ok [[toRow [("value", .integer v.toInt64)]], [], []], s') ∧
      Rests s' (db.replace ((db.at Schema.votes).without (userKey message user))) := by
  have ht := hdb.at_schema leaf_votes.mem
  have hfound := filter_keyAnd (v := v) ht hl hr hm hv
  rw [if_pos rfl] at hfound
  have hbatch := (togglesRow message user v).batch_taken hs hdb hl hfound
  rw [filter_key ht hl hr hm, List.map_singleton, without_keyAnd ht hl hr hm hv] at hbatch
  exact hv ▸ hbatch

theorem batch_casts (habsent : ∀ r ∈ (db.at Schema.votes).records, ¬ r.meets (userKey message user))
    (hknown : Known db message user) {id : Int64}
    (hid : (db.at Schema.votes).nextId? = some id) (v : VoteValue) :
    ∃ s', s.executeBatch (batch message user v) = (.ok [[], [], []], s') ∧
      Rests s' (db.replace (cast (db.at Schema.votes) id message user v)) := by
  have ht := hdb.at_schema leaf_votes.mem
  have hnone : (db.at Schema.votes).records.filter (·.meets (userKey message user)) = [] :=
    List.filter_eq_nil_iff.2 habsent
  have hnone' : (db.at Schema.votes).records.filter (·.meets (keyAnd message user v)) = [] :=
    List.filter_eq_nil_iff.2 fun r hr => by simp [meets_keyAnd, habsent r hr]
  obtain ⟨hinsert, -⟩ := insert_cast (v := v) ht hl habsent hid s.now
    (some upsertConflict) (by simp [upsertConflict, userKey])
  have hbatch := (togglesRow message user v).batch_put hs hdb hl hnone' hinsert
    (keeps_newRecord hdb leaf_votes (marks_votes.complete (admits_value v)) (hknown.parents rfl) id)
  rwa [hnone] at hbatch

theorem batch_changes {r : Record} {w : VoteValue} (hr : r ∈ (db.at Schema.votes).records)
    (hm : r.meets (userKey message user)) (hw : r.get "value" = .integer w.toInt64) (hne : w ≠ v)
    {id : Int64} (hid : (db.at Schema.votes).nextId? = some id) :
    ∃ s', s.executeBatch (batch message user v) =
        (.ok [[toRow [("value", .integer w.toInt64)]], [], []], s') ∧
      Rests s' (db.replace (change (db.at Schema.votes) id r v)) := by
  have ht := hdb.at_schema leaf_votes.mem
  obtain ⟨hinsert, -⟩ := insert_change (v := v) ht hl hr hm hid s.now
  have hkeeps : Keeps db (db.replace (change (db.at Schema.votes) id r v)) :=
    keeps_withField hdb leaf_votes hl hr (c := valueColumn) (v := .integer v.toInt64)
      (by decide) rfl ht fun x hx => (TableState.mem_put.1 hx).imp_right
        fun hx => (TableState.mem_remove.1 hx).1
  have hbatch := (togglesRow message user v).batch_put hs hdb hl
    ((filter_keyAnd ht hl hr hm hw).trans (if_neg hne)) hinsert hkeeps
  rw [filter_key ht hl hr hm, List.map_singleton] at hbatch
  exact hw ▸ hbatch

theorem batch_full (hnone : (db.at Schema.votes).records.filter
      (·.meets (keyAnd message user v)) = []) (hid : (db.at Schema.votes).nextId? = none) :
    ∃ s', s.executeBatch (batch message user v) =
        (.error (.database upsertSql (.other "database or disk is full")), s') ∧
      Rests s' db :=
  (togglesRow message user v).batch_refused hs hdb hl hnone
    (insert_none_left (hdb.at_schema leaf_votes.mem) hid s.now)

end Batch

end Agora.VoteToggle
