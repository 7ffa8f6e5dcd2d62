import Agora.Proofs.Toggle.VoteBatch

namespace Agora.VoteToggle

open Agora.Store

def outcome (before : Option VoteValue) (v : VoteValue) : VoteOutcome :=
  match before with
  | none => .cast v
  | some w => if w = v then .withdrawn v else .changed (some w) v

def next (before : Option VoteValue) (v : VoteValue) : Option VoteValue :=
  if before = some v then none else some v

theorem toInt64_injective {v w : VoteValue} (h : v.toInt64 = w.toInt64) : v = w := by
  cases v <;> cases w <;> first | rfl | cases h

theorem ofRaw?_cases (raw : Int64) :
    (raw ≠ 1 ∧ raw ≠ -1 ∧ VoteValue.ofRaw? raw = none) ∨
      ∃ v : VoteValue, raw = v.toInt64 ∧ VoteValue.ofRaw? raw = some v := by
  unfold VoteValue.ofRaw?
  by_cases hup : raw = 1
  · exact .inr ⟨.up, hup, if_pos hup⟩
  · by_cases hdown : raw = -1
    · exact .inr ⟨.down, hdown, by simp [hdown]⟩
    · exact .inl ⟨hup, hdown, by simp [hup, hdown]⟩

def after (message user : Int64) (S : Set Entry) : VoteOutcome → Set Entry
  | .cast v => insert (.integer message, .integer user, .integer v.toInt64) S
  | .changed _ v =>
      (fun x => if x.on message user then (x.1, x.2.1, .integer v.toInt64) else x) '' S
  | .withdrawn _ => {x ∈ S | x.on message user = false}
  | .rejected _ => S

def Holds (S : Set Entry) (message user : Int64) : Option VoteValue → Prop
  | none => ∀ x ∈ S, x.on message user = false
  | some v => ∃ x ∈ S, x.on message user ∧ x.2.2 = .integer v.toInt64

def valuesOf (o : Option VoteValue) : List Value :=
  (o.map fun v => .integer v.toInt64).toList

theorem valuesOf_injective {o o' : Option VoteValue} (h : valuesOf o = valuesOf o') : o = o' := by
  rcases o with - | - | - <;> rcases o' with - | - | - <;> simp [valuesOf, VoteValue.toInt64] at h ⊢

section Machine

variable {S : Set Entry} {message user : Int64} {o : Option VoteValue} {v : VoteValue}

theorem on_self (message user : Int64) (v : Value) :
    Entry.on message user (.integer message, .integer user, v) := by
  simp [Entry.on, Value.equals]

theorem Holds.after (h : Holds S message user o) (v : VoteValue) :
    Holds (after message user S (outcome o v)) message user (next o v) := by
  cases o with
  | none => exact ⟨_, Set.mem_insert _ _, on_self _ _ _, rfl⟩
  | some w =>
    by_cases hw : w = v
    · subst hw
      have hnext : next (some w) w = none := if_pos rfl
      have houtcome : outcome (some w) w = .withdrawn w := if_pos rfl
      rw [hnext, houtcome]
      exact fun x hx => hx.2
    · have hnext : next (some w) v = some v := if_neg fun he => hw (Option.some.inj he)
      have houtcome : outcome (some w) v = .changed (some w) v := if_neg hw
      obtain ⟨x, hx, hon, -⟩ := h
      rw [hnext, houtcome]
      exact ⟨_, ⟨x, hx, if_pos hon⟩, hon, rfl⟩

theorem Holds.after_other {message' user' : Int64} (hne : (message', user') ≠ (message, user))
    (h : Holds S message' user' o) (out : VoteOutcome) :
    Holds (VoteToggle.after message user S out) message' user' o := by
  have hoff {x : Entry} (hx : x.on message' user') : x.on message user = false := by
    rw [← Bool.not_eq_true]
    intro hon
    obtain ⟨rfl, rfl⟩ := Entry.on_unique hx hon
    exact hne rfl
  have hoff' {x : Entry} (hx : x.on message user) : x.on message' user' = false := by
    rw [← Bool.not_eq_true]
    intro hon
    simp [hoff hon] at hx
  cases o with
  | none =>
    intro x hx
    cases out with
    | cast w =>
      rcases hx with rfl | hx
      · exact hoff' (on_self _ _ _)
      · exact h x hx
    | changed b w =>
      obtain ⟨y, hy, rfl⟩ := hx
      dsimp only
      split
      · exact h y hy
      · exact h y hy
    | withdrawn w => exact h x hx.1
    | rejected raw => exact h x hx
  | some w =>
    obtain ⟨x, hx, hon, hval⟩ := h
    refine ⟨x, ?_, hon, hval⟩
    cases out with
    | cast u => exact .inr hx
    | changed b u => exact ⟨x, hx, if_neg (by simp [hoff hon])⟩
    | withdrawn u => exact ⟨hx, hoff hon⟩
    | rejected raw => exact hx

end Machine

section Tables

variable {t t' : TableState} {message user id : Int64} {v : VoteValue} {o : Option VoteValue}

theorem entries_cast (ht : t.schema = Schema.votes) :
    entries "value" (cast t id message user v) =
      after message user (entries "value" t) (.cast v) := by
  have hentry : entryOf "value" (newRecord id (values message user v)) =
      (.integer message, .integer user, .integer v.toInt64) :=
    entryOf_newRecord (regular_votes ht) (complete_votes ht message user v) id
  rw [cast, entries_put, entries_useId, hentry, after]

theorem Holds.absent (h : Holds (entries "value" t) message user none) :
    ∀ r ∈ t.records, ¬ r.meets (userKey message user) := by
  intro r hr hm
  rw [meets_userKey "value", h _ (mem_entries_of hr)] at hm
  cases hm

section

variable (ht : t.schema = Schema.votes) (hl : Lawful t)
include ht hl

theorem entries_change {old : Record} (hold : old ∈ t.records)
    (hm : old.meets (userKey message user)) (b : Option VoteValue) :
    entries "value" (change t id old v) =
      after message user (entries "value" t) (.changed b v) := by
  have hproper : Proper Schema.votes old := ht ▸ hl.proper old hold
  have hreg := regular_of_mem leaf_votes.mem
  have hget := hproper.get_withField hreg (c := valueColumn) (v := .integer v.toInt64) (by decide)
  have hentry : entryOf "value" (old.withField "value" (.integer v.toInt64)) =
      (old.get "messageId", old.get "userId", .integer v.toInt64) := by
    simp only [entryOf, show ("value" : String) = valueColumn.name from rfl, hget]
    rfl
  have hon : (entryOf "value" old).on message user := (meets_userKey "value" old).symm.trans hm
  rw [change, entries_put, hentry]
  ext x
  simp only [after, Set.mem_insert_iff, Set.mem_image, mem_entries, TableState.mem_remove,
    TableState.useId_records]
  constructor
  · rintro (rfl | ⟨r, ⟨hr, hne⟩, rfl⟩)
    · exact ⟨_, ⟨old, hold, rfl⟩, if_pos hon⟩
    · refine ⟨_, ⟨r, hr, rfl⟩, if_neg fun hron => hne ?_⟩
      have hrm : r ∈ t.records.filter (·.meets (userKey message user)) :=
        List.mem_filter.2 ⟨hr, (meets_userKey "value" r).trans hron⟩
      rw [filter_key ht hl hold hm, List.mem_singleton] at hrm
      rw [hrm]
  · rintro ⟨_, ⟨r, hr, rfl⟩, rfl⟩
    by_cases hron : (entryOf "value" r).on message user
    · have hrm : r ∈ t.records.filter (·.meets (userKey message user)) :=
        List.mem_filter.2 ⟨hr, (meets_userKey "value" r).trans hron⟩
      rw [filter_key ht hl hold hm, List.mem_singleton] at hrm
      rw [if_pos hron, hrm]
      exact .inl rfl
    · rw [if_neg hron]
      refine .inr ⟨r, ⟨hr, fun hid => hron ?_⟩, rfl⟩
      rw [hl.eq_of_id hr hold hid]
      exact hon

theorem key_cases (message user : Int64) :
    (Holds (entries "value" t) message user none ∧
        ∀ r ∈ t.records, ¬ r.meets (userKey message user)) ∨
      ∃ v, Holds (entries "value" t) message user (some v) ∧
        ∃ r ∈ t.records, r.meets (userKey message user) ∧ r.get "value" = .integer v.toInt64 := by
  by_cases h : ∃ r ∈ t.records, r.meets (userKey message user)
  · obtain ⟨r, hr, hm⟩ := h
    have hproper : Proper Schema.votes r := ht ▸ hl.proper r hr
    obtain ⟨v, hv⟩ := eq_of_admits (hproper.values valueColumn (by decide))
    have hholds : Holds (entries "value" t) message user (some v) :=
      ⟨_, mem_entries_of hr, (meets_userKey "value" r).symm.trans hm, hv⟩
    exact .inr ⟨v, hholds, r, hr, hm, hv⟩
  · have habsent : ∀ r ∈ t.records, ¬ r.meets (userKey message user) :=
      fun r hr hm => h ⟨r, hr, hm⟩
    refine .inl ⟨?_, habsent⟩
    rintro _ ⟨r, hr, rfl⟩
    rw [← Bool.not_eq_true, ← meets_userKey]
    exact habsent r hr

theorem exists_holds (message user : Int64) :
    ∃ o, Holds (entries "value" t) message user o := by
  rcases key_cases ht hl message user with ⟨h, -⟩ | ⟨v, h, -⟩
  · exact ⟨_, h⟩
  · exact ⟨_, h⟩

theorem Holds.held (h : Holds (entries "value" t) message user o) :
    held "value" t message user = valuesOf o := by
  cases o with
  | none => exact held_eq_nil.2 h
  | some v =>
    obtain ⟨_, ⟨r, hr, rfl⟩, hon, hv⟩ := h
    have hm := (meets_userKey "value" r).trans hon
    rw [Store.held, filter_key ht hl hr hm, List.map_singleton]
    exact congrArg ([·]) hv

end

end Tables

section Step

variable {σ : Type}

theorem run_atomic (synthesizer : Synthesizer σ) (message user : Int64) (v : VoteValue)
    (w : World σ Agora.Store) :
    (atomic message user v).run.run (onStore synthesizer) w =
      (((w.store.executeBatch (batch message user v)).1.mapError QueryError.executionFailed).map
          fun results => transition (results.head?.bind List.head?) v,
        { w with store := (w.store.executeBatch (batch message user v)).2 }) :=
  run_executeBatch synthesizer _ _ w

theorem transition_row (w v : VoteValue) :
    transition (some (toRow [("value", .integer w.toInt64)])) v = outcome (some w) v := by
  cases w <;> cases v <;> decide

variable {db : Database} {message user : Int64}

theorem filter_keyAnd_of_holds {t : TableState} (ht : t.schema = Schema.votes) (hl : Lawful t)
    {o : Option VoteValue} {v : VoteValue} (h : Holds (entries "value" t) message user o)
    (hne : o ≠ some v) : t.records.filter (·.meets (keyAnd message user v)) = [] := by
  have hheld := h.held ht hl
  refine List.filter_eq_nil_iff.2 fun r hr hm => hne ?_
  rw [meets_keyAnd, Bool.and_eq_true] at hm
  obtain ⟨w, hw⟩ := eq_of_admits ((ht ▸ hl.proper r hr : Proper Schema.votes r).values
    valueColumn (by decide))
  have hwv : w = v := by
    have hequals := hm.2
    rw [show r.get "value" = .integer w.toInt64 from hw] at hequals
    revert hequals
    cases w <;> cases v <;> decide
  have hone : held "value" t message user = valuesOf (some w) := by
    rw [held, filter_key ht hl hr hm.1, List.map_singleton]
    exact congrArg ([·]) hw
  exact hwv ▸ valuesOf_injective (hheld.symm.trans hone)

theorem atomic_step (synthesizer : Synthesizer σ) (w : World σ Agora.Store)
    (hs : Rests w.store db) (hdb : Shaped db) (hl : Lawful (db.at Schema.votes))
    (hknown : Known db message user) (v : VoteValue) {o : Option VoteValue}
    (ho : Holds (entries "value" (db.at Schema.votes)) message user o) :
    ∃ s', if o ≠ some v ∧ (db.at Schema.votes).nextId? = none then
        (atomic message user v).run.run (onStore synthesizer) w =
            (.error (noIdLeft upsertSql), { w with store := s' }) ∧ Rests s' db
      else ∃ db', (atomic message user v).run.run (onStore synthesizer) w =
            (.ok (outcome o v), { w with store := s' }) ∧ Rests s' db' ∧
          Becomes Schema.votes "value" (after message user
            (entries "value" (db.at Schema.votes)) (outcome o v)) db db' := by
  have ht := hdb.at_schema leaf_votes.mem
  -- a vote that is withdrawn needs no id; one that is changed does
  by_cases hfull : o ≠ some v ∧ (db.at Schema.votes).nextId? = none
  · obtain ⟨s', hbatch, hrests⟩ := batch_full hs hdb hl
      (filter_keyAnd_of_holds ht hl ho hfull.1) hfull.2
    refine ⟨s', ?_⟩
    rw [if_pos hfull, run_atomic, hbatch]
    exact ⟨rfl, hrests⟩
  · have hroom : o ≠ some v → ∃ id, (db.at Schema.votes).nextId? = some id := fun hne =>
      Option.ne_none_iff_exists'.1 fun hid => hfull ⟨hne, hid⟩
    simp only [if_neg hfull, run_atomic]
    rcases key_cases ht hl message user with ⟨hnone, habsent⟩ | ⟨b, hb, r, hr, hm, hval⟩
    · obtain rfl : o = none := valuesOf_injective ((ho.held ht hl).symm.trans (hnone.held ht hl))
      obtain ⟨id, hid⟩ := hroom (by simp)
      obtain ⟨s', hbatch, hrests⟩ := batch_casts hs hdb hl habsent hknown hid v
      have hlawful := (insert_cast (v := v) ht hl habsent hid "" none (by simp)).2
      rw [hbatch]
      exact ⟨s', _, rfl, hrests, cast _ id message user v, ht, hlawful, entries_cast ht, rfl⟩
    · obtain rfl : o = some b := valuesOf_injective ((ho.held ht hl).symm.trans (hb.held ht hl))
      by_cases hbv : b = v
      · subst hbv
        obtain ⟨s', hbatch, hrests⟩ := batch_withdraws hs hdb hl hr hm hval
        have houtcome : outcome (some b) b = .withdrawn b := if_pos rfl
        rw [hbatch, houtcome]
        refine ⟨s', _, ?_, hrests, (db.at Schema.votes).without (userKey message user), ht,
          hl.without _, entries_without, rfl⟩
        exact congrArg (fun out => (Except.ok out, { w with store := s' }))
          ((transition_row b b).trans houtcome)
      · obtain ⟨id, hid⟩ := hroom fun he => hbv (Option.some.inj he)
        obtain ⟨s', hbatch, hrests⟩ := batch_changes hs hdb hl hr hm hval hbv hid
        have houtcome : outcome (some b) v = .changed (some b) v := if_neg hbv
        have hlawful := (insert_change (v := v) ht hl hr hm hid "").2
        rw [hbatch, houtcome]
        refine ⟨s', _, ?_, hrests, change _ id r v, ht, hlawful, entries_change ht hl hr hm _, rfl⟩
        exact congrArg (fun out => (Except.ok out, { w with store := s' }))
          ((transition_row b v).trans houtcome)

end Step

section OneVote

variable {last id : Int64} {v : VoteValue}

def voted (last id : Int64) (v : VoteValue) : Database :=
  seeded (cast { schema := Schema.votes, lastId := last } id 1 7 v) { schema := Schema.reactions }

theorem shaped_voted : Shaped (voted last id v) :=
  shaped_seeded rfl rfl

theorem voted_votes : (voted last id v).at Schema.votes =
    cast { schema := Schema.votes, lastId := last } id 1 7 v :=
  seeded_votes rfl rfl

theorem lawful_voted
    (hid : ({ schema := Schema.votes, lastId := last } : TableState).nextId? = some id) :
    Lawful ((voted last id v).at Schema.votes) :=
  voted_votes ▸ lawful_cast_first last id 1 7 v hid

theorem known_voted : Known (voted last id v) 1 7 :=
  known_seeded _ _

theorem holds_voted : Holds (entries "value" ((voted last id v).at Schema.votes)) 1 7 (some v) := by
  rw [voted_votes, entries_cast rfl]
  exact ⟨_, Set.mem_insert _ _, on_self _ _ _, rfl⟩

end OneVote

end Agora.VoteToggle
