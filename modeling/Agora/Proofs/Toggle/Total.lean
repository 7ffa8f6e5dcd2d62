import Mathlib.Algebra.BigOperators.Group.List.Basic
import Mathlib.Algebra.Ring.Int.Defs
import Agora.Proofs.Toggle.VoteRun
/-!
What a toggle answers is what it adds to the total of its message, also where it fails, whether for
want of an id, for a message or user that is not there, or because a transaction is open.
-/
namespace Agora.VoteToggle

open Agora.Store

def onMessage (message : Int64) : Pattern :=
  [("messageId", .integer message)]

def points (r : Record) : Int :=
  match r.get "value" with
  | .integer i => i.toInt
  | _ => 0

def total (t : TableState) (message : Int64) : Int :=
  ((t.records.filter (·.meets (onMessage message))).map points).sum

def gainOf : VoteOutcome → Int
  | .cast v => v.toInt64.toInt
  | .changed before v => v.toInt64.toInt - (before.map (·.toInt64.toInt)).getD 0
  | .withdrawn v => -v.toInt64.toInt
  | .rejected _ => 0

def gain : Reply → Int
  | .ok o => gainOf o
  | .error _ => 0

def only (message : Int64) (n : Int) (m : Int64) : Int :=
  if message = m then n else 0

def gained (message : Int64) (requests : List Request) (replies : List Reply) : Int :=
  ((requests.zip replies).map fun (r, reply) =>
    only r.message (gain reply) message).sum

section Tables

variable {t : TableState} {r : Record} {message user id : Int64} {v w : VoteValue}

theorem points_of_value (h : r.get "value" = .integer v.toInt64) : points r = v.toInt64.toInt := by
  rw [points, h]

theorem meets_onMessage (hm : r.meets (userKey message user)) (m : Int64) :
    r.meets (onMessage m) = decide (message = m) := by
  have hkey : (r.get "messageId").equals (.integer message) := by
    simp only [Record.meets, userKey, List.all_cons, Bool.and_eq_true] at hm
    exact hm.1
  have hon : r.meets (onMessage m) = (r.get "messageId").equals (.integer m) := by
    simp [Record.meets, onMessage]
  rw [hon, Bool.eq_iff_iff, decide_eq_true_eq]
  exact ⟨eq_of_equals_integer hkey, fun h => h ▸ hkey⟩

theorem total_of_perm {records : List Record} (h : t.records.Perm (r :: records)) (m : Int64) :
    total t m = total { t with records } m + if r.meets (onMessage m) then points r else 0 := by
  rw [total, ((h.filter _).map points).sum_eq, List.filter_cons, total]
  split
  · rw [List.map_cons, List.sum_cons, add_comm]
  · rw [add_zero]

theorem total_put (t : TableState) (r : Record) (m : Int64) :
    total (t.put r) m = total t m + if r.meets (onMessage m) then points r else 0 :=
  total_of_perm (t.put_perm r) m

@[simp] theorem total_useId (m : Int64) : total (t.useId id) m = total t m := rfl

theorem sum_points_bounds {records : List Record}
    (h : ∀ r ∈ records, -1 ≤ points r ∧ points r ≤ 1) :
    -(records.length : Int) ≤ (records.map points).sum ∧
      (records.map points).sum ≤ records.length := by
  induction records with
  | nil => simp
  | cons r records ih =>
    obtain ⟨hr, hrest⟩ := List.forall_mem_cons.1 h
    have := ih hrest
    rw [List.map_cons, List.sum_cons, List.length_cons]
    omega

variable (ht : t.schema = Schema.votes)
include ht

theorem total_bounds (hl : Lawful t) (m : Int64) :
    -(t.records.length : Int) ≤ total t m ∧ total t m ≤ t.records.length := by
  have hpoints : ∀ r ∈ t.records.filter (·.meets (onMessage m)), -1 ≤ points r ∧ points r ≤ 1 := by
    intro r hr
    have hproper : Proper Schema.votes r := ht ▸ hl.proper r (List.mem_of_mem_filter hr)
    obtain ⟨v, hv⟩ := eq_of_admits (hproper.values valueColumn (by decide))
    rw [points_of_value hv]
    cases v <;> decide
  have hfewer := List.length_filter_le (·.meets (onMessage m)) t.records
  have hsum := sum_points_bounds hpoints
  rw [total]
  omega

theorem total_cast (m : Int64) :
    total (cast t id message user v) m =
      total t m + if message = m then v.toInt64.toInt else 0 := by
  have hcomplete := complete_votes ht message user v
  have hvalue : (newRecord id (values message user v)).get "value" = .integer v.toInt64 :=
    hcomplete.get_newRecord (regular_votes ht) id (c := valueColumn)
      (by simp [values, userValues])
  have hkey : (newRecord id (values message user v)).meets (userKey message user) := by
    rw [meets_userKey "value", show entryOf "value" (newRecord id (values message user v)) = _ from
      entryOf_newRecord (regular_votes ht) hcomplete id]
    exact on_self _ _ _
  rw [cast, total_put, total_useId, meets_onMessage hkey, points_of_value hvalue]
  simp only [decide_eq_true_eq]

variable (hl : Lawful t) (hr : r ∈ t.records) (hm : r.meets (userKey message user))
include hl hr hm

theorem total_without (hw : r.get "value" = .integer w.toInt64) (m : Int64) :
    total t m = total (t.without (userKey message user)) m +
      if message = m then w.toInt64.toInt else 0 := by
  have hperm : t.records.Perm (r :: (t.without (userKey message user)).records) := by
    have hsplit := List.filter_append_perm (·.meets (userKey message user)) t.records
    rw [filter_key ht hl hr hm] at hsplit
    exact hsplit.symm
  rw [total_of_perm hperm, meets_onMessage hm, points_of_value hw]
  simp only [decide_eq_true_eq]
  rfl

theorem remove_eq_without : t.remove r.id = t.without (userKey message user) := by
  simp only [TableState.remove, TableState.without]
  congr 1
  refine List.filter_congr fun x hx => ?_
  rw [Bool.eq_iff_iff, Bool.not_eq_true', decide_eq_true_eq, ← Bool.not_eq_true, not_iff_not]
  constructor
  · exact fun hid => hl.eq_of_id hx hr hid ▸ hm
  · intro hxm
    have hxr : x ∈ t.records.filter (·.meets (userKey message user)) :=
      List.mem_filter.2 ⟨hx, hxm⟩
    rw [filter_key ht hl hr hm, List.mem_singleton] at hxr
    rw [hxr]

theorem total_change (hw : r.get "value" = .integer w.toInt64) (m : Int64) :
    total (change t id r v) m =
      total t m + if message = m then v.toInt64.toInt - w.toInt64.toInt else 0 := by
  have hproper : Proper Schema.votes r := ht ▸ hl.proper r hr
  have hreg := regular_of_mem leaf_votes.mem
  have hkey : (r.withField "value" (.integer v.toInt64)).meets (userKey message user) :=
    (hproper.meets_withField hreg (c := valueColumn) (by decide)
      (by simp [userKey, valueColumn])).trans hm
  have hvalue : (r.withField "value" (.integer v.toInt64)).get "value" = .integer v.toInt64 :=
    (hproper.get_withField hreg (c := valueColumn) (by decide) _).trans (if_pos rfl)
  have hremove : (t.useId id).remove r.id = (t.without (userKey message user)).useId id :=
    congrArg (·.useId id) (remove_eq_without ht hl hr hm)
  rw [change, hremove, total_put, total_useId, meets_onMessage hkey, points_of_value hvalue,
    total_without ht hl hr hm hw]
  simp only [decide_eq_true_eq]
  split <;> omega

end Tables

/-- From one store to another, the votes on each message have changed by some number and the other
tables not at all. -/
structure Changes (s s' : Agora.Store) (n : Int64 → Int) : Prop where
  ready : Ready s'
  lawful : Lawful (s'.database.at Schema.votes)
  total : ∀ m, total (s'.database.at Schema.votes) m =
    total (s.database.at Schema.votes) m + n m
  other : ∀ t ∈ Schema.tables, t ≠ Schema.votes → s'.database.at t = s.database.at t

namespace Changes

variable {s s' s'' : Agora.Store} {n n' : Int64 → Int}

theorem trans (h : Changes s s' n) (h' : Changes s' s'' n') :
    Changes s s'' fun m => n m + n' m where
  ready := h'.ready
  lawful := h'.lawful
  total m := by rw [h'.total, h.total, add_assoc]
  other t ht hne := (h'.other t ht hne).trans (h.other t ht hne)

theorem of_same (hs : Ready s) (hl : Lawful (s.database.at Schema.votes))
    (hreadable : s'.isReadable) (hsame : s'.database = s.database) : Changes s s' fun _ => 0 where
  ready := ⟨hreadable, hsame ▸ hs.shaped⟩
  lawful := hsame ▸ hl
  total m := by rw [hsame, add_zero]
  other t _ _ := by rw [hsame]

theorem of_replace (hs : Ready s) {u : TableState} (hu : u.schema = Schema.votes) (hl : Lawful u)
    (hs' : Rests s' (s.database.replace u))
    (htotal : ∀ m, VoteToggle.total u m = VoteToggle.total (s.database.at Schema.votes) m + n m) :
    Changes s s' n := by
  have hmem : u.schema ∈ Schema.tables := hu ▸ leaf_votes.mem
  have hat : (s.database.replace u).at Schema.votes = u := hu ▸ hs.shaped.at_replace_self hmem
  refine ⟨hs'.ready (hs.shaped.replace hmem), ?_, ?_, ?_⟩
  · rw [hs'.database, hat]
    exact hl
  · rw [hs'.database, hat]
    exact htotal
  · intro t ht hne
    rw [hs'.database]
    exact hs.shaped.at_replace_of_ne hmem ht (hu ▸ hne)

end Changes

section Step

variable {s : Agora.Store} (hs : Ready s) (hl : Lawful (s.database.at Schema.votes))
include hs hl

theorem batch_total (message user : Int64) (v : VoteValue) :
    ∃ s', (∃ results o, s.executeBatch (batch message user v) = (.ok results, s') ∧
        transition (results.head?.bind List.head?) v = outcome o v ∧
        Changes s s' (only message (gainOf (outcome o v)))) ∨
      ∃ e, s.executeBatch (batch message user v) = (.error e, s') ∧ Changes s s' fun _ => 0 := by
  -- a batch cannot begin within a transaction
  by_cases hbusy : s.saved.isSome
  · obtain ⟨e, he⟩ := executeBatch_busy hs.readable hbusy (batch message user v)
    exact ⟨s, .inr ⟨e, he, .of_same hs hl hs.readable rfl⟩⟩
  have hrests : Rests s s.database := ⟨hs.readable, by simpa using hbusy, rfl⟩
  have ht := hs.shaped.at_schema leaf_votes.mem
  have same {s' : Agora.Store} (hs' : Rests s' s.database) : Changes s s' fun _ => 0 :=
    .of_same hs hl hs'.readable hs'.database
  rcases key_cases ht hl message user with ⟨-, habsent⟩ | ⟨w, -, r, hr, hm, hw⟩
  · have hnone : (s.database.at Schema.votes).records.filter
        (·.meets (keyAnd message user v)) = [] :=
      List.filter_eq_nil_iff.2 fun r hr => by simp [meets_keyAnd, habsent r hr]
    cases hid : (s.database.at Schema.votes).nextId? with
    | none =>
      obtain ⟨s', hbatch, hs'⟩ := batch_full hrests hs.shaped hl hnone hid
      exact ⟨s', .inr ⟨_, hbatch, same hs'⟩⟩
    | some id =>
      obtain ⟨hinsert, hlawful⟩ := insert_cast (v := v) ht hl habsent hid s.now
        (some upsertConflict) (by simp [upsertConflict, userKey])
      -- nothing says that the message and the user exist, so the vote may be refused
      obtain ⟨s', ⟨hbatch, hs'⟩ | ⟨e, hbatch, hs'⟩⟩ :=
        (togglesRow message user v).batch_put_or_refused hrests hs.shaped hl hnone hinsert
      · rw [List.filter_eq_nil_iff.2 habsent] at hbatch
        exact ⟨s', .inl ⟨_, none, hbatch, rfl, .of_replace hs (u := cast _ id message user v) ht
          hlawful hs' (total_cast ht)⟩⟩
      · exact ⟨s', .inr ⟨e, hbatch, same hs'⟩⟩
  · by_cases hwv : w = v
    · subst hwv
      obtain ⟨s', hbatch, hs'⟩ := batch_withdraws hrests hs.shaped hl hr hm hw
      refine ⟨s', .inl ⟨_, some w, hbatch, transition_row w w, ?_⟩⟩
      refine .of_replace hs (u := (s.database.at Schema.votes).without _) ht (hl.without _) hs'
        fun m => ?_
      rw [total_without ht hl hr hm hw m, show outcome (some w) w = .withdrawn w from if_pos rfl,
        gainOf, only]
      split <;> omega
    · cases hid : (s.database.at Schema.votes).nextId? with
      | none =>
        have hnone := (filter_keyAnd (v := v) ht hl hr hm hw).trans (if_neg hwv)
        obtain ⟨s', hbatch, hs'⟩ := batch_full hrests hs.shaped hl hnone hid
        exact ⟨s', .inr ⟨_, hbatch, same hs'⟩⟩
      | some id =>
        obtain ⟨s', hbatch, hs'⟩ := batch_changes hrests hs.shaped hl hr hm hw hwv hid
        refine ⟨s', .inl ⟨_, some w, hbatch, transition_row w v, ?_⟩⟩
        have hlawful := (insert_change (v := v) ht hl hr hm hid s.now).2
        refine .of_replace hs (u := change _ id r v) ht hlawful hs' fun m => ?_
        rw [total_change ht hl hr hm hw, show outcome (some w) v = .changed (some w) v from
          if_neg hwv]
        rfl

end Step

section Run

variable {σ : Type} (synthesizer : Synthesizer σ) (options : CompilerOptions)
  {w : World σ Agora.Store}

theorem request_total (hs : Ready w.store) (hl : Lawful (w.store.database.at Schema.votes))
    (r : Request) : ∃ reply w', (r.task options).run (onStore synthesizer) w = (reply, w') ∧
      Changes w.store w'.store (only r.message (gain reply)) ∧
      ∀ v, reply ≠ .ok (.changed none v) := by
  have hzero : only r.message 0 = fun _ => 0 := funext fun m => ite_self 0
  rcases ofRaw?_cases r.raw with ⟨-, -, hraw⟩ | ⟨v, hraw, -⟩
  · refine ⟨.ok (.rejected r.raw), w, ?_, ?_, by simp⟩
    · simp only [Request.task, toggle, hraw]
      rfl
    · rw [show gain (.ok (.rejected r.raw)) = 0 from rfl, hzero]
      exact .of_same hs hl hs.readable rfl
  · rw [Request.task_eq options hraw, run_atomic]
    obtain ⟨s', ⟨results, o, hbatch, htransition, hchanges⟩ | ⟨e, hbatch, hchanges⟩⟩ :=
      batch_total hs hl r.message r.user v
    · refine ⟨.ok (outcome o v), { w with store := s' }, ?_, hchanges, ?_⟩
      · rw [hbatch, ← htransition]
        rfl
      · intro u hu
        cases o with
        | none => cases hu
        | some b => by_cases hb : b = v <;> simp [outcome, hb] at hu
    · refine ⟨.error (.executionFailed e), { w with store := s' }, ?_, ?_, by simp⟩
      · rw [hbatch]
        rfl
      · rw [show gain (.error (.executionFailed e)) = 0 from rfl, hzero]
        exact hchanges

theorem runEach_total (requests : List Request) (hs : Ready w.store)
    (hl : Lawful (w.store.database.at Schema.votes)) :
    let run := Task.runEach (onStore synthesizer) (requests.map (·.task options)) w
    Changes w.store run.2.store (gained · requests run.1) ∧
      ∀ reply ∈ run.1, ∀ v, reply ≠ .ok (.changed none v) := by
  induction requests generalizing w with
  | nil => exact ⟨.of_same hs hl hs.readable rfl, nofun⟩
  | cons r rs ih =>
    obtain ⟨reply, w', hrun, hchanges, hpresent⟩ := request_total synthesizer options hs hl r
    obtain ⟨hrest, hpresent'⟩ := ih hchanges.ready hchanges.lawful
    rw [List.map_cons, Task.runEach_cons _ hrun]
    refine ⟨?_, ?_⟩
    · have := hchanges.trans hrest
      simpa [gained] using this
    · exact List.forall_mem_cons.2 ⟨hpresent, hpresent'⟩

end Run

end Agora.VoteToggle
