import Agora.Proofs.Toggle.Compiled

namespace Agora

open Store

def literalKey (message user : Int64) : List Condition :=
  [.equal (.columnOrText "messageId") (.value (.integer message)),
    .equal (.columnOrText "userId") (.value (.integer user))]

namespace VoteToggle

variable {sql : String} {message user : Int64} {v : VoteValue}

theorem keyed_literalKey (message user : Int64) :
    Keyed (([] : List Scalar).map .ofScalar) Schema.votes (literalKey message user)
      (userKey message user) :=
  .cons marks_votes.isColumn_message (.value _) rfl <|
    .cons marks_votes.isColumn_user (.value _) rfl .nil

def findStatement (message user : Int64) : Statement :=
  .select (selectOf Schema.votes "votes" (.column none "value") "value" (literalKey message user))

def insertStatement (message user : Int64) (v : VoteValue) : Statement :=
  markStatement Schema.votes valueColumn message user (.integer v.toInt64)

def updateStatement (message user : Int64) (v : VoteValue) : Statement :=
  .update Schema.votes.name [("value", .value (.integer v.toInt64))] (literalKey message user)

def deleteStatement (message user : Int64) : Statement :=
  .delete Schema.votes.name (literalKey message user)

theorem carries_find (h : Reads sql (findStatement message user) 0) :
    Carries sql (.findVote message user) := by
  intro s db hs hdb _
  obtain rfl := hs.database
  have hexecute : s.execute ⟨sql, []⟩ = _ := execute_select h (hs.ready hdb.shaped) leaf_votes.mem
    (keyed_literalKey message user) marks_votes.isColumn_third
  refine ⟨.ok _, s, s.database, hexecute, hs, .findVote ?_⟩
  simp only [held, List.map_map]
  rfl

theorem carries_delete (h : Reads sql (deleteStatement message user) 0) :
    Carries sql (.deleteVote message user) := by
  intro s db hs hdb _
  obtain rfl := hs.database
  have hexecute : s.execute ⟨sql, []⟩ = _ := execute_delete h (hs.ready hdb.shaped) leaf_votes
    hdb.votes (keyed_literalKey message user)
  refine ⟨.ok _, _, _, hexecute, hs.changedTo _ _, .deleteVote (v := .up) ?_⟩
  exact .of_replace (hdb.shaped.at_schema leaf_votes.mem) (hdb.votes.without _) entries_without

theorem carries_update (h : Reads sql (updateStatement message user v) 0) :
    Carries sql (.updateVote message user v.toInt64) := by
  rintro s db hs hdb ⟨b, _, ⟨r, hr, rfl⟩, hon, -⟩
  obtain rfl := hs.database
  have ht := hdb.shaped.at_schema leaf_votes.mem
  have hm := (meets_userKey "value" r).trans hon
  have hplain : valueColumn ∈ plain Schema.votes := by decide
  obtain ⟨hupdate, hlawful⟩ := update_withField (c := valueColumn) (v := .integer v.toInt64)
    hdb.votes (regular_votes ht) hr (by rw [ht]; exact hplain) (admits_value v) (by rw [ht]; decide)
  have hkeeps := keeps_withField (u := ((s.database.at Schema.votes).remove r.id).put
      (r.withField "value" (.integer v.toInt64))) hdb.shaped leaf_votes hdb.votes hr hplain rfl ht
    fun x hx => (TableState.mem_put.1 hx).imp_right fun hx => (TableState.mem_remove.1 hx).1
  have hexecute : s.execute ⟨sql, []⟩ = _ := execute_update h (hs.ready hdb.shaped) leaf_votes
    (keyed_literalKey message user) (filter_key ht hdb.votes hr hm) (by decide +kernel) (.value _)
    hupdate hkeeps
  refine ⟨.ok _, _, _, hexecute, hs.changedTo _ _, .updateVote rfl ?_⟩
  have hentries : entries "value" (change (s.database.at Schema.votes) 0 r v) = _ :=
    entries_change ht hdb.votes hr hm none
  exact .of_replace ht hlawful hentries

theorem execute_cast {s : Agora.Store} {db : Database}
    (h : Reads sql (insertStatement message user v) 0)
    (hs : Rests s db) (hdb : Orderly db) (hknown : Known db message user)
    (hfree : Holds (entries "value" (db.at Schema.votes)) message user none) {id : Int64}
    (hid : (db.at Schema.votes).nextId? = some id) : s.execute ⟨sql, []⟩ =
      (.ok [], changedTo s 1 (db.replace (cast (db.at Schema.votes) id message user v))) := by
  obtain ⟨hinsert, -⟩ := insert_cast (v := v) (hdb.shaped.at_schema leaf_votes.mem) hdb.votes
    hfree.absent hid s.now none (by simp)
  exact marks_votes.execute_left h hs hdb.shaped (admits_value v) rfl hknown hinsert

theorem carries_insert (h : Reads sql (insertStatement message user v) 0) :
    Carries sql (.insertVote message user v.toInt64) := by
  rintro s db hs hdb ⟨hknown, hfree⟩
  have ht := hdb.shaped.at_schema leaf_votes.mem
  cases hid : (db.at Schema.votes).nextId? with
  | none =>
    have hexecute := marks_votes.execute_full h hs hdb.shaped (admits_value v) hid
    exact ⟨.error _, _, _, hexecute, hs.unchanged, .insertVoteFull hid⟩
  | some id =>
    refine ⟨.ok _, _, _, execute_cast h hs hdb hknown hfree hid, hs.changedTo _ _,
      .insertVote rfl ?_⟩
    exact .of_replace ht (insert_cast ht hdb.votes hfree.absent hid "" none (by simp)).2
      (entries_cast ht)

end VoteToggle

namespace ReactionToggle

variable {sql : String} {message user : Int64} {emoji : String}

def literalConditions (message user : Int64) (emoji : String) : List Condition :=
  literalKey message user ++ [.equal (.column none "emoji") (.value (.text emoji))]

theorem keyed_literalConditions (message user : Int64) (emoji : String) :
    Keyed (([] : List Scalar).map .ofScalar) Schema.reactions
      (literalConditions message user emoji) (key message user emoji) :=
  .cons marks_reactions.isColumn_message (.value _) rfl <|
    .cons marks_reactions.isColumn_user (.value _) rfl <|
    .cons marks_reactions.isColumn_third (.value _) rfl .nil

def findStatement (message user : Int64) (emoji : String) : Statement :=
  .select (selectOf Schema.reactions "reactions" (.column none "id") "id"
    (literalConditions message user emoji))

def insertStatement (message user : Int64) (emoji : String) : Statement :=
  markStatement Schema.reactions emojiColumn message user (.text emoji)

def deleteStatement (message user : Int64) (emoji : String) : Statement :=
  .delete Schema.reactions.name (literalConditions message user emoji)

theorem execute_find_free {s : Agora.Store} {db : Database}
    (h : Reads sql (findStatement message user emoji) 0) (hs : Rests s db) (hdb : Shaped db)
    (hfree : Holds (entries "emoji" (db.at Schema.reactions)) message user emoji false) :
    s.execute ⟨sql, []⟩ = (.ok [], s) := by
  obtain rfl := hs.database
  have hexecute : s.execute ⟨sql, []⟩ = _ := execute_select h (hs.ready hdb) leaf_reactions.mem
    (keyed_literalConditions message user emoji) isColumn_id
  rw [hexecute, List.filter_eq_nil_iff.2 hfree.absent]
  rfl

theorem carries_find (h : Reads sql (findStatement message user emoji) 0) :
    Carries sql (.findReaction message user emoji) := by
  intro s db hs hdb _
  obtain rfl := hs.database
  have hexecute : s.execute ⟨sql, []⟩ = _ := execute_select h (hs.ready hdb.shaped)
    leaf_reactions.mem (keyed_literalConditions message user emoji) isColumn_id
  refine ⟨.ok _, s, s.database, hexecute, hs, .findReaction ?_⟩
  obtain ⟨b, hb⟩ := exists_holds (s.database.at Schema.reactions) message user emoji
  suffices hfound : (!((s.database.at Schema.reactions).records.filter
      (·.meets (key message user emoji))).isEmpty) = b by
    rw [List.isEmpty_map, hfound]
    exact hb
  rw [Bool.eq_iff_iff, hb.exists_iff]
  simp

theorem carries_delete (h : Reads sql (deleteStatement message user emoji) 0) :
    Carries sql (.deleteReaction message user emoji) := by
  intro s db hs hdb _
  obtain rfl := hs.database
  have hexecute : s.execute ⟨sql, []⟩ = _ := execute_delete h (hs.ready hdb.shaped) leaf_reactions
    hdb.reactions (keyed_literalConditions message user emoji)
  refine ⟨.ok _, _, _, hexecute, hs.changedTo _ _, .deleteReaction ?_⟩
  exact .of_replace (hdb.shaped.at_schema leaf_reactions.mem) (hdb.reactions.without _)
    entries_without

theorem execute_add {s : Agora.Store} {db : Database}
    (h : Reads sql (insertStatement message user emoji) 0)
    (hs : Rests s db) (hdb : Orderly db) (hknown : Known db message user)
    (hfree : Holds (entries "emoji" (db.at Schema.reactions)) message user emoji false) {id : Int64}
    (hid : (db.at Schema.reactions).nextId? = some id) :
    s.execute ⟨sql, []⟩ =
      (.ok [],
        changedTo s 1 (db.replace (add (db.at Schema.reactions) id message user emoji))) := by
  obtain ⟨hinsert, -⟩ := insert_add (hdb.shaped.at_schema leaf_reactions.mem) hdb.reactions
    hfree.absent hid s.now
  exact marks_reactions.execute_left h hs hdb.shaped (admits_emoji emoji) rfl hknown hinsert

theorem carries_insert (h : Reads sql (insertStatement message user emoji) 0) :
    Carries sql (.insertReaction message user emoji) := by
  rintro s db hs hdb ⟨hknown, hfree⟩
  have ht := hdb.shaped.at_schema leaf_reactions.mem
  cases hid : (db.at Schema.reactions).nextId? with
  | none =>
    have hexecute := marks_reactions.execute_full h hs hdb.shaped (admits_emoji emoji) hid
    exact ⟨.error _, _, _, hexecute, hs.unchanged, .insertReactionFull hid⟩
  | some id =>
    refine ⟨.ok _, _, _, execute_add h hs hdb hknown hfree hid, hs.changedTo _ _,
      .insertReaction ?_⟩
    exact .of_replace ht (insert_add ht hdb.reactions hfree.absent hid "").2 (entries_add ht)

end ReactionToggle

end Agora
