import Agora.Proofs.Race.Failure
import Agora.Proofs.Race.Isolation
import Agora.Proofs.Race.Serial

namespace Agora

open Store

namespace Race

variable {σ : Type} {synthesizer : Synthesizer σ} {options : CompilerOptions} {Q : σ → Prop}
  {db : Database}

theorem toggles_race_safely {w : World σ Agora.Store} (hs : Stands Q w db) (hdb : Orderly db)
    (toggles : List Toggle) (moves : List Nat)
    (hknown : ∀ t ∈ toggles, Known db t.message t.user)
    (hfaithful : ∀ t ∈ toggles, ∀ intent ∈ t.intents,
      FaithfulAnywhere options synthesizer Q intent) :
    let first := start options w toggles
    let course := first.after synthesizer moves
    let last := first.run synthesizer moves
    (∀ n k, (Key.rows (course n).database k).length ≤ 1) ∧
    (∀ i t, toggles[i]? = some t → 4 ≤ moves.count i → (last.reply? i).isSome) ∧
    (∀ i t e, toggles[i]? = some t → last.reply? i = some (.error e) →
      Fails course i t e ∧
        ∀ n, moves[n]? = some i → (course (n + 1)).database = (course n).database) ∧
    (∀ k, let alone := first.run synthesizer (moves.filter (first.isOn k))
      last.NoneFull → alone.NoneFull → ∀ i t, toggles[i]? = some t → t.key = k →
        (last.reply? i).map Except.toOption = (alone.reply? i).map Except.toOption) ∧
    (last.NoneFull → first.NeverOverlap synthesizer moves → ∀ k, ∃ m, k.Holds db m ∧
      k.Holds last.database (k.inTurn m (first.inOrder last.finished)) ∧
        ∀ i t reply, toggles[i]? = some t → t.key = k → last.reply? i = some reply →
          Answers first last i t m reply) := by
  intro first course last
  have hsound := sound_start hs hdb hknown hfaithful
  obtain ⟨ps, hfirst, hps⟩ := exists_chronicle hsound moves
  have hcourse : course moves.length = last := after_length synthesizer first moves
  have htoggles : first.toggles = toggles := toggles_start options w toggles
  have hreply (i : Nat) {t : Toggle} (ht : toggles[i]? = some t) :
      last.reply? i = (ps moves.length i).reply? := by
    rw [← htoggles, ← toggles_after synthesizer first moves moves.length] at ht
    obtain ⟨x, hx, -⟩ := racers_of_toggle ht
    rw [← (hps.sound moves.length).reply?_eq hx]
    exact congrArg (·.reply? i) hcourse.symm
  refine ⟨fun n k => Key.length_rows (hps.sound n).orderly k, fun i t ht hmoves => ?_,
    fun i t e ht he => ?_, fun k hroom hroom' i t ht hk => ?_, fun hroom hapart k => ?_⟩
  · exact hps.replies (racers_start w ht) rfl hmoves
  · have hfailed := Toggle.Phase.eq_done ((hreply i ht).symm.trans he)
    have haccounted := hps.accounted (htoggles.symm ▸ hfirst) moves.length (htoggles.symm ▸ ht)
    rw [hfailed] at haccounted
    refine ⟨haccounted, fun n hn => hps.unchanged (n := moves.length) (fun out => ?_) ?_ hn⟩
    · rw [hfailed]
      simp
    · exact (List.getElem?_eq_some_iff.1 hn).1
  · exact mirrors_run moves (.refl hsound k) hsound hsound hroom hroom' (htoggles.symm ▸ ht) hk
  · obtain ⟨m, hm⟩ := k.exists_holds hdb
    obtain rfl : db = first.database := hs.store.database.symm
    have hturn := hps.inTurn (hfirst ▸ inTurn_start options w toggles) hroom hapart moves.length
    rw [show first.after synthesizer moves moves.length = last from hcourse] at hturn
    refine ⟨m, hm, hturn.content k m hm, fun i t reply ht hk he => ?_⟩
    subst hk
    exact hturn.answers i t m reply (htoggles.symm ▸ ht) ((hreply i ht).symm.trans he) hm

section Sample

open Toggle

def rivals : List Toggle := [.vote 1 7 1, .vote 1 7 1]

def rivalry : Race Fixture := start {} (sampleWorld { schema := Schema.votes }) rivals

def apart : List Nat := List.replicate 4 0 ++ List.replicate 4 1

theorem orderly_rivalry : Orderly (sampleBoard { schema := Schema.votes }) :=
  orderly_sample rfl (.of_nil rfl)

theorem known_rivals : ∀ t ∈ rivals,
    Known (sampleBoard { schema := Schema.votes }) t.message t.user := by
  have hknown : Known (sampleBoard { schema := Schema.votes }) 1 7 := known_seeded _ _
  simp only [rivals, List.forall_mem_cons]
  exact ⟨hknown, hknown, by simp⟩

theorem faithful_rivals : ∀ t ∈ rivals, ∀ intent ∈ t.intents,
    FaithfulAnywhere {} Fixture.synthesizer (·.entries = sampleReplies) intent := by
  simp only [rivals, List.forall_mem_cons]
  exact ⟨anywhere_vote, anywhere_vote, by simp⟩

theorem sound_rivalry :
    Sound {} Fixture.synthesizer (·.entries = sampleReplies) rivalry (firstPhases rivals) :=
  sound_start (stands_sample _) orderly_rivalry known_rivals faithful_rivals

theorem replies_apart :
    (rivalry.run Fixture.synthesizer apart).reply? 0 = some (.ok (.vote (.cast .up))) ∧
      (rivalry.run Fixture.synthesizer apart).reply? 1 = some (.ok (.vote (.withdrawn .up))) := by
  have hvotes : (sampleBoard { schema := Schema.votes }).at Schema.votes =
      { schema := Schema.votes } := seeded_votes rfl rfl
  have hfree : (Key.vote 1 7).Holds (sampleBoard { schema := Schema.votes }) none := by
    refine ⟨none, ?_, rfl⟩
    rw [hvotes]
    rintro x ⟨r, hr, -⟩
    cases hr
  have hknown := known_rivals _ List.mem_cons_self
  obtain ⟨out, w, db, hcall, hs, htoggled⟩ :=
    call_toggled faithful_vote (stands_sample _) orderly_rivalry hknown .compiled
  have hdb := htoggled.orderly orderly_rivalry
  obtain ⟨rfl, hup⟩ := (htoggled.by_key orderly_rivalry rfl hfree).resolve_right
    fun hfull => absurd (hvotes ▸ hfull.2.2) (by decide)
  obtain ⟨out', w', db', hcall', -, htoggled'⟩ :=
    call_toggled faithful_vote hs hdb (htoggled.known orderly_rivalry hknown) .compiled
  obtain ⟨rfl, -⟩ := (htoggled'.by_key hdb rfl hup).resolve_right fun hfull => hfull.2.1 rfl
  exact sound_rivalry.one_after_other (racers_start _ rfl) (racers_start _ rfl) (by decide)
    hcall hcall'

theorem lt_two (moves : List Nat) {i : Nat} {t : Toggle}
    (h : (rivalry.run Fixture.synthesizer moves).toggles[i]? = some t) : i < 2 := by
  rw [toggles_run, rivalry, toggles_start] at h
  exact (List.getElem?_eq_some_iff.1 h).1

theorem noneFull_apart : (rivalry.run Fixture.synthesizer apart).NoneFull := by
  intro i e h
  obtain ⟨x, hx, -⟩ := Option.bind_eq_some_iff.1 h
  obtain rfl | rfl : i = 0 ∨ i = 1 := by
    have := lt_two apart (toggle_of_racers hx)
    omega
  · cases replies_apart.1.symm.trans h
  · cases replies_apart.2.symm.trans h

theorem neverOverlap_apart : rivalry.NeverOverlap Fixture.synthesizer apart := by
  obtain ⟨ps, -, hps⟩ := exists_chronicle sound_rivalry apart
  have hcounts : ∀ n ≤ apart.length, (apart.take n).count 0 ≤ 3 →
      ¬ 2 ≤ (apart.take n).count 1 := by decide
  have hcount (n i : Nat) (hi : i < 2)
      (hopen : (rivalry.after Fixture.synthesizer apart n).Open i) :
      2 ≤ (apart.take (min n apart.length)).count i ∧
        (apart.take (min n apart.length)).count i ≤ 3 := by
    obtain ⟨t, ht⟩ : ∃ t, rivals[i]? = some t := ⟨_, List.getElem?_eq_getElem hi⟩
    rw [← List.take_eq_take_min]
    exact hps.count_of_open (racers_start _ ht) rfl hopen
  intro n i j t u ht hu _ hi hj
  have hboth := hcounts _ (Nat.min_le_right n _)
  have hfirst := hcount n i (lt_two [] ht) hi
  have hsecond := hcount n j (lt_two [] hu) hj
  by_contra hij
  obtain ⟨rfl, rfl⟩ | ⟨rfl, rfl⟩ : i = 0 ∧ j = 1 ∨ i = 1 ∧ j = 0 := by
    have := lt_two [] ht
    have := lt_two [] hu
    omega
  · exact hboth hfirst.2 hsecond.1
  · exact hboth hsecond.2 hfirst.1

theorem toggles_race_safely_apart :
    let w := sampleWorld { schema := Schema.votes }
    let db := sampleBoard { schema := Schema.votes }
    let last := rivalry.run Fixture.synthesizer apart
    (Stands (·.entries = sampleReplies) w db ∧ Orderly db ∧
      (∀ t ∈ rivals, Known db t.message t.user) ∧
      (∀ t ∈ rivals, ∀ intent ∈ t.intents,
        FaithfulAnywhere {} Fixture.synthesizer (·.entries = sampleReplies) intent) ∧
      last.NoneFull ∧ rivalry.NeverOverlap Fixture.synthesizer apart) ∧
    (∀ i t, rivals[i]? = some t → (last.reply? i).isSome) ∧
    ∃ m, (Key.vote 1 7).Holds db m ∧ (Key.vote 1 7).Holds last.database
      ((Key.vote 1 7).inTurn m (rivalry.inOrder last.finished)) := by
  intro w db last
  obtain ⟨-, hreplies, -, -, hserial⟩ := toggles_race_safely (stands_sample _) orderly_rivalry
    rivals apart known_rivals faithful_rivals
  obtain ⟨m, hm, hlast, -⟩ := hserial noneFull_apart neverOverlap_apart (.vote 1 7)
  refine ⟨⟨stands_sample _, orderly_rivalry, known_rivals, faithful_rivals, noneFull_apart,
    neverOverlap_apart⟩, fun i t ht => hreplies i t ht ?_, m, hm, hlast⟩
  have hcounts : ∀ i < 2, 4 ≤ apart.count i := by decide
  exact hcounts i (List.getElem?_eq_some_iff.1 ht).1

theorem neverOverlap_of_distinct {r : Race σ} (hdistinct : (r.toggles.map (·.key)).Nodup)
    (moves : List Nat) : r.NeverOverlap synthesizer moves := by
  intro n i j t u ht hu hk _ _
  have hi : (r.toggles.map (·.key))[i]? = some t.key := by simp [ht]
  have hj : (r.toggles.map (·.key))[j]? = some t.key := by simp [hu, hk]
  obtain ⟨hlt, -⟩ := List.getElem?_eq_some_iff.1 hi
  exact (List.getElem?_inj hlt hdistinct).1 (hi.trans hj.symm)

def findOtherSql : String :=
  "SELECT id FROM reactions WHERE \"messageId\" = 1 AND \"userId\" = 7 AND emoji = '-'"

def insertOtherSql : String :=
  "INSERT INTO reactions (\"messageId\", \"userId\", emoji) VALUES (1, 7, '-')"

def deleteOtherSql : String :=
  "DELETE FROM reactions WHERE \"messageId\" = 1 AND \"userId\" = 7 AND emoji = '-'"

def otherReplies : List (String × String) :=
  [((Intent.findReaction 1 7 "+").text, findReactionSql),
    ((Intent.insertReaction 1 7 "+").text, insertReactionSql),
    ((Intent.deleteReaction 1 7 "+").text, deleteReactionSql),
    ((Intent.findReaction 1 7 "-").text, findOtherSql),
    ((Intent.insertReaction 1 7 "-").text, insertOtherSql),
    ((Intent.deleteReaction 1 7 "-").text, deleteOtherSql)]

theorem spelled_other :
    Spelled findOtherSql .read (ReactionToggle.findStatement 1 7 "-") ∧
    Spelled insertOtherSql .write (ReactionToggle.insertStatement 1 7 "-") ∧
    Spelled deleteOtherSql .write (ReactionToggle.deleteStatement 1 7 "-") := by
  refine ⟨⟨?_, .of_spells rfl ?_ ?_ ?_⟩, ⟨?_, .of_spells rfl ?_ ?_ ?_⟩,
    ⟨?_, .of_spells rfl ?_ ?_ ?_⟩⟩ <;> decide +kernel

def claimants : List Toggle := [.reaction 1 7 "+", .reaction 1 7 "-"]

theorem faithful_claimants : ∀ t ∈ claimants, ∀ intent ∈ t.intents,
    FaithfulAnywhere {} Fixture.synthesizer (·.entries = otherReplies) intent := by
  obtain ⟨hfind, hinsert, hdelete⟩ := spelled_reaction
  obtain ⟨hfind', hinsert', hdelete'⟩ := spelled_other
  simp only [claimants, intents, List.forall_mem_cons]
  refine ⟨⟨hfind.faithful (ReactionToggle.anywhere_find hfind.reads) ?_,
      hinsert.faithful (ReactionToggle.anywhere_insert hinsert.reads) ?_,
      hdelete.faithful (ReactionToggle.anywhere_delete hdelete.reads) ?_, by simp⟩,
    ⟨hfind'.faithful (ReactionToggle.anywhere_find hfind'.reads) ?_,
      hinsert'.faithful (ReactionToggle.anywhere_insert hinsert'.reads) ?_,
      hdelete'.faithful (ReactionToggle.anywhere_delete hdelete'.reads) ?_, by simp⟩, by simp⟩ <;>
    decide +kernel

def scarceBoard : Database :=
  seeded { schema := Schema.votes } ReactionToggle.scarce

theorem scarceBoard_reactions : scarceBoard.at Schema.reactions = ReactionToggle.scarce :=
  seeded_reactions rfl rfl

theorem orderly_scarceBoard : Orderly scarceBoard where
  shaped := shaped_seeded rfl rfl
  votes := (seeded_votes rfl rfl : scarceBoard.at Schema.votes = _) ▸ .of_nil rfl
  reactions := scarceBoard_reactions ▸ .of_nil rfl

theorem known_scarceBoard : Known scarceBoard 1 7 :=
  known_seeded _ _

theorem free_scarceBoard (emoji : String) : ReactionToggle.Holds
    (entries "emoji" (scarceBoard.at Schema.reactions)) 1 7 emoji false := by
  rw [scarceBoard_reactions]
  simp [ReactionToggle.Holds, entries, ReactionToggle.scarce]

def scarceWorld : World Fixture Agora.Store where
  synthesis := { entries := otherReplies }
  store := { database := scarceBoard }
  listing := { ttl := ReadCache.defaultTtl }

theorem stands_scarceWorld : Stands (·.entries = otherReplies) scarceWorld scarceBoard :=
  ⟨⟨rfl, rfl, rfl⟩, rfl⟩

def claim : Race Fixture := start {} scarceWorld claimants

theorem call_free {emoji findSql insertSql : String} {kind kind' : Sql.Kind}
    (hfind : Spelled findSql kind (ReactionToggle.findStatement 1 7 emoji))
    (hinsert : Spelled insertSql kind' (ReactionToggle.insertStatement 1 7 emoji))
    {w : World Fixture Agora.Store} (hs : Stands (·.entries = otherReplies) w db)
    (hdb : Shaped db)
    (hfree : ReactionToggle.Holds (entries "emoji" (db.at Schema.reactions)) 1 7 emoji false)
    (hreplies : ({ entries := otherReplies } : Fixture).reply?
        (Intent.findReaction 1 7 emoji).text = some findSql ∧
      ({ entries := otherReplies } : Fixture).reply?
        (Intent.insertReaction 1 7 emoji).text = some insertSql)
    (answer : Except StatementError (List Row)) {s : Agora.Store}
    (hexecute : w.store.execute ⟨insertSql, []⟩ = (answer.mapError (.database insertSql), s)) :
    ∃ w', (reaction 1 7 emoji).call (onStore Fixture.synthesizer) {} .compiled w =
        (((answer.mapError fun e => .executionFailed (.database insertSql e)).map
          fun _ => .added).map .reaction, w') ∧
      w'.store = s ∧ w'.synthesis.entries = otherReplies := by
  have hentries : w.synthesis.entries = otherReplies := hs.synthesis
  rw [← hentries] at hreplies
  have hrun :=
    ReactionToggle.run_free hfind hinsert hs.store hdb hfree hreplies.1 hreplies.2 hexecute
  exact ⟨_, call_reaction hrun, rfl, hentries⟩

theorem replies_plus : ({ entries := otherReplies } : Fixture).reply?
      (Intent.findReaction 1 7 "+").text = some findReactionSql ∧
    ({ entries := otherReplies } : Fixture).reply?
      (Intent.insertReaction 1 7 "+").text = some insertReactionSql := by
  decide +kernel

theorem replies_minus : ({ entries := otherReplies } : Fixture).reply?
      (Intent.findReaction 1 7 "-").text = some findOtherSql ∧
    ({ entries := otherReplies } : Fixture).reply?
      (Intent.insertReaction 1 7 "-").text = some insertOtherSql := by
  decide +kernel

theorem nextId?_scarceBoard : (scarceBoard.at Schema.reactions).nextId? = some Int64.maxValue := by
  rw [scarceBoard_reactions]
  decide

theorem call_minus : ∃ w', (reaction 1 7 "-").call (onStore Fixture.synthesizer) {} .compiled
    scarceWorld = (.ok (.reaction .added), w') := by
  obtain ⟨hfind, hinsert, -⟩ := spelled_other
  have hexecute := ReactionToggle.execute_add hinsert.reads stands_scarceWorld.store
    orderly_scarceBoard known_scarceBoard (free_scarceBoard "-") nextId?_scarceBoard
  obtain ⟨w', hcall, -⟩ := call_free hfind hinsert stands_scarceWorld
    orderly_scarceBoard.shaped (free_scarceBoard "-") replies_minus (.ok []) hexecute
  exact ⟨w', hcall⟩

def fullReactions : TableState :=
  ReactionToggle.add (scarceBoard.at Schema.reactions) Int64.maxValue 1 7 "+"

theorem nextId?_fullReactions :
    ((scarceBoard.replace fullReactions).at Schema.reactions).nextId? = none := by
  have hschema := orderly_scarceBoard.shaped.at_schema leaf_reactions.mem
  have hself : (scarceBoard.replace fullReactions).at Schema.reactions = fullReactions :=
    orderly_scarceBoard.shaped.at_replace leaf_reactions.mem hschema
  rw [hself, fullReactions, scarceBoard_reactions]
  decide

theorem calls_in_turn : ∃ w w',
    (reaction 1 7 "+").call (onStore Fixture.synthesizer) {} .compiled scarceWorld =
        (.ok (.reaction .added), w) ∧
      (reaction 1 7 "-").call (onStore Fixture.synthesizer) {} .compiled w =
        (.error (noIdLeft insertOtherSql), w') := by
  obtain ⟨hfind, hinsert, -⟩ := spelled_reaction
  obtain ⟨hfind', hinsert', -⟩ := spelled_other
  have hexecute := ReactionToggle.execute_add hinsert.reads stands_scarceWorld.store
    orderly_scarceBoard known_scarceBoard (free_scarceBoard "+") nextId?_scarceBoard
  obtain ⟨w, hcall, hstore, hentries⟩ := call_free hfind hinsert
    stands_scarceWorld orderly_scarceBoard.shaped (free_scarceBoard "+") replies_plus (.ok [])
    hexecute
  have ht := orderly_scarceBoard.shaped.at_schema leaf_reactions.mem
  have hadd : Store.Becomes Schema.reactions "emoji" _ scarceBoard
      (scarceBoard.replace fullReactions) := .of_replace ht
    (ReactionToggle.insert_add ht orderly_scarceBoard.reactions (free_scarceBoard "+").absent
      nextId?_scarceBoard "").2 (ReactionToggle.entries_add ht)
  have hbecomes := Key.becomes_of_reacted orderly_scarceBoard hadd
  obtain ⟨b, hb, hfree⟩ := hbecomes.other (.reaction 1 7 "-") none (by decide)
    ⟨false, free_scarceBoard "-", rfl⟩
  obtain rfl : b = false := by
    cases b with
    | false => rfl
    | true => cases hfree
  have hs : Stands (·.entries = otherReplies) w _ :=
    ⟨hstore ▸ stands_scarceWorld.store.changedTo 1 _, hentries⟩
  have hexecute' := ReactionToggle.marks_reactions.execute_full hinsert'.reads hs.store
    hbecomes.orderly.shaped (ReactionToggle.admits_emoji "-") nextId?_fullReactions
  obtain ⟨w', hcall', -⟩ := call_free hfind' hinsert' hs
    hbecomes.orderly.shaped hb replies_minus (.error _) hexecute'
  exact ⟨w, w', hcall, hcall'⟩

theorem sound_claim :
    Sound {} Fixture.synthesizer (·.entries = otherReplies) claim (firstPhases claimants) := by
  refine sound_start stands_scarceWorld orderly_scarceBoard ?_ faithful_claimants
  simp only [claimants, List.forall_mem_cons]
  exact ⟨known_scarceBoard, known_scarceBoard, by simp⟩

/-- The toggle that takes the last id makes the other one fail, which is on another key, does not
overlap with it, and would succeed without it. -/
theorem toggles_disturbed_without_id :
    let moves := List.replicate 4 0 ++ List.replicate 4 1
    let alone := moves.filter (claim.isOn (.reaction 1 7 "-"))
    (Stands (·.entries = otherReplies) scarceWorld scarceBoard ∧ Orderly scarceBoard ∧
      (∀ t ∈ claimants, Known scarceBoard t.message t.user) ∧
      (∀ t ∈ claimants, ∀ intent ∈ t.intents,
        FaithfulAnywhere {} Fixture.synthesizer (·.entries = otherReplies) intent) ∧
      claim.NeverOverlap Fixture.synthesizer moves) ∧
    (claim.run Fixture.synthesizer moves).reply? 1 = some (.error (noIdLeft insertOtherSql)) ∧
      (noIdLeft insertOtherSql).isConstraintViolation = false ∧
      (claim.run Fixture.synthesizer alone).reply? 1 = some (.ok (.reaction .added)) := by
  intro moves alone
  have hknown := sound_claim.known
  rw [claim, toggles_start] at hknown
  have hapart : claim.NeverOverlap Fixture.synthesizer moves := by
    refine neverOverlap_of_distinct ?_ _
    rw [claim, toggles_start]
    decide
  obtain ⟨w, w', hfirst, hsecond⟩ := calls_in_turn
  obtain ⟨-, hlast⟩ := sound_claim.one_after_other (racers_start _ (i := 0) rfl)
    (racers_start _ (i := 1) rfl) (by decide) hfirst hsecond
  obtain ⟨w'', hcall⟩ := call_minus
  obtain ⟨-, hreply, -⟩ := sound_claim.moves_in_a_row (racers_start _ (i := 1) rfl)
  have halone : alone = List.replicate 4 1 := by decide +kernel
  refine ⟨⟨stands_scarceWorld, orderly_scarceBoard, hknown, faithful_claimants, hapart⟩, hlast, rfl,
    ?_⟩
  rw [halone]
  exact hreply.trans (congrArg (some ·.1) hcall)

end Sample

end Race

end Agora
