import Agora.Proofs.Toggle.VoteRun

namespace Agora.VoteToggle

open Agora.Store

theorem toInt64_cases (v : VoteValue) : v.toInt64 = 1 ∨ v.toInt64 = -1 := by
  cases v with
  | up => exact .inl rfl
  | down => exact .inr rfl

theorem current_outcome (o : Option VoteValue) (v : VoteValue) :
    (outcome o v).current = next o v := by
  cases o with
  | none => rfl
  | some w =>
    by_cases hw : w = v
    · subst hw
      simp [outcome, next, VoteOutcome.current]
    · simp [outcome, next, VoteOutcome.current, hw]

namespace Follows

variable {db db' : Database} {r : Request} {out : VoteOutcome}

theorem current_iff (h : Follows db r (.ok out) db') :
    held "value" (db'.at Schema.votes) r.message r.user = valuesOf out.current ↔
      r.raw = 1 ∨ r.raw = -1 ∨ held "value" (db.at Schema.votes) r.message r.user = [] := by
  cases h with
  | rejected hup hdown => simp [hup, hdown, VoteOutcome.current, valuesOf]
  | @toggled v o _ hraw hbefore hroom hafter hother htables =>
    have hvote : r.raw = 1 ∨ r.raw = -1 := hraw ▸ toInt64_cases v
    rw [current_outcome]
    exact iff_of_true hafter (or_assoc.1 (.inl hvote))

theorem unchanged_of_rejected (h : Follows db r (.ok out) db') (hup : r.raw ≠ 1)
    (hdown : r.raw ≠ -1) : out = .rejected r.raw ∧ db' = db := by
  cases h with
  | rejected => exact ⟨rfl, rfl⟩
  | @toggled v o _ hraw hbefore hroom hafter hother htables =>
    exact absurd (hraw ▸ toInt64_cases v) (not_or.2 ⟨hup, hdown⟩)

end Follows

/-- A request that ends well reports the vote held after it if and only if its value is a vote or no
vote was held before; one that is no vote leaves all tables as they were. -/
theorem current_eq_held_iff {σ : Type} (synthesizer : Synthesizer σ) (options : CompilerOptions)
    {w : World σ Agora.Store} {db : Database} (hs : Rests w.store db) (hdb : Shaped db)
    (hl : Lawful (db.at Schema.votes)) (r : Request) (hknown : Known db r.message r.user)
    {out : VoteOutcome}
    (hout : ((r.task options).run (onStore synthesizer) w).1 = .ok out) :
    let db' := ((r.task options).run (onStore synthesizer) w).2.store.database
    let before := held "value" (db.at Schema.votes) r.message r.user
    let after := held "value" (db'.at Schema.votes) r.message r.user
    (after = valuesOf out.current ↔ r.raw = 1 ∨ r.raw = -1 ∨ before = []) ∧
      (r.raw ≠ 1 → r.raw ≠ -1 → out = .rejected r.raw ∧ db' = db) := by
  obtain ⟨reply, w', db', hrun, hs', -, -, -, hfollows⟩ :=
    request_step synthesizer options hs hdb hl r hknown
  rw [hrun] at hout ⊢
  obtain rfl : reply = .ok out := hout
  obtain rfl : w'.store.database = db' := hs'.database
  exact ⟨hfollows.current_iff, hfollows.unchanged_of_rejected⟩

section Sample

def upvoted : Database :=
  voted 0 1 .up

def upvotedWorld : World Fixture Agora.Store :=
  { synthesis := {}, store := { database := upvoted },
    listing := { ttl := ReadCache.defaultTtl } }

theorem lawful_upvoted : Lawful (upvoted.at Schema.votes) :=
  lawful_voted (by decide +kernel)

theorem held_upvoted : held "value" (upvoted.at Schema.votes) 1 7 = [.integer 1] :=
  holds_voted.held (shaped_voted.at_schema leaf_votes.mem) lawful_upvoted

theorem current_eq_held_after_change :
    let r : Request := ⟨1, 7, -1⟩
    let run := (r.task {}).run (onStore Fixture.synthesizer) upvotedWorld
    (Rests upvotedWorld.store upvoted ∧ Shaped upvoted ∧ Lawful (upvoted.at Schema.votes) ∧
        Known upvoted 1 7) ∧
      run.1 = .ok (.changed (some .up) .down) ∧
      held "value" (run.2.store.database.at Schema.votes) 1 7 = [.integer (-1)] := by
  have hrests : Rests upvotedWorld.store upvoted := ⟨rfl, rfl, rfl⟩
  have hout :
      (((⟨1, 7, -1⟩ : Request).task {}).run (onStore Fixture.synthesizer) upvotedWorld).1 =
        .ok (.changed (some .up) .down) := by
    obtain ⟨w', hrun⟩ := run_change Fixture.synthesizer hrests
    exact congrArg Prod.fst hrun
  obtain ⟨hcurrent, -⟩ := current_eq_held_iff Fixture.synthesizer {} hrests shaped_voted
    lawful_upvoted ⟨1, 7, -1⟩ known_voted hout
  exact ⟨⟨hrests, shaped_voted, lawful_upvoted, known_voted⟩, hout,
    hcurrent.2 (.inr (.inl rfl))⟩

/-- After a request with the value 5 the vote up is still held, and the outcome reports none. -/
theorem rejected_hides_held_vote :
    let r : Request := ⟨1, 7, 5⟩
    let run := (r.task {}).run (onStore Fixture.synthesizer) upvotedWorld
    (Rests upvotedWorld.store upvoted ∧ Shaped upvoted ∧ Lawful (upvoted.at Schema.votes) ∧
        Known upvoted 1 7) ∧
      run.1 = .ok (.rejected 5) ∧
      held "value" (run.2.store.database.at Schema.votes) 1 7 = [.integer 1] ∧
      held "value" (run.2.store.database.at Schema.votes) 1 7 ≠
        valuesOf (VoteOutcome.rejected 5).current := by
  intro r run
  have hrun : run = (.ok (.rejected 5), upvotedWorld) := rfl
  have hheld : held "value" (run.2.store.database.at Schema.votes) 1 7 = [.integer 1] := by
    rw [hrun]
    exact held_upvoted
  refine ⟨⟨⟨rfl, rfl, rfl⟩, shaped_voted, lawful_upvoted, known_voted⟩, rfl, hheld, ?_⟩
  rw [hheld]
  simp [valuesOf, VoteOutcome.current]

end Sample

end Agora.VoteToggle
