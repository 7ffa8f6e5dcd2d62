import Agora.Proofs.Task.Operation
import Agora.Proofs.Toggle.Reaction
import Agora.Proofs.Toggle.Vote

namespace Agora

open Store

namespace Task

variable {α β ε σ τ : Type} {services : Services σ τ} {w : World σ τ}

theorem run_of_bind (t : Task α) (f : α → Task β) (services : Services σ τ) (w : World σ τ) :
    (t.bind f).run services w = (f (t.run services w).1).run services (t.run services w).2 := by
  induction t generalizing w with
  | done a => rfl
  | synthesize intent next ih => exact ih _ _
  | execute statement next ih => exact ih _ _
  | executeBatch statements next ih => exact ih _ _
  | lookup next ih => exact ih _ _
  | store rows generation next ih => exact ih _
  | invalidate next ih => exact ih _

theorem run_andThen_ok {x : ExceptT ε Task α} {f : α → ExceptT ε Task β} {a : α} {w' : World σ τ}
    (h : x.run.run services w = (.ok a, w')) :
    (x >>= f).run.run services w = (f a).run.run services w' := by
  rw [run_bind, run_of_bind, h]

theorem run_andThen_error {x : ExceptT ε Task α} {f : α → ExceptT ε Task β} {e : ε}
    {w' : World σ τ} (h : x.run.run services w = (.error e, w')) :
    (x >>= f).run.run services w = (.error e, w') := by
  rw [run_bind, run_of_bind, h]
  rfl

end Task

/-- Where an intent of a toggle has a meaning: a row is inserted only on a key that has none, and
only on one that has a row a row is updated. -/
def Intent.Applies (db : Database) : Intent → Prop
  | .insertVote message user _ => Known db message user ∧
      VoteToggle.Holds (entries "value" (db.at Schema.votes)) message user none
  | .updateVote message user _ => ∃ v,
      VoteToggle.Holds (entries "value" (db.at Schema.votes)) message user (some v)
  | .insertReaction message user emoji => Known db message user ∧
      ReactionToggle.Holds (entries "emoji" (db.at Schema.reactions)) message user emoji false
  | _ => True

/-- What a statement does that does what an intent of a toggle says. -/
inductive Intent.Does (db : Database) :
    Intent → Except StatementError (List Row) → Database → Prop
  | findVote {message user rows} :
      rows.map (·.get? "value") = (held "value" (db.at Schema.votes) message user).map
        (fun v => (toRow [("value", v)]).get? "value") →
      Does db (.findVote message user) (.ok rows) db
  | insertVote {message user value v rows db'} : value = v.toInt64 →
      Becomes Schema.votes "value" (VoteToggle.after message user
        (entries "value" (db.at Schema.votes)) (.cast v)) db db' →
      Does db (.insertVote message user value) (.ok rows) db'
  | insertVoteFull {message user value} : (db.at Schema.votes).nextId? = none →
      Does db (.insertVote message user value) (.error (.other "database or disk is full")) db
  | updateVote {message user value v rows db'} : value = v.toInt64 →
      Becomes Schema.votes "value" (VoteToggle.after message user
        (entries "value" (db.at Schema.votes)) (.changed none v)) db db' →
      Does db (.updateVote message user value) (.ok rows) db'
  | deleteVote {message user v rows db'} :
      Becomes Schema.votes "value" (VoteToggle.after message user
        (entries "value" (db.at Schema.votes)) (.withdrawn v)) db db' →
      Does db (.deleteVote message user) (.ok rows) db'
  | findReaction {message user emoji rows} :
      ReactionToggle.Holds (entries "emoji" (db.at Schema.reactions)) message user emoji
        (!rows.isEmpty) →
      Does db (.findReaction message user emoji) (.ok rows) db
  | insertReaction {message user emoji rows db'} :
      Becomes Schema.reactions "emoji" (ReactionToggle.after message user emoji
        (entries "emoji" (db.at Schema.reactions)) .added) db db' →
      Does db (.insertReaction message user emoji) (.ok rows) db'
  | insertReactionFull {message user emoji} : (db.at Schema.reactions).nextId? = none →
      Does db (.insertReaction message user emoji)
        (.error (.other "database or disk is full")) db
  | deleteReaction {message user emoji rows db'} :
      Becomes Schema.reactions "emoji" (ReactionToggle.after message user emoji
        (entries "emoji" (db.at Schema.reactions)) .removed) db db' →
      Does db (.deleteReaction message user emoji) (.ok rows) db'

variable {σ : Type} {synthesizer : Synthesizer σ} {Q : σ → Prop} {options : CompilerOptions}
  {db : Database}

def Carries (sql : String) (intent : Intent) : Prop :=
  ∀ s db, Rests s db → Orderly db → intent.Applies db → ∃ answer s' db',
    s.execute ⟨sql, []⟩ = (answer.mapError (.database sql), s') ∧ Rests s' db' ∧
      intent.Does db answer db'

/-- A synthesizer that, in the states it can be in, answers an intent with a statement which does
what the intent says. -/
def Faithful (options : CompilerOptions) (synthesizer : Synthesizer σ) (Q : σ → Prop)
    (intent : Intent) : Prop :=
  ∀ q, Q q → ∃ raw q' statement, synthesizer.synthesize intent.text q = (.ok raw, q') ∧ Q q' ∧
    options.statementOf raw [] = .ok statement ∧ Carries statement.sql intent

structure Stands (Q : σ → Prop) (w : World σ Agora.Store) (db : Database) : Prop where
  store : Rests w.store db
  synthesis : Q w.synthesis

theorem statementOf_params {raw : String} {params : List Scalar} {statement : CompiledStatement}
    (h : options.statementOf raw params = .ok statement) : statement.params = params := by
  unfold CompilerOptions.statementOf at h
  dsimp only at h
  split at h
  · cases h
  · cases h
    rfl

theorem run_asked {intent : String} {w : World σ Agora.Store} {raw : String} {q : σ}
    {statement : CompiledStatement} {answer : Except StatementError (List Row)} {s : Agora.Store}
    (hreply : synthesizer.synthesize intent w.synthesis = (.ok raw, q))
    (hstatement : options.statementOf raw [] = .ok statement)
    (hexecute : w.store.execute ⟨statement.sql, []⟩ =
      (answer.mapError (.database statement.sql), s)) :
    (options.compileAndRun intent []).run.run (onStore synthesizer) w =
      (answer.mapError fun e => .executionFailed (.database statement.sql e),
        { w with synthesis := q, store := s }) := by
  have hreply' : (onStore synthesizer).synthesizer.synthesize intent w.synthesis =
      (.ok raw, q) := hreply
  have hexecute' : (onStore synthesizer).executor.execute ⟨statement.sql, []⟩ w.store =
      (answer.mapError (.database statement.sql), s) := hexecute
  rw [run_compileAndRun]
  simp only [Task.run, hreply', hstatement, statementOf_params hstatement, hexecute']
  cases answer <;> rfl

theorem Faithful.asked {intent : Intent} (h : Faithful options synthesizer Q intent)
    {w : World σ Agora.Store} (hs : Stands Q w db) (hdb : Orderly db)
    (happlies : intent.Applies db) :
    ∃ sql answer w' db', (options.compileAndRun intent.text []).run.run (onStore synthesizer) w =
        (answer.mapError fun e => .executionFailed (.database sql e), w') ∧
      Stands Q w' db' ∧ intent.Does db answer db' := by
  obtain ⟨raw, q', statement, hreply, hq', hstatement, hcarries⟩ := h w.synthesis hs.synthesis
  obtain ⟨answer, s', db', hexecute, hrests, hdoes⟩ := hcarries w.store db hs.store hdb happlies
  exact ⟨statement.sql, answer, _, db', run_asked hreply hstatement hexecute, ⟨hrests, hq'⟩, hdoes⟩

inductive Ends {α : Type} (t : Table) (third : String) (S : Set Entry) (out : α) (needsId : Prop)
    (db : Database) : Except QueryError α → Database → Prop
  | done {db'} : Becomes t third S db db' → Ends t third S out needsId db (.ok out) db'
  | full (sql) : needsId → (db.at t).nextId? = none →
      Ends t third S out needsId db (.error (noIdLeft sql)) db

theorem Stands.ends_of_step {α : Type} {w : World σ Agora.Store} (hs : Stands Q w db)
    {run : Except QueryError α × World σ Agora.Store} {s' : Agora.Store} {t : Table}
    {third sql : String} {S : Set Entry} {out : α} {needsId : Prop}
    [Decidable (needsId ∧ (db.at t).nextId? = none)]
    (hstep : if needsId ∧ (db.at t).nextId? = none then
        run = (.error (noIdLeft sql), { w with store := s' }) ∧ Rests s' db
      else ∃ db', run = (.ok out, { w with store := s' }) ∧ Rests s' db' ∧
        Becomes t third S db db') :
    ∃ reply w' db', run = (reply, w') ∧ Stands Q w' db' ∧
      Ends t third S out needsId db reply db' := by
  split at hstep
  case isTrue hfull =>
    obtain ⟨hrun, hs'⟩ := hstep
    exact ⟨_, _, db, hrun, ⟨hs', hs.synthesis⟩, .full sql hfull.1 hfull.2⟩
  case isFalse =>
    obtain ⟨db', hrun, hs', hbecomes⟩ := hstep
    exact ⟨_, _, db', hrun, ⟨hs', hs.synthesis⟩, .done hbecomes⟩

theorem Faithful.written {α : Type} {intent : Intent} (h : Faithful options synthesizer Q intent)
    {w : World σ Agora.Store} (hs : Stands Q w db) (hdb : Orderly db)
    (happlies : intent.Applies db) {t : Table} {third : String} {S : Set Entry} {needsId : Prop}
    (hdoes : ∀ answer db', intent.Does db answer db' →
      (∃ rows, answer = .ok rows ∧ Becomes t third S db db') ∨
        answer = .error (.other "database or disk is full") ∧ needsId ∧
          (db.at t).nextId? = none ∧ db' = db) (out : α) :
    ∃ reply w' db', (do
          let _ ← options.compileAndRun intent.text []
          return out : Query α).run.run (onStore synthesizer) w = (reply, w') ∧
      Stands Q w' db' ∧ Ends t third S out needsId db reply db' := by
  obtain ⟨sql, answer, w', db', hrun, hrests, hanswer⟩ := h.asked hs hdb happlies
  rcases hdoes answer db' hanswer with
    ⟨rows, rfl, hbecomes⟩ | ⟨rfl, hneeds, hid, rfl⟩
  · exact ⟨_, w', db', Task.run_andThen_ok hrun, hrests, .done hbecomes⟩
  · exact ⟨_, w', db', Task.run_andThen_error hrun, hrests, .full sql hneeds hid⟩

theorem Faithful.looked_up (α : Type) {intent : Intent} (h : Faithful options synthesizer Q intent)
    {w : World σ Agora.Store} (hs : Stands Q w db) (hdb : Orderly db)
    (happlies : intent.Applies db)
    (hdoes : ∀ answer db', intent.Does db answer db' → (∃ rows, answer = .ok rows) ∧ db' = db) :
    ∃ rows w', intent.Does db (.ok rows) db ∧ Stands Q w' db ∧ ∀ f : Option Row → Query α,
      (options.runOne intent.text [] >>= f).run.run (onStore synthesizer) w =
        (f rows.head?).run.run (onStore synthesizer) w' := by
  obtain ⟨sql, answer, w', db', hrun, hrests, hanswer⟩ := h.asked hs hdb happlies
  obtain ⟨⟨rows, rfl⟩, rfl⟩ := hdoes answer db' hanswer
  refine ⟨rows, w', hanswer, hrests, fun f => Task.run_andThen_ok ?_⟩
  exact Task.run_andThen_ok hrun

namespace VoteToggle

variable {message user : Int64} {v : VoteValue} {o : Option VoteValue}

theorem stored_of_get? {row : Row}
    (h : row.get? "value" = (toRow [("value", .integer v.toInt64)]).get? "value") :
    stored row = some v := by
  rw [stored, h]
  cases v <;> decide

theorem transition_of_rows {rows : List Row} (h : rows.map (·.get? "value") =
    (valuesOf o).map fun v => (toRow [("value", v)]).get? "value") (v : VoteValue) :
    transition rows.head? v = outcome o v := by
  cases o with
  | none =>
    obtain rfl : rows = [] := by simpa [valuesOf] using h
    rfl
  | some w =>
    obtain ⟨row, rfl, hrow⟩ : ∃ row, rows = [row] ∧
        row.get? "value" = (toRow [("value", .integer w.toInt64)]).get? "value" := by
      simpa [valuesOf, List.map_eq_singleton_iff] using h
    simp [transition, stored_of_get? hrow, outcome]

theorem compiled_step (hfind : Faithful options synthesizer Q (.findVote message user))
    (hinsert : Faithful options synthesizer Q (.insertVote message user v.toInt64))
    (hupdate : Faithful options synthesizer Q (.updateVote message user v.toInt64))
    (hdelete : Faithful options synthesizer Q (.deleteVote message user))
    {w : World σ Agora.Store} (hs : Stands Q w db) (hdb : Orderly db)
    (hknown : Known db message user)
    (ho : Holds (entries "value" (db.at Schema.votes)) message user o) :
    ∃ reply w' db', (compiled options message user v).run.run (onStore synthesizer) w =
        (reply, w') ∧ Stands Q w' db' ∧
      Ends Schema.votes "value" (after message user (entries "value" (db.at Schema.votes))
        (outcome o v)) (outcome o v) (o ≠ some v) db reply db' := by
  obtain ⟨rows, w₁, hrows, hs₁, hrun⟩ := hfind.looked_up VoteOutcome hs hdb trivial
    fun answer db' h => by cases h; exact ⟨⟨_, rfl⟩, rfl⟩
  -- the row found decides the write, and an intent applies only where the row bears it out
  have hprior : transition rows.head? v = outcome o v := by
    cases hrows with
    | findVote h =>
      rw [ho.held (hdb.shaped.at_schema leaf_votes.mem) hdb.votes] at h
      exact transition_of_rows h v
  rw [compiled, hrun, hprior]
  cases o with
  | none =>
    refine hinsert.written hs₁ hdb ⟨hknown, ho⟩ (fun answer db' h => ?_) _
    cases h with
    | insertVote hv hbecomes => exact .inl ⟨_, rfl, toInt64_injective hv ▸ hbecomes⟩
    | insertVoteFull hid => exact .inr ⟨rfl, by simp, hid, rfl⟩
  | some b =>
    by_cases hb : b = v
    · subst hb
      have houtcome : outcome (some b) b = .withdrawn b := if_pos rfl
      rw [houtcome]
      refine hdelete.written hs₁ hdb trivial (fun answer db' h => ?_) _
      cases h with
      | deleteVote hbecomes => exact .inl ⟨_, rfl, hbecomes⟩
    · have houtcome : outcome (some b) v = .changed (some b) v := if_neg hb
      rw [houtcome]
      refine hupdate.written hs₁ hdb ⟨b, ho⟩ (fun answer db' h => ?_) _
      cases h with
      | updateVote hv hbecomes => exact .inl ⟨_, rfl, toInt64_injective hv ▸ hbecomes⟩

end VoteToggle

namespace ReactionToggle

variable {message user : Int64} {emoji : String} {b : Bool}

theorem run_compiled {w w₁ w₂ : World σ Agora.Store} {rows : List Row}
    {written : Except QueryError (List Row)}
    (hfind : (options.compileAndRun (Intent.findReaction message user emoji).text []).run.run
      (onStore synthesizer) w = (.ok rows, w₁))
    (hwrite : (options.compileAndRun (writeIntent message user emoji
      (ofPresence rows.head?.isSome)).text []).run.run (onStore synthesizer) w₁ = (written, w₂)) :
    (compiled options message user emoji).run.run (onStore synthesizer) w =
      (written.map fun _ => ofPresence rows.head?.isSome, w₂) := by
  rw [compiled, Task.run_andThen_ok (Task.run_andThen_ok hfind)]
  cases written with
  | error e => exact Task.run_andThen_error hwrite
  | ok rows => exact Task.run_andThen_ok hwrite

theorem compiled_step (hfind : Faithful options synthesizer Q (.findReaction message user emoji))
    (hinsert : Faithful options synthesizer Q (.insertReaction message user emoji))
    (hdelete : Faithful options synthesizer Q (.deleteReaction message user emoji))
    {w : World σ Agora.Store} (hs : Stands Q w db) (hdb : Orderly db)
    (hknown : Known db message user)
    (hb : Holds (entries "emoji" (db.at Schema.reactions)) message user emoji b) :
    ∃ reply w' db', (compiled options message user emoji).run.run (onStore synthesizer) w =
        (reply, w') ∧ Stands Q w' db' ∧
      Ends Schema.reactions "emoji" (after message user emoji
        (entries "emoji" (db.at Schema.reactions)) (ofPresence b)) (ofPresence b) (b = false)
        db reply db' := by
  obtain ⟨rows, w₁, hrows, hs₁, hrun⟩ := hfind.looked_up ReactionOutcome hs hdb trivial
    fun answer db' h => by cases h; exact ⟨⟨_, rfl⟩, rfl⟩
  have hfound : rows.head?.isSome = b := by
    cases hrows with
    | findReaction h =>
      rw [hb.unique h]
      cases rows <;> rfl
  rw [compiled, hrun, hfound]
  cases b with
  | true =>
    refine hdelete.written hs₁ hdb trivial (fun answer db' h => ?_) _
    cases h with
    | deleteReaction hbecomes => exact .inl ⟨_, rfl, hbecomes⟩
  | false =>
    refine hinsert.written hs₁ hdb ⟨hknown, hb⟩ (fun answer db' h => ?_) _
    cases h with
    | insertReaction hbecomes => exact .inl ⟨_, rfl, hbecomes⟩
    | insertReactionFull hid => exact .inr ⟨rfl, rfl, hid, rfl⟩

end ReactionToggle

end Agora
