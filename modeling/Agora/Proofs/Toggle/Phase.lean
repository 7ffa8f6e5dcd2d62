import Agora.Proofs.Toggle.Key

namespace Agora

open Store

namespace Task

variable {α β γ σ : Type}

theorem bind_assoc (t : Task α) (f : α → Task β) (g : β → Task γ) :
    (t.bind f).bind g = t.bind fun a => (f a).bind g := by
  induction t with
  | done a => rfl
  | synthesize intent next ih => exact congrArg _ (funext ih)
  | execute s next ih => exact congrArg _ (funext ih)
  | executeBatch ss next ih => exact congrArg _ (funext ih)
  | lookup next ih => exact congrArg _ (funext ih)
  | store rows generation next ih => exact congrArg _ ih
  | invalidate next ih => exact congrArg _ ih

def ask (options : CompilerOptions) (intent : Intent)
    (next : Except QueryError (List Row) → Task α) : Task α :=
  (options.compileAndRun intent.text []).run.bind next

def asked (sql : String) (next : Except QueryError (List Row) → Task α) : Task α :=
  .execute ⟨sql, []⟩ fun answer => next (answer.mapError .executionFailed)

variable {options : CompilerOptions} {synthesizer : Synthesizer σ} {Q : σ → Prop}
  {intent : Intent} {next : Except QueryError (List Row) → Task α} {w : World σ Agora.Store}
  {db : Database} {c : Call}

theorem ask_step (h : FaithfulAnywhere options synthesizer Q intent) (hs : Stands Q w db)
    (hc : (ask options intent next).call? (onStore synthesizer) w = some c) :
    ∃ sql raw w', c = .synthesize intent.text (.ok raw) ∧ CarriesAnywhere sql intent ∧
      (ask options intent next).step (onStore synthesizer) w = (asked sql next, w') ∧
      Stands Q w' db := by
  obtain ⟨raw, q', statement, hreply, hq', hstatement, hcarries⟩ := h w.synthesis hs.synthesis
  have hreply' : (onStore synthesizer).synthesizer.synthesize intent.text w.synthesis =
      (.ok raw, q') := hreply
  rw [ask, run_compileAndRun] at hc ⊢
  refine ⟨statement.sql, raw, { w with synthesis := q' }, ?_, hcarries, ?_, hs.store, hq'⟩
  · simpa [Task.bind, call?, hreply'] using hc.symm
  · simp only [Task.bind, step, hreply', hstatement, statementOf_params hstatement]
    rfl

theorem asked_step {sql : String} (h : CarriesAnywhere sql intent) (hs : Stands Q w db)
    (hdb : Orderly db) (hrefers : intent.Refers db)
    (hc : (asked sql next).call? (onStore synthesizer) w = some c) :
    ∃ answer w' db', c = .execute ⟨sql, []⟩ (answer.mapError (.database sql)) ∧
      (asked sql next).step (onStore synthesizer) w =
        (next (answer.mapError fun e => .executionFailed (.database sql e)), w') ∧
      Stands Q w' db' ∧ intent.Performs db answer db' := by
  obtain ⟨answer, s', db', hexecute, hs', hperforms⟩ := h w.store db hs.store hdb hrefers
  have hexecute' : (onStore synthesizer).executor.execute ⟨sql, []⟩ w.store =
      (answer.mapError (.database sql), s') := hexecute
  refine ⟨answer, { w with store := s' }, db', ?_, ?_, ⟨hs', hs.synthesis⟩, hperforms⟩
  · simpa [asked, call?, hexecute'] using hc.symm
  · simp only [asked, step, hexecute']
    cases answer <;> rfl

end Task

namespace Toggle

def finish (out : Outcome) (r : Except QueryError (List Row)) : Task Reply :=
  .done (r.map fun _ => out)

def proceed (options : CompilerOptions) (t : Toggle) :
    Except QueryError (List Row) → Task Reply
  | .error e => .done (.error e)
  | .ok rows => match t with
    | vote message user raw => match VoteValue.ofRaw? raw with
      | none => .done (.ok (.vote (.rejected raw)))
      | some v =>
          let out := VoteToggle.transition rows.head? v
          .ask options (VoteToggle.writeIntent message user v out) (finish (.vote out))
    | reaction message user emoji =>
        let out := ReactionToggle.ofPresence rows.head?.isSome
        .ask options (ReactionToggle.writeIntent message user emoji out) (finish (.reaction out))

variable {options : CompilerOptions} {t : Toggle} {d : Mark}

theorem run_write {β : Type} (options : CompilerOptions) (intent : Intent) (f : β → Outcome)
    (out : β) :
    (f <$> (do let _ ← options.compileAndRun intent.text []; return out : Query β)).run =
      .ask options intent (finish (f out)) := by
  rw [run_map, run_bind, Task.bind_assoc]
  refine congrArg _ (funext fun r => ?_)
  cases r <;> rfl

theorem task_of_mark (hd : t.mark? = some d) :
    t.task options .compiled = .ask options t.find (t.proceed options) := by
  cases t with
  | vote message user raw =>
    obtain ⟨v, -, hv, -⟩ := vote_cases hd
    simp only [task, VoteToggle.toggle, hv, ToggleMode.usesBatch, Bool.false_eq_true, if_false,
      VoteToggle.compiled, CompilerOptions.runOne, run_map, run_bind, Task.bind_assoc]
    refine congrArg _ (funext fun r => ?_)
    cases r with
    | error e => rfl
    | ok rows =>
      simp only [proceed, hv]
      exact run_write options _ .vote _
  | reaction message user emoji =>
    simp only [task, ReactionToggle.toggle, ToggleMode.usesBatch, Bool.false_eq_true, if_false,
      ReactionToggle.compiled, CompilerOptions.runOne, run_map, run_bind, Task.bind_assoc]
    refine congrArg _ (funext fun r => ?_)
    cases r with
    | error e => rfl
    | ok rows => exact run_write options _ .reaction _

theorem task_rejected (hd : t.mark? = none) :
    t.task options .compiled = .done (.ok (t.outcome none)) := by
  cases t with
  | vote message user raw =>
    have hraw : VoteValue.ofRaw? raw = none := by simpa [mark?] using hd
    simp only [task, VoteToggle.toggle, outcome, hraw]
    rfl
  | reaction message user emoji => cases hd

theorem write_vote (message user : Int64) (v : VoteValue) (o : Option VoteValue) :
    (vote message user v.toInt64).write (o.map .vote) =
      VoteToggle.writeIntent message user v (VoteToggle.outcome o v) := by
  rcases o with - | - | - <;> cases v <;> rfl

variable (options) in
theorem proceed_of_performs {db db' : Database} {answer : Except StatementError (List Row)}
    (hdb : Orderly db) (hd : t.mark? = some d) (h : t.find.Performs db answer db') :
    ∃ rows found, answer = .ok rows ∧ db' = db ∧ t.key.Holds db found ∧
      t.proceed options (.ok rows) =
        .ask options (t.write found) (finish (t.outcome found)) := by
  cases t with
  | vote message user raw =>
    obtain ⟨v, rfl, hv, rfl⟩ := vote_cases hd
    obtain ⟨o, ho⟩ := VoteToggle.exists_holds (hdb.shaped.at_schema leaf_votes.mem) hdb.votes
      message user
    cases h with
    | done _ hdoes => cases hdoes with
      | @findVote _ _ rows hrows =>
        rw [ho.held (hdb.shaped.at_schema leaf_votes.mem) hdb.votes] at hrows
        refine ⟨rows, o.map .vote, rfl, rfl, ⟨o, ho, rfl⟩, ?_⟩
        simp only [proceed, hv, VoteToggle.transition_of_rows hrows v, outcome_vote, write_vote]
    | full hmeets => exact hmeets.elim
    | refused _ hmeets => exact hmeets.elim
  | reaction message user emoji =>
    cases h with
    | done _ hdoes => cases hdoes with
      | @findReaction _ _ _ rows hrows =>
        refine ⟨rows, if rows.isEmpty then none else some .reaction, rfl, rfl,
          ⟨_, hrows, by cases rows <;> rfl⟩, ?_⟩
        cases rows <;> rfl
    | full hmeets => exact hmeets.elim
    | refused _ hmeets => exact hmeets.elim

inductive Phase where
  | ready
  | finding
  | decided (found : Option Mark)
  | writing (found : Option Mark)
  | done (reply : Reply)

def Phase.reply? : Phase → Option Reply
  | done reply => some reply
  | _ => none

theorem Phase.eq_done {q : Phase} {reply : Reply} (h : q.reply? = some reply) :
    q = .done reply := by
  cases q with
  | done => rw [Option.some.inj h]
  | _ => cases h

def Phase.found? : Phase → Option (Option Mark)
  | decided found | writing found => some found
  | _ => none

def Phase.first (t : Toggle) : Phase :=
  if t.mark?.isSome then .ready else .done (.ok (t.outcome none))

inductive Stage (options : CompilerOptions) (t : Toggle) : Phase → Task Reply → List Call → Prop
  | rejected : t.mark? = none →
      Stage options t (.done (.ok (t.outcome none))) (.done (.ok (t.outcome none))) []
  | ready : t.mark?.isSome → Stage options t .ready (.ask options t.find (t.proceed options)) []
  | finding {sql raw} : t.mark?.isSome → CarriesAnywhere sql t.find →
      Stage options t .finding (.asked sql (t.proceed options)) [.synthesize t.find.text (.ok raw)]
  | decided {db found raw s rows} : t.mark?.isSome → t.key.Holds db found →
      Stage options t (.decided found) (.ask options (t.write found) (finish (t.outcome found)))
        [.synthesize t.find.text (.ok raw), .execute s (.ok rows)]
  | writing {db found sql raw s rows raw'} : t.mark?.isSome → t.key.Holds db found →
      CarriesAnywhere sql (t.write found) →
      Stage options t (.writing found) (.asked sql (finish (t.outcome found)))
        [.synthesize t.find.text (.ok raw), .execute s (.ok rows),
          .synthesize (t.write found).text (.ok raw')]
  | done {reply cs} : cs.countP (·.isExecution) = 2 → Stage options t (.done reply) (.done reply) cs

theorem Phase.first_cases (t : Toggle) :
    first t = .ready ∨ ∃ out, first t = .done (.ok out) := by
  unfold first
  split
  · exact .inl rfl
  · exact .inr ⟨_, rfl⟩

theorem stage_first (options : CompilerOptions) (t : Toggle) :
    Stage options t (.first t) (t.task options .compiled) [] := by
  cases hd : t.mark? with
  | none =>
    rw [Phase.first, hd, task_rejected hd]
    exact .rejected hd
  | some d =>
    rw [Phase.first, hd, task_of_mark hd]
    exact .ready (by rw [hd]; rfl)

/-- What a call of a toggle does, by the phase that it is made in. -/
inductive Turn (t : Toggle) (db : Database) : Phase → Call → Phase → Database → Prop
  | asks {reply} : Turn t db .ready (.synthesize t.find.text reply) .finding db
  | finds {found s rows} : t.key.Holds db found →
      Turn t db .finding (.execute s (.ok rows)) (.decided found) db
  | decides {found reply} :
      Turn t db (.decided found) (.synthesize (t.write found).text reply) (.writing found) db
  | writes {found now c s rows db'} : t.key.Holds db now → t.leaves found now = some c →
      t.key.Becomes c db db' →
      Turn t db (.writing found) (.execute s (.ok rows)) (.done (.ok (t.outcome found))) db'
  | refused {now s sql v} : t.key.Holds db now → now ≠ none →
      Turn t db (.writing none) (.execute s (.error (.database sql (.violation v))))
        (.done (.error (.executionFailed (.database sql (.violation v))))) db
  | full {s sql} : (db.at t.table).nextId? = none →
      Turn t db (.writing none)
        (.execute s (.error (.database sql (.other "database or disk is full"))))
        (.done (.error (noIdLeft sql))) db

namespace Turn

variable {db db' : Database} {p p' : Phase} {c : Call}

theorem orderly (h : Turn t db p c p' db') (hdb : Orderly db) : Orderly db' := by
  cases h with
  | writes _ _ hbecomes => exact hbecomes.orderly
  | _ => exact hdb

theorem known (h : Turn t db p c p' db') {message user : Int64} (hknown : Known db message user) :
    Known db' message user := by
  cases h with
  | writes _ _ hbecomes => exact hbecomes.known _ _ hknown
  | _ => exact hknown

theorem other (h : Turn t db p c p' db') {k : Key} {m : Option Mark} (hne : k ≠ t.key)
    (hk : k.Holds db m) : k.Holds db' m := by
  cases h with
  | writes _ _ hbecomes => exact hbecomes.other _ _ hne hk
  | _ => exact hk

theorem going (h : Turn t db p c p' db') : p.reply? = none := by
  cases h <;> rfl

theorem unchanged (h : Turn t db p c p' db') (hp : ∀ out, p' ≠ .done (.ok out)) : db' = db := by
  cases h with
  | writes => exact absurd rfl (hp _)
  | _ => rfl

theorem unchanged_or_found (h : Turn t db p c p' db') : db' = db ∨ p.found?.isSome := by
  cases h with
  | writes => exact .inr rfl
  | _ => exact .inl rfl

theorem alone (h : Turn t db p c p' db') (hdb : Orderly db) (hd : t.mark?.isSome)
    {m : Option Mark} (hm : t.key.Holds db m) (hfound : ∀ found, p.found? = some found → found = m)
    (hroom : ∀ sql, p' ≠ .done (.error (noIdLeft sql))) :
    (p'.reply? = none ∧ db' = db ∧ ∀ found, p'.found? = some found → found = m) ∨
      p' = .done (.ok (t.outcome m)) ∧ t.key.Holds db' (t.next m) := by
  cases h with
  | asks => exact .inl ⟨rfl, rfl, nofun⟩
  | finds hnow =>
    refine .inl ⟨rfl, rfl, fun found hp => ?_⟩
    rw [← Option.some.inj hp, hnow.unique hdb hm]
  | decides => exact .inl ⟨rfl, rfl, hfound⟩
  | writes hnow hleaves hbecomes =>
    obtain rfl := hfound _ rfl
    obtain ⟨d, hd'⟩ := Option.isSome_iff_exists.1 hd
    rw [hnow.unique hdb hm, leaves_self hd'] at hleaves
    obtain rfl := Option.some.inj hleaves
    exact .inr ⟨rfl, hbecomes.holds⟩
  | refused hnow hne =>
    rw [hnow.unique hdb hm, ← hfound _ rfl] at hne
    exact absurd rfl hne
  | @full _ sql => exact absurd rfl (hroom sql)

theorem stays_free (h : Turn t db p c p' db') (hdb : Orderly db) (hfree : t.key.Holds db none) :
    t.key.Holds db' none ∨ p = .writing none ∧ ∃ s rows, c = .execute s (.ok rows) := by
  cases h with
  | @writes found _ _ s rows _ hnow hleaves hbecomes =>
    cases found with
    | none => exact .inr ⟨rfl, s, rows, rfl⟩
    | some w =>
      rw [hnow.unique hdb hfree, leaves_free] at hleaves
      obtain rfl := Option.some.inj hleaves
      exact .inl hbecomes.holds
  | _ => exact .inl hfree

end Turn

theorem find_mem_intents (hd : t.mark?.isSome) : t.find ∈ t.intents := by
  cases t with
  | vote message user raw =>
    have hraw : (VoteValue.ofRaw? raw).isSome := by simpa [mark?] using hd
    simp [intents, find, hraw]
  | reaction message user emoji => simp [intents, find]

theorem write_mem_intents (hd : t.mark?.isSome) (found : Option Mark) :
    t.write found ∈ t.intents := by
  cases t with
  | vote message user raw =>
    have hraw : (VoteValue.ofRaw? raw).isSome := by simpa [mark?] using hd
    cases found with
    | none => simp [intents, write, insertion, hraw]
    | some w =>
      simp only [intents, hraw, if_true, write]
      split <;> simp
  | reaction message user emoji => cases found <;> simp [intents, write, insertion]

theorem refers_find (db : Database) (t : Toggle) : t.find.Refers db := by
  cases t <;> trivial

theorem refers_write {db : Database} (hknown : Known db t.message t.user) (found : Option Mark) :
    (t.write found).Refers db := by
  cases t with
  | vote message user raw =>
    cases found with
    | none => exact hknown
    | some w =>
      simp only [write]
      split <;> trivial
  | reaction message user emoji =>
    cases found with
    | none => exact hknown
    | some w => trivial

section Step

variable {σ : Type} {synthesizer : Synthesizer σ} {Q : σ → Prop} {w : World σ Agora.Store}
  {db : Database} {p : Phase} {task : Task Reply} {cs : List Call} {c : Call}

theorem stage_step (hstage : Stage options t p task cs) (hs : Stands Q w db) (hdb : Orderly db)
    (hknown : Known db t.message t.user)
    (hfaithful : ∀ intent ∈ t.intents, FaithfulAnywhere options synthesizer Q intent)
    (hc : task.call? (onStore synthesizer) w = some c) :
    ∃ p' task' w' db', task.step (onStore synthesizer) w = (task', w') ∧
      Stage options t p' task' (cs ++ [c]) ∧ Stands Q w' db' ∧ t.Turn db p c p' db' := by
  cases hstage with
  | rejected => cases hc
  | done => cases hc
  | ready hd =>
    obtain ⟨sql, raw, w', rfl, hcarries, hstep, hs'⟩ :=
      Task.ask_step (hfaithful _ (find_mem_intents hd)) hs hc
    exact ⟨_, _, w', db, hstep, .finding hd hcarries, hs', .asks⟩
  | decided hd hfound =>
    obtain ⟨sql, raw, w', rfl, hcarries, hstep, hs'⟩ :=
      Task.ask_step (hfaithful _ (write_mem_intents hd _)) hs hc
    exact ⟨_, _, w', db, hstep, .writing hd hfound hcarries, hs', .decides⟩
  | finding hd hcarries =>
    obtain ⟨answer, w', db', rfl, hstep, hs', hperforms⟩ :=
      Task.asked_step hcarries hs hdb (refers_find db t) hc
    obtain ⟨d, hd'⟩ := Option.isSome_iff_exists.1 hd
    obtain ⟨rows, found, rfl, rfl, hfound, hproceed⟩ :=
      proceed_of_performs options hdb hd' hperforms
    refine ⟨_, _, w', _, hstep, ?_, hs', .finds hfound⟩
    exact hproceed ▸ .decided hd hfound
  | writing hd hfound hcarries =>
    obtain ⟨answer, w', db', rfl, hstep, hs', hperforms⟩ :=
      Task.asked_step hcarries hs hdb (refers_write hknown _) hc
    obtain ⟨d, hd'⟩ := Option.isSome_iff_exists.1 hd
    refine ⟨.done _, _, w', db', hstep, .done rfl, hs', ?_⟩
    cases writes_of_performs hdb hd' hfound hperforms with
    | done hnow hleaves hbecomes => exact .writes hnow hleaves hbecomes
    | refused v hnone hnow hne =>
      subst hnone
      exact .refused hnow hne
    | full hnone hid =>
      subst hnone
      exact .full hid

end Step

end Toggle

end Agora
