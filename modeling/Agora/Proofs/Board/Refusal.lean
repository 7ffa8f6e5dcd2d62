import Agora.Proofs.Board.Pool
import Agora.Proofs.Task.Ending
import Agora.Proofs.Toggle.Reaction
import Agora.Proofs.Toggle.VoteBatch

namespace Agora

open Agora.Task

variable {σ τ : Type}

namespace Request

def executesOnce (b : Board) : Request → Bool
  | userProfile _ => false
  | vote .. | react .. => b.mode.usesBatch b.commitsBatches
  | _ => true

/-- The texts of a request that have to hold more than blanks, under the names that errors give
them. -/
def requiredTexts : Request → List (String × String)
  | createMessage _ title content => [("title", title), ("content", content)]
  | addComment _ _ content => [("comment", content)]
  | react _ _ emoji => [("emoji", emoji)]
  | findUser username | userProfile username => [("username", username)]
  | createUser username email passwordHash =>
      [("username", username), ("email", email), ("password hash", passwordHash)]
  | listMessages | messageDetail .. | vote .. | invalidateCache => []

def blankField? (r : Request) : Option String :=
  (r.requiredTexts.find? fun t => Text.allBlank t.2.toList).map (·.1)

end Request

section Requirements

variable {α : Type} {field value : String}

theorem require_blank (h : Text.allBlank value.toList = true) (x : Operation α) :
    (Operation.require field value >>= fun _ => x).run = .done (.error (.invalidInput field)) := by
  rw [Operation.require, if_pos h]
  rfl

theorem require_filled (h : Text.allBlank value.toList = false) (x : Operation α) :
    (Operation.require field value >>= fun _ => x) = x := by
  rw [Operation.require, if_neg (by simp [h])]
  rfl

theorem EndsWith.require_andThen {Q : List Call → Except BoardError α → Prop} {x : Operation α}
    (hx : EndsWith Q x) (hnil : ∀ r, Q [] r) :
    EndsWith Q (Operation.require field value >>= fun _ => x) := by
  cases h : Text.allBlank value.toList with
  | true =>
    intro cs r hp
    rw [require_blank h] at hp
    obtain ⟨rfl, hr⟩ := path_done hp
    cases hr
    exact hnil _
  | false => rwa [require_filled h]

def afterRequiring (texts : List (String × String)) (x : Operation α) : Operation α :=
  texts.foldr (fun t x => Operation.require t.1 t.2 >>= fun _ => x) x

theorem afterRequiring_blank {texts : List (String × String)} {x : Operation α}
    (h : (texts.find? fun t => Text.allBlank t.2.toList).map (·.1) = some field) :
    (afterRequiring texts x).run = .done (.error (.invalidInput field)) := by
  induction texts with
  | nil => cases h
  | cons t texts ih =>
    rw [afterRequiring, List.foldr_cons]
    cases hblank : Text.allBlank t.2.toList with
    | true =>
      rw [require_blank hblank]
      simpa [hblank] using h
    | false =>
      rw [require_filled hblank]
      exact ih (by simpa [hblank] using h)

theorem andThen_failed {ε β : Type} {x : ExceptT ε Task α} {f : α → ExceptT ε Task β} {e : ε}
    (h : x.run = .done (.error e)) : (x >>= f).run = .done (.error e) := by
  rw [run_bind, h]
  rfl

end Requirements

section Failing

variable {α : Type} {b : Board}

theorem single_ask (b : Board) (intent : Intent) : EndsWith Single (b.ask intent) :=
  (single_runOne b.options intent.text []).single_ofQuery

theorem single_askAll (b : Board) (intent : Intent) : EndsWith Single (b.askAll intent) :=
  (single_compileAndRun b.options intent.text []).single_ofQuery

theorem single_listMessages : EndsWith Single (Request.listMessages.operation b) := by
  intro cs r hp
  cases path_listMessages hp with
  | ready => exact single_nil r
  | hit => exact single_ok (Nat.zero_le _) _
  | failed =>
    exact ⟨Nat.le_refl _, by simp [Spares, CacheFree, Call.changesCache], by simp [Call.isCommit]⟩
  | stored => exact single_ok (Nat.le_refl _) _

theorem single_voteBatch (options : CompilerOptions) (message user raw : Int64) :
    EndsWith Single (VoteToggle.toggle options true message user raw) := by
  unfold VoteToggle.toggle
  split
  · exact single_done _
  · exact (single_executeBatch _).single_andThen fun _ => quiet_pure _

theorem single_reactionBatch (options : CompilerOptions) (message user : Int64)
    (emoji : String) : EndsWith Single (ReactionToggle.toggle options true message user emoji) :=
  (single_executeBatch _).single_andThen fun _ => quiet_pure _

theorem quiet_voted (outcome : VoteOutcome) :
    EndsWith Quiet (if outcome.isApplied then Operation.invalidate >>= fun _ => pure outcome
      else pure outcome : Operation VoteOutcome) := by
  split
  · exact quiet_invalidate.quiet_andThen fun _ => quiet_pure _
  · exact quiet_pure _

theorem single_request (r : Request) (h : r.executesOnce b) : EndsWith Single (r.operation b) := by
  cases r with
  | listMessages => exact single_listMessages
  | createMessage user title content =>
    have hposted := (single_ask b (.createMessage user title content)).single_andThen fun row =>
      quiet_invalidate.quiet_andThen fun _ => quiet_pure (row.bind Board.rowId?)
    exact ((hposted.require_andThen single_nil).require_andThen single_nil).single_map
  | messageDetail message viewer =>
    exact ((single_ask b _).single_andThen fun _ => quiet_pure _).single_map
  | addComment message user content =>
    have hposted := (single_askAll b (.addComment message user content)).single_andThen fun _ =>
      quiet_invalidate
    exact (hposted.require_andThen single_nil).single_map
  | vote message user raw =>
    have htoggle := single_voteBatch b.options message user raw
    rw [← h] at htoggle
    exact (htoggle.single_ofQuery.single_andThen quiet_voted).single_map
  | react message user emoji =>
    have htoggle := single_reactionBatch b.options message user emoji
    rw [← h] at htoggle
    exact (htoggle.single_ofQuery.require_andThen single_nil).single_map
  | findUser username => exact ((single_ask b _).require_andThen single_nil).single_map
  | createUser username email passwordHash =>
    exact ((((single_ask b _).require_andThen single_nil).require_andThen
      single_nil).require_andThen single_nil).single_map
  | userProfile username => cases h
  | invalidateCache => exact quiet_invalidate.single_of_quiet.single_map

theorem spares_request (b : Board) (r : Request) : EndsWith Spares (r.operation b) := by
  have hP := composes_cacheFree
  have hcompiled (intent : String) := always_cacheFree_compileAndRun b.options intent []
  cases honce : r.executesOnce b with
  | true => exact (single_request r honce).mono fun _ _ h => h.spares
  | false =>
    cases r with
    | vote message user raw =>
      refine ((EndsWith.spares_ofQuery ?_).spares_andThen quiet_voted).spares_map
      exact spares_of_always <| hP.always_voteToggle (fun _ => hcompiled) raw fun _ _ => by
        simp [CacheFree, Call.changesCache]
    | react message user emoji =>
      refine EndsWith.spares_map (EndsWith.require_andThen ?_ fun r => (single_nil r).spares)
      refine EndsWith.spares_ofQuery (spares_of_always ?_)
      exact hP.always_reactionToggle (fun _ => hcompiled) emoji fun _ => by
        simp [CacheFree, Call.changesCache]
    | userProfile username =>
      exact (spares_of_always (hP.always_userProfile hcompiled username)).spares_map
    | _ => cases honce

theorem task_blank {r : Request} {field : String} (h : r.blankField? = some field) :
    r.task b = .done (.error (.invalidInput field)) := by
  cases r with
  | createMessage | addComment | react | findUser | createUser =>
    exact andThen_failed (afterRequiring_blank h)
  | userProfile => exact andThen_failed (andThen_failed (afterRequiring_blank h))
  | _ => cases h

theorem listing_of_failed (services : Services σ τ) (b : Board) (r : Request) (w : World σ τ)
    (hfailed : ((r.task b).run services w).1.isOk = false) :
    ((r.task b).run services w).2.listing = w.listing :=
  run_listing services (spares_request b r _ _ (path_calls services (r.task b) w) hfailed)

theorem store_of_failed {ν : Type} (services : Services σ τ) (view : τ → ν) {r : Request}
    (honce : r.executesOnce b) (w : World σ τ)
    (hclean : ∀ c ∈ (r.task b).calls services w, c.FailsClean services.executor view)
    (hfailed : ((r.task b).run services w).1.isOk = false) :
    view ((r.task b).run services w).2.store = view w.store :=
  run_store services view hclean <|
    (single_request r honce _ _ (path_calls services (r.task b) w)).uncommitted hfailed

/-- A request that fails leaves no trace in the cache. If it makes at most one call of the executor,
it leaves none in the store either, where the executor fails the calls that are made without one.
With a blank text it makes no call at all. -/
theorem failure_leaves_no_trace (services : Services σ τ) (b : Board) (r : Request)
    (w : World σ τ) :
    (∀ e w', (r.task b).run services w = (.error e, w') →
      w'.listing = w.listing ∧
      ∀ (ν : Type) (view : τ → ν), r.executesOnce b →
        (∀ c ∈ (r.task b).calls services w, c.FailsClean services.executor view) →
        view w'.store = view w.store) ∧
    (r.executesOnce b → ((r.task b).calls services w).countP Call.isExecution ≤ 1) ∧
    ∀ field, r.blankField? = some field → (r.task b).calls services w = [] ∧
      (r.task b).run services w = (.error (.invalidInput field), w) := by
  refine ⟨fun e w' hrun => ?_, fun honce => ?_, fun field hblank => ?_⟩
  · have hfailed : ((r.task b).run services w).1.isOk = false := by
      rw [hrun]
      rfl
    have hlisting := listing_of_failed services b r w hfailed
    rw [hrun] at hlisting
    refine ⟨hlisting, fun ν view honce hclean => ?_⟩
    have hstore := store_of_failed services view honce w hclean hfailed
    rwa [hrun] at hstore
  · exact (single_request r honce _ _ (path_calls services (r.task b) w)).once
  · rw [task_blank hblank]
    exact ⟨rfl, rfl⟩

end Failing

section OnStore

open Agora.Store

theorem failsClean_execute (s : BoundStatement) (answer : Except ExecutorError (List Row)) :
    (Call.execute s answer).FailsClean Store.executor Store.database := by
  intro t hfailed
  obtain ⟨e, he⟩ := exists_error_of_not_isOk hfailed
  rcases Connection.execute_eq_error he with ⟨_, -, hsame | hquery⟩
  · rw [hsame]
  · rw [query_eq_error hquery]

theorem failsClean_executeBatch {statements : List BoundStatement}
    (hends : ∀ b ∈ statements, endsTransaction b = false)
    (answer : Except ExecutorError (List (List Row))) :
    (Call.executeBatch statements answer).FailsClean Store.executor Store.database := by
  intro t hfailed
  obtain ⟨e, he⟩ := exists_error_of_not_isOk hfailed
  exact executeBatch_undone he hends

theorem covers_failsClean (options : CompilerOptions) :
    Covers options fun cs => ∀ c ∈ cs, c.FailsClean Store.executor Store.database where
  nil := by simp
  append _ _ hc hd := by simpa [or_imp, forall_and] using ⟨hc, hd⟩
  compiled intent := by
    intro cs u hp
    rcases path_compileAndRun hp with ⟨rfl | ⟨reply, rfl⟩, -⟩ | ⟨raw, s, answer, -, rfl, -⟩
    · simp
    · simp [Call.FailsClean]
    · exact List.forall_mem_cons.2 ⟨trivial, by simpa using failsClean_execute _ _⟩
  voteBatch message user desired answer := List.forall_mem_singleton.2 <|
    failsClean_executeBatch (VoteToggle.togglesRow message user desired).endsTransaction answer
  reactionBatch message user emoji answer := List.forall_mem_singleton.2 <|
    failsClean_executeBatch (ReactionToggle.togglesRow message user emoji).endsTransaction answer
  invalidation := by simp [Call.FailsClean]

theorem failsClean_request (b : Board) (r : Request) :
    Always (fun cs => ∀ c ∈ cs, c.FailsClean Store.executor Store.database) (r.task b) := by
  by_cases hr : r = .listMessages
  · subst hr
    intro cs u hp
    cases path_listMessages hp with
    | ready => simp
    | hit | missed => simp [Call.FailsClean]
    | failed | read =>
      exact List.forall_mem_cons.2 ⟨trivial, List.forall_mem_singleton.2 (failsClean_execute _ _)⟩
    | stored => exact List.forall_mem_cons.2 ⟨trivial,
        List.forall_mem_cons.2 ⟨failsClean_execute _ _, List.forall_mem_singleton.2 trivial⟩⟩
  · exact (covers_failsClean b.options).always_request r hr

theorem failed_request_keeps_tables (synthesizer : Synthesizer σ) (b : Board) {r : Request}
    (honce : r.executesOnce b) {w w' : World σ Store} {e : BoardError}
    (h : (r.task b).run (onStore synthesizer) w = (.error e, w')) :
    w'.store.database = w.store.database := by
  have hclean := failsClean_request b r _ _ (path_calls (onStore synthesizer) (r.task b) w)
  have hstore :=
    store_of_failed (onStore synthesizer) Store.database honce w hclean (by rw [h]; rfl)
  rwa [h] at hstore

theorem failed_comment_leaves_no_trace :
    let services : Services Unit Store :=
      onStore { synthesize := fun _ s => (.ok "INSERT INTO nowhere VALUES (1)", s) }
    let b : Board := { commitsBatches := true }
    let w : World Unit Store :=
      { synthesis := (), store := { database := Store.blank },
        listing := { ttl := 60000, entry := some ⟨[], 0⟩, generation := 3 } }
    (∃ e w', ((Request.addComment 1 7 "hello").task b).run services w = (.error e, w') ∧
      w'.listing = w.listing ∧ w'.store.database = w.store.database) ∧
    ((Request.createMessage 7 "\t " "hello").task b).run services w =
      (.error (.invalidInput "title"), w) := by
  intro services b w
  have hfails : (((Request.addComment 1 7 "hello").task b).run services w).1.isOk = false := by
    decide +kernel
  obtain ⟨e, he⟩ := exists_error_of_not_isOk hfails
  have hcomment := failure_leaves_no_trace services b (.addComment 1 7 "hello") w
  have hmessage := failure_leaves_no_trace services b (.createMessage 7 "\t " "hello") w
  obtain ⟨hlisting, hstore⟩ := hcomment.1 e _ he
  have hclean := failsClean_request b (.addComment 1 7 "hello") _ _ (path_calls services _ w)
  exact ⟨⟨e, _, he, hlisting, hstore _ Store.database rfl hclean⟩,
    (hmessage.2.2 "title" (by decide +kernel)).2⟩

end OnStore

end Agora
