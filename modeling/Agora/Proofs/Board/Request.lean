import Agora.Proofs.Task.Operation

namespace Agora

open Agora.Task

inductive Request where
  | listMessages
  | createMessage (user : Int64) (title content : String)
  | messageDetail (message : Int64) (viewer : Option Int64)
  | addComment (message user : Int64) (content : String)
  | vote (message user raw : Int64)
  | react (message user : Int64) (emoji : String)
  | findUser (username : String)
  | createUser (username email passwordHash : String)
  | userProfile (username : String)
  | invalidateCache
  deriving DecidableEq

inductive Answer where
  | rows (rows : List Row)
  | row (row : Option Row)
  | id (id : Option Int64)
  | vote (outcome : VoteOutcome)
  | reaction (outcome : ReactionOutcome)
  | profile (profile : Option Profile)
  | nothing

namespace Request

def operation (b : Board) : Request → Operation Answer
  | listMessages => .rows <$> Board.listMessages
  | createMessage user title content => .id <$> b.createMessage user title content
  | messageDetail message viewer => .row <$> b.messageDetail message viewer
  | addComment message user content => (fun _ => .nothing) <$> b.addComment message user content
  | vote message user raw => .vote <$> b.vote message user raw
  | react message user emoji => .reaction <$> b.react message user emoji
  | findUser username => .row <$> b.findUser username
  | createUser username email passwordHash => .row <$> b.createUser username email passwordHash
  | userProfile username => .profile <$> b.userProfile username
  | invalidateCache => (fun _ => .nothing) <$> Operation.invalidate

def task (b : Board) (r : Request) : Task (Except BoardError Answer) :=
  (r.operation b).run

def Writes : Request → Answer → Prop
  | createMessage .., _ | addComment .., _ => True
  | vote .., .vote outcome => outcome.isApplied
  | _, _ => False

end Request

namespace Composes

section Compiled

variable {b : Board} {P : List Call → Prop} (hP : Composes P)
  (hcompiled : ∀ intent, Always P (b.options.compileAndRun intent []).run)
include hP hcompiled

theorem always_runOne (intent : String) : Always P (b.options.runOne intent []).run :=
  hP.always_andThen (hcompiled _) fun _ => hP.always_pure _

theorem always_ask (intent : Intent) : Always P (b.ask intent).run :=
  hP.always_ofQuery (hP.always_runOne hcompiled _)

theorem always_askAll (intent : Intent) : Always P (b.askAll intent).run :=
  hP.always_ofQuery (hcompiled _)

theorem always_findUser (username : String) : Always P (b.findUser username).run :=
  hP.always_andThen (hP.always_require _ _) fun _ => hP.always_ask hcompiled _

theorem always_userProfile (username : String) : Always P (b.userProfile username).run := by
  refine hP.always_andThen (hP.always_findUser hcompiled username) ?_
  rintro (_ | user)
  · exact hP.always_pure _
  · dsimp only
    split
    · exact hP.always_andThen (hP.always_askAll hcompiled _) fun _ => hP.always_pure _
    · exact hP.always_pure _

end Compiled

section Toggles

variable {b : Board} {P : List Call → Prop} {usesBatch : Bool} {message user : Int64}
  (hP : Composes P)
  (hcompiled : usesBatch = false → ∀ intent, Always P (b.options.compileAndRun intent []).run)
include hP hcompiled

theorem always_voteToggle (raw : Int64)
    (hbatch : ∀ desired answer, P [.executeBatch (VoteToggle.batch message user desired) answer]) :
    Always P (VoteToggle.toggle b.options usesBatch message user raw).run := by
  unfold VoteToggle.toggle
  split
  · exact hP.always_pure _
  · cases usesBatch with
    | true => exact hP.always_andThen (hP.always_executeBatch (hbatch _)) fun _ => hP.always_pure _
    | false => exact hP.always_andThen (hP.always_runOne (hcompiled rfl) _) fun _ =>
        hP.always_andThen (hcompiled rfl _) fun _ => hP.always_pure _

theorem always_reactionToggle (emoji : String)
    (hbatch : ∀ answer, P [.executeBatch (ReactionToggle.batch message user emoji) answer]) :
    Always P (ReactionToggle.toggle b.options usesBatch message user emoji).run := by
  cases usesBatch with
  | true => exact hP.always_andThen (hP.always_executeBatch hbatch) fun _ => hP.always_pure _
  | false => exact hP.always_andThen (hP.always_runOne (hcompiled rfl) _) fun _ =>
      hP.always_andThen (hcompiled rfl _) fun _ => hP.always_pure _

end Toggles

theorem always_voted {P : List Call → Prop} (hP : Composes P) (hinvalidate : P [.invalidate])
    (outcome : VoteOutcome) :
    Always P (if outcome.isApplied then Operation.invalidate >>= fun _ => pure outcome
      else pure outcome : Operation VoteOutcome).run := by
  split
  · exact hP.always_andThen (hP.always_invalidate hinvalidate) fun _ => hP.always_pure _
  · exact hP.always_pure _

end Composes

structure Covers (options : CompilerOptions) (P : List Call → Prop) : Prop extends Composes P where
  compiled : ∀ intent, Always P (options.compileAndRun intent []).run
  voteBatch : ∀ message user desired answer,
    P [.executeBatch (VoteToggle.batch message user desired) answer]
  reactionBatch : ∀ message user emoji answer,
    P [.executeBatch (ReactionToggle.batch message user emoji) answer]
  invalidation : P [.invalidate]

namespace Covers

variable {b : Board} {P : List Call → Prop}

theorem always_request (h : Covers b.options P) (r : Request) (hr : r ≠ .listMessages) :
    Always P (r.task b) := by
  cases r with
  | listMessages => exact absurd rfl hr
  | createMessage user title content =>
    exact h.always_map <| h.always_andThen (h.always_require _ _) fun _ =>
      h.always_andThen (h.always_require _ _) fun _ =>
      h.always_andThen (h.always_ask h.compiled _) fun _ =>
      h.always_andThen (h.always_invalidate h.invalidation) fun _ => h.always_pure _
  | messageDetail message viewer =>
    exact h.always_map <| h.always_andThen (h.always_ask h.compiled _) fun _ => h.always_pure _
  | addComment message user content =>
    exact h.always_map <| h.always_andThen (h.always_require _ _) fun _ =>
      h.always_andThen (h.always_askAll h.compiled _) fun _ => h.always_invalidate h.invalidation
  | vote message user raw =>
    refine h.always_map <| h.always_andThen (h.always_ofQuery ?_) (h.always_voted h.invalidation)
    exact h.always_voteToggle (fun _ => h.compiled) raw (h.voteBatch message user)
  | react message user emoji =>
    refine h.always_map <| h.always_andThen (h.always_require _ _) fun _ => h.always_ofQuery ?_
    exact h.always_reactionToggle (fun _ => h.compiled) emoji (h.reactionBatch message user emoji)
  | findUser username => exact h.always_map (h.always_findUser h.compiled username)
  | createUser username email passwordHash =>
    exact h.always_map <| h.always_andThen (h.always_require _ _) fun _ =>
      h.always_andThen (h.always_require _ _) fun _ =>
      h.always_andThen (h.always_require _ _) fun _ => h.always_ask h.compiled _
  | userProfile username => exact h.always_map (h.always_userProfile h.compiled username)
  | invalidateCache => exact h.always_map (h.always_invalidate h.invalidation)

end Covers

section Listing

variable {b : Board}

theorem listMessages_task : Request.listMessages.task b = .lookup fun
    | (some rows, _) => .done (.ok (.rows rows))
    | (none, generation) => .execute ⟨Board.listingSql, []⟩ fun
      | .ok rows => .store rows generation (.done (.ok (.rows rows)))
      | .error e => .done (.error (.query (.executionFailed e))) := by
  change Task.lookup _ = _
  congr 1
  funext found
  obtain ⟨_ | rows, generation⟩ := found
  · change Task.execute _ _ = _
    congr 1
    funext answer
    cases answer <;> rfl
  · rfl

inductive ListingAt : List Call → Task (Except BoardError Answer) → Prop
  | ready {t} : ListingAt [] t
  | hit {rows generation} :
      ListingAt [.lookup (some rows, generation)] (.done (.ok (.rows rows)))
  | missed {generation next} :
      ListingAt [.lookup (none, generation)] (.execute ⟨Board.listingSql, []⟩ next)
  | failed {generation e} :
      ListingAt [.lookup (none, generation), .execute ⟨Board.listingSql, []⟩ (.error e)]
        (.done (.error (.query (.executionFailed e))))
  | read {generation rows} :
      ListingAt [.lookup (none, generation), .execute ⟨Board.listingSql, []⟩ (.ok rows)]
        (.store rows generation (.done (.ok (.rows rows))))
  | stored {generation rows} :
      ListingAt [.lookup (none, generation), .execute ⟨Board.listingSql, []⟩ (.ok rows),
        .store rows generation] (.done (.ok (.rows rows)))

theorem path_listMessages {cs : List Call} {u : Task (Except BoardError Answer)}
    (h : Path (Request.listMessages.task b) cs u) : ListingAt cs u := by
  rw [listMessages_task] at h
  cases h with
  | nil => exact .ready
  | cons hm hp =>
    cases hm with
    | lookup found =>
      obtain ⟨_ | rows, generation⟩ := found
      · cases hp with
        | nil => exact .missed
        | cons hm hp =>
          cases hm with
          | execute answer =>
            cases answer with
            | error e => obtain ⟨rfl, rfl⟩ := path_done hp; exact .failed
            | ok rows =>
              cases hp with
              | nil => exact .read
              | cons hm hp =>
                cases hm with
                | store => obtain ⟨rfl, rfl⟩ := path_done hp; exact .stored
      · obtain ⟨rfl, rfl⟩ := path_done hp
        exact .hit

end Listing

section Writes

variable {b : Board}

theorem path_require_ok {field value : String} {cs : List Call} {a : Unit}
    (h : Path (Operation.require field value).run cs (.done (.ok a))) : cs = [] := by
  unfold Operation.require at h
  split at h
  · obtain ⟨rfl, -⟩ := path_done (a := Except.error (BoardError.invalidInput field)) h; rfl
  · exact (path_pure_ok h).1

theorem path_invalidate_ok {cs : List Call} {a : Unit}
    (h : Path Operation.invalidate.run cs (.done (.ok a))) : cs = [.invalidate] := by
  cases path_ofQuery_ok h with
  | cons hm hp =>
    cases hm with
    | invalidate => obtain ⟨rfl, -⟩ := path_done hp; rfl

theorem writes_ends_in_invalidation {r : Request} {answer : Answer} {cs : List Call}
    (h : Path (r.task b) cs (.done (.ok answer))) (hw : r.Writes answer) :
    ∃ ds, cs = ds ++ [.invalidate] ∧ EndsInCommit ds := by
  cases r with
  | createMessage user title content =>
    obtain ⟨a, -, hop⟩ := path_map_ok h
    obtain ⟨_, _, _, rfl, htitle, hrest⟩ := path_andThen_ok hop
    obtain ⟨_, _, _, rfl, hcontent, hrest⟩ := path_andThen_ok hrest
    obtain ⟨row, ds, _, rfl, hask, hrest⟩ := path_andThen_ok hrest
    obtain ⟨_, _, _, rfl, hinvalidate, hreturn⟩ := path_andThen_ok hrest
    obtain rfl := path_require_ok htitle
    obtain rfl := path_require_ok hcontent
    obtain rfl := path_invalidate_ok hinvalidate
    obtain ⟨rfl, -⟩ := path_pure_ok hreturn
    exact ⟨ds, by simp, endsInCommit_runOne (path_ofQuery_ok hask)⟩
  | addComment message user content =>
    obtain ⟨a, -, hop⟩ := path_map_ok h
    obtain ⟨_, _, _, rfl, hcontent, hrest⟩ := path_andThen_ok hop
    obtain ⟨row, ds, _, rfl, hask, hinvalidate⟩ := path_andThen_ok hrest
    obtain rfl := path_require_ok hcontent
    obtain rfl := path_invalidate_ok hinvalidate
    exact ⟨ds, by simp, endsInCommit_compileAndRun (path_ofQuery_ok hask)⟩
  | vote message user raw =>
    obtain ⟨outcome, rfl, hop⟩ := path_map_ok h
    obtain ⟨_, ds, _, rfl, htoggle, hrest⟩ := path_andThen_ok hop
    split at hrest
    · rename_i happlied
      obtain ⟨_, _, _, rfl, hinvalidate, hreturn⟩ := path_andThen_ok hrest
      obtain rfl := path_invalidate_ok hinvalidate
      obtain ⟨rfl, rfl⟩ := path_pure_ok hreturn
      exact ⟨ds, by simp, endsInCommit_voteToggle (path_ofQuery_ok htoggle) happlied⟩
    · rename_i happlied
      obtain ⟨-, rfl⟩ := path_pure_ok hrest
      exact absurd hw happlied
  | _ => exact hw.elim

end Writes

end Agora
