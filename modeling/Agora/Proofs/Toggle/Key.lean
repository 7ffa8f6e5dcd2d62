import Agora.Proofs.Toggle.Agreement
import Agora.Proofs.Toggle.Anywhere
import Agora.Proofs.Toggle.ReactionRun
/-!
Keys are what toggles of votes and of reactions are about, in one way of speaking for both. A key
has no row, or one that bears a mark.
-/
namespace Agora

open Store

inductive Key where
  | vote (message user : Int64)
  | reaction (message user : Int64) (emoji : String)
  deriving DecidableEq, Repr

inductive Mark where
  | vote (v : VoteValue)
  | reaction
  deriving DecidableEq, Repr

def Mark.vote? : Mark → Option VoteValue
  | vote v => some v
  | reaction => none

namespace Key

def rows (db : Database) : Key → List Record
  | vote message user => (db.at Schema.votes).records.filter (·.meets (userKey message user))
  | reaction message user emoji =>
      (db.at Schema.reactions).records.filter (·.meets (ReactionToggle.key message user emoji))

def Holds (db : Database) : Key → Option Mark → Prop
  | vote message user, c => ∃ o,
      VoteToggle.Holds (entries "value" (db.at Schema.votes)) message user o ∧ c = o.map .vote
  | reaction message user emoji, c => ∃ b,
      ReactionToggle.Holds (entries "emoji" (db.at Schema.reactions)) message user emoji b ∧
        c = if b then some .reaction else none

variable {db db' : Database} {k : Key} {c c' : Option Mark}

theorem length_rows (hdb : Orderly db) (k : Key) : (k.rows db).length ≤ 1 := by
  have hone {t : TableState} (hl : Lawful t) {p : Pattern}
      (hp : p.map (·.1) ∈ TableState.keys t.schema) :
      (t.records.filter (·.meets p)).length ≤ 1 := by
    cases hrows : t.records.filter (·.meets p) with
    | nil => simp
    | cons r rest =>
      have hmem : r ∈ t.records.filter (·.meets p) := hrows ▸ List.mem_cons_self
      obtain ⟨hr, hm⟩ := List.mem_filter.1 hmem
      rw [← hrows, hl.filter_meets hp hr hm]
      simp
  cases k with
  | vote message user =>
    have ht := hdb.shaped.at_schema leaf_votes.mem
    exact hone hdb.votes ((VoteToggle.keyFor_votes ht message user .up).keys ▸
      List.mem_singleton_self _)
  | reaction message user emoji =>
    have ht := hdb.shaped.at_schema leaf_reactions.mem
    exact hone hdb.reactions ((ReactionToggle.keyFor_reactions ht message user emoji).keys ▸
      List.mem_singleton_self _)

theorem exists_holds (hdb : Orderly db) (k : Key) : ∃ c, k.Holds db c := by
  cases k with
  | vote message user =>
    obtain ⟨o, ho⟩ := VoteToggle.exists_holds (hdb.shaped.at_schema leaf_votes.mem) hdb.votes
      message user
    exact ⟨_, o, ho, rfl⟩
  | reaction message user emoji =>
    obtain ⟨b, hb⟩ := ReactionToggle.exists_holds (db.at Schema.reactions) message user emoji
    exact ⟨_, b, hb, rfl⟩

theorem Holds.unique (hdb : Orderly db) (h : k.Holds db c) (h' : k.Holds db c') : c = c' := by
  cases k with
  | vote message user =>
    obtain ⟨o, ho, rfl⟩ := h
    obtain ⟨o', ho', rfl⟩ := h'
    have ht := hdb.shaped.at_schema leaf_votes.mem
    obtain rfl : o = o' := VoteToggle.valuesOf_injective
      ((ho.held ht hdb.votes).symm.trans (ho'.held ht hdb.votes))
    rfl
  | reaction message user emoji =>
    obtain ⟨b, hb, rfl⟩ := h
    obtain ⟨b', hb', rfl⟩ := h'
    rw [hb.unique hb']

theorem Holds.of_voted {message user : Int64} {out : VoteOutcome} (hdb : Orderly db)
    (hbecomes : Becomes Schema.votes "value" (VoteToggle.after message user
      (entries "value" (db.at Schema.votes)) out) db db')
    (hne : k ≠ .vote message user) (h : k.Holds db c) : k.Holds db' c := by
  cases k with
  | vote message' user' =>
    obtain ⟨o, ho, rfl⟩ := h
    refine ⟨o, ?_, rfl⟩
    rw [hbecomes.entries leaf_votes hdb.shaped]
    refine ho.after_other (fun he => hne ?_) out
    obtain ⟨rfl, rfl⟩ := Prod.mk.inj he
    rfl
  | reaction message' user' emoji =>
    rwa [Holds, hbecomes.other leaf_votes hdb.shaped leaf_reactions.mem (by decide)]

theorem Holds.of_reacted {message user : Int64} {emoji : String} {out : ReactionOutcome}
    (hdb : Orderly db)
    (hbecomes : Becomes Schema.reactions "emoji" (ReactionToggle.after message user emoji
      (entries "emoji" (db.at Schema.reactions)) out) db db')
    (hne : k ≠ .reaction message user emoji) (h : k.Holds db c) : k.Holds db' c := by
  cases k with
  | vote message' user' =>
    rwa [Holds, hbecomes.other leaf_reactions hdb.shaped leaf_votes.mem (by decide)]
  | reaction message' user' emoji' =>
    obtain ⟨b, hb, rfl⟩ := h
    refine ⟨b, ?_, rfl⟩
    rw [hbecomes.entries leaf_reactions hdb.shaped]
    refine hb.after_other (fun he => hne ?_) out
    simp only [Prod.mk.injEq] at he
    obtain ⟨rfl, rfl, rfl⟩ := he
    rfl

structure Becomes (k : Key) (c : Option Mark) (db db' : Database) : Prop where
  orderly : Orderly db'
  holds : k.Holds db' c
  other : ∀ k' c', k' ≠ k → k'.Holds db c' → k'.Holds db' c'
  known : ∀ message user, Known db message user → Known db' message user

theorem becomes_of_voted {message user : Int64} {out : VoteOutcome} {o : Option VoteValue}
    (hdb : Orderly db) (hbecomes : Store.Becomes Schema.votes "value"
      (VoteToggle.after message user (entries "value" (db.at Schema.votes)) out) db db')
    (ho : VoteToggle.Holds (VoteToggle.after message user
      (entries "value" (db.at Schema.votes)) out) message user o) :
    (Key.vote message user).Becomes (o.map .vote) db db' where
  orderly := hbecomes.orderly leaf_votes hdb
  holds := ⟨o, by rwa [hbecomes.entries leaf_votes hdb.shaped], rfl⟩
  other _ _ hne h := h.of_voted hdb hbecomes hne
  known _ _ h := hbecomes.known leaf_votes hdb.shaped h

theorem becomes_of_reacted {message user : Int64} {emoji : String} {out : ReactionOutcome}
    (hdb : Orderly db) (hbecomes : Store.Becomes Schema.reactions "emoji"
      (ReactionToggle.after message user emoji
        (entries "emoji" (db.at Schema.reactions)) out) db db') :
    (Key.reaction message user emoji).Becomes (if out = .added then some .reaction else none)
      db db' where
  orderly := hbecomes.orderly leaf_reactions hdb
  holds := ⟨out = .added, by
    rw [hbecomes.entries leaf_reactions hdb.shaped]
    exact ReactionToggle.Holds.after _ _ _ _ out, by simp⟩
  other _ _ hne h := h.of_reacted hdb hbecomes hne
  known _ _ h := hbecomes.known leaf_reactions hdb.shaped h

end Key

namespace Toggle

def key : Toggle → Key
  | vote message user _ => .vote message user
  | reaction message user emoji => .reaction message user emoji

def mark? : Toggle → Option Mark
  | vote _ _ raw => (VoteValue.ofRaw? raw).map .vote
  | reaction .. => some .reaction

def find : Toggle → Intent
  | vote message user _ => .findVote message user
  | reaction message user emoji => .findReaction message user emoji

def insertion : Toggle → Intent
  | vote message user raw => .insertVote message user raw
  | reaction message user emoji => .insertReaction message user emoji

def write : Toggle → Option Mark → Intent
  | t, none => t.insertion
  | vote message user raw, some w =>
      if (vote message user raw).mark? = some w then .deleteVote message user
      else .updateVote message user raw
  | reaction message user emoji, some _ => .deleteReaction message user emoji

def outcome : Toggle → Option Mark → Outcome
  | vote _ _ raw, found => .vote <| match VoteValue.ofRaw? raw with
      | none => .rejected raw
      | some v => VoteToggle.outcome (found.bind Mark.vote?) v
  | reaction .., found => .reaction (ReactionToggle.ofPresence found.isSome)

def next (t : Toggle) (c : Option Mark) : Option Mark :=
  if t.mark? = c then none else t.mark?

/-- What the write leaves, given what the lookup found and what the key holds by now; nothing, if
it is refused. -/
def leaves (t : Toggle) (found now : Option Mark) : Option (Option Mark) :=
  match found with
  | none => if now = none then some t.mark? else none
  | some w => if t.mark? = some w then some none else some (now.bind fun _ => t.mark?)

variable {t : Toggle} {db db₀ db' : Database} {found now c : Option Mark} {d : Mark}
  {answer : Except StatementError (List Row)}

theorem leaves_self (hd : t.mark? = some d) (c : Option Mark) :
    t.leaves c c = some (t.next c) := by
  cases c with
  | none => simp [leaves, next, hd]
  | some w => by_cases hw : d = w <;> simp [leaves, next, hd, hw]

theorem leaves_free (t : Toggle) (w : Mark) : t.leaves (some w) none = some none := by
  simp [leaves]

theorem vote_cases {message user raw : Int64} (hd : (vote message user raw).mark? = some d) :
    ∃ v : VoteValue, raw = v.toInt64 ∧ VoteValue.ofRaw? raw = some v ∧ d = .vote v := by
  rcases VoteToggle.ofRaw?_cases raw with ⟨-, -, hnone⟩ | ⟨v, hraw, hv⟩
  · simp [mark?, hnone] at hd
  · exact ⟨v, hraw, hv, by simpa [mark?, hv] using hd.symm⟩

inductive Writes (t : Toggle) (found : Option Mark) (db : Database) :
    Except StatementError (List Row) → Database → Prop
  | done {rows : List Row} {db' : Database} {now c : Option Mark} : t.key.Holds db now →
      t.leaves found now = some c → t.key.Becomes c db db' → Writes t found db (.ok rows) db'
  | refused {now : Option Mark} (v : Violation) : found = none → t.key.Holds db now → now ≠ none →
      Writes t found db (.error (.violation v)) db
  | full : found = none → (db.at t.table).nextId? = none →
      Writes t found db (.error (.other "database or disk is full")) db

theorem writes_insertVote {message user raw : Int64} (hdb : Orderly db)
    (hd : (vote message user raw).mark? = some d)
    (h : (Intent.insertVote message user raw).Performs db answer db') :
    (vote message user raw).Writes none db answer db' := by
  obtain ⟨v, rfl, hv, rfl⟩ := vote_cases hd
  obtain ⟨o, ho⟩ := VoteToggle.exists_holds (hdb.shaped.at_schema leaf_votes.mem) hdb.votes
    message user
  have hnow : (vote message user v.toInt64).key.Holds db (o.map .vote) := ⟨o, ho, rfl⟩
  cases h with
  | done hfree hdoes =>
    obtain rfl : o = none := by
      cases o with
      | none => rfl
      | some w => exact absurd ⟨w, ho⟩ hfree
    cases hdoes with
    | insertVote hraw hbecomes =>
      obtain rfl := VoteToggle.toInt64_injective hraw
      have hafter : VoteToggle.Holds (VoteToggle.after message user
          (entries "value" (db.at Schema.votes)) (.cast v)) message user (some v) :=
        ⟨_, Set.mem_insert _ _, VoteToggle.on_self _ _ _, rfl⟩
      exact .done hnow (by simp [leaves, hd]) (Key.becomes_of_voted hdb hbecomes hafter)
    | insertVoteFull hid => exact .full rfl hid
  | full _ hdoes => cases hdoes with
    | insertVoteFull hid => exact .full rfl hid
  | refused w hmeets =>
    obtain ⟨b, hb⟩ := hmeets
    exact .refused w rfl ⟨some b, hb, rfl⟩ (by simp)

theorem writes_updateVote {message user raw : Int64} {w : Mark} (hdb : Orderly db)
    (hd : (vote message user raw).mark? = some d) (hw : d ≠ w)
    (h : (Intent.updateVote message user raw).Performs db answer db') :
    (vote message user raw).Writes (some w) db answer db' := by
  obtain ⟨v, rfl, hv, rfl⟩ := vote_cases hd
  obtain ⟨o, ho⟩ := VoteToggle.exists_holds (hdb.shaped.at_schema leaf_votes.mem) hdb.votes
    message user
  cases h with
  | done _ hdoes =>
    cases hdoes with
    | updateVote hraw hbecomes =>
      obtain rfl := VoteToggle.toInt64_injective hraw
      have hafter : VoteToggle.Holds (VoteToggle.after message user
          (entries "value" (db.at Schema.votes)) (.changed none v)) message user
          (o.map fun _ => v) := by
        cases o with
        | none => exact (VoteToggle.after_changed_of_none ho none v).symm ▸ ho
        | some b =>
          obtain ⟨x, hx, hon, -⟩ := ho
          exact ⟨_, ⟨x, hx, if_pos hon⟩, hon, rfl⟩
      have hleaves : (vote message user v.toInt64).leaves (some w) (o.map .vote) =
          some ((o.map fun _ => v).map .vote) := by
        cases o <;> simp [leaves, hd, hw]
      exact .done ⟨o, ho, rfl⟩ hleaves (Key.becomes_of_voted hdb hbecomes hafter)
  | full hmeets => exact hmeets.elim
  | refused _ hmeets => exact hmeets.elim

theorem writes_deleteVote {message user raw : Int64} (hdb : Orderly db)
    (hd : (vote message user raw).mark? = some d)
    (h : (Intent.deleteVote message user).Performs db answer db') :
    (vote message user raw).Writes (some d) db answer db' := by
  obtain ⟨c, hc⟩ := (vote message user raw).key.exists_holds hdb
  cases h with
  | done _ hdoes =>
    cases hdoes with
    | @deleteVote _ _ v _ _ hbecomes =>
      have hafter : VoteToggle.Holds (VoteToggle.after message user
          (entries "value" (db.at Schema.votes)) (.withdrawn v)) message user none :=
        fun x hx => hx.2
      exact .done hc (by simp [leaves, hd]) (Key.becomes_of_voted hdb hbecomes hafter)
  | full hmeets => exact hmeets.elim
  | refused _ hmeets => exact hmeets.elim

theorem writes_insertReaction {message user : Int64} {emoji : String} (hdb : Orderly db)
    (h : (Intent.insertReaction message user emoji).Performs db answer db') :
    (reaction message user emoji).Writes none db answer db' := by
  obtain ⟨b, hb⟩ := ReactionToggle.exists_holds (db.at Schema.reactions) message user emoji
  have hnow : (reaction message user emoji).key.Holds db (if b then some .reaction else none) :=
    ⟨b, hb, rfl⟩
  cases h with
  | done hfree hdoes =>
    obtain rfl : b = false := by
      cases b with
      | false => rfl
      | true => exact absurd hb hfree
    cases hdoes with
    | insertReaction hbecomes =>
      exact .done hnow (by simp [leaves, mark?]) (Key.becomes_of_reacted hdb hbecomes)
    | insertReactionFull hid => exact .full rfl hid
  | full _ hdoes => cases hdoes with
    | insertReactionFull hid => exact .full rfl hid
  | refused w hmeets =>
    obtain rfl := hb.unique hmeets
    exact .refused w rfl hnow (by simp)

theorem writes_deleteReaction {message user : Int64} {emoji : String} (hdb : Orderly db)
    (h : (Intent.deleteReaction message user emoji).Performs db answer db') :
    (reaction message user emoji).Writes (some .reaction) db answer db' := by
  obtain ⟨c, hc⟩ := (reaction message user emoji).key.exists_holds hdb
  cases h with
  | done _ hdoes =>
    cases hdoes with
    | deleteReaction hbecomes =>
      exact .done hc (by simp [leaves, mark?]) (Key.becomes_of_reacted hdb hbecomes)
  | full hmeets => exact hmeets.elim
  | refused _ hmeets => exact hmeets.elim

theorem writes_of_performs (hdb : Orderly db) (hd : t.mark? = some d)
    (hfound : t.key.Holds db₀ found) (h : (t.write found).Performs db answer db') :
    t.Writes found db answer db' := by
  cases t with
  | vote message user raw =>
    cases found with
    | none => exact writes_insertVote hdb hd h
    | some w =>
      by_cases hw : d = w
      · subst hw
        rw [write, if_pos hd] at h
        exact writes_deleteVote hdb hd h
      · rw [write, if_neg (by simpa [hd] using hw)] at h
        exact writes_updateVote hdb hd hw h
  | reaction message user emoji =>
    obtain ⟨b, -, rfl⟩ := hfound
    cases b with
    | false => exact writes_insertReaction hdb h
    | true => exact writes_deleteReaction hdb h

theorem outcome_vote (message user : Int64) (v : VoteValue) (o : Option VoteValue) :
    (vote message user v.toInt64).outcome (o.map .vote) = .vote (VoteToggle.outcome o v) := by
  rcases o with - | - | - <;> cases v <;> rfl

theorem next_vote (message user : Int64) (v : VoteValue) (o : Option VoteValue) :
    (vote message user v.toInt64).next (o.map .vote) = (VoteToggle.next o v).map .vote := by
  rcases o with - | - | - <;> cases v <;> rfl

theorem Toggled.by_key {reply : Reply} (h : Toggled db t reply db') (hdb : Orderly db)
    (hd : t.mark? = some d) (hc : t.key.Holds db c) :
    (reply = .ok (t.outcome c) ∧ t.key.Holds db' (t.next c)) ∨
      (∃ sql, reply = .error (noIdLeft sql)) ∧ c ≠ some d ∧ (db.at t.table).nextId? = none := by
  cases h with
  | rejected hup hdown =>
    obtain ⟨v, rfl, -, -⟩ := vote_cases hd
    cases v with
    | up => exact absurd rfl hup
    | down => exact absurd rfl hdown
  | @voted message user _ v o _ hraw ho hbecomes =>
    subst hraw
    obtain rfl := hc.unique hdb ⟨o, ho, rfl⟩
    refine .inl ⟨by rw [outcome_vote], VoteToggle.next o v, ?_, next_vote ..⟩
    rw [hbecomes.entries leaf_votes hdb.shaped]
    exact ho.after v
  | @reacted message user emoji b _ hb hbecomes =>
    obtain rfl := hc.unique hdb ⟨b, hb, rfl⟩
    have hafter := (Key.becomes_of_reacted hdb hbecomes).holds
    cases b with
    | false => exact .inl ⟨rfl, hafter⟩
    | true => exact .inl ⟨rfl, hafter⟩
  | @voteFull message user _ v o sql hraw ho hne hid =>
    subst hraw
    obtain rfl := hc.unique hdb ⟨o, ho, rfl⟩
    obtain ⟨v', hv', -, rfl⟩ := vote_cases hd
    obtain rfl := VoteToggle.toInt64_injective hv'
    refine .inr ⟨⟨sql, rfl⟩, fun heq => hne ?_, hid⟩
    simpa [Option.map_eq_some_iff] using heq
  | reactionFull sql hb hid =>
    obtain rfl := hc.unique hdb ⟨false, hb, rfl⟩
    exact .inr ⟨⟨sql, rfl⟩, by simp, hid⟩

end Toggle

end Agora
