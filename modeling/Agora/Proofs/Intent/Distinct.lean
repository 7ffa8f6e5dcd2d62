import Mathlib.Data.List.Infix
import Agora.Proofs.Intent.Quote
import Agora.Proofs.Number.Digits
/-!
Each kind of intent has an opening of its own, and behind the opening every number, viewer and
quoted text is told from the words around it.
-/
namespace Agora.Intent

open Digits

def opening : Intent → String
  | findVote .. => "Get the vote where messageId is "
  | insertVote .. => "Insert a vote with messageId "
  | updateVote .. => "Update the vote where messageId is "
  | deleteVote .. => "Delete the vote where messageId is "
  | findReaction .. => "Get the reaction where messageId is "
  | insertReaction .. => "Insert a reaction with messageId "
  | deleteReaction .. => "Delete the reaction where messageId is "
  | createMessage .. => "Insert a new message with userId "
  | messageDetail .. => "Get the message with id "
  | addComment .. => "Insert a new comment with messageId "
  | findUser .. => "Get the user whose username is "
  | createUser .. => "Insert a new user with username "
  | userMessages .. => "Get all messages where userId is "

def openings : List String :=
  ["Get the vote where messageId is ", "Insert a vote with messageId ",
    "Update the vote where messageId is ", "Delete the vote where messageId is ",
    "Get the reaction where messageId is ", "Insert a reaction with messageId ",
    "Delete the reaction where messageId is ", "Insert a new message with userId ",
    "Get the message with id ", "Insert a new comment with messageId ",
    "Get the user whose username is ", "Insert a new user with username ",
    "Get all messages where userId is "]

theorem opening_mem (i : Intent) : i.opening ∈ openings := by
  cases i <;> simp [opening, openings]

theorem openings_apart : ∀ a ∈ openings, ∀ b ∈ openings, a.toList <+: b.toList → a = b := by
  decide +kernel

theorem opening_starts (i : Intent) : i.opening.toList <+: i.text.toList := by
  cases i <;> unfold opening text <;> simp only [String.append_assoc, String.toList_append] <;>
    exact List.prefix_append _ _

theorem opening_eq {i j : Intent} (h : i.text = j.text) : i.opening = j.opening := by
  have hi := opening_starts i
  rw [h] at hi
  rcases List.prefix_or_prefix_of_prefix hi (opening_starts j) with hij | hji
  · exact openings_apart _ (opening_mem i) _ (opening_mem j) hij
  · exact (openings_apart _ (opening_mem j) _ (opening_mem i) hji).symm

section Values

def StartsClear (w : String) : Prop :=
  w.toList.head?.any fun c => !isDigit c

instance (w : String) : Decidable (StartsClear w) :=
  inferInstanceAs (Decidable (_ = true))

theorem toList_number_append (i : Int64) (x : String) :
    (number i ++ x).toList = ofInt i.toInt ++ x.toList := by
  rw [String.toList_append, number, String.toList_ofList, ofInt64]

theorem null_append_ne_number (i : Int64) (x y : String) : "NULL" ++ x ≠ number i ++ y := by
  intro h
  have hlist := congrArg String.toList h
  rw [String.toList_append, toList_number_append, ofInt] at hlist
  split at hlist
  · cases hlist
  · obtain ⟨c, ds, hc⟩ := List.exists_cons_of_ne_nil (ofNat_ne_nil i.toInt.natAbs)
    have hdigit := isDigit_ofNat i.toInt.natAbs c (by simp [hc])
    rw [hc] at hlist
    obtain rfl : 'N' = c := (List.cons.inj hlist).1
    exact absurd hdigit (by decide)

variable {w x y : String} (hw : StartsClear w)
include hw

theorem endsNumeral_append (x : String) : EndsNumeral (w ++ x).toList := by
  obtain ⟨c, hc, hdigit⟩ := (Option.any_eq_true _ _).1 hw
  intro d hd
  rw [String.toList_append, List.head?_append, hc] at hd
  obtain rfl := Option.some.inj hd
  simpa using hdigit

theorem number_append_inj {i j : Int64} :
    number i ++ (w ++ x) = number j ++ (w ++ y) ↔ i = j ∧ x = y := by
  constructor
  · intro h
    have hlist := congrArg String.toList h
    rw [toList_number_append, toList_number_append] at hlist
    obtain ⟨hij, hxy⟩ :=
      ofInt_append_inj (endsNumeral_append hw x) (endsNumeral_append hw y) hlist
    exact ⟨Int64.toInt_inj.1 hij, (String.append_right_inj w).1 (String.toList_inj.1 hxy)⟩
  · rintro ⟨rfl, rfl⟩
    rfl

theorem number_append_right_inj {i j : Int64} : number i ++ w = number j ++ w ↔ i = j := by
  simpa using number_append_inj hw (x := "") (y := "") (i := i) (j := j)

theorem viewerText_append_inj {v v' : Option Int64} :
    viewerText v ++ (w ++ x) = viewerText v' ++ (w ++ y) ↔ v = v' ∧ x = y := by
  cases v with
  | none => cases v' with
    | none => simp [viewerText]
    | some j => simpa [viewerText] using null_append_ne_number j _ _
  | some i => cases v' with
    | none => simpa [viewerText] using (null_append_ne_number i _ _).symm
    | some j => simpa [viewerText] using number_append_inj hw

end Values

attribute [local irreducible] number viewerText quote

theorem eq_of_text_eq {i j : Intent} (h : i.text = j.text) : i = j := by
  have hopening := opening_eq h
  -- the openings leave the pairs of one kind
  cases i <;> cases j <;> unfold opening at hopening <;>
    first | (simp only [String.reduceEq] at hopening; done) | skip
  all_goals
    unfold text at h
    simp (disch := decide +kernel) only [String.append_assoc, String.append_right_inj,
      number_append_inj, number_append_right_inj, viewerText_append_inj, quote_append_inj,
      and_true] at h
    simp only [h]

/-- A quoted text is told from what follows it, and a reader that honours backslashes finds it; and
two intents have one sentence only if they are of one kind, with the same values. -/
theorem intents_never_collide :
    (∀ a b x y : String, quote a ++ x = quote b ++ y ↔ a = b ∧ x = y) ∧
      (∀ a x : String, (quote a ++ x).toList.head? = some '\x22' ∧
        readQuoted? (quote a ++ x).toList.tail = some (a.toList, x.toList)) ∧
      ∀ i j : Intent, i.text = j.text ↔ i = j :=
  ⟨fun _ _ _ _ => quote_append_inj, readQuoted?_quote,
    fun _ _ => ⟨eq_of_text_eq, congrArg text⟩⟩

end Agora.Intent
