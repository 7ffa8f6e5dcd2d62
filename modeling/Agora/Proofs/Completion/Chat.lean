import Agora.Completion.Client
import Agora.Proofs.Json.RoundTrip
import Mathlib.Data.List.Basic

namespace Agora

theorem Json.Fields.ofList_swap {first second : String} (h : second < first) (v w : Json) :
    ofList [(first, v), (second, w)] = [(second, w), (first, v)] := by
  have hne : second ≠ first := fun heq => String.lt_irrefl first (heq ▸ h)
  show insert second w [(first, v)] = _
  rw [insert, if_neg hne, if_pos h]

namespace ChatMessage

def received (m : ChatMessage) : Json :=
  .obj [("content", .str m.content), ("role", .str m.role.text)]

theorem ordered_toJson (m : ChatMessage) : m.toJson.ordered = m.received := by
  have hnames : "content" < "role" := by decide
  rw [toJson, Json.ordered, Json.orderedFields, Json.orderedFields, Json.orderedFields,
    Json.ordered, Json.ordered, Json.Fields.ofList_swap hnames, received]

theorem nested_toJson (n : Nat) (m : ChatMessage) : Json.Nested (n + 1) m.toJson := by
  refine .obj fun f hf => ?_
  obtain rfl | rfl : f = ("role", .str m.role.text) ∨ f = ("content", .str m.content) := by
    simpa using hf
  · exact .str m.role.text
  · exact .str m.content

theorem received_injective : Function.Injective received := by
  rintro ⟨role, content⟩ ⟨role', content'⟩ h
  obtain ⟨hcontent, hrole⟩ : content = content' ∧ role.text = role'.text := by
    simpa [received] using h
  cases role <;> cases role' <;> simp_all [ChatRole.text]

end ChatMessage

namespace ChatRequest

def received (r : ChatRequest) : Json :=
  .obj [("messages", .arr (r.messages.map ChatMessage.received)), ("model", .str r.model)]

theorem orderedItems_messages (messages : List ChatMessage) :
    Json.orderedItems (messages.map ChatMessage.toJson) = messages.map ChatMessage.received := by
  induction messages with
  | nil => rfl
  | cons m messages ih =>
    rw [List.map_cons, List.map_cons, Json.orderedItems, ChatMessage.ordered_toJson, ih]

theorem ordered_toJson (r : ChatRequest) : r.toJson.ordered = r.received := by
  have hnames : "messages" < "model" := by decide
  rw [toJson, Json.ordered, Json.orderedFields, Json.orderedFields, Json.orderedFields,
    Json.ordered, Json.ordered, orderedItems_messages, Json.Fields.ofList_swap hnames, received]

theorem nested_toJson (n : Nat) (r : ChatRequest) : Json.Nested (n + 3) r.toJson := by
  refine .obj fun f hf => ?_
  obtain rfl | rfl : f = ("model", .str r.model) ∨
      f = ("messages", .arr (r.messages.map ChatMessage.toJson)) := by
    simpa [toJson] using hf
  · exact .str r.model
  · refine .arr fun v hv => ?_
    obtain ⟨m, -, rfl⟩ := List.mem_map.1 hv
    exact m.nested_toJson n

theorem parse?_body (r : ChatRequest) : Json.parse? r.body = some r.received := by
  rw [body, Json.parse?_compress (r.nested_toJson 124), ordered_toJson]

theorem received_injective : Function.Injective received := by
  rintro ⟨model, messages⟩ ⟨model', messages'⟩ h
  obtain ⟨hmessages, rfl⟩ : messages.map ChatMessage.received =
      messages'.map ChatMessage.received ∧ model = model' := by
    simpa [received] using h
  rw [List.map_injective_iff.2 ChatMessage.received_injective hmessages]

theorem body_injective : Function.Injective body := by
  intro r r' h
  have hread := r.parse?_body
  rw [h, r'.parse?_body] at hread
  exact received_injective (Option.some.inj hread).symm

theorem body_ofPrompt_inj {model model' : String} {prompt prompt' : Prompt} :
    (ofPrompt model prompt).body = (ofPrompt model' prompt').body ↔
      model = model' ∧ prompt = prompt' := by
  constructor
  · intro h
    obtain ⟨rfl, hsystem, huser⟩ : model = model' ∧ prompt.system = prompt'.system ∧
        prompt.user = prompt'.user := by
      simpa [ofPrompt] using body_injective h
    exact ⟨rfl, by cases prompt; cases prompt'; simp_all⟩
  · rintro ⟨rfl, rfl⟩
    rfl

end ChatRequest

inductive Offers (text : String) : Json → Prop where
  | content {response choice message : Json.Fields} {others : List Json}
      (hchoices : response.get? "choices" = some (.arr (.obj choice :: others)))
      (hmessage : choice.get? "message" = some (.obj message))
      (hcontent : message.get? "content" = some (.str text)) :
      Offers text (.obj response)

section Response

theorem Json.get?_eq_some {v w : Json} {name : String} :
    v.get? name = some w ↔ ∃ fields : Fields, v = .obj fields ∧ fields.get? name = some w := by
  cases v <;> simp [get?]

theorem Json.str?_eq_some {v : Json} {s : String} : v.str? = some s ↔ v = .str s := by
  cases v <;> simp [str?]

theorem Json.arr?_eq_some {v : Json} {items : List Json} :
    v.arr? = some items ↔ v = .arr items := by
  cases v <;> simp [arr?]

theorem offers_iff {text : String} {response : Json} :
    Offers text response ↔ ∃ choice others,
      (response.get? "choices").bind Json.arr? = some (choice :: others) ∧
      ((choice.get? "message").bind (Json.get? "content")).bind Json.str? = some text := by
  simp only [Option.bind_eq_some_iff, Json.get?_eq_some, Json.arr?_eq_some, Json.str?_eq_some]
  constructor
  · rintro ⟨hchoices, hmessage, hcontent⟩
    exact ⟨_, _, ⟨_, ⟨_, rfl, hchoices⟩, rfl⟩, _, ⟨_, ⟨_, rfl, hmessage⟩, _, rfl, hcontent⟩, rfl⟩
  · rintro ⟨_, _, ⟨_, ⟨_, rfl, hchoices⟩, rfl⟩, _, ⟨_, ⟨_, rfl, hmessage⟩, _, rfl, hcontent⟩, rfl⟩
    exact ⟨hchoices, hmessage, hcontent⟩

theorem extractCompletion_eq_ok {text : String} {response : Json} :
    extractCompletion response = .ok text ↔ Offers text response := by
  rw [offers_iff]
  rcases hchoices : (response.get? "choices").bind Json.arr? with _ | _ | ⟨choice, others⟩
  · simp [extractCompletion, hchoices]
  · simp [extractCompletion, hchoices]
  · cases hcontent : ((choice.get? "message").bind (Json.get? "content")).bind Json.str? with
    | none => simp [extractCompletion, hchoices, hcontent]
    | some content => simp [extractCompletion, hchoices, hcontent]

theorem extractCompletion_ok_or_malformed (response : Json) :
    (∃ text, extractCompletion response = .ok text) ∨
      ∃ reason, extractCompletion response = .error (.malformed reason) := by
  unfold extractCompletion
  split
  · exact .inr ⟨_, rfl⟩
  · exact .inr ⟨_, rfl⟩
  · split
    · exact .inl ⟨_, rfl⟩
    · exact .inr ⟨_, rfl⟩

theorem CompletionClient.interpret_whole (client : CompletionClient) {status : Nat} (text : String)
    (h : isSuccess status = true) :
    (∀ answer, client.interpret (.response status (.whole text)) = .ok answer ↔
      ∃ response, Json.parse? text = some response ∧ Offers answer response) ∧
    ((∃ answer, client.interpret (.response status (.whole text)) = .ok answer) ∨
      ∃ reason, client.interpret (.response status (.whole text)) =
        .error (.malformed reason)) := by
  cases hread : Json.parse? text with
  | none =>
    have hmalformed : client.interpret (.response status (.whole text)) =
        .error (.malformed undecodable) := by
      simp [interpret, h, hread]
    simp [hmalformed]
  | some response =>
    have hextract : client.interpret (.response status (.whole text)) =
        extractCompletion response := by
      simp [interpret, h, hread]
    rw [hextract]
    exact ⟨by simp [extractCompletion_eq_ok], extractCompletion_ok_or_malformed response⟩

end Response

/-- Texts pass in both directions as they are. -/
theorem wire_carries_verbatim :
    (∀ model system user, Json.parse? (ChatRequest.ofPrompt model ⟨system, user⟩).body =
      some (.obj [
        ("messages", .arr [
          .obj [("content", .str system), ("role", .str "system")],
          .obj [("content", .str user), ("role", .str "user")]]),
        ("model", .str model)])) ∧
    (∀ model system user model' system' user',
      (ChatRequest.ofPrompt model ⟨system, user⟩).body =
        (ChatRequest.ofPrompt model' ⟨system', user'⟩).body ↔
      model = model' ∧ system = system' ∧ user = user') ∧
    (∀ text response, extractCompletion response = .ok text ↔ Offers text response) ∧
    (∀ response, (∃ text, Offers text response) ∨
      ∃ reason, extractCompletion response = .error (.malformed reason)) ∧
    (∀ (client : CompletionClient) status body text,
      client.interpret (.response status (.whole body)) = .ok text ↔
        CompletionClient.isSuccess status = true ∧
        ∃ response, Json.parse? body = some response ∧ Offers text response) := by
  refine ⟨fun model system user => ?_, fun model system user model' system' user' => ?_,
    fun text response => extractCompletion_eq_ok, fun response => ?_,
    fun client status body text => ?_⟩
  · exact ChatRequest.parse?_body _
  · rw [ChatRequest.body_ofPrompt_inj, Prompt.mk.injEq]
  · simpa only [extractCompletion_eq_ok] using extractCompletion_ok_or_malformed response
  · by_cases h : CompletionClient.isSuccess status = true
    · rw [(client.interpret_whole body h).1]
      simp [h]
    · simp [CompletionClient.interpret, h]

end Agora
