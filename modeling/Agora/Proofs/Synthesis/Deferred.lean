import Agora.Synthesis.Synthesizer

namespace Agora

/-- The same network with a list of the requests that it is given. -/
def Network.noting (net : Network σ) : Network (σ × List HttpRequest) where
  exchange request := fun (s, requests) =>
    let (exchange, s) := net.exchange request s
    (exchange, s, requests ++ [request])

namespace DeferredClient

inductive Event where
  | synthesize (intent : String)
  | environment (env : Environment)

structure Call (σ : Type) where
  intent : String
  environment : Environment
  before : σ
  reply : Except SynthesisError String
  requests : List HttpRequest
  after : σ

def call (net : Network σ) (intent : String) (d : DeferredClient) (s : σ) :
    Call σ × DeferredClient :=
  let (reply, d', after, requests) := (synthesizer net.noting).synthesize intent (d, s, [])
  ({ intent, environment := d.environment, before := s, reply, requests, after }, d')

def calls (net : Network σ) : List Event → DeferredClient × σ → List (Call σ)
  | [], _ => []
  | .environment env :: events, (d, s) => calls net events ({ d with environment := env }, s)
  | .synthesize intent :: events, (d, s) =>
      let (c, d') := call net intent d s
      c :: calls net events (d', c.after)

def replies (net : Network σ) : List Event → DeferredClient × σ →
    List (Except SynthesisError String)
  | [], _ => []
  | .environment env :: events, (d, s) => replies net events ({ d with environment := env }, s)
  | .synthesize intent :: events, w =>
      let (reply, w) := (synthesizer net).synthesize intent w
      reply :: replies net events w

def given : Environment → List Event → List (String × Environment)
  | _, [] => []
  | _, .environment env :: events => given env events
  | env, .synthesize intent :: events => (intent, env) :: given env events

def environments (env : Environment) (events : List Event) : List Environment :=
  (given env events).map Prod.snd

def firstKey? (settings : CompletionSettings) (envs : List Environment) :
    Option (Option String) :=
  envs.findSome? fun env => (settings.resolvedApiKey env).toOption

theorem firstKey?_cons_ok {settings : CompletionSettings} {env : Environment}
    {key : Option String} (h : settings.resolvedApiKey env = .ok key) (envs : List Environment) :
    firstKey? settings (env :: envs) = some key := by
  simp [firstKey?, h, Except.toOption]

theorem firstKey?_cons_error {settings : CompletionSettings} {env : Environment}
    {e : SettingsError} (h : settings.resolvedApiKey env = .error e) (envs : List Environment) :
    firstKey? settings (env :: envs) = firstKey? settings envs := by
  simp [firstKey?, h, Except.toOption]

theorem firstKey?_append (settings : CompletionSettings) (envs envs' : List Environment) :
    firstKey? settings (envs ++ envs') =
      (firstKey? settings envs).or (firstKey? settings envs') :=
  List.findSome?_append

theorem key_eq_none_iff {settings : CompletionSettings} {env : Environment} {key : Option String}
    (h : (settings.resolvedApiKey env).toOption = some key) :
    key = none ↔ settings.apiKey = none := by
  unfold CompletionSettings.resolvedApiKey at h
  cases hsetting : settings.apiKey with
  | none =>
    rw [hsetting] at h
    cases h
    exact ⟨fun _ => rfl, fun _ => rfl⟩
  | some text =>
    simp only [hsetting] at h
    cases hvalue : env.resolve text with
    | error e =>
      rw [hvalue] at h
      cases h
    | ok value =>
      rw [hvalue] at h
      cases h
      simp

def FitsHeader (key : Option String) : Prop :=
  ∀ k ∈ key, ∀ c ∈ k.toList, c = '\t' ∨ 32 ≤ c.toNat ∧ c.toNat ≠ 127

def requestFor (settings : CompletionSettings) (key : Option String) (intent : String) :
    HttpRequest where
  url := settings.endpoint
  authorization := key.map ("Bearer " ++ ·)
  contentType := "application/json"
  body := (ChatRequest.ofPrompt settings.model ⟨systemInstruction, intent⟩).body

section Request

variable (settings : CompletionSettings) {key : Option String}

theorem fitsHeader_iff : FitsHeader key ↔
    ((clientOf settings key).authorization.getD "").toList.all CompletionClient.isHeaderChar := by
  cases key with
  | none => simp [FitsHeader, clientOf, CompletionClient.authorization]
  | some k =>
    simp [FitsHeader, clientOf, CompletionClient.authorization, CompletionClient.isHeaderChar]

theorem request?_of_fits (intent : String) (h : FitsHeader key) :
    (clientOf settings key).request? ⟨systemInstruction, intent⟩ =
      some (requestFor settings key intent) :=
  if_pos ((fitsHeader_iff settings).1 h)

theorem request?_of_not_fits (prompt : Prompt) (h : ¬FitsHeader key) :
    (clientOf settings key).request? prompt = none :=
  if_neg (mt (fitsHeader_iff settings).2 h)

end Request

namespace Call

def IsUnconfigured (settings : CompletionSettings) (c : Call σ) : Prop :=
  ∃ e, settings.resolvedApiKey c.environment = .error e ∧
    c.reply = .error (.unconfigured e.message) ∧ c.requests = [] ∧ c.after = c.before

def AsksOnce (net : Network σ) (settings : CompletionSettings) (key : Option String)
    (c : Call σ) : Prop :=
  let request := requestFor settings key c.intent
  let (exchange, after) := net.exchange request c.before
  c.requests = [request] ∧ c.after = after ∧
    c.reply = ((clientOf settings key).interpret exchange).mapError .completionUnavailable

def SendsNothing (c : Call σ) : Prop :=
  c.requests = [] ∧ c.after = c.before ∧
    c.reply = .error (.completionUnavailable (.unreachable "builder error"))

structure IsConfigured (net : Network σ) (settings : CompletionSettings) (key : Option String)
    (c : Call σ) : Prop where
  asks : FitsHeader key → c.AsksOnce net settings key
  sendsNothing : ¬FitsHeader key → c.SendsNothing

def FollowsFrom (net : Network σ) (settings : CompletionSettings) (c : Call σ) :
    Option (Option String) → Prop
  | none => c.IsUnconfigured settings
  | some key => c.IsConfigured net settings key

def Linked (s : σ) : List (Call σ) → Prop
  | [] => True
  | c :: cs => c.before = s ∧ Linked c.after cs

end Call

section Step

variable (net : Network σ) (intent : String) {d : DeferredClient} (s : σ)

theorem synthesize_noting (requests : List HttpRequest) :
    let r := (synthesizer net.noting).synthesize intent (d, s, requests)
    (r.1, r.2.1, r.2.2.1) = (synthesizer net).synthesize intent (d, s) := by
  simp only [synthesizer]
  cases d.resolve with
  | error e => rfl
  | ok client =>
    simp only [CompletionClient.complete]
    cases client.request? ⟨systemInstruction, intent⟩ <;> rfl

theorem call_configured {key : Option String} (h : d.resolve = .ok (clientOf d.settings key)) :
    (call net intent d s).1.IsConfigured net d.settings key ∧
      (call net intent d s).2 = { d with client := some (clientOf d.settings key) } := by
  refine ⟨⟨fun hfits => ?_, fun hunfit => ?_⟩, by simp [call, synthesizer, h]⟩
  · have hrequest := request?_of_fits d.settings intent hfits
    simp [Call.AsksOnce, call, synthesizer, h, CompletionClient.complete, hrequest, Network.noting]
  · have hrequest := request?_of_not_fits d.settings ⟨systemInstruction, intent⟩ hunfit
    simp only [Call.SendsNothing, call, synthesizer, h, CompletionClient.complete, hrequest,
      true_and]
    rfl

theorem call_unconfigured {e : SettingsError} (hclient : d.client = none)
    (h : d.settings.resolvedApiKey d.environment = .error e) :
    (call net intent d s).1.IsUnconfigured d.settings ∧ (call net intent d s).2 = d := by
  have hresolve : d.resolve = .error (.unconfigured e.message) := by simp [resolve, hclient, h]
  have hcall : (call net intent d s).1.IsUnconfigured d.settings :=
    ⟨e, h, by simp [call, synthesizer, hresolve]⟩
  refine ⟨hcall, ?_⟩
  simp [call, synthesizer, hresolve]

theorem call_step {key? : Option (Option String)}
    (hclient : d.client = key?.map (clientOf d.settings)) :
    let key?' := key?.or (firstKey? d.settings [d.environment])
    (call net intent d s).1.FollowsFrom net d.settings key?' ∧
      (call net intent d s).2 = { d with client := key?'.map (clientOf d.settings) } := by
  cases key? with
  | some key => exact call_configured net intent s (by simp [resolve, hclient])
  | none =>
    cases hkey : d.settings.resolvedApiKey d.environment with
    | ok key =>
      rw [firstKey?_cons_ok hkey]
      exact call_configured net intent s (by simp_all [resolve])
    | error e =>
      obtain ⟨hcall, hsame⟩ := call_unconfigured net intent s hclient hkey
      have hnone : d = { d with client := none } := by
        rw [← show d.client = none from hclient]
      rw [firstKey?_cons_error hkey]
      exact ⟨hcall, hsame.trans hnone⟩

end Step

theorem calls_given (net : Network σ) (events : List Event) (d : DeferredClient) (s : σ) :
    (calls net events (d, s)).map (fun c => (c.intent, c.environment)) =
      given d.environment events := by
  induction events generalizing d s with
  | nil => rfl
  | cons event events ih =>
    cases event with
    | environment env => exact ih { d with environment := env } s
    | synthesize intent =>
      have hstays : (call net intent d s).2.environment = d.environment := by
        simp only [call, synthesizer]
        cases d.resolve <;> rfl
      rw [calls, List.map_cons, ih, hstays]
      rfl

theorem calls_replies (net : Network σ) (events : List Event) (d : DeferredClient) (s : σ) :
    (calls net events (d, s)).map Call.reply = replies net events (d, s) := by
  induction events generalizing d s with
  | nil => rfl
  | cons event events ih =>
    cases event with
    | environment env => exact ih { d with environment := env } s
    | synthesize intent =>
      rw [calls, replies, ← synthesize_noting net intent s []]
      exact congrArg _ (ih _ _)

theorem linked_calls (net : Network σ) (events : List Event) (d : DeferredClient) (s : σ) :
    Call.Linked s (calls net events (d, s)) := by
  induction events generalizing d s with
  | nil => trivial
  | cons event events ih =>
    cases event with
    | environment env => exact ih { d with environment := env } s
    | synthesize intent => exact ⟨rfl, ih _ _⟩

theorem calls_getElem? (key? : Option (Option String)) {net : Network σ} {events : List Event}
    {d : DeferredClient} {s : σ} (hclient : d.client = key?.map (clientOf d.settings))
    {i : Nat} {c : Call σ} (h : (calls net events (d, s))[i]? = some c) :
    c.FollowsFrom net d.settings
      (key?.or (firstKey? d.settings ((environments d.environment events).take (i + 1)))) := by
  induction events generalizing d s key? i with
  | nil => simp [calls] at h
  | cons event events ih =>
    cases event with
    | environment env => exact ih key? (d := { d with environment := env }) hclient h
    | synthesize intent =>
      obtain ⟨hfirst, hnext⟩ := call_step net intent s hclient
      rw [calls] at h
      rw [environments, given, List.map_cons, List.take_succ_cons]
      cases i with
      | zero =>
        cases h
        exact hfirst
      | succ i =>
        rw [List.getElem?_cons_succ, hnext] at h
        have hlater := ih _ rfl h
        rwa [Option.or_assoc, ← firstKey?_append] at hlater

/-- From the first call on at which the key can be resolved, each call sends the one request that
carries this key, if a header can hold the key; the calls before it send nothing. -/
theorem configured_once (settings : CompletionSettings) (net : Network σ) (env : Environment)
    (s : σ) (events : List Event) :
    let run := calls net events ({ settings, environment := env }, s)
    run.map (fun c => (c.intent, c.environment)) = given env events ∧
      run.map Call.reply = replies net events ({ settings, environment := env }, s) ∧
      Call.Linked s run ∧
      ∀ i c, run[i]? = some c →
        match firstKey? settings ((environments env events).take (i + 1)) with
        | none => c.IsUnconfigured settings
        | some key => c.IsConfigured net settings key ∧ (key = none ↔ settings.apiKey = none) := by
  refine ⟨calls_given net events _ s, calls_replies net events _ s, linked_calls net events _ s,
    fun i c h => ?_⟩
  have hfollows := calls_getElem? none rfl h
  rw [Option.none_or] at hfollows
  split
  case h_1 hkey =>
    rw [hkey] at hfollows
    exact hfollows
  case h_2 key hkey =>
    rw [hkey] at hfollows
    obtain ⟨env, -, henv⟩ := List.exists_of_findSome?_eq_some hkey
    exact ⟨hfollows, key_eq_none_iff henv⟩

/-- A key with a line break: it can be resolved, and no request is sent. -/
theorem configured_without_request :
    let settings : CompletionSettings := { apiKey := some "$\x7bK\x7d" }
    let env : Environment := { entries := [("K", "a\nb")] }
    firstKey? settings [env] = some (some "a\nb") ∧
      ∃ c, calls Network.offline [.synthesize "x"] ({ settings, environment := env }, ()) = [c] ∧
        c.requests.length ≠ 1 := by
  intro settings env
  exact ⟨by decide +kernel, _, rfl, by decide +kernel⟩

theorem configured_once_third :
    let settings : CompletionSettings := { apiKey := some "$\x7bK\x7d" }
    let events : List Event := [.synthesize "a", .environment { entries := [("K", "old")] },
      .synthesize "b", .environment { entries := [("K", "new")] }, .synthesize "c"]
    ∃ c, (calls Network.offline events ({ settings, environment := {} }, ()))[2]? = some c ∧
      c.AsksOnce Network.offline settings (some "old") := by
  intro settings events
  obtain ⟨c, hc⟩ : ∃ c, (calls Network.offline events
      ({ settings, environment := {} }, ()))[2]? = some c := ⟨_, rfl⟩
  obtain ⟨-, -, -, hcalls⟩ := configured_once settings Network.offline {} () events
  have hthird := hcalls 2 c hc
  rw [show firstKey? settings ((environments {} events).take 3) = some (some "old") by
    decide +kernel] at hthird
  exact ⟨c, hc, hthird.1.asks ((fitsHeader_iff settings).2 (by decide +kernel))⟩

end DeferredClient

end Agora
