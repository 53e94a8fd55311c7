import AegisGateway.Shadow

/-!
# What the providers are asked

Each adapter says the request in the words of its provider. Three dialects: OpenAI has no tool
messages, Ollama no developer messages, and Anthropic takes instructions apart from the turns.
-/

open Coroutine JsonText

namespace AegisGateway

/-! ## The payloads -/

def messageEntry (m : Message) : Json :=
  .obj [("role", .str m.role.value), ("content", .str m.content)]

/-- `payload[key] = value`, if there is a value. -/
def optionally {α : Type} (key : String) (value : Option α) (json : α → Json) : Object :=
  value.elim [] fun v => [(key, json v)]

/-- `_payload` of `OpenAIAdapter`. -/
def openaiPayload (q : GatewayRequest) (route : ModelRoute) (stream : Bool) : Object :=
  [("model", .str route.model),
    ("input", .arr ((q.messages.filter (·.role ≠ .tool)).map messageEntry)),
    ("max_output_tokens", .int q.maxOutputTokens),
    ("stream", .bool stream),
    ("store", .bool false),
    ("metadata", .obj [("gateway_request_id", .str q.requestId), ("tenant", .str q.tenantId)])] ++
  optionally "temperature" q.temperature .real ++
  optionally "text" q.responseSchema fun schema =>
    .obj [("format", .obj [("type", .str "json_schema"), ("name", .str q.schemaName),
      ("strict", .bool true), ("schema", .obj schema)])]

/-- `system_parts` of `AnthropicAdapter._payload`. -/
def systemParts (q : GatewayRequest) : List String :=
  (q.messages.filter fun m => m.role = .system ∨ m.role = .developer).map (·.content)

/-- `request.user_id or request.request_id`. -/
def billedUser (q : GatewayRequest) : String :=
  (q.userId.filter (· ≠ "")).getD q.requestId

/-- `_payload` of `AnthropicAdapter`. -/
def anthropicPayload (q : GatewayRequest) (route : ModelRoute) (stream : Bool) : Object :=
  [("model", .str route.model),
    ("messages", .arr ((q.messages.filter fun m => m.role = .user ∨ m.role = .assistant).map
      messageEntry)),
    ("max_tokens", .int q.maxOutputTokens),
    ("stream", .bool stream),
    ("metadata", .obj [("user_id", .str (billedUser q))])] ++
  (if systemParts q = [] then [] else [("system", .str ("\n\n".intercalate (systemParts q)))]) ++
  optionally "temperature" q.temperature .real ++
  optionally "output_config" q.responseSchema fun schema =>
    .obj [("format", .obj [("type", .str "json_schema"), ("schema", .obj schema)])]

/-- `_payload` of `OllamaAdapter`. -/
def ollamaPayload (q : GatewayRequest) (route : ModelRoute) (stream : Bool) : Object :=
  [("model", .str route.model),
    ("messages", .arr ((q.messages.filter (·.role ≠ .developer)).map messageEntry)),
    ("stream", .bool stream),
    ("options", .obj (("num_predict", .int q.maxOutputTokens) ::
      optionally "temperature" q.temperature .real))] ++
  optionally "format" q.responseSchema .obj

def payload (provider : String) (q : GatewayRequest) (route : ModelRoute) (stream : Bool) :
    Option Object :=
  if provider = "openai" then some (openaiPayload q route stream)
  else if provider = "anthropic" then some (anthropicPayload q route stream)
  else if provider = "ollama" then some (ollamaPayload q route stream)
  else none

/-! ## What a payload says -/

structure Asked where
  model : String
  messages : List (String × String)
  system : Option String
  limit : Int
  temperature : Option ℚ
  schema : Option Object
  stream : Bool

/-- Where a provider looks. -/
structure Dialect where
  messages : String
  system : List String := []
  limit : List String
  temperature : List String
  schema : List String

def dialect (provider : String) : Dialect :=
  if provider = "openai" then
    { messages := "input", limit := ["max_output_tokens"], temperature := ["temperature"]
      schema := ["text", "format", "schema"] }
  else if provider = "anthropic" then
    { messages := "messages", system := ["system"], limit := ["max_tokens"]
      temperature := ["temperature"], schema := ["output_config", "format", "schema"] }
  else
    { messages := "messages", limit := ["options", "num_predict"]
      temperature := ["options", "temperature"], schema := ["format"] }

def valueAt : List String → Object → Option Json
  | [], _ => none
  | [key], fields => fields.lookup key
  | key :: path, fields =>
    match fields.lookup key with
    | some (.obj inner) => valueAt path inner
    | _ => none

def readEntry : Json → Option (String × String)
  | .obj fields =>
    match fields.lookup "role", fields.lookup "content" with
    | some (.str role), some (.str content) => some (role, content)
    | _, _ => none
  | _ => none

def Dialect.read (d : Dialect) (p : Object) : Option Asked := do
  let .str model ← p.lookup "model" | none
  let .arr entries ← p.lookup d.messages | none
  let messages ← entries.mapM readEntry
  let .int limit ← valueAt d.limit p | none
  let .bool stream ← p.lookup "stream" | none
  let system ← match valueAt d.system p with
    | none => some none
    | some (.str text) => some (some text)
    | some _ => none
  let temperature ← match valueAt d.temperature p with
    | none => some none
    | some (.real x) => some (some x)
    | some _ => none
  let schema ← match valueAt d.schema p with
    | none => some none
    | some (.obj fields) => some (some fields)
    | some _ => none
  return { model, messages, system, limit, temperature, schema, stream }

def isTurn (role : String) : Bool := role == "user" || role == "assistant"

def isInstruction (role : String) : Bool := role == "system" || role == "developer"

def Asked.conversation (a : Asked) : List (String × String) :=
  a.messages.filter (isTurn ·.1)

def Asked.instructions (a : Asked) : String :=
  "\n\n".intercalate ((a.messages.filter (isInstruction ·.1)).map (·.2) ++ a.system.toList)

/-! ## Reading back -/

def saidBy (roles : Role → Bool) (q : GatewayRequest) : List (String × String) :=
  (q.messages.filter (roles ·.role)).map fun m => (m.role.value, m.content)

@[simp] theorem mapM_readEntry (ms : List Message) :
    ms.mapM (readEntry ∘ messageEntry) = some (ms.map fun m => (m.role.value, m.content)) := by
  induction ms with
  | nil => rfl
  | cons m ms ih =>
    have hm : readEntry (messageEntry m) = some (m.role.value, m.content) := rfl
    simp [List.mapM_cons, hm, ih]

/-- A request in the words of a provider that passes on some of the roles, and others apart. -/
def worded (roles : Role → Bool) (system : Option String) (q : GatewayRequest) (route : ModelRoute)
    (stream : Bool) : Asked where
  model := route.model
  messages := saidBy roles q
  system
  limit := q.maxOutputTokens
  temperature := q.temperature
  schema := q.responseSchema
  stream

theorem read_openai (q : GatewayRequest) (route : ModelRoute) (stream : Bool) :
    (dialect "openai").read (openaiPayload q route stream) =
      some (worded (· ≠ .tool) none q route stream) := by
  cases ht : q.temperature <;> cases hs : q.responseSchema <;>
    simp [Dialect.read, dialect, openaiPayload, worded, saidBy, optionally, valueAt, ht, hs,
      List.lookup_cons]

theorem read_anthropic (q : GatewayRequest) (route : ModelRoute) (stream : Bool) :
    (dialect "anthropic").read (anthropicPayload q route stream) =
      some (worded (fun r => r = .user ∨ r = .assistant)
        (if systemParts q = [] then none else some ("\n\n".intercalate (systemParts q)))
        q route stream) := by
  cases ht : q.temperature <;> cases hs : q.responseSchema <;> by_cases hp : systemParts q = [] <;>
    simp [Dialect.read, dialect, anthropicPayload, worded, saidBy, optionally, valueAt, ht, hs, hp,
      List.lookup_cons]

theorem read_ollama (q : GatewayRequest) (route : ModelRoute) (stream : Bool) :
    (dialect "ollama").read (ollamaPayload q route stream) =
      some (worded (· ≠ .developer) none q route stream) := by
  cases ht : q.temperature <;> cases hs : q.responseSchema <;>
    simp [Dialect.read, dialect, ollamaPayload, worded, saidBy, optionally, valueAt, ht, hs,
      List.lookup_cons]

/-! ## What all of them say -/

def dialogue (q : GatewayRequest) : List (String × String) :=
  saidBy (fun r => isTurn r.value) q

def toldBy (roles : Role → Bool) (q : GatewayRequest) : List String :=
  (q.messages.filter fun m => isInstruction m.role.value && roles m.role).map (·.content)

theorem isInstruction_iff (r : Role) : isInstruction r.value = true ↔ r = .system ∨ r = .developer := by
  cases r <;> decide

theorem conversation_worded {roles : Role → Bool} (hroles : ∀ r, isTurn r.value = true → roles r = true)
    (system : Option String) (q : GatewayRequest) (route : ModelRoute) (stream : Bool) :
    (worded roles system q route stream).conversation = dialogue q := by
  simp only [Asked.conversation, worded, dialogue, saidBy, List.filter_map, List.filter_filter,
    Function.comp_def]
  congr 1
  apply List.filter_congr
  intro m _
  cases hm : isTurn m.role.value with
  | false => rfl
  | true => rw [hroles _ hm]; rfl

theorem instructions_worded (roles : Role → Bool) (q : GatewayRequest) (route : ModelRoute)
    (stream : Bool) :
    (worded roles none q route stream).instructions = "\n\n".intercalate (toldBy roles q) := by
  simp [Asked.instructions, worded, toldBy, saidBy, List.filter_map, Function.comp_def]

theorem systemParts_eq (q : GatewayRequest) : systemParts q = toldBy (fun _ => true) q := by
  simp [systemParts, toldBy, ← isInstruction_iff]

theorem instructions_apart (q : GatewayRequest) (route : ModelRoute) (stream : Bool) :
    (worded (fun r => r = .user ∨ r = .assistant)
      (if systemParts q = [] then none else some ("\n\n".intercalate (systemParts q)))
      q route stream).instructions = "\n\n".intercalate (systemParts q) := by
  have hnone : ∀ m : Message, isInstruction m.role.value = true →
      ¬ (m.role = .user ∨ m.role = .assistant) := by
    intro m hm
    rcases (isInstruction_iff _).mp hm with h | h <;> simp [h]
  have hempty : (saidBy (fun r => r = .user ∨ r = .assistant) q).filter (isInstruction ·.1) = [] := by
    simp only [saidBy, List.filter_map, List.map_eq_nil_iff, List.filter_filter,
      List.filter_eq_nil_iff]
    rintro m - hm
    simp only [Function.comp_apply, Bool.and_eq_true, decide_eq_true_eq] at hm
    exact hnone m hm.1 hm.2
  simp only [Asked.instructions, worded, hempty, List.map_nil, List.nil_append]
  split_ifs with hp
  · rw [hp]
    rfl
  · simp

/-- The adapter of Ollama leaves the developer out. -/
def passesOn (provider : String) (r : Role) : Bool := provider != "ollama" || r != .developer

/-- The payload says all of the request that a provider may know, with these instructions. -/
structure Asked.Says (a : Asked) (q : GatewayRequest) (route : ModelRoute) (stream : Bool)
    (told : List String) : Prop where
  model : a.model = route.model
  limit : a.limit = q.maxOutputTokens
  temperature : a.temperature = q.temperature
  schema : a.schema = q.responseSchema
  stream : a.stream = stream
  conversation : a.conversation = dialogue q
  instructions : a.instructions = "\n\n".intercalate told

theorem worded_says {roles : Role → Bool} (hroles : ∀ r, isTurn r.value = true → roles r = true)
    {system : Option String} {q : GatewayRequest} {route : ModelRoute} {stream : Bool}
    {told : List String}
    (htold : (worded roles system q route stream).instructions = "\n\n".intercalate told) :
    (worded roles system q route stream).Says q route stream told :=
  ⟨rfl, rfl, rfl, rfl, rfl, conversation_worded hroles system q route stream, htold⟩

theorem toldBy_congr {roles roles' : Role → Bool}
    (h : ∀ r, isInstruction r.value = true → roles r = roles' r) (q : GatewayRequest) :
    toldBy roles q = toldBy roles' q := by
  unfold toldBy
  congr 1
  apply List.filter_congr
  intro m _
  cases hm : isInstruction m.role.value with
  | false => rfl
  | true => rw [h _ hm]

theorem payload_says {provider : String} {q : GatewayRequest} {route : ModelRoute} {stream : Bool}
    {p : Object} (h : payload provider q route stream = some p) :
    ∃ a, (dialect provider).read p = some a ∧ a.Says q route stream (toldBy (passesOn provider) q) := by
  unfold payload at h
  split_ifs at h with hopenai hanthropic hollama
  · subst hopenai
    cases h
    refine ⟨_, read_openai q route stream, worded_says (fun r hr => ?_) ?_⟩
    · cases r <;> first | rfl | cases hr
    · rw [instructions_worded]
      exact congrArg _ (toldBy_congr (fun r hr => by cases r <;> first | rfl | cases hr) q)
  · subst hanthropic
    cases h
    refine ⟨_, read_anthropic q route stream, worded_says (fun r hr => ?_) ?_⟩
    · cases r <;> first | rfl | cases hr
    · rw [instructions_apart, systemParts_eq]
      exact congrArg _ (toldBy_congr (fun r _ => by cases r <;> rfl) q)
  · subst hollama
    cases h
    refine ⟨_, read_ollama q route stream, worded_says (fun r hr => ?_) ?_⟩
    · cases r <;> first | rfl | cases hr
    · rw [instructions_worded]
      exact congrArg _ (toldBy_congr (fun r _ => by cases r <;> rfl) q)

/-! ## One question -/

def GatewayRequest.prompted (q : GatewayRequest) (told : List String) : GatewayRequest :=
  { q with messages := told.map (⟨.developer, ·, none⟩) ++ q.messages }

theorem dialogue_prompted (told : List String) (q : GatewayRequest) :
    dialogue (q.prompted told) = dialogue q := by
  have hdeveloper : isTurn Role.developer.value = false := rfl
  simp [dialogue, saidBy, GatewayRequest.prompted, hdeveloper]

theorem toldBy_prompted (roles : Role → Bool) (told : List String) (q : GatewayRequest) :
    toldBy roles (q.prompted told) = (if roles .developer then told else []) ++ toldBy roles q := by
  have hdeveloper : isInstruction Role.developer.value = true := rfl
  have hkept : ((told.map fun text => (⟨.developer, text, none⟩ : Message)).filter fun m =>
      isInstruction m.role.value && roles m.role) =
      if roles .developer then told.map fun text => ⟨.developer, text, none⟩ else [] := by
    cases hroles : roles .developer <;> simp [List.filter_map, Function.comp_def, hdeveloper, hroles]
  rw [toldBy, GatewayRequest.prompted, List.filter_append, hkept, List.map_append, toldBy]
  split_ifs <;> simp [Function.comp_def]

theorem Asked.Says.of_prompted {a : Asked} {q : GatewayRequest} {told : List String} {remaining : ℚ}
    {route : ModelRoute} {stream : Bool} {roles : Role → Bool}
    (h : a.Says (attemptRequest (q.prompted told) remaining) route stream
      (toldBy roles (attemptRequest (q.prompted told) remaining))) :
    a.Says q route stream ((if roles .developer then told else []) ++ toldBy roles q) where
  model := h.model
  limit := h.limit
  temperature := h.temperature
  schema := h.schema
  stream := h.stream
  conversation := h.conversation.trans (dialogue_prompted told q)
  instructions := by
    rw [h.instructions]
    exact congrArg _ (toldBy_prompted roles told q)

namespace Service

variable {svc : Service}

/-- What the prompt of a request comes to: nothing, or the text of the artifact that the call
has read, rendered. -/
def Prompted (svc : Service) (q : GatewayRequest) (tr : GatewayTrace) (told : List String) : Prop :=
  q.prompt = none ∧ told = [] ∨
    ∃ ref artifact template, q.prompt = some ref ∧
      ev (.getArtifact .prompt ref.name ref.version) (.ok artifact) ∈ tr ∧
      artifact.content.lookup "template" = some (.str template) ∧
      told = [render q.promptVariables (pieces svc.platform.isSpace template)]

theorem Resolved.prompted {q q' : GatewayRequest} {tr : GatewayTrace} (h : svc.Resolved q tr q') :
    ∃ told, svc.Prompted q tr told ∧ q' = q.prompted told := by
  rcases h with ⟨hp, rfl⟩ | ⟨ref, artifact, hp, hread, ha⟩
  · exact ⟨[], .inl ⟨hp, rfl⟩, rfl⟩
  · obtain ⟨template, htemplate, rfl⟩ := applyTemplate_ok ha
    exact ⟨_, .inr ⟨ref, artifact, template, hp, hread, htemplate, rfl⟩, rfl⟩

def posted : Op → Option Object
  | .complete q route => payload route.provider q route false
  | .openStream q route => payload route.provider q route true
  | _ => none

def opensStream : Op → Bool
  | .openStream _ _ => true
  | _ => false

theorem posted_says {o : Op} {q : GatewayRequest} {route : ModelRoute}
    (hcall : providerCall o = some (q, route)) {p : Object} (hp : posted o = some p) :
    ∃ a, (dialect route.provider).read p = some a ∧
      a.Says q route (opensStream o) (toldBy (passesOn route.provider) q) := by
  cases o with
  | complete q' route' | openStream q' route' =>
    cases hcall
    exact payload_says hp
  | _ => cases hcall

/-- A call asks all its providers one question. Whichever candidate is tried, and whether the
answer is to be streamed or not, the payload carries the conversation of the request, its limit,
its temperature and its schema. OpenAI and Anthropic are told the prompt, rendered from the one
artifact that the call has read, and after it the instructions of the request. Ollama is told
nothing of the prompt, nor anything else that a developer says. -/
theorem one_question {c : State} (h : svc.machine.Reachable initial c) {i : Nat}
    {t : Task Op Ans PyExc Outcome Call} (ht : c.tasks[i]? = some t) {args : Arguments}
    (hargs : callArguments t.call = some args) {e₀ : GatewayEvent} (he₀ : e₀ ∈ c.trace i)
    (hcall₀ : (providerCall e₀.1).isSome = true) :
    ∃ told, svc.Prompted args.request (c.trace i) told ∧
      ∀ e ∈ c.trace i, ∀ q route, providerCall e.1 = some (q, route) →
        ∀ p, posted e.1 = some p → ∃ a, (dialect route.provider).read p = some a ∧
          a.Says args.request route (opensStream e.1)
            (if route.provider = "ollama" then toldBy (· ≠ .developer) args.request
              else told ++ systemParts args.request) := by
  have hpreliminary : ∀ {o : Op}, (providerCall o).isSome = true → preliminary o = false := by
    intro o ho
    cases o <;> first | rfl | cases ho
  obtain ⟨x, hresolved, hx⟩ := exchange_of_task h ht hargs he₀ (hpreliminary hcall₀)
  obtain ⟨told, hprompted, hrequest⟩ := hresolved.prompted
  refine ⟨told, hprompted, fun e he q route hcall p hp => ?_⟩
  obtain ⟨a, hread, hsays⟩ := posted_says hcall hp
  obtain ⟨remaining, rfl⟩ := (hx e he (hpreliminary (by simp [hcall]))).call q route hcall
  rw [hrequest] at hsays
  have hsays := hsays.of_prompted
  refine ⟨a, hread, ?_⟩
  -- Ollama passes on what is no developer message, and the prompt is one.
  split_ifs with hollama
  · have htaken : passesOn route.provider = fun r => (r ≠ Role.developer : Bool) := by
      funext r
      rw [hollama]
      cases r <;> rfl
    rw [htaken] at hsays
    exact hsays
  · have htaken : passesOn route.provider = fun _ => true := by
      funext r
      simp [passesOn, hollama]
    rw [htaken, ← systemParts_eq] at hsays
    exact hsays

/-! A call that names a prompt, a local model that is down, and OpenAI to fall back on. -/

def localRoute : ModelRoute := { Sample.route with id := "local", provider := "ollama" }

theorem localRoute_distinct : ([Sample.route, localRoute].map (·.id)).Nodup := by decide

def bilingual : Service :=
  { Sample.service with
    routes := [Sample.route, localRoute]
    adapters := ["openai", "ollama"]
    routes_nodup := localRoute_distinct }

def localOutage : Input :=
  .completion (.error (.aegis (.provider
    { message := "unavailable", provider := "ollama", code := "provider_unavailable" })))

def greet : List (Move Input Call) :=
  [.start (.createArtifact .prompt "greeting" "v1" [("template", .str "Be brief.")]), .run 0 .go]

def bilingualMoves : List (Move Input Call) :=
  .start (.generate promptedRequest none) :: (Sample.goes 1 9 ++ .run 1 localOutage ::
    (Sample.goes 1 5 ++ [.run 1 (Sample.completion "hello")]))

def callee (o : Op) : Option String := (providerCall o).map (·.2.provider)

def templateRead : GatewayEvent → Option String
  | ⟨.getArtifact _ _ _, .ok artifact⟩ =>
    match artifact.content.lookup "template" with
    | some (.str template) => some template
    | _ => none
  | _ => none

theorem Prompted.only {q : GatewayRequest} {tr : GatewayTrace} {told : List String} {text : String}
    (h : svc.Prompted q tr told) (hprompt : q.prompt.isSome = true)
    (hall : ∀ e ∈ tr, ∀ template ∈ templateRead e, template = text) :
    told = [render q.promptVariables (pieces svc.platform.isSpace text)] := by
  rcases h with ⟨hp, -⟩ | ⟨ref, artifact, template, -, hread, htemplate, rfl⟩
  · rw [hp] at hprompt
    cases hprompt
  · obtain rfl := hall _ hread template (by simp [templateRead, htemplate])
    rfl

theorem one_question_bilingual : ∃ c : State, bilingual.machine.Reachable initial c ∧
    ∃ e ∈ c.trace 1, ∃ e' ∈ c.trace 1, ∃ p p' a a',
      callee e.1 = some "ollama" ∧ callee e'.1 = some "openai" ∧
      posted e.1 = some p ∧ posted e'.1 = some p' ∧
      (dialect "ollama").read p = some a ∧ (dialect "openai").read p' = some a' ∧
      a.conversation = [("user", "hello gateway")] ∧ a'.conversation = a.conversation ∧
      a.instructions = "" ∧ a'.instructions = "Be brief." := by
  obtain ⟨c₁, hm₁, hlen, c, hm, ⟨e, he, hcallee, hposted⟩, ⟨e', he', hcallee', hposted'⟩, hread⟩ :
      ∃ c₁ ∈ bilingual.machine.moves? initial greet, c₁.tasks.length = 1 ∧
        ∃ c ∈ bilingual.machine.moves? c₁ bilingualMoves,
        (∃ e ∈ c.trace 1, callee e.1 = some "ollama" ∧ (posted e.1).isSome = true) ∧
        (∃ e ∈ c.trace 1, callee e.1 = some "openai" ∧ (posted e.1).isSome = true) ∧
        ∀ e ∈ c.trace 1, ∀ template ∈ templateRead e, template = "Be brief." := by decide +kernel
  have hc := Machine.reachable_of_moves _ (Machine.reachable_of_moves _ .start hm₁) hm
  obtain ⟨t, ht, hcall⟩ := Machine.task_of_moves hm
  rw [hlen] at ht
  have hargs : callArguments t.call = some { request := promptedRequest } := by
    rw [hcall]
    rfl
  obtain ⟨⟨q, route⟩, hq, hprovider⟩ := Option.map_eq_some_iff.mp hcallee
  obtain ⟨⟨q', route'⟩, hq', hprovider'⟩ := Option.map_eq_some_iff.mp hcallee'
  obtain ⟨p, hp⟩ := Option.isSome_iff_exists.mp hposted
  obtain ⟨p', hp'⟩ := Option.isSome_iff_exists.mp hposted'
  obtain ⟨told, hprompted, hall⟩ := one_question hc ht hargs he (by rw [hq]; rfl)
  obtain rfl := hprompted.only rfl hread
  obtain ⟨a, ha, hsays⟩ := hall e he q route hq p hp
  obtain ⟨a', ha', hsays'⟩ := hall e' he' q' route' hq' p' hp'
  dsimp only at hprovider hprovider'
  rw [hprovider] at ha
  rw [hprovider'] at ha'
  rw [if_pos hprovider] at hsays
  rw [if_neg (by rw [hprovider']; decide)] at hsays'
  refine ⟨c, hc, e, he, e', he', p, p', a, a', hcallee, hcallee', hp, hp', ha, ha',
    hsays.conversation.trans (by decide), hsays'.conversation.trans hsays.conversation.symm,
    hsays.instructions.trans (by decide), hsays'.instructions.trans (by decide +kernel)⟩

end Service

end AegisGateway
