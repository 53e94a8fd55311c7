import AegisGateway.Adapters
import AegisGateway.System

/-!
# Bodies of the answers of providers

`complete` of the adapters in `providers/`. Its `try` ends once the body is decoded, so what
a field of the body raises is raised as it is.
-/

open JsonText

namespace AegisGateway

/-! ## The answer on the wire -/

structure HttpResponse where
  statusCode : Nat
  text : String

def HttpResponse.isSuccess (response : HttpResponse) : Bool :=
  200 ≤ response.statusCode && response.statusCode ≤ 299

def bounded (message : String) : String := String.ofList (message.toList.take 500)

/-- `_safe_error_detail`. It catches a `ValueError` of the decoder, and nothing else. -/
def safeErrorDetail (P : Platform) (response : HttpResponse) : Except AdapterExc String :=
  let status := s!"upstream returned HTTP {response.statusCode}"
  match P.jsonLoads response.text with
  | .error .jsonDecodeError | .error (.valueError _) => .ok status
  | .error _ => .error .unexpected
  | .ok (.obj body) =>
    match body.lookup "error" with
    | some (.obj error) =>
      match error.lookup "message" with
      | some (.str message) => .ok (bounded message)
      | _ => .ok status
    | some (.str error) => .ok (bounded error)
    | _ => .ok status
  | .ok _ => .ok status

def statusError (detail provider : String) (statusCode : Nat) : ProviderError :=
  if statusCode = 401 ∨ statusCode = 403 then providerAuthError detail provider
  else if statusCode = 429 then providerRateLimitError detail provider
  else if statusCode = 408 ∨ statusCode = 504 then providerTimeoutError detail provider
  else
    { message := detail
      provider
      statusCode := if 500 ≤ statusCode then 502 else 422
      retryable := decide (500 ≤ statusCode)
      code := if 500 ≤ statusCode then "provider_unavailable" else "invalid_provider_request" }

def raiseForProviderStatus (P : Platform) (provider : String) (response : HttpResponse) :
    Except AdapterExc Unit :=
  if response.isSuccess then .ok ()
  else do
    let detail ← safeErrorDetail P response
    .error (.provider (statusError detail provider response.statusCode))

/-- `_headers`, where the key comes from a variable of the environment. -/
def headers (provider envName : String) (apiKey : Option String) : Except AdapterExc Unit :=
  if apiKey.all (· = "") then
    .error (.provider
      { message := s!"{envName} is not configured"
        provider
        retryable := false
        code := "provider_not_configured" })
  else .ok ()

/-- The body of the answer, as far as the client has got one. -/
def decodeBody (P : Platform) (provider : String) (keyed : Except AdapterExc Unit)
    (posted : Except AdapterExc HttpResponse) : Except AdapterExc Json := do
  keyed
  let response ← posted
  raiseForProviderStatus P provider response
  (P.jsonLoads response.text).mapError fun _ => .unexpected

/-! ## Fields of the body -/

/-- Only a dictionary has a `get`. -/
def attributes : Json → Except AdapterExc Object
  | .obj fields => .ok fields
  | _ => .error .unexpected

/-- What `for … in value or []` goes through. A text has its characters and a dictionary its keys,
and these are texts. -/
def elements (value : Option Json) : Except AdapterExc (List Json) :=
  match value.filter truthy with
  | none => .ok []
  | some (.arr items) => .ok items
  | some (.str s) => .ok (s.toList.map fun c => .str (String.singleton c))
  | some (.obj fields) => .ok (fields.map fun field => .str field.1)
  | some _ => .error .unexpected

def hasType (type : String) (fields : Object) : Bool :=
  match fields.lookup "type" with
  | some (.str t) => t = type
  | _ => false

def blockTexts (conv : Conversions) (type : String) (blocks : List Json) : List String :=
  blocks.filterMap fun
    | .obj block =>
      if hasType type block then
        some (conv.str ((block.lookup "text").getD (.str "")))
      else none
    | _ => none

/-- The model `ProviderResult` of an answer. -/
def providerResult (id : Option Json) (text : String) (inputTokens outputTokens : Int)
    (elapsed : ℚ) (rawModel : String) : Except AdapterExc ProviderResult :=
  match id with
  | none | some .null | some (.str _) =>
    if inputTokens < 0 ∨ outputTokens < 0 ∨ elapsed < 0 then .error .unexpected
    else .ok
      { text
        inputTokens := inputTokens.toNat
        outputTokens := outputTokens.toNat
        ttftMs := elapsed
        rawModel }
  | some _ => .error .unexpected

def rawModel (conv : Conversions) (route : ModelRoute) (fields : Object) : String :=
  conv.str ((fields.lookup "model").getD (.str route.model))

/-! ## OpenAI -/

def messageTexts (conv : Conversions) : List Json → Except AdapterExc (List String)
  | [] => .ok []
  | .obj item :: items =>
    if hasType "message" item then do
      let contents ← elements (item.lookup "content")
      let fragments ← messageTexts conv items
      pure (blockTexts conv "output_text" contents ++ fragments)
    else messageTexts conv items
  | _ :: items => messageTexts conv items

/-- `_extract_output_text`. -/
def extractOutputText (conv : Conversions) (fields : Object) : Except AdapterExc String :=
  match fields.lookup "output_text" with
  | some (.str direct) => .ok direct
  | _ => do
    let items ← elements (fields.lookup "output")
    let fragments ← messageTexts conv items
    pure (String.join fragments)

def openaiResult (conv : Conversions) (route : ModelRoute) (elapsed : ℚ) (body : Json) :
    Except AdapterExc ProviderResult := do
  let fields ← attributes body
  let usage ← dictOr (fields.lookup "usage")
  let text ← extractOutputText conv fields
  let inputTokens ← intOf conv (usage.lookup "input_tokens")
  let outputTokens ← intOf conv (usage.lookup "output_tokens")
  providerResult (fields.lookup "id") text inputTokens outputTokens elapsed
    (rawModel conv route fields)

/-! ## Anthropic -/

def anthropicResult (conv : Conversions) (route : ModelRoute) (elapsed : ℚ) (body : Json) :
    Except AdapterExc ProviderResult := do
  let fields ← attributes body
  let usage ← dictOr (fields.lookup "usage")
  let blocks ← elements (fields.lookup "content")
  let text := String.join (blockTexts conv "text" blocks)
  let inputTokens ← intOf conv (usage.lookup "input_tokens")
  let outputTokens ← intOf conv (usage.lookup "output_tokens")
  providerResult (fields.lookup "id") text inputTokens outputTokens elapsed
    (rawModel conv route fields)

/-! ## Ollama -/

def ollamaResult (conv : Conversions) (route : ModelRoute) (elapsed : ℚ) (body : Json) :
    Except AdapterExc ProviderResult := do
  let fields ← attributes body
  let message ← dictOr (fields.lookup "message")
  let text := conv.str ((message.lookup "content").getD (.str ""))
  let inputTokens ← intOf conv (fields.lookup "prompt_eval_count")
  let outputTokens ← intOf conv (fields.lookup "eval_count")
  providerResult none text inputTokens outputTokens elapsed (rawModel conv route fields)

/-! ## `complete` -/

def AdapterExc.raised : AdapterExc → PyExc
  | .provider e => .aegis (.provider e)
  | .timeoutException => .other "TimeoutException"
  | .httpError => .other "HTTPError"
  | .unexpected => .other "Exception"

/-- The two halves of `complete`: the `try`, and the lines behind it. -/
def adapterComplete (P : Platform) (provider : String) (keyed : Except AdapterExc Unit)
    (result : Json → Except AdapterExc ProviderResult)
    (posted : Except AdapterExc HttpResponse) : Except PyExc ProviderResult := do
  let body ← (decodeBody P provider keyed posted).mapError fun e =>
    .aegis (.provider (normalizeTransportError provider e))
  (result body).mapError AdapterExc.raised

def openaiComplete (P : Platform) (conv : Conversions) (apiKey : Option String)
    (route : ModelRoute) (elapsed : ℚ) :
    Except AdapterExc HttpResponse → Except PyExc ProviderResult :=
  adapterComplete P "openai" (headers "openai" "OPENAI_API_KEY" apiKey)
    (openaiResult conv route elapsed)

def anthropicComplete (P : Platform) (conv : Conversions) (apiKey : Option String)
    (route : ModelRoute) (elapsed : ℚ) :
    Except AdapterExc HttpResponse → Except PyExc ProviderResult :=
  adapterComplete P "anthropic" (headers "anthropic" "ANTHROPIC_API_KEY" apiKey)
    (anthropicResult conv route elapsed)

def ollamaComplete (P : Platform) (conv : Conversions) (route : ModelRoute) (elapsed : ℚ) :
    Except AdapterExc HttpResponse → Except PyExc ProviderResult :=
  adapterComplete P "ollama" (.ok ()) (ollamaResult conv route elapsed)

/-! ## Which bodies are read -/

/-- The answer has been posted with a key and has a status of success, and this is its value. -/
structure Answered (P : Platform) (keyed : Except AdapterExc Unit)
    (posted : Except AdapterExc HttpResponse) (body : Json) : Prop where
  keyed : keyed = .ok ()
  posted : ∃ response, posted = .ok response ∧ response.isSuccess = true ∧
    P.jsonLoads response.text = .ok body

def dictOrEmpty (value : Option Json) : Bool :=
  match value.filter truthy with
  | none | some (.obj _) => true
  | some _ => false

/-- Nothing, something empty, or what `for` goes through. -/
def iterableOrEmpty (value : Option Json) : Bool :=
  match value.filter truthy with
  | none | some (.arr _) | some (.str _) | some (.obj _) => true
  | some _ => false

def textOrNone : Option Json → Bool
  | none | some .null | some (.str _) => true
  | some _ => false

/-- `int` takes the count, if there is one, and it is not negative. -/
def countable (conv : Conversions) (value : Option Json) : Bool :=
  match intOf conv value with
  | .ok n => 0 ≤ n
  | .error _ => false

def fieldsOf : Option Json → Object
  | some (.obj fields) => fields
  | _ => []

def itemsOf : Option Json → List Json
  | some (.arr items) => items
  | _ => []

structure UsageShape (conv : Conversions) (usage : Option Json) : Prop where
  dict : dictOrEmpty usage = true
  inputTokens : countable conv ((fieldsOf usage).lookup "input_tokens") = true
  outputTokens : countable conv ((fieldsOf usage).lookup "output_tokens") = true

/-- The output is a text, or its messages have contents to go through. -/
def OutputShape (fields : Object) : Prop :=
  (∃ direct, fields.lookup "output_text" = some (.str direct)) ∨
    iterableOrEmpty (fields.lookup "output") = true ∧
      ∀ item, .obj item ∈ itemsOf (fields.lookup "output") → hasType "message" item = true →
        iterableOrEmpty (item.lookup "content") = true

def OpenaiShape (conv : Conversions) (body : Json) : Prop :=
  ∃ fields, body = .obj fields ∧ UsageShape conv (fields.lookup "usage") ∧
    textOrNone (fields.lookup "id") = true ∧ OutputShape fields

def AnthropicShape (conv : Conversions) (body : Json) : Prop :=
  ∃ fields, body = .obj fields ∧ UsageShape conv (fields.lookup "usage") ∧
    textOrNone (fields.lookup "id") = true ∧ iterableOrEmpty (fields.lookup "content") = true

def OllamaShape (conv : Conversions) (body : Json) : Prop :=
  ∃ fields, body = .obj fields ∧ dictOrEmpty (fields.lookup "message") = true ∧
    countable conv (fields.lookup "prompt_eval_count") = true ∧
    countable conv (fields.lookup "eval_count") = true

/-! ## When a body is read -/

/-- The conversion raises nothing but an exception of Python. -/
def Conversions.Plain (conv : Conversions) : Prop :=
  ∀ value e, conv.int value = .error e → e = .unexpected

def Plainly {α : Type} (r : Except AdapterExc α) : Prop := ∀ e, r = .error e → e = .unexpected

theorem plainly_ok {α : Type} (a : α) : Plainly (.ok a) := fun _ h => by cases h

theorem plainly_unexpected {α : Type} : Plainly (.error .unexpected : Except AdapterExc α) :=
  fun _ h => (Except.error.inj h).symm

theorem Plainly.bind {α β : Type} {x : Except AdapterExc α} {f : α → Except AdapterExc β}
    (hx : Plainly x) (hf : ∀ a, Plainly (f a)) : Plainly (x >>= f) := by
  cases x with
  | ok a => exact hf a
  | error e =>
    rintro _ ⟨⟩
    exact hx e rfl

section Fields

variable {conv : Conversions}

theorem fieldsOf_eq_nil {value : Json} (h : truthy value = false) : fieldsOf (some value) = [] := by
  cases value with
  | obj fields =>
    cases fields with
    | nil => rfl
    | cons field fields => cases h
  | _ => rfl

theorem itemsOf_eq_nil {value : Json} (h : truthy value = false) : itemsOf (some value) = [] := by
  cases value with
  | arr items =>
    cases items with
    | nil => rfl
    | cons item items => cases h
  | _ => rfl

theorem dictOr_eq_ok {value : Option Json} {fields : Object} :
    dictOr value = .ok fields ↔ dictOrEmpty value = true ∧ fields = fieldsOf value := by
  unfold dictOr dictOrEmpty
  rcases value with _ | value
  · simp [fieldsOf, eq_comm]
  · by_cases ht : truthy value = true
    · cases value <;> simp [Option.filter, ht, fieldsOf, eq_comm]
    · rw [fieldsOf_eq_nil (Bool.eq_false_iff.mpr ht)]
      simp [Option.filter, ht, eq_comm]

theorem dictOr_plainly (value : Option Json) : Plainly (dictOr value) := by
  unfold dictOr
  split
  · exact plainly_ok _
  · exact plainly_ok _
  · exact plainly_unexpected

theorem countable_iff {value : Option Json} :
    countable conv value = true ↔ ∃ n, intOf conv value = .ok n ∧ 0 ≤ n := by
  unfold countable
  cases intOf conv value <;> simp

theorem intOf_plainly (hconv : conv.Plain) (value : Option Json) : Plainly (intOf conv value) :=
  fun e h => hconv _ e h

theorem elements_eq_ok {value : Option Json} :
    (∃ items, elements value = .ok items) ↔ iterableOrEmpty value = true := by
  unfold elements iterableOrEmpty
  cases value.filter truthy with
  | none => simp
  | some value => cases value <;> simp

theorem elements_plainly (value : Option Json) : Plainly (elements value) := by
  unfold elements
  split
  on_goal 5 => exact plainly_unexpected
  all_goals exact plainly_ok _

theorem obj_mem_elements {value : Option Json} {items : List Json} {item : Object}
    (h : elements value = .ok items) : .obj item ∈ items ↔ .obj item ∈ itemsOf value := by
  unfold elements at h
  rcases value with _ | value
  · cases h
    rfl
  · by_cases ht : truthy value = true
    · cases value <;> simp [Option.filter, ht] at h <;> subst h <;> simp [itemsOf]
    · rw [itemsOf_eq_nil (Bool.eq_false_iff.mpr ht)]
      simp only [Option.filter, ht, Bool.false_eq_true, if_false] at h
      cases h
      rfl

theorem messageTexts_eq_ok {items : List Json} :
    (∃ fragments, messageTexts conv items = .ok fragments) ↔
      ∀ item, .obj item ∈ items → hasType "message" item = true →
        iterableOrEmpty (item.lookup "content") = true := by
  fun_induction messageTexts conv items with
  | case1 => simp
  | case2 item items hm ih =>
    simp only [bind_eq_ok, List.mem_cons, Json.obj.injEq, forall_eq_or_imp, ← ih,
      hm, forall_const]
    rw [← elements_eq_ok]
    constructor
    · rintro ⟨_, contents, hc, fragments, hf, -⟩
      exact ⟨⟨contents, hc⟩, fragments, hf⟩
    · rintro ⟨⟨contents, hc⟩, fragments, hf⟩
      exact ⟨_, contents, hc, fragments, hf, rfl⟩
  | case3 item items hm ih => simp [ih, hm]
  | case4 item items hitem ih =>
    rw [ih]
    simp only [List.mem_cons]
    apply forall_congr'
    intro o
    have hne : Json.obj o ≠ item := fun h => hitem o h.symm
    simp [hne]

theorem messageTexts_plainly (items : List Json) : Plainly (messageTexts conv items) := by
  fun_induction messageTexts conv items with
  | case1 => exact plainly_ok _
  | case2 item items _ ih =>
    exact (elements_plainly _).bind fun _ => ih.bind fun _ => plainly_ok _
  | case3 item items _ ih => exact ih
  | case4 item items _ ih => exact ih

theorem extractOutputText_eq_ok {fields : Object} :
    (∃ text, extractOutputText conv fields = .ok text) ↔ OutputShape fields := by
  unfold extractOutputText OutputShape
  split
  next direct h => simp [h]
  next hno =>
    have hnone : ¬ ∃ direct, fields.lookup "output_text" = some (.str direct) := by
      rintro ⟨direct, h⟩
      exact hno direct h
    rw [or_iff_right hnone, ← elements_eq_ok]
    constructor
    · rintro ⟨text, h⟩
      obtain ⟨items, hi, h⟩ := bind_ok h
      obtain ⟨fragments, hf, -⟩ := bind_ok h
      refine ⟨⟨items, hi⟩, fun item hmem => ?_⟩
      exact messageTexts_eq_ok.mp ⟨fragments, hf⟩ item ((obj_mem_elements hi).mpr hmem)
    · rintro ⟨⟨items, hi⟩, hall⟩
      have hcontents : ∃ fragments, messageTexts conv items = .ok fragments :=
        messageTexts_eq_ok.mpr fun item hmem => hall item ((obj_mem_elements hi).mp hmem)
      obtain ⟨fragments, hf⟩ := hcontents
      exact ⟨_, bind_eq_ok.mpr ⟨items, hi, bind_eq_ok.mpr ⟨fragments, hf, rfl⟩⟩⟩

theorem extractOutputText_plainly (fields : Object) :
    Plainly (extractOutputText conv fields) := by
  unfold extractOutputText
  split
  · exact plainly_ok _
  · exact (elements_plainly _).bind fun _ => (messageTexts_plainly _).bind fun _ => plainly_ok _

theorem providerResult_eq_ok {id : Option Json} {text raw : String} {n m : Int} {elapsed : ℚ} :
    (∃ result, providerResult id text n m elapsed raw = .ok result) ↔
      textOrNone id = true ∧ 0 ≤ n ∧ 0 ≤ m ∧ 0 ≤ elapsed := by
  unfold providerResult textOrNone
  split
  on_goal 4 => simp
  all_goals
    split_ifs with hneg
    · simp only [exists_false, true_and, false_iff]
      rintro ⟨hn, hm, he⟩
      exact hneg.elim hn.not_gt fun h => h.elim hm.not_gt he.not_gt
    · simp only [not_or, not_lt] at hneg
      simp [hneg]

theorem providerResult_plainly (id : Option Json) (text : String) (n m : Int) (elapsed : ℚ)
    (raw : String) : Plainly (providerResult id text n m elapsed raw) := by
  unfold providerResult
  split
  on_goal 4 => exact plainly_unexpected
  all_goals
    split_ifs
    · exact plainly_unexpected
    · exact plainly_ok _

theorem usage_eq_ok {α : Type} {usage id : Option Json} {raw : String} {elapsed : ℚ}
    {text : Except AdapterExc α} (join : α → String) (helapsed : 0 ≤ elapsed) :
    (∃ result, (do
      let usage ← dictOr usage
      let text ← text
      let inputTokens ← intOf conv (usage.lookup "input_tokens")
      let outputTokens ← intOf conv (usage.lookup "output_tokens")
      providerResult id (join text) inputTokens outputTokens elapsed raw) = .ok result) ↔
      UsageShape conv usage ∧ textOrNone id = true ∧ ∃ a, text = .ok a := by
  constructor
  · rintro ⟨result, h⟩
    obtain ⟨fields, hfields, h⟩ := bind_ok h
    obtain ⟨hdict, rfl⟩ := dictOr_eq_ok.mp hfields
    obtain ⟨a, ha, h⟩ := bind_ok h
    obtain ⟨n, hn, h⟩ := bind_ok h
    obtain ⟨m, hm, h⟩ := bind_ok h
    obtain ⟨hid, hn0, hm0, -⟩ := providerResult_eq_ok.mp ⟨result, h⟩
    exact ⟨⟨hdict, countable_iff.mpr ⟨n, hn, hn0⟩, countable_iff.mpr ⟨m, hm, hm0⟩⟩, hid, a, ha⟩
  · rintro ⟨⟨hdict, hinput, houtput⟩, hid, a, ha⟩
    obtain ⟨n, hn, hn0⟩ := countable_iff.mp hinput
    obtain ⟨m, hm, hm0⟩ := countable_iff.mp houtput
    obtain ⟨result, h⟩ := providerResult_eq_ok.mpr ⟨hid, hn0, hm0, helapsed⟩
    refine ⟨result, bind_eq_ok.mpr ⟨_, dictOr_eq_ok.mpr ⟨hdict, rfl⟩, ?_⟩⟩
    refine bind_eq_ok.mpr ⟨a, ha, bind_eq_ok.mpr ⟨n, hn, bind_eq_ok.mpr ⟨m, hm, ?_⟩⟩⟩
    exact h

variable (route : ModelRoute) {elapsed : ℚ} {body : Json}

theorem openaiResult_eq_ok (helapsed : 0 ≤ elapsed) :
    (∃ result, openaiResult conv route elapsed body = .ok result) ↔ OpenaiShape conv body := by
  cases body with
  | obj fields =>
    apply (usage_eq_ok (fun text => text) helapsed).trans
    simp only [extractOutputText_eq_ok, OpenaiShape, Json.obj.injEq, exists_eq_left']
  | _ => simp [openaiResult, attributes, OpenaiShape, bind_eq_ok]

theorem anthropicResult_eq_ok (helapsed : 0 ≤ elapsed) :
    (∃ result, anthropicResult conv route elapsed body = .ok result) ↔
      AnthropicShape conv body := by
  cases body with
  | obj fields =>
    refine (usage_eq_ok (fun blocks => String.join (blockTexts conv "text" blocks))
      helapsed).trans ?_
    simp only [elements_eq_ok, AnthropicShape, Json.obj.injEq, exists_eq_left']
  | _ => simp [anthropicResult, attributes, AnthropicShape, bind_eq_ok]

theorem ollamaResult_eq_ok (helapsed : 0 ≤ elapsed) :
    (∃ result, ollamaResult conv route elapsed body = .ok result) ↔ OllamaShape conv body := by
  cases body with
  | obj fields =>
    simp only [OllamaShape, Json.obj.injEq, exists_eq_left']
    constructor
    · rintro ⟨result, h⟩
      obtain ⟨_, ⟨⟩, h⟩ := bind_ok h
      obtain ⟨message, hmessage, h⟩ := bind_ok h
      obtain ⟨n, hn, h⟩ := bind_ok h
      obtain ⟨m, hm, h⟩ := bind_ok h
      obtain ⟨-, hn0, hm0, -⟩ := providerResult_eq_ok.mp ⟨result, h⟩
      exact ⟨(dictOr_eq_ok.mp hmessage).1, countable_iff.mpr ⟨n, hn, hn0⟩,
        countable_iff.mpr ⟨m, hm, hm0⟩⟩
    · rintro ⟨hdict, hinput, houtput⟩
      obtain ⟨n, hn, hn0⟩ := countable_iff.mp hinput
      obtain ⟨m, hm, hm0⟩ := countable_iff.mp houtput
      have hid : textOrNone none = true := rfl
      obtain ⟨result, h⟩ := providerResult_eq_ok.mpr ⟨hid, hn0, hm0, helapsed⟩
      refine ⟨result, bind_eq_ok.mpr ⟨fields, rfl, ?_⟩⟩
      refine bind_eq_ok.mpr ⟨_, dictOr_eq_ok.mpr ⟨hdict, rfl⟩, ?_⟩
      exact bind_eq_ok.mpr ⟨n, hn, bind_eq_ok.mpr ⟨m, hm, h⟩⟩
  | _ => simp [ollamaResult, attributes, OllamaShape, bind_eq_ok]

theorem attributes_plainly (body : Json) : Plainly (attributes body) := by
  unfold attributes
  split
  · exact plainly_ok _
  · exact plainly_unexpected

theorem openaiResult_plainly (hconv : conv.Plain) :
    Plainly (openaiResult conv route elapsed body) := by
  refine (attributes_plainly _).bind fun fields => (dictOr_plainly _).bind fun usage => ?_
  apply (extractOutputText_plainly _).bind
  intro text
  refine (intOf_plainly hconv _).bind fun n => (intOf_plainly hconv _).bind fun m => ?_
  exact providerResult_plainly _ _ _ _ _ _

theorem anthropicResult_plainly (hconv : conv.Plain) :
    Plainly (anthropicResult conv route elapsed body) := by
  refine (attributes_plainly _).bind fun fields => (dictOr_plainly _).bind fun usage => ?_
  apply (elements_plainly _).bind
  intro blocks
  refine (intOf_plainly hconv _).bind fun n => (intOf_plainly hconv _).bind fun m => ?_
  exact providerResult_plainly _ _ _ _ _ _

theorem ollamaResult_plainly (hconv : conv.Plain) :
    Plainly (ollamaResult conv route elapsed body) := by
  refine (attributes_plainly _).bind fun fields => (dictOr_plainly _).bind fun message => ?_
  refine (intOf_plainly hconv _).bind fun n => (intOf_plainly hconv _).bind fun m => ?_
  exact providerResult_plainly _ _ _ _ _ _

end Fields

/-! ## What leaves an adapter -/

/-- A result, or a provider error. -/
def Typed (r : Except PyExc ProviderResult) : Prop :=
  ∀ e, r = .error e → ∃ err, e = .aegis (.provider err)

def StreamTyped (s : Script) : Prop := ∀ e, s.ending = some e → ∃ err, e = .aegis (.provider err)

theorem raiseForProviderStatus_eq_ok {P : Platform} {provider : String}
    {response : HttpResponse} :
    raiseForProviderStatus P provider response = .ok () ↔ response.isSuccess = true := by
  unfold raiseForProviderStatus
  split_ifs with h
  · simp [h]
  · simp [h, bind_eq_ok]

theorem decodeBody_eq_ok {P : Platform} {provider : String} {keyed : Except AdapterExc Unit}
    {posted : Except AdapterExc HttpResponse} {body : Json} :
    decodeBody P provider keyed posted = .ok body ↔ Answered P keyed posted body := by
  constructor
  · intro h
    obtain ⟨_, hkeyed, h⟩ := bind_ok h
    obtain ⟨response, hposted, h⟩ := bind_ok h
    obtain ⟨_, hstatus, h⟩ := bind_ok h
    refine ⟨hkeyed, response, hposted, raiseForProviderStatus_eq_ok.mp hstatus, ?_⟩
    cases hloads : P.jsonLoads response.text with
    | ok value =>
      rw [hloads] at h
      exact congrArg Except.ok (Except.ok.inj h)
    | error e =>
      rw [hloads] at h
      cases h
  · rintro ⟨hkeyed, response, hposted, hstatus, hloads⟩
    refine bind_eq_ok.mpr ⟨(), hkeyed, bind_eq_ok.mpr ⟨response, hposted, ?_⟩⟩
    refine bind_eq_ok.mpr ⟨(), raiseForProviderStatus_eq_ok.mpr hstatus, ?_⟩
    rw [hloads]
    rfl

/-- The first half raises provider errors only, and the second half none. -/
theorem adapterComplete_typed {P : Platform} {provider : String} {keyed : Except AdapterExc Unit}
    {result : Json → Except AdapterExc ProviderResult}
    {posted : Except AdapterExc HttpResponse} (hresult : ∀ body, Plainly (result body)) :
    Typed (adapterComplete P provider keyed result posted) ↔
      ∀ body, Answered P keyed posted body → ∃ r, result body = .ok r := by
  have hanswered (body : Json) : Answered P keyed posted body ↔
      decodeBody P provider keyed posted = .ok body := decodeBody_eq_ok.symm
  simp only [hanswered]
  unfold adapterComplete
  cases decodeBody P provider keyed posted with
  | error e =>
    refine ⟨fun _ _ h => (by cases h), fun _ exc h => ?_⟩
    cases h
    exact ⟨_, rfl⟩
  | ok body =>
    have hcomplete : (((Except.ok body : Except AdapterExc Json).mapError fun e =>
        PyExc.aegis (.provider (normalizeTransportError provider e))) >>= fun body =>
          (result body).mapError AdapterExc.raised) = (result body).mapError AdapterExc.raised := rfl
    rw [hcomplete]
    simp only [Except.ok.injEq, forall_eq']
    cases hr : result body with
    | ok r => exact ⟨fun _ => ⟨r, rfl⟩, fun _ e h => (by cases h)⟩
    | error e =>
      obtain rfl := hresult body e hr
      refine ⟨fun h => ?_, ?_⟩
      · obtain ⟨err, h⟩ := h (.other "Exception") rfl
        cases h
      · rintro ⟨r, h⟩
        cases h

theorem adapterScript_typed {provider : String}
    {body : Wire → List ProviderStreamEvent × Option AdapterExc} {w : Except AdapterExc Wire} :
    StreamTyped (adapterScript provider body w) :=
  fun _ h => adapterScript_ending h

/-- The stream of an adapter raises provider errors only. `complete` does exactly if the body of
each answer has the shape that the lines behind its `try` expect. -/
theorem adapters_typed (P : Platform) (conv : Conversions) (hconv : conv.Plain) (route : ModelRoute)
    (elapsed : ℚ) (helapsed : 0 ≤ elapsed) (apiKey : Option String)
    (posted : Except AdapterExc HttpResponse) :
    (Typed (openaiComplete P conv apiKey route elapsed posted) ↔
      ∀ body, Answered P (headers "openai" "OPENAI_API_KEY" apiKey) posted body →
        OpenaiShape conv body) ∧
    (Typed (anthropicComplete P conv apiKey route elapsed posted) ↔
      ∀ body, Answered P (headers "anthropic" "ANTHROPIC_API_KEY" apiKey) posted body →
        AnthropicShape conv body) ∧
    (Typed (ollamaComplete P conv route elapsed posted) ↔
      ∀ body, Answered P (.ok ()) posted body → OllamaShape conv body) ∧
    ∀ wire, StreamTyped (openaiStream P conv wire) ∧ StreamTyped (anthropicStream P conv wire) ∧
      StreamTyped (ollamaStream P conv wire) := by
  refine ⟨?_, ?_, ?_, fun wire => ⟨?_, ?_, ?_⟩⟩
  · simp only [← openaiResult_eq_ok route helapsed]
    exact adapterComplete_typed fun _ => openaiResult_plainly route hconv
  · simp only [← anthropicResult_eq_ok route helapsed]
    exact adapterComplete_typed fun _ => anthropicResult_plainly route hconv
  · simp only [← ollamaResult_eq_ok route helapsed]
    exact adapterComplete_typed fun _ => ollamaResult_plainly route hconv
  all_goals exact adapterScript_typed

namespace Sample

def conversions : Conversions where
  str
    | .str s => s
    | _ => ""
  int
    | .int n => .ok n
    | _ => .error .unexpected

theorem conversions_plain : conversions.Plain := by
  intro value e h
  cases value
  all_goals cases h
  all_goals rfl

def openaiText : String :=
  "\x7b\"id\": \"r-1\", \"score\": NaN, \"output\": [\x7b\"type\": \"message\", \"content\": " ++
    "[\x7b\"type\": \"output_text\", \"text\": \"hello\"\x7d]\x7d], " ++
    "\"usage\": \x7b\"input_tokens\": 3, \"output_tokens\": 1\x7d\x7d"

/-- Python reads `NaN` as well. -/
def openaiBody : Json := .obj
  [("id", .str "r-1"), ("score", .float .nan),
    ("output", .arr [.obj [("type", .str "message"),
      ("content", .arr [.obj [("type", .str "output_text"), ("text", .str "hello")]])]]),
    ("usage", .obj [("input_tokens", .int 3), ("output_tokens", .int 1)])]

def anthropicText : String :=
  "\x7b\"id\": \"m-1\", \"content\": [\x7b\"type\": \"text\", \"text\": \"hello\"\x7d], " ++
    "\"usage\": \x7b\"input_tokens\": 3, \"output_tokens\": 1\x7d\x7d"

def anthropicBody : Json := .obj
  [("id", .str "m-1"), ("content", .arr [.obj [("type", .str "text"), ("text", .str "hello")]]),
    ("usage", .obj [("input_tokens", .int 3), ("output_tokens", .int 1)])]

def ollamaText : String :=
  "\x7b\"message\": \x7b\"role\": \"assistant\", \"content\": \"hello\"\x7d, " ++
    "\"prompt_eval_count\": 3, \"eval_count\": 1\x7d"

def ollamaBody : Json := .obj
  [("message", .obj [("role", .str "assistant"), ("content", .str "hello")]),
    ("prompt_eval_count", .int 3), ("eval_count", .int 1)]

def answeringPlatform : Platform :=
  { platform with
    jsonLoads := fun text =>
      if text = openaiText then .ok openaiBody
      else if text = anthropicText then .ok anthropicBody
      else if text = ollamaText then .ok ollamaBody
      else .error .jsonDecodeError }

theorem loads_openai : answeringPlatform.jsonLoads openaiText = .ok openaiBody := by
  simp only [answeringPlatform, if_true]

theorem loads_anthropic : answeringPlatform.jsonLoads anthropicText = .ok anthropicBody := by
  have hne : anthropicText ≠ openaiText := by decide +kernel
  simp only [answeringPlatform, if_neg hne, if_true]

theorem loads_ollama : answeringPlatform.jsonLoads ollamaText = .ok ollamaBody := by
  have hne : ollamaText ≠ openaiText := by decide +kernel
  have hne' : ollamaText ≠ anthropicText := by decide +kernel
  simp only [answeringPlatform, if_neg hne, if_neg hne', if_true]

theorem answered_eq {keyed : Except AdapterExc Unit} {text : String} {body body' : Json}
    (h : Answered answeringPlatform keyed (.ok ⟨200, text⟩) body)
    (hbody : answeringPlatform.jsonLoads text = .ok body') : body = body' := by
  obtain ⟨-, response, hposted, -, hloads⟩ := h
  cases hposted
  exact Except.ok.inj (hloads.symm.trans hbody)

end Sample

theorem adapters_typed_answers :
    Typed (openaiComplete Sample.answeringPlatform Sample.conversions (some "key") Sample.route 1
      (.ok ⟨200, Sample.openaiText⟩)) ∧
    Typed (anthropicComplete Sample.answeringPlatform Sample.conversions (some "key") Sample.route 1
      (.ok ⟨200, Sample.anthropicText⟩)) ∧
    Typed (ollamaComplete Sample.answeringPlatform Sample.conversions Sample.route 1
      (.ok ⟨200, Sample.ollamaText⟩)) := by
  have htyped := adapters_typed Sample.answeringPlatform Sample.conversions Sample.conversions_plain
    Sample.route 1 (by decide +kernel) (some "key")
  refine ⟨(htyped _).1.mpr fun body h => ?_, (htyped _).2.1.mpr fun body h => ?_,
    (htyped _).2.2.1.mpr fun body h => ?_⟩
  · obtain rfl := Sample.answered_eq h Sample.loads_openai
    refine ⟨_, rfl, ⟨rfl, rfl, rfl⟩, rfl, .inr ⟨rfl, fun item hitem _ => ?_⟩⟩
    obtain rfl := Json.obj.inj (List.mem_singleton.mp hitem)
    rfl
  · obtain rfl := Sample.answered_eq h Sample.loads_anthropic
    exact ⟨_, rfl, ⟨rfl, rfl, rfl⟩, rfl, rfl⟩
  · obtain rfl := Sample.answered_eq h Sample.loads_ollama
    exact ⟨_, rfl, rfl, rfl, rfl⟩

def Sample.listPlatform : Platform :=
  { platform with
    jsonLoads := fun text => if text = "[]" then .ok (.arr []) else platform.jsonLoads text }

/-- A list as the body of a regular answer has no `get`. -/
theorem body_leaks :
    ¬ Typed (openaiComplete Sample.listPlatform Sample.conversions (some "key") Sample.route 1
      (.ok ⟨200, "[]"⟩)) ∧
    ¬ Typed (anthropicComplete Sample.listPlatform Sample.conversions (some "key") Sample.route 1
      (.ok ⟨200, "[]"⟩)) ∧
    ¬ Typed (ollamaComplete Sample.listPlatform Sample.conversions Sample.route 1
      (.ok ⟨200, "[]"⟩)) := by
  refine ⟨fun h => ?_, fun h => ?_, fun h => ?_⟩
  all_goals
    obtain ⟨err, h⟩ := h (.other "Exception") rfl
    cases h

end AegisGateway
