import AegisGateway.Ops

/-!
# Streams of the provider adapters

`providers/`: from the lines on a connection to the events of a stream. An adapter reads
its lines one by one, so a line that it chokes on comes after the events before it.
-/

open JsonText

namespace AegisGateway

/-! ## Exceptions -/

/-- What `normalize_transport_error` tells apart. -/
inductive AdapterExc where
  | timeoutException
  | httpError
  | provider (e : ProviderError)
  | unexpected

def normalizeTransportError (provider : String) : AdapterExc → ProviderError
  | .timeoutException => providerTimeoutError "upstream request timed out" provider
  | .httpError =>
    { message := "upstream transport failed", provider, retryable := true
      code := "provider_transport_error" }
  | .provider e => e
  | .unexpected =>
    { message := "unexpected provider adapter failure", provider, retryable := false
      code := "provider_adapter_error" }

def terminalError (message provider : String) : AdapterExc :=
  .provider { message, provider, retryable := true, code := "provider_stream_error" }

/-! ## Lines -/

/-- A connection that has been opened: its lines, and the exception that cuts it. There is none
where the peer has closed it, early or not. -/
structure Wire where
  lines : List String
  cut : Option AdapterExc := none

/-- `str(value)` and `int(value)` of Python, for a value of `json.loads`. -/
structure Conversions where
  str : Json → String
  int : Json → Except AdapterExc Int

/-- The value of a frame, of its `data` lines. -/
def frameValue (P : Platform) (dataLines : List String) : Except AdapterExc (List Object) :=
  if dataLines = [] then .ok []
  else
    let payload := "\n".intercalate dataLines
    if payload = "[DONE]" then .ok []
    else
      match P.jsonLoads payload with
      | .ok (.obj value) => .ok [value]
      | .ok _ => .ok []
      | .error _ => .error .unexpected

theorem frameValue_of_loads {P : Platform} {dataLines : List String} {value : Object}
    (hne : dataLines ≠ []) (hs : "\n".intercalate dataLines ≠ "[DONE]")
    (h : P.jsonLoads ("\n".intercalate dataLines) = .ok (.obj value)) :
    frameValue P dataLines = .ok [value] := by
  rw [frameValue, if_neg hne]
  simp only [if_neg hs, h]

/-- `iter_sse_json`, with the `data` lines of the frame that has begun. -/
def iterSseJson (P : Platform) (cut : Option AdapterExc) :
    List String → List String → List Object × Option AdapterExc
  | dataLines, [] =>
    match cut, frameValue P dataLines with
    | some e, _ => ([], some e)
    | none, .ok values => (values, none)
    | none, .error e => ([], some e)
  | dataLines, line :: lines =>
    if line = "" then
      match frameValue P dataLines with
      | .error e => ([], some e)
      | .ok values =>
        let rest := iterSseJson P cut [] lines
        (values ++ rest.1, rest.2)
    else if line.toList.take 5 = "data:".toList then
      let value := String.ofList ((line.toList.drop 5).dropWhile P.isSpace)
      iterSseJson P cut (dataLines ++ [value]) lines
    else iterSseJson P cut dataLines lines

/-! ## Reading a value -/

def truthy : Json → Bool
  | .null | .bool false | .int 0 | .str "" | .arr [] | .obj [] => false
  | .float x => x ≠ .exact 0 && x ≠ .negZero
  | _ => true

/-- `value or` the empty dictionary, where only a dictionary has a `get`. -/
def dictOr (value : Option Json) : Except AdapterExc Object :=
  match value.filter truthy with
  | none => .ok []
  | some (.obj fields) => .ok fields
  | some _ => .error .unexpected

def intOf (conv : Conversions) (value : Option Json) : Except AdapterExc Int :=
  conv.int (value.getD (.int 0))

/-- The model of an event takes no negative count. -/
def usageEvent (inputTokens outputTokens : Int) : Except AdapterExc ProviderStreamEvent :=
  if inputTokens < 0 ∨ outputTokens < 0 then .error .unexpected
  else .ok
    { type := .usage, inputTokens := some inputTokens.toNat
      outputTokens := some outputTokens.toNat }

def startEvent (envelope : Object) : Except AdapterExc ProviderStreamEvent :=
  match envelope.lookup "id" with
  | none | some .null | some (.str _) => .ok { type := .start }
  | some _ => .error .unexpected

def deltaEvent (conv : Conversions) (text : Option Json) : ProviderStreamEvent :=
  { type := .delta, delta := conv.str (text.getD (.str "")) }

def doneEvent : ProviderStreamEvent := { type := .done }

/-! ## Events -/

/-- What an adapter does with one value: the events it yields, and then its state or the
exception it raises. -/
abbrev Reading (σ α : Type) : Type := σ → α → List ProviderStreamEvent × Except AdapterExc σ

def reading {σ : Type} (r : Except AdapterExc (List ProviderStreamEvent × σ)) :
    List ProviderStreamEvent × Except AdapterExc σ :=
  match r with
  | .ok (events, s) => (events, .ok s)
  | .error e => ([], .error e)

/-- The `async for` of an adapter. -/
def readAll {σ α : Type} (read : Reading σ α) (cut : Option AdapterExc) :
    σ → List α → List ProviderStreamEvent × Option AdapterExc
  | _, [] => ([], cut)
  | s, value :: values =>
    match read s value with
    | (events, .error e) => (events, some e)
    | (events, .ok s') =>
      let rest := readAll read cut s' values
      (events ++ rest.1, rest.2)

def openaiEvent (conv : Conversions) : Reading Unit Object := fun _ event =>
  match event.lookup "type" with
  | some (.str "response.created") => reading do
    let envelope ← dictOr (event.lookup "response")
    let start ← startEvent envelope
    pure ([start], ())
  | some (.str "response.output_text.delta") =>
    ([deltaEvent conv (event.lookup "delta")], .ok ())
  | some (.str "response.completed") => reading do
    let envelope ← dictOr (event.lookup "response")
    let usage ← dictOr (envelope.lookup "usage")
    let inputTokens ← intOf conv (usage.lookup "input_tokens")
    let outputTokens ← intOf conv (usage.lookup "output_tokens")
    let usage ← usageEvent inputTokens outputTokens
    pure ([usage, doneEvent], ())
  | some (.str "response.failed") | some (.str "error") =>
    ([], .error (terminalError "OpenAI stream reported a terminal error" "openai"))
  -- A list or a dictionary has no hash.
  | some (.arr _) | some (.obj _) => ([], .error .unexpected)
  | _ => ([], .ok ())

def anthropicEvent (conv : Conversions) : Reading Int Object := fun inputTokens event =>
  match event.lookup "type" with
  | some (.str "message_start") => reading do
    let message ← dictOr (event.lookup "message")
    let usage ← dictOr (message.lookup "usage")
    let inputTokens ← intOf conv (usage.lookup "input_tokens")
    let start ← startEvent message
    pure ([start], inputTokens)
  | some (.str "content_block_delta") => reading do
    let delta ← dictOr (event.lookup "delta")
    match delta.lookup "type" with
    | some (.str "text_delta") => pure ([deltaEvent conv (delta.lookup "text")], inputTokens)
    | _ => pure ([], inputTokens)
  | some (.str "message_delta") => reading do
    let usage ← dictOr (event.lookup "usage")
    let outputTokens ← intOf conv (usage.lookup "output_tokens")
    let usage ← usageEvent inputTokens outputTokens
    pure ([usage], inputTokens)
  | some (.str "message_stop") => ([doneEvent], .ok inputTokens)
  | some (.str "error") =>
    ([], .error (terminalError "Anthropic stream reported a terminal error" "anthropic"))
  | _ => ([], .ok inputTokens)

def ollamaDone (conv : Conversions) (event : Object) :
    List ProviderStreamEvent × Except AdapterExc Unit :=
  if (event.lookup "done").any truthy then reading do
    let inputTokens ← intOf conv (event.lookup "prompt_eval_count")
    let outputTokens ← intOf conv (event.lookup "eval_count")
    let usage ← usageEvent inputTokens outputTokens
    pure ([usage, doneEvent], ())
  else ([], .ok ())

def ollamaLine (P : Platform) (conv : Conversions) : Reading Unit String := fun _ line =>
  if line = "" then ([], .ok ())
  else
    match P.jsonLoads line with
    | .error _ => ([], .error .unexpected)
    | .ok (.obj event) =>
      match event.lookup "error" with
      | some error => ([], .error (terminalError (conv.str error) "ollama"))
      | none =>
        match dictOr (event.lookup "message") with
        | .error e => ([], .error e)
        | .ok message =>
          let delta := deltaEvent conv (message.lookup "content")
          let last := ollamaDone conv event
          -- The delta is out before the counts are read.
          (if delta.delta = "" then last.1 else delta :: last.1, last.2)
    | .ok _ => ([], .ok ())

/-! ## Streams -/

/-- The whole stream of an adapter. What is raised in its `try` is raised as a provider error. -/
def adapterScript (provider : String)
    (body : Wire → List ProviderStreamEvent × Option AdapterExc) :
    Except AdapterExc Wire → Script
  | .error e =>
    { events := [], ending := some (.aegis (.provider (normalizeTransportError provider e))) }
  | .ok wire =>
    let (events, ending) := body wire
    { events := { type := .start } :: events
      ending := ending.map fun e => .aegis (.provider (normalizeTransportError provider e)) }

def openaiStream (P : Platform) (conv : Conversions) : Except AdapterExc Wire → Script :=
  adapterScript "openai" fun wire =>
    let (values, ending) := iterSseJson P wire.cut [] wire.lines
    readAll (openaiEvent conv) ending () values

def anthropicStream (P : Platform) (conv : Conversions) : Except AdapterExc Wire → Script :=
  adapterScript "anthropic" fun wire =>
    let (values, ending) := iterSseJson P wire.cut [] wire.lines
    readAll (anthropicEvent conv) ending 0 values

def ollamaStream (P : Platform) (conv : Conversions) : Except AdapterExc Wire → Script :=
  adapterScript "ollama" fun wire => readAll (ollamaLine P conv) wire.cut () wire.lines

/-! ## How a stream ends -/

/-- The provider has said that it is done, and has reported no error. -/
def Script.terminal (s : Script) : Bool :=
  s.events.any (·.type = .done) && s.events.all (·.type ≠ .error)

theorem Script.done_of_terminal {s : Script} (h : s.terminal = true) :
    ∃ e ∈ s.events, e.type = .done := by
  simp only [terminal, Bool.and_eq_true, List.any_eq_true, decide_eq_true_eq] at h
  exact h.1

theorem readAll_forall {σ α : Type} {read : Reading σ α} {φ : α → ProviderStreamEvent → Prop}
    (h : ∀ s value, ∀ e ∈ (read s value).1, φ value e) (cut : Option AdapterExc) (s : σ)
    (values : List α) :
    ∀ e ∈ (readAll read cut s values).1, ∃ value ∈ values, φ value e := by
  induction values generalizing s with
  | nil => simp [readAll]
  | cons value values ih =>
    intro e he
    have hread := h s value
    unfold readAll at he
    split at he
    next events exc hr =>
      rw [hr] at hread
      exact ⟨value, List.mem_cons_self, hread e he⟩
    next events s' hr =>
      rw [hr] at hread
      rcases List.mem_append.mp he with he | he
      · exact ⟨value, List.mem_cons_self, hread e he⟩
      · obtain ⟨value', hmem, hφ⟩ := ih s' e he
        exact ⟨value', List.mem_cons_of_mem _ hmem, hφ⟩

theorem reading_forall {σ : Type} {r : Except AdapterExc (List ProviderStreamEvent × σ)}
    {φ : ProviderStreamEvent → Prop} (h : ∀ events s, r = .ok (events, s) → ∀ e ∈ events, φ e) :
    ∀ e ∈ (reading r).1, φ e := by
  cases r with
  | error e => simp [reading]
  | ok a => exact h a.1 a.2 rfl

theorem startEvent_type {envelope : Object} {e : ProviderStreamEvent}
    (h : startEvent envelope = .ok e) : e.type = .start := by
  unfold startEvent at h
  split at h
  all_goals cases h
  all_goals rfl

theorem usageEvent_type {n m : Int} {e : ProviderStreamEvent} (h : usageEvent n m = .ok e) :
    e.type = .usage := by
  unfold usageEvent at h
  split_ifs at h
  cases h
  rfl

def openaiCompleted (event : Object) : Prop :=
  event.lookup "type" = some (.str "response.completed")

theorem openaiEvent_done (conv : Conversions) (s : Unit) (event : Object) :
    ∀ e ∈ (openaiEvent conv s event).1, e.type = .done → openaiCompleted event := by
  unfold openaiEvent
  split
  next =>
    apply reading_forall
    intro events s h e he hdone
    obtain ⟨envelope, -, h⟩ := bind_ok h
    obtain ⟨start, hstart, h⟩ := bind_ok h
    cases h
    rw [List.mem_singleton] at he
    rw [he, startEvent_type hstart] at hdone
    cases hdone
  next => simp [deltaEvent]
  next h => exact fun _ _ _ => h
  all_goals simp

def anthropicStopped (event : Object) : Prop :=
  event.lookup "type" = some (.str "message_stop")

theorem anthropicEvent_done (conv : Conversions) (s : Int) (event : Object) :
    ∀ e ∈ (anthropicEvent conv s event).1, e.type = .done → anthropicStopped event := by
  unfold anthropicEvent
  split
  next =>
    apply reading_forall
    intro events s h e he hdone
    obtain ⟨message, -, h⟩ := bind_ok h
    obtain ⟨usage, -, h⟩ := bind_ok h
    obtain ⟨inputTokens, -, h⟩ := bind_ok h
    obtain ⟨start, hstart, h⟩ := bind_ok h
    cases h
    rw [List.mem_singleton] at he
    rw [he, startEvent_type hstart] at hdone
    cases hdone
  next =>
    apply reading_forall
    intro events s h e he hdone
    obtain ⟨delta, -, h⟩ := bind_ok h
    split at h
    all_goals cases h
    · rw [List.mem_singleton] at he
      rw [he] at hdone
      cases hdone
    · cases he
  next =>
    apply reading_forall
    intro events s h e he hdone
    obtain ⟨usage, -, h⟩ := bind_ok h
    obtain ⟨outputTokens, -, h⟩ := bind_ok h
    obtain ⟨event, husage, h⟩ := bind_ok h
    cases h
    rw [List.mem_singleton] at he
    rw [he, usageEvent_type husage] at hdone
    cases hdone
  next h => exact fun _ _ _ => h
  all_goals simp

def ollamaFinished (P : Platform) (line : String) : Prop :=
  ∃ event, P.jsonLoads line = .ok (.obj event) ∧ (event.lookup "done").any truthy = true

theorem ollamaLine_done (P : Platform) (conv : Conversions) (s : Unit) (line : String) :
    ∀ e ∈ (ollamaLine P conv s line).1, e.type = .done → ollamaFinished P line := by
  unfold ollamaLine
  split_ifs
  · simp
  split
  next => simp
  next event hloads =>
    split
    next => simp
    next =>
      split
      next => simp
      next message hmessage =>
        intro e he hdone
        have hlast : e ∈ (ollamaDone conv event).1 := by
          dsimp only at he
          split_ifs at he
          · exact he
          · rcases List.mem_cons.mp he with rfl | he
            · cases hdone
            · exact he
        unfold ollamaDone at hlast
        split_ifs at hlast with htrue
        · exact ⟨event, hloads, htrue⟩
        · cases hlast
  next => simp

theorem openaiStream_terminal {P : Platform} {conv : Conversions} {wire : Wire}
    (h : (openaiStream P conv (.ok wire)).terminal = true) :
    ∃ value ∈ (iterSseJson P wire.cut [] wire.lines).1, openaiCompleted value := by
  obtain ⟨e, he, hdone⟩ := Script.done_of_terminal h
  rcases List.mem_cons.mp he with rfl | he
  · cases hdone
  · obtain ⟨value, hmem, hφ⟩ := readAll_forall (openaiEvent_done conv) _ _ _ e he
    exact ⟨value, hmem, hφ hdone⟩

theorem anthropicStream_terminal {P : Platform} {conv : Conversions} {wire : Wire}
    (h : (anthropicStream P conv (.ok wire)).terminal = true) :
    ∃ value ∈ (iterSseJson P wire.cut [] wire.lines).1, anthropicStopped value := by
  obtain ⟨e, he, hdone⟩ := Script.done_of_terminal h
  rcases List.mem_cons.mp he with rfl | he
  · cases hdone
  · obtain ⟨value, hmem, hφ⟩ := readAll_forall (anthropicEvent_done conv) _ _ _ e he
    exact ⟨value, hmem, hφ hdone⟩

theorem ollamaStream_terminal {P : Platform} {conv : Conversions} {wire : Wire}
    (h : (ollamaStream P conv (.ok wire)).terminal = true) :
    ∃ line ∈ wire.lines, ollamaFinished P line := by
  obtain ⟨e, he, hdone⟩ := Script.done_of_terminal h
  rcases List.mem_cons.mp he with rfl | he
  · cases hdone
  · obtain ⟨value, hmem, hφ⟩ := readAll_forall (ollamaLine_done P conv) _ _ _ e he
    exact ⟨value, hmem, hφ hdone⟩

/-- If it is the stream of an adapter, the last event of its protocol has been read. -/
def LastRead (P : Platform) (script : Script) : Prop :=
  ∀ conv wire,
    (script = openaiStream P conv (.ok wire) →
      ∃ value ∈ (iterSseJson P wire.cut [] wire.lines).1, openaiCompleted value) ∧
    (script = anthropicStream P conv (.ok wire) →
      ∃ value ∈ (iterSseJson P wire.cut [] wire.lines).1, anthropicStopped value) ∧
    (script = ollamaStream P conv (.ok wire) → ∃ line ∈ wire.lines, ollamaFinished P line)

theorem lastRead_of_terminal {P : Platform} {script : Script} (h : script.terminal = true) :
    LastRead P script := by
  refine fun conv wire => ⟨?_, ?_, ?_⟩
  · rintro rfl
    exact openaiStream_terminal h
  · rintro rfl
    exact anthropicStream_terminal h
  · rintro rfl
    exact ollamaStream_terminal h

theorem adapterScript_ending {provider : String}
    {body : Wire → List ProviderStreamEvent × Option AdapterExc} {w : Except AdapterExc Wire}
    {e : PyExc} (h : (adapterScript provider body w).ending = some e) :
    ∃ err, e = .aegis (.provider err) := by
  cases w with
  | error exc => exact ⟨_, (Option.some.inj h).symm⟩
  | ok wire =>
    obtain ⟨exc, -, rfl⟩ := Option.map_eq_some_iff.mp h
    exact ⟨_, rfl⟩

end AegisGateway
