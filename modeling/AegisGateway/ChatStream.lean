import AegisGateway.Compat
import AegisGateway.Evidence
import AegisGateway.SseDecoding

/-!
# The compatibility stream

`_openai_compat_stream` of `api/app.py` turns what a stream yields into chunks of a chat completion,
with `[DONE]` behind the last one, and an error of the gateway into an object of its own. A client
that reads on puts the answer together again.
-/

open Coroutine JsonText Lines

namespace AegisGateway

open ArtifactRegistry

/-! ## Frames -/

/-- One `data:` line and the blank line behind it. -/
inductive ChatFrame where
  | value (style : Style) (payload : Object)
  | sentinel

namespace ChatFrame

def content (P : Platform) : ChatFrame → List Char
  | .value style payload => text P.floatRepr style (.obj payload)
  | .sentinel => "[DONE]".toList

def text (P : Platform) (frame : ChatFrame) : String :=
  "data: " ++ String.ofList (frame.content P) ++ "\n\n"

def payload? : ChatFrame → Option Object
  | .value _ payload => some payload
  | .sentinel => none

def Legible : ChatFrame → Prop
  | .value style payload => (style = .compact ∨ style = .standard) ∧ Distinct (.obj payload)
  | .sentinel => True

end ChatFrame

def payloads (frames : List ChatFrame) : List Object := frames.filterMap ChatFrame.payload?

def chatText (P : Platform) (frames : List ChatFrame) : String :=
  String.join (frames.map (·.text P))

/-- What the gateway's own reader of event streams makes of them. -/
def clientReads (P : Platform) (frames : List ChatFrame) : List Object × Option AdapterExc :=
  iterSseJson P none [] (splitlines (chatText P frames))

theorem standard_plain : Style.standard.Plain :=
  ⟨rfl, printable_of_all (by decide), printable_of_all (by decide)⟩

theorem standard_spaced : Style.standard.Spaced :=
  ⟨⟨[' '], by simp [isWhitespace], rfl⟩, ⟨[' '], by simp [isWhitespace], rfl⟩⟩

section Reading

variable {P : Platform} {floatOf : List Char → PyFloat} {frame : ChatFrame}

theorem ChatFrame.Legible.plain {style : Style} {payload : Object}
    (h : (ChatFrame.value style payload).Legible) : style.Plain ∧ style.Spaced := by
  obtain ⟨rfl | rfl, -⟩ := h
  · exact ⟨compact_plain, compact_spaced⟩
  · exact ⟨standard_plain, standard_spaced⟩

theorem ChatFrame.content_unbroken (hP : Decodes P floatOf) (h : frame.Legible) :
    Unbroken (frame.content P) := by
  cases frame with
  | value style payload =>
    exact fun c hc => isBreak_of_printable (text_printable hP.text h.plain.1 h.2 c hc)
  | sentinel =>
    have hdone : Unbroken "[DONE]".toList := unbroken_of_all (by decide)
    exact hdone

theorem ChatFrame.text_toList (frame : ChatFrame) (rest : List Char) :
    (frame.text P).toList ++ rest =
      (FieldLine.data true (frame.content P)).line ++ '\n' :: ([] ++ '\n' :: rest) := by
  have hend : "\n\n".toList = ['\n', '\n'] := by simp
  have hdata : "data: ".toList = dataPrefix ++ [' '] := by simp [dataPrefix]
  unfold ChatFrame.text FieldLine.line
  generalize frame.content P = cs
  rw [String.toList_append, String.toList_append, hdata, hend, String.toList_ofList]
  simp

theorem splitlines_chat (hP : Decodes P floatOf) (h : frame.Legible) (rest : String) :
    splitlines (frame.text P ++ rest) =
      String.ofList (FieldLine.data true (frame.content P)).line :: "" :: splitlines rest := by
  unfold splitlines
  rw [String.toList_append, ChatFrame.text_toList,
    split_line (FieldLine.unbroken_line (frame.content_unbroken hP h)), split_line (by simp)]
  rfl

theorem kept_value (hr : Reads P floatOf) (style : Style) (payload : Object) :
    kept P ((ChatFrame.value style payload).content P) =
      String.ofList ((ChatFrame.value style payload).content P) := by
  have hbrace : P.isSpace (Char.ofNat 123) = false := hr.visible _ rfl
  obtain ⟨rest, hrest⟩ : ∃ rest, (ChatFrame.value style payload).content P = Char.ofNat 123 :: rest :=
    ⟨_, rfl⟩
  rw [kept, hrest, List.dropWhile_cons_of_neg (by simp [hbrace])]

theorem frameValue_chat (hP : Decodes P floatOf) (hr : Reads P floatOf) (h : frame.Legible) :
    frameValue P [kept P (frame.content P)] = .ok frame.payload?.toList := by
  cases frame with
  | value style payload =>
    have hread := hP.loads _ _ (loads_text hP.text hP.reading h.plain.2 h.2)
    rw [kept_value hr]
    refine frameValue_of_loads (List.cons_ne_nil _ _) ?_ hread
    rw [String.intercalate_singleton]
    intro hdone
    have hlist := congrArg String.toList hdone
    rw [String.toList_ofList] at hlist
    cases hlist
  | sentinel => exact frameValue_sentinel hr

theorem iterSseJson_chat (hP : Decodes P floatOf) (hr : Reads P floatOf) (h : frame.Legible)
    (lines : List String) :
    iterSseJson P none []
        (String.ofList (FieldLine.data true (frame.content P)).line :: "" :: lines) =
      (frame.payload?.toList ++ (iterSseJson P none [] lines).1,
        (iterSseJson P none [] lines).2) := by
  rw [iterSseJson_data hr, List.nil_append, iterSseJson, if_pos rfl, frameValue_chat hP hr h]

theorem clientReads_eq (hP : Decodes P floatOf) (hr : Reads P floatOf) {frames : List ChatFrame}
    (h : ∀ frame ∈ frames, frame.Legible) : clientReads P frames = (payloads frames, none) := by
  induction frames with
  | nil => rfl
  | cons frame frames ih =>
    obtain ⟨hframe, hframes⟩ := List.forall_mem_cons.mp h
    have hjoin : chatText P (frame :: frames) = frame.text P ++ chatText P frames := by
      simp [chatText, String.join_cons]
    have hrest : iterSseJson P none [] (splitlines (chatText P frames)) = (payloads frames, none) :=
      ih hframes
    rw [clientReads, hjoin, splitlines_chat hP hframe, iterSseJson_chat hP hr hframe, hrest]
    cases frame <;> rfl

end Reading

/-! ## Chunks -/

def chatId (body : GatewayRequest) : String := "chatcmpl-" ++ body.requestId

def chatChunk (body : GatewayRequest) (event : GatewayStreamEvent) : Object :=
  [("id", .str (chatId body)), ("object", .str "chat.completion.chunk"),
    ("model", .str event.model),
    ("choices", .arr [.obj [("index", .int 0), ("delta", .obj [("content", .str event.delta)]),
      ("finish_reason", .null)]])]

def chatFinal (body : GatewayRequest) (event : GatewayStreamEvent) : Object :=
  [("id", .str (chatId body)), ("object", .str "chat.completion.chunk"),
    ("model", .str event.model),
    ("choices", .arr [.obj [("index", .int 0), ("delta", .obj []),
      ("finish_reason", .str "stop")]]),
    ("aegis", .obj [("route_id", .str event.routeId)])]

def errorObject (e : AegisError) : Object :=
  [("error", .obj [("code", .str e.code), ("message", .str e.message)])]

/-- The body of the loop of `_openai_compat_stream`. -/
def chatFrames (body : GatewayRequest) (event : GatewayStreamEvent) : List ChatFrame :=
  match event.type with
  | .delta => [.value .compact (chatChunk body event)]
  | .done => [.value .compact (chatFinal body event), .sentinel]
  | _ => []

/-- The handler of `_openai_compat_stream`. Any other exception cuts the stream off. -/
def chatEnding {α : Type} : Except PyExc α → List ChatFrame
  | .error (.aegis e) => [.value .standard (errorObject e), .sentinel]
  | _ => []

/-- `_openai_compat_stream`, of a stream that has yielded the events and come to its end. -/
def openaiCompatStream {α : Type} (body : GatewayRequest) (events : List GatewayStreamEvent)
    (out : Except PyExc α) : List ChatFrame :=
  events.flatMap (chatFrames body) ++ chatEnding out

/-! ## What a client looks at -/

def field (key : String) : Json → Option Json
  | .obj fields => fields.lookup key
  | _ => none

/-- `choices[0]`. -/
def firstChoice (value : Object) : Option Json :=
  match value.lookup "choices" with
  | some (.arr (choice :: _)) => some choice
  | _ => none

/-- `choices[0].delta.content`. -/
def contentOf (value : Object) : Option String :=
  match (firstChoice value).bind (field "delta") |>.bind (field "content") with
  | some (.str content) => some content
  | _ => none

/-- `choices[0].finish_reason`. -/
def finishReason (value : Object) : Option String :=
  match (firstChoice value).bind (field "finish_reason") with
  | some (.str reason) => some reason
  | _ => none

/-- `error.code` and `error.message`. -/
def errorOf (value : Object) : Option (String × String) :=
  match (value.lookup "error").bind (field "code"), (value.lookup "error").bind (field "message") with
  | some (.str code), some (.str message) => some (code, message)
  | _, _ => none

def chatAnswer (values : List Object) : String := String.join (values.filterMap contentOf)

section Chunks

variable {body : GatewayRequest} {event : GatewayStreamEvent}

@[simp]
theorem contentOf_chunk : contentOf (chatChunk body event) = some event.delta := rfl

@[simp]
theorem contentOf_final : contentOf (chatFinal body event) = none := rfl

@[simp]
theorem contentOf_error (e : AegisError) : contentOf (errorObject e) = none := rfl

theorem distinct_choice (delta : Object) (reason : Json) (hdelta : Distinct (.obj delta))
    (hreason : Distinct reason) :
    Distinct (.arr [.obj [("index", .int 0), ("delta", .obj delta), ("finish_reason", reason)]]) := by
  refine .arr (List.forall_mem_singleton.mpr (.obj (by simp) ?_))
  simp [Distinct.int, hdelta, hreason]

theorem distinct_singleton {key : String} {value : Json} (h : Distinct value) :
    Distinct (.obj [(key, value)]) :=
  .obj (List.nodup_singleton _) (List.forall_mem_singleton.mpr h)

theorem distinct_chunk (body : GatewayRequest) (event : GatewayStreamEvent) :
    Distinct (.obj (chatChunk body event)) := by
  have hchoice := distinct_choice [("content", .str event.delta)] .null
    (distinct_singleton (.str _)) .null
  refine .obj (by simp [chatChunk]) ?_
  simp [chatChunk, Distinct.str, hchoice]

theorem distinct_final (body : GatewayRequest) (event : GatewayStreamEvent) :
    Distinct (.obj (chatFinal body event)) := by
  have hchoice := distinct_choice [] (.str "stop") (.obj List.nodup_nil (by simp)) (.str _)
  have hroute : Distinct (.obj [("route_id", .str event.routeId)]) := distinct_singleton (.str _)
  refine .obj (by simp [chatFinal]) ?_
  simp [chatFinal, Distinct.str, hchoice, hroute]

theorem distinct_error (e : AegisError) : Distinct (.obj (errorObject e)) := by
  refine distinct_singleton (.obj (by simp) ?_)
  simp [Distinct.str]

theorem chatFrames_legible : ∀ frame ∈ chatFrames body event, frame.Legible := by
  unfold chatFrames
  split
  · exact List.forall_mem_singleton.mpr ⟨.inl rfl, distinct_chunk body event⟩
  · exact List.forall_mem_cons.mpr ⟨⟨.inl rfl, distinct_final body event⟩,
      List.forall_mem_singleton.mpr trivial⟩
  · exact List.forall_mem_nil _

theorem chatEnding_legible {α : Type} (out : Except PyExc α) :
    ∀ frame ∈ chatEnding out, frame.Legible := by
  unfold chatEnding
  split
  · exact List.forall_mem_cons.mpr ⟨⟨.inr rfl, distinct_error _⟩,
      List.forall_mem_singleton.mpr trivial⟩
  · exact List.forall_mem_nil _

theorem stream_legible {α : Type} (events : List GatewayStreamEvent) (out : Except PyExc α) :
    ∀ frame ∈ openaiCompatStream body events out, frame.Legible := by
  refine List.forall_mem_append.mpr ⟨fun frame hframe => ?_, chatEnding_legible out⟩
  obtain ⟨event, -, hmem⟩ := List.mem_flatMap.mp hframe
  exact chatFrames_legible frame hmem

end Chunks

/-! ## What the chunks say -/

@[simp]
theorem payloads_append (frames frames' : List ChatFrame) :
    payloads (frames ++ frames') = payloads frames ++ payloads frames' :=
  List.filterMap_append

def Open (values : List Object) : Prop :=
  ∀ value ∈ values, finishReason value = none ∧ errorOf value = none

theorem payloads_undone {body : GatewayRequest} {events : List GatewayStreamEvent}
    (h : ∀ v ∈ events, v.type ≠ .done) :
    payloads (events.flatMap (chatFrames body)) =
      (events.filter (·.type = .delta)).map (chatChunk body) := by
  induction events with
  | nil => rfl
  | cons event events ih =>
    obtain ⟨hevent, hevents⟩ := List.forall_mem_cons.mp h
    rw [List.flatMap_cons, payloads_append, ih hevents]
    cases htype : event.type with
    | done => exact absurd htype hevent
    | delta => simp [chatFrames, htype, payloads, ChatFrame.payload?]
    | start | error => simp [chatFrames, htype, payloads]

theorem filterMap_content (body : GatewayRequest) (events : List GatewayStreamEvent) :
    ((events.filter (·.type = .delta)).map (chatChunk body)).filterMap contentOf =
      Service.deltasOf events := by
  have hcontent : contentOf ∘ chatChunk body = some ∘ GatewayStreamEvent.delta := rfl
  rw [List.filterMap_map, hcontent, List.filterMap_eq_map]
  rfl

theorem open_chunks (body : GatewayRequest) (events : List GatewayStreamEvent) :
    Open (events.map (chatChunk body)) := by
  intro value hvalue
  obtain ⟨event, -, rfl⟩ := List.mem_map.mp hvalue
  exact ⟨rfl, rfl⟩

def isSentinel : ChatFrame → Bool
  | .sentinel => true
  | .value _ _ => false

theorem sentinel_undone {body : GatewayRequest} {events : List GatewayStreamEvent}
    (h : ∀ v ∈ events, v.type ≠ .done) :
    ∀ frame ∈ events.flatMap (chatFrames body), isSentinel frame = false := by
  intro frame hframe
  obtain ⟨event, hevent, hmem⟩ := List.mem_flatMap.mp hframe
  unfold chatFrames at hmem
  split at hmem
  · obtain rfl := List.mem_singleton.mp hmem
    rfl
  · next hdone => exact absurd hdone (h event hevent)
  · exact absurd hmem List.not_mem_nil

namespace Service

variable {svc : Service}

/-! ## Streams without an answer -/

/-- Nothing that the consumer could take for the whole answer. -/
def Undone (tr : GatewayTrace) : Prop := ∀ v ∈ yielded tr, v.type ≠ .done

theorem undone_of_quiet {tr : GatewayTrace} (h : ∀ e ∈ tr, yieldOf e.1 = none) : Undone tr := by
  intro v hv
  rw [yielded_eq_nil h] at hv
  cases hv

theorem Undone.append {tr tr' : GatewayTrace} (h : Undone tr) (h' : Undone tr') :
    Undone (tr ++ tr') := by
  intro v hv
  rw [yielded_append] at hv
  exact (List.mem_append.mp hv).elim (h v) (h' v)

theorem RelayRun.undone {x : Exchange} {route : ModelRoute} {es : List ProviderStreamEvent}
    {r r' : Relay} {tr : GatewayTrace} {left : Bool} (h : RelayRun x route es r tr r' left) :
    Undone tr := by
  intro v hv
  obtain ⟨e, he, hev⟩ := mem_yielded.mp hv
  obtain ⟨type, delta, htype, rfl⟩ := h.yields e he v hev
  exact htype

theorem StreamPassRun.undone {x : Exchange} {c : RoutingCandidate} {route : ModelRoute}
    {st : LoopState} {tr : GatewayTrace} {out : Except PyExc (Pass Unit)}
    (h : svc.StreamPassRun x c route st tr out) (hf : Followed tr)
    (hout : out ≠ .ok (.returned ())) : Undone tr := by
  have hadmitted : ∀ t state, Undone (admitted route t state) := fun t state =>
    undone_of_quiet (by simp [admitted, yieldOf])
  have hcall : ∀ q script, Undone [ev (.openStream q route) script] := fun q script =>
    undone_of_quiet (by simp [yieldOf])
  cases h with
  | deadline | refused => exact undone_of_quiet (by simp [yieldOf])
  | unconfigured ht hr hh => exact (hadmitted _ _).append (undone_of_quiet (handled_quiet hh))
  | left ht hr hl => exact (hadmitted _ _).append ((hcall _ _).append hl.undone)
  | failed ht hr hl he hh =>
    have hquiet := undone_of_quiet fun e he => yieldOf_of_settling (hh.settling e he)
    exact (hadmitted _ _).append ((hcall _ _).append (hl.undone.append hquiet))
  | @succeeded _ _ _ t state state' script tr r parsed valid now createdAt createdAt' consumer =>
    cases consumer with
    | resumes => exact absurd rfl hout
    | leaves =>
      refine absurd ?_ (hf (streamEvent x route .done "" (some (streamResponse x route c
        st.fallbackCount r parsed valid now createdAt))))
      simp

theorem StreamServedRun.followed {x : Exchange} {hit : GatewayResponse} {tr : GatewayTrace}
    {out : Except PyExc Unit} (h : StreamServedRun x hit tr out) (hf : Followed tr) :
    out = .ok () := by
  cases h with
  | leftAtStart now =>
    refine absurd ?_ (hf (cachedEvent x (streamedHit x hit now) .start "" none))
    simp [hitEvent]
  | leftAtDelta now =>
    refine absurd ?_ (hf (cachedEvent x (streamedHit x hit now) .delta
      (streamedHit x hit now).text none))
    simp [hitEvent]
  | served now t consumer =>
    cases consumer with
    | resumes => rfl
    | leaves =>
      refine absurd ?_ (hf (cachedEvent x (streamedHit x hit now) .done ""
        (some (streamedHit x hit now))))
      simp [hitEvent]

theorem Followed.left {tr tr' : GatewayTrace} (h : Followed (tr ++ tr')) : Followed tr :=
  fun v hv => h v (List.mem_append_left _ hv)

theorem Followed.right {tr tr' : GatewayTrace} (h : Followed (tr ++ tr')) : Followed tr' :=
  fun v hv => h v (List.mem_append_right _ hv)

theorem LoopRun.undone {x : Exchange} {cs : List RoutingCandidate} {st : LoopState}
    {tr : GatewayTrace} {out : Except PyExc Unit}
    (h : svc.LoopRun x (svc.StreamPassRun x) cs st tr out) (hf : Followed tr)
    (hout : out ≠ .ok ()) : Undone tr := by
  have hgaveUp : ∀ {st tr out}, GaveUp (α := Unit) x st tr out → Undone tr := fun h =>
    undone_of_quiet fun e he => yieldOf_of_settling (h.settling e he)
  induction h with
  | exhausted h => exact hgaveUp h
  | unknown => exact undone_of_quiet (by simp)
  | raised hr hp => exact hp.undone hf (by simp)
  | returned => exact absurd rfl hout
  | broke hr hp h => exact (hp.undone hf.left (by simp)).append (hgaveUp h)
  | next hr hp h ih => exact (hp.undone hf.left (by simp)).append (ih hf.right hout)

theorem stream_undone (q : GatewayRequest) (forced : Option String) :
    (svc.stream q forced).AllRuns fun tr out => Followed tr → out ≠ .ok () → Undone tr := by
  apply (svc.stream_runs q forced).mono
  intro tr out h hf hout
  have happroach : ∀ {args tr out}, svc.ApproachRun args tr out → Undone tr := fun h =>
    undone_of_quiet fun e he => yieldOf_of_approaching (h.approaching e he)
  cases h with
  | stopped h => exact happroach h
  | served h hs => exact absurd (hs.followed hf.right) hout
  | looped h hl => exact (happroach h).append (hl.undone hf.right hout)

/-- How a stream that has been followed to its end has ended. -/
structure StreamEnd (vs : List GatewayStreamEvent) (out : Except PyExc Outcome) : Prop where
  answered : ∀ a, out = .ok a → ∃ pre v r, vs = pre ++ [v] ∧ v.type = .done ∧
    v.response = some r ∧ r.routeId = v.routeId ∧ r.text = String.join (deltasOf pre) ∧
    ∀ v' ∈ pre, v'.type ≠ .done
  failed : ∀ e, out = .error e → ∀ v ∈ vs, v.type ≠ .done

theorem streamEnd_of_finished (hP : Foreign svc.platform) {c : State}
    (h : svc.machine.Reachable initial c) {i : Nat} {q : GatewayRequest} {forced : Option String}
    {out : Except PyExc Outcome} (hfinished : c.Finished i (.stream q forced) out)
    (hown : ∀ e ∈ c.trace i, ownEnding e = true) (hf : Followed (c.trace i)) :
    StreamEnd (yielded (c.trace i)) out := by
  have hall : (svc.body (.stream q forced)).AllRuns fun tr out =>
      ((∀ e ∈ tr, ownEnding e = true) → Provenance tr) ∧
        (out = .ok .streamed → Delivered tr .streamed) ∧
        (Followed tr → out ≠ .ok .streamed → Undone tr) := by
    apply (Prog.allRuns_map _ (fun _ => Outcome.streamed) _).mpr
    refine ((stream_provenance hP q forced).and
      ((stream_delivers q forced).and (stream_undone q forced))).mono ?_
    rintro tr out ⟨hprovenance, hdelivers, hundone⟩
    cases out with
    | ok u => exact ⟨hprovenance, fun _ => hdelivers rfl, fun _ hne => absurd rfl hne⟩
    | error e => exact ⟨hprovenance, fun he => (by cases he), fun hf _ => hundone hf (by simp)⟩
  have hstreamed : ∀ a, out = .ok a → a = .streamed := by
    rintro a rfl
    have hbody : (svc.body (.stream q forced)).AllRuns fun _ out =>
        ∀ a, out = .ok a → a = .streamed := by
      apply (Prog.allRuns_map _ (fun _ => Outcome.streamed) _).mpr
      apply (Prog.allRuns_run _).mono
      intro tr out _ a ha
      cases out with
      | ok u => exact (Except.ok.inj ha).symm
      | error e => cases ha
    exact hbody.run (h.finished hfinished) a rfl
  obtain ⟨hprovenance, hdelivers, hundone⟩ := hall.run (h.finished hfinished)
  refine ⟨fun a ha => ?_, fun e he => hundone hf (by simp [he])⟩
  obtain rfl := hstreamed a ha
  obtain ⟨v, response, hdone, hresponse, hv⟩ := hdelivers ha
  obtain ⟨pre, post, hsplit⟩ := List.append_of_mem (mem_yielded.mpr ⟨_, hv, rfl⟩)
  obtain ⟨rfl, r, hr, hroute, htext, -⟩ := (hprovenance hown).done pre v post hsplit hdone
  refine ⟨pre, v, r, hsplit, hdone, hr, hroute, htext, fun v' hv' hdone' => ?_⟩
  -- A `done` event is the last one, so none comes before it.
  obtain ⟨pre', post', rfl⟩ := List.append_of_mem hv'
  have hearlier := ((hprovenance hown).done pre' v' (post' ++ [v]) (by simp [hsplit]) hdone').1
  simp at hearlier

/-! ## What the client has -/

/-- The stream of chunks is told to be over. -/
def concluded {α : Type} : Except PyExc α → Bool
  | .ok _ | .error (.aegis _) => true
  | _ => false

structure ChatRead (body : GatewayRequest) (vs : List GatewayStreamEvent)
    (out : Except PyExc Outcome) (values : List Object) : Prop where
  /-- The pieces are those of the stream. -/
  pieces : values.filterMap contentOf = deltasOf vs
  /-- The answer, with the object that tells the end behind it, and behind no other. -/
  answered : ∀ a, out = .ok a → ∃ values' v r, values = values' ++ [chatFinal body v] ∧
    Open values' ∧ v ∈ vs ∧ v.response = some r ∧ r.routeId = v.routeId ∧
    chatAnswer values = r.text
  failed : ∀ e, out = .error (.aegis e) →
    ∃ values', values = values' ++ [errorObject e] ∧ Open values'
  cut : concluded out = false → Open values

theorem deltasOf_singleton {v : GatewayStreamEvent} (h : v.type ≠ .delta) : deltasOf [v] = [] := by
  simp [deltasOf, h]

theorem chatRead_of_end {body : GatewayRequest} {vs : List GatewayStreamEvent}
    {out : Except PyExc Outcome} (h : StreamEnd vs out) :
    ChatRead body vs out (payloads (openaiCompatStream body vs out)) := by
  cases out with
  | ok a =>
    obtain ⟨pre, v, r, rfl, hdone, hr, hroute, htext, hpre⟩ := h.answered a rfl
    have hlast : payloads (openaiCompatStream body (pre ++ [v]) (.ok a)) =
        (pre.filter (·.type = .delta)).map (chatChunk body) ++ [chatFinal body v] := by
      have hfinal : payloads (chatFrames body v) = [chatFinal body v] := by
        simp [chatFrames, hdone, payloads, ChatFrame.payload?]
      simp [openaiCompatStream, chatEnding, payloads_undone hpre, hfinal]
    have hpieces : (payloads (openaiCompatStream body (pre ++ [v]) (.ok a))).filterMap contentOf =
        deltasOf (pre ++ [v]) := by
      rw [hlast, List.filterMap_append, filterMap_content, deltasOf_append,
        deltasOf_singleton (by simp [hdone])]
      rfl
    refine ⟨hpieces, fun _ _ => ⟨_, v, r, hlast, open_chunks _ _, by simp, hr, hroute, ?_⟩,
      fun e he => (by cases he), fun hcut => (by cases hcut)⟩
    rw [chatAnswer, hpieces, htext, deltasOf_append, deltasOf_singleton (by simp [hdone]),
      List.append_nil]
  | error e =>
    have hundone := h.failed e rfl
    have hpayloads : payloads (openaiCompatStream body vs (.error e : Except PyExc Outcome)) =
        (vs.filter (·.type = .delta)).map (chatChunk body) ++
          payloads (chatEnding (.error e : Except PyExc Outcome)) := by
      rw [openaiCompatStream, payloads_append, payloads_undone hundone]
    rw [hpayloads]
    -- An error of the gateway is the last object. Any other cuts the stream off.
    by_cases he : ∃ err, e = .aegis err
    · obtain ⟨err, rfl⟩ := he
      have hending : payloads (chatEnding (.error (.aegis err) : Except PyExc Outcome)) =
          [errorObject err] := rfl
      rw [hending]
      refine ⟨?_, fun a ha => (by cases ha), fun e he => ?_, fun hcut => (by cases hcut)⟩
      · rw [List.filterMap_append, filterMap_content]
        exact List.append_nil _
      · cases he
        exact ⟨_, rfl, open_chunks _ _⟩
    · have hending : chatEnding (.error e : Except PyExc Outcome) = [] := by
        cases e <;> first | rfl | exact absurd ⟨_, rfl⟩ he
      rw [hending]
      have hnil : payloads [] = [] := rfl
      rw [hnil, List.append_nil]
      exact ⟨filterMap_content _ _, fun a ha => (by cases ha),
        fun err herr => absurd ⟨err, Except.error.inj herr⟩ he, fun _ => open_chunks _ _⟩

theorem sentinel_once {body : GatewayRequest} {vs : List GatewayStreamEvent}
    {out : Except PyExc Outcome} (h : StreamEnd vs out) :
    ∃ frames, openaiCompatStream body vs out =
      frames ++ (if concluded out then [.sentinel] else []) ∧
        ∀ frame ∈ frames, isSentinel frame = false := by
  cases out with
  | ok a =>
    obtain ⟨pre, v, r, rfl, hdone, -, -, -, hpre⟩ := h.answered a rfl
    refine ⟨pre.flatMap (chatFrames body) ++ [.value .compact (chatFinal body v)], ?_,
      List.forall_mem_append.mpr ⟨sentinel_undone hpre, by simp [isSentinel]⟩⟩
    simp [openaiCompatStream, chatEnding, chatFrames, hdone, concluded]
  | error e =>
    have hundone := @sentinel_undone body vs (h.failed e rfl)
    by_cases he : ∃ err, e = .aegis err
    · obtain ⟨err, rfl⟩ := he
      refine ⟨vs.flatMap (chatFrames body) ++ [.value .standard (errorObject err)], ?_,
        List.forall_mem_append.mpr ⟨hundone, by simp [isSentinel]⟩⟩
      simp [openaiCompatStream, chatEnding, concluded]
    · refine ⟨vs.flatMap (chatFrames body), ?_, hundone⟩
      cases e <;> first | rfl | exact absurd ⟨_, rfl⟩ he

/-- Whatever the texts of the deltas are, a client that reads on to the end of a stream has its
pieces, and with them the text of the answer if there is one. It is told exactly once that the
stream is over, behind everything else, and not at all where an error of no class of the gateway
cuts it. -/
theorem chat_stream_faithful {floatOf : List Char → PyFloat} (hP : Decodes svc.platform floatOf)
    (hr : Reads svc.platform floatOf) (hforeign : Foreign svc.platform) {c : State}
    (h : svc.machine.Reachable initial c) {i : Nat} {q : GatewayRequest} {forced : Option String}
    {out : Except PyExc Outcome} (hfinished : c.Finished i (.stream q forced) out)
    (hown : ∀ e ∈ c.trace i, ownEnding e = true) (hf : Followed (c.trace i)) :
    (∃ values, clientReads svc.platform (openaiCompatStream q (yielded (c.trace i)) out) =
        (values, none) ∧ ChatRead q (yielded (c.trace i)) out values) ∧
    ∃ frames, openaiCompatStream q (yielded (c.trace i)) out =
        frames ++ (if concluded out then [.sentinel] else []) ∧
      ∀ frame ∈ frames, isSentinel frame = false := by
  have hend := streamEnd_of_finished hforeign h hfinished hown hf
  exact ⟨⟨_, clientReads_eq hP hr (stream_legible _ _), chatRead_of_end hend⟩, sentinel_once hend⟩

/-! A stream of two deltas, read by a client. -/

def strippingService : Service := { Sample.service with platform := strippingPlatform }

theorem strippingPlatform_foreign : Foreign strippingPlatform where
  jsonLoads := by
    intro text e h err
    have hread : strippingPlatform.jsonLoads text =
        (loads ArtifactRegistry.floatOf text).elim (.error .jsonDecodeError) .ok := rfl
    rw [hread] at h
    cases hl : loads ArtifactRegistry.floatOf text with
    | none =>
      rw [hl] at h
      cases h
      simp
    | some j =>
      rw [hl] at h
      cases h
  jsonschemaValidate := by
    intro j schema e h
    cases h

def hasReturned (t : Task Op Ans PyExc Outcome Call) : Bool :=
  match t.rest with
  | .pure _ => true
  | _ => false

theorem chat_stream_faithful_deltas : ∃ (c : State) (a : Outcome) (values : List Object),
    strippingService.machine.Reachable initial c ∧
    clientReads strippingPlatform
      (openaiCompatStream Sample.request (yielded (c.trace 0)) (.ok a)) = (values, none) ∧
    values.filterMap contentOf = ["hel", "lo"] ∧
    ∃ r : GatewayResponse, some r ∈ (yielded (c.trace 0)).map (·.response) ∧ r.text = "hello" := by
  obtain ⟨c, hm, hown, hstays, hdeltas, ⟨call, rest⟩, ht', hreturned⟩ :
      ∃ c ∈ strippingService.machine.moves? initial twoDeltaMoves,
        (∀ e ∈ c.trace 0, ownEnding e = true) ∧ (∀ e ∈ c.trace 0, stays e = true) ∧
        deltasOf (yielded (c.trace 0)) = ["hel", "lo"] ∧
        ∃ t ∈ c.tasks[0]?, hasReturned t = true := by decide +kernel
  obtain ⟨t, ht, hcall⟩ := Machine.task_of_moves hm
  obtain rfl : t = ⟨call, rest⟩ := Option.some.inj (ht.symm.trans ht')
  obtain rfl : call = .stream Sample.request none := hcall
  obtain ⟨a, rfl⟩ : ∃ a, rest = .pure a := by
    cases rest with
    | pure a => exact ⟨a, rfl⟩
    | _ => cases hreturned
  obtain ⟨⟨values, hvalues, hread⟩, -⟩ := @chat_stream_faithful strippingService
    ArtifactRegistry.floatOf strippingPlatform_decodes strippingPlatform_reads
    strippingPlatform_foreign c (Machine.reachable_of_moves _ .start hm) 0 Sample.request none (.ok a)
    ht hown (followed_iff.mpr hstays)
  obtain ⟨values', v, r, -, -, hv, hr, -, htext⟩ := hread.answered a rfl
  refine ⟨c, a, values, Machine.reachable_of_moves _ .start hm, hvalues, hread.pieces.trans hdeltas,
    r, List.mem_map.mpr ⟨v, hv, hr⟩, ?_⟩
  rw [← htext, chatAnswer, hread.pieces, hdeltas]
  rfl

end Service

end AegisGateway
