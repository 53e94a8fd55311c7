import AegisGateway.Release
import AegisGateway.Router

/-!
# The data plane

`control/service.py`. A `try` block is a coroutine of its own: `Prog.attempt` runs it,
and the handlers are the cases of its outcome, in the order of the source.
-/

open Coroutine JsonText

namespace AegisGateway

/-! ## Prompts -/

def openBrace : Char := Char.ofNat 123

def closeBrace : Char := Char.ofNat 125

def isNameStart (c : Char) : Bool := c.isAlpha || c == '_'

def isNameChar (c : Char) : Bool := c.isAlphanum || c == '_'

/-- `_VARIABLE` at the start of a text: the name, and the text behind the match. -/
def matchVariable (isSpace : Char → Bool) : List Char → Option (String × List Char)
  | a :: b :: cs =>
    let cs := cs.dropWhile isSpace
    let name := cs.takeWhile isNameChar
    if a = openBrace ∧ b = openBrace ∧ cs.head?.any isNameStart then
      match (cs.drop name.length).dropWhile isSpace with
      | c :: d :: rest =>
        if c = closeBrace ∧ d = closeBrace then some (String.ofList name, rest) else none
      | _ => none
    else none
  | _ => none

inductive Piece where
  | char (c : Char)
  | variable (name : String)
  deriving DecidableEq, Repr

/-- The matches from left to right. The fuel is the length of the text. -/
def scan (isSpace : Char → Bool) : Nat → List Char → List Piece
  | 0, _ => []
  | _, [] => []
  | n + 1, c :: cs =>
    match matchVariable isSpace (c :: cs) with
    | some (name, rest) => .variable name :: scan isSpace n rest
    | none => .char c :: scan isSpace n cs

def pieces (isSpace : Char → Bool) (template : String) : List Piece :=
  scan isSpace template.length template.toList

def variableNames (ps : List Piece) : List String :=
  (ps.filterMap fun | .variable name => some name | .char _ => none).dedup

def renderPiece (values : List (String × String)) : Piece → List Char
  | .char c => [c]
  | .variable name => ((values.lookup name).getD "").toList

def render (values : List (String × String)) (ps : List Piece) : String :=
  String.ofList (ps.flatMap (renderPiece values))

def Platform.applyTemplate (P : Platform) (q : GatewayRequest) (content : Object) :
    Except PyExc GatewayRequest :=
  match content.lookup "template" with
  | some (.str template) =>
    if template = "" then
      .error (.valueError "prompt artifact must contain a non-empty template")
    else
      let ps := pieces P.isSpace template
      let missing := (variableNames ps).filter fun name => (q.promptVariables.lookup name).isNone
      if missing ≠ [] then
        .error (.valueError ("missing prompt variables: " ++ ",".intercalate (sorted missing)))
      else do
        let message ← Message.validate
          { role := .developer, content := render q.promptVariables ps }
        pure { q with messages := message :: q.messages }
  | _ => .error (.valueError "prompt artifact must contain a non-empty template")

/-! ## Schemas and times -/

/-- `_validate_schema`: the parsed value, and whether it is valid. -/
def Platform.validateSchema (P : Platform) (q : GatewayRequest) (text : String) :
    Except PyExc (Json × Option Bool) :=
  match q.responseSchema with
  | none => .ok (.null, none)
  | some schema =>
    let checked := do
      let parsed ← P.jsonLoads text
      P.jsonschemaValidate parsed schema
      pure parsed
    match checked with
    | .ok parsed => .ok (parsed, some true)
    | .error .jsonDecodeError | .error .validationError =>
      .error (.aegis (.schemaViolation "provider output did not satisfy the response schema"))
    | .error e => .error e

/-- `_remaining_seconds`, at the time `now`. -/
def remainingSeconds (started : ℚ) (q : GatewayRequest) (now : ℚ) : ℚ :=
  (q.maxLatencyMs : ℚ) / 1000 - (now - started)

/-- The request that an adapter is given: `max(1, int(remaining * 1000))` is its budget. -/
def attemptRequest (q : GatewayRequest) (remaining : ℚ) : GatewayRequest :=
  { q with maxLatencyMs := max 1 (remaining * 1000).floor.toNat }

def cacheNamespace (assignment : ReleaseAssignment) (forcedRouteId : Option String) : String :=
  match forcedRouteId, assignment.releaseId with
  | some id, _ => s!"forced-route:{id}"
  | none, some id =>
    let route := assignment.preferredRouteId.getD "policy"
    s!"release:{id}:route:{route}"
  | none, none => "default"

/-! ## Evidence -/

/-- The arguments of `generate`. Those of `stream` are the first two. -/
structure Arguments where
  request : GatewayRequest
  forcedRouteId : Option String := none
  evaluation : Bool := false
  shadow : Bool := false
  assignmentOverride : Option ReleaseAssignment := none

/-- One call of `generate` or `stream`, once its request is resolved and assigned. -/
structure Exchange where
  request : GatewayRequest
  forcedRouteId : Option String
  assignment : ReleaseAssignment
  started : ℚ
  evaluation : Bool := false
  shadow : Bool := false

namespace Exchange

variable (x : Exchange)

def ns : String := cacheNamespace x.assignment x.forcedRouteId

def cacheAllowed : Bool := !x.evaluation && !x.shadow && !x.assignment.canary

def options : RoutingOptions :=
  { preferredRouteId := x.assignment.preferredRouteId
    forcedRouteId := x.forcedRouteId
    canary := x.assignment.canary
    releaseId := x.assignment.releaseId }

/-- The row of `_record_response`. -/
def responseRow (response : GatewayResponse) (createdAt : Int) : RequestMetric :=
  { requestId := x.request.requestId
    tenantId := x.request.tenantId
    routeId := response.routeId
    provider := response.provider
    success := true
    schemaValid := response.schemaValid
    cacheHit := response.cacheHit
    canary := x.assignment.canary
    releaseId := x.assignment.releaseId
    shadow := x.shadow
    inputTokens := response.usage.inputTokens
    outputTokens := response.usage.outputTokens
    costUsd := response.usage.costUsd
    ttftMs := response.ttftMs
    latencyMs := response.latencyMs
    routingRegret := response.routingRegret
    fallbackCount := response.fallbackCount
    createdAt }

/-- The row of `_record_error`. A schema without any key counts as none. -/
def errorRow (route : ModelRoute) (error : AegisError) (fallbackCount : Nat) (latencyMs : ℚ)
    (createdAt : Int) : RequestMetric :=
  { requestId := x.request.requestId
    tenantId := x.request.tenantId
    routeId := route.id
    provider := route.provider
    success := false
    schemaValid := if x.request.responseSchema.any (· ≠ []) then some false else none
    cacheHit := false
    canary := x.assignment.canary
    releaseId := x.assignment.releaseId
    shadow := x.shadow
    inputTokens := 0
    outputTokens := 0
    costUsd := 0
    ttftMs := latencyMs
    latencyMs
    routingRegret := 0
    fallbackCount
    errorCode := some error.code
    createdAt }

def recordResponse (response : GatewayResponse) : GatewayM Unit := do
  let createdAt ← perform .datetimeNow
  perform (.recordMetric (x.responseRow response createdAt))

def recordError (route : ModelRoute) (error : AegisError) (fallbackCount : Nat) :
    GatewayM Unit := do
  let now ← perform .monotonic
  let createdAt ← perform .datetimeNow
  perform (.recordMetric
    (x.errorRow route error fallbackCount ((now - x.started) * 1000) createdAt))

def shadowRequest : GatewayRequest :=
  { x.request with
    requestId := s!"{x.request.requestId}-shadow"
    stream := false
    cacheMode := .bypass
    shadowEnabled := false }

def launchShadow : GatewayM Unit :=
  match x.assignment.shadowRouteId with
  | none => pure ()
  | some routeId => perform (.createTask (.shadow x.shadowRequest routeId x.assignment.releaseId))

def launchReleaseAssessment : GatewayM Unit :=
  match x.assignment.canary, x.assignment.releaseId with
  | true, some releaseId => perform (.createTask (.assess releaseId))
  | _, _ => pure ()

def launchPostResponse : GatewayM Unit :=
  .when (!x.shadow) do
    x.launchShadow
    x.launchReleaseAssessment

def servedFromCache (cached : GatewayResponse) (elapsed : ℚ) : GatewayResponse :=
  { cached with
    requestId := x.request.requestId
    cacheHit := true
    ttftMs := elapsed
    latencyMs := elapsed
    usage := { inputTokens := 0, outputTokens := 0, costUsd := 0 } }

end Exchange

/-! ## The candidate loop -/

/-- The variables of the loop that outlive a candidate. -/
structure LoopState where
  fallbackCount : Nat := 0
  lastError : Option AegisError := none
  lastErrorRoute : Option ModelRoute := none

def LoopState.failed (st : LoopState) (route : ModelRoute) (e : AegisError) : LoopState :=
  { fallbackCount := st.fallbackCount + 1, lastError := some e, lastErrorRoute := some route }

/-- The `break` at the deadline. -/
def LoopState.deadline (st : LoopState) (route : ModelRoute) : LoopState :=
  if st.lastError.isSome then st
  else st.failed route
    (.provider (providerTimeoutError "gateway deadline exhausted before provider attempt"
      route.provider))

/-- What the body of a `try` comes to when it raises nothing. -/
inductive Tried (α : Type) where
  | deadline
  | done (a : α)

/-- How a candidate leaves the loop. -/
inductive Pass (α : Type) where
  | returned (a : α)
  | broke (st : LoopState)
  | next (st : LoopState)

namespace Service

variable (svc : Service)

def resolvePrompt (q : GatewayRequest) : GatewayM GatewayRequest :=
  match q.prompt with
  | none => pure q
  | some ref => do
    let artifact ← getArtifact .prompt ref.name ref.version
    Prog.ofExcept (svc.platform.applyTemplate q artifact.content)

def recordSuccess (routeId : String) : GatewayM Unit := do
  let state ← perform (.recordSuccess routeId)
  perform (.setCircuitState routeId state)

def recordFailure (routeId : String) : GatewayM Unit := do
  let state ← perform (.recordFailure routeId)
  perform (.setCircuitState routeId state)

/-- The start of an attempt in either loop: nothing at the deadline, else the remaining time. -/
def enter (x : Exchange) (route : ModelRoute) : GatewayM (Option ℚ) := do
  let now ← perform .monotonic
  let remaining := remainingSeconds x.started x.request now
  if remaining ≤ 0 then pure none
  else do
    let state ← beforeRequest route.id
    perform (.setCircuitState route.id state)
    Prog.ofExcept (svc.adapter route.provider)
    pure (some remaining)

/-- The lines after the loop: the row of the last error, and the error itself. -/
def giveUp {α : Type} (x : Exchange) (st : LoopState) : GatewayM α :=
  match st.lastError, st.lastErrorRoute with
  | some error, some route => do
    .when (!x.evaluation) do
      x.recordError route error st.fallbackCount
      x.launchReleaseAssessment
    raise (.aegis error)
  | _, _ => raise (.other "AssertionError")

/-- The loop over the candidates. An attempt says how its candidate leaves it. -/
def candidateLoop {α : Type} (x : Exchange)
    (pass : RoutingCandidate → ModelRoute → LoopState → GatewayM (Pass α)) :
    List RoutingCandidate → LoopState → GatewayM α
  | [], st => giveUp x st
  | candidate :: ordered, st => do
    let route ← Prog.ofExcept (svc.getRoute candidate.routeId)
    match ← pass candidate route st with
    | .returned a => pure a
    | .broke st => giveUp x st
    | .next st => candidateLoop x pass ordered st

/-! ## Up to the routing decision -/

/-- The lines on the release assignment. -/
def assignmentFor (args : Arguments) (request : GatewayRequest) : GatewayM ReleaseAssignment :=
  match args.assignmentOverride with
  | some assignment => pure assignment
  | none =>
    if args.evaluation ∨ args.shadow ∨ args.forcedRouteId.isSome then pure {}
    else svc.assignment request

/-- The lines of `generate` and `stream` up to the assignment. -/
def begin (args : Arguments) : GatewayM Exchange := do
  let started ← perform .monotonic
  let request ← svc.resolvePrompt args.request
  .when (!args.evaluation && !args.shadow) (consume request.tenantId)
  let assignment ← svc.assignmentFor args request
  pure
    { request
      forcedRouteId := args.forcedRouteId
      assignment
      started
      evaluation := args.evaluation
      shadow := args.shadow }

/-- The lookup in front of the routing. -/
def cached (x : Exchange) : GatewayM (Option GatewayResponse) :=
  if x.cacheAllowed ∧ x.request.cacheMode = .default then perform (.cacheGet x.request x.ns)
  else pure none

/-- Where the answer to a call comes from. -/
inductive Origin where
  | cache (hit : GatewayResponse)
  | decision (d : RoutingDecision)

/-- Everything in front of the answer: `generate` and `stream` agree up to here. -/
def approach (args : Arguments) : GatewayM (Exchange × Origin) := do
  let x ← svc.begin args
  match ← cached x with
  | some hit => pure (x, .cache hit)
  | none =>
    let decision ← svc.decide x.request x.options
    pure (x, .decision decision)

/-! ## `generate` -/

def completeResponse (x : Exchange) (route : ModelRoute) (candidate : RoutingCandidate)
    (fallbackCount : Nat) (result : ProviderResult) (parsed : Json) (schemaValid : Option Bool)
    (now : ℚ) (createdAt : Int) : GatewayResponse :=
  { requestId := x.request.requestId
    routeId := route.id
    provider := route.provider
    model := result.rawModel
    text := result.text
    parsed
    schemaValid
    usage :=
      { inputTokens := result.inputTokens
        outputTokens := result.outputTokens
        costUsd := actualCost route result.inputTokens result.outputTokens }
    ttftMs := result.ttftMs
    latencyMs := (now - x.started) * 1000
    fallbackCount
    routingRegret := candidate.routingRegret
    createdAt }

/-- What follows a response in the `try` of either loop. -/
def keep (x : Exchange) (response : GatewayResponse) : GatewayM Unit := do
  .when (!x.evaluation) (x.recordResponse response)
  .when (x.cacheAllowed ∧ x.request.cacheMode ≠ .bypass)
    (perform (.cachePut x.request response x.ns))
  x.launchPostResponse

/-- The `try` block of `generate`. -/
def tryComplete (x : Exchange) (candidate : RoutingCandidate) (route : ModelRoute)
    (fallbackCount : Nat) : GatewayM (Tried GatewayResponse) := do
  match ← svc.enter x route with
  | none => pure .deadline
  | some remaining =>
    let result ← complete (attemptRequest x.request remaining) route
    let (parsed, schemaValid) ← Prog.ofExcept (svc.platform.validateSchema x.request result.text)
    recordSuccess route.id
    let now ← perform .monotonic
    let createdAt ← perform .datetimeNow
    let response :=
      completeResponse x route candidate fallbackCount result parsed schemaValid now createdAt
    keep x response
    pure (.done response)

def completeTimeout : String := "provider attempt exceeded the remaining gateway deadline"

/-- The handlers of `generate`. -/
def handleComplete (route : ModelRoute) (st : LoopState) :
    Except PyExc (Tried GatewayResponse) → GatewayM (Pass GatewayResponse)
  | .ok .deadline => pure (.broke (st.deadline route))
  | .ok (.done response) => pure (.returned response)
  | .error (.aegis (.schemaViolation m)) => pure (.next (st.failed route (.schemaViolation m)))
  | .error (.aegis (.circuitOpen m)) => do
    perform (.setCircuitState route.id .isOpen)
    pure (.next (st.failed route (.circuitOpen m)))
  | .error .timeoutError => do
    let timeoutError := providerTimeoutError completeTimeout route.provider
    recordFailure route.id
    pure (.next (st.failed route (.provider timeoutError)))
  | .error (.aegis (.provider e)) => do
    recordFailure route.id
    if e.code = "invalid_provider_request" then pure (.broke (st.failed route (.provider e)))
    else pure (.next (st.failed route (.provider e)))
  | .error e => raise e

def generatePass (x : Exchange) (candidate : RoutingCandidate) (route : ModelRoute)
    (st : LoopState) : GatewayM (Pass GatewayResponse) := do
  let outcome ← (svc.tryComplete x candidate route st.fallbackCount).attempt
  handleComplete route st outcome

def serveCached (x : Exchange) (hit : GatewayResponse) : GatewayM GatewayResponse := do
  let now ← perform .monotonic
  let createdAt ← perform .datetimeNow
  let response := { x.servedFromCache hit ((now - x.started) * 1000) with createdAt }
  x.recordResponse response
  x.launchPostResponse
  pure response

def generate (args : Arguments) : GatewayM GatewayResponse := do
  match ← svc.approach args with
  | (x, .cache hit) => serveCached x hit
  | (x, .decision d) => svc.candidateLoop x (svc.generatePass x) (orderedCandidates d) {}

/-! ## `stream` -/

/-- The variables of one attempt to stream. -/
structure Relay where
  emitted : Bool := false
  firstDeltaAt : Option ℚ := none
  textParts : List String := []
  inputTokens : Nat := 0
  outputTokens : Nat := 0

def streamEvent (x : Exchange) (route : ModelRoute) (type : GatewayEventType) (delta : String)
    (response : Option GatewayResponse) : GatewayStreamEvent :=
  { type
    requestId := x.request.requestId
    routeId := route.id
    provider := route.provider
    model := route.model
    delta
    response }

def cachedEvent (x : Exchange) (cached : GatewayResponse) (type : GatewayEventType)
    (delta : String) (response : Option GatewayResponse) : GatewayStreamEvent :=
  { type
    requestId := x.request.requestId
    routeId := cached.routeId
    provider := cached.provider
    model := cached.model
    delta
    response }

def deltaTime (r : Relay) : GatewayM (Option ℚ) :=
  if r.emitted then pure r.firstDeltaAt
  else do
    let now ← perform .monotonic
    pure (some now)

/-- The `async for` over the events of the provider. Its outcome keeps the variables, since the
handlers read `emitted`. -/
def relay (x : Exchange) (route : ModelRoute) (ending : Option PyExc) :
    List ProviderStreamEvent → Relay → GatewayM (Relay × Option PyExc)
  | [], r => pure (r, ending)
  | e :: events, r =>
    match e.type with
    | .start => do
      match ← (yieldEvent (streamEvent x route .start "" none)).attempt with
      | .error exc => pure (r, some exc)
      | .ok () => relay x route ending events r
    | .delta => do
      let firstDeltaAt ← deltaTime r
      let r := { r with emitted := true, firstDeltaAt, textParts := r.textParts ++ [e.delta] }
      match ← (yieldEvent (streamEvent x route .delta e.delta none)).attempt with
      | .error exc => pure (r, some exc)
      | .ok () => relay x route ending events r
    | .usage =>
      relay x route ending events
        { r with inputTokens := e.inputTokens.getD 0, outputTokens := e.outputTokens.getD 0 }
    | .done | .error => relay x route ending events r

def streamResponse (x : Exchange) (route : ModelRoute) (candidate : RoutingCandidate)
    (fallbackCount : Nat) (r : Relay) (parsed : Json) (schemaValid : Option Bool)
    (completedAt : ℚ) (createdAt : Int) : GatewayResponse :=
  { requestId := x.request.requestId
    routeId := route.id
    provider := route.provider
    model := route.model
    text := String.join r.textParts
    parsed
    schemaValid
    usage :=
      { inputTokens := r.inputTokens
        outputTokens := r.outputTokens
        costUsd := actualCost route r.inputTokens r.outputTokens }
    -- `first_delta_at or completed_at`: a first delta at the time zero counts as none.
    ttftMs := ((r.firstDeltaAt.filter (· ≠ 0)).getD completedAt - x.started) * 1000
    latencyMs := (completedAt - x.started) * 1000
    fallbackCount
    routingRegret := candidate.routingRegret
    createdAt }

/-- The rest of the `try` block of `stream`, once the provider has ended its stream. -/
def finishStream (x : Exchange) (candidate : RoutingCandidate) (route : ModelRoute)
    (fallbackCount : Nat) (r : Relay) : GatewayM (Tried Unit) := do
  let (parsed, schemaValid) ←
    Prog.ofExcept (svc.platform.validateSchema x.request (String.join r.textParts))
  recordSuccess route.id
  let completedAt ← perform .monotonic
  let createdAt ← perform .datetimeNow
  let response :=
    streamResponse x route candidate fallbackCount r parsed schemaValid completedAt createdAt
  keep x response
  yieldEvent (streamEvent x route .done "" (some response))
  pure (.done ())

/-- The `try` block of `stream`, with `emitted` as its handlers see it. -/
def tryStream (x : Exchange) (candidate : RoutingCandidate) (route : ModelRoute)
    (fallbackCount : Nat) : GatewayM (Bool × Except PyExc (Tried Unit)) := do
  match ← (svc.enter x route).attempt with
  | .error e => pure (false, .error e)
  | .ok none => pure (false, .ok .deadline)
  | .ok (some remaining) =>
    let script ← perform (.openStream (attemptRequest x.request remaining) route)
    match ← relay x route script.ending script.events {} with
    | (r, some e) => pure (r.emitted, .error e)
    | (r, none) =>
      let outcome ← (svc.finishStream x candidate route fallbackCount r).attempt
      pure (r.emitted, outcome)

/-- What a handler of `stream` does once output has reached the consumer. -/
def interrupt {α : Type} (x : Exchange) (route : ModelRoute) (error : AegisError)
    (fallbackCount : Nat) : GatewayM α := do
  x.recordError route error fallbackCount
  x.launchReleaseAssessment
  raise (.aegis error)

def streamTimeout : String := "provider stream exceeded the remaining gateway deadline"

/-- The handlers of `stream`. The one for an open circuit does not look at `emitted`. -/
def handleStream (x : Exchange) (route : ModelRoute) (st : LoopState) (emitted : Bool) :
    Except PyExc (Tried Unit) → GatewayM (Pass Unit)
  | .ok .deadline => pure (.broke (st.deadline route))
  | .ok (.done ()) => pure (.returned ())
  | .error (.aegis (.schemaViolation m)) =>
    if emitted then interrupt x route (.schemaViolation m) st.fallbackCount
    else pure (.next (st.failed route (.schemaViolation m)))
  | .error (.aegis (.circuitOpen m)) => do
    perform (.setCircuitState route.id .isOpen)
    pure (.next (st.failed route (.circuitOpen m)))
  | .error .timeoutError => do
    let timeoutError := providerTimeoutError streamTimeout route.provider
    recordFailure route.id
    if emitted then
      interrupt x route
        (.provider (streamInterruptedError timeoutError.message route.provider)) st.fallbackCount
    else pure (.next (st.failed route (.provider timeoutError)))
  | .error (.aegis (.provider e)) => do
    recordFailure route.id
    if emitted then
      interrupt x route (.provider (streamInterruptedError e.message route.provider))
        st.fallbackCount
    else if e.code = "invalid_provider_request" then pure (.broke (st.failed route (.provider e)))
    else pure (.next (st.failed route (.provider e)))
  | .error e => raise e

def streamPass (x : Exchange) (candidate : RoutingCandidate) (route : ModelRoute)
    (st : LoopState) : GatewayM (Pass Unit) := do
  let (emitted, outcome) ← svc.tryStream x candidate route st.fallbackCount
  handleStream x route st emitted outcome

def streamCached (x : Exchange) (hit : GatewayResponse) : GatewayM Unit := do
  let now ← perform .monotonic
  let response := x.servedFromCache hit ((now - x.started) * 1000)
  yieldEvent (cachedEvent x response .start "" none)
  yieldEvent (cachedEvent x response .delta response.text none)
  x.recordResponse response
  x.launchPostResponse
  yieldEvent (cachedEvent x response .done "" (some response))

def stream (request : GatewayRequest) (forcedRouteId : Option String) : GatewayM Unit := do
  match ← svc.approach { request, forcedRouteId } with
  | (x, .cache hit) => streamCached x hit
  | (x, .decision d) => svc.candidateLoop x (svc.streamPass x) (orderedCandidates d) {}

end Service

end AegisGateway
