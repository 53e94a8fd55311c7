import AegisGateway.CircuitBreaker
import AegisGateway.Lib.Pool
import AegisGateway.RateLimit
import AegisGateway.Registry

/-!
# What a coroutine of the gateway waits for

Every `await`, every reading of a clock and every `yield` is an operation. Between two
operations a coroutine touches nothing that another one can see.
-/

open Coroutine JsonText

namespace AegisGateway

/-! ## Calls -/

/-- The coroutines that run as tasks: those behind the API, and the two that
`asyncio.create_task` starts. -/
inductive Call where
  | generate (request : GatewayRequest) (forcedRouteId : Option String)
  | stream (request : GatewayRequest) (forcedRouteId : Option String)
  | shadow (request : GatewayRequest) (routeId : String) (releaseId : Option String)
  | assess (releaseId : String)
  | createArtifact (kind : ArtifactKind) (name version : String) (content : Object)
  | createRelease (body : Release)
  | startCanary (releaseId datasetName : String) (datasetVersion : Option String)
  | promote (releaseId : String)
  | rollback (releaseId reason : String)
  | runEvaluation (datasetName : String) (datasetVersion : Option String) (routeId : String)
  | metricSummary (releaseId routeId : Option String) (canary : Option Bool)
  | circuits
  | clearCache

/-! ## Operations -/

/-- Everything an adapter does in one stream: its events, and the exception that cuts it short. -/
structure Script where
  events : List ProviderStreamEvent
  ending : Option PyExc

/-- What the consumer of a stream does with an event. It also leaves if the deadline of
`_bounded_stream` cancels its task while the event is with it. -/
inductive Consumer where
  | resumes | leaves
  deriving DecidableEq, Repr

inductive Op where
  | monotonic
  | datetimeNow
  | uuid4
  | isAvailable (routeId : String)
  | beforeRequest (routeId : String)
  | recordSuccess (routeId : String)
  | recordFailure (routeId : String)
  | snapshots
  | setCircuitState (routeId : String) (state : CircuitState)
  | consume (key : String)
  | cacheGet (request : GatewayRequest) (ns : String)
  | cachePut (request : GatewayRequest) (response : GatewayResponse) (ns : String)
  | cacheClear
  | complete (request : GatewayRequest) (route : ModelRoute)
  | openStream (request : GatewayRequest) (route : ModelRoute)
  | yieldEvent (event : GatewayStreamEvent)
  | createTask (call : Call)
  | getArtifact (kind : ArtifactKind) (name : String) (version : Option String)
  | putArtifact (kind : ArtifactKind) (name version : String) (content : Object)
  | createRelease (release : Release)
  | getRelease (releaseId : String)
  | getLive (name : String)
  | setState (releaseId : String) (state : ReleaseState)
  | recordRollback (releaseId reason : String) (durationMs : ℚ)
  | recordMetric (m : RequestMetric)
  | metrics (releaseId routeId : Option String) (canary : Option Bool) (limit : Nat)
  | putEvaluation (run : EvaluationRun)

/-- An exception that only one class of errors can be is its message. -/
@[reducible]
def Ans : Op → Type
  | .monotonic => ℚ
  | .datetimeNow => Int
  | .uuid4 => String
  | .isAvailable _ => Bool
  | .beforeRequest _ => Except String CircuitState
  | .recordSuccess _ => CircuitState
  | .recordFailure _ => CircuitState
  | .snapshots => List CircuitSnapshot
  | .setCircuitState _ _ => Unit
  | .consume _ => Except PyExc ℚ
  | .cacheGet _ _ => Option GatewayResponse
  | .cachePut _ _ _ => Unit
  | .cacheClear => Nat
  | .complete _ _ => Except PyExc ProviderResult
  | .openStream _ _ => Script
  | .yieldEvent _ => Consumer
  | .createTask _ => Unit
  | .getArtifact _ _ _ => Except String Artifact
  | .putArtifact _ _ _ _ => Except AegisError Artifact
  | .createRelease _ => Except AegisError Release
  | .getRelease _ => Except String Release
  | .getLive _ => Option Release
  | .setState _ _ => Except String Release
  | .recordRollback _ _ _ => Unit
  | .recordMetric _ => Unit
  | .metrics _ _ _ _ => List RequestMetric
  | .putEvaluation _ => Unit

instance ansNonempty : ∀ o, Nonempty (Ans o)
  | .monotonic => ⟨(0 : ℚ)⟩
  | .datetimeNow => ⟨(0 : Int)⟩
  | .uuid4 => ⟨""⟩
  | .isAvailable _ => ⟨true⟩
  | .beforeRequest _ => ⟨.ok .closed⟩
  | .recordSuccess _ => ⟨CircuitState.closed⟩
  | .recordFailure _ => ⟨CircuitState.closed⟩
  | .snapshots => ⟨[]⟩
  | .setCircuitState _ _ => ⟨()⟩
  | .consume _ => ⟨.ok (0 : ℚ)⟩
  | .cacheGet _ _ => ⟨none⟩
  | .cachePut _ _ _ => ⟨()⟩
  | .cacheClear => ⟨(0 : Nat)⟩
  | .complete _ _ => ⟨.error .timeoutError⟩
  | .openStream _ _ => ⟨⟨[], none⟩⟩
  | .yieldEvent _ => ⟨Consumer.resumes⟩
  | .createTask _ => ⟨()⟩
  | .getArtifact _ _ _ => ⟨.error ""⟩
  | .putArtifact _ _ _ _ => ⟨.error (.registryConflict "")⟩
  | .createRelease _ => ⟨.error (.registryConflict "")⟩
  | .getRelease _ => ⟨.error ""⟩
  | .getLive _ => ⟨none⟩
  | .setState _ _ => ⟨.error ""⟩
  | .recordRollback _ _ _ => ⟨()⟩
  | .recordMetric _ => ⟨()⟩
  | .metrics _ _ _ _ => ⟨[]⟩
  | .putEvaluation _ => ⟨()⟩

abbrev GatewayM (α : Type) : Type := Prog Op Ans PyExc α

abbrev GatewayEvent : Type := Event Op Ans

abbrev GatewayTrace : Type := Trace Op Ans

/-! ## The operations as coroutines -/

abbrev perform (o : Op) : GatewayM (Ans o) := Prog.perform o

abbrev raise {α : Type} (e : PyExc) : GatewayM α := Prog.throw e

/-- The answer of an operation that can only raise `err`. -/
def raising {α : Type} (err : String → AegisError) (a : Except String α) : GatewayM α :=
  Prog.ofExcept (a.mapError fun m => .aegis (err m))

@[simp]
theorem allRuns_raising {α : Type} (err : String → AegisError) (a : Except String α)
    (Post : GatewayTrace → Except PyExc α → Prop) :
    (raising err a).AllRuns Post ↔ Post [] (a.mapError fun m => .aegis (err m)) :=
  Prog.allRuns_ofExcept _ _

def beforeRequest (routeId : String) : GatewayM CircuitState :=
  .op (.beforeRequest routeId) (raising .circuitOpen)

def consume (key : String) : GatewayM Unit :=
  .op (.consume key) fun a => Prog.ofExcept (a.map fun _ => ())

def complete (request : GatewayRequest) (route : ModelRoute) : GatewayM ProviderResult :=
  .op (.complete request route) Prog.ofExcept

def getArtifact (kind : ArtifactKind) (name : String) (version : Option String) :
    GatewayM Artifact :=
  .op (.getArtifact kind name version) (raising .artifactNotFound)

def getRelease (releaseId : String) : GatewayM Release :=
  .op (.getRelease releaseId) (raising .artifactNotFound)

def setState (releaseId : String) (state : ReleaseState) : GatewayM Release :=
  .op (.setState releaseId state) (raising .artifactNotFound)

/-- The consumer leaves by raising at the `yield`. -/
def yieldEvent (event : GatewayStreamEvent) : GatewayM Unit :=
  .op (.yieldEvent event) fun
    | .resumes => .pure ()
    | .leaves => .throw .generatorExit

/-! ## The service -/

structure UtilityWeights where
  quality : ℚ := 11 / 20
  latency : ℚ := 1 / 4
  cost : ℚ := 1 / 5
  sum_one : |quality + latency + cost - 1| ≤ 1 / 10 ^ 9 := by decide +kernel

/-- The constructed gateway: its catalogue, its settings and its adapters. -/
structure Service where
  platform : Platform
  routes : List ModelRoute
  policyVersion : String := "utility-v1"
  weights : UtilityWeights := {}
  circuits : CircuitSettings := {}
  limiter : LimiterSettings := {}
  cache : CacheSettings := {}
  adapters : List String
  routes_nodup : (routes.map (·.id)).Nodup

namespace Service

/-- `PolicyRouter.get_route`. -/
def getRoute (svc : Service) (routeId : String) : Except PyExc ModelRoute :=
  match svc.routes.find? (·.id = routeId) with
  | some route => .ok route
  | none => .error (.aegis (.noEligibleRoute s!"unknown route '{routeId}'"))

def notConfigured (provider : String) : ProviderError :=
  { message := s!"no adapter registered for provider '{provider}'"
    provider
    retryable := false
    code := "provider_not_configured" }

/-- `ProviderRegistry.get`. -/
def adapter (svc : Service) (provider : String) : Except PyExc Unit :=
  if provider ∈ svc.adapters then .ok () else .error (.aegis (.provider (notConfigured provider)))

end Service

end AegisGateway
