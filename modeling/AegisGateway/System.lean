import AegisGateway.Evaluation
import AegisGateway.Lib.JsonReading

/-!
# The gateway as a whole

All tasks share one world: the circuits, the buckets, the cache, the tables, two clocks
and the exported gauge. What the world does not settle is the input of the move: the
answer of a provider, and what a consumer does.
-/

open Coroutine JsonText

namespace AegisGateway

structure World where
  clock : ℚ := 0
  utc : Int := 0
  circuits : Circuits := ∅
  buckets : Buckets := ∅
  cache : Entries := ∅
  gauge : AList (fun _ : String => Nat) := ∅
  database : Database := {}

/-- `later` moves the clocks, as the world's own move. -/
inductive Input where
  | go
  | completion (r : Except PyExc ProviderResult)
  | script (s : Script)
  | consumer (c : Consumer)
  | uuid (id : String)
  | later (seconds : ℚ) (microseconds : Nat)

namespace Service

variable (svc : Service)

/-- One operation, as the component that owns it carries it out. -/
def exec (w : World) : (o : Op) → Input → Option (Ans o × World)
  | .monotonic, .go => some (w.clock, w)
  | .datetimeNow, .go => some (w.utc, w)
  | .uuid4, .uuid id => some (id, w)
  | .isAvailable routeId, .go =>
    let r := w.circuits.isAvailable svc.circuits w.clock routeId
    some (r.1, { w with circuits := r.2 })
  | .beforeRequest routeId, .go =>
    let r := w.circuits.beforeRequest svc.circuits w.clock routeId
    some (r.1, { w with circuits := r.2 })
  | .recordSuccess routeId, .go =>
    let r := w.circuits.recordSuccess routeId
    some (r.1, { w with circuits := r.2 })
  | .recordFailure routeId, .go =>
    let r := w.circuits.recordFailure svc.circuits w.clock routeId
    some (r.1, { w with circuits := r.2 })
  | .snapshots, .go =>
    let r := w.circuits.snapshots svc.circuits w.clock
    some (r.1, { w with circuits := r.2 })
  | .setCircuitState routeId state, .go =>
    some ((), { w with gauge := w.gauge.insert routeId state.gauge })
  | .consume key, .go =>
    let r := w.buckets.consume svc.limiter w.clock key 1
    some (r.1, { w with buckets := r.2 })
  | .cacheGet q ns, .go =>
    let r := Entries.get svc.platform svc.cache w.clock w.cache q ns
    some (r.1, { w with cache := r.2 })
  | .cachePut q response ns, .go =>
    some ((), { w with cache := Entries.put svc.platform svc.cache w.clock w.cache q response ns })
  | .cacheClear, .go =>
    let r := Entries.clear w.cache
    some (r.1, { w with cache := r.2 })
  | .complete _ _, .completion r => some (r, w)
  | .openStream _ _, .script s => some (s, w)
  | .yieldEvent _, .consumer c => some (c, w)
  | .createTask _, .go => some ((), w)
  | .getArtifact kind name version, .go => some (w.database.getArtifact kind name version, w)
  | .putArtifact kind name version content, .go =>
    let r := w.database.putArtifact svc.platform w.utc kind name version content
    some (r.1, { w with database := r.2 })
  | .createRelease release, .go =>
    let r := w.database.createRelease release
    some (r.1, { w with database := r.2 })
  | .getRelease releaseId, .go => some (w.database.getRelease releaseId, w)
  | .getLive name, .go => some (w.database.getLive name, w)
  | .setState releaseId state, .go =>
    let r := Database.setState w.utc w.database releaseId state
    some (r.1, { w with database := r.2 })
  | .recordRollback releaseId reason durationMs, .go =>
    some ((), { w with
      database := Database.recordRollback w.utc w.database releaseId reason durationMs })
  | .recordMetric m, .go => some ((), { w with database := w.database.recordMetric m })
  | .metrics releaseId routeId canary limit, .go =>
    some (w.database.metrics releaseId routeId canary limit, w)
  | .putEvaluation run, .go => some ((), { w with database := w.database.putEvaluation run })
  | _, _ => none

/-- Time passes, and never runs backwards. -/
def drift (w : World) : Input → Option World
  | .later seconds microseconds =>
    if 0 ≤ seconds then
      some { w with clock := w.clock + seconds, utc := w.utc + microseconds }
    else none
  | _ => none

theorem drift_eq {w w' : World} {x : Input} (h : drift w x = some w') :
    ∃ clock utc, w.clock ≤ clock ∧ w' = { w with clock, utc } := by
  unfold drift at h
  split at h
  · split_ifs at h with hpos
    cases h
    exact ⟨_, _, le_add_of_nonneg_right hpos, rfl⟩
  · cases h

def spawned : Op → List Call
  | .createTask call => [call]
  | _ => []

def machine : Machine Op Ans PyExc Outcome World Input Call where
  body := svc.body
  exec := svc.exec
  spawn := spawned
  drift := drift

abbrev State : Type := Pool Op Ans PyExc Outcome World Call

/-- The gateway when it starts, with nothing in its tables. -/
def initial : State := .empty {}

end Service

/-! ## A small gateway -/

namespace Sample

def ratText (x : ℚ) : List Char := intText x.num ++ '.' :: natText (x.den - 1)

def floatRepr : PyFloat → List Char
  | .exact x => ratText x
  | .negZero => ['-', '0', '.', '0']
  | .nan => nanText
  | .infinity negative => if negative then '-' :: infinityText else infinityText

/-- A platform for plain texts: a text is its own digest, a run is written as its identifier, and
the only JSON text is that of the empty object, which every schema accepts. -/
def platform : Platform where
  sha256 text := text.toByteArray.data.toList
  floatRepr := floatRepr
  jsonLoads text := if text = "\x7b\x7d" then .ok (.obj []) else .error .jsonDecodeError
  jsonschemaValidate _ _ := .ok ()
  validateCase _ := .error invalidModel
  modelDumpJson run := run.id
  casefold c := [c.toLower]
  isSpace c := c.isWhitespace
  embed _ := ∅

theorem sha256_injective : Function.Injective platform.sha256 := by
  intro a b h
  have hdata := Array.toList_inj.mp h
  exact String.toByteArray_inj.mp (ByteArray.ext hdata)

theorem point_notMem_intText (n : Int) : '.' ∉ intText n := by
  intro hmem
  rcases intText_chars n '.' hmem with hc | hc <;> exact absurd hc (by decide)

theorem point_notMem_natText (n : Nat) : '.' ∉ natText n := fun hmem =>
  absurd (natText_digits n '.' hmem) (by decide)

theorem ratText_inj {x y : ℚ} (h : ratText x = ratText y) : x = y := by
  rw [ratText, ratText, List.append_cons_inj_of_notMem (point_notMem_intText _)
    (point_notMem_natText _)] at h
  have hden := natText_inj h.2.2
  have hx := x.den_pos
  have hy := y.den_pos
  exact Rat.ext (intText_inj h.1) (by omega)

theorem ratText_ne_negZero (x : ℚ) : ratText x ≠ ['-', '0', '.', '0'] := by
  intro h
  change intText x.num ++ '.' :: natText (x.den - 1) = ['-', '0'] ++ '.' :: ['0'] at h
  rw [List.append_cons_inj_of_notMem (point_notMem_intText _) (point_notMem_natText _)] at h
  obtain ⟨hnum, -⟩ := h
  -- no integer is written with a sign before a zero
  cases hn : x.num with
  | ofNat n =>
    rw [hn] at hnum
    have hdigit := natText_digits n '-' (by rw [show natText n = _ from hnum]; simp)
    exact absurd hdigit (by decide)
  | negSucc n =>
    rw [hn] at hnum
    have hzero : natText (n + 1) = natText 0 := (List.cons.inj hnum).2
    exact absurd (natText_inj hzero) (by omega)

theorem ratText_chars (x : ℚ) : ∀ c ∈ ratText x, isNumberChar c = true := by
  intro c hc
  rcases List.mem_append.mp hc with hc | hc
  · rcases intText_chars _ c hc with hd | rfl
    · simp [isNumberChar, hd]
    · decide
  · rcases List.mem_cons.mp hc with rfl | hc
    · decide
    · simp [isNumberChar, natText_digits _ c hc]

theorem ratText_plain (x : ℚ) {cs : List Char} {c : Char} (hc : c ∈ cs)
    (hletter : isNumberChar c = false) : ratText x ≠ cs := by
  rintro rfl
  rw [ratText_chars x c hc] at hletter
  cases hletter

theorem floatRepr_injective : Function.Injective floatRepr := by
  have hnan : ∀ x, ratText x ≠ nanText := fun x =>
    ratText_plain x (c := 'N') (by decide) (by decide)
  have hinf : ∀ x negative, ratText x ≠ floatRepr (.infinity negative) := fun x negative =>
    ratText_plain x (c := 'I') (by cases negative <;> decide) (by decide)
  rintro (x | _ | _ | negative) (y | _ | _ | negative') h
  · exact congrArg _ (ratText_inj h)
  · exact absurd h (ratText_ne_negZero x)
  · exact absurd h (hnan x)
  · exact absurd h (hinf x _)
  · exact absurd h.symm (ratText_ne_negZero y)
  · rfl
  · exact absurd h (by decide)
  · cases negative' <;> exact absurd h (by decide)
  · exact absurd h.symm (hnan y)
  · exact absurd h (by decide)
  · rfl
  · cases negative' <;> exact absurd h (by decide)
  · exact absurd h.symm (hinf y _)
  · cases negative <;> exact absurd h (by decide)
  · cases negative <;> exact absurd h (by decide)
  · cases negative <;> cases negative' <;> first | rfl | exact absurd h (by decide)

theorem floatText : FloatText platform.floatRepr where
  injective := floatRepr_injective
  number := by
    rintro (x | _ | _ | _) hx
    · exact ratText_chars x
    · exact List.all_eq_true.mp (by decide)
    · cases hx
    · cases hx
  marked := by
    rintro (x | _ | _ | _) hx
    · exact .inl (by simp [platform, floatRepr, ratText])
    · exact .inl (by decide)
    · cases hx
    · cases hx
  nan := rfl
  infinity _ := rfl

def route : ModelRoute where
  id := "primary"
  provider := "openai"
  model := "model-a"
  capabilities := [.text, .streaming, .structuredOutput]
  regions := ["local"]
  contextWindow := 32768
  inputCostPerMillion := 1
  outputCostPerMillion := 2
  expectedP95LatencyMs := 100
  qualityScore := 4 / 5
  privacyModes := [.standard]

def request : GatewayRequest where
  tenantId := "tenant-a"
  requestId := "request-0001"
  messages := [⟨.user, "hello gateway", none⟩]
  maxCostUsd := 1
  cacheMode := .bypass

example : request.fieldsValid = true := by decide +kernel

def service : Service where
  platform
  routes := [route]
  circuits := { failureThreshold := 1, recoverySeconds := 1 }
  adapters := ["openai"]
  routes_nodup := by decide

def release : Release where
  id := "release-1"
  name := "default"
  baselineRouteId := "primary"
  candidateRouteId := "primary"

def completion (text : String) : Input := .completion (.ok ⟨text, 1, 1, 1, "model-a"⟩)

/-- The task takes its next steps, as long as the world settles them. -/
def goes (i n : Nat) : List (Move Input Call) := List.replicate n (.run i .go)

end Sample

end AegisGateway
