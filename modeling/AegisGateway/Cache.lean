import AegisGateway.Domain
import Mathlib.Data.List.AList

/-!
# The semantic cache

`control/cache.py`, with what the gateway takes from its platform. The entries are
ordered by use, the most recently used one first.
-/

open JsonText

namespace AegisGateway

abbrev Vector : Type := AList fun _ : Nat => ℚ

/-- What comes from outside the repository: the hash of a text in UTF-8, the `repr` of a
float, `json.loads`, `jsonschema.validate`, pydantic on an evaluation case and on a run, Unicode
case folding and white space, and the embedding backend. -/
structure Platform where
  sha256 : String → List UInt8
  floatRepr : PyFloat → List Char
  jsonLoads : String → Except PyExc Json
  jsonschemaValidate : Json → Object → Except PyExc Unit
  validateCase : Json → Except PyExc EvaluationCase
  modelDumpJson : EvaluationRun → String
  casefold : Char → List Char
  isSpace : Char → Bool
  embed : String → Vector

def hexDigits (digest : List UInt8) : List Char :=
  digest.flatMap fun b => [hexDigit (b.toNat / 16), hexDigit b.toNat]

def hexdigest (digest : List UInt8) : String := String.ofList (hexDigits digest)

def sorted (xs : List String) : List String := xs.insertionSort (· ≤ ·)

structure CacheSettings where
  ttlSeconds : Nat := 900
  similarityThreshold : ℚ := 24 / 25
  maxEntries : Nat := 10000
  ttl_pos : 0 < ttlSeconds := by decide
  threshold_pos : 0 < similarityThreshold := by decide +kernel
  threshold_le : similarityThreshold ≤ 1 := by decide +kernel
  maxEntries_pos : 0 < maxEntries := by decide

structure Entry where
  scope : String
  fingerprint : String
  vector : Vector
  response : GatewayResponse
  expiresAt : ℚ

abbrev Entries : Type := AList fun _ : String => Entry

/-! ## Identity -/

namespace Platform

variable (P : Platform)

def schemaHash (schema : Option Object) : String :=
  hexdigest (P.sha256 (dumps P.floatRepr .compact (schema.elim .null .obj)))

def promptData (prompt : Option ArtifactRef) : Json :=
  prompt.elim .null fun r => .obj [("name", .str r.name), ("version", r.version.elim .null .str)]

def scopeData (q : GatewayRequest) (ns : String) : Object :=
  [("namespace", .str ns),
    ("tenant", .str q.tenantId),
    ("classification", .str q.dataClassification.value),
    ("privacy", .str q.privacyMode.value),
    ("schema", .str (P.schemaHash q.responseSchema)),
    ("capabilities", .arr ((sorted (q.requiredCapabilities.map (·.value))).map .str)),
    ("allowed_regions", .arr ((sorted q.allowedRegions).map .str)),
    ("max_cost_usd", .real q.maxCostUsd),
    ("max_latency_ms", .int q.maxLatencyMs),
    ("max_output_tokens", .int q.maxOutputTokens),
    ("temperature", q.temperature.elim .null .real),
    ("prompt", promptData q.prompt)]

def conversationText (q : GatewayRequest) : String :=
  "\n".intercalate (q.messages.map fun m => s!"{m.role.value}:{m.content}")

def scope (q : GatewayRequest) (ns : String) : String :=
  hexdigest (P.sha256 (dumps P.floatRepr .standard (.obj (P.scopeData q ns))))

def fingerprint (q : GatewayRequest) (ns : String) : String :=
  hexdigest (P.sha256 (P.scope q ns ++ "\n" ++ conversationText q))

end Platform

/-! ## The cache -/

def cosine (left right : Vector) : ℚ :=
  if left.entries = [] ∨ right.entries = [] then 0
  else
    let (left, right) :=
      if right.entries.length < left.entries.length then (right, left) else (left, right)
    (left.entries.map fun e => e.2 * (right.lookup e.1).getD 0).sum

namespace Entries

/-- `_evict_expired`. -/
def evictExpired (now : ℚ) (es : Entries) : Entries :=
  ⟨es.entries.filter fun e => now < e.2.expiresAt, es.nodupKeys.sublist List.filter_sublist⟩

def moveToEnd (es : Entries) (key : String) (e : Entry) : Entries := es.insert key e

/-- `popitem(last=False)` until `max` entries are left. -/
def trim (max : Nat) (es : Entries) : Entries :=
  ⟨es.entries.take max, es.nodupKeys.sublist (List.take_sublist _ _)⟩

/-- The scan for the nearest entry of the scope, from the least recently used one on. -/
def nearest (threshold : ℚ) (scope : String) (vector : Vector) (es : Entries) :
    Option (String × Entry) × ℚ :=
  es.entries.reverse.foldl (fun (best, bestScore) ⟨key, e⟩ =>
    if e.scope ≠ scope then (best, bestScore)
    else if bestScore ≤ cosine vector e.vector then (some (key, e), cosine vector e.vector)
    else (best, bestScore)) (none, threshold)

def get (P : Platform) (cfg : CacheSettings) (now : ℚ) (es : Entries) (q : GatewayRequest)
    (ns : String) : Option GatewayResponse × Entries :=
  let scope := P.scope q ns
  let fingerprint := P.fingerprint q ns
  let vector := P.embed (Platform.conversationText q)
  let es := es.evictExpired now
  match (es.lookup fingerprint).filter (·.scope = scope) with
  | some exact => (some { exact.response with cacheHit := true }, es.moveToEnd fingerprint exact)
  | none =>
    match (es.nearest cfg.similarityThreshold scope vector).1 with
    | none => (none, es)
    | some (key, e) => (some { e.response with cacheHit := true }, es.moveToEnd key e)

def put (P : Platform) (cfg : CacheSettings) (now : ℚ) (es : Entries) (q : GatewayRequest)
    (response : GatewayResponse) (ns : String) : Entries :=
  let fingerprint := P.fingerprint q ns
  let entry : Entry :=
    { scope := P.scope q ns
      fingerprint
      vector := P.embed (Platform.conversationText q)
      response := { response with cacheHit := false }
      expiresAt := now + cfg.ttlSeconds }
  trim cfg.maxEntries (es.insert fingerprint entry)

def clear (es : Entries) : Nat × Entries := (es.entries.length, ∅)

def size (now : ℚ) (es : Entries) : Nat × Entries :=
  ((es.evictExpired now).entries.length, es.evictExpired now)

/-! What the operations do to the entries, and where a hit comes from. -/

abbrev Slot : Type := Sigma fun _ : String => Entry

theorem mem_insert {es : Entries} {key : String} {e : Entry} {s : Slot}
    (h : s ∈ (es.insert key e).entries) : s = ⟨key, e⟩ ∨ s ∈ es.entries ∧ s.1 ≠ key := by
  have h : s ∈ (⟨key, e⟩ : Slot) :: List.kerase key es.entries := h
  rcases List.mem_cons.mp h with rfl | h
  · exact .inl rfl
  · refine .inr ⟨(List.kerase_sublist key es.entries).subset h, ?_⟩
    rintro rfl
    exact List.notMem_keys_kerase s.1 es.nodupKeys (List.mem_keys_of_mem h)

theorem mem_evictExpired {now : ℚ} {es : Entries} {s : Slot}
    (h : s ∈ (es.evictExpired now).entries) : s ∈ es.entries ∧ now < s.2.expiresAt := by
  obtain ⟨hs, hlive⟩ := List.mem_filter.mp h
  exact ⟨hs, of_decide_eq_true hlive⟩

theorem nearest_mem {threshold : ℚ} {scope : String} {vector : Vector} {es : Entries}
    {key : String} {e : Entry} (h : (es.nearest threshold scope vector).1 = some (key, e)) :
    ⟨key, e⟩ ∈ es.entries ∧ e.scope = scope := by
  have hmem : ∀ s : Slot, s ∈ es.entries.reverse → s ∈ es.entries := fun _ => List.mem_reverse.mp
  unfold nearest at h
  -- The best entry so far is one of those seen so far, and of the scope.
  revert h
  refine List.foldlRecOn es.entries.reverse _ (motive := fun b : Option (String × Entry) × ℚ =>
    b.1 = some (key, e) → ⟨key, e⟩ ∈ es.entries ∧ e.scope = scope) ?_ ?_
  · intro h
    cases h
  · intro b ih s hs h
    dsimp only at h
    split_ifs at h with hscope hscore
    · exact ih h
    · cases h
      exact ⟨hmem s hs, not_not.mp hscope⟩
    · exact ih h

section

variable {P : Platform} {cfg : CacheSettings} {now : ℚ} {es : Entries} {q : GatewayRequest}
  {ns : String}

theorem get_hit {r : GatewayResponse} (h : (get P cfg now es q ns).1 = some r) :
    ∃ s ∈ es.entries, now < s.2.expiresAt ∧ s.2.scope = P.scope q ns ∧
      r = { s.2.response with cacheHit := true } := by
  unfold get at h
  dsimp only at h
  split at h
  next exact hexact =>
    obtain ⟨hlookup, hscope⟩ := Option.filter_eq_some_iff.mp hexact
    obtain ⟨hmem, hlive⟩ := mem_evictExpired (AList.mem_lookup_iff.mp hlookup)
    exact ⟨_, hmem, hlive, by simpa using hscope, (Option.some.inj h).symm⟩
  next hnone =>
    split at h
    next => cases h
    next key e hbest =>
      obtain ⟨hbest, hscope⟩ := nearest_mem hbest
      obtain ⟨hmem, hlive⟩ := mem_evictExpired hbest
      exact ⟨⟨key, e⟩, hmem, hlive, hscope, (Option.some.inj h).symm⟩

theorem mem_get {s : Slot} (h : s ∈ (get P cfg now es q ns).2.entries) : s ∈ es.entries := by
  unfold get at h
  dsimp only at h
  split at h
  next exact hexact =>
    rcases mem_insert h with rfl | ⟨h, -⟩
    · obtain ⟨hlookup, -⟩ := Option.filter_eq_some_iff.mp hexact
      exact (mem_evictExpired (AList.mem_lookup_iff.mp hlookup)).1
    · exact (mem_evictExpired h).1
  next hnone =>
    split at h
    next => exact (mem_evictExpired h).1
    next key e hbest =>
      rcases mem_insert h with rfl | ⟨h, -⟩
      · exact (mem_evictExpired (nearest_mem hbest).1).1
      · exact (mem_evictExpired h).1

theorem mem_put {response : GatewayResponse} {s : Slot}
    (h : s ∈ (put P cfg now es q response ns).entries) :
    (s ∈ es.entries ∧ s.1 ≠ P.fingerprint q ns) ∨ s.1 = P.fingerprint q ns ∧
      s.2.scope = P.scope q ns ∧ s.2.response = { response with cacheHit := false } ∧
      s.2.expiresAt = now + cfg.ttlSeconds := by
  rcases mem_insert (List.mem_of_mem_take h) with rfl | h
  · exact .inr ⟨rfl, rfl, rfl, rfl⟩
  · exact .inl h

end

end Entries

end AegisGateway
