import AegisGateway.CachePolicy
import Mathlib.Data.List.Induction

/-!
# Where a hit comes from

A run of the cache is a list of calls. Each reads the clock once, in any order of times,
and asks the embedder, which may answer something else every time.
-/

open JsonText

namespace AegisGateway

inductive CacheOp where
  | get (q : GatewayRequest) (ns : String)
  | put (q : GatewayRequest) (response : GatewayResponse) (ns : String)
  | size
  | clear

structure CacheCall where
  time : ℚ
  embed : String → Vector
  op : CacheOp

namespace Entries

variable (P : Platform) (cfg : CacheSettings)

def perform (es : Entries) (c : CacheCall) : Entries :=
  match c.op with
  | .get q ns => (get { P with embed := c.embed } cfg c.time es q ns).2
  | .put q response ns => put { P with embed := c.embed } cfg c.time es q response ns
  | .size => (size c.time es).2
  | .clear => (clear es).2

def after (h : List CacheCall) : Entries := h.foldl (perform P cfg) ∅

/-- No call of these clears the cache or stores under the fingerprint. -/
def Leaves (fingerprint : String) (h : List CacheCall) : Prop :=
  ∀ c ∈ h, c.op ≠ .clear ∧ ∀ q response ns, c.op = .put q response ns →
    P.fingerprint q ns ≠ fingerprint

/-- The last call that has stored under the key of the slot, and what it has stored. -/
def PutBy (h : List CacheCall) (s : Slot) : Prop :=
  ∃ pre c post q response ns, h = pre ++ c :: post ∧ c.op = .put q response ns ∧
    s.1 = P.fingerprint q ns ∧ Leaves P s.1 post ∧ s.2.scope = P.scope q ns ∧
    s.2.response = { response with cacheHit := false } ∧ s.2.expiresAt = c.time + cfg.ttlSeconds

variable {P cfg} {h : List CacheCall} {c : CacheCall} {s : Slot}

theorem PutBy.concat (hp : PutBy P cfg h s) (hc : Leaves P s.1 [c]) : PutBy P cfg (h ++ [c]) s := by
  obtain ⟨pre, c₀, post, q, response, ns, rfl, hop, hkey, hpost, hrest⟩ := hp
  refine ⟨pre, c₀, post ++ [c], q, response, ns, by simp, hop, hkey, ?_, hrest⟩
  exact List.forall_mem_append.mpr ⟨hpost, hc⟩

theorem leaves_of_read {key : String} (hclear : c.op ≠ .clear)
    (hput : ∀ q response ns, c.op ≠ .put q response ns) : Leaves P key [c] := by
  intro c' hc'
  obtain rfl := List.mem_singleton.mp hc'
  exact ⟨hclear, fun q response ns hop => absurd hop (hput q response ns)⟩

theorem putBy_perform {es : Entries} (hes : ∀ s ∈ es.entries, PutBy P cfg h s)
    (hs : s ∈ (perform P cfg es c).entries) : PutBy P cfg (h ++ [c]) s := by
  unfold perform at hs
  cases hop : c.op with
  | get q ns =>
    rw [hop] at hs
    exact (hes s (mem_get hs)).concat (leaves_of_read (by simp [hop]) (by simp [hop]))
  | size =>
    rw [hop] at hs
    exact (hes s (mem_evictExpired hs).1).concat (leaves_of_read (by simp [hop]) (by simp [hop]))
  | clear =>
    rw [hop] at hs
    cases hs
  | put q response ns =>
    rw [hop] at hs
    rcases mem_put hs with ⟨hs, hne⟩ | ⟨hkey, hscope, hresponse, hexpires⟩
    · apply (hes s hs).concat
      intro c' hc'
      obtain rfl := List.mem_singleton.mp hc'
      refine ⟨by simp [hop], fun q' response' ns' hop' => ?_⟩
      obtain ⟨rfl, rfl, rfl⟩ := CacheOp.put.inj (hop.symm.trans hop')
      exact Ne.symm hne
    · exact ⟨h, c, [], q, response, ns, rfl, hop, hkey, by simp [Leaves], hscope, hresponse,
        hexpires⟩

theorem putBy_after (h : List CacheCall) : ∀ s ∈ (after P cfg h).entries, PutBy P cfg h s := by
  induction h using List.reverseRecOn with
  | nil =>
    intro s hs
    cases hs
  | append_singleton h c ih =>
    intro s hs
    rw [after, List.foldl_append] at hs
    exact putBy_perform ih hs

/-- A hit is an answer that was stored for a request of the same scope and has not expired, and
nothing has been stored under its fingerprint since. -/
theorem hit_stored (hsha : Function.Injective P.sha256) (hfloat : FloatText P.floatRepr)
    {h : List CacheCall} {now : ℚ} {embed : String → Vector} {q : GatewayRequest} {ns : String}
    {r : GatewayResponse}
    (hr : (get { P with embed } cfg now (after P cfg h) q ns).1 = some r) :
    ∃ pre c post q' response ns', h = pre ++ c :: post ∧ c.op = .put q' response ns' ∧
      Leaves P (P.fingerprint q' ns') post ∧ r = { response with cacheHit := true } ∧
      now < c.time + cfg.ttlSeconds ∧ SameScope q q' ns ns' := by
  obtain ⟨s, hs, hlive, hscope, rfl⟩ := get_hit hr
  obtain ⟨pre, c, post, q', response, ns', rfl, hop, hkey, hpost, hscope', hresponse, hexpires⟩ :=
    putBy_after h s hs
  refine ⟨pre, c, post, q', response, ns', rfl, hop, hkey ▸ hpost, by rw [hresponse],
    hexpires ▸ hlive, ?_⟩
  exact scope_inj hsha hfloat (hscope.symm.trans hscope')

theorem get_exact {now : ℚ} {es : Entries} {q : GatewayRequest} {ns : String} {e : Entry}
    (h : ((es.evictExpired now).lookup (P.fingerprint q ns)).filter (·.scope = P.scope q ns) =
      some e) : (get P cfg now es q ns).1 = some { e.response with cacheHit := true } := by
  unfold get
  simp only [h]

theorem get_put {now t : ℚ} {embed embed' : String → Vector} (es : Entries) (q : GatewayRequest)
    (response : GatewayResponse) (ns : String) (hlive : now < t + cfg.ttlSeconds) :
    (get { P with embed } cfg now (put { P with embed := embed' } cfg t es q response ns) q ns).1 =
      some { response with cacheHit := true } := by
  obtain ⟨n, hn⟩ := Nat.exists_eq_succ_of_ne_zero cfg.maxEntries_pos.ne'
  let e : Entry :=
    { scope := P.scope q ns
      fingerprint := P.fingerprint q ns
      vector := embed' (Platform.conversationText q)
      response := { response with cacheHit := false }
      expiresAt := t + cfg.ttlSeconds }
  have hlookup : ((put { P with embed := embed' } cfg t es q response ns).evictExpired now).lookup
      (P.fingerprint q ns) = some e := by
    change List.dlookup (P.fingerprint q ns) (((⟨P.fingerprint q ns, e⟩ :: _ : List Slot).take
      cfg.maxEntries).filter fun s => now < s.2.expiresAt) = some e
    rw [hn, List.take_succ_cons, List.filter_cons_of_pos (by simpa [e] using hlive),
      List.dlookup_cons_eq]
  have hexact : ((put { P with embed := embed' } cfg t es q response ns).evictExpired now |>.lookup
      (P.fingerprint q ns)).filter (·.scope = P.scope q ns) = some e := by
    rw [hlookup]
    exact Option.filter_some_pos (by simp [e])
  exact get_exact (P := { P with embed }) hexact

/-! An answer that is stored at the time 0 and found at the time 1. -/

def answer : GatewayResponse where
  requestId := "request-0001"
  routeId := "primary"
  provider := "openai"
  model := "model-a"
  text := "hello"
  usage := ⟨1, 1, 0⟩
  ttftMs := 1
  latencyMs := 1
  createdAt := 0

def blind : String → Vector := fun _ => ∅

def stored : List CacheCall := [⟨0, blind, .put Sample.request answer "default"⟩]

theorem hit_stored_answer : ∃ r c, (get { Sample.platform with embed := blind }
    Sample.service.cache 1 (after Sample.platform Sample.service.cache stored) Sample.request
      "default").1 = some r ∧ c ∈ stored ∧ r = { answer with cacheHit := true } ∧
      1 < c.time + 900 := by
  have hget : (get { Sample.platform with embed := blind } Sample.service.cache 1
      (after Sample.platform Sample.service.cache stored) Sample.request "default").1 =
        some { answer with cacheHit := true } :=
    get_put ∅ Sample.request answer "default" (by decide +kernel)
  obtain ⟨pre, c, post, q', response, ns', hsplit, hop, -, hr, hlive, -⟩ :=
    hit_stored Sample.sha256_injective Sample.floatText hget
  exact ⟨_, c, hget, by simp [hsplit], rfl, hlive⟩

end Entries

end AegisGateway
