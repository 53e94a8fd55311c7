import AegisGateway.Lanes

/-!
# Structured answers

An answer is checked once, when a provider has given it. Whoever finds it in the cache later
has the same schema, up to the order of its keys.
-/

open Coroutine JsonText

namespace AegisGateway

/-- The order of the keys of a schema makes no difference. -/
def OrderBlind (P : Platform) : Prop :=
  ∀ v S S', sortKeys (.obj S) = sortKeys (.obj S') → P.jsonschemaValidate v S = .ok () →
    P.jsonschemaValidate v S' = .ok ()

/-- What an answer says about its text is true of the schema of the request. -/
def Platform.Conforms (P : Platform) (q : GatewayRequest) (r : GatewayResponse) : Prop :=
  match q.responseSchema with
  | none => r.schemaValid = none
  | some S => r.schemaValid = some true ∧ P.jsonLoads r.text = .ok r.parsed ∧
    P.jsonschemaValidate r.parsed S = .ok ()

section Conforms

variable {P : Platform} {q q' : GatewayRequest} {r : GatewayResponse}

theorem validateSchema_some {S : Object} {text : String} {parsed : Json} {valid : Option Bool}
    (hS : q.responseSchema = some S) (h : P.validateSchema q text = .ok (parsed, valid)) :
    valid = some true ∧ P.jsonLoads text = .ok parsed ∧ P.jsonschemaValidate parsed S = .ok () := by
  unfold Platform.validateSchema at h
  rw [hS] at h
  cases hl : P.jsonLoads text with
  | error e =>
    rw [hl] at h
    cases e <;> cases h
  | ok v =>
    cases hv : P.jsonschemaValidate v S with
    | error e =>
      simp only [hl, hv, bind, Except.bind] at h
      cases e <;> cases h
    | ok u =>
      simp only [hl, hv, bind, Except.bind, pure, Except.pure] at h
      cases h
      exact ⟨rfl, rfl, hv⟩

theorem conforms_of_checked
    (h : P.validateSchema q r.text = .ok (r.parsed, r.schemaValid)) : P.Conforms q r := by
  unfold Platform.Conforms
  split
  next hS =>
    unfold Platform.validateSchema at h
    rw [hS] at h
    exact (Prod.mk.inj (Except.ok.inj h)).2.symm
  next S hS => exact validateSchema_some hS h

/-- Requests of one scope have one schema. -/
theorem Platform.Conforms.of_scope (hblind : OrderBlind P) {ns ns' : String}
    (hs : SameScope q q' ns ns') (h : P.Conforms q' r) : P.Conforms q r := by
  have hschema := hs.responseSchema
  unfold Platform.Conforms schemaValue at *
  cases hq : q.responseSchema with
  | none =>
    cases hq' : q'.responseSchema with
    | none =>
      rw [hq'] at h
      exact h
    | some S' => simp [hq, hq', sortKeys] at hschema
  | some S =>
    cases hq' : q'.responseSchema with
    | none => simp [hq, hq', sortKeys] at hschema
    | some S' =>
      rw [hq'] at h
      rw [hq, hq'] at hschema
      exact ⟨h.1, h.2.1, hblind _ S' S hschema.symm h.2.2⟩

end Conforms

namespace Service

variable {svc : Service}

theorem ServedFrom.conforms {P : Platform} {q : GatewayRequest} {hit r : GatewayResponse}
    (h : ServedFrom hit r) (hc : P.Conforms q hit) : P.Conforms q r := by
  obtain ⟨x, elapsed, createdAt, rfl⟩ := h
  exact hc

theorem conforms_of_resolved {q q' : GatewayRequest} {tr : GatewayTrace}
    (hq : svc.Resolved q tr q') {r : GatewayResponse} (h : svc.platform.Conforms q' r) :
    svc.platform.Conforms q r := by
  obtain ⟨added, rfl, -⟩ := hq.messages
  exact h

section Hits

variable (hsha : Function.Injective svc.platform.sha256)
  (hfloat : FloatText svc.platform.floatRepr) (hblind : OrderBlind svc.platform) {c : State}
  (h : svc.machine.Reachable initial c)

include hsha hfloat hblind h

theorem hit_conforms {i : Nat} {q : GatewayRequest} {ns : String} {hit : GatewayResponse}
    (he : (i, ev (.cacheGet q ns) (some hit)) ∈ c.log) : svc.platform.Conforms q hit := by
  obtain ⟨pre, post, hlog⟩ := List.append_of_mem he
  obtain ⟨j, q', response, ns', hput, rfl, hsame⟩ := put_of_hit hsha hfloat h hlog
  have hmem : (j, ev (.cachePut q' response ns') ()) ∈ c.log := by
    rw [hlog]
    exact List.mem_append_left _ hput
  obtain ⟨x', -, huse⟩ := exchange_of_use h hmem rfl
  obtain ⟨-, rfl, -, hchecked⟩ := huse.put q' response ns' rfl
  have hconforms : svc.platform.Conforms x'.request response := conforms_of_checked hchecked
  have hhit : svc.platform.Conforms x'.request { response with cacheHit := true } := hconforms
  exact hhit.of_scope hblind hsame

theorem answer_conforms {i : Nat} {t : Task Op Ans PyExc Outcome Call}
    (ht : c.tasks[i]? = some t) {args : Arguments} (hargs : callArguments t.call = some args)
    {tr : GatewayTrace} (htr : tr ⊆ c.trace i) {r : GatewayResponse}
    (hr : svc.Answers args.request tr r) : svc.platform.Conforms args.request r := by
  rcases hr with ⟨-, hchecked⟩ | ⟨q, ns, hit, he, hserved⟩
  · exact conforms_of_checked hchecked
  · have hmem := Pool.mem_trace.mp (htr he)
    obtain ⟨x, ⟨t', args', tr₀, tr₁, ht', hargs', -, -, hb⟩, huse⟩ := exchange_of_use h hmem rfl
    obtain rfl := Option.some.inj (ht.symm.trans ht')
    obtain rfl := Option.some.inj (hargs.symm.trans hargs')
    obtain ⟨-, rfl, -⟩ := huse.get q ns rfl
    have hhit := hit_conforms hsha hfloat hblind h hmem
    exact conforms_of_resolved hb.resolved (hserved.conforms hhit)

end Hits

theorem evaluation_conforms {args : Arguments} (h : args.evaluation = true) :
    (svc.generate args).AllRuns fun _ out =>
      ∀ r, out = .ok r → svc.platform.Conforms args.request r := by
  refine ((generate_answers args).and (evaluation_cacheless h)).mono fun tr out ⟨ha, hoff⟩ r hr => ?_
  rcases ha r hr with ⟨-, hchecked⟩ | ⟨q, ns, hit, he, -⟩
  · exact conforms_of_checked hchecked
  · cases hoff _ he

def returned : GatewayM Outcome → Option GatewayResponse
  | .pure (.response r) => some r
  | _ => none

theorem returned_eq {p : GatewayM Outcome} {r : GatewayResponse} (h : returned p = some r) :
    p = .pure (.response r) := by
  unfold returned at h
  split at h
  · cases h
    rfl
  · cases h

/-- Whatever a call has been given, by a provider or from the cache, conforms to its schema. -/
theorem structured_sound (hsha : Function.Injective svc.platform.sha256)
    (hfloat : FloatText svc.platform.floatRepr) (hblind : OrderBlind svc.platform) {c : State}
    (h : svc.machine.Reachable initial c) :
    (∀ i t args, c.tasks[i]? = some t → callArguments t.call = some args →
      (∀ r, t.rest = .pure (.response r) → svc.platform.Conforms args.request r) ∧
      ∀ q forced, t.call = .stream q forced → ∀ v a r, ev (.yieldEvent v) a ∈ c.trace i →
        v.response = some r → svc.platform.Conforms q r) ∧
    ∀ args, args.evaluation = true → (svc.generate args).AllRuns fun _ out =>
      ∀ r, out = .ok r → svc.platform.Conforms args.request r := by
  refine ⟨fun i t args ht hargs => ⟨fun r hrest => ?_, fun q forced hcall v a r he hr => ?_⟩,
    fun args => evaluation_conforms⟩
  · have hanswers := answers_of_reachable h ht hargs hrest
    exact answer_conforms hsha hfloat hblind h ht hargs (List.Subset.refl _) hanswers
  · obtain ⟨pre, post, htr⟩ := List.append_of_mem he
    have hanswers := yieldsAnswers_of_reachable h ht hcall pre v a post r htr hr
    rw [hcall] at hargs
    cases hargs
    have hargs : callArguments t.call = some { request := q, forcedRouteId := forced } := by
      rw [hcall]
      rfl
    have hpre : pre ⊆ c.trace i := htr ▸ List.subset_append_left _ _
    exact answer_conforms hsha hfloat hblind h ht hargs hpre hanswers

theorem sample_orderBlind : OrderBlind Sample.platform := fun _ _ _ _ _ => rfl

/-- A request with a schema that has been given an answer. -/
theorem structured_sound_object : ∃ (c : State) (t : Task Op Ans PyExc Outcome Call)
    (r : GatewayResponse), Sample.service.machine.Reachable initial c ∧ c.tasks[0]? = some t ∧
    t.rest = .pure (.response r) ∧ r.schemaValid = some true ∧
    Sample.platform.Conforms { Sample.request with responseSchema := some [] } r := by
  obtain ⟨c, hm, r, hr, hvalid⟩ : ∃ c ∈ Sample.service.machine.moves? initial
      (.start (.generate { Sample.request with responseSchema := some [] } none) ::
        (Sample.goes 0 7 ++ .run 0 (Sample.completion "\x7b\x7d") :: Sample.goes 0 6)),
      ∃ r ∈ c.tasks[0]?.bind fun t => returned t.rest, r.schemaValid = some true := by
    decide +kernel
  obtain ⟨t, ht, hret⟩ := Option.bind_eq_some_iff.mp hr
  have hrest := returned_eq hret
  have hc := Machine.reachable_of_moves _ .start hm
  obtain ⟨t', ht', hcall⟩ := Machine.task_of_moves hm
  obtain rfl := Option.some.inj (ht.symm.trans ht')
  have h := (structured_sound Sample.sha256_injective Sample.floatText sample_orderBlind hc).1 0 t _ ht
    (by rw [hcall]; rfl)
  exact ⟨c, t, r, hc, ht, hrest, hvalid, h.1 r hrest⟩

end Service

end AegisGateway
