import AegisGateway.Cache
import AegisGateway.Lib.JsonPrinting
import AegisGateway.Lib.JsonReading

/-!
# What a scope stands for

A scope is the digest of a JSON object. As long as digests do not collide, two requests
that share a scope agree on everything that went into it.
-/

open JsonText

namespace AegisGateway

/-! ## Digests -/

theorem byte_of_hexDigits {a b : UInt8} (hhigh : hexDigit (a.toNat / 16) = hexDigit (b.toNat / 16))
    (hlow : hexDigit a.toNat = hexDigit b.toNat) : a = b := by
  have hhigh := hexDigit_inj hhigh
  have hlow := hexDigit_inj hlow
  have ha := a.toNat_lt
  have hb := b.toNat_lt
  apply UInt8.toNat_inj.mp
  omega

theorem hexDigits_inj {xs ys : List UInt8} (h : hexDigits xs = hexDigits ys) : xs = ys := by
  induction xs generalizing ys with
  | nil =>
    cases ys with
    | nil => rfl
    | cons y ys => cases h
  | cons x xs ih =>
    cases ys with
    | nil => cases h
    | cons y ys =>
      simp only [hexDigits, List.flatMap_cons, List.cons_append, List.nil_append,
        List.cons.injEq] at h
      obtain ⟨hhigh, hlow, hrest⟩ := h
      rw [byte_of_hexDigits hhigh hlow, ih hrest]

theorem hexdigest_inj {xs ys : List UInt8} (h : hexdigest xs = hexdigest ys) : xs = ys :=
  hexDigits_inj (String.ofList_injective h)

theorem newline_notMem_hexDigits (digest : List UInt8) : '\n' ∉ hexDigits digest := by
  intro h
  have hdigit : ∃ n, '\n' = hexDigit n := by
    obtain ⟨b, -, h⟩ := List.mem_flatMap.mp h
    rcases List.mem_pair.mp h with h | h
    · exact ⟨_, h⟩
    · exact ⟨_, h⟩
  obtain ⟨n, hn⟩ := hdigit
  have hprintable := hexDigit_printable n
  rw [← hn] at hprintable
  exact absurd hprintable (by decide)

/-! ## Scopes -/

theorem dataClassification_value_inj {a b : DataClassification} (h : a.value = b.value) :
    a = b := by
  cases a <;> cases b <;> simp_all [DataClassification.value]

theorem privacyMode_value_inj {a b : PrivacyMode} (h : a.value = b.value) : a = b := by
  cases a <;> cases b <;> simp_all [PrivacyMode.value]

theorem capability_value_inj : Function.Injective Capability.value := by
  intro a b h
  cases a <;> cases b <;> simp_all [Capability.value]

theorem perm_of_sorted {xs ys : List String} (h : sorted xs = sorted ys) : xs.Perm ys :=
  ((List.perm_insertionSort _ xs).symm.trans (List.Perm.of_eq h)).trans
    (List.perm_insertionSort _ ys)

def schemaValue (q : GatewayRequest) : Json := q.responseSchema.elim .null .obj

structure SameScope (q q' : GatewayRequest) (ns ns' : String) : Prop where
  ns : ns = ns'
  tenantId : q.tenantId = q'.tenantId
  dataClassification : q.dataClassification = q'.dataClassification
  privacyMode : q.privacyMode = q'.privacyMode
  responseSchema : sortKeys (schemaValue q) = sortKeys (schemaValue q')
  capabilities : q.requiredCapabilities.Perm q'.requiredCapabilities
  allowedRegions : q.allowedRegions.Perm q'.allowedRegions
  maxCostUsd : q.maxCostUsd = q'.maxCostUsd
  maxLatencyMs : q.maxLatencyMs = q'.maxLatencyMs
  maxOutputTokens : q.maxOutputTokens = q'.maxOutputTokens
  temperature : q.temperature = q'.temperature
  prompt : q.prompt = q'.prompt

theorem promptData_inj {p p' : Option ArtifactRef}
    (h : sortKeys (Platform.promptData p) = sortKeys (Platform.promptData p')) : p = p' := by
  cases p with
  | none =>
    cases p' with
    | none => rfl
    | some r' => simp [Platform.promptData, sortKeys] at h
  | some r =>
    cases p' with
    | none => simp [Platform.promptData, sortKeys] at h
    | some r' =>
      obtain ⟨v, hv, hname⟩ := field_of_sortKeys_eq h (List.mem_cons_self ..)
      obtain ⟨v', hv', hversion⟩ :=
    field_of_sortKeys_eq h (List.mem_cons_of_mem _ (List.mem_singleton_self _))
      obtain rfl : v = .str r'.name := by simpa using hv
      obtain rfl : v' = r'.version.elim .null .str := by simpa using hv'
      have hn : r.name = r'.name := by simpa [sortKeys, eq_comm] using hname
      have hv : r.version = r'.version := by
        cases h₁ : r.version <;> cases h₂ : r'.version <;> simp_all [sortKeys]
      rcases r with ⟨name, version⟩
      rcases r' with ⟨name', version'⟩
      simp_all

theorem strs_inj {xs ys : List String} (h : sortKeys (.arr (xs.map .str)) =
    sortKeys (.arr (ys.map .str))) : xs = ys := by
  rw [sortKeys_strs, sortKeys_strs, Json.arr.injEq] at h
  have hstr : Function.Injective Json.str := fun _ _ => Json.str.inj
  exact List.map_injective_iff.mpr hstr h

theorem scope_of_fingerprint {P : Platform} (hsha : Function.Injective P.sha256)
    {q q' : GatewayRequest} {ns ns' : String} (h : P.fingerprint q ns = P.fingerprint q' ns') :
    P.scope q ns = P.scope q' ns' := by
  have htext := hsha (hexdigest_inj h)
  have hfirst : ∀ (q : GatewayRequest) (ns text : String),
      (P.scope q ns ++ "\n" ++ text).toList.takeWhile (fun c => c ≠ '\n') =
        (P.scope q ns).toList := by
    intro q ns text
    have hscope : ∀ c ∈ (P.scope q ns).toList, decide (c ≠ '\n') = true := by
      intro c hc
      apply decide_eq_true
      rintro rfl
      rw [Platform.scope, hexdigest, String.toList_ofList] at hc
      exact newline_notMem_hexDigits _ hc
    rw [String.toList_append, String.toList_append, List.append_assoc,
      List.takeWhile_append_of_pos hscope]
    simp
  apply String.toList_injective
  rw [← hfirst q ns (Platform.conversationText q), htext, hfirst]

section

variable {P : Platform} (hsha : Function.Injective P.sha256) (hfloat : FloatText P.floatRepr)

include hsha hfloat

theorem schema_of_hash {schema schema' : Option Object}
    (h : P.schemaHash schema = P.schemaHash schema') :
    sortKeys (schema.elim .null .obj) = sortKeys (schema'.elim .null .obj) :=
  dumps_inj hfloat ⟨[], rfl⟩ (hsha (hexdigest_inj h))

theorem part_of_scope_eq {q q' : GatewayRequest} {ns ns' : String}
    (h : P.scope q ns = P.scope q' ns') (k : String) (part : GatewayRequest → String → Json)
    (hpart : ∀ q ns, (k, part q ns) ∈ P.scopeData q ns) :
    sortKeys (part q ns) = sortKeys (part q' ns') := by
  have hdumps := hsha (hexdigest_inj h)
  obtain ⟨v, hmem, heq⟩ := field_of_dumps_eq hfloat ⟨[' '], rfl⟩ hdumps (hpart q ns)
  have hkeys : ((P.scopeData q' ns').map (·.1)).Nodup := by
    change ["namespace", "tenant", "classification", "privacy", "schema", "capabilities",
      "allowed_regions", "max_cost_usd", "max_latency_ms", "max_output_tokens", "temperature",
      "prompt"].Nodup
    decide
  have hsame := List.inj_on_of_nodup_map hkeys hmem (hpart q' ns') rfl
  rw [← heq, (Prod.mk.inj hsame).2]

theorem scope_inj {q q' : GatewayRequest} {ns ns' : String} (h : P.scope q ns = P.scope q' ns') :
    SameScope q q' ns ns' := by
  -- Field by field: each part of the scope can be read off it.
  have part := part_of_scope_eq hsha hfloat h
  have hns := part "namespace" (fun _ ns => .str ns) (by simp [Platform.scopeData])
  have htenant := part "tenant" (fun q _ => .str q.tenantId) (by simp [Platform.scopeData])
  have hclass := part "classification" (fun q _ => .str q.dataClassification.value)
    (by simp [Platform.scopeData])
  have hprivacy := part "privacy" (fun q _ => .str q.privacyMode.value)
    (by simp [Platform.scopeData])
  have hschema := part "schema" (fun q _ => .str (P.schemaHash q.responseSchema))
    (by simp [Platform.scopeData])
  have hcaps := part "capabilities"
    (fun q _ => .arr ((sorted (q.requiredCapabilities.map (·.value))).map .str))
    (by simp [Platform.scopeData])
  have hregions := part "allowed_regions" (fun q _ => .arr ((sorted q.allowedRegions).map .str))
    (by simp [Platform.scopeData])
  have hcost := part "max_cost_usd" (fun q _ => .real q.maxCostUsd) (by simp [Platform.scopeData])
  have hlatency := part "max_latency_ms" (fun q _ => .int q.maxLatencyMs)
    (by simp [Platform.scopeData])
  have htokens := part "max_output_tokens" (fun q _ => .int q.maxOutputTokens)
    (by simp [Platform.scopeData])
  have htemp := part "temperature" (fun q _ => q.temperature.elim .null .real)
    (by simp [Platform.scopeData])
  have hprompt := part "prompt" (fun q _ => Platform.promptData q.prompt)
    (by simp [Platform.scopeData])
  exact
    { ns := by simpa [sortKeys] using hns
      tenantId := by simpa [sortKeys] using htenant
      dataClassification := dataClassification_value_inj (by simpa [sortKeys] using hclass)
      privacyMode := privacyMode_value_inj (by simpa [sortKeys] using hprivacy)
      responseSchema := schema_of_hash hsha hfloat (by simpa [sortKeys] using hschema)
      capabilities := (List.map_perm_map_iff capability_value_inj).mp
        (perm_of_sorted (strs_inj hcaps))
      allowedRegions := perm_of_sorted (strs_inj hregions)
      maxCostUsd := by simpa [sortKeys] using hcost
      maxLatencyMs := by simpa [sortKeys] using hlatency
      maxOutputTokens := by simpa [sortKeys] using htokens
      temperature := by
        cases h : q.temperature <;> cases h' : q'.temperature <;> simp_all [sortKeys]
      prompt := promptData_inj hprompt }

end

end AegisGateway
