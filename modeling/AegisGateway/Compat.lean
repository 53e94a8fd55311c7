import AegisGateway.Lib.JsonRepr
import AegisGateway.Adapters
import AegisGateway.Diagnostics

/-!
# The compatibility endpoint

`openai_compat` of `api/app.py` makes a request of the gateway out of a body of another form.
What its own model accepts and `GatewayRequest` does not is the client's mistake, and the
answer is an error of the server.
-/

open JsonText

namespace AegisGateway

/-! ## Bodies and failures -/

structure OpenAICompatRequest where
  model : String := "auto"
  messages : List Message
  stream : Bool := false
  temperature : Option ℚ := none
  maxTokens : Nat := 512
  responseFormat : Option Object := none
  user : Option String := none

/-- The bounds that pydantic checks on the fields of the body. -/
def OpenAICompatRequest.fieldsValid (body : OpenAICompatRequest) : Bool :=
  1 ≤ body.messages.length && body.messages.all Message.fieldsValid &&
  (body.temperature.all fun t => 0 ≤ t && t ≤ 2) &&
  1 ≤ body.maxTokens && body.maxTokens ≤ 131072

/-- The one bound on the header `X-Aegis-Tenant`. -/
def tenantHeaderValid (tenant : String) : Bool := 1 ≤ tenant.length

/-- How a handler fails: with an `HTTPException`, or with what nothing in it catches. -/
inductive HandlerExc where
  | http (statusCode : Nat) (detail : String)
  | raised (e : PyExc)
  deriving DecidableEq

/-- The status of the answer. Only an `AegisError` has a handler of its own. -/
def HandlerExc.status : HandlerExc → Nat
  | .http statusCode _ => statusCode
  | .raised (.aegis e) => e.statusCode
  | .raised _ => 500

/-! ## The translation -/

section

variable (P : Platform) (isPrintable : Char → Bool)

/-- What stands under `json_schema` where the format asks for a schema. -/
def specification : Option Object → Option Json
  | some format => match format.lookup "type" with
    | some (.str "json_schema") => some ((format.lookup "json_schema").getD .null)
    | _ => none
  | none => none

def missingSchema : HandlerExc := .http 422 "response_format.json_schema.schema is required"

/-- `_compat_schema`. Only a dictionary has a `get`. -/
def compatSchema (responseFormat : Option Object) : Except HandlerExc (Option Object × String) :=
  match specification responseFormat with
  | none => .ok (none, "gateway_response")
  | some value => do
    let fields ← if truthy value then
        match value with
        | .obj fields => .ok fields
        | _ => .error (.raised (.other "AttributeError"))
      else .ok []
    match fields.lookup "schema" with
    | some (.obj schema) =>
      let name := (fields.lookup "name").getD (.str "gateway_response")
      .ok (some schema, String.ofList (strValue P.floatRepr isPrintable name))
    | _ => .error missingSchema

def compatRequest (tenant : String) (body : OpenAICompatRequest) (id : String)
    (schema : Option Object × String) : GatewayRequest where
  tenantId := tenant
  requestId := id
  userId := body.user
  messages := body.messages
  stream := body.stream
  temperature := body.temperature
  maxOutputTokens := body.maxTokens
  responseSchema := schema.1
  schemaName := schema.2

def OpenAICompatRequest.forcedRoute (body : OpenAICompatRequest) : Option String :=
  if body.model = "auto" then none else some body.model

/-- `openai_compat`, up to its call of the service. -/
def openaiCompat (tenant : String) (body : OpenAICompatRequest) (id : String) :
    Except HandlerExc Call := do
  let schema ← compatSchema P isPrintable body.responseFormat
  let request ← (compatRequest tenant body id schema).validate.mapError .raised
  if body.stream then .ok (.stream request body.forcedRoute)
  else .ok (.generate request body.forcedRoute)

end

/-! ## What the translation needs -/

/-- The body is refused, or it becomes a request that is valid. -/
def Translated (out : Except HandlerExc Call) : Prop :=
  (∃ detail, out = .error (.http 422 detail)) ∨
    ∃ call args, out = .ok call ∧ Service.callArguments call = some args ∧
      args.request.fieldsValid = true

/-- The bounds of `GatewayRequest` that the endpoint does not check itself. -/
structure FieldsFit (tenant : String) (body : OpenAICompatRequest) : Prop where
  tenant : tenant.length ≤ 128 ∧ tenant.toList.all isIdChar = true
  user : ∀ user ∈ body.user, user.length ≤ 256
  messages : body.messages.length ≤ 256

/-- The format asks for a schema, with this value under `json_schema`. -/
def Asks (responseFormat : Option Object) (value : Json) : Prop :=
  ∃ format ∈ responseFormat, format.lookup "type" = some (.str "json_schema") ∧
    (format.lookup "json_schema").getD .null = value

/-- The value under `json_schema` says nothing, or is a dictionary without a schema in it. -/
def Schemaless (value : Json) : Prop :=
  truthy value = false ∨
    ∃ fields, value = .obj fields ∧ ∀ schema, fields.lookup "schema" ≠ some (.obj schema)

def NameFits (P : Platform) : Json → Prop
  | .null | .bool _ | .int _ => True
  | .float x => '.' ∉ P.floatRepr x ∧ '+' ∉ P.floatRepr x
  | .str s => s ≠ "" ∧ s.toList.all isSchemaNameChar = true
  | .arr _ | .obj _ => False

/-- The value under `json_schema` gives a schema, and no name that does not fit. -/
def Named (P : Platform) (value : Json) : Prop :=
  ∃ fields schema, value = .obj fields ∧ fields.lookup "schema" = some (.obj schema) ∧
    ∀ name ∈ fields.lookup "name", NameFits P name

/-! ## The schema and its name -/

theorem specification_eq_some_iff {responseFormat : Option Object} {value : Json} :
    specification responseFormat = some value ↔ Asks responseFormat value := by
  unfold specification Asks
  cases responseFormat with
  | none => simp
  | some format =>
    simp only [Option.mem_def, Option.some.injEq, exists_eq_left']
    split
    · next htype => simp [htype]
    · next htype =>
      simp only [reduceCtorEq, false_iff, not_and]
      exact fun h => absurd h htype

section

variable {P : Platform} {isPrintable : Char → Bool} {responseFormat : Option Object} {value : Json}

theorem compatSchema_plain (h : specification responseFormat = none) :
    compatSchema P isPrintable responseFormat = .ok (none, "gateway_response") := by
  rw [compatSchema, h]

/-- The dictionary `{}` stands for every value that counts as false. -/
theorem compatSchema_obj {fields : Object} (h : specification responseFormat = some (.obj fields)) :
    compatSchema P isPrintable responseFormat = match fields.lookup "schema" with
      | some (.obj schema) => .ok (some schema, String.ofList (strValue P.floatRepr isPrintable
          ((fields.lookup "name").getD (.str "gateway_response"))))
      | _ => .error missingSchema := by
  rw [compatSchema, h]
  cases fields with
  | nil => rfl
  | cons field fields => rfl

theorem compatSchema_schemaless (h : specification responseFormat = some value)
    (hvalue : Schemaless value) : compatSchema P isPrintable responseFormat = .error missingSchema := by
  rcases hvalue with hfalse | ⟨fields, rfl, hschema⟩
  · rw [compatSchema, h]
    simp only [hfalse]
    rfl
  · rw [compatSchema_obj h]
    split
    · next schema hlookup => exact absurd hlookup (hschema schema)
    · rfl

theorem compatSchema_named {fields schema : Object}
    (h : specification responseFormat = some (.obj fields))
    (hschema : fields.lookup "schema" = some (.obj schema)) :
    compatSchema P isPrintable responseFormat = .ok (some schema, String.ofList
      (strValue P.floatRepr isPrintable ((fields.lookup "name").getD (.str "gateway_response")))) := by
  rw [compatSchema_obj h, hschema]

theorem given_of_not (hother : ¬ (truthy value = true ∧ ∀ fields, value ≠ .obj fields))
    (hschemaless : ¬ Schemaless value) :
    ∃ fields schema, value = .obj fields ∧ fields.lookup "schema" = some (.obj schema) := by
  rw [Schemaless] at hschemaless
  push Not at hother hschemaless
  obtain ⟨fields, hfields⟩ := hother (Bool.not_eq_false _ ▸ hschemaless.1)
  obtain ⟨schema, hschema⟩ := hschemaless.2 fields hfields
  exact ⟨fields, schema, hfields, hschema⟩

theorem compatSchema_other (h : specification responseFormat = some value)
    (htrue : truthy value = true) (hother : ∀ fields, value ≠ .obj fields) :
    compatSchema P isPrintable responseFormat = .error (.raised (.other "AttributeError")) := by
  rw [compatSchema, h]
  simp only [htrue]
  cases value with
  | obj fields => exact absurd rfl (hother fields)
  | _ => rfl

theorem schemaNameChar_of_digit {c : Char} (h : c.isDigit = true) : isSchemaNameChar c = true := by
  simp [isSchemaNameChar, Char.isAlphanum, h]

theorem schemaNameChar_of_number {c : Char} (h : isNumberChar c = true) :
    isSchemaNameChar c = true ↔ c ≠ '.' ∧ c ≠ '+' := by
  simp only [isNumberChar, Bool.or_eq_true, decide_eq_true_eq, List.mem_cons, List.not_mem_nil,
    or_false] at h
  rcases h with hdigit | rfl | rfl | rfl | rfl
  · simp only [schemaNameChar_of_digit hdigit, true_iff]
    constructor
    · rintro rfl
      cases hdigit
    · rintro rfl
      cases hdigit
  all_goals decide

theorem finite_fits_iff (hfloat : FloatText P.floatRepr) {x : PyFloat} (hx : x.isFinite = true) :
    P.floatRepr x ≠ [] ∧ (∀ c ∈ P.floatRepr x, isSchemaNameChar c = true) ↔
      '.' ∉ P.floatRepr x ∧ '+' ∉ P.floatRepr x := by
  have hchar : ∀ c ∈ P.floatRepr x, (isSchemaNameChar c = true ↔ c ≠ '.' ∧ c ≠ '+') :=
    fun c hc => schemaNameChar_of_number (hfloat.number x hx c hc)
  constructor
  · rintro ⟨-, hall⟩
    exact ⟨fun hc => ((hchar _ hc).mp (hall _ hc)).1 rfl,
      fun hc => ((hchar _ hc).mp (hall _ hc)).2 rfl⟩
  · rintro ⟨hpoint, hplus⟩
    refine ⟨hfloat.ne_nil hx, fun c hc => (hchar c hc).mpr ⟨?_, ?_⟩⟩
    · rintro rfl
      exact hpoint hc
    · rintro rfl
      exact hplus hc

/-- The words that `str` and `json.dumps` have for the other floats are different ones. -/
theorem reprFloat_fits_iff (hfloat : FloatText P.floatRepr) (x : PyFloat) :
    reprFloat P.floatRepr x ≠ [] ∧
      (∀ c ∈ reprFloat P.floatRepr x, isSchemaNameChar c = true) ↔
        '.' ∉ P.floatRepr x ∧ '+' ∉ P.floatRepr x := by
  rcases x with x | _ | _ | negative
  · exact finite_fits_iff hfloat rfl
  · exact finite_fits_iff hfloat rfl
  · rw [hfloat.nan]
    simp only [reprFloat]
    exact iff_of_true ⟨List.cons_ne_nil _ _, List.all_eq_true.mp (by decide)⟩ (by decide)
  · rw [hfloat.infinity]
    cases negative with
    | false =>
      simp only [reprFloat]
      exact iff_of_true ⟨List.cons_ne_nil _ _, List.all_eq_true.mp (by decide)⟩ (by decide)
    | true =>
      simp only [reprFloat]
      exact iff_of_true ⟨List.cons_ne_nil _ _, List.all_eq_true.mp (by decide)⟩ (by decide)

theorem strValue_fits_iff (hfloat : FloatText P.floatRepr) (name : Json) :
    strValue P.floatRepr isPrintable name ≠ [] ∧
      (∀ c ∈ strValue P.floatRepr isPrintable name, isSchemaNameChar c = true) ↔
        NameFits P name := by
  obtain ⟨harr, hobj⟩ := bracket_mem_strValue P.floatRepr isPrintable
  cases name with
  | null =>
    simp only [strValue, reprValue, NameFits, iff_true]
    exact ⟨List.cons_ne_nil _ _, List.all_eq_true.mp (by decide)⟩
  | bool b =>
    cases b with
    | true =>
      simp only [strValue, reprValue, NameFits, iff_true]
      exact ⟨List.cons_ne_nil _ _, List.all_eq_true.mp (by decide)⟩
    | false =>
      simp only [strValue, reprValue, NameFits, iff_true]
      exact ⟨List.cons_ne_nil _ _, List.all_eq_true.mp (by decide)⟩
  | int n =>
    simp only [strValue, reprValue, NameFits, iff_true]
    refine ⟨intText_ne_nil n, fun c hc => ?_⟩
    rcases intText_chars n c hc with hdigit | rfl
    · exact schemaNameChar_of_digit hdigit
    · decide
  | float x => exact reprFloat_fits_iff hfloat x
  | str s => simp [strValue_str, NameFits]
  | arr items =>
    simp only [NameFits, iff_false]
    intro h
    exact absurd (h.2 _ (harr items)) (by decide)
  | obj fields =>
    simp only [NameFits, iff_false]
    intro h
    exact absurd (h.2 _ (hobj fields)) (by decide)

theorem named_iff {fields schema : Object} (hschema : fields.lookup "schema" = some (.obj schema)) :
    Named P (.obj fields) ↔
      NameFits P ((fields.lookup "name").getD (.str "gateway_response")) := by
  have hnamed : Named P (.obj fields) ↔ ∀ name ∈ fields.lookup "name", NameFits P name := by
    constructor
    · rintro ⟨fields', _, hfields, -, hname⟩
      cases hfields
      exact hname
    · exact fun hname => ⟨fields, schema, rfl, hschema, hname⟩
  rw [hnamed]
  cases fields.lookup "name" with
  | none =>
    have hdefault : NameFits P (.str "gateway_response") := ⟨by decide, by decide +kernel⟩
    exact ⟨fun _ => hdefault, fun _ _ h => by cases h⟩
  | some name => simp

end

/-! ## The request -/

section

variable {tenant id : String} {body : OpenAICompatRequest}

theorem compatRequest_fieldsValid_iff (htenant : tenantHeaderValid tenant = true)
    (hbody : body.fieldsValid = true) (hid : id.length = 36) (schema : Option Object × String) :
    (compatRequest tenant body id schema).fieldsValid = true ↔ FieldsFit tenant body ∧
      schema.2.toList ≠ [] ∧ ∀ c ∈ schema.2.toList, isSchemaNameChar c = true := by
  have hlength : 1 ≤ schema.2.length ↔ schema.2.toList ≠ [] := by
    rw [← String.length_toList, Nat.one_le_iff_ne_zero, ne_eq, List.length_eq_zero_iff]
  have huser : body.user.all (lengthWithin 0 256) = true ↔ ∀ user ∈ body.user, user.length ≤ 256 := by
    simp [Option.all_eq_true, lengthWithin]
  simp only [tenantHeaderValid, decide_eq_true_eq] at htenant
  simp only [OpenAICompatRequest.fieldsValid, Bool.and_eq_true, decide_eq_true_eq] at hbody
  obtain ⟨⟨⟨⟨hsome, hmessages⟩, htemperature⟩, hlow⟩, hhigh⟩ := hbody
  have hname : schema.2.toList.all isSchemaNameChar = true ↔
      ∀ c ∈ schema.2.toList, isSchemaNameChar c = true := List.all_eq_true
  have hcost : (0 : ℚ) ≤ 1 / 20 ∧ (1 / 20 : ℚ) ≤ 1000 := by norm_num
  unfold GatewayRequest.fieldsValid compatRequest
  simp only [lengthWithin, Bool.and_eq_true, decide_eq_true_eq, Option.all_none, Nat.reduceLeDiff,
    huser, hlength, htenant, hid, hsome, hmessages, htemperature, hlow, hhigh, hcost, hname,
    and_true, true_and]
  constructor
  · rintro ⟨⟨⟨⟨htenant, huser⟩, hmany⟩, hne⟩, hname⟩
    exact ⟨⟨htenant, huser, hmany⟩, hne, hname⟩
  · rintro ⟨⟨htenant, huser, hmany⟩, hne, hname⟩
    exact ⟨⟨⟨⟨htenant, huser⟩, hmany⟩, hne⟩, hname⟩

variable {P : Platform} {isPrintable : Char → Bool}

theorem openaiCompat_error {e : HandlerExc}
    (h : compatSchema P isPrintable body.responseFormat = .error e) :
    openaiCompat P isPrintable tenant body id = .error e := by
  rw [openaiCompat, h]
  rfl

theorem openaiCompat_of_schema {schema : Option Object × String}
    (h : compatSchema P isPrintable body.responseFormat = .ok schema) :
    openaiCompat P isPrintable tenant body id =
      ((compatRequest tenant body id schema).validate.mapError .raised).bind fun request =>
        if body.stream then .ok (.stream request body.forcedRoute)
        else .ok (.generate request body.forcedRoute) := by
  rw [openaiCompat, h]
  rfl

theorem not_translated_raised (e : PyExc) : ¬ Translated (.error (.raised e)) := by
  rintro (⟨detail, hdetail⟩ | ⟨call, args, hcall, -⟩)
  · cases hdetail
  · cases hcall

theorem translated_of_schema_iff {schema : Option Object × String}
    (h : compatSchema P isPrintable body.responseFormat = .ok schema) :
    Translated (openaiCompat P isPrintable tenant body id) ↔
      (compatRequest tenant body id schema).fieldsValid = true := by
  rw [openaiCompat_of_schema h, GatewayRequest.validate]
  by_cases hvalid : (compatRequest tenant body id schema).fieldsValid = true
  · rw [if_pos hvalid]
    refine iff_of_true (.inr ?_) hvalid
    cases body.stream with
    | true => exact ⟨_, _, rfl, rfl, hvalid⟩
    | false => exact ⟨_, _, rfl, rfl, hvalid⟩
  · rw [if_neg hvalid]
    exact iff_of_false (not_translated_raised _) hvalid

end

/-! ## The whole translation -/

/-- The endpoint answers 422 or makes a valid request exactly if the format asks for a schema that
is missing, or all the bounds of the gateway's own request are met. -/
theorem compat_total_iff {P : Platform} (hfloat : FloatText P.floatRepr) (isPrintable : Char → Bool)
    {tenant id : String} {body : OpenAICompatRequest} (htenant : tenantHeaderValid tenant = true)
    (hbody : body.fieldsValid = true) (hid : id.length = 36) :
    Translated (openaiCompat P isPrintable tenant body id) ↔
      (∃ value, Asks body.responseFormat value ∧ Schemaless value) ∨
        FieldsFit tenant body ∧ ∀ value, Asks body.responseFormat value → Named P value := by
  simp only [← specification_eq_some_iff]
  cases hformat : specification body.responseFormat with
  | none =>
    rw [translated_of_schema_iff (compatSchema_plain hformat),
      compatRequest_fieldsValid_iff htenant hbody hid]
    have hdefault : "gateway_response".toList ≠ [] ∧
        ∀ c ∈ "gateway_response".toList, isSchemaNameChar c = true :=
      ⟨by decide +kernel, List.all_eq_true.mp (by decide +kernel)⟩
    rw [and_iff_left hdefault]
    simp only [reduceCtorEq, false_and, exists_false, false_or, false_implies, implies_true,
      and_true]
  | some value =>
    simp only [Option.some.injEq, exists_eq_left', forall_eq']
    by_cases hother : truthy value = true ∧ ∀ fields, value ≠ .obj fields
    · -- The value has no `get`.
      rw [openaiCompat_error (compatSchema_other hformat hother.1 hother.2)]
      apply iff_of_false (not_translated_raised _)
      rintro ((hfalse | ⟨fields, rfl, -⟩) | ⟨-, fields, schema, rfl, -⟩)
      · rw [hother.1] at hfalse
        cases hfalse
      · exact absurd rfl (hother.2 fields)
      · exact absurd rfl (hother.2 fields)
    by_cases hschemaless : Schemaless value
    · rw [openaiCompat_error (compatSchema_schemaless hformat hschemaless)]
      exact ⟨fun _ => .inl hschemaless, fun _ => .inl ⟨_, rfl⟩⟩
    · obtain ⟨fields, schema, rfl, hschema⟩ := given_of_not hother hschemaless
      rw [translated_of_schema_iff (compatSchema_named hformat hschema),
        compatRequest_fieldsValid_iff htenant hbody hid, String.toList_ofList,
        strValue_fits_iff hfloat, ← named_iff hschema]
      simp only [hschemaless, false_or]

def plainBody : OpenAICompatRequest := { messages := [⟨.user, "hello", none⟩] }

def formattedBody (specification : Json) : OpenAICompatRequest :=
  { plainBody with
    responseFormat := some [("type", .str "json_schema"), ("json_schema", specification)] }

def healthBody : OpenAICompatRequest :=
  formattedBody (.obj [("name", .str "health"), ("schema", .obj [("type", .str "object")])])

theorem compat_total_health :
    Translated (openaiCompat Sample.platform (fun _ => true) "default" healthBody zeroUuid) := by
  refine (compat_total_iff Sample.floatText _ (by decide) (by decide +kernel) zeroUuid_length).mpr
    (.inr ⟨⟨by decide +kernel, by simp [healthBody, formattedBody, plainBody], by decide⟩, ?_⟩)
  rintro value ⟨format, hformat, -, rfl⟩
  obtain rfl := Option.some.inj hformat
  refine ⟨_, _, rfl, rfl, ?_⟩
  rintro name ⟨⟩
  exact ⟨by decide, by decide +kernel⟩

/-! A blank in the name of the tenant, and a list where the specification of the schema should
be. The endpoint's own model accepts both. -/

theorem compat_server_error :
    (tenantHeaderValid "tenant a" = true ∧ plainBody.fieldsValid = true ∧
      openaiCompat Sample.platform (fun _ => true) "tenant a" plainBody zeroUuid =
        .error (.raised invalidModel) ∧
      ¬ Translated (openaiCompat Sample.platform (fun _ => true) "tenant a" plainBody zeroUuid)) ∧
    (tenantHeaderValid "default" = true ∧ (formattedBody (.arr [.null])).fieldsValid = true ∧
      openaiCompat Sample.platform (fun _ => true) "default" (formattedBody (.arr [.null])) zeroUuid =
        .error (.raised (.other "AttributeError")) ∧
      ¬ Translated (openaiCompat Sample.platform (fun _ => true) "default"
        (formattedBody (.arr [.null])) zeroUuid)) := by
  have htenant : openaiCompat Sample.platform (fun _ => true) "tenant a" plainBody zeroUuid =
      .error (.raised invalidModel) := by
    rw [openaiCompat_of_schema (compatSchema_plain rfl), GatewayRequest.validate,
      if_neg (by decide +kernel)]
    rfl
  have hlist : openaiCompat Sample.platform (fun _ => true) "default" (formattedBody (.arr [.null]))
      zeroUuid = .error (.raised (.other "AttributeError")) := rfl
  refine ⟨⟨by decide, by decide +kernel, htenant, ?_⟩, by decide, by decide +kernel, hlist, ?_⟩
  · rw [htenant]
    exact not_translated_raised _
  · rw [hlist]
    exact not_translated_raised _

end AegisGateway
