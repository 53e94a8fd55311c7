import AegisGateway.Adapters
import AegisGateway.Artifacts
import AegisGateway.Lib.JsonPrinting
import AegisGateway.Lib.Lines

/-!
# The event stream of the gateway

`_sse` of `api/app.py`, read back by `iter_sse_json`. A payload is written in printable
ASCII on one line, so its strings cannot end a line, and no payload is the sentinel.
-/

open JsonText Lines

namespace AegisGateway

open ArtifactRegistry

def GatewayEventType.value : GatewayEventType → String
  | .start => "start"
  | .delta => "delta"
  | .done => "done"
  | .error => "error"

/-- `json.dumps(payload, separators=(',', ':'))`. -/
def payloadText (P : Platform) (payload : Object) : List Char :=
  text P.floatRepr .compact (.obj payload)

/-- `_sse`. -/
def sse (P : Platform) (event : GatewayEventType) (payload : Object) : String :=
  "event: " ++ event.value ++ "\ndata: " ++ String.ofList (payloadText P payload) ++ "\n\n"

def eventStream (P : Platform) (events : List (GatewayEventType × Object)) : String :=
  String.join (events.map fun e => sse P e.1 e.2)

/-- What `lstrip` strips in front of a payload: the blank, and not the brace. -/
structure Strips (P : Platform) : Prop where
  space : P.isSpace ' ' = true
  brace : P.isSpace (Char.ofNat 123) = false

/-! ## The lines of a frame -/

theorem isBreak_of_printable {c : Char} (h : Printable c) : isBreak c = false := by
  obtain ⟨hlow, hhigh⟩ := h
  simp only [isBreak, Bool.or_eq_false_iff, Bool.and_eq_false_iff, decide_eq_false_iff_not]
  omega

def eventLine (event : GatewayEventType) : List Char := "event: ".toList ++ event.value.toList

def dataLine (P : Platform) (payload : Object) : List Char :=
  "data: ".toList ++ payloadText P payload

theorem unbroken_of_all {cs : List Char} (h : cs.all (fun c => !isBreak c) = true) :
    ∀ c ∈ cs, isBreak c = false := fun c hc => by simpa using List.all_eq_true.mp h c hc

theorem eventLine_unbroken (event : GatewayEventType) :
    ∀ c ∈ eventLine event, isBreak c = false := by
  cases event <;> exact unbroken_of_all (by decide)

variable {P : Platform} {floatOf : List Char → PyFloat} {payload : Object}

theorem payloadText_printable (hP : Decodes P floatOf) (hp : Distinct (.obj payload)) :
    ∀ c ∈ payloadText P payload, Printable c :=
  text_printable hP.text compact_plain hp

theorem dataLine_unbroken (hP : Decodes P floatOf) (hp : Distinct (.obj payload)) :
    ∀ c ∈ dataLine P payload, isBreak c = false := by
  refine List.forall_mem_append.mpr ⟨unbroken_of_all (by decide), fun c hc => ?_⟩
  exact isBreak_of_printable (payloadText_printable hP hp c hc)

theorem sse_toList (event : GatewayEventType) (payload : Object) (rest : List Char) :
    (sse P event payload).toList ++ rest =
      eventLine event ++ '\n' :: (dataLine P payload ++ '\n' :: ([] ++ '\n' :: rest)) := by
  have hdata : "\ndata: ".toList = '\n' :: "data: ".toList := by simp
  have hend : "\n\n".toList = ['\n', '\n'] := by simp
  unfold sse eventLine dataLine
  generalize payloadText P payload = cs
  rw [String.toList_append, String.toList_append, String.toList_append, String.toList_append,
    hdata, hend]
  simp only [String.toList_ofList, List.append_assoc, List.cons_append, List.nil_append]

theorem splitlines_sse (hP : Decodes P floatOf) (hp : Distinct (.obj payload))
    (event : GatewayEventType) (rest : String) :
    splitlines (sse P event payload ++ rest) = String.ofList (eventLine event) ::
      String.ofList (dataLine P payload) :: "" :: splitlines rest := by
  unfold splitlines
  rw [String.toList_append, sse_toList, split_line (eventLine_unbroken event),
    split_line (dataLine_unbroken hP hp), split_line (by simp)]
  rfl

/-! ## Reading a frame back -/

theorem payloadText_eq (P : Platform) (payload : Object) : ∃ rest,
    payloadText P payload = Char.ofNat 123 :: rest :=
  ⟨_, rfl⟩

theorem frameValue_payload (hP : Decodes P floatOf) (hp : Distinct (.obj payload)) :
    frameValue P [String.ofList (payloadText P payload)] = .ok [payload] := by
  have hread := hP.loads _ _ (loads_text hP.text hP.reading compact_spaced hp)
  have hsentinel : String.ofList (payloadText P payload) ≠ "[DONE]" := by
    intro h
    have hlist := congrArg String.toList h
    rw [String.toList_ofList] at hlist
    cases hlist
  exact frameValue_of_loads (List.cons_ne_nil _ _) hsentinel hread

theorem iterSseJson_sse (hP : Decodes P floatOf) (hs : Strips P) (hp : Distinct (.obj payload))
    (event : GatewayEventType) (lines : List String) :
    iterSseJson P none [] (String.ofList (eventLine event) ::
      String.ofList (dataLine P payload) :: "" :: lines) =
    (payload :: (iterSseJson P none [] lines).1, (iterSseJson P none [] lines).2) := by
  have hstrip : String.ofList (((String.ofList (dataLine P payload)).toList.drop 5).dropWhile
      P.isSpace) = String.ofList (payloadText P payload) := by
    rw [String.toList_ofList]
    change String.ofList ((' ' :: payloadText P payload).dropWhile P.isSpace) = _
    obtain ⟨rest, hrest⟩ := payloadText_eq P payload
    rw [List.dropWhile_cons_of_pos hs.space, hrest, List.dropWhile_cons_of_neg (by simp [hs.brace])]
  have hevent : iterSseJson P none [] (String.ofList (eventLine event) ::
      String.ofList (dataLine P payload) :: "" :: lines) =
      iterSseJson P none [] (String.ofList (dataLine P payload) :: "" :: lines) := by
    rw [iterSseJson]
    cases event <;> rfl
  have hdata : iterSseJson P none [] (String.ofList (dataLine P payload) :: "" :: lines) =
      iterSseJson P none [String.ofList (payloadText P payload)] ("" :: lines) := by
    have hne : String.ofList (dataLine P payload) ≠ "" := by
      intro h
      have hlist := congrArg String.toList h
      rw [String.toList_ofList] at hlist
      cases hlist
    have htake : (String.ofList (dataLine P payload)).toList.take 5 = "data:".toList := by
      rw [String.toList_ofList]
      rfl
    rw [iterSseJson, if_neg hne, if_pos htake, hstrip]
    rfl
  rw [hevent, hdata, iterSseJson, if_pos rfl, frameValue_payload hP hp]
  rfl

/-- The event stream is read back payload by payload, in order. -/
theorem eventStream_faithful (hP : Decodes P floatOf) (hs : Strips P)
    (events : List (GatewayEventType × Object)) (hd : ∀ e ∈ events, Distinct (.obj e.2)) :
    iterSseJson P none [] (splitlines (eventStream P events)) = (events.map (·.2), none) := by
  induction events with
  | nil => rfl
  | cons e events ih =>
    obtain ⟨he, hd⟩ := List.forall_mem_cons.mp hd
    have hjoin : eventStream P (e :: events) = sse P e.1 e.2 ++ eventStream P events := by
      simp [eventStream, String.join_cons]
    rw [hjoin, splitlines_sse hP he, iterSseJson_sse hP hs he, ih hd]
    rfl

/-! A text that looks like the end of the stream, and like more of it. -/

def strippingPlatform : Platform := { decodingPlatform with isSpace := fun c => c = ' ' }

theorem strippingPlatform_strips : Strips strippingPlatform where
  space := rfl
  brace := by decide

theorem strippingPlatform_decodes : Decodes strippingPlatform ArtifactRegistry.floatOf where
  text := Sample.floatText
  reading := floatReading
  loads := decodingPlatform_decodes.loads

def forged : Object := [("delta", .str "\n\ndata: [DONE]\n\nevent: done\u2028")]

theorem forged_distinct : Distinct (.obj forged) :=
  .obj (by decide) (List.forall_mem_singleton.mpr (.str _))

theorem eventStream_faithful_forged :
    iterSseJson strippingPlatform none [] (splitlines (eventStream strippingPlatform
      [(.delta, forged), (.done, [])])) = ([forged, []], none) :=
  eventStream_faithful strippingPlatform_decodes strippingPlatform_strips
    [(.delta, forged), (.done, [])]
    (by simp [forged_distinct, Distinct.obj])

end AegisGateway
