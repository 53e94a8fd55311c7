import AegisGateway.EventStream
import AegisGateway.Lib.JsonLines

/-!
# Decoding a stream of frames

What `iter_sse_json` makes of frames with other fields and comments in them. The transport ends
a line at more characters than the protocol does, and three of them are plain text in a string.
-/

open JsonText Lines

namespace AegisGateway

/-- A line of a frame: a line of its data, or another field or a comment. -/
inductive FieldLine where
  | data (blank : Bool) (content : List Char)
  | side (line : List Char)

abbrev Frame := List FieldLine

def dataPrefix : List Char := "data:".toList

def FieldLine.line : FieldLine → List Char
  | .data blank content => dataPrefix ++ (if blank then ' ' :: content else content)
  | .side line => line

def FieldLine.content? : FieldLine → Option (List Char)
  | .data _ content => some content
  | .side _ => none

def contents (frame : Frame) : List (List Char) := frame.filterMap FieldLine.content?

/-- The lines of a stream, with a blank line between two frames. An empty frame at the end ends
the last line, and one more is the blank line behind it. -/
def streamLines (frames : List Frame) : List (List Char) :=
  [[]].intercalate (frames.map (·.map FieldLine.line))

/-- What the transport delivers of a stream. -/
def transported (eol : Eol) (frames : List Frame) : List String :=
  splitlines (String.ofList (wire eol (streamLines frames)))

/-- The frames of some texts, each with its object: the lines of each text, and frames without
one. -/
inductive Encodes (floatOf : List Char → PyFloat) : List Frame → List (String × Object) → Prop
  | nil : Encodes floatOf [] []
  | value {text : String} {value : Object} {frame : Frame} {frames : List Frame}
    {entries : List (String × Object)} (hloads : loads floatOf text = some (.obj value))
    (hframe : contents frame = textLines text.toList) (h : Encodes floatOf frames entries) :
    Encodes floatOf (frame :: frames) ((text, value) :: entries)
  | sentinel {frame : Frame} {frames : List Frame} {entries : List (String × Object)}
    (hframe : contents frame = ["[DONE]".toList]) (h : Encodes floatOf frames entries) :
    Encodes floatOf (frame :: frames) entries
  | silent {frame : Frame} {frames : List Frame} {entries : List (String × Object)}
    (hframe : contents frame = []) (h : Encodes floatOf frames entries) :
    Encodes floatOf (frame :: frames) entries

/-- `json.loads` takes each of the texts. It takes no integer of too many digits, and no text that
is nested too deep. -/
def Readable (P : Platform) (entries : List (String × Object)) : Prop :=
  ∀ e ∈ entries, P.jsonLoads e.1 = .ok (.obj e.2)

def sideFields : List String := ["event:", "id:", "retry:", ":"]

/-- A line of a field that is no data, or a comment. -/
structure SideLine (line : List Char) : Prop where
  field : ∃ field ∈ sideFields, field.toList <+: line
  oneLine : OneLine line

/-- No segment of the line is taken for the end of a frame, or for data. -/
def Inert (line : List Char) : Prop :=
  ∀ segment ∈ segments line, segment ≠ [] ∧ segment.take 5 ≠ dataPrefix

def Unbroken (line : List Char) : Prop := ∀ c ∈ line, isBreak c = false

/-- `φ` holds of every line that is no data. -/
def Sided (φ : List Char → Prop) (frames : List Frame) : Prop :=
  ∀ frame ∈ frames, ∀ line, .side line ∈ frame → φ line

/-- `φ` holds of what every line of data says. -/
def Filled (φ : List Char → Prop) (frames : List Frame) : Prop :=
  ∀ frame ∈ frames, ∀ blank content, .data blank content ∈ frame → φ content

/-- What `json.loads` makes of a text that it takes and what it cannot take, and what `lstrip`
strips. White space between the tokens does not matter. -/
structure Reads (P : Platform) (floatOf : List Char → PyFloat) : Prop where
  agrees : ∀ s j j', loads floatOf s = some j → P.jsonLoads s = .ok j' → j' = j
  spacing : ∀ s s' j, loads floatOf s = some j → loads floatOf s' = some j →
    unspaced .outside s.toList = unspaced .outside s'.toList →
    P.jsonLoads s = .ok j → P.jsonLoads s' = .ok j
  strict : ∀ s j, P.jsonLoads s = .ok j → Lex.over .outside s.toList = .outside
  visible : ∀ c, isVisible c = true → P.isSpace c = false
  blank : P.isSpace ' ' = true

variable {P : Platform} {floatOf : List Char → PyFloat} {frame : Frame} {frames : List Frame}
  {entries : List (String × Object)} {dataLines : List String}

/-! ## The lines of a stream -/

theorem iterSseJson_blank (lines : List String) :
    iterSseJson P none dataLines (lines ++ [""]) = iterSseJson P none dataLines lines := by
  induction lines generalizing dataLines with
  | nil =>
    have hnil : frameValue P [] = .ok [] := rfl
    cases h : frameValue P dataLines with
    | error e => simp [iterSseJson, h]
    | ok values => simp [iterSseJson, h, hnil]
  | cons line lines ih =>
    simp only [List.cons_append, iterSseJson]
    split_ifs
    · rw [ih]
    · exact ih
    · exact ih

def segmentLines (line : List Char) : List String := (segments line).map String.ofList

def received (frame : Frame) : List String := frame.flatMap fun line => segmentLines line.line

theorem streamLines_blank (frame : Frame) (frames : List Frame) :
    streamLines (frame :: frames) ++ [[]] =
      (frame :: frames).flatMap fun frame => frame.map FieldLine.line ++ [[]] := by
  induction frames generalizing frame with
  | nil => simp [streamLines, List.intercalate]
  | cons frame' frames ih =>
    have hrest := ih frame'
    simp only [streamLines, List.map_cons, List.intercalate_cons_cons, List.append_assoc] at hrest ⊢
    rw [hrest]
    simp

theorem iterSseJson_transported (eol : Eol) (h : ∀ line ∈ streamLines frames, OneLine line) :
    iterSseJson P none [] (transported eol frames) =
      iterSseJson P none [] (frames.flatMap fun frame => received frame ++ [""]) := by
  cases frames with
  | nil => rfl
  | cons frame frames =>
    obtain ⟨t, hsplit, ht⟩ := @split_wire eol _ h
    have htransported : transported eol (frame :: frames) ++ t.map String.ofList =
        ((streamLines (frame :: frames)).flatMap segments).map String.ofList := by
      rw [hsplit, List.map_append, transported, splitlines, String.toList_ofList]
    have hblank : ((frame :: frames).flatMap fun frame => received frame ++ [""]) =
        transported eol (frame :: frames) ++ t.map String.ofList ++ [""] := by
      have hlines := congrArg (fun lines => (lines.flatMap segments).map String.ofList)
        (streamLines_blank frame frames)
      simp only [List.flatMap_append, List.map_append, ← htransported] at hlines
      refine Eq.trans ?_ hlines.symm
      simp only [List.map_flatMap, List.flatMap_assoc, List.flatMap_append, List.map_append,
        List.flatMap_map, received, segmentLines]
      rfl
    rw [hblank, iterSseJson_blank]
    rcases ht with rfl | rfl
    · rw [List.map_nil, List.append_nil]
    · exact (iterSseJson_blank _).symm

/-! ## A frame that is whole -/

def kept (P : Platform) (content : List Char) : String :=
  String.ofList (content.dropWhile P.isSpace)

theorem kept_line (hP : Reads P floatOf) (blank : Bool) (content : List Char) :
    ((FieldLine.data blank content).line.drop 5).dropWhile P.isSpace =
      content.dropWhile P.isSpace := by
  cases blank with
  | false => rfl
  | true => exact List.dropWhile_cons_of_pos hP.blank

theorem iterSseJson_data (hP : Reads P floatOf) (blank : Bool) (content : List Char)
    (lines : List String) :
    iterSseJson P none dataLines (String.ofList (FieldLine.data blank content).line :: lines) =
      iterSseJson P none (dataLines ++ [kept P content]) lines := by
  have hne : String.ofList (FieldLine.data blank content).line ≠ "" := by
    intro h
    have hlist := congrArg String.toList h
    rw [String.toList_ofList] at hlist
    cases hlist
  have htake : (FieldLine.data blank content).line.take 5 = "data:".toList := rfl
  rw [iterSseJson, if_neg hne, String.toList_ofList, if_pos htake, kept_line hP]
  rfl

theorem iterSseJson_inert {line : List Char} (h : Inert line) (lines : List String) :
    iterSseJson P none dataLines (segmentLines line ++ lines) =
      iterSseJson P none dataLines lines := by
  unfold Inert at h
  unfold segmentLines
  generalize segments line = ls at h
  induction ls with
  | nil => rfl
  | cons l ls ih =>
    obtain ⟨⟨hne, hdata⟩, hls⟩ := List.forall_mem_cons.mp h
    have hline : String.ofList l ≠ "" := by
      intro heq
      have hlist := congrArg String.toList heq
      rw [String.toList_ofList] at hlist
      exact hne hlist
    have hother : l.take 5 ≠ "data:".toList := hdata
    rw [List.map_cons, List.cons_append, iterSseJson, if_neg hline, String.toList_ofList,
      if_neg hother, ih hls]

theorem dataPrefix_unbroken : Unbroken dataPrefix := unbroken_of_all (by decide)

theorem FieldLine.unbroken_line {blank : Bool} {content : List Char} (h : Unbroken content) :
    Unbroken (FieldLine.data blank content).line := by
  refine List.forall_mem_append.mpr ⟨dataPrefix_unbroken, ?_⟩
  split_ifs
  · exact List.forall_mem_cons.mpr ⟨rfl, h⟩
  · exact h

theorem iterSseJson_received (hP : Reads P floatOf)
    (hdata : ∀ blank content, .data blank content ∈ frame → Unbroken content)
    (hside : ∀ line, .side line ∈ frame → Inert line) (lines : List String) :
    iterSseJson P none dataLines (received frame ++ lines) =
      iterSseJson P none (dataLines ++ (contents frame).map (kept P)) lines := by
  induction frame generalizing dataLines with
  | nil => simp [received, contents]
  | cons line frame ih =>
    have hdatas : ∀ blank content, .data blank content ∈ frame → Unbroken content :=
      fun blank content h => hdata blank content (List.mem_cons_of_mem _ h)
    have hsides : ∀ line, .side line ∈ frame → Inert line :=
      fun line h => hside line (List.mem_cons_of_mem _ h)
    cases line with
    | data blank content =>
      have hunbroken := hdata blank content List.mem_cons_self
      have hlines : segmentLines (FieldLine.data blank content).line =
          [String.ofList (FieldLine.data blank content).line] := by
        rw [segmentLines, segments_unbroken (FieldLine.unbroken_line hunbroken)]
        rfl
      have hreceived : received (.data blank content :: frame) ++ lines =
          String.ofList (FieldLine.data blank content).line :: (received frame ++ lines) := by
        rw [received, List.flatMap_cons, hlines]
        rfl
      rw [hreceived, iterSseJson_data hP, ih hdatas hsides, List.append_assoc]
      rfl
    | side line =>
      have hreceived : received (.side line :: frame) ++ lines =
          segmentLines line ++ (received frame ++ lines) := by
        rw [received, List.flatMap_cons, List.append_assoc]
        rfl
      rw [hreceived, iterSseJson_inert (hside line List.mem_cons_self), ih hdatas hsides]
      rfl

theorem intercalate_kept (lines : List (List Char)) :
    "\n".intercalate (lines.map (kept P)) = String.ofList (folded P.isSpace lines) := by
  have hfeed : "\n".toList = ['\n'] := rfl
  have hkept : (lines.map (kept P)).map String.toList = lines.map (List.dropWhile P.isSpace) := by
    rw [List.map_map]
    exact List.map_congr_left fun line _ => String.toList_ofList
  rw [← String.toList_inj, String.toList_intercalate, hkept, hfeed, folded]
  exact String.toList_ofList.symm

def rejoined (P : Platform) (text : String) : String :=
  "\n".intercalate ((textLines text.toList).map (kept P))

theorem rejoined_eq (text : String) :
    rejoined P text = String.ofList (refill P.isSpace .start text.toList) := by
  rw [rejoined, intercalate_kept, folded_textLines]

/-- Put together again, the lines of a text are one of the same value and the same tokens. -/
theorem loads_rejoined (hP : Reads P floatOf) {text : String} {j : Json}
    (h : loads floatOf text = some j) :
    loads floatOf (rejoined P text) = some j ∧
      unspaced .outside (rejoined P text).toList = unspaced .outside text.toList := by
  rw [rejoined_eq, String.toList_ofList]
  exact ⟨loads_refill hP.visible h .start,
    unspaced_refill hP.visible (leads_of_loads h).orderly nofun⟩

theorem jsonLoads_rejoined (hP : Reads P floatOf) {text : String} {j : Json}
    (h : loads floatOf text = some j) :
    P.jsonLoads (rejoined P text) = .ok j ↔ P.jsonLoads text = .ok j := by
  obtain ⟨hloads, htokens⟩ := loads_rejoined hP h
  exact ⟨hP.spacing _ _ j hloads h htokens, hP.spacing _ _ j h hloads htokens.symm⟩

theorem rejoined_lines {text : String} {j : Json} (hP : Reads P floatOf)
    (h : loads floatOf text = some j) :
    (textLines text.toList).map (kept P) ≠ [] ∧ rejoined P text ≠ "[DONE]" := by
  obtain ⟨line, lines, hlines⟩ := linesFrom_ne_nil false text.toList
  refine ⟨?_, fun hsentinel => ?_⟩
  · rw [textLines, hlines]
    exact List.cons_ne_nil _ _
  · have hread := (loads_rejoined hP h).1
    rw [hsentinel] at hread
    cases hread

/-- A frame gives the object of its text, if `json.loads` takes the text at all. -/
theorem frameValue_text (hP : Reads P floatOf) {text : String} {value : Object}
    (h : loads floatOf text = some (.obj value))
    (hread : P.jsonLoads (rejoined P text) = .ok (.obj value)) :
    frameValue P ((textLines text.toList).map (kept P)) = .ok [value] := by
  obtain ⟨hne, hsentinel⟩ := rejoined_lines hP h
  exact frameValue_of_loads hne hsentinel hread

theorem frameValue_unread (hP : Reads P floatOf) {text : String} {value : Object} {e : PyExc}
    (h : loads floatOf text = some (.obj value))
    (herr : P.jsonLoads (rejoined P text) = .error e) :
    frameValue P ((textLines text.toList).map (kept P)) = .error .unexpected := by
  obtain ⟨hne, hsentinel⟩ := rejoined_lines hP h
  rw [rejoined] at herr hsentinel
  rw [frameValue, if_neg hne]
  simp only [if_neg hsentinel, herr]

theorem frameValue_sentinel (hP : Reads P floatOf) :
    frameValue P (["[DONE]".toList].map (kept P)) = .ok [] := by
  have hkept : kept P "[DONE]".toList = "[DONE]" := by
    rw [kept]
    change String.ofList ('[' :: "DONE]".toList |>.dropWhile P.isSpace) = _
    rw [List.dropWhile_cons_of_neg (by rw [hP.visible '[' rfl]; decide)]
    rfl
  rw [List.map_singleton, hkept, frameValue, if_neg (List.cons_ne_nil _ _)]
  exact if_pos String.intercalate_singleton

theorem iterSseJson_frame (hP : Reads P floatOf) {found : List Object}
    (hvalue : frameValue P ((contents frame).map (kept P)) = .ok found)
    (hdata : ∀ blank content, .data blank content ∈ frame → Unbroken content)
    (hside : ∀ line, .side line ∈ frame → Inert line) (lines : List String) :
    iterSseJson P none [] (received frame ++ "" :: lines) =
      (found ++ (iterSseJson P none [] lines).1, (iterSseJson P none [] lines).2) := by
  rw [iterSseJson_received hP hdata hside, List.nil_append, iterSseJson, if_pos rfl, hvalue]

theorem iterSseJson_raised (hP : Reads P floatOf) {e : AdapterExc}
    (hvalue : frameValue P ((contents frame).map (kept P)) = .error e)
    (hdata : ∀ blank content, .data blank content ∈ frame → Unbroken content)
    (hside : ∀ line, .side line ∈ frame → Inert line) (lines : List String) :
    iterSseJson P none [] (received frame ++ "" :: lines) = ([], some e) := by
  rw [iterSseJson_received hP hdata hside, List.nil_append, iterSseJson, if_pos rfl, hvalue]

theorem iterSseJson_frames (hP : Reads P floatOf) (h : Encodes floatOf frames entries)
    (hdata : Filled Unbroken frames) (hside : Sided Inert frames) :
    iterSseJson P none [] (frames.flatMap fun frame => received frame ++ [""]) =
      (entries.map (·.2), none) ↔ Readable P entries := by
  -- A frame is read if its text is, and the next one begins behind its blank line.
  induction h with
  | nil => exact iff_of_true rfl (List.forall_mem_nil _)
  | @value text value frame frames entries hloads hframe _ ih =>
    obtain ⟨hdata, hdatas⟩ := List.forall_mem_cons.mp hdata
    obtain ⟨hside, hsides⟩ := List.forall_mem_cons.mp hside
    have hreadable : Readable P ((text, value) :: entries) ↔
        P.jsonLoads (rejoined P text) = .ok (.obj value) ∧ Readable P entries := by
      rw [jsonLoads_rejoined hP hloads]
      exact List.forall_mem_cons
    rw [hreadable, List.flatMap_cons, List.append_assoc, List.singleton_append]
    cases hread : P.jsonLoads (rejoined P text) with
    | error e =>
      have hvalue := frameValue_unread hP hloads hread
      rw [← hframe] at hvalue
      rw [iterSseJson_raised hP hvalue hdata hside]
      exact iff_of_false (by simp) (by simp)
    | ok j =>
      obtain rfl := hP.agrees _ _ _ (loads_rejoined hP hloads).1 hread
      have hvalue := frameValue_text hP hloads hread
      rw [← hframe] at hvalue
      rw [iterSseJson_frame hP hvalue hdata hside, ← ih hdatas hsides, Prod.ext_iff, Prod.ext_iff]
      simp
  | @sentinel frame frames entries hframe _ ih =>
    obtain ⟨hdata, hdatas⟩ := List.forall_mem_cons.mp hdata
    obtain ⟨hside, hsides⟩ := List.forall_mem_cons.mp hside
    have hvalue := frameValue_sentinel hP
    rw [← hframe] at hvalue
    rw [List.flatMap_cons, List.append_assoc, List.singleton_append,
      iterSseJson_frame hP hvalue hdata hside, ← ih hdatas hsides]
    rfl
  | @silent frame frames entries hframe _ ih =>
    obtain ⟨hdata, hdatas⟩ := List.forall_mem_cons.mp hdata
    obtain ⟨hside, hsides⟩ := List.forall_mem_cons.mp hside
    have hvalue : frameValue P ((contents frame).map (kept P)) = .ok [] := by
      rw [hframe]
      rfl
    rw [List.flatMap_cons, List.append_assoc, List.singleton_append,
      iterSseJson_frame hP hvalue hdata hside, ← ih hdatas hsides]
    rfl

/-! ## A frame that is cut in a string -/

/-- The data of the frame that has begun leave a string open. -/
def Unclosed (dataLines : List String) : Prop :=
  dataLines ≠ [] ∧ Lex.over .outside ("\n".intercalate dataLines).toList ≠ .outside

theorem Unclosed.append (h : Unclosed dataLines) (line : String) :
    Unclosed (dataLines ++ [line]) := by
  refine ⟨by simp, ?_⟩
  have hfeed : "\n".toList = ['\n'] := rfl
  rw [String.intercalate_append_of_ne_nil h.1 (by simp), String.toList_append,
    String.toList_append, hfeed, Lex.over_append, Lex.over_append, Lex.over_cons,
    Lex.step_newline, if_neg h.2, Lex.over_nil, Lex.broken_over]
  simp

theorem unclosed_of_inside {line : String} (h : Lex.over .outside line.toList = .inside) :
    Unclosed (dataLines ++ [line]) := by
  by_cases hD : Unclosed dataLines
  · exact hD.append line
  · refine ⟨by simp, ?_⟩
    by_cases hne : dataLines = []
    · rw [hne, List.nil_append, String.intercalate_singleton, h]
      simp
    · have hclosed := not_not.mp fun hopen => hD ⟨hne, hopen⟩
      have hfeed : "\n".toList = ['\n'] := rfl
      rw [String.intercalate_append_of_ne_nil hne (by simp), String.toList_append,
        String.toList_append, hfeed, Lex.over_append, Lex.over_append, Lex.over_cons,
        Lex.step_newline, if_pos hclosed, Lex.over_nil, String.intercalate_singleton, h]
      simp

theorem frameValue_unclosed (hP : Reads P floatOf) (h : Unclosed dataLines) :
    frameValue P dataLines = .error .unexpected := by
  have hsentinel : "\n".intercalate dataLines ≠ "[DONE]" := by
    intro heq
    exact h.2 (by rw [heq]; rfl)
  rw [frameValue, if_neg h.1]
  simp only [if_neg hsentinel]
  cases hload : P.jsonLoads ("\n".intercalate dataLines) with
  | error e => rfl
  | ok j => exact absurd (hP.strict _ _ hload) h.2

theorem iterSseJson_unclosed (hP : Reads P floatOf) (h : Unclosed dataLines)
    (lines : List String) : (iterSseJson P none dataLines lines).2 ≠ none := by
  induction lines generalizing dataLines with
  | nil => simp [iterSseJson, frameValue_unclosed hP h]
  | cons line lines ih =>
    rw [iterSseJson, frameValue_unclosed hP h]
    split_ifs
    · simp
    · exact ih (h.append _)
    · exact ih h

theorem iterSseJson_closed (hP : Reads P floatOf) {lines : List String}
    (h : (iterSseJson P none dataLines lines).2 = none) :
    ∀ line ∈ lines, line.toList.take 5 = "data:".toList →
      Lex.over .outside ((line.toList.drop 5).dropWhile P.isSpace) ≠ .inside := by
  induction lines generalizing dataLines with
  | nil => exact List.forall_mem_nil _
  | cons line lines ih =>
    rw [iterSseJson] at h
    split_ifs at h with hempty hdata
    · refine List.forall_mem_cons.mpr ⟨?_, ?_⟩
      · rw [hempty]
        simp
      · cases hvalue : frameValue P dataLines with
        | error e => simp [hvalue] at h
        | ok values =>
          rw [hvalue] at h
          exact ih h
    · refine List.forall_mem_cons.mpr ⟨fun _ hinside => ?_, ih h⟩
      refine iterSseJson_unclosed hP (unclosed_of_inside ?_) lines h
      rwa [String.toList_ofList]
    · exact List.forall_mem_cons.mpr ⟨fun htake => absurd htake hdata, ih h⟩

/-! ## Every stream -/

theorem isBreak_invisible {c : Char} (h : isBreak c = true) (hc : c ≠ '\n' ∧ c ≠ '\r') :
    isVisible c = false ∧ isWhitespace c = false := by
  have hfeed : c.toNat ≠ 10 := fun h => hc.1 (Char.toNat_inj.mp h)
  have hcarriage : c.toNat ≠ 13 := fun h => hc.2 (Char.toNat_inj.mp h)
  simp only [isBreak, Bool.or_eq_true, Bool.and_eq_true, decide_eq_true_eq] at h
  constructor
  · simp only [isVisible, Bool.and_eq_false_iff, decide_eq_false_iff_not]
    omega
  · have hne : ∀ d : Char, c.toNat ≠ d.toNat → decide (c = d) = false := fun d h =>
      decide_eq_false (ne_of_toNat h)
    have hblank : (' ' : Char).toNat = 32 := rfl
    have htab : ('\t' : Char).toNat = 9 := rfl
    rw [isWhitespace, hne ' ' (by omega), hne '\t' (by omega), decide_eq_false hc.1,
      decide_eq_false hc.2]
    rfl

theorem mem_contents {blank : Bool} {content : List Char} (h : .data blank content ∈ frame) :
    content ∈ contents frame := List.mem_filterMap.mpr ⟨_, h, rfl⟩

theorem Encodes.content (h : Encodes floatOf frames entries) :
    Filled (fun content => content = "[DONE]".toList ∨
      ∃ text value, loads floatOf text = some value ∧ content ∈ textLines text.toList) frames := by
  induction h with
  | nil => exact List.forall_mem_nil _
  | value hloads hframe _ ih =>
    refine List.forall_mem_cons.mpr ⟨fun blank content h => .inr ⟨_, _, hloads, ?_⟩, ih⟩
    rw [← hframe]
    exact mem_contents h
  | sentinel hframe _ ih =>
    refine List.forall_mem_cons.mpr ⟨fun blank content h => .inl ?_, ih⟩
    have hmem := mem_contents h
    rw [hframe] at hmem
    exact List.mem_singleton.mp hmem
  | silent hframe _ ih =>
    refine List.forall_mem_cons.mpr ⟨fun blank content h => ?_, ih⟩
    have hmem := mem_contents h
    rw [hframe] at hmem
    cases hmem

theorem oneLine_of_all {cs : List Char} (h : cs.all (fun c => c ≠ '\n' ∧ c ≠ '\r') = true) :
    OneLine cs := fun c hc => by simpa using List.all_eq_true.mp h c hc

theorem Encodes.oneLine (h : Encodes floatOf frames entries) : Filled OneLine frames := by
  intro frame hframe blank content hmem
  rcases h.content frame hframe blank content hmem with rfl | ⟨text, value, -, hline⟩
  · exact oneLine_of_all (by decide)
  · exact fun c hc => (mem_linesFrom hline c hc).2

theorem mem_streamLines {line : List Char} (h : line ∈ streamLines frames) :
    line = [] ∨ ∃ frame ∈ frames, ∃ l ∈ frame, FieldLine.line l = line := by
  cases frames with
  | nil => cases h
  | cons frame frames =>
    have hmem : line ∈ streamLines (frame :: frames) ++ [[]] := List.mem_append_left _ h
    rw [streamLines_blank] at hmem
    obtain ⟨f, hf, hline⟩ := List.mem_flatMap.mp hmem
    rcases List.mem_append.mp hline with hline | hline
    · obtain ⟨l, hl, rfl⟩ := List.mem_map.mp hline
      exact .inr ⟨f, hf, l, hl, rfl⟩
    · exact .inl (List.mem_singleton.mp hline)

theorem streamLines_oneLine (h : Encodes floatOf frames entries) (hside : Sided SideLine frames) :
    ∀ line ∈ streamLines frames, OneLine line := by
  intro line hline
  rcases mem_streamLines hline with rfl | ⟨frame, hframe, l, hl, rfl⟩
  · exact List.forall_mem_nil _
  · cases l with
    | side line => exact (hside frame hframe line hl).oneLine
    | data blank content =>
      have hcontent := h.oneLine frame hframe blank content hl
      refine List.forall_mem_append.mpr ⟨oneLine_of_all (by decide), ?_⟩
      split_ifs
      · exact List.forall_mem_cons.mpr ⟨by decide, hcontent⟩
      · exact hcontent

theorem exists_break {line : List Char} (h : ¬ Unbroken line) :
    ∃ x b y, line = x ++ b :: y ∧ Unbroken x ∧ isBreak b = true := by
  induction line with
  | nil => exact absurd (List.forall_mem_nil _) h
  | cons c line ih =>
    by_cases hc : isBreak c = true
    · exact ⟨[], c, line, rfl, List.forall_mem_nil _, hc⟩
    · have hfree : isBreak c = false := by simpa using hc
      obtain ⟨x, b, y, rfl, hx, hb⟩ := ih fun hrest => h (List.forall_mem_cons.mpr ⟨hfree, hrest⟩)
      exact ⟨c :: x, b, y, rfl, List.forall_mem_cons.mpr ⟨hfree, hx⟩, hb⟩

/-- Data that are cut in a string end the stream with an error. -/
theorem unbroken_of_read (hP : Reads P floatOf) (h : Encodes floatOf frames entries)
    (hend : (iterSseJson P none [] (frames.flatMap fun frame => received frame ++ [""])).2 = none) :
    Filled Unbroken frames := by
  intro frame hframe blank content hmem
  by_contra hbroken
  obtain ⟨x, b, y, rfl, hx, hb⟩ := exists_break hbroken
  have hone := h.oneLine frame hframe blank _ hmem
  obtain ⟨hv, hw⟩ := isBreak_invisible hb (hone b (by simp))
  have hfirst : String.ofList (FieldLine.data blank x).line ∈
      frames.flatMap fun frame => received frame ++ [""] := by
    have hline : (FieldLine.data blank (x ++ b :: y)).line =
        (FieldLine.data blank x).line ++ b :: y := by
      cases blank <;> simp [FieldLine.line]
    refine List.mem_flatMap.mpr ⟨frame, hframe, List.mem_append_left _ ?_⟩
    refine List.mem_flatMap.mpr ⟨_, hmem, List.mem_map.mpr ⟨_, ?_, rfl⟩⟩
    rw [hline]
    exact mem_segments_break (FieldLine.unbroken_line hx) hb
  have hclosed := iterSseJson_closed hP hend _ hfirst
  rw [String.toList_ofList, kept_line hP] at hclosed
  rcases h.content frame hframe blank _ hmem with hsentinel | ⟨text, value, hloads, hline⟩
  · have hmember : b ∈ "[DONE]".toList := hsentinel ▸ List.mem_append_right _ List.mem_cons_self
    rw [unbroken_of_all (by decide) b hmember] at hb
    cases hb
  · obtain ⟨front, back, hlines⟩ := List.append_of_mem hline
    exact hclosed rfl (inside_of_line hP.visible hloads hlines hv hw)

/-- A stream gives the objects it encodes only if no data of it hold a break. If no other line takes
part, it does exactly if moreover `json.loads` takes the texts. -/
theorem iterSseJson_encoded (hP : Reads P floatOf) (h : Encodes floatOf frames entries)
    (hside : Sided SideLine frames) (eol : Eol) :
    (iterSseJson P none [] (transported eol frames) = (entries.map (·.2), none) →
      Filled Unbroken frames) ∧
    (Sided Inert frames →
      (iterSseJson P none [] (transported eol frames) = (entries.map (·.2), none) ↔
        Filled Unbroken frames ∧ Readable P entries)) := by
  rw [iterSseJson_transported eol (streamLines_oneLine h hside)]
  have hunbroken : iterSseJson P none [] (frames.flatMap fun frame => received frame ++ [""]) =
      (entries.map (·.2), none) → Filled Unbroken frames := fun hread =>
    unbroken_of_read hP h (by rw [hread])
  refine ⟨hunbroken, fun hinert => ⟨fun hread => ?_, fun hall => ?_⟩⟩
  · have hdata := hunbroken hread
    exact ⟨hdata, (iterSseJson_frames hP h hdata hinert).mp hread⟩
  · obtain ⟨hdata, hreadable⟩ := hall
    exact (iterSseJson_frames hP h hdata hinert).mpr hreadable

theorem inert_of_unbroken {line : List Char} (h : SideLine line) (hline : Unbroken line) :
    Inert line := by
  rw [Inert, segments_unbroken hline, List.forall_mem_singleton]
  obtain ⟨field, hfield, rest, rfl⟩ := h.field
  simp only [sideFields, List.mem_cons, List.not_mem_nil, or_false] at hfield
  rcases hfield with rfl | rfl | rfl | rfl
  all_goals
    refine ⟨List.cons_ne_nil _ _, fun h => ?_⟩
    cases h

/-! A text on two lines, with a comment, an identifier and the sentinel. -/

open ArtifactRegistry (decodingPlatform decodingPlatform_decodes)

theorem strippingPlatform_loads {s : String} {j : Json} :
    strippingPlatform.jsonLoads s = .ok j ↔ loads ArtifactRegistry.floatOf s = some j := by
  refine ⟨fun h => ?_, decodingPlatform_decodes.loads s j⟩
  cases hloads : loads ArtifactRegistry.floatOf s with
  | none => simp [strippingPlatform, decodingPlatform, hloads] at h
  | some j' => simpa [strippingPlatform, decodingPlatform, hloads] using h

theorem strippingPlatform_reads : Reads strippingPlatform ArtifactRegistry.floatOf where
  agrees _ _ _ h h' := Option.some.inj ((strippingPlatform_loads.mp h').symm.trans h)
  spacing _ _ _ _ h' _ _ := strippingPlatform_loads.mpr h'
  strict _ _ h := (leads_of_loads (strippingPlatform_loads.mp h)).ends
  visible c h := by
    apply decide_eq_false
    rintro rfl
    cases h
  blank := rfl

def fieldText (ws : List Char) (c : Char) : List Char :=
  '\x7b' :: (ws ++ ['"', 'a', '"', ':', ' ', '"', c, '"', '\x7d'])

theorem loads_fieldText {floatOf : List Char → PyFloat} {ws : List Char} {c : Char} (hws : White ws)
    (hq : c ≠ quote) (hb : c ≠ backslash) (h : 32 ≤ c.toNat) :
    loads floatOf (String.ofList (fieldText ws c)) =
      some (.obj [("a", .str (String.ofList [c]))]) := by
  have hnil : White [] := List.forall_mem_nil _
  have hblank : White [' '] := List.forall_mem_singleton.mpr rfl
  have hname : BodyText ['a'] ['a'] := .cons (.plain (by decide) (by decide) (by decide)) .nil
  have hbody : BodyText [c] [c] := .cons (.plain hq hb h) .nil
  have hfields : Spells floatOf (.fields [("a", .str (String.ofList [c]))]) _ :=
    .lastField (.mk hws hname hnil hblank) (.str hbody) hnil
  have hread := loads_of_spells hnil (.obj hfields) hnil
  simp only [List.append_assoc, List.cons_append, List.nil_append, List.append_nil] at hread
  exact hread

def pretty : List Frame :=
  [[.side ": first".toList, .data true ['\x7b'], .side "id: 1".toList,
    .data false [' ', '"', 'a', '"', ':', ' ', '"', 'x', '"', '\x7d']],
   [.data true "[DONE]".toList], []]

def prettyText : String := String.ofList (fieldText ['\n', ' '] 'x')

theorem loads_prettyText :
    loads ArtifactRegistry.floatOf prettyText = some (.obj [("a", .str "x")]) :=
  @loads_fieldText _ ['\n', ' '] 'x' (List.all_eq_true.mp rfl) (by decide) (by decide) (by decide)

theorem pretty_encodes :
    Encodes ArtifactRegistry.floatOf pretty [(prettyText, [("a", .str "x")])] := by
  refine .value loads_prettyText ?_ (.sentinel rfl (.silent rfl .nil))
  rw [prettyText, String.toList_ofList]
  decide

theorem pretty_readable : Readable strippingPlatform [(prettyText, [("a", .str "x")])] :=
  List.forall_mem_singleton.mpr (strippingPlatform_loads.mpr loads_prettyText)

theorem pretty_side : Sided (fun line => SideLine line ∧ Unbroken line) pretty := by
  have hcomment : SideLine ": first".toList ∧ Unbroken ": first".toList :=
    ⟨⟨⟨":", by decide, by decide⟩, oneLine_of_all (by decide)⟩, unbroken_of_all (by decide)⟩
  have hid : SideLine "id: 1".toList ∧ Unbroken "id: 1".toList :=
    ⟨⟨⟨"id:", by decide, by decide⟩, oneLine_of_all (by decide)⟩, unbroken_of_all (by decide)⟩
  intro frame hframe line hline
  simp only [pretty, List.mem_cons, List.not_mem_nil, or_false] at hframe
  rcases hframe with rfl | rfl | rfl
  · simp only [List.mem_cons, List.not_mem_nil, or_false, reduceCtorEq, FieldLine.side.injEq,
      false_or] at hline
    rcases hline with rfl | rfl
    · exact hcomment
    · exact hid
  · simp at hline
  · cases hline

theorem pretty_data : Filled Unbroken pretty := by
  intro frame hframe blank content hcontent
  simp only [pretty, List.mem_cons, List.not_mem_nil, or_false] at hframe
  rcases hframe with rfl | rfl | rfl
  · simp only [List.mem_cons, List.not_mem_nil, or_false, reduceCtorEq, FieldLine.data.injEq,
      false_or] at hcontent
    rcases hcontent with ⟨-, rfl⟩ | ⟨-, rfl⟩
    · exact unbroken_of_all (by decide)
    · exact unbroken_of_all (by decide)
  · simp only [List.mem_singleton, FieldLine.data.injEq] at hcontent
    obtain ⟨-, rfl⟩ := hcontent
    exact unbroken_of_all (by decide)
  · cases hcontent

theorem iterSseJson_encoded_pretty :
    iterSseJson strippingPlatform none [] (transported .both pretty) =
      ([[("a", .str "x")]], none) := by
  have hside : Sided SideLine pretty := fun frame hframe line h =>
    (pretty_side frame hframe line h).1
  have hinert : Sided Inert pretty := by
    intro frame hframe line hline
    obtain ⟨hfield, hunbroken⟩ := pretty_side frame hframe line hline
    exact inert_of_unbroken hfield hunbroken
  have h := iterSseJson_encoded strippingPlatform_reads pretty_encodes hside .both
  exact (h.2 hinert).mpr ⟨pretty_data, pretty_readable⟩

/-! A line separator in a string. -/

def separated : List Frame := [[.data true (fieldText [] '\u2028')]]

def separatedText : String := String.ofList (fieldText [] '\u2028')

theorem loads_separatedText :
    loads ArtifactRegistry.floatOf separatedText = some (.obj [("a", .str "\u2028")]) :=
  @loads_fieldText _ [] '\u2028' (List.forall_mem_nil _) (by decide) (by decide) (by decide)

theorem separated_encodes :
    Encodes ArtifactRegistry.floatOf separated [(separatedText, [("a", .str "\u2028")])] := by
  refine .value loads_separatedText ?_ .nil
  rw [separatedText, String.toList_ofList]
  decide

theorem iterSseJson_separated :
    Encodes ArtifactRegistry.floatOf separated [(separatedText, [("a", .str "\u2028")])] ∧
    Readable strippingPlatform [(separatedText, [("a", .str "\u2028")])] ∧
    Sided SideLine separated ∧
    iterSseJson strippingPlatform none [] (transported .feed separated) ≠
      ([[("a", .str "\u2028")]], none) := by
  refine ⟨separated_encodes, ?_, ?_, fun h => ?_⟩
  · exact List.forall_mem_singleton.mpr (strippingPlatform_loads.mpr loads_separatedText)
  · intro frame hframe line hline
    cases List.mem_singleton.mp hframe
    simp at hline
  · have hlost : (iterSseJson strippingPlatform none [] (transported .feed separated)).2.isSome =
        true := by decide +kernel
    rw [h] at hlost
    cases hlost

end AegisGateway
