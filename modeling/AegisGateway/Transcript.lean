import AegisGateway.CacheHistory

/-!
# What a fingerprint stands for

The transcript of a conversation joins its messages with line feeds, each behind the name
of its role. A content may hold such a line itself, and the transcript does not tell it
from a message: it stands for the messages that it has when it is cut at every such line.
-/

open JsonText

namespace AegisGateway

/-! ## Lines of a conversation -/

abbrev Turn : Type := Role × List Char

namespace Turn

def chars (t : Turn) : List Char := t.1.value.toList ++ ':' :: t.2

def ofMessage (m : Message) : Turn := (m.role, m.content.toList)

end Turn

def conversation (q : GatewayRequest) : List Turn := q.messages.map Turn.ofMessage

/-- The role of a line and the rest of it, if the line starts with the name of a role and a
colon. -/
def header (line : List Char) : Option Turn :=
  match line.dropWhile (· ≠ ':') with
  | [] => none
  | _ :: rest =>
    ([.system, .developer, .user, .assistant, .tool].find? fun role : Role =>
      role.value.toList = line.takeWhile (· ≠ ':')).map (·, rest)

/-- The lines in front of the first one with a header, and the messages behind them. -/
def gather : List (List Char) → List (List Char) × List Turn
  | [] => ([], [])
  | line :: lines =>
    match header line with
    | some (role, first) =>
      ([], (role, ['\n'].intercalate (first :: (gather lines).1)) :: (gather lines).2)
    | none => (line :: (gather lines).1, (gather lines).2)

def cut (t : Turn) : List Turn := (gather (t.chars.splitOn '\n')).2

def cuts (q : GatewayRequest) : List Turn := (conversation q).flatMap cut

/-- No line of a content but the first has a header. -/
def Plain (q : GatewayRequest) : Prop :=
  ∀ m ∈ q.messages, ∀ line ∈ (m.content.toList.splitOn '\n').tail, header line = none

/-! ## Headers -/

theorem role_value_plain (role : Role) : ':' ∉ role.value.toList ∧ '\n' ∉ role.value.toList := by
  cases role <;> decide

theorem header_chars (t : Turn) : header t.chars = some t := by
  obtain ⟨role, rest⟩ := t
  have hcolon := (role_value_plain role).1
  have hbefore : ∀ c ∈ role.value.toList, decide (c ≠ ':') = true := fun c hc =>
    decide_eq_true fun heq => hcolon (heq ▸ hc)
  have hdrop : (Turn.chars (role, rest)).dropWhile (· ≠ ':') = ':' :: rest := by
    rw [Turn.chars, List.dropWhile_append_of_pos hbefore, List.dropWhile_cons_of_neg (by simp)]
  have htake : (Turn.chars (role, rest)).takeWhile (· ≠ ':') = role.value.toList := by
    rw [Turn.chars, List.takeWhile_append_of_pos hbefore, List.takeWhile_cons_of_neg (by simp),
      List.append_nil]
  simp only [header, hdrop, htake]
  cases role <;> rfl

theorem chars_of_header {line : List Char} {t : Turn} (h : header line = some t) :
    line = t.chars := by
  unfold header at h
  split at h
  next => cases h
  next c rest hdrop =>
    obtain ⟨role, hfind, rfl⟩ := Option.map_eq_some_iff.mp h
    have hname : role.value.toList = line.takeWhile (· ≠ ':') := by
      simpa using List.find?_some hfind
    have hcolon : c = ':' := by
      have hhead := List.head?_dropWhile_not (· ≠ ':') line
      rw [hdrop] at hhead
      simpa using hhead
    rw [hcolon] at hdrop
    rw [Turn.chars, hname, ← hdrop, List.takeWhile_append_dropWhile]

/-! ## Cutting and joining -/

theorem splitOn_append {a : Char} {pre : List Char} (h : a ∉ pre) (cs : List Char) :
    (pre ++ cs).splitOn a = (cs.splitOn a).modifyHead (pre ++ ·) := by
  induction pre with
  | nil =>
    rw [List.nil_append]
    cases cs.splitOn a <;> rfl
  | cons c pre ih =>
    obtain ⟨hne, hpre⟩ := not_or.mp (List.mem_cons.not.mp h)
    rw [List.cons_append, List.splitOn_cons_eq_if_modifyHead, ih hpre,
      if_neg (by simpa using Ne.symm hne), List.modifyHead_modifyHead]
    rfl

theorem splitOn_chars (t : Turn) : ∃ first rest, t.2.splitOn '\n' = first :: rest ∧
    t.chars.splitOn '\n' = Turn.chars (t.1, first) :: rest := by
  obtain ⟨first, rest, hsplit⟩ := List.exists_cons_of_ne_nil (List.splitOn_ne_nil '\n' t.2)
  refine ⟨first, rest, hsplit, ?_⟩
  have hpre : '\n' ∉ t.1.value.toList ++ [':'] := by
    simp [(role_value_plain t.1).2]
  have happend : t.chars = (t.1.value.toList ++ [':']) ++ t.2 := by simp [Turn.chars]
  rw [happend, splitOn_append hpre, hsplit, List.modifyHead_cons]
  simp [Turn.chars]

theorem gather_header {line : List Char} {t : Turn} (h : header line = some t)
    (lines : List (List Char)) : gather (line :: lines) =
      ([], (t.1, ['\n'].intercalate (t.2 :: (gather lines).1)) :: (gather lines).2) := by
  rw [gather, h]

theorem gather_chars (t : Turn) : gather (t.chars.splitOn '\n') = ([], cut t) := by
  obtain ⟨first, rest, -, hchars⟩ := splitOn_chars t
  rw [cut, hchars, gather_header (header_chars _)]

theorem gather_append {ls ls' : List (List Char)} (h : (gather ls').1 = []) :
    gather (ls ++ ls') = ((gather ls).1, (gather ls).2 ++ (gather ls').2) := by
  induction ls with
  | nil => rw [List.nil_append, gather, ← h]; rfl
  | cons l ls ih =>
    rw [List.cons_append, gather, gather, ih]
    cases header l <;> rfl

theorem gather_flatMap (ts : List Turn) :
    gather (ts.flatMap fun t => t.chars.splitOn '\n') = ([], ts.flatMap cut) := by
  induction ts with
  | nil => rfl
  | cons t ts ih =>
    rw [List.flatMap_cons, gather_append (by rw [ih]), ih, gather_chars, List.flatMap_cons]

theorem intercalate_intercalate {ls : List (List Char)} (h : ls ≠ []) (ls' : List (List Char)) :
    ['\n'].intercalate (['\n'].intercalate ls :: ls') = ['\n'].intercalate (ls ++ ls') := by
  induction ls with
  | nil => exact absurd rfl h
  | cons l ls ih =>
    cases ls with
    | nil => simp
    | cons l' ls =>
      have ih := ih (by simp)
      rw [List.cons_append, List.cons_append, List.intercalate_cons_cons, List.intercalate_cons_cons,
        ← List.cons_append, ← ih]
      cases ls' with
      | nil => simp
      | cons => simp [List.intercalate_cons_cons]

theorem intercalate_gather (ls : List (List Char)) :
    ['\n'].intercalate ls =
      ['\n'].intercalate ((gather ls).1 ++ (gather ls).2.map Turn.chars) := by
  induction ls with
  | nil => rfl
  | cons l ls ih =>
    have hnil : ls = [] ↔ (gather ls).1 ++ (gather ls).2.map Turn.chars = [] := by
      cases ls with
      | nil => simp [gather]
      | cons l' ls =>
        rw [gather]
        cases header l' <;> simp
    have hcons : ['\n'].intercalate (l :: ls) =
        ['\n'].intercalate (l :: ((gather ls).1 ++ (gather ls).2.map Turn.chars)) := by
      by_cases hls : ls = []
      · rw [hnil.mp hls, hls]
      · rw [List.intercalate_cons_of_ne_nil hls, List.intercalate_cons_of_ne_nil (hnil.not.mp hls), ih]
    rw [hcons, gather]
    cases hl : header l with
    | none => rfl
    | some t =>
      have hchars : Turn.chars (t.1, ['\n'].intercalate (t.2 :: (gather ls).1)) =
          ['\n'].intercalate (l :: (gather ls).1) := by
        rw [chars_of_header hl]
        cases (gather ls).1 <;> simp [Turn.chars, List.intercalate_cons_cons]
      change _ = ['\n'].intercalate (Turn.chars (t.1, ['\n'].intercalate (t.2 :: (gather ls).1)) ::
        (gather ls).2.map Turn.chars)
      rw [hchars, intercalate_intercalate (by simp)]
      rfl

/-! ## The transcript -/

def transcript (q : GatewayRequest) : List Char :=
  ['\n'].intercalate ((conversation q).map Turn.chars)

theorem conversationText_toList (q : GatewayRequest) :
    (Platform.conversationText q).toList = transcript q := by
  unfold Platform.conversationText transcript conversation
  rw [String.toList_intercalate, List.map_map, List.map_map]
  congr 1
  apply List.map_congr_left
  intro m _
  change (m.role.value ++ ":" ++ m.content).toList = m.role.value.toList ++ ':' :: m.content.toList
  rw [String.toList_append, String.toList_append, List.append_assoc]
  rfl

theorem splitOn_transcript {ts : List Turn} (h : ts ≠ []) :
    (['\n'].intercalate (ts.map Turn.chars)).splitOn '\n' =
      ts.flatMap fun t => t.chars.splitOn '\n' := by
  induction ts with
  | nil => exact absurd rfl h
  | cons t ts ih =>
    cases ts with
    | nil => simp
    | cons t' ts =>
      rw [List.map_cons, List.map_cons, List.intercalate_cons_cons, List.append_assoc,
        List.singleton_append, List.splitOn_append_cons_self, ← List.map_cons, ih (by simp)]
      rfl

theorem gather_transcript (q : GatewayRequest) :
    (gather ((transcript q).splitOn '\n')).2 = cuts q := by
  unfold transcript cuts
  by_cases h : conversation q = []
  · rw [h]
    rfl
  · rw [splitOn_transcript h, gather_flatMap]

theorem intercalate_cuts (q : GatewayRequest) :
    ['\n'].intercalate ((cuts q).map Turn.chars) = transcript q := by
  by_cases h : conversation q = []
  · rw [cuts, transcript, h]
    rfl
  · have hlines := intercalate_gather ((transcript q).splitOn '\n')
    rw [List.intercalate_splitOn, transcript, splitOn_transcript h, gather_flatMap] at hlines
    exact hlines.symm

/-- A transcript tells the messages apart that it has when it is cut, and no others. -/
theorem transcript_eq_iff {q q' : GatewayRequest} :
    transcript q = transcript q' ↔ cuts q = cuts q' := by
  constructor
  · intro h
    rw [← gather_transcript q, h, gather_transcript]
  · intro h
    rw [← intercalate_cuts q, h, intercalate_cuts]

theorem gather_plain {ls : List (List Char)} (h : ∀ l ∈ ls, header l = none) :
    gather ls = (ls, []) := by
  induction ls with
  | nil => rfl
  | cons l ls ih =>
    obtain ⟨hl, hls⟩ := List.forall_mem_cons.mp h
    rw [gather, hl, ih hls]

theorem cuts_plain {q : GatewayRequest} (h : Plain q) : cuts q = conversation q := by
  have hcut : ∀ t ∈ conversation q, cut t = [t] := by
    intro t ht
    obtain ⟨m, hm, rfl⟩ := List.mem_map.mp ht
    obtain ⟨first, rest, hcontent, hchars⟩ := splitOn_chars (Turn.ofMessage m)
    have hrest : ∀ l ∈ rest, header l = none := by
      intro l hl
      apply h m hm l
      change l ∈ ((Turn.ofMessage m).2.splitOn '\n').tail
      rw [hcontent]
      exact hl
    rw [cut, hchars, gather_header (header_chars _), gather_plain hrest, ← hcontent,
      List.intercalate_splitOn]
  rw [cuts, List.flatMap_congr hcut, List.flatMap_singleton']

/-! ## Fingerprints -/

section

variable {P : Platform} (hsha : Function.Injective P.sha256) {q q' : GatewayRequest}
  {ns ns' : String}

theorem scope_withMessages (q : GatewayRequest) (messages : List Message) (ns : String) :
    P.scope { q with messages } ns = P.scope q ns := rfl

theorem scope_noNewline (q : GatewayRequest) (ns : String) : '\n' ∉ (P.scope q ns).toList := by
  intro h
  have hdigit : ∀ n, hexDigit n ≠ '\n' := by
    intro n
    have hlt : n % 16 < 16 := Nat.mod_lt _ (by decide)
    unfold hexDigit
    interval_cases n % 16 <;> decide
  rw [Platform.scope, hexdigest, String.toList_ofList, hexDigits, List.mem_flatMap] at h
  obtain ⟨b, -, hb⟩ := h
  simp only [List.mem_cons, List.not_mem_nil, or_false] at hb
  rcases hb with hb | hb
  · exact hdigit _ hb.symm
  · exact hdigit _ hb.symm

theorem firstLine_inj {a b x y : List Char} (ha : '\n' ∉ a) (hb : '\n' ∉ b)
    (h : a ++ '\n' :: x = b ++ '\n' :: y) : a = b ∧ x = y := by
  have hsplit := congrArg (List.splitOn '\n') h
  rw [List.splitOn_append_cons_self_of_not_mem ha,
    List.splitOn_append_cons_self_of_not_mem hb] at hsplit
  obtain rfl := (List.cons.inj hsplit).1
  exact ⟨rfl, (List.cons.inj (List.append_cancel_left h)).2⟩

include hsha in
theorem fingerprint_eq_iff : P.fingerprint q ns = P.fingerprint q' ns' ↔
    P.scope q ns = P.scope q' ns' ∧ cuts q = cuts q' := by
  rw [← transcript_eq_iff, ← conversationText_toList, ← conversationText_toList, String.toList_inj]
  constructor
  · intro h
    have htext := congrArg String.toList (hsha (hexdigest_inj h))
    have hnl : "\n".toList = ['\n'] := rfl
    simp only [String.toList_append, hnl, List.append_assoc, List.singleton_append] at htext
    obtain ⟨hscope, htext⟩ := firstLine_inj (scope_noNewline q ns) (scope_noNewline q' ns') htext
    exact ⟨String.toList_inj.mp hscope, String.toList_inj.mp htext⟩
  · rintro ⟨hscope, htext⟩
    rw [Platform.fingerprint, Platform.fingerprint, hscope, htext]

def pairs (q : GatewayRequest) : List (Role × String) := q.messages.map fun m => (m.role, m.content)

theorem conversation_inj : conversation q = conversation q' ↔ pairs q = pairs q' := by
  have hmap : ∀ q, conversation q = (pairs q).map (Prod.map id String.toList) := by
    intro q
    rw [conversation, pairs, List.map_map]
    rfl
  have hinj : Function.Injective (Prod.map id String.toList : Role × String → Turn) :=
    Function.injective_id.prodMap fun _ _ h => String.toList_inj.mp h
  rw [hmap, hmap, (List.map_injective_iff.mpr hinj).eq_iff]

theorem dlookup_take (k : String) (n : Nat) (slots : List Entries.Slot) :
    (slots.take n).dlookup k = slots.dlookup k ∨ (slots.take n).dlookup k = none := by
  induction slots generalizing n with
  | nil => simp
  | cons s slots ih =>
    cases n with
    | zero => exact .inr rfl
    | succ n =>
      rw [List.take_succ_cons]
      by_cases hk : s.1 = k
      · subst hk
        exact .inl (by rw [List.dlookup_cons_eq, List.dlookup_cons_eq])
      · rw [List.dlookup_cons_ne _ _ (Ne.symm hk), List.dlookup_cons_ne _ _ (Ne.symm hk)]
        exact ih n

/-- What a conversation stores has no part in an exact lookup of another one, before and after:
the entry of the other one is what it was, or has been dropped for room. -/
def KeepsApart (P : Platform) (q q' : GatewayRequest) (ns ns' : String) : Prop :=
  ∀ (cfg : CacheSettings) (now : ℚ) (es : Entries) (response : GatewayResponse),
    (es.put P cfg now q response ns).lookup (P.fingerprint q' ns') =
        es.lookup (P.fingerprint q' ns') ∨
      (es.put P cfg now q response ns).lookup (P.fingerprint q' ns') = none

/-- A fingerprint that two requests share tells their scope and their messages. -/
def Identifies (P : Platform) (q q' : GatewayRequest) (ns ns' : String) : Prop :=
  (P.fingerprint q ns = P.fingerprint q' ns' →
    P.scope q ns = P.scope q' ns' ∧ pairs q = pairs q') ∧
  (pairs q ≠ pairs q' → KeepsApart P q q' ns ns')

theorem keepsApart_of_ne (h : P.fingerprint q ns ≠ P.fingerprint q' ns') :
    KeepsApart P q q' ns ns' := by
  intro cfg now es response
  let entry : Entry :=
    { scope := P.scope q ns
      fingerprint := P.fingerprint q ns
      vector := P.embed (Platform.conversationText q)
      response := { response with cacheHit := false }
      expiresAt := now + cfg.ttlSeconds }
  have hother : (AList.insert (P.fingerprint q ns) entry es).lookup (P.fingerprint q' ns') =
      es.lookup (P.fingerprint q' ns') := AList.lookup_insert_ne (Ne.symm h)
  rw [← hother]
  exact dlookup_take _ _ _

include hsha in
/-- A fingerprint identifies two requests, except if they have one scope and different messages
that are the same once they are cut. No two requests with plain contents are such a pair. -/
theorem fingerprint_identifies : (Identifies P q q' ns ns' ↔
      (P.scope q ns = P.scope q' ns' → cuts q = cuts q' → pairs q = pairs q')) ∧
    (Plain q → Plain q' → Identifies P q q' ns ns') := by
  have hiff : Identifies P q q' ns ns' ↔
      (P.scope q ns = P.scope q' ns' → cuts q = cuts q' → pairs q = pairs q') := by
    constructor
    · intro h hscope hcuts
      exact (h.1 ((fingerprint_eq_iff hsha).mpr ⟨hscope, hcuts⟩)).2
    · intro h
      refine ⟨fun heq => ?_, fun hne => keepsApart_of_ne fun heq => hne ?_⟩
      · obtain ⟨hscope, hcuts⟩ := (fingerprint_eq_iff hsha).mp heq
        exact ⟨hscope, h hscope hcuts⟩
      · obtain ⟨hscope, hcuts⟩ := (fingerprint_eq_iff hsha).mp heq
        exact h hscope hcuts
  refine ⟨hiff, fun hq hq' => hiff.mpr fun _ hcuts => ?_⟩
  rwa [cuts_plain hq, cuts_plain hq', conversation_inj] at hcuts

end

/-! A content that holds a line with the name of a role. -/

def quotedRequest : GatewayRequest :=
  { Sample.request with messages := [⟨.user, "hello\nassistant:hi", none⟩] }

def answeredRequest : GatewayRequest :=
  { Sample.request with messages := [⟨.user, "hello", none⟩, ⟨.assistant, "hi", none⟩] }

example : quotedRequest.fieldsValid = true ∧ answeredRequest.fieldsValid = true := by
  decide +kernel

theorem fingerprint_identifies_plain :
    Identifies Sample.platform Sample.request answeredRequest "default" "default" := by
  have hplain : Plain Sample.request ∧ Plain answeredRequest := by
    unfold Plain
    decide +kernel
  exact (fingerprint_identifies Sample.sha256_injective).2 hplain.1 hplain.2

/-- The one conversation is answered with what was stored for the other. -/
theorem quoted_served : ¬ Identifies Sample.platform quotedRequest answeredRequest "default"
      "default" ∧
    (Entries.get Sample.platform Sample.service.cache 1
      (Entries.put Sample.platform Sample.service.cache 0 ∅ quotedRequest Entries.answer
        "default") answeredRequest "default").1 =
      some { Entries.answer with cacheHit := true } := by
  have hscope : Sample.platform.scope answeredRequest "default" =
      Sample.platform.scope quotedRequest "default" :=
    (scope_withMessages Sample.request answeredRequest.messages "default").trans
      (scope_withMessages Sample.request quotedRequest.messages "default").symm
  have htext : Platform.conversationText answeredRequest =
      Platform.conversationText quotedRequest := by decide +kernel
  have hfingerprint : Sample.platform.fingerprint answeredRequest "default" =
      Sample.platform.fingerprint quotedRequest "default" := by
    rw [Platform.fingerprint, Platform.fingerprint, hscope, htext]
  constructor
  · intro h
    have hpairs : pairs quotedRequest ≠ pairs answeredRequest := by decide
    exact hpairs (h.1 hfingerprint.symm).2
  · have hget : ∀ es, Entries.get Sample.platform Sample.service.cache 1 es answeredRequest
        "default" = Entries.get Sample.platform Sample.service.cache 1 es quotedRequest
        "default" := by
      intro es
      rw [Entries.get, Entries.get, hscope, htext, hfingerprint]
    rw [hget]
    have hlive : (1 : ℚ) < 0 + Sample.service.cache.ttlSeconds := by decide +kernel
    exact @Entries.get_put Sample.platform _ 1 0 Sample.platform.embed Sample.platform.embed ∅
      quotedRequest Entries.answer "default" hlive

end AegisGateway
