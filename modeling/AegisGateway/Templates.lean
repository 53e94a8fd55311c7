import AegisGateway.Lib.Matches
import AegisGateway.Runs
import Mathlib.Data.List.TakeWhile

/-!
# What a prompt renders to

`_resolve_prompt` goes twice through the template, to find the placeholders and to put the
values in. Both times it cuts the template up in the same way.
-/

open Coroutine JsonText Matches

namespace AegisGateway

/-! ## Placeholders -/

/-- `[a-zA-Z_][a-zA-Z0-9_]*`. -/
def IsName (cs : List Char) : Prop :=
  cs.head?.any isNameStart = true ∧ ∀ c ∈ cs, isNameChar c = true

/-- `_VARIABLE`: the whole of `s` is a match, with the group `name`. -/
def Placeholder (isSpace : Char → Bool) (s : List Char) (name : String) : Prop :=
  ∃ before after, (∀ c ∈ before, isSpace c = true) ∧ (∀ c ∈ after, isSpace c = true) ∧
    IsName name.toList ∧
    s = openBrace :: openBrace ::
      (before ++ (name.toList ++ (after ++ [closeBrace, closeBrace])))

/-- `\s` matches no letter, digit or underscore, and no brace. -/
structure Spaces (isSpace : Char → Bool) : Prop where
  name : ∀ {c}, isNameChar c = true → isSpace c = false
  brace : isSpace closeBrace = false

theorem isNameChar_of_start {c : Char} (h : isNameStart c = true) : isNameChar c = true := by
  simp only [isNameStart, isNameChar, Char.isAlphanum, Bool.or_eq_true] at *
  tauto

theorem dropWhile_stop {p : Char → Bool} {xs ys : List Char} (hxs : ∀ c ∈ xs, p c = true)
    (hys : ∀ c ∈ ys.head?, p c = false) : (xs ++ ys).dropWhile p = ys := by
  rw [List.dropWhile_append_of_pos hxs]
  cases ys with
  | nil => rfl
  | cons y ys => exact List.dropWhile_cons_of_neg (by simp [hys y rfl])

theorem takeWhile_stop {p : Char → Bool} {xs ys : List Char} (hxs : ∀ c ∈ xs, p c = true)
    (hys : ∀ c ∈ ys.head?, p c = false) : (xs ++ ys).takeWhile p = xs := by
  rw [List.takeWhile_append_of_pos hxs]
  cases ys with
  | nil => simp
  | cons y ys => simp [hys y rfl]

section

variable {isSpace : Char → Bool}

theorem placeholder_of_matchVariable {cs rest : List Char} {name : String}
    (h : matchVariable isSpace cs = some (name, rest)) :
    ∃ s, Placeholder isSpace s name ∧ cs = s ++ rest := by
  unfold matchVariable at h
  split at h
  next a b cs =>
    dsimp only at h
    split_ifs at h with hhead
    obtain ⟨rfl, rfl, hstart⟩ := hhead
    split at h
    next c d rest' hclose =>
      split_ifs at h with hbraces
      obtain ⟨rfl, rfl⟩ := hbraces
      cases h
      -- The text is what the two loops over white space and the one over the name have taken.
      generalize hbehind : cs.dropWhile isSpace = behind at hstart hclose ⊢
      have hname : IsName (behind.takeWhile isNameChar) := by
        refine ⟨?_, fun c hc => List.mem_takeWhile_imp hc⟩
        cases behind with
        | nil => simp at hstart
        | cons c behind =>
          have hc : isNameStart c = true := by simpa using hstart
          simpa [List.takeWhile_cons, isNameChar_of_start hc] using hc
      obtain ⟨after, hafter, hcut⟩ : ∃ after, (∀ c ∈ after, isSpace c = true) ∧ behind =
          behind.takeWhile isNameChar ++ (after ++ closeBrace :: closeBrace :: rest) := by
        refine ⟨(behind.drop (behind.takeWhile isNameChar).length).takeWhile isSpace,
          fun c hc => List.mem_takeWhile_imp hc, ?_⟩
        rw [← hclose, List.takeWhile_append_dropWhile]
        exact (List.prefix_iff_eq_append.mp (List.takeWhile_prefix isNameChar)).symm
      refine ⟨_, ⟨cs.takeWhile isSpace, after, fun c hc => List.mem_takeWhile_imp hc, hafter,
        by rwa [String.toList_ofList], rfl⟩, ?_⟩
      have hcs : cs = cs.takeWhile isSpace ++ (behind.takeWhile isNameChar ++
          (after ++ closeBrace :: closeBrace :: rest)) := by
        rw [← hcut, ← hbehind, List.takeWhile_append_dropWhile]
      apply (congrArg (fun t => openBrace :: openBrace :: t) hcs).trans
      simp
    next => cases h
  next => cases h

theorem matchVariable_of_placeholder (hspace : Spaces isSpace) {s : List Char} {name : String}
    (h : Placeholder isSpace s name) (rest : List Char) :
    matchVariable isSpace (s ++ rest) = some (name, rest) := by
  obtain ⟨before, after, hbefore, hafter, ⟨hstart, hname⟩, rfl⟩ := h
  -- White space, the name and the braces have no character in common.
  have hbrace : isNameChar closeBrace = false := by decide
  have hbehind : (before ++ (name.toList ++ (after ++ closeBrace :: closeBrace :: rest))).dropWhile
      isSpace = name.toList ++ (after ++ closeBrace :: closeBrace :: rest) := by
    apply dropWhile_stop hbefore
    intro c hc
    cases hchars : name.toList with
    | nil => simp [hchars] at hstart
    | cons d cs =>
      rw [hchars] at hc
      obtain rfl := Option.some.inj hc
      exact hspace.name (hname _ (by simp [hchars]))
  have htaken : (name.toList ++ (after ++ closeBrace :: closeBrace :: rest)).takeWhile isNameChar =
      name.toList := by
    apply takeWhile_stop hname
    intro c hc
    cases after with
    | nil =>
      obtain rfl := Option.some.inj hc
      exact hbrace
    | cons d after =>
      obtain rfl := Option.some.inj hc
      by_contra hd
      have hno := hspace.name (Bool.not_eq_false _ ▸ hd)
      rw [hafter _ (by simp)] at hno
      cases hno
  have hclose : (after ++ closeBrace :: closeBrace :: rest).dropWhile isSpace =
      closeBrace :: closeBrace :: rest :=
    dropWhile_stop hafter fun c hc => Option.some.inj hc ▸ hspace.brace
  have hhead : ((name.toList ++ (after ++ closeBrace :: closeBrace :: rest)).head?.any
      isNameStart) = true := by
    cases hchars : name.toList with
    | nil => simp [hchars] at hstart
    | cons d cs => simpa [hchars] using hstart
  have hsame : openBrace :: openBrace :: (before ++ (name.toList ++ (after ++
      [closeBrace, closeBrace]))) ++ rest = openBrace :: openBrace :: (before ++ (name.toList ++
        (after ++ closeBrace :: closeBrace :: rest))) := by simp
  rw [hsame]
  simp only [matchVariable, hbehind, htaken, hhead, List.drop_left, hclose, and_self, if_true,
    String.ofList_toList]

theorem reads_matchVariable (hspace : Spaces isSpace) :
    Recognizes (matchVariable isSpace) (Placeholder isSpace) where
  ne_nil := by
    rintro s name ⟨before, after, -, -, -, rfl⟩
    simp
  iff := by
    intro cs name rest
    constructor
    · exact placeholder_of_matchVariable
    · rintro ⟨s, hs, rfl⟩
      exact matchVariable_of_placeholder hspace hs rest

end

/-! ## Two passes -/

/-- `request.prompt_variables[match.group(1)]`. -/
def lookupVariable (q : GatewayRequest) (name : String) : Except PyExc (List Char) :=
  match q.promptVariables.lookup name with
  | some value => .ok value.toList
  | none => .error (.other "KeyError")

/-- `_resolve_prompt` behind the registry, with its `findall` and its `sub`. -/
def Platform.resolveTemplate (P : Platform) (q : GatewayRequest) (content : Object) :
    Except PyExc GatewayRequest :=
  match content.lookup "template" with
  | some (.str template) =>
    if template = "" then
      .error (.valueError "prompt artifact must contain a non-empty template")
    else
      let required := (findall (matchVariable P.isSpace) template.length template.toList).dedup
      let missing := required.filter fun name => (q.promptVariables.lookup name).isNone
      if missing ≠ [] then
        .error (.valueError ("missing prompt variables: " ++ ",".intercalate (sorted missing)))
      else do
        let rendered ← sub (matchVariable P.isSpace) (lookupVariable q) template.length
          template.toList
        let message ← Message.validate { role := .developer, content := String.ofList rendered }
        pure { q with messages := message :: q.messages }
  | _ => .error (.valueError "prompt artifact must contain a non-empty template")

def valueOf (q : GatewayRequest) (name : String) : List Char :=
  ((q.promptVariables.lookup name).getD "").toList

def toPiece : Char ⊕ String → Piece
  | .inl c => .char c
  | .inr name => .variable name

section

variable {isSpace : Char → Bool} {q : GatewayRequest} {ps : List (Char ⊕ String)}

theorem scan_eq (hspace : Spaces isSpace) {n : Nat} {cs : List Char}
    (hps : Leftmost (Placeholder isSpace) cs ps) (hn : cs.length ≤ n) :
    scan isSpace n cs = ps.map toPiece := by
  have h := reads_matchVariable hspace
  induction n generalizing cs ps with
  | zero =>
    obtain rfl := List.length_eq_zero_iff.mp (Nat.le_zero.mp hn)
    rw [(leftmost_nil_iff h).mp hps]
    rfl
  | succ n ih =>
    cases cs with
    | nil =>
      rw [(leftmost_nil_iff h).mp hps]
      rfl
    | cons c cs =>
      cases hread : matchVariable isSpace (c :: cs) with
      | some found =>
        obtain ⟨name, rest⟩ := found
        obtain ⟨ps, rfl, hrest⟩ := (Leftmost.hit_iff h hread).mp hps
        have hlt := h.length_lt hread
        rw [scan, hread]
        exact congrArg (Piece.variable name :: ·) (ih hrest (by omega))
      | none =>
        obtain ⟨ps, rfl, hrest⟩ := (Leftmost.char_iff h hread).mp hps
        rw [scan, hread]
        exact congrArg (Piece.char c :: ·) (ih hrest (Nat.le_of_succ_le_succ hn))

theorem variableNames_eq (ps : List (Char ⊕ String)) :
    variableNames (ps.map toPiece) = (groups ps).dedup := by
  rw [variableNames, groups, List.filterMap_map]
  congr 2
  funext p
  cases p <;> rfl

theorem render_eq (ps : List (Char ⊕ String)) :
    render q.promptVariables (ps.map toPiece) = String.ofList (replaced (valueOf q) ps) := by
  rw [render, replaced, List.flatMap_map]
  congr 2
  funext p
  cases p <;> rfl

def missingNames (q : GatewayRequest) (ps : List (Char ⊕ String)) : List String :=
  (groups ps).dedup.filter fun name => (q.promptVariables.lookup name).isNone

theorem mem_missingNames {name : String} : name ∈ missingNames q ps ↔
    name ∈ groups ps ∧ q.promptVariables.lookup name = none := by
  rw [missingNames, List.mem_filter, List.mem_dedup, Option.isNone_iff_eq_none]

theorem lookupVariable_ok (hnone : missingNames q ps = []) :
    ∀ name ∈ groups ps, lookupVariable q name = .ok (valueOf q name) := by
  intro name hname
  cases hvalue : q.promptVariables.lookup name with
  | none =>
    have hmissing : name ∈ missingNames q ps := mem_missingNames.mpr ⟨hname, hvalue⟩
    rw [hnone] at hmissing
    cases hmissing
  | some value => simp only [lookupVariable, valueOf, hvalue, Option.getD_some]

def prompted (q : GatewayRequest) (text : String) : Except PyExc GatewayRequest := do
  let message ← Message.validate { role := .developer, content := text }
  pure { q with messages := message :: q.messages }

/-- The outcome, in terms of the one way to cut the template up. -/
theorem resolveTemplate_eq {P : Platform} (hspace : Spaces P.isSpace) {content : Object}
    {template : String} (htemplate : content.lookup "template" = some (.str template))
    (hps : Leftmost (Placeholder P.isSpace) template.toList ps) :
    P.resolveTemplate q content =
      if template = "" then
        .error (.valueError "prompt artifact must contain a non-empty template")
      else if missingNames q ps ≠ [] then
        .error (.valueError ("missing prompt variables: " ++
          ",".intercalate (sorted (missingNames q ps))))
      else prompted q (String.ofList (replaced (valueOf q) ps)) := by
  have h := reads_matchVariable hspace
  have hlength : template.toList.length ≤ template.length := template.length_toList.le
  unfold Platform.resolveTemplate
  rw [htemplate]
  dsimp only
  rw [findall_eq h hps hlength]
  change (if template = "" then _ else if missingNames q ps ≠ [] then _ else _) = _
  by_cases hmissing : missingNames q ps = []
  · simp only [hmissing, sub_eq h hps hlength (lookupVariable_ok hmissing)]
    rfl
  · simp only [hmissing, ne_eq, not_false_eq_true, if_true]
    rfl

theorem applyTemplate_eq {P : Platform} (hspace : Spaces P.isSpace) (q : GatewayRequest)
    {content : Object} {template : String}
    (htemplate : content.lookup "template" = some (.str template)) :
    P.applyTemplate q content = P.resolveTemplate q content := by
  obtain ⟨ps, hps, -⟩ := existsUnique_leftmost (reads_matchVariable hspace) template.toList
  rw [resolveTemplate_eq hspace htemplate hps]
  unfold Platform.applyTemplate
  rw [htemplate]
  dsimp only
  rw [pieces, scan_eq hspace hps template.length_toList.le, variableNames_eq, render_eq]
  rfl

end

namespace Service

variable {svc : Service} {q : GatewayRequest} {ref : ArtifactRef} {artifact : Artifact}

theorem run_prompt_iff (hspace : Spaces svc.platform.isSpace) (hprompt : q.prompt = some ref)
    {template : String} (htemplate : artifact.content.lookup "template" = some (.str template))
    {tr : GatewayTrace} {out : Except PyExc GatewayRequest} :
    Prog.Run (svc.resolvePrompt q)
      (ev (.getArtifact .prompt ref.name ref.version) (.ok artifact) :: tr) out ↔
        tr = [] ∧ out = svc.platform.resolveTemplate q artifact.content := by
  have hprog : svc.resolvePrompt q = .op (.getArtifact .prompt ref.name ref.version) fun a =>
      (raising .artifactNotFound a).bind fun artifact =>
        Prog.ofExcept (svc.platform.applyTemplate q artifact.content) := by
    rw [resolvePrompt, hprompt]
    rfl
  rw [hprog, ← applyTemplate_eq hspace q htemplate]
  constructor
  · intro h
    cases h with
    | op _ _ _ h =>
      change Prog.Run (Prog.ofExcept _) _ _ at h
      exact Prog.AllRuns.run ((Prog.allRuns_ofExcept _ fun tr out => tr = [] ∧ out =
        svc.platform.applyTemplate q artifact.content).mpr ⟨rfl, rfl⟩) h
  · rintro ⟨rfl, rfl⟩
    refine .op _ _ _ ?_
    exact (Prog.allRuns_ofExcept _ _).mp (Prog.allRuns_run _)

/-- A prompt is cut up at its placeholders in one way. If one of them has no value the error
names just those, and else each becomes its value as it stands, in front of the messages. -/
theorem rendering_literal (hspace : Spaces svc.platform.isSpace) (hprompt : q.prompt = some ref)
    {template : String} (htemplate : artifact.content.lookup "template" = some (.str template)) :
    ∃ ps out, (∀ ps', Leftmost (Placeholder svc.platform.isSpace) template.toList ps' ↔ ps' = ps) ∧
      (∀ tr out', Prog.Run (svc.resolvePrompt q)
        (ev (.getArtifact .prompt ref.name ref.version) (.ok artifact) :: tr) out' ↔
          tr = [] ∧ out' = out) ∧
      out = svc.platform.resolveTemplate q artifact.content ∧
      out ≠ .error (.other "KeyError") ∧
      (∃ missing : List String, missing.Nodup ∧ missing.Pairwise (· ≤ ·) ∧
        (∀ name, name ∈ missing ↔ name ∈ groups ps ∧ q.promptVariables.lookup name = none) ∧
        (missing ≠ [] → out = .error (.valueError
          ("missing prompt variables: " ++ ",".intercalate missing)))) ∧
      ((∀ name ∈ groups ps, q.promptVariables.lookup name ≠ none) →
        ∀ text, text.toList = replaced (valueOf q) ps → 1 ≤ text.length → text.length ≤ 1000000 →
          out = .ok { q with messages := ⟨.developer, text, none⟩ :: q.messages }) := by
  obtain ⟨ps, hps, hunique⟩ := existsUnique_leftmost (reads_matchVariable hspace) template.toList
  have hout := resolveTemplate_eq (q := q) hspace htemplate hps
  have hperm := List.perm_insertionSort (· ≤ ·) (missingNames q ps)
  have hempty : template = "" → ps = [] := by
    rintro rfl
    exact (leftmost_nil_iff (reads_matchVariable hspace)).mp hps
  refine ⟨ps, _, fun ps' => ⟨hunique ps', fun h => h ▸ hps⟩,
    fun tr out => run_prompt_iff hspace hprompt htemplate, rfl, ?_,
    ⟨sorted (missingNames q ps), ?_, List.pairwise_insertionSort _ _, ?_, ?_⟩, ?_⟩
  · rw [hout]
    split_ifs
    · simp
    · simp
    · -- The rendered prompt may be too long for a message, but that is no missing key.
      rw [prompted, Message.validate]
      split_ifs <;> simp [bind, Except.bind, pure, Except.pure, invalidModel]
  · exact hperm.nodup_iff.mpr ((List.nodup_dedup _).filter _)
  · intro name
    rw [← mem_missingNames]
    exact hperm.mem_iff
  · intro hmissing
    have hsome : missingNames q ps ≠ [] := by
      intro hnone
      rw [hnone] at hmissing
      exact hmissing rfl
    have hne : template ≠ "" := by
      intro h
      rw [hempty h] at hsome
      exact hsome rfl
    rw [hout, if_neg hne, if_pos hsome]
  · intro hvalues text htext hlow hhigh
    have hnone : missingNames q ps = [] := by
      apply List.eq_nil_iff_forall_not_mem.mpr
      intro name hname
      obtain ⟨hname, hvalue⟩ := mem_missingNames.mp hname
      exact hvalues name hname hvalue
    have hne : template ≠ "" := by
      intro h
      rw [hempty h] at htext
      rw [← String.length_toList, htext] at hlow
      cases hlow
    have hvalid : ({ role := .developer, content := text } : Message).fieldsValid = true := by
      simp [Message.fieldsValid, lengthWithin, hlow, hhigh]
    rw [hout, if_neg hne, if_neg (not_not.mpr hnone), ← htext, String.ofList_toList, prompted,
      Message.validate, if_pos hvalid]
    rfl

/-! A value that looks like a placeholder, and one with a backslash. -/

theorem sample_spaces : Spaces Sample.platform.isSpace where
  name := by
    intro c hc
    by_contra hspace
    simp only [Sample.platform, Char.isWhitespace, Bool.not_eq_false, Bool.or_eq_true,
      decide_eq_true_eq] at hspace
    rcases hspace with ((rfl | rfl) | rfl) | rfl <;> revert hc <;> decide
  brace := by decide

def greeting : Artifact where
  kind := .prompt
  name := "greeting"
  version := "1"
  content := [("template", .str "\x7b\x7b a \x7d\x7d, \x7b\x7bb\x7d\x7d\x7d")]
  contentHash := ""
  createdAt := 0

def greeted : GatewayRequest :=
  { Sample.request with
    prompt := some ⟨"greeting", none⟩
    promptVariables := [("a", "\x7b\x7bb\x7d\x7d"), ("b", "\\1")] }

theorem rendering_literal_nested : Prog.Run (Sample.service.resolvePrompt greeted)
    [ev (.getArtifact .prompt "greeting" none) (.ok greeting)]
    (.ok { greeted with
      messages := ⟨.developer, "\x7b\x7bb\x7d\x7d, \\1\x7d", none⟩ :: greeted.messages }) := by
  obtain ⟨ps, out, hps, hrun, -, -, -, hok⟩ := @rendering_literal Sample.service greeted
    ⟨"greeting", none⟩ greeting sample_spaces rfl _ rfl
  have hleft := (hps ps).mpr rfl
  have hread := reads_matchVariable sample_spaces
  have hgroups : groups ps = ["a", "b"] := by
    rw [← findall_eq hread hleft le_rfl]
    decide +kernel
  have hvalues : ∀ name ∈ groups ps, greeted.promptVariables.lookup name ≠ none := by
    rw [hgroups]
    decide +kernel
  have htext : replaced (valueOf greeted) ps = "\x7b\x7bb\x7d\x7d, \\1\x7d".toList := by
    have hsub : sub _ (fun name => (.ok (valueOf greeted name) : Except PyExc (List Char))) _ _ =
        .ok (replaced (valueOf greeted) ps) := sub_eq hread hleft le_rfl fun _ _ => rfl
    refine Except.ok.inj (hsub.symm.trans ?_)
    decide +kernel
  exact (hrun _ _).mpr ⟨rfl, (hok hvalues _ htext.symm (by decide +kernel) (by decide +kernel)).symm⟩

end Service

end AegisGateway
