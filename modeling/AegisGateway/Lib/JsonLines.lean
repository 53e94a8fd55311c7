import AegisGateway.Lib.JsonGrammar

/-!
# A text on several lines

A text that is cut at its newlines, and put together again from its lines without the space in
front of them, is read as the same value: a newline stands between two tokens, never in one.
-/

namespace JsonText

/-! ## Inside and outside of strings -/

def Lex.admits : Lex → Char → Bool
  | .outside, c => isVisible c || isWhitespace c
  | .inside, c => 32 ≤ c.toNat
  | .escape, c => isVisible c
  | .broken, _ => false

def Orderly : Lex → List Char → Prop
  | _, [] => True
  | l, c :: cs => l.admits c = true ∧ Orderly (l.step c) cs

theorem orderly_append {l : Lex} {cs cs' : List Char} :
    Orderly l (cs ++ cs') ↔ Orderly l cs ∧ Orderly (l.over cs) cs' := by
  induction cs generalizing l with
  | nil => simp [Orderly]
  | cons c cs ih => simp [Orderly, ih, and_assoc]

/-- An orderly way from one place to another. -/
structure Leads (l : Lex) (cs : List Char) (l' : Lex) : Prop where
  orderly : Orderly l cs
  ends : l.over cs = l'

section Leads

variable {l l' l'' : Lex} {c : Char} {cs cs' : List Char}

theorem Leads.append (h : Leads l cs l') (h' : Leads l' cs' l'') : Leads l (cs ++ cs') l'' where
  orderly := orderly_append.mpr ⟨h.orderly, h.ends.symm ▸ h'.orderly⟩
  ends := by rw [Lex.over_append, h.ends, h'.ends]

theorem Leads.cons (hc : l.admits c = true) (h : Leads (l.step c) cs l') : Leads l (c :: cs) l' :=
  ⟨⟨hc, h.orderly⟩, h.ends⟩

theorem leads_nil (l : Lex) : Leads l [] l := ⟨trivial, rfl⟩

theorem leads_white (h : White cs) : Leads .outside cs .outside := by
  induction cs with
  | nil => exact leads_nil _
  | cons c cs ih =>
    obtain ⟨hc, hcs⟩ := List.forall_mem_cons.mp h
    have hq : c ≠ quote := by
      rintro rfl
      cases hc
    refine .cons (by simp [Lex.admits, hc]) ?_
    rw [Lex.step, if_neg hq]
    exact ih hcs

theorem leads_tokens (h : ∀ c ∈ cs, Token c) : Leads .outside cs .outside := by
  induction cs with
  | nil => exact leads_nil _
  | cons c cs ih =>
    obtain ⟨hc, hcs⟩ := List.forall_mem_cons.mp h
    refine .cons (by simp [Lex.admits, hc.visible]) ?_
    rw [Lex.step, if_neg hc.quote]
    exact ih hcs

theorem visible_of_all (h : cs.all isVisible = true) : Visible cs := List.all_eq_true.mp h

theorem step_visible (hl : l ≠ .broken) (hc : isVisible c = true) :
    l.admits c = true ∧ l.step c ≠ .broken := by
  have hrange := isVisible_iff.mp hc
  cases l with
  | outside => exact ⟨by simp [Lex.admits, hc], by rw [Lex.step]; split_ifs <;> simp⟩
  | inside =>
    refine ⟨by simp [Lex.admits]; omega, ?_⟩
    rw [Lex.step]
    split_ifs with hq hb hcontrol
    · simp
    · simp
    · omega
    · simp
  | escape => exact ⟨hc, by rw [inside_of_escape hc]; simp⟩
  | broken => exact absurd rfl hl

theorem orderly_visible (hl : l ≠ .broken) (h : Visible cs) : Orderly l cs := by
  induction cs generalizing l with
  | nil => trivial
  | cons c cs ih =>
    obtain ⟨hc, hcs⟩ := List.forall_mem_cons.mp h
    obtain ⟨hadmits, hstep⟩ := step_visible hl hc
    exact ⟨hadmits, ih hstep hcs⟩

theorem BodyText.leads {s body : List Char} (h : BodyText s body) :
    Leads .inside body .inside := by
  induction h with
  | nil => exact leads_nil _
  | cons hc _ ih =>
    refine .append ?_ ih
    cases hc with
    | plain hq hb h =>
      refine .cons (by simpa [Lex.admits] using h) ?_
      rw [Lex.step, if_neg hq, if_neg hb, if_neg (by omega)]
      exact leads_nil _
    | escaped h =>
      exact .cons rfl ⟨orderly_visible (by decide) h.visible, h.lex⟩

theorem leads_string {s body t : List Char} (h : BodyText s body) (ht : Leads .outside t l) :
    Leads .outside (quote :: (body ++ quote :: t)) l :=
  .cons rfl (h.leads.append (.cons rfl ht))

theorem KeyText.leads {k : String} (h : KeyText k cs) : Leads .outside cs .outside := by
  cases h with
  | mk hws hbody hwk hwv =>
    exact (leads_white hws).append (leads_string hbody ((leads_white hwk).append
      (.cons rfl (leads_white hwv))))

variable {floatOf : List Char → PyFloat}

theorem Spells.leads {p : Part} (h : Spells floatOf p cs) : Leads .outside cs .outside := by
  induction h with
  | null | boolTrue | boolFalse =>
    exact ⟨orderly_visible (by decide) (visible_of_all rfl), rfl⟩
  | number h => exact leads_tokens h.tokens
  | str h => exact leads_string h (leads_nil _)
  | emptyArr h | emptyObj h => exact .cons rfl ((leads_white h).append (.cons rfl (leads_nil _)))
  | arr _ ih | obj _ ih => exact .cons rfl ih
  | lastItem hws _ hws' ih =>
    exact (leads_white hws).append (ih.append ((leads_white hws').append (.cons rfl (leads_nil _))))
  | item hws _ hws' _ ih ihItems =>
    exact (leads_white hws).append (ih.append ((leads_white hws').append (.cons rfl ihItems)))
  | lastField hk _ hws' ih =>
    exact hk.leads.append (ih.append ((leads_white hws').append (.cons rfl (leads_nil _))))
  | field hk _ hws' _ ih ihFields =>
    exact hk.leads.append (ih.append ((leads_white hws').append (.cons rfl ihFields)))

theorem leads_of_loads {s : String} {j : Json} (h : loads floatOf s = some j) :
    Leads .outside s.toList .outside := by
  obtain ⟨ws, cs, ws', hs, hws, hws', hspells⟩ := spells_of_loads h
  rw [hs]
  exact (leads_white hws).append (hspells.leads.append (leads_white hws'))

end Leads

/-! ## Newlines -/

/-- Where a character stands: in front of a line, behind a carriage return in front of one,
or in a line. -/
inductive Place where
  | start | carriage | inner
  deriving DecidableEq

/-- A text with a line feed for each of its newlines, and no space in front of its lines. -/
def refill (space : Char → Bool) : Place → List Char → List Char
  | _, [] => []
  | p, c :: cs =>
    if c = '\n' then
      if p = .carriage then refill space .start cs else '\n' :: refill space .start cs
    else if c = '\r' then '\n' :: refill space .carriage cs
    else if p ≠ .inner ∧ space c = true then refill space .start cs
    else c :: refill space .inner cs

def Place.over (space : Char → Bool) : Place → List Char → Place
  | p, [] => p
  | p, c :: cs =>
    if c = '\n' then Place.over space .start cs
    else if c = '\r' then Place.over space .carriage cs
    else if p ≠ .inner ∧ space c = true then Place.over space .start cs
    else Place.over space .inner cs

/-- A text without the white space outside of its strings. -/
def unspaced : Lex → List Char → List Char
  | _, [] => []
  | l, c :: cs =>
    if l = .outside ∧ isWhitespace c = true then unspaced .outside cs
    else c :: unspaced (l.step c) cs

def linesFrom : Bool → List Char → List (List Char)
  | _, [] => [[]]
  | carriage, c :: cs =>
    if c = '\n' then if carriage then linesFrom false cs else [] :: linesFrom false cs
    else if c = '\r' then [] :: linesFrom true cs
    else
      match linesFrom false cs with
      | line :: lines => (c :: line) :: lines
      | [] => [[c]]

def textLines (cs : List Char) : List (List Char) := linesFrom false cs

def folded (space : Char → Bool) (lines : List (List Char)) : List Char :=
  ['\n'].intercalate (lines.map (List.dropWhile space))

variable {space : Char → Bool}

theorem refill_append (p : Place) (cs cs' : List Char) :
    refill space p (cs ++ cs') = refill space p cs ++ refill space (p.over space cs) cs' := by
  induction cs generalizing p with
  | nil => rfl
  | cons c cs ih =>
    simp only [List.cons_append, refill, Place.over]
    split_ifs <;> simp [ih]

theorem refill_kept {c : Char} (hn : c ≠ '\n') (hr : c ≠ '\r') (hs : space c = false) (p : Place)
    (cs : List Char) : refill space p (c :: cs) = c :: refill space .inner cs := by
  rw [refill, if_neg hn, if_neg hr, if_neg (by simp [hs])]

theorem refill_inner {cs : List Char} (h : ∀ c ∈ cs, c ≠ '\n' ∧ c ≠ '\r') (t : List Char) :
    refill space .inner (cs ++ t) = cs ++ refill space .inner t := by
  induction cs with
  | nil => rfl
  | cons c cs ih =>
    obtain ⟨⟨hn, hr⟩, hcs⟩ := List.forall_mem_cons.mp h
    rw [List.cons_append, refill, if_neg hn, if_neg hr, if_neg (by simp), ih hcs, List.cons_append]

theorem refill_visible (hspace : ∀ c, isVisible c = true → space c = false) {c : Char}
    (hc : isVisible c = true) (p : Place) (cs : List Char) :
    refill space p (c :: cs) = c :: refill space .inner cs := by
  refine refill_kept ?_ ?_ (hspace c hc) p cs
  all_goals
    rintro rfl
    cases hc

theorem refill_white {ws : List Char} (h : White ws) (p : Place) : White (refill space p ws) := by
  induction ws generalizing p with
  | nil => exact List.forall_mem_nil _
  | cons c ws ih =>
    obtain ⟨hc, hws⟩ := List.forall_mem_cons.mp h
    rw [refill]
    split_ifs
    · exact ih hws _
    · exact List.forall_mem_cons.mpr ⟨rfl, ih hws _⟩
    · exact List.forall_mem_cons.mpr ⟨rfl, ih hws _⟩
    · exact ih hws _
    · exact List.forall_mem_cons.mpr ⟨hc, ih hws _⟩

theorem not_newline {c : Char} (h : 32 ≤ c.toNat) : c ≠ '\n' ∧ c ≠ '\r' := by
  constructor <;>
    · rintro rfl
      revert h
      decide

theorem BodyText.not_newline {s body : List Char} (h : BodyText s body) :
    ∀ c ∈ body, c ≠ '\n' ∧ c ≠ '\r' := by
  induction h with
  | nil => exact List.forall_mem_nil _
  | cons hc _ ih =>
    refine List.forall_mem_append.mpr ⟨?_, ih⟩
    cases hc with
    | plain _ _ h => exact List.forall_mem_singleton.mpr (JsonText.not_newline h)
    | escaped h =>
      refine List.forall_mem_cons.mpr ⟨by decide, fun c hc => JsonText.not_newline ?_⟩
      have hrange := isVisible_iff.mp (h.visible c hc)
      omega

theorem unspaced_white {c : Char} (hc : isWhitespace c = true) (cs : List Char) :
    unspaced .outside (c :: cs) = unspaced .outside cs := if_pos ⟨rfl, hc⟩

theorem outside_of_admits {l : Lex} {c : Char} (h : l.admits c = true) (hc : c.toNat < 32) :
    l = .outside := by
  cases l with
  | outside => rfl
  | broken => cases h
  | inside =>
    have hrange : 32 ≤ c.toNat := of_decide_eq_true h
    omega
  | escape =>
    have hrange := isVisible_iff.mp h
    omega

section Refill

variable (hspace : ∀ c, isVisible c = true → space c = false)

include hspace

theorem refill_string {s body : List Char} (h : BodyText s body) (p : Place) (t : List Char) :
    refill space p (quote :: (body ++ quote :: t)) =
      quote :: (body ++ quote :: refill space .inner t) := by
  rw [refill_visible hspace rfl, refill_inner h.not_newline, refill_visible hspace rfl]

theorem refill_tokens {cs : List Char} (hne : cs ≠ []) (h : Visible cs) (p : Place) :
    refill space p cs = cs := by
  cases cs with
  | nil => exact absurd rfl hne
  | cons c cs =>
    obtain ⟨hc, hcs⟩ := List.forall_mem_cons.mp h
    have hrest : ∀ c ∈ cs, c ≠ '\n' ∧ c ≠ '\r' := fun c hc => not_newline (by
      have hrange := isVisible_iff.mp (hcs c hc)
      omega)
    have hinner := @refill_inner space _ hrest []
    rw [List.append_nil] at hinner
    rw [refill_visible hspace hc, hinner, refill, List.append_nil]

theorem KeyText.refill {k : String} {ck : List Char} (h : KeyText k ck) (p : Place) :
    KeyText k (JsonText.refill space p ck) := by
  cases h with
  | mk hws hbody hwk hwv =>
    rw [refill_append, refill_string hspace hbody, refill_append, refill_visible hspace rfl]
    exact .mk (refill_white hws _) hbody (refill_white hwk _) (refill_white hwv _)

variable {floatOf : List Char → PyFloat}

theorem Spells.refill {part : Part} {cs : List Char} (h : Spells floatOf part cs) (p : Place) :
    Spells floatOf part (JsonText.refill space p cs) := by
  -- The tokens stay as they are: only white space is touched, and it stays white.
  induction h generalizing p with
  | null =>
    rw [refill_tokens hspace (by simp) (visible_of_all rfl)]
    exact .null
  | boolTrue =>
    rw [refill_tokens hspace (by simp) (visible_of_all rfl)]
    exact .boolTrue
  | boolFalse =>
    rw [refill_tokens hspace (by simp) (visible_of_all rfl)]
    exact .boolFalse
  | number h =>
    obtain ⟨c, cs', hcs, -⟩ := h.start
    rw [refill_tokens hspace (by simp [hcs]) (visible_of_tokens h.tokens)]
    exact .number h
  | str h =>
    rw [refill_string hspace h]
    exact .str h
  | emptyArr h =>
    rw [refill_visible hspace rfl, refill_append, refill_visible hspace rfl]
    exact .emptyArr (refill_white h _)
  | emptyObj h =>
    rw [refill_visible hspace rfl, refill_append, refill_visible hspace rfl]
    exact .emptyObj (refill_white h _)
  | arr _ ih =>
    rw [refill_visible hspace rfl]
    exact .arr (ih _)
  | obj _ ih =>
    rw [refill_visible hspace rfl]
    exact .obj (ih _)
  | lastItem hws _ hws' ih =>
    rw [refill_append, refill_append, refill_append, refill_visible hspace rfl]
    exact .lastItem (refill_white hws _) (ih _) (refill_white hws' _)
  | item hws _ hws' _ ih ihItems =>
    rw [refill_append, refill_append, refill_append, refill_visible hspace rfl]
    exact .item (refill_white hws _) (ih _) (refill_white hws' _) (ihItems _)
  | lastField hk _ hws' ih =>
    rw [refill_append, refill_append, refill_append, refill_visible hspace rfl]
    exact .lastField (hk.refill hspace _) (ih _) (refill_white hws' _)
  | field hk _ hws' _ ih ihFields =>
    rw [refill_append, refill_append, refill_append, refill_visible hspace rfl]
    exact .field (hk.refill hspace _) (ih _) (refill_white hws' _) (ihFields _)

theorem unspaced_refill {l : Lex} {p : Place} {cs : List Char} (h : Orderly l cs)
    (hp : l ≠ .outside → p = .inner) : unspaced l (refill space p cs) = unspaced l cs := by
  induction cs generalizing l p with
  | nil => rfl
  | cons c cs ih =>
    obtain ⟨hadmits, hcs⟩ := h
    rw [refill]
    split_ifs with hfeed hcarriage hreturn hdropped
    · obtain rfl := outside_of_admits hadmits (hfeed ▸ by decide)
      subst hfeed
      rw [unspaced_white rfl]
      exact ih hcs nofun
    · obtain rfl := outside_of_admits hadmits (hfeed ▸ by decide)
      subst hfeed
      rw [unspaced_white rfl, unspaced_white rfl]
      exact ih hcs nofun
    · obtain rfl := outside_of_admits hadmits (hreturn ▸ by decide)
      subst hreturn
      rw [unspaced_white rfl, unspaced_white rfl]
      exact ih hcs nofun
    · -- What is dropped is white space: nothing else that is not visible may stand here.
      obtain rfl : l = .outside := by_contra fun hl => hdropped.1 (hp hl)
      have hinvisible : ¬ isVisible c = true := fun hv => by simp [hspace c hv] at hdropped
      have hc : isWhitespace c = true := by simpa [Lex.admits, hinvisible] using hadmits
      have hstep : Lex.step .outside c = .outside := if_neg (by rintro rfl; cases hc)
      rw [unspaced_white hc]
      rw [hstep] at hcs
      exact ih hcs nofun
    · rw [unspaced, unspaced]
      split_ifs with hc
      · obtain ⟨rfl, hc⟩ := hc
        have hstep : Lex.step .outside c = .outside := if_neg (by rintro rfl; cases hc)
        rw [hstep] at hcs
        exact ih hcs nofun
      · rw [ih hcs fun _ => rfl]
theorem loads_refill {s : String} {j : Json} (h : loads floatOf s = some j) (p : Place) :
    loads floatOf (String.ofList (refill space p s.toList)) = some j := by
  obtain ⟨ws, cs, ws', hs, hws, hws', hspells⟩ := spells_of_loads h
  rw [hs, refill_append, refill_append]
  exact loads_of_spells (refill_white hws _) (hspells.refill hspace _) (refill_white hws' _)

end Refill

/-! ## The lines of a text -/

theorem linesFrom_cons {c : Char} (hn : c ≠ '\n') (hr : c ≠ '\r') {cs line : List Char}
    {lines : List (List Char)} (h : linesFrom false cs = line :: lines) (carriage : Bool) :
    linesFrom carriage (c :: cs) = (c :: line) :: lines := by
  rw [linesFrom, if_neg hn, if_neg hr, h]

theorem linesFrom_ne_nil (carriage : Bool) (cs : List Char) :
    ∃ line lines, linesFrom carriage cs = line :: lines := by
  induction cs generalizing carriage with
  | nil => exact ⟨[], [], rfl⟩
  | cons c cs ih =>
    by_cases hn : c = '\n'
    · subst hn
      rw [linesFrom, if_pos rfl]
      split_ifs
      · exact ih false
      · exact ⟨_, _, rfl⟩
    · by_cases hr : c = '\r'
      · subst hr
        exact ⟨[], _, by rw [linesFrom, if_neg hn, if_pos rfl]⟩
      · obtain ⟨line, lines, h⟩ := ih false
        exact ⟨_, _, linesFrom_cons hn hr h carriage⟩

def foldedTail (space : Char → Bool) (lines : List (List Char)) : List Char :=
  lines.flatMap fun line => '\n' :: line.dropWhile space

theorem folded_cons (line : List Char) (lines : List (List Char)) :
    folded space (line :: lines) = line.dropWhile space ++ foldedTail space lines := by
  induction lines generalizing line with
  | nil => simp [folded, foldedTail, List.intercalate]
  | cons line' lines ih =>
    have hrest := ih line'
    simp only [folded, List.map_cons, List.intercalate_cons_cons] at hrest ⊢
    rw [hrest]
    simp [foldedTail]

theorem refill_lines (p : Place) {cs line : List Char} {lines : List (List Char)}
    (h : linesFrom (p = .carriage) cs = line :: lines) : refill space p cs =
      (if p = .inner then line else line.dropWhile space) ++ foldedTail space lines := by
  induction cs generalizing p line lines with
  | nil =>
    cases h
    simp [refill, foldedTail]
  | cons c cs ih =>
    by_cases hn : c = '\n'
    · subst hn
      rw [linesFrom, if_pos rfl] at h
      rw [refill, if_pos rfl]
      by_cases hp : p = .carriage
      · subst hp
        rw [if_pos rfl, ih .start (by simpa using h)]
        simp
      · obtain ⟨line', lines', h'⟩ := linesFrom_ne_nil false cs
        rw [if_neg (by simpa using hp), h'] at h
        cases h
        rw [if_neg hp, ih .start (by simpa using h')]
        simp [foldedTail]
    · by_cases hr : c = '\r'
      · subst hr
        obtain ⟨line', lines', h'⟩ := linesFrom_ne_nil true cs
        rw [linesFrom, if_neg hn, if_pos rfl, h'] at h
        cases h
        rw [refill, if_neg hn, if_pos rfl, ih .carriage (by simpa using h')]
        simp [foldedTail]
      · obtain ⟨line', lines', h'⟩ := linesFrom_ne_nil false cs
        rw [linesFrom_cons hn hr h'] at h
        cases h
        rw [refill, if_neg hn, if_neg hr]
        -- White space at the start of a line is dropped.
        by_cases hdrop : p ≠ .inner ∧ space c = true
        · rw [if_pos hdrop, ih .start (by simpa using h'), if_neg hdrop.1, if_neg (by decide),
            List.dropWhile_cons_of_pos hdrop.2]
        · rw [if_neg hdrop, ih .inner (by simpa using h'), if_pos rfl]
          split_ifs with hp
          · rfl
          · rw [List.dropWhile_cons_of_neg fun hs => hdrop ⟨hp, hs⟩]
            rfl

theorem folded_textLines (cs : List Char) :
    folded space (textLines cs) = refill space .start cs := by
  obtain ⟨line, lines, h⟩ := linesFrom_ne_nil false cs
  rw [textLines, h, folded_cons, refill_lines .start (by simpa using h), if_neg (by decide)]

theorem cut_empty {x y : List Char} {b : Char} {front back rest : List (List Char)}
    (h : [] :: rest = front ++ (x ++ b :: y) :: back) :
    ∃ front', front = [] :: front' ∧ rest = front' ++ (x ++ b :: y) :: back := by
  rcases front with _ | ⟨line, front⟩
  · have hline := (List.cons.inj h).1
    simp at hline
  · obtain ⟨rfl, hrest⟩ := List.cons.inj h
    exact ⟨front, rfl, hrest⟩

theorem linesFrom_cut {carriage : Bool} {cs x y : List Char} {b : Char}
    {front back : List (List Char)}
    (h : linesFrom carriage cs = front ++ (x ++ b :: y) :: back) :
    ∃ pre suf, cs = pre ++ b :: suf ∧ linesFrom carriage pre = front ++ [x] := by
  induction cs generalizing carriage front x with
  | nil =>
    obtain ⟨front', -, hrest⟩ := cut_empty h
    simp at hrest
  | cons c cs ih =>
    by_cases hn : c = '\n'
    · subst hn
      rw [linesFrom, if_pos rfl] at h
      split_ifs at h with hcarriage
      · obtain ⟨pre, suf, rfl, hpre⟩ := ih h
        exact ⟨'\n' :: pre, suf, rfl, by rw [linesFrom, if_pos rfl, if_pos hcarriage, hpre]⟩
      · obtain ⟨front', rfl, hrest⟩ := cut_empty h
        obtain ⟨pre, suf, rfl, hpre⟩ := ih hrest
        exact ⟨'\n' :: pre, suf, rfl, by rw [linesFrom, if_pos rfl, if_neg hcarriage, hpre]; rfl⟩
    · by_cases hr : c = '\r'
      · subst hr
        rw [linesFrom, if_neg hn, if_pos rfl] at h
        obtain ⟨front', rfl, hrest⟩ := cut_empty h
        obtain ⟨pre, suf, rfl, hpre⟩ := ih hrest
        exact ⟨'\r' :: pre, suf, rfl, by rw [linesFrom, if_neg hn, if_pos rfl, hpre]; rfl⟩
      · obtain ⟨line, lines, hlines⟩ := linesFrom_ne_nil false cs
        rw [linesFrom_cons hn hr hlines] at h
        -- The character belongs to the first line, which may be the one with the cut.
        rcases front with _ | ⟨line', front⟩
        · obtain ⟨hline, hback⟩ := List.cons.inj h
          rcases x with _ | ⟨c', x⟩
          · obtain ⟨rfl, rfl⟩ := List.cons.inj hline
            exact ⟨[], cs, rfl, rfl⟩
          · obtain ⟨rfl, rfl⟩ := List.cons.inj hline
            subst hback
            have hcut : linesFrom false cs = [] ++ (x ++ b :: y) :: lines := hlines
            obtain ⟨pre, suf, rfl, hpre⟩ := ih hcut
            exact ⟨c :: pre, suf, rfl, linesFrom_cons hn hr hpre carriage⟩
        · obtain ⟨rfl, hback⟩ := List.cons.inj h
          rw [hback] at hlines
          have hcut : linesFrom false cs = (line :: front) ++ (x ++ b :: y) :: back := hlines
          obtain ⟨pre, suf, rfl, hpre⟩ := ih hcut
          exact ⟨c :: pre, suf, rfl, linesFrom_cons hn hr hpre carriage⟩

theorem mem_linesFrom {carriage : Bool} {cs line : List Char}
    (h : line ∈ linesFrom carriage cs) : ∀ c ∈ line, c ∈ cs ∧ c ≠ '\n' ∧ c ≠ '\r' := by
  induction cs generalizing carriage line with
  | nil =>
    cases List.mem_singleton.mp h
    exact List.forall_mem_nil _
  | cons d cs ih =>
    have hlater : ∀ {carriage line}, line ∈ linesFrom carriage cs →
        ∀ c ∈ line, c ∈ d :: cs ∧ c ≠ '\n' ∧ c ≠ '\r' := fun h c hc =>
      ⟨List.mem_cons_of_mem _ (ih h c hc).1, (ih h c hc).2⟩
    have hempty : ∀ {carriage line}, line ∈ [] :: linesFrom carriage cs →
        ∀ c ∈ line, c ∈ d :: cs ∧ c ≠ '\n' ∧ c ≠ '\r' := by
      intro carriage line hline
      rcases List.mem_cons.mp hline with rfl | hline
      · exact List.forall_mem_nil _
      · exact hlater hline
    by_cases hn : d = '\n'
    · rw [linesFrom, if_pos hn] at h
      split_ifs at h
      · exact hlater h
      · exact hempty h
    · by_cases hr : d = '\r'
      · rw [linesFrom, if_neg hn, if_pos hr] at h
        exact hempty h
      · obtain ⟨line', lines, hlines⟩ := linesFrom_ne_nil false cs
        rw [linesFrom_cons hn hr hlines] at h
        rcases List.mem_cons.mp h with rfl | h
        · exact List.forall_mem_cons.mpr ⟨⟨List.mem_cons_self, hn, hr⟩,
            hlater (by rw [hlines]; exact List.mem_cons_self)⟩
        · exact hlater (by rw [hlines]; exact List.mem_cons_of_mem _ h)

/-! ## Where a text is cut -/

/-- Only a text outside of its strings has newlines, so folding it does not move its strings. -/
theorem over_refill (hspace : ∀ c, isVisible c = true → space c = false) {l : Lex} {p : Place}
    {cs : List Char} (h : Orderly l cs) (hp : p = .inner ∨ l = .outside) :
    l.over (refill space p cs) = l.over cs := by
  induction cs generalizing l p with
  | nil => rfl
  | cons c cs ih =>
    obtain ⟨hc, hcs⟩ := h
    have hnewline : c = '\n' ∨ c = '\r' → l = .outside := by
      intro hnew
      cases l with
      | outside => rfl
      | inside | escape | broken => rcases hnew with rfl | rfl <;> cases hc
    by_cases hn : c = '\n'
    · have hl := hnewline (.inl hn)
      subst hn hl
      rw [refill, if_pos rfl]
      split_ifs
      · exact ih hcs (.inr rfl)
      · exact ih hcs (.inr rfl)
    · by_cases hr : c = '\r'
      · have hl := hnewline (.inr hr)
        subst hr hl
        rw [refill, if_neg hn, if_pos rfl]
        exact ih hcs (.inr rfl)
      · rw [refill, if_neg hn, if_neg hr]
        split_ifs with hdrop
        · have hl : l = .outside := hp.resolve_left hdrop.1
          have hq : c ≠ quote := by
            rintro rfl
            exact Bool.false_ne_true ((hspace quote rfl).symm.trans hdrop.2)
          have hstep : l.step c = .outside := by rw [hl, Lex.step, if_neg hq]
          rw [hstep] at hcs
          rw [Lex.over_cons, hstep, hl]
          exact ih hcs (.inr rfl)
        · exact ih hcs (.inl rfl)

/-- A character that stands neither for itself nor as white space between tokens is in a string. -/
theorem inside_of_orderly {pre suf : List Char} {b : Char} (h : Orderly .outside (pre ++ b :: suf))
    (hv : isVisible b = false) (hw : isWhitespace b = false) :
    Lex.over .outside pre = .inside := by
  obtain ⟨-, hb, -⟩ := orderly_append.mp h
  generalize Lex.over .outside pre = l at hb
  cases l with
  | inside => rfl
  | outside => simp [Lex.admits, hv, hw] at hb
  | escape => simp [Lex.admits, hv] at hb
  | broken => cases hb

theorem folded_snoc (lines : List (List Char)) (line : List Char) :
    folded space (lines ++ [line]) = line.dropWhile space ∨
    ∃ pre, folded space (lines ++ [line]) = pre ++ '\n' :: line.dropWhile space := by
  cases lines with
  | nil => exact .inl (by simp [folded_cons, foldedTail])
  | cons line' lines =>
    refine .inr ⟨folded space (line' :: lines), ?_⟩
    rw [List.cons_append, folded_cons, folded_cons]
    simp [foldedTail]

theorem inside_of_line (hspace : ∀ c, isVisible c = true → space c = false)
    {floatOf : List Char → PyFloat} {s : String} {j : Json} (h : loads floatOf s = some j)
    {front back : List (List Char)} {x y : List Char} {b : Char}
    (hline : textLines s.toList = front ++ (x ++ b :: y) :: back)
    (hv : isVisible b = false) (hw : isWhitespace b = false) :
    Lex.over .outside (x.dropWhile space) = .inside := by
  obtain ⟨pre, suf, hs, hpre⟩ := linesFrom_cut hline
  have horderly := (leads_of_loads h).orderly
  rw [hs] at horderly
  have hinside := inside_of_orderly horderly hv hw
  have hover := over_refill (p := .start) hspace (orderly_append.mp horderly).1 (.inr rfl)
  rw [hinside, ← folded_textLines, textLines, hpre] at hover
  rcases @folded_snoc space front x with hfold | ⟨begun, hfold⟩
  · rwa [hfold] at hover
  · rw [hfold, Lex.over_append, Lex.over_cons, Lex.step_newline] at hover
    split_ifs at hover
    · exact hover
    · rw [Lex.broken_over] at hover
      cases hover

end JsonText
