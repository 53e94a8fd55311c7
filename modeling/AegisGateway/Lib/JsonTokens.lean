import AegisGateway.Lib.JsonDecoding

/-!
# The tokens of JSON texts

What the scanners of strings and of numbers take from a text, and that they take the same
whatever stands behind it.
-/

namespace JsonText

/-! ## Tokens -/

/-- The visible characters of ASCII. All tokens but strings are made of them. -/
def isVisible (c : Char) : Bool := 33 ≤ c.toNat && c.toNat ≤ 126

def Visible (cs : List Char) : Prop := ∀ c ∈ cs, isVisible c = true

/-- Where a scan of a text is, as far as its strings are concerned. -/
inductive Lex where
  | outside | inside | escape | broken
  deriving DecidableEq

def Lex.step : Lex → Char → Lex
  | .outside, c => if c = quote then .inside else .outside
  | .inside, c =>
    if c = quote then .outside
    else if c = backslash then .escape
    else if c.toNat < 32 then .broken
    else .inside
  | .escape, c => if c.toNat < 32 then .broken else .inside
  | .broken, _ => .broken

def Lex.over (l : Lex) (cs : List Char) : Lex := cs.foldl Lex.step l

@[simp]
theorem Lex.over_nil (l : Lex) : l.over [] = l := rfl

@[simp]
theorem Lex.over_cons (l : Lex) (c : Char) (cs : List Char) :
    l.over (c :: cs) = (l.step c).over cs := rfl

@[simp]
theorem Lex.over_append (l : Lex) (cs cs' : List Char) :
    l.over (cs ++ cs') = (l.over cs).over cs' := List.foldl_append

@[simp]
theorem Lex.broken_over (cs : List Char) : Lex.over .broken cs = .broken := by
  induction cs with
  | nil => rfl
  | cons c cs ih => exact ih

theorem Lex.step_newline (l : Lex) : l.step '\n' = if l = .outside then .outside else .broken := by
  cases l <;> rfl

/-! ## Strings -/

/-- What stands behind a backslash for `c`. -/
structure EscapeText (c : Char) (cs : List Char) : Prop where
  scan : ∀ t, scanEscape (cs ++ t) = some (c, t)
  visible : Visible cs
  lex : Lex.over .escape cs = .inside

inductive CharText : Char → List Char → Prop
  | plain {c : Char} (hq : c ≠ quote) (hb : c ≠ backslash) (h : 32 ≤ c.toNat) : CharText c [c]
  | escaped {c : Char} {cs : List Char} (h : EscapeText c cs) : CharText c (backslash :: cs)

inductive BodyText : List Char → List Char → Prop
  | nil : BodyText [] []
  | cons {c : Char} {cs s body : List Char} (hc : CharText c cs) (h : BodyText s body) :
    BodyText (c :: s) (cs ++ body)

theorem isVisible_iff {c : Char} : isVisible c = true ↔ 33 ≤ c.toNat ∧ c.toNat ≤ 126 := by
  simp [isVisible]

theorem ne_of_toNat {c d : Char} (h : c.toNat ≠ d.toNat) : c ≠ d := fun he => h (congrArg _ he)

structure Token (c : Char) : Prop where
  visible : isVisible c = true
  quote : c ≠ quote
  backslash : c ≠ backslash

theorem token_of_toNat {c : Char} (h : 33 ≤ c.toNat ∧ c.toNat ≤ 126)
    (hq : c.toNat ≠ 34) (hb : c.toNat ≠ 92) : Token c :=
  ⟨isVisible_iff.mpr h, ne_of_toNat hq, ne_of_toNat hb⟩

theorem token_of_isDigit {c : Char} (h : c.isDigit = true) : Token c := by
  have hrange : 48 ≤ c.toNat ∧ c.toNat ≤ 57 := by
    simpa [Char.isDigit, UInt32.le_iff_toNat_le] using h
  exact token_of_toNat (by omega) (by omega) (by omega)

theorem token_of_hexValue {c : Char} {n : Nat} (h : hexValue c = some n) : Token c := by
  unfold hexValue at h
  split_ifs at h with hd hl hu
  · exact token_of_isDigit hd
  · have hrange : 97 ≤ c.toNat ∧ c.toNat ≤ 102 := hl
    exact token_of_toNat (by omega) (by omega) (by omega)
  · have hrange : 65 ≤ c.toNat ∧ c.toNat ≤ 70 := hu
    exact token_of_toNat (by omega) (by omega) (by omega)

theorem inside_of_escape {c : Char} (h : isVisible c = true) : Lex.step .escape c = .inside := by
  have hvisible := isVisible_iff.mp h
  rw [Lex.step, if_neg (by omega)]

theorem inside_of_token {c : Char} (h : Token c) : Lex.step .inside c = .inside := by
  have hvisible := isVisible_iff.mp h.visible
  rw [Lex.step, if_neg h.quote, if_neg h.backslash, if_neg (by omega)]

theorem inside_of_tokens {cs : List Char} (h : ∀ c ∈ cs, Token c) :
    Lex.over .inside cs = .inside := by
  induction cs with
  | nil => rfl
  | cons c cs ih =>
    obtain ⟨hc, hcs⟩ := List.forall_mem_cons.mp h
    rw [Lex.over_cons, inside_of_token hc, ih hcs]

theorem visible_of_tokens {cs : List Char} (h : ∀ c ∈ cs, Token c) : Visible cs :=
  fun c hc => (h c hc).visible

theorem scanHex4_split {cs r : List Char} {n : Nat} (h : scanHex4 cs = some (n, r)) :
    ∃ digits, cs = digits ++ r ∧ (∀ c ∈ digits, Token c) ∧
      ∀ t, scanHex4 (digits ++ t) = some (n, t) := by
  unfold scanHex4 at h
  split at h
  next a b c d cs =>
    obtain ⟨a', ha, h⟩ := Option.bind_eq_some_iff.mp h
    obtain ⟨b', hb, h⟩ := Option.bind_eq_some_iff.mp h
    obtain ⟨c', hc, h⟩ := Option.bind_eq_some_iff.mp h
    obtain ⟨d', hd, h⟩ := Option.bind_eq_some_iff.mp h
    cases h
    refine ⟨[a, b, c, d], rfl, ?_, fun t => ?_⟩
    · simp only [List.forall_mem_cons]
      exact ⟨token_of_hexValue ha, token_of_hexValue hb, token_of_hexValue hc,
        token_of_hexValue hd, List.forall_mem_nil _⟩
    · simp [scanHex4, ha, hb, hc, hd]
  next => cases h

/-- Four digits behind the `u`, and nothing else. -/
theorem escapeText_hex {cs r : List Char} {n : Nat} (h : scanHex4 cs = some (n, r))
    (hn : n < 55296 ∨ 57343 < n) :
    ∃ pre, cs = pre ++ r ∧ EscapeText (Char.ofNat n) ('u' :: pre) := by
  obtain ⟨digits, rfl, hdigits, hscan⟩ := scanHex4_split h
  refine ⟨digits, rfl, fun t => ?_, ?_, ?_⟩
  · simp only [List.cons_append, scanEscape, hscan, Option.bind_eq_bind, Option.bind_some, if_pos hn]
  · exact List.forall_mem_cons.mpr ⟨rfl, visible_of_tokens hdigits⟩
  · exact inside_of_tokens hdigits

theorem escapeText_pair {cs cs' r : List Char} {n : Nat} {c : Char}
    (h : scanHex4 cs = some (n, cs')) (hn : ¬ (n < 55296 ∨ 57343 < n))
    (hlow : scanLow n cs' = some (c, r)) :
    ∃ pre, cs = pre ++ r ∧ EscapeText c ('u' :: pre) := by
  obtain ⟨digits, rfl, hdigits, hscan⟩ := scanHex4_split h
  unfold scanLow at hlow
  split at hlow
  next b cs' =>
    split_ifs at hlow with hb
    obtain ⟨rfl, hhigh⟩ := hb
    obtain ⟨⟨low, r'⟩, hhex, hpair⟩ := Option.bind_eq_some_iff.mp hlow
    obtain ⟨digits', rfl, hdigits', hscan'⟩ := scanHex4_split hhex
    change (if 56320 ≤ low ∧ low ≤ 57343 then
      some (Char.ofNat (65536 + (n - 55296) * 1024 + (low - 56320)), r') else none) = _ at hpair
    split_ifs at hpair with hrange
    obtain ⟨hc, hr⟩ := Prod.mk.inj (Option.some.inj hpair)
    subst hr hc
    refine ⟨digits ++ backslash :: 'u' :: digits', by simp, fun t => ?_, ?_, ?_⟩
    · simp only [List.cons_append, List.append_assoc, scanEscape, hscan, Option.bind_eq_bind,
        Option.bind_some, if_neg hn, scanLow, hhigh, and_self, if_true, hscan', if_pos hrange]
    · simp only [Visible, List.forall_mem_cons, List.forall_mem_append]
      exact ⟨rfl, visible_of_tokens hdigits, rfl, rfl, visible_of_tokens hdigits'⟩
    · have hback : Lex.step .inside backslash = .escape := rfl
      have hu : Lex.step .escape 'u' = .inside := rfl
      simp only [Lex.over_cons, Lex.over_append, hu, inside_of_tokens hdigits, hback,
        inside_of_tokens hdigits']
  next => cases hlow

theorem visible_of_unescape {e c : Char} (h : unescape e = some c) :
    isVisible e = true ∧ e ≠ 'u' := by
  unfold unescape at h
  split_ifs at h with h₁ h₂ h₃ h₄ h₅ h₆
  · rcases h₁ with rfl | rfl | rfl <;> exact ⟨rfl, by decide⟩
  all_goals
    subst_vars
    exact ⟨rfl, by decide⟩

theorem escapeText_of_scanEscape {cs r : List Char} {c : Char} (h : scanEscape cs = some (c, r)) :
    ∃ pre, cs = pre ++ r ∧ EscapeText c pre := by
  unfold scanEscape at h
  split at h
  next cs =>
    obtain ⟨⟨n, cs'⟩, hhex, h⟩ := Option.bind_eq_some_iff.mp h
    dsimp only at h
    split_ifs at h with hn
    · cases h
      obtain ⟨pre, rfl, htext⟩ := escapeText_hex hhex hn
      exact ⟨'u' :: pre, rfl, htext⟩
    · obtain ⟨pre, rfl, htext⟩ := escapeText_pair hhex hn h
      exact ⟨'u' :: pre, rfl, htext⟩
  next e cs hu =>
    obtain ⟨c', hc, h⟩ := Option.map_eq_some_iff.mp h
    cases h
    obtain ⟨hvisible, hne⟩ := visible_of_unescape hc
    refine ⟨[e], rfl, fun t => ?_, List.forall_mem_singleton.mpr hvisible,
      inside_of_escape hvisible⟩
    unfold scanEscape
    split
    next heq => exact absurd (List.cons.inj heq).1 hne
    next heq =>
      obtain ⟨rfl, rfl⟩ := List.cons.inj heq
      rw [hc]
      rfl
    next heq => cases heq
  next => cases h

theorem charText_of_scanChar {cs r : List Char} {c : Char} (h : scanChar cs = some (c, r))
    (hq : ∀ c ∈ cs.head?, c ≠ quote) : ∃ pre, cs = pre ++ r ∧ CharText c pre := by
  cases cs with
  | nil => cases h
  | cons c' cs =>
    rw [scanChar] at h
    split_ifs at h with hb hcontrol
    · subst hb
      obtain ⟨pre, rfl, htext⟩ := escapeText_of_scanEscape h
      exact ⟨backslash :: pre, rfl, .escaped htext⟩
    · cases h
      exact ⟨[c], rfl, .plain (hq c rfl) hb (by omega)⟩

theorem CharText.scanChar {c : Char} {cs : List Char} (h : CharText c cs) (t : List Char) :
    JsonText.scanChar (cs ++ t) = some (c, t) := by
  cases h with
  | plain hq hb h =>
    rw [List.singleton_append, JsonText.scanChar, if_neg hb, if_neg (by omega)]
  | escaped h =>
    rw [List.cons_append, JsonText.scanChar, if_pos rfl, h.scan]

theorem CharText.head {c : Char} {cs : List Char} (h : CharText c cs) :
    ∃ c' cs', cs = c' :: cs' ∧ c' ≠ quote := by
  cases h with
  | plain hq => exact ⟨c, [], rfl, hq⟩
  | escaped => exact ⟨backslash, _, rfl, by decide⟩

theorem bodyText_of_scanString {n : Nat} {cs s r : List Char} (h : scanString n cs = some (s, r)) :
    ∃ body, cs = body ++ quote :: r ∧ BodyText s body := by
  induction n generalizing cs s with
  | zero =>
    rw [scanString] at h
    cases h
  | succ n ih =>
    cases cs with
    | nil => cases h
    | cons c cs =>
      rw [scanString] at h
      split_ifs at h with hq
      · cases h
        exact ⟨[], by rw [hq]; rfl, .nil⟩
      · obtain ⟨⟨c', cs'⟩, hchar, h⟩ := Option.bind_eq_some_iff.mp h
        obtain ⟨⟨s', r'⟩, hrest, h⟩ := Option.bind_eq_some_iff.mp h
        cases h
        obtain ⟨pre, hpre, hc⟩ := charText_of_scanChar hchar (by simpa using hq)
        obtain ⟨body, rfl, hbody⟩ := ih hrest
        exact ⟨pre ++ body, by rw [hpre, List.append_assoc], .cons hc hbody⟩

theorem BodyText.scanString {s body : List Char} (h : BodyText s body) {n : Nat}
    (hn : body.length < n) (t : List Char) :
    JsonText.scanString n (body ++ quote :: t) = some (s, t) := by
  induction h generalizing n with
  | nil =>
    cases n with
    | zero => omega
    | succ n => rw [List.nil_append, JsonText.scanString, if_pos rfl]
  | @cons c cs s body hc _ ih =>
    obtain ⟨c', cs', hcs, hq⟩ := hc.head
    rw [List.length_append, hcs, List.length_cons] at hn
    cases n with
    | zero => omega
    | succ n =>
      have hchar := hc.scanChar (body ++ quote :: t)
      rw [List.append_assoc]
      rw [hcs, List.cons_append] at hchar ⊢
      simp only [JsonText.scanString, if_neg hq, hchar, Option.bind_eq_bind, Option.bind_some,
        ih (by omega : body.length < n)]

/-! ## Numbers -/

def Delimited (t : List Char) : Prop :=
  ∀ c ∈ t.head?, isWhitespace c = true ∨ c = ',' ∨ c = ']' ∨ c = Char.ofNat 125

theorem Delimited.ne {t : List Char} (ht : Delimited t) {d : Char} (hd : isWhitespace d = false)
    (hne : d ≠ ',' ∧ d ≠ ']' ∧ d ≠ Char.ofNat 125) : ∀ c ∈ t.head?, c ≠ d := by
  rintro c hc rfl
  rcases ht c hc with h | h | h | h
  · exact Bool.false_ne_true (hd.symm.trans h)
  · exact hne.1 h
  · exact hne.2.1 h
  · exact hne.2.2 h

theorem isWhitespace_iff {c : Char} :
    isWhitespace c = true ↔ c = ' ' ∨ c = '\t' ∨ c = '\n' ∨ c = '\r' := by
  simp [isWhitespace, or_assoc]

theorem Delimited.noDigit {t : List Char} (ht : Delimited t) : NoDigit t := by
  intro c hc
  rcases ht c hc with h | rfl | rfl | rfl
  · rcases isWhitespace_iff.mp h with rfl | rfl | rfl | rfl <;> rfl
  all_goals rfl

structure NumeralText (numeral : List Char × Bool) (cs : List Char) : Prop where
  tokens : ∀ c ∈ cs, Token c
  start : ∃ c cs', cs = c :: cs' ∧ (c = '-' ∨ c.isDigit = true)
  scan : ∀ t, Delimited t → scanNumeral (cs ++ t) = some (numeral, t)

theorem token_of_takeWhile (cs : List Char) : ∀ c ∈ cs.takeWhile Char.isDigit, Token c :=
  fun _ hc => token_of_isDigit (List.mem_takeWhile_imp hc)

theorem takeWhile_digits {ds t : List Char} (hds : ∀ c ∈ ds, c.isDigit = true) (ht : NoDigit t) :
    (ds ++ t).takeWhile Char.isDigit = ds ∧ (ds ++ t).dropWhile Char.isDigit = t := by
  obtain ⟨htake, hdrop⟩ := takeWhile_append ht ds
  rw [htake, hdrop, List.takeWhile_eq_self_iff.mpr hds, List.dropWhile_eq_nil_iff.mpr hds]
  exact ⟨rfl, rfl⟩

theorem digits_of_takeWhile (cs : List Char) : ∀ c ∈ cs.takeWhile Char.isDigit, c.isDigit = true :=
  fun _ hc => List.mem_takeWhile_imp hc

theorem scanWhole_split {cs w r : List Char} (h : scanWhole cs = some (w, r)) :
    cs = w ++ r ∧ (∃ c w', w = c :: w' ∧ c.isDigit = true ∧ ∀ c ∈ w', c.isDigit = true) ∧
      ∀ t, NoDigit t → scanWhole (w ++ t) = some (w, t) := by
  cases cs with
  | nil => cases h
  | cons c cs =>
    rw [scanWhole] at h
    split_ifs at h with hzero hdigit
    · cases h
      subst hzero
      exact ⟨rfl, ⟨'0', [], rfl, rfl, List.forall_mem_nil _⟩, fun t _ => rfl⟩
    · cases h
      refine ⟨by rw [List.cons_append, List.takeWhile_append_dropWhile],
        ⟨c, _, rfl, hdigit, digits_of_takeWhile cs⟩, fun t ht => ?_⟩
      obtain ⟨htake, hdrop⟩ := takeWhile_digits (digits_of_takeWhile cs) ht
      rw [List.cons_append, scanWhole, if_neg hzero, if_pos hdigit, htake, hdrop]

theorem scanSigned_split {cs w r : List Char} (h : scanSigned cs = some (w, r)) :
    cs = w ++ r ∧ (∀ c ∈ w, Token c) ∧ (∃ c w', w = c :: w' ∧ (c = '-' ∨ c.isDigit = true)) ∧
      ∀ t, NoDigit t → scanSigned (w ++ t) = some (w, t) := by
  have htokens : ∀ {c : Char} {w : List Char}, c.isDigit = true → (∀ x ∈ w, x.isDigit = true) →
      ∀ x ∈ c :: w, Token x := fun hc hw =>
    List.forall_mem_cons.mpr ⟨token_of_isDigit hc, fun x h => token_of_isDigit (hw x h)⟩
  unfold scanSigned at h
  split at h
  next cs =>
    obtain ⟨⟨w', r'⟩, hw, heq⟩ := Option.map_eq_some_iff.mp h
    cases heq
    obtain ⟨rfl, ⟨c, w'', rfl, hc, hw''⟩, hscan⟩ := scanWhole_split hw
    refine ⟨rfl, List.forall_mem_cons.mpr ⟨token_of_toNat (by decide) (by decide) (by decide),
      htokens hc hw''⟩, ⟨'-', _, rfl, .inl rfl⟩, fun t ht => ?_⟩
    rw [List.cons_append, scanSigned, hscan t ht]
    rfl
  next hne =>
    obtain ⟨rfl, ⟨c, w', rfl, hc, hw'⟩, hscan⟩ := scanWhole_split h
    refine ⟨rfl, htokens hc hw', ⟨c, w', rfl, .inr hc⟩, fun t ht => ?_⟩
    unfold scanSigned
    split
    next heq => exact absurd (by rw [List.cons_append, (List.cons.inj heq).1]) (hne (w' ++ r))
    next => exact hscan t ht

/-- A part of a numeral that may be missing, and that a mark begins if it is there. -/
structure OptionalPart (scan : List Char → List Char × List Char) (mark : Char → Prop)
    (cs : List Char) : Prop where
  split : cs = (scan cs).1 ++ (scan cs).2
  tokens : ∀ c ∈ (scan cs).1, Token c
  start : ∀ c ∈ (scan cs).1.head?, mark c
  scan : ∀ t, NoDigit t → ((scan cs).1 = [] → ∀ c ∈ t.head?, ¬ mark c) →
    scan ((scan cs).1 ++ t) = ((scan cs).1, t)

theorem optionalPart_none {scan : List Char → List Char × List Char} {mark : Char → Prop}
    (hscan : ∀ t, (∀ c ∈ t.head?, ¬ mark c) → scan t = ([], t)) {cs : List Char}
    (h : scan cs = ([], cs)) : OptionalPart scan mark cs := by
  constructor <;> rw [h]
  · rfl
  · exact List.forall_mem_nil _
  · simp
  · exact fun t _ ht => hscan t (ht rfl)

theorem scanFraction_of_ne (t : List Char) (h : ∀ c ∈ t.head?, ¬ c = '.') :
    scanFraction t = ([], t) := by
  unfold scanFraction
  split
  next => exact absurd rfl (h '.' rfl)
  next => rfl

theorem scanFraction_part (cs : List Char) : OptionalPart scanFraction (· = '.') cs := by
  by_cases hdot : ∀ c ∈ cs.head?, ¬ c = '.'
  · exact optionalPart_none scanFraction_of_ne (scanFraction_of_ne cs hdot)
  · obtain ⟨cs, rfl⟩ : ∃ cs', cs = '.' :: cs' := by
      cases cs with
      | nil => exact absurd (by simp) hdot
      | cons c cs => exact ⟨cs, by simpa using hdot⟩
    by_cases hempty : cs.takeWhile Char.isDigit = []
    · exact optionalPart_none scanFraction_of_ne (by rw [scanFraction, if_pos hempty])
    · have hscan : scanFraction ('.' :: cs) =
          ('.' :: cs.takeWhile Char.isDigit, cs.dropWhile Char.isDigit) := by
        rw [scanFraction, if_neg hempty]
      constructor <;> rw [hscan]
      · rw [List.cons_append, List.takeWhile_append_dropWhile]
      · exact List.forall_mem_cons.mpr ⟨token_of_toNat (by decide) (by decide) (by decide),
          token_of_takeWhile cs⟩
      · simp
      · intro t ht _
        obtain ⟨htake, hdrop⟩ := takeWhile_digits (digits_of_takeWhile cs) ht
        rw [List.cons_append, scanFraction, htake, hdrop, if_neg hempty]

theorem scanExponent_cons (e : Char) (cs : List Char) : scanExponent (e :: cs) =
    if (e = 'e' ∨ e = 'E') ∧ (scanSign cs).2.takeWhile Char.isDigit ≠ [] then
      (e :: (scanSign cs).1 ++ (scanSign cs).2.takeWhile Char.isDigit,
        (scanSign cs).2.dropWhile Char.isDigit)
    else ([], e :: cs) := rfl

theorem scanExponent_of_ne (t : List Char) (h : ∀ c ∈ t.head?, ¬ (c = 'e' ∨ c = 'E')) :
    scanExponent t = ([], t) := by
  cases t with
  | nil => rfl
  | cons c t => rw [scanExponent_cons, if_neg fun hc => h c rfl hc.1]

theorem scanSign_split (cs : List Char) : cs = (scanSign cs).1 ++ (scanSign cs).2 ∧
    (∀ c ∈ (scanSign cs).1, Token c) ∧
    ∀ ds, (∃ c ∈ ds.head?, c.isDigit = true) → scanSign ((scanSign cs).1 ++ ds) =
      ((scanSign cs).1, ds) := by
  have hdigits : ∀ ds : List Char, (∃ c ∈ ds.head?, c.isDigit = true) → scanSign ds = ([], ds) := by
    rintro (_ | ⟨c, ds⟩) ⟨c', hc, hdigit⟩
    · cases hc
    · cases hc
      rw [scanSign, if_neg]
      rintro (rfl | rfl) <;> cases hdigit
  cases cs with
  | nil => exact ⟨rfl, List.forall_mem_nil _, hdigits⟩
  | cons c cs =>
    rw [scanSign]
    split_ifs with hsign
    · refine ⟨rfl, List.forall_mem_singleton.mpr ?_, fun ds _ => ?_⟩
      · rcases hsign with rfl | rfl <;>
          exact token_of_toNat (by decide) (by decide) (by decide)
      · rw [List.singleton_append, scanSign, if_pos hsign]
    · exact ⟨rfl, List.forall_mem_nil _, hdigits⟩

theorem scanExponent_part (cs : List Char) :
    OptionalPart scanExponent (fun c => c = 'e' ∨ c = 'E') cs := by
  cases cs with
  | nil => exact optionalPart_none scanExponent_of_ne rfl
  | cons e cs =>
    obtain ⟨hsplit, htokens, hsign⟩ := scanSign_split cs
    by_cases hexp : (e = 'e' ∨ e = 'E') ∧ (scanSign cs).2.takeWhile Char.isDigit ≠ []
    · obtain ⟨he, hne⟩ := hexp
      have hscan := scanExponent_cons e cs
      rw [if_pos ⟨he, hne⟩] at hscan
      constructor <;> rw [hscan]
      · conv_lhs => rw [hsplit]
        simp
      · simp only [List.cons_append, List.forall_mem_cons, List.forall_mem_append]
        refine ⟨?_, htokens, token_of_takeWhile _⟩
        rcases he with rfl | rfl <;> exact token_of_toNat (by decide) (by decide) (by decide)
      · simpa using he
      · intro t ht _
        have hdigits := digits_of_takeWhile (scanSign cs).2
        obtain ⟨htake, hdrop⟩ := takeWhile_digits hdigits ht
        have hhead : ∃ c ∈ ((scanSign cs).2.takeWhile Char.isDigit ++ t).head?,
            c.isDigit = true := by
          cases hds : (scanSign cs).2.takeWhile Char.isDigit with
          | nil => exact absurd hds hne
          | cons d ds => exact ⟨d, rfl, hdigits d (by simp [hds])⟩
        have hrest := hsign _ hhead
        rw [List.cons_append, List.cons_append, List.append_assoc, scanExponent_cons, hrest]
        simp only [htake, hdrop]
        rw [if_pos ⟨he, hne⟩, List.cons_append]
    · exact optionalPart_none scanExponent_of_ne (by rw [scanExponent_cons, if_neg hexp])

theorem scanNumeral_eq {cs w cs' : List Char} (h : scanSigned cs = some (w, cs')) :
    scanNumeral cs = some ((w ++ (scanFraction cs').1 ++ (scanExponent (scanFraction cs').2).1,
      decide ((scanFraction cs').1 ++ (scanExponent (scanFraction cs').2).1 ≠ [])),
        (scanExponent (scanFraction cs').2).2) := by
  simp only [scanNumeral, h]
  rfl

theorem head_append {φ : Char → Prop} {cs t : List Char} (h : ∀ c ∈ cs.head?, φ c)
    (ht : cs = [] → ∀ c ∈ t.head?, φ c) : ∀ c ∈ (cs ++ t).head?, φ c := by
  cases cs with
  | nil => exact ht rfl
  | cons c cs => exact h

theorem numeralText_of_scanNumeral {cs r : List Char} {numeral : List Char × Bool}
    (h : scanNumeral cs = some (numeral, r)) : ∃ pre, cs = pre ++ r ∧ NumeralText numeral pre := by
  cases hw : scanSigned cs with
  | none => simp [scanNumeral, hw] at h
  | some whole =>
    obtain ⟨w, cs'⟩ := whole
    rw [scanNumeral_eq hw] at h
    obtain ⟨rfl, htokens, ⟨c, w', hstart, hc⟩, hscan⟩ := scanSigned_split hw
    obtain ⟨hnumeral, hr⟩ := Prod.mk.inj (Option.some.inj h)
    have hf := scanFraction_part cs'
    have he := scanExponent_part (scanFraction cs').2
    generalize hf₁ : (scanFraction cs').1 = f at *
    generalize he₁ : (scanExponent (scanFraction cs').2).1 = e at *
    refine ⟨w ++ f ++ e, ?_, ?_, ⟨c, w' ++ f ++ e, by simp [hstart], hc⟩, fun t ht => ?_⟩
    · rw [List.append_assoc, List.append_assoc, List.append_cancel_left_eq]
      conv_lhs => rw [hf.split, he.split]
      rw [hf₁, he₁, hr]
    · simp only [List.forall_mem_append]
      exact ⟨⟨htokens, hf₁ ▸ hf.tokens⟩, he₁ ▸ he.tokens⟩
    · -- Each part ends where it did: what stands behind it begins with another mark.
      have hmark : ∀ c ∈ e.head?, c = 'e' ∨ c = 'E' := he₁ ▸ he.start
      have hdot : ∀ c ∈ f.head?, c = '.' := hf₁ ▸ hf.start
      have hexp : NoDigit (e ++ t) := by
        refine head_append (fun c hc => ?_) fun _ => ht.noDigit
        rcases hmark c hc with rfl | rfl <;> rfl
      have hfrac : NoDigit (f ++ (e ++ t)) := by
        refine head_append (fun c hc => ?_) fun _ => hexp
        rw [hdot c hc]
        rfl
      have hne : ∀ c ∈ (e ++ t).head?, ¬ c = '.' := by
        refine head_append (fun c hc => ?_) fun _ => ht.ne rfl (by decide)
        rcases hmark c hc with rfl | rfl <;> decide
      have hexpScan : scanExponent (e ++ t) = (e, t) := by
        have hscan := he.scan t ht.noDigit
        rw [he₁] at hscan
        apply hscan
        intro _ c hc
        rintro (rfl | rfl)
        · exact ht.ne rfl (by decide) 'e' hc rfl
        · exact ht.ne rfl (by decide) 'E' hc rfl
      have hfracScan : scanFraction (f ++ (e ++ t)) = (f, e ++ t) := by
        have hscan := hf.scan (e ++ t) hexp
        rw [hf₁] at hscan
        exact hscan fun _ => hne
      rw [List.append_assoc, List.append_assoc, scanNumeral_eq (hscan _ hfrac), hfracScan, hexpScan,
        ← hnumeral]

end JsonText
