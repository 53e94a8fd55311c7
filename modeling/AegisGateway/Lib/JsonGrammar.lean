import AegisGateway.Lib.JsonTokens

/-!
# The grammar of JSON texts

What the decoder accepts, as derivations: each text that it reads is spelled out from the
tokens of its value and white space between them, and each text so spelled is read.
-/

namespace JsonText

/-! ## Derivations -/

def White (ws : List Char) : Prop := ∀ c ∈ ws, isWhitespace c = true

inductive KeyText : String → List Char → Prop
  | mk {ws wk wv key body : List Char} (hws : White ws) (h : BodyText key body) (hwk : White wk)
      (hwv : White wv) :
      KeyText (String.ofList key) (ws ++ quote :: (body ++ quote :: (wk ++ ':' :: wv)))

/-- The parts of a text: a value, or the items or the fields that are left of one. -/
inductive Part where
  | value (j : Json)
  | items (items : List Json)
  | fields (fields : Object)

inductive Spells (floatOf : List Char → PyFloat) : Part → List Char → Prop
  | null : Spells floatOf (.value .null) ['n', 'u', 'l', 'l']
  | boolTrue : Spells floatOf (.value (.bool true)) ['t', 'r', 'u', 'e']
  | boolFalse : Spells floatOf (.value (.bool false)) ['f', 'a', 'l', 's', 'e']
  | number {numeral : List Char × Bool} {cs : List Char} (h : NumeralText numeral cs) :
      Spells floatOf (.value (numeralValue floatOf numeral)) cs
  | str {s body : List Char} (h : BodyText s body) :
      Spells floatOf (.value (.str (String.ofList s))) (quote :: (body ++ [quote]))
  | emptyArr {ws : List Char} (h : White ws) :
      Spells floatOf (.value (.arr [])) ('[' :: (ws ++ [']']))
  | arr {items : List Json} {cs : List Char} (h : Spells floatOf (.items items) cs) :
      Spells floatOf (.value (.arr items)) ('[' :: cs)
  | emptyObj {ws : List Char} (h : White ws) :
      Spells floatOf (.value (.obj [])) (Char.ofNat 123 :: (ws ++ [Char.ofNat 125]))
  | obj {fields : Object} {cs : List Char} (h : Spells floatOf (.fields fields) cs) :
      Spells floatOf (.value (.obj (dictOf fields))) (Char.ofNat 123 :: cs)
  | lastItem {ws ws' cs : List Char} {j : Json} (hws : White ws) (h : Spells floatOf (.value j) cs)
      (hws' : White ws') : Spells floatOf (.items [j]) (ws ++ (cs ++ (ws' ++ [']'])))
  | item {ws ws' cs cs' : List Char} {j : Json} {items : List Json} (hws : White ws)
      (h : Spells floatOf (.value j) cs) (hws' : White ws')
      (hitems : Spells floatOf (.items items) cs') :
      Spells floatOf (.items (j :: items)) (ws ++ (cs ++ (ws' ++ ',' :: cs')))
  | lastField {k : String} {ck ws' cs : List Char} {j : Json} (hk : KeyText k ck)
      (h : Spells floatOf (.value j) cs) (hws' : White ws') :
      Spells floatOf (.fields [(k, j)]) (ck ++ (cs ++ (ws' ++ [Char.ofNat 125])))
  | field {k : String} {ck ws' cs cs' : List Char} {j : Json} {fields : Object} (hk : KeyText k ck)
      (h : Spells floatOf (.value j) cs) (hws' : White ws')
      (hfields : Spells floatOf (.fields fields) cs') :
      Spells floatOf (.fields ((k, j) :: fields)) (ck ++ (cs ++ (ws' ++ ',' :: cs')))

variable {floatOf : List Char → PyFloat}

/-! ## What is read is spelled -/

theorem skip_split (cs : List Char) : ∃ ws, White ws ∧ cs = ws ++ skip cs :=
  ⟨cs.takeWhile isWhitespace, fun _ hc => List.mem_takeWhile_imp hc,
    List.takeWhile_append_dropWhile.symm⟩

theorem expect_split {c : Char} {cs r : List Char} (h : expect c cs = some r) :
    ∃ ws, White ws ∧ cs = ws ++ c :: r := by
  obtain ⟨ws, hws, hcs⟩ := skip_split cs
  refine ⟨ws, hws, ?_⟩
  unfold expect at h
  split at h
  next c' cs' hskip =>
    split_ifs at h with hc
    cases h
    rw [hcs, hskip, hc]
  next => cases h

theorem keyText_of_scan {cs cs₁ cs₂ : List Char} {k : String} (h : scanQuoted cs = some (k, cs₁))
    (h' : expect ':' cs₁ = some cs₂) : ∃ ck, KeyText k ck ∧ cs = ck ++ skip cs₂ := by
  obtain ⟨cs₀, hquote, h⟩ := Option.bind_eq_some_iff.mp h
  obtain ⟨⟨s, r⟩, hstring, heq⟩ := Option.bind_eq_some_iff.mp h
  cases heq
  obtain ⟨ws, hws, rfl⟩ := expect_split hquote
  obtain ⟨body, rfl, hbody⟩ := bodyText_of_scanString hstring
  obtain ⟨wk, hwk, rfl⟩ := expect_split h'
  obtain ⟨wv, hwv, hcs₂⟩ := skip_split cs₂
  refine ⟨_, .mk hws hbody hwk hwv, ?_⟩
  conv_lhs => rw [hcs₂]
  simp

/-- The scanners with the bound `n`. -/
structure Sound (floatOf : List Char → PyFloat) (n : Nat) : Prop where
  value : ∀ {cs j r}, scanValue floatOf n cs = some (j, r) →
    ∃ pre, cs = pre ++ r ∧ Spells floatOf (.value j) pre
  items : ∀ {cs items r}, scanItems floatOf n cs = some (items, r) →
    ∃ pre, cs = pre ++ r ∧ Spells floatOf (.items items) pre
  fields : ∀ {cs fields r}, scanFields floatOf n cs = some (fields, r) →
    ∃ pre, cs = pre ++ r ∧ Spells floatOf (.fields fields) pre

theorem spells_of_scanScalar {cs r : List Char} {j : Json}
    (h : scanScalar floatOf cs = some (j, r)) :
    ∃ pre, cs = pre ++ r ∧ Spells floatOf (.value j) pre := by
  unfold scanScalar at h
  split at h
  · cases h
    exact ⟨_, rfl, .null⟩
  · cases h
    exact ⟨_, rfl, .boolTrue⟩
  · cases h
    exact ⟨_, rfl, .boolFalse⟩
  · obtain ⟨⟨numeral, r'⟩, hscan, heq⟩ := Option.map_eq_some_iff.mp h
    cases heq
    obtain ⟨pre, rfl, htext⟩ := numeralText_of_scanNumeral hscan
    exact ⟨pre, rfl, .number htext⟩

theorem sound_value {n : Nat} (ih : Sound floatOf n) {cs r : List Char} {j : Json}
    (h : scanValue floatOf (n + 1) cs = some (j, r)) :
    ∃ pre, cs = pre ++ r ∧ Spells floatOf (.value j) pre := by
  cases cs with
  | nil => cases h
  | cons c cs =>
    rw [scanValue] at h
    split_ifs at h with hq hbrace hbracket
    · obtain ⟨⟨s, r'⟩, hscan, heq⟩ := Option.map_eq_some_iff.mp h
      cases heq
      obtain ⟨body, rfl, hbody⟩ := bodyText_of_scanString hscan
      exact ⟨quote :: (body ++ [quote]), by simp [hq], .str hbody⟩
    · subst hbrace
      split at h
      next cs' hclose =>
        cases h
        obtain ⟨ws, hws, rfl⟩ := expect_split hclose
        exact ⟨_, by simp, .emptyObj hws⟩
      next =>
        obtain ⟨⟨fields, r'⟩, hscan, heq⟩ := Option.map_eq_some_iff.mp h
        cases heq
        obtain ⟨pre, rfl, hpre⟩ := ih.fields hscan
        exact ⟨_, rfl, .obj hpre⟩
    · subst hbracket
      split at h
      next cs' hclose =>
        cases h
        obtain ⟨ws, hws, rfl⟩ := expect_split hclose
        exact ⟨_, by simp, .emptyArr hws⟩
      next =>
        obtain ⟨⟨items, r'⟩, hscan, heq⟩ := Option.map_eq_some_iff.mp h
        cases heq
        obtain ⟨pre, rfl, hpre⟩ := ih.items hscan
        exact ⟨_, rfl, .arr hpre⟩
    · exact spells_of_scanScalar h

theorem sound_items {n : Nat} (ih : Sound floatOf n) {cs r : List Char} {items : List Json}
    (h : scanItems floatOf (n + 1) cs = some (items, r)) :
    ∃ pre, cs = pre ++ r ∧ Spells floatOf (.items items) pre := by
  rw [scanItems] at h
  obtain ⟨⟨j, cs₁⟩, hvalue, h⟩ := Option.bind_eq_some_iff.mp h
  obtain ⟨ws, hws, hcs⟩ := skip_split cs
  obtain ⟨pre, hpre, hj⟩ := ih.value hvalue
  rw [hpre] at hcs
  dsimp only at h
  split at h
  next cs₂ hcomma =>
    obtain ⟨⟨rest, r'⟩, hrest, heq⟩ := Option.bind_eq_some_iff.mp h
    cases heq
    obtain ⟨ws', hws', rfl⟩ := expect_split hcomma
    obtain ⟨pre', rfl, hitems⟩ := ih.items hrest
    exact ⟨_, by rw [hcs]; simp, .item hws hj hws' hitems⟩
  next =>
    obtain ⟨cs₂, hclose, heq⟩ := Option.bind_eq_some_iff.mp h
    cases heq
    obtain ⟨ws', hws', rfl⟩ := expect_split hclose
    exact ⟨_, by rw [hcs]; simp, .lastItem hws hj hws'⟩

theorem sound_fields {n : Nat} (ih : Sound floatOf n) {cs r : List Char} {fields : Object}
    (h : scanFields floatOf (n + 1) cs = some (fields, r)) :
    ∃ pre, cs = pre ++ r ∧ Spells floatOf (.fields fields) pre := by
  rw [scanFields] at h
  obtain ⟨⟨k, cs₁⟩, hkey, h⟩ := Option.bind_eq_some_iff.mp h
  obtain ⟨cs₂, hcolon, h⟩ := Option.bind_eq_some_iff.mp h
  obtain ⟨⟨j, cs₃⟩, hvalue, h⟩ := Option.bind_eq_some_iff.mp h
  obtain ⟨ck, hk, hcs⟩ := keyText_of_scan hkey hcolon
  obtain ⟨pre, hpre, hj⟩ := ih.value hvalue
  rw [hpre] at hcs
  dsimp only at h
  split at h
  next cs₄ hcomma =>
    obtain ⟨⟨rest, r'⟩, hrest, heq⟩ := Option.bind_eq_some_iff.mp h
    cases heq
    obtain ⟨ws', hws', rfl⟩ := expect_split hcomma
    obtain ⟨pre', rfl, hfields⟩ := ih.fields hrest
    exact ⟨_, by rw [hcs]; simp, .field hk hj hws' hfields⟩
  next =>
    obtain ⟨cs₄, hclose, heq⟩ := Option.bind_eq_some_iff.mp h
    cases heq
    obtain ⟨ws', hws', rfl⟩ := expect_split hclose
    exact ⟨_, by rw [hcs]; simp, .lastField hk hj hws'⟩

theorem sound (floatOf : List Char → PyFloat) (n : Nat) : Sound floatOf n := by
  induction n with
  | zero =>
    constructor
    · intro cs j r h
      rw [scanValue] at h
      cases h
    · intro cs items r h
      cases h
    · intro cs fields r h
      cases h
  | succ n ih => exact ⟨sound_value ih, sound_items ih, sound_fields ih⟩

theorem spells_of_loads {s : String} {j : Json} (h : loads floatOf s = some j) :
    ∃ ws cs ws', s.toList = ws ++ (cs ++ ws') ∧ White ws ∧ White ws' ∧
      Spells floatOf (.value j) cs := by
  obtain ⟨⟨j', r⟩, hscan, h⟩ := Option.bind_eq_some_iff.mp h
  dsimp only at h
  split_ifs at h with hend
  cases h
  obtain ⟨ws, hws, hcs⟩ := skip_split s.toList
  obtain ⟨ws', hws', hr⟩ := skip_split r
  obtain ⟨pre, hpre, hspells⟩ := (sound floatOf _).value hscan
  rw [hend, List.append_nil] at hr
  exact ⟨ws, pre, ws', by rw [hcs, hpre, hr], hws, hws', hspells⟩

/-! ## What is spelled is read -/

theorem isWhitespace_of_visible {c : Char} (h : isVisible c = true) : isWhitespace c = false := by
  have hrange := isVisible_iff.mp h
  by_contra hws
  rw [Bool.not_eq_false, isWhitespace_iff] at hws
  rcases hws with rfl | rfl | rfl | rfl <;> revert hrange <;> decide

theorem Spells.head {j : Json} {cs : List Char} (h : Spells floatOf (.value j) cs) :
    ∃ c cs', cs = c :: cs' ∧ isVisible c = true ∧ c ≠ ']' := by
  cases h with
  | null | boolTrue | boolFalse | emptyArr | arr | emptyObj | obj | str =>
    exact ⟨_, _, rfl, rfl, by decide⟩
  | number h =>
    obtain ⟨c, cs', rfl, hc⟩ := h.start
    refine ⟨c, cs', rfl, (h.tokens c List.mem_cons_self).visible, ?_⟩
    rintro rfl
    rcases hc with hc | hc
    · exact absurd hc (by decide)
    · cases hc

theorem skip_value {j : Json} {ws cs : List Char} (hws : White ws)
    (h : Spells floatOf (.value j) cs) (t : List Char) : skip (ws ++ (cs ++ t)) = cs ++ t := by
  obtain ⟨c, cs', rfl, hc, -⟩ := h.head
  rw [skip_append hws, List.cons_append, skip_cons (isWhitespace_of_visible hc)]

theorem expect_white {ws : List Char} (hws : White ws) {c d : Char} (hd : isWhitespace d = false)
    (t : List Char) : expect c (ws ++ d :: t) = if d = c then some t else none := by
  rw [expect, skip_append hws, skip_cons hd]

theorem delimited_white {ws : List Char} (hws : White ws) {t : List Char} (ht : Delimited t) :
    Delimited (ws ++ t) :=
  head_append (fun c hc => .inl (hws c (List.mem_of_mem_head? hc))) fun _ => ht

theorem delimited_cons {c : Char} (h : c = ',' ∨ c = ']' ∨ c = Char.ofNat 125) (t : List Char) :
    Delimited (c :: t) := by
  rintro c' ⟨⟩
  exact .inr h

theorem scanQuoted_key {ws body key : List Char} (hws : White ws) (h : BodyText key body)
    (t : List Char) :
    scanQuoted (ws ++ quote :: (body ++ quote :: t)) = some (String.ofList key, t) := by
  have hlen : body.length < (body ++ quote :: t).length := by simp
  simp only [scanQuoted, expect_white hws (show isWhitespace quote = false from rfl), if_true,
    Option.bind_eq_bind, Option.bind_some, h.scanString hlen]

def IsRead (floatOf : List Char → PyFloat) : Part → List Char → Prop
  | .value j, cs => ∀ n t, Delimited t → cs.length ≤ n →
    scanValue floatOf n (cs ++ t) = some (j, t)
  | .items items, cs => (∀ t, expect ']' (cs ++ t) = none) ∧ ∀ n t, cs.length ≤ n →
    scanItems floatOf n (cs ++ t) = some (items, t)
  | .fields fields, cs => (∀ t, expect (Char.ofNat 125) (cs ++ t) = none) ∧
    ∀ n t, cs.length ≤ n → scanFields floatOf n (cs ++ t) = some (fields, t)

theorem isRead_number {numeral : List Char × Bool} {cs : List Char} (h : NumeralText numeral cs) :
    IsRead floatOf (.value (numeralValue floatOf numeral)) cs := by
  intro n t ht hn
  have hscan := h.scan t ht
  obtain ⟨c, cs', rfl, hc⟩ := h.start
  obtain ⟨n, rfl⟩ := Nat.exists_eq_add_of_le' (Nat.le_trans (Nat.succ_le_succ (Nat.zero_le _)) hn)
  have hne : ∀ d, d ≠ '-' → d.isDigit = false → c ≠ d := by
    rintro d hd hdigit rfl
    rcases hc with hc | hc
    · exact hd hc
    · exact Bool.false_ne_true (hdigit.symm.trans hc)
  apply scanValue_scalar (hne _ (by decide) rfl) (hne _ (by decide) rfl) (hne _ (by decide) rfl)
  unfold scanScalar
  split
  next heq => exact absurd (List.cons.inj heq).1 (hne _ (by decide) rfl)
  next heq => exact absurd (List.cons.inj heq).1 (hne _ (by decide) rfl)
  next heq => exact absurd (List.cons.inj heq).1 (hne _ (by decide) rfl)
  next =>
    have hscan : scanNumeral (c :: cs'.append t) = some (numeral, t) := hscan
    rw [hscan, Option.map_some]

theorem isRead_arr {items : List Json} {cs : List Char} (h : IsRead floatOf (.items items) cs) :
    IsRead floatOf (.value (.arr items)) ('[' :: cs) := by
  obtain ⟨hopen, hitems⟩ := h
  intro n t _ hn
  obtain ⟨n, rfl⟩ := Nat.exists_eq_add_of_le' (Nat.le_trans (Nat.succ_le_succ (Nat.zero_le _)) hn)
  rw [List.cons_append, scanValue, if_neg (by decide), if_neg (by decide), if_pos rfl, hopen t,
    hitems n t (by simpa using hn)]
  rfl

theorem isRead_obj {fields : Object} {cs : List Char} (h : IsRead floatOf (.fields fields) cs) :
    IsRead floatOf (.value (.obj (dictOf fields))) (Char.ofNat 123 :: cs) := by
  obtain ⟨hopen, hfields⟩ := h
  intro n t _ hn
  obtain ⟨n, rfl⟩ := Nat.exists_eq_add_of_le' (Nat.le_trans (Nat.succ_le_succ (Nat.zero_le _)) hn)
  rw [List.cons_append, scanValue, if_neg (by decide), if_pos rfl, hopen t,
    hfields n t (by simpa using hn)]
  rfl

theorem read_value {j : Json} {cs : List Char} (h : IsRead floatOf (.value j) cs) {ws : List Char}
    (hws : White ws) {c : Char} (hc : c = ',' ∨ c = ']' ∨ c = Char.ofNat 125) {n : Nat}
    (hn : cs.length ≤ n) (t : List Char) :
    scanValue floatOf n (cs ++ (ws ++ c :: t)) = some (j, ws ++ c :: t) :=
  h n _ (delimited_white hws (delimited_cons hc t)) hn

theorem not_closed {j : Json} {ws cs : List Char} (hws : White ws)
    (h : Spells floatOf (.value j) cs) (t : List Char) : expect ']' (ws ++ (cs ++ t)) = none := by
  obtain ⟨c, cs', rfl, hvisible, hne⟩ := h.head
  rw [List.cons_append, expect_white hws (isWhitespace_of_visible hvisible), if_neg hne]

section Items

variable {ws ws' cs : List Char} {j : Json} (hws : White ws) (h : Spells floatOf (.value j) cs)
  (hws' : White ws') (ih : IsRead floatOf (.value j) cs)

include hws h hws' ih

theorem isRead_lastItem : IsRead floatOf (.items [j]) (ws ++ (cs ++ (ws' ++ [']']))) := by
  refine ⟨fun t => by simpa using not_closed hws h _, fun n t hn => ?_⟩
  simp only [List.length_append, List.length_singleton] at hn
  obtain ⟨n, rfl⟩ := Nat.exists_eq_add_of_le' (show 1 ≤ n by omega)
  have hvalue := read_value ih hws' (.inr (.inl rfl)) (show cs.length ≤ n by omega) t
  have hsplit : ws ++ (cs ++ (ws' ++ [']'])) ++ t = ws ++ (cs ++ (ws' ++ ']' :: t)) := by simp
  rw [hsplit, scanItems, skip_value hws h, hvalue]
  simp only [Option.bind_eq_bind, Option.bind_some,
    expect_white hws' (show isWhitespace ']' = false from rfl)]
  rfl

theorem isRead_item {items : List Json} {cs' : List Char}
    (ihItems : IsRead floatOf (.items items) cs') :
    IsRead floatOf (.items (j :: items)) (ws ++ (cs ++ (ws' ++ ',' :: cs'))) := by
  refine ⟨fun t => by simpa using not_closed hws h _, fun n t hn => ?_⟩
  simp only [List.length_append, List.length_cons] at hn
  obtain ⟨n, rfl⟩ := Nat.exists_eq_add_of_le' (show 1 ≤ n by omega)
  have hvalue := read_value ih hws' (.inl rfl) (show cs.length ≤ n by omega) (cs' ++ t)
  have hsplit : ws ++ (cs ++ (ws' ++ ',' :: cs')) ++ t =
      ws ++ (cs ++ (ws' ++ ',' :: (cs' ++ t))) := by simp
  rw [hsplit, scanItems, skip_value hws h, hvalue]
  simp only [Option.bind_eq_bind, Option.bind_some,
    expect_white hws' (show isWhitespace ',' = false from rfl), if_true,
    ihItems.2 n t (by omega)]

end Items

section Fields

variable {ck ws' cs : List Char} {k : String} {j : Json} (hk : KeyText k ck)
  (h : Spells floatOf (.value j) cs) (hws' : White ws') (ih : IsRead floatOf (.value j) cs)

include hk

theorem not_closed_key (t : List Char) : expect (Char.ofNat 125) (ck ++ t) = none := by
  cases hk with
  | mk hws =>
    rw [List.append_assoc, List.cons_append, expect_white hws rfl, if_neg (by decide)]

include h

theorem scanKey (t : List Char) : ∃ cs₁ cs₂, scanQuoted (ck ++ (cs ++ t)) = some (k, cs₁) ∧
    expect ':' cs₁ = some cs₂ ∧ skip cs₂ = cs ++ t := by
  cases hk with
  | @mk ws wk wv key body hws hbody hwk hwv =>
    refine ⟨wk ++ ':' :: (wv ++ (cs ++ t)), wv ++ (cs ++ t), ?_, ?_, skip_value hwv h t⟩
    · have hscan := scanQuoted_key hws hbody (wk ++ ':' :: (wv ++ (cs ++ t)))
      simpa using hscan
    · rw [expect_white hwk rfl, if_pos rfl]

include hws' ih

theorem isRead_lastField :
    IsRead floatOf (.fields [(k, j)]) (ck ++ (cs ++ (ws' ++ [Char.ofNat 125]))) := by
  refine ⟨fun t => by simpa using not_closed_key hk _, fun n t hn => ?_⟩
  have hpos : 0 < ck.length := by cases hk; simp
  simp only [List.length_append, List.length_singleton] at hn
  obtain ⟨n, rfl⟩ := Nat.exists_eq_add_of_le' (show 1 ≤ n by omega)
  have hvalue := read_value ih hws' (.inr (.inr rfl)) (show cs.length ≤ n by omega) t
  have hsplit : ck ++ (cs ++ (ws' ++ [Char.ofNat 125])) ++ t =
      ck ++ (cs ++ (ws' ++ Char.ofNat 125 :: t)) := by simp
  obtain ⟨cs₁, cs₂, hquoted, hcolon, hskip⟩ :=
    scanKey hk h (ws' ++ Char.ofNat 125 :: t)
  rw [hsplit, scanFields]
  simp only [hquoted, hcolon, hskip, hvalue, Option.bind_eq_bind, Option.bind_some,
    expect_white hws' (show isWhitespace (Char.ofNat 125) = false from rfl)]
  rfl

theorem isRead_field {fields : Object} {cs' : List Char}
    (ihFields : IsRead floatOf (.fields fields) cs') :
    IsRead floatOf (.fields ((k, j) :: fields)) (ck ++ (cs ++ (ws' ++ ',' :: cs'))) := by
  refine ⟨fun t => by simpa using not_closed_key hk _, fun n t hn => ?_⟩
  simp only [List.length_append, List.length_cons] at hn
  obtain ⟨n, rfl⟩ := Nat.exists_eq_add_of_le' (show 1 ≤ n by omega)
  have hvalue := read_value ih hws' (.inl rfl) (show cs.length ≤ n by omega) (cs' ++ t)
  have hsplit : ck ++ (cs ++ (ws' ++ ',' :: cs')) ++ t =
      ck ++ (cs ++ (ws' ++ ',' :: (cs' ++ t))) := by simp
  obtain ⟨cs₁, cs₂, hquoted, hcolon, hskip⟩ :=
    scanKey hk h (ws' ++ ',' :: (cs' ++ t))
  rw [hsplit, scanFields]
  simp only [hquoted, hcolon, hskip, hvalue, Option.bind_eq_bind, Option.bind_some,
    expect_white hws' (show isWhitespace ',' = false from rfl), if_true,
    ihFields.2 n t (by omega)]

end Fields

theorem isRead_str {s body : List Char} (h : BodyText s body) :
    IsRead floatOf (.value (.str (String.ofList s))) (quote :: (body ++ [quote])) := by
  intro n t _ hn
  obtain ⟨n, rfl⟩ := Nat.exists_eq_add_of_le' (Nat.le_trans (Nat.succ_le_succ (Nat.zero_le _)) hn)
  have hsplit : quote :: (body ++ [quote]) ++ t = quote :: (body ++ quote :: t) := by simp
  have hlen : body.length < (body ++ quote :: t).length := by simp
  rw [hsplit, scanValue, if_pos rfl, h.scanString hlen]
  rfl

theorem isRead_emptyArr {ws : List Char} (h : White ws) :
    IsRead floatOf (.value (.arr [])) ('[' :: (ws ++ [']'])) := by
  intro n t _ hn
  obtain ⟨n, rfl⟩ := Nat.exists_eq_add_of_le' (Nat.le_trans (Nat.succ_le_succ (Nat.zero_le _)) hn)
  have hsplit : '[' :: (ws ++ [']']) ++ t = '[' :: (ws ++ ']' :: t) := by simp
  rw [hsplit, scanValue, if_neg (by decide), if_neg (by decide), if_pos rfl,
    expect_white h rfl, if_pos rfl]

theorem isRead_emptyObj {ws : List Char} (h : White ws) :
    IsRead floatOf (.value (.obj [])) (Char.ofNat 123 :: (ws ++ [Char.ofNat 125])) := by
  intro n t _ hn
  obtain ⟨n, rfl⟩ := Nat.exists_eq_add_of_le' (Nat.le_trans (Nat.succ_le_succ (Nat.zero_le _)) hn)
  have hsplit : Char.ofNat 123 :: (ws ++ [Char.ofNat 125]) ++ t =
      Char.ofNat 123 :: (ws ++ Char.ofNat 125 :: t) := by simp
  rw [hsplit, scanValue, if_neg (by decide), if_pos rfl, expect_white h rfl, if_pos rfl]

theorem isRead_of_spells {p : Part} {cs : List Char} (h : Spells floatOf p cs) :
    IsRead floatOf p cs := by
  induction h with
  | null =>
    intro n t _ hn
    obtain ⟨n, rfl⟩ := Nat.exists_eq_add_of_le' hn
    exact scanValue_scalar (by decide) (by decide) (by decide) rfl
  | boolTrue =>
    intro n t _ hn
    obtain ⟨n, rfl⟩ := Nat.exists_eq_add_of_le' hn
    exact scanValue_scalar (by decide) (by decide) (by decide) rfl
  | boolFalse =>
    intro n t _ hn
    obtain ⟨n, rfl⟩ := Nat.exists_eq_add_of_le' hn
    exact scanValue_scalar (by decide) (by decide) (by decide) rfl
  | number h => exact isRead_number h
  | str h => exact isRead_str h
  | emptyArr h => exact isRead_emptyArr h
  | arr _ ih => exact isRead_arr ih
  | emptyObj h => exact isRead_emptyObj h
  | obj _ ih => exact isRead_obj ih
  | lastItem hws h hws' ih => exact isRead_lastItem hws h hws' ih
  | item hws h hws' _ ih ihItems => exact isRead_item hws h hws' ih ihItems
  | lastField hk h hws' ih => exact isRead_lastField hk h hws' ih
  | field hk h hws' _ ih ihFields => exact isRead_field hk h hws' ih ihFields

theorem skip_white {ws : List Char} (h : White ws) : skip ws = [] := List.dropWhile_eq_nil_iff.mpr h

theorem loads_of_spells {j : Json} {ws cs ws' : List Char} (hws : White ws)
    (h : Spells floatOf (.value j) cs) (hws' : White ws') :
    loads floatOf (String.ofList (ws ++ (cs ++ ws'))) = some j := by
  have hdelimited : Delimited ws' := by
    have hend := delimited_white hws' (t := []) (by simp [Delimited])
    rwa [List.append_nil] at hend
  have hvalue := isRead_of_spells h (ws ++ (cs ++ ws')).length ws' hdelimited (by simp; omega)
  rw [loads, String.toList_ofList, skip_value hws h, hvalue]
  simp only [Option.bind_eq_bind, Option.bind_some, skip_white hws', if_true]

end JsonText
