import AegisGateway.Lib.Json
import Mathlib.Data.Nat.Digits.Lemmas

/-!
# Unique readability

A value can be read off its text: two values with the same text are the same value, up to
the order of keys that `json.dumps` itself forgets.
-/

namespace JsonText

/-! ## Characters -/

theorem digitChar_inj {a b : Nat} (ha : a < 16) (hb : b < 16)
    (h : Nat.digitChar a = Nat.digitChar b) : a = b := by
  have hall : ∀ a b : Fin 16, Nat.digitChar a = Nat.digitChar b → a = b := by decide
  have hab := hall ⟨a, ha⟩ ⟨b, hb⟩ h
  exact Fin.mk.inj hab

theorem hexDigit_inj {a b : Nat} (h : hexDigit a = hexDigit b) : a % 16 = b % 16 :=
  digitChar_inj (Nat.mod_lt _ (by omega)) (Nat.mod_lt _ (by omega)) h

theorem hex4_inj {a b : Nat} (ha : a < 65536) (hb : b < 65536) (h : hex4 a = hex4 b) : a = b := by
  simp only [hex4, List.cons.injEq, and_true] at h
  obtain ⟨h₁, h₂, h₃, h₄⟩ := h
  have h₁ := hexDigit_inj h₁
  have h₂ := hexDigit_inj h₂
  have h₃ := hexDigit_inj h₃
  have h₄ := hexDigit_inj h₄
  omega

def shortCode (e : Char) : Nat :=
  match e with
  | 'n' => 10
  | 'r' => 13
  | 't' => 9
  | 'f' => 12
  | 'b' => 8
  | e => e.toNat

theorem toNat_of_shortEscape {c e : Char} (h : shortEscape c = some e) :
    c.toNat = shortCode e ∧ e ≠ 'u' := by
  unfold shortEscape at h
  split_ifs at h with h₁ h₂ <;> cases h
  · exact ⟨by rw [h₁]; rfl, by decide⟩
  · exact ⟨by rw [h₂]; rfl, by decide⟩
  all_goals exact ⟨by assumption, by decide⟩

theorem shortEscape_inj {c c' e : Char} (h : shortEscape c = some e)
    (h' : shortEscape c' = some e) : c = c' :=
  Char.toNat_inj.mp ((toNat_of_shortEscape h).1.trans (toNat_of_shortEscape h').1.symm)

theorem ne_of_shortEscape_none {c : Char} (h : shortEscape c = none) : c ≠ quote ∧ c ≠ backslash := by
  constructor <;> rintro rfl <;> cases h

theorem escapeChar_cases (ascii : Bool) (c : Char) :
    (∃ e, shortEscape c = some e ∧ escapeChar ascii c = [backslash, e]) ∨
      (c ≠ quote ∧ c ≠ backslash ∧ escapeChar ascii c = [c]) ∨
      (c.toNat < 65536 ∧ escapeChar ascii c = backslash :: 'u' :: hex4 c.toNat) ∨
      (65536 ≤ c.toNat ∧ escapeChar ascii c =
        backslash :: 'u' :: hex4 (55296 + (c.toNat - 65536) / 1024) ++
          backslash :: 'u' :: hex4 (56320 + (c.toNat - 65536) % 1024)) := by
  unfold escapeChar
  cases h : shortEscape c with
  | some e => exact .inl ⟨e, rfl, rfl⟩
  | none =>
    obtain ⟨hq, hb⟩ := ne_of_shortEscape_none h
    simp only
    split_ifs with hp hs
    · exact .inr (.inl ⟨hq, hb, rfl⟩)
    · exact .inr (.inr (.inl ⟨hs, rfl⟩))
    · exact .inr (.inr (.inr ⟨by omega, rfl⟩))

theorem toNat_valid (c : Char) : c.toNat < 55296 ∨ 57343 < c.toNat ∧ c.toNat < 1114112 := c.valid

theorem hex4_append_inj {a b : Nat} (ha : a < 65536) (hb : b < 65536) {t t' : List Char}
    (h : hex4 a ++ t = hex4 b ++ t') : a = b ∧ t = t' := by
  obtain ⟨hab, ht⟩ := List.append_inj h rfl
  exact ⟨hex4_inj ha hb hab, ht⟩

theorem escapeChar_inj {ascii : Bool} {c c' : Char} {t t' : List Char}
    (h : escapeChar ascii c ++ t = escapeChar ascii c' ++ t') : c = c' ∧ t = t' := by
  have hv := toNat_valid c
  have hv' := toNat_valid c'
  rw [← Char.toNat_inj]
  rcases escapeChar_cases ascii c with
    ⟨e, he, hc⟩ | ⟨hq, hb, hc⟩ | ⟨hn, hc⟩ | ⟨hn, hc⟩ <;>
  rcases escapeChar_cases ascii c' with
    ⟨e', he', hc'⟩ | ⟨hq', hb', hc'⟩ | ⟨hn', hc'⟩ | ⟨hn', hc'⟩ <;>
  simp only [hc, hc', List.cons_append, List.nil_append, List.append_assoc, List.cons.injEq,
    true_and] at h
  · obtain ⟨rfl, rfl⟩ := h
    exact ⟨congrArg _ (shortEscape_inj he he'), rfl⟩
  · exact absurd h.1.symm hb'
  · exact absurd h.1 (toNat_of_shortEscape he).2
  · exact absurd h.1 (toNat_of_shortEscape he).2
  · exact absurd h.1 hb
  · exact ⟨congrArg _ h.1, h.2⟩
  · exact absurd h.1 hb
  · exact absurd h.1 hb
  · exact absurd h.1.symm (toNat_of_shortEscape he').2
  · exact absurd h.1.symm hb'
  · exact hex4_append_inj hn hn' h
  · have hs := (hex4_append_inj hn (by omega) h).1
    omega
  · exact absurd h.1.symm (toNat_of_shortEscape he').2
  · exact absurd h.1.symm hb'
  · have hs := (hex4_append_inj (by omega) hn' h).1
    omega
  · obtain ⟨hhigh, h⟩ := hex4_append_inj (by omega) (by omega) h
    simp only [List.cons.injEq, true_and] at h
    obtain ⟨hlow, ht⟩ := hex4_append_inj (by omega) (by omega) h
    exact ⟨by omega, ht⟩

theorem escapeChar_head (ascii : Bool) (c : Char) :
    ∃ a rest, escapeChar ascii c = a :: rest ∧ a ≠ quote := by
  rcases escapeChar_cases ascii c with
    ⟨e, he, hc⟩ | ⟨hq, hb, hc⟩ | ⟨hn, hc⟩ | ⟨hn, hc⟩ <;> rw [hc]
  · exact ⟨_, _, rfl, by decide⟩
  · exact ⟨_, _, rfl, hq⟩
  · exact ⟨_, _, rfl, by decide⟩
  · exact ⟨_, _, rfl, by decide⟩

/-! ## Strings and numbers -/

theorem escaped_inj {ascii : Bool} {cs cs' t t' : List Char}
    (h : cs.flatMap (escapeChar ascii) ++ quote :: t =
      cs'.flatMap (escapeChar ascii) ++ quote :: t') : cs = cs' ∧ t = t' := by
  induction cs generalizing cs' with
  | nil =>
    cases cs' with
    | nil => exact ⟨rfl, (List.cons.inj h).2⟩
    | cons c' cs' =>
      obtain ⟨a, rest, hc, ha⟩ := escapeChar_head ascii c'
      rw [List.flatMap_cons, hc] at h
      exact absurd (List.cons.inj h).1.symm ha
  | cons c cs ih =>
    cases cs' with
    | nil =>
      obtain ⟨a, rest, hc, ha⟩ := escapeChar_head ascii c
      rw [List.flatMap_cons, hc] at h
      exact absurd (List.cons.inj h).1 ha
    | cons c' cs' =>
      rw [List.flatMap_cons, List.flatMap_cons, List.append_assoc, List.append_assoc] at h
      obtain ⟨rfl, hrest⟩ := escapeChar_inj h
      obtain ⟨rfl, ht⟩ := ih hrest
      exact ⟨rfl, ht⟩

theorem strText_inj {ascii : Bool} {s s' : String} {t t' : List Char}
    (h : strText ascii s ++ t = strText ascii s' ++ t') : s = s' ∧ t = t' := by
  simp only [strText, List.cons_append, List.append_assoc, List.nil_append, List.cons.injEq,
    true_and] at h
  obtain ⟨hs, ht⟩ := escaped_inj h
  exact ⟨String.toList_injective hs, ht⟩

def readNat (cs : List Char) : Nat := Nat.ofDigits 10 ((cs.map fun c => c.toNat - 48).reverse)

theorem readNat_natText (n : Nat) : readNat (natText n) = n := by
  unfold natText readNat
  split_ifs with hn
  · rw [hn]
    rfl
  · have hback : ∀ d ∈ Nat.digits 10 n, (Nat.digitChar d).toNat - 48 = d := by
      intro d hd
      have hlt : d < 10 := Nat.digits_lt_base (by omega) hd
      rw [Nat.toNat_digitChar_of_lt_ten hlt]
      omega
    have hmap : ((Nat.digits 10 n).map Nat.digitChar).map (fun c => c.toNat - 48) =
        Nat.digits 10 n := by
      rw [List.map_map]
      exact (List.map_congr_left hback).trans (List.map_id _)
    rw [List.map_reverse, List.map_reverse, List.reverse_reverse, hmap, Nat.ofDigits_digits]

theorem natText_digits (n : Nat) : ∀ c ∈ natText n, c.isDigit = true := by
  unfold natText
  split_ifs with hn
  · simp
  · intro c hc
    obtain ⟨d, hd, rfl⟩ := List.mem_map.mp hc
    have hlt : d < 10 := Nat.digits_lt_base (by omega) (List.mem_reverse.mp hd)
    rw [Nat.isDigit_digitChar]
    exact decide_eq_true hlt

theorem natText_ne_nil (n : Nat) : natText n ≠ [] := by
  unfold natText
  split_ifs with hn
  · simp
  · simpa [Nat.digits_ne_nil_iff_ne_zero] using hn

theorem natText_inj {m n : Nat} (h : natText m = natText n) : m = n := by
  rw [← readNat_natText m, h, readNat_natText]

def isNumberChar (c : Char) : Bool := c.isDigit || c ∈ ['-', '+', '.', 'e']

theorem intText_cases (n : Int) : (∃ m, n = .ofNat m ∧ intText n = natText m) ∨
    ∃ m, n = .negSucc m ∧ intText n = '-' :: natText (m + 1) := by
  cases n with
  | ofNat m => exact .inl ⟨m, rfl, rfl⟩
  | negSucc m => exact .inr ⟨m, rfl, rfl⟩

theorem natText_ne_neg (m : Nat) (cs : List Char) : natText m ≠ '-' :: cs := by
  intro h
  have hd := natText_digits m '-' (by simp [h])
  exact absurd hd (by decide)

theorem intText_inj {m n : Int} (h : intText m = intText n) : m = n := by
  rcases intText_cases m with ⟨a, rfl, ha⟩ | ⟨a, rfl, ha⟩ <;>
  rcases intText_cases n with ⟨b, rfl, hb⟩ | ⟨b, rfl, hb⟩ <;> rw [ha, hb] at h
  · rw [natText_inj h]
  · exact absurd h (natText_ne_neg a _)
  · exact absurd h.symm (natText_ne_neg b _)
  · have hab := natText_inj (List.cons.inj h).2
    rw [Nat.succ.inj hab]

theorem intText_chars (n : Int) : ∀ c ∈ intText n, c.isDigit = true ∨ c = '-' := by
  intro c hc
  rcases intText_cases n with ⟨m, rfl, hm⟩ | ⟨m, rfl, hm⟩ <;> rw [hm] at hc
  · exact .inl (natText_digits m c hc)
  · rcases List.mem_cons.mp hc with rfl | hc
    · exact .inr rfl
    · exact .inl (natText_digits _ c hc)

theorem intText_ne_nil (n : Int) : intText n ≠ [] := by
  rcases intText_cases n with ⟨m, rfl, hm⟩ | ⟨m, rfl, hm⟩ <;> rw [hm]
  · exact natText_ne_nil m
  · simp

def isFloatChar (c : Char) : Bool := isNumberChar c || c ∈ ['N', 'a', 'I', 'n', 'f', 'i', 't', 'y']

def nanText : List Char := ['N', 'a', 'N']

def infinityText : List Char := ['I', 'n', 'f', 'i', 'n', 'i', 't', 'y']

/-- The text of a float in `json.dumps`: different floats have different texts, and a point or an
exponent tells a finite one from an integer. -/
structure FloatText (repr : PyFloat → List Char) : Prop where
  injective : Function.Injective repr
  number : ∀ x, x.isFinite = true → ∀ c ∈ repr x, isNumberChar c = true
  marked : ∀ x, x.isFinite = true → '.' ∈ repr x ∨ 'e' ∈ repr x
  nan : repr .nan = nanText
  infinity : ∀ negative, repr (.infinity negative) =
    if negative then '-' :: infinityText else infinityText

/-! ## Values -/

/-- The kinds of values that the first character of a text tells apart. -/
inductive Kind where
  | null | bool | number | str | arr | obj
  deriving DecidableEq

def Json.kind : Json → Kind
  | .null => .null
  | .bool _ => .bool
  | .int _ | .float _ => .number
  | .str _ => .str
  | .arr _ => .arr
  | .obj _ => .obj

def charKind (c : Char) : Option Kind :=
  if isNumberChar c ∨ c = 'N' ∨ c = 'I' then some .number
  else if c = 'n' then some .null
  else if c = 't' ∨ c = 'f' then some .bool
  else if c = quote then some .str
  else if c = '[' then some .arr
  else if c = Char.ofNat 123 then some .obj
  else none

/-- What may stand behind a value: nothing that could still be part of a number. -/
def Stops (t : List Char) : Prop := ∀ c ∈ t.head?, isFloatChar c = false

theorem stops_cons {c : Char} {t : List Char} (h : isFloatChar c = false) : Stops (c :: t) := by
  intro c' hc
  cases hc
  exact h

theorem number_append_inj {a b t t' : List Char} (ha : ∀ c ∈ a, isFloatChar c = true)
    (hb : ∀ c ∈ b, isFloatChar c = true) (ht : Stops t) (ht' : Stops t')
    (h : a ++ t = b ++ t') : a = b ∧ t = t' := by
  induction a generalizing b with
  | nil =>
    cases b with
    | nil => exact ⟨rfl, h⟩
    | cons c b =>
      have hc := ht c (by simp [show t = c :: (b ++ t') from h])
      rw [hb c (by simp)] at hc
      cases hc
  | cons c a ih =>
    cases b with
    | nil =>
      have hc := ht' c (by simp [← show c :: (a ++ t) = t' from h])
      rw [ha c (by simp)] at hc
      cases hc
    | cons c' b =>
      obtain ⟨rfl, hrest⟩ := List.cons.inj h
      obtain ⟨rfl, ht⟩ := ih (List.forall_mem_cons.mp ha).2 (List.forall_mem_cons.mp hb).2 hrest
      exact ⟨rfl, ht⟩

theorem intText_number (n : Int) : ∀ c ∈ intText n, isNumberChar c = true := by
  intro c hc
  rcases intText_chars n c hc with hd | rfl
  · simp [isNumberChar, hd]
  · decide

theorem isFloatChar_of_number {c : Char} (h : isNumberChar c = true) : isFloatChar c = true := by
  simp [isFloatChar, h]

theorem intText_float (n : Int) : ∀ c ∈ intText n, isFloatChar c = true :=
  fun c hc => isFloatChar_of_number (intText_number n c hc)

theorem number_kind {cs : List Char} (hne : cs ≠ []) (hcs : ∀ c ∈ cs, isNumberChar c = true) :
    ∃ c rest, cs = c :: rest ∧ charKind c = some .number := by
  obtain ⟨c, rest, rfl⟩ := List.exists_cons_of_ne_nil hne
  exact ⟨c, rest, rfl, by simp [charKind, hcs c (by simp)]⟩

section

variable {repr : PyFloat → List Char} {st : Style}

theorem FloatText.ne_nil (hr : FloatText repr) {x : PyFloat} (hx : x.isFinite = true) :
    repr x ≠ [] := by
  intro hnil
  have hm := hr.marked x hx
  simp [hnil] at hm

theorem FloatText.cases (hr : FloatText repr) (x : PyFloat) :
    x.isFinite = true ∨ repr x = nanText ∨ repr x = infinityText ∨
      repr x = '-' :: infinityText := by
  rcases x with x | _ | _ | negative
  · exact .inl rfl
  · exact .inl rfl
  · exact .inr (.inl hr.nan)
  · cases negative with
    | false => exact .inr (.inr (.inl (hr.infinity false)))
    | true => exact .inr (.inr (.inr (hr.infinity true)))

theorem FloatText.chars (hr : FloatText repr) (x : PyFloat) : ∀ c ∈ repr x, isFloatChar c = true := by
  rcases hr.cases x with hx | hx | hx | hx
  · exact fun c hc => isFloatChar_of_number (hr.number x hx c hc)
  all_goals
    rw [hx]
    exact List.all_eq_true.mp (by decide)

theorem FloatText.kind (hr : FloatText repr) (x : PyFloat) :
    ∃ c rest, repr x = c :: rest ∧ charKind c = some .number := by
  rcases hr.cases x with hx | hx | hx | hx
  · exact number_kind (hr.ne_nil hx) (hr.number x hx)
  all_goals exact ⟨_, _, hx, by decide⟩

theorem intText_ne_repr (hr : FloatText repr) (n : Int) (x : PyFloat) : intText n ≠ repr x := by
  intro h
  have hplain : ∀ c ∈ repr x, c.isDigit = true ∨ c = '-' := h ▸ intText_chars n
  rcases hr.cases x with hx | hx | hx | hx
  · rcases hr.marked x hx with hm | hm
    · exact absurd (hplain _ hm) (by decide)
    · exact absurd (hplain _ hm) (by decide)
  · exact absurd (hplain 'N' (by simp [hx, nanText])) (by decide)
  · exact absurd (hplain 'I' (by simp [hx, infinityText])) (by decide)
  · exact absurd (hplain 'I' (by simp [hx, infinityText])) (by decide)

variable (st) in
theorem text_kind (hr : FloatText repr) (j : Json) :
    ∃ c rest, text repr st j = c :: rest ∧ charKind c = some j.kind := by
  cases j with
  | null => exact ⟨'n', _, rfl, by decide⟩
  | bool b =>
    cases b with
    | true => exact ⟨'t', _, rfl, by decide⟩
    | false => exact ⟨'f', _, rfl, by decide⟩
  | int n => exact number_kind (intText_ne_nil n) (intText_number n)
  | float x => exact hr.kind x
  | str s => exact ⟨quote, _, rfl, rfl⟩
  | arr items => exact ⟨'[', _, rfl, rfl⟩
  | obj fields => exact ⟨Char.ofNat 123, _, rfl, rfl⟩

theorem kind_eq (hr : FloatText repr) {j j' : Json} {t t' : List Char}
    (h : text repr st j ++ t = text repr st j' ++ t') : j.kind = j'.kind := by
  obtain ⟨c, rest, hc, hk⟩ := text_kind st hr j
  obtain ⟨c', rest', hc', hk'⟩ := text_kind st hr j'
  rw [hc, hc'] at h
  obtain rfl := (List.cons.inj h).1
  exact Option.some.inj (hk.symm.trans hk')

end

/-! ## Lists with separators -/

section

variable {α : Type} (write : α → List Char) (sep : List Char)

def joined : List α → List Char
  | [] => []
  | [a] => write a
  | a :: as => write a ++ sep ++ joined as

variable {write sep}

/-- A value that can be told from every other one, whatever stands behind the two. -/
def Reads (write : α → List Char) (a : α) : Prop :=
  ∀ (a' : α) (t t' : List Char), Stops t → Stops t' → write a ++ t = write a' ++ t' →
    a = a' ∧ t = t'

def others (write : α → List Char) (sep : List Char) (as : List α) : List Char :=
  if as = [] then [] else sep ++ joined write sep as

theorem joined_cons (a : α) (as : List α) :
    joined write sep (a :: as) = write a ++ others write sep as := by
  cases as <;> simp [joined, others]

theorem others_stops {rest : List Char} {close : Char} (hclose : isFloatChar close = false)
    (as : List α) (t : List Char) : Stops (others write (',' :: rest) as ++ close :: t) := by
  unfold others
  split_ifs with h
  · exact stops_cons hclose
  · exact stops_cons rfl

theorem joined_inj {rest : List Char} {close : Char} (hclose : isFloatChar close = false)
    (hcomma : close ≠ ',') (hhead : ∀ a s t, write a ++ s ≠ close :: t) {as as' : List α}
    {t t' : List Char} (has : ∀ a ∈ as, Reads write a)
    (h : joined write (',' :: rest) as ++ close :: t =
      joined write (',' :: rest) as' ++ close :: t') : as = as' ∧ t = t' := by
  induction as generalizing as' with
  | nil =>
    cases as' with
    | nil => exact ⟨rfl, (List.cons.inj h).2⟩
    | cons a' as' =>
      rw [joined_cons, List.append_assoc] at h
      exact absurd h.symm (hhead a' _ _)
  | cons a as ih =>
    -- Both texts go on with a value, and it ends at the same place in both.
    cases as' with
    | nil =>
      rw [joined_cons, List.append_assoc] at h
      exact absurd h (hhead a _ _)
    | cons a' as' =>
      rw [joined_cons, joined_cons, List.append_assoc, List.append_assoc] at h
      obtain ⟨ha, has⟩ := List.forall_mem_cons.mp has
      obtain ⟨rfl, hrest⟩ := ha a' _ _ (others_stops hclose as t) (others_stops hclose as' t') h
      have htail : joined write (',' :: rest) as ++ close :: t =
          joined write (',' :: rest) as' ++ close :: t' := by
        unfold others at hrest
        split_ifs at hrest with hn hn'
        · rw [hn, hn']
          exact hrest
        · exact absurd (List.cons.inj hrest).1 hcomma
        · exact absurd (List.cons.inj hrest).1.symm hcomma
        · rw [List.append_assoc, List.append_assoc] at hrest
          exact List.append_cancel_left hrest
      obtain ⟨rfl, ht⟩ := ih has htail
      exact ⟨rfl, ht⟩

end

/-! ## Whole values -/

section

variable {repr : PyFloat → List Char} {st : Style}

def fieldText (repr : PyFloat → List Char) (st : Style) (f : String × Json) : List Char :=
  strText st.ascii f.1 ++ (st.key ++ text repr st f.2)

theorem itemsText_eq (js : List Json) : itemsText repr st js = joined (text repr st) st.item js := by
  induction js with
  | nil => rfl
  | cons j js ih => cases js <;> simp_all [itemsText, joined]

theorem fieldsText_eq (fs : List (String × Json)) :
    fieldsText repr st fs = joined (fieldText repr st) st.item fs := by
  induction fs with
  | nil => rfl
  | cons f fs ih => cases fs <;> simp_all [fieldsText, joined, fieldText]

def Style.Separates (st : Style) : Prop := ∃ rest, st.item = ',' :: rest

theorem text_head_ne (hr : FloatText repr) {close : Char} (hclose : charKind close = none)
    (j : Json) (s t : List Char) : text repr st j ++ s ≠ close :: t := by
  intro h
  obtain ⟨c, rest, hc, hk⟩ := text_kind st hr j
  rw [hc] at h
  rw [(List.cons.inj h).1, hclose] at hk
  cases hk

theorem fieldText_reads {f : String × Json} (h : Reads (text repr st) f.2) :
    Reads (fieldText repr st) f := by
  intro f' t t' ht ht' heq
  simp only [fieldText, List.append_assoc] at heq
  obtain ⟨hkey, heq⟩ := strText_inj heq
  obtain ⟨hvalue, htt⟩ := h f'.2 t t' ht ht' (List.append_cancel_left heq)
  exact ⟨Prod.ext hkey hvalue, htt⟩

theorem number_reads (hr : FloatText repr) {j j' : Json} {t t' : List Char}
    (hk : j.kind = .number) (ht : Stops t) (ht' : Stops t')
    (h : text repr st j ++ t = text repr st j' ++ t') : j = j' ∧ t = t' := by
  have hk' : j'.kind = .number := (kind_eq hr h).symm.trans hk
  cases j with
  | int n =>
    cases j' with
    | int n' =>
      obtain ⟨hn, htt⟩ := number_append_inj (intText_float n) (intText_float n') ht ht' h
      exact ⟨congrArg _ (intText_inj hn), htt⟩
    | float x' =>
      have hn := (number_append_inj (intText_float n) (hr.chars x') ht ht' h).1
      exact absurd hn (intText_ne_repr hr n x')
    | _ => cases hk'
  | float x =>
    cases j' with
    | int n' =>
      have hn := (number_append_inj (hr.chars x) (intText_float n') ht ht' h).1
      exact absurd hn.symm (intText_ne_repr hr n' x)
    | float x' =>
      obtain ⟨hx, htt⟩ := number_append_inj (hr.chars x) (hr.chars x') ht ht' h
      exact ⟨congrArg _ (hr.injective hx), htt⟩
    | _ => cases hk'
  | _ => cases hk

theorem arr_reads (hr : FloatText repr) (hs : st.Separates) {items : List Json}
    (hi : ∀ j ∈ items, Reads (text repr st) j) : Reads (text repr st) (.arr items) := by
  intro j' t t' _ _ h
  have hk := kind_eq hr h
  obtain ⟨rest, hitem⟩ := hs
  cases j' with
  | arr items' =>
    simp only [text, itemsText_eq, hitem, List.cons_append, List.append_assoc, List.nil_append,
      List.cons.injEq, true_and] at h
    obtain ⟨rfl, htt⟩ := joined_inj rfl (by decide) (text_head_ne hr rfl) hi h
    exact ⟨rfl, htt⟩
  | _ => cases hk

theorem obj_reads (hr : FloatText repr) (hs : st.Separates) {fields : List (String × Json)}
    (hf : ∀ f ∈ fields, Reads (text repr st) f.2) : Reads (text repr st) (.obj fields) := by
  intro j' t t' _ _ h
  have hk := kind_eq hr h
  obtain ⟨rest, hitem⟩ := hs
  cases j' with
  | obj fields' =>
    simp only [text, fieldsText_eq, hitem, List.cons_append, List.append_assoc, List.nil_append,
      List.cons.injEq, true_and] at h
    have hhead : ∀ f s t, fieldText repr st f ++ s ≠ Char.ofNat 125 :: t := by
      intro f s t h
      have hq : quote = Char.ofNat 125 := (List.cons.inj h).1
      exact absurd hq (by decide)
    obtain ⟨rfl, htt⟩ := joined_inj rfl (by decide) hhead (fun f hm => fieldText_reads (hf f hm)) h
    exact ⟨rfl, htt⟩
  | _ => cases hk

mutual

theorem text_reads (hr : FloatText repr) (hs : st.Separates) : ∀ j, Reads (text repr st) j
  | .null => by
    intro j' t t' _ _ h
    have hk := kind_eq hr h
    cases j' with
    | null => exact ⟨rfl, List.append_cancel_left h⟩
    | _ => cases hk
  | .bool b => by
    intro j' t t' _ _ h
    have hk := kind_eq hr h
    cases j' with
    | bool b' => cases b <;> cases b' <;> simp_all [text]
    | _ => cases hk
  | .int _ | .float _ => fun _ _ _ ht ht' h => number_reads hr rfl ht ht' h
  | .str s => by
    intro j' t t' _ _ h
    have hk := kind_eq hr h
    cases j' with
    | str s' =>
      obtain ⟨rfl, htt⟩ := strText_inj h
      exact ⟨rfl, htt⟩
    | _ => cases hk
  | .arr items => arr_reads hr hs (items_read hr hs items)
  | .obj fields => obj_reads hr hs (fields_read hr hs fields)

theorem items_read (hr : FloatText repr) (hs : st.Separates) :
    ∀ js : List Json, ∀ j ∈ js, Reads (text repr st) j
  | [] => by simp
  | j :: js => List.forall_mem_cons.mpr ⟨text_reads hr hs j, items_read hr hs js⟩

theorem fields_read (hr : FloatText repr) (hs : st.Separates) :
    ∀ fs : List (String × Json), ∀ f ∈ fs, Reads (text repr st) f.2
  | [] => by simp
  | (_, j) :: fs => List.forall_mem_cons.mpr ⟨text_reads hr hs j, fields_read hr hs fs⟩

end

/-- Two values with the same text differ in the order of their keys at most. -/
theorem dumps_inj (hr : FloatText repr) (hs : st.Separates) {j j' : Json}
    (h : dumps repr st j = dumps repr st j') : sortKeys j = sortKeys j' := by
  have htext : text repr st (sortKeys j) ++ [] = text repr st (sortKeys j') ++ [] := by
    rw [String.ofList_injective h]
  exact (text_reads hr hs (sortKeys j) _ [] [] nofun nofun htext).1

theorem sortKeysFields_eq (fs : List (String × Json)) :
    sortKeysFields fs = fs.map fun f => (f.1, sortKeys f.2) := by
  induction fs with
  | nil => rfl
  | cons f fs ih => simp [sortKeysFields, ih]

theorem field_of_sortKeys_eq {fs fs' : Object} (h : sortKeys (.obj fs) = sortKeys (.obj fs'))
    {k : String} {v : Json} (hv : (k, v) ∈ fs) : ∃ v', (k, v') ∈ fs' ∧ sortKeys v' = sortKeys v := by
  simp only [sortKeys, sortKeysFields_eq, Json.obj.injEq] at h
  have hperm : (fs.map fun f => (f.1, sortKeys f.2)).Perm (fs'.map fun f => (f.1, sortKeys f.2)) :=
    ((List.perm_insertionSort _ _).symm.trans (List.Perm.of_eq h)).trans
      (List.perm_insertionSort _ _)
  have hmem := hperm.mem_iff.mp (List.mem_map_of_mem (f := fun f => (f.1, sortKeys f.2)) hv)
  obtain ⟨⟨k', v'⟩, hf, hkv⟩ := List.mem_map.mp hmem
  obtain ⟨rfl, hvalue⟩ := Prod.mk.inj hkv
  exact ⟨v', hf, hvalue⟩

theorem field_of_dumps_eq (hr : FloatText repr) (hs : st.Separates) {fs fs' : Object}
    (h : dumps repr st (.obj fs) = dumps repr st (.obj fs')) {k : String} {v : Json}
    (hv : (k, v) ∈ fs) : ∃ v', (k, v') ∈ fs' ∧ sortKeys v' = sortKeys v :=
  field_of_sortKeys_eq (dumps_inj hr hs h) hv

theorem sortKeys_strs (xs : List String) :
    sortKeys (.arr (xs.map .str)) = .arr (xs.map .str) := by
  have h : sortKeysItems (xs.map .str) = xs.map .str := by
    induction xs with
    | nil => rfl
    | cons x xs ih => simp [sortKeysItems, sortKeys, ih]
  rw [sortKeys, h]

end

end JsonText
