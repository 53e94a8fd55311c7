import AegisGateway.Lib.JsonReading
import Mathlib.Data.List.TakeWhile

/-!
# Decoding a text

`json.loads`: the decoder of the standard library, from the characters of a text to a value.
A text that `json.dumps` has written is read back as the value that it was written for.
-/

namespace JsonText

/-! ## Strings -/

def hexValue (c : Char) : Option Nat :=
  if c.isDigit then some (c.toNat - 48)
  else if 'a' ≤ c ∧ c ≤ 'f' then some (c.toNat - 87)
  else if 'A' ≤ c ∧ c ≤ 'F' then some (c.toNat - 55)
  else none

def scanHex4 : List Char → Option (Nat × List Char)
  | a :: b :: c :: d :: cs => do
    let a ← hexValue a
    let b ← hexValue b
    let c ← hexValue c
    let d ← hexValue d
    some (((a * 16 + b) * 16 + c) * 16 + d, cs)
  | _ => none

def unescape (e : Char) : Option Char :=
  if e = quote ∨ e = backslash ∨ e = '/' then some e
  else if e = 'n' then some '\n'
  else if e = 'r' then some '\r'
  else if e = 't' then some '\t'
  else if e = 'f' then some (Char.ofNat 12)
  else if e = 'b' then some (Char.ofNat 8)
  else none

def scanLow (high : Nat) : List Char → Option (Char × List Char)
  | b :: 'u' :: cs =>
    if b = backslash ∧ high < 56320 then do
      let (low, cs) ← scanHex4 cs
      if 56320 ≤ low ∧ low ≤ 57343 then
        some (Char.ofNat (65536 + (high - 55296) * 1024 + (low - 56320)), cs)
      else none
    else none
  | _ => none

/-- What stands behind the backslash. A surrogate alone is no character here. -/
def scanEscape : List Char → Option (Char × List Char)
  | 'u' :: cs => do
    let (n, cs) ← scanHex4 cs
    if n < 55296 ∨ 57343 < n then some (Char.ofNat n, cs) else scanLow n cs
  | e :: cs => (unescape e).map fun c => (c, cs)
  | [] => none

def scanChar : List Char → Option (Char × List Char)
  | c :: cs =>
    if c = backslash then scanEscape cs
    else if c.toNat < 32 then none
    else some (c, cs)
  | [] => none

def scanString : Nat → List Char → Option (List Char × List Char)
  | 0, _ | _, [] => none
  | n + 1, c :: cs =>
    if c = quote then some ([], cs)
    else do
      let (c, cs) ← scanChar (c :: cs)
      let (s, cs) ← scanString n cs
      some (c :: s, cs)

/-! ## Numbers -/

def scanWhole : List Char → Option (List Char × List Char)
  | c :: cs =>
    if c = '0' then some (['0'], cs)
    else if c.isDigit then some (c :: cs.takeWhile Char.isDigit, cs.dropWhile Char.isDigit)
    else none
  | [] => none

def scanSigned : List Char → Option (List Char × List Char)
  | '-' :: cs => (scanWhole cs).map fun r => ('-' :: r.1, r.2)
  | cs => scanWhole cs

def scanFraction : List Char → List Char × List Char
  | '.' :: cs =>
    if cs.takeWhile Char.isDigit = [] then ([], '.' :: cs)
    else ('.' :: cs.takeWhile Char.isDigit, cs.dropWhile Char.isDigit)
  | cs => ([], cs)

def scanSign : List Char → List Char × List Char
  | c :: cs => if c = '+' ∨ c = '-' then ([c], cs) else ([], c :: cs)
  | [] => ([], [])

def scanExponent : List Char → List Char × List Char
  | e :: cs =>
    let (sign, ds) := scanSign cs
    if (e = 'e' ∨ e = 'E') ∧ ds.takeWhile Char.isDigit ≠ [] then
      (e :: sign ++ ds.takeWhile Char.isDigit, ds.dropWhile Char.isDigit)
    else ([], e :: cs)
  | [] => ([], [])

def scanNumeral (cs : List Char) : Option ((List Char × Bool) × List Char) := do
  let (whole, cs) ← scanSigned cs
  let (fraction, cs) := scanFraction cs
  let (exponent, cs) := scanExponent cs
  some ((whole ++ fraction ++ exponent, fraction ++ exponent ≠ []), cs)

def readInt : List Char → Int
  | '-' :: cs => -readNat cs
  | cs => readNat cs

/-- `floatOf` is `float`, of the text of a number. -/
def numeralValue (floatOf : List Char → PyFloat) (numeral : List Char × Bool) : Json :=
  if numeral.2 then .float (floatOf numeral.1) else .int (readInt numeral.1)

/-! ## Values -/

def isWhitespace (c : Char) : Bool := c = ' ' || c = '\t' || c = '\n' || c = '\r'

def skip : List Char → List Char := List.dropWhile isWhitespace

/-- The next character that is not white, if it is `c`. -/
def expect (c : Char) (cs : List Char) : Option (List Char) :=
  match skip cs with
  | c' :: cs => if c' = c then some cs else none
  | [] => none

def scanQuoted (cs : List Char) : Option (String × List Char) := do
  let cs ← expect quote cs
  let (s, cs) ← scanString cs.length cs
  some (String.ofList s, cs)

/-- A key that comes again takes the place of the one before it. -/
def dictOf (fields : List (String × Json)) : Object :=
  fields.foldl (fun dict field =>
    if dict.any (·.1 = field.1) then dict.map fun f => if f.1 = field.1 then field else f
    else dict ++ [field]) []

def scanScalar (floatOf : List Char → PyFloat) : List Char → Option (Json × List Char)
  | 'n' :: 'u' :: 'l' :: 'l' :: cs => some (.null, cs)
  | 't' :: 'r' :: 'u' :: 'e' :: cs => some (.bool true, cs)
  | 'f' :: 'a' :: 'l' :: 's' :: 'e' :: cs => some (.bool false, cs)
  | cs => (scanNumeral cs).map fun r => (numeralValue floatOf r.1, r.2)

mutual

/-- The number is a bound on the values that are still to come. -/
def scanValue (floatOf : List Char → PyFloat) : Nat → List Char → Option (Json × List Char)
  | 0, _ | _, [] => none
  | n + 1, c :: cs =>
    if c = quote then (scanString cs.length cs).map fun r => (.str (String.ofList r.1), r.2)
    else if c = Char.ofNat 123 then
      match expect (Char.ofNat 125) cs with
      | some cs => some (.obj [], cs)
      | none => (scanFields floatOf n cs).map fun r => (.obj (dictOf r.1), r.2)
    else if c = '[' then
      match expect ']' cs with
      | some cs => some (.arr [], cs)
      | none => (scanItems floatOf n cs).map fun r => (.arr r.1, r.2)
    else scanScalar floatOf (c :: cs)

def scanItems (floatOf : List Char → PyFloat) : Nat → List Char → Option (List Json × List Char)
  | 0, _ => none
  | n + 1, cs => do
    let (item, cs) ← scanValue floatOf n (skip cs)
    match expect ',' cs with
    | some cs => do
      let (items, cs) ← scanItems floatOf n cs
      some (item :: items, cs)
    | none => do
      let cs ← expect ']' cs
      some ([item], cs)

def scanFields (floatOf : List Char → PyFloat) : Nat → List Char → Option (Object × List Char)
  | 0, _ => none
  | n + 1, cs => do
    let (key, cs) ← scanQuoted cs
    let cs ← expect ':' cs
    let (value, cs) ← scanValue floatOf n (skip cs)
    match expect ',' cs with
    | some cs => do
      let (fields, cs) ← scanFields floatOf n cs
      some ((key, value) :: fields, cs)
    | none => do
      let cs ← expect (Char.ofNat 125) cs
      some ([(key, value)], cs)

end

/-- `json.loads`. Nothing may stand behind the value. -/
def loads (floatOf : List Char → PyFloat) (s : String) : Option Json := do
  let (j, cs) ← scanValue floatOf s.toList.length (skip s.toList)
  if skip cs = [] then some j else none

/-! ## Reading back a string -/

theorem hexValue_hexDigit (n : Nat) : hexValue (hexDigit n) = some (n % 16) := by
  have hall : ∀ a : Fin 16, hexValue (Nat.digitChar a) = some a.val := by decide
  exact hall ⟨n % 16, Nat.mod_lt _ (by omega)⟩

theorem scanHex4_hex4 {n : Nat} (hn : n < 65536) (t : List Char) :
    scanHex4 (hex4 n ++ t) = some (n, t) := by
  simp only [hex4, List.cons_append, List.nil_append, scanHex4, hexValue_hexDigit,
    Option.bind_eq_bind, Option.bind_some, Option.some.injEq, Prod.mk.injEq, and_true]
  omega

theorem unescape_of_shortEscape {c e : Char} (h : shortEscape c = some e) :
    unescape e = some c ∧ e ≠ 'u' := by
  refine ⟨?_, (toNat_of_shortEscape h).2⟩
  have hcode := (toNat_of_shortEscape h).1
  have hc : c = Char.ofNat (shortCode e) := by rw [← hcode, Char.ofNat_toNat]
  rw [hc]
  unfold shortEscape at h
  split_ifs at h <;> cases h <;> decide

theorem scanEscape_u {c : Char} {t : List Char} (hn : c.toNat < 65536) :
    scanEscape ('u' :: hex4 c.toNat ++ t) = some (c, t) := by
  have hvalid : c.toNat < 55296 ∨ 57343 < c.toNat := (toNat_valid c).imp_right And.left
  simp only [List.cons_append, scanEscape, Option.bind_eq_bind, scanHex4_hex4 hn, Option.bind_some,
    if_pos hvalid, Char.ofNat_toNat]

theorem scanEscape_pair {high low : Nat} {t : List Char} (hhigh : 55296 ≤ high)
    (hhigh' : high < 56320) (hlow : 56320 ≤ low ∧ low ≤ 57343) :
    scanEscape ('u' :: hex4 high ++ backslash :: 'u' :: hex4 low ++ t) =
      some (Char.ofNat (65536 + (high - 55296) * 1024 + (low - 56320)), t) := by
  have hn : high < 65536 := by omega
  have hm : low < 65536 := by omega
  have hsurrogate : ¬ (high < 55296 ∨ 57343 < high) := by omega
  simp only [List.cons_append, List.append_assoc, scanEscape, Option.bind_eq_bind,
    scanHex4_hex4 hn, Option.bind_some, if_neg hsurrogate, scanLow, hhigh', and_self, if_true,
    scanHex4_hex4 hm, if_pos hlow]

theorem scanChar_escapeChar (ascii : Bool) (c : Char) (t : List Char) :
    scanChar (escapeChar ascii c ++ t) = some (c, t) := by
  unfold escapeChar
  cases h : shortEscape c with
  | some e =>
    obtain ⟨he, hu⟩ := unescape_of_shortEscape h
    simp only [List.cons_append, List.nil_append, scanChar, if_true]
    unfold scanEscape
    split
    next heq => exact absurd (List.cons.inj heq).1 hu
    next heq =>
      obtain ⟨rfl, rfl⟩ := List.cons.inj heq
      rw [he]
      rfl
    next heq => cases heq
  | none =>
    obtain ⟨-, hb⟩ := ne_of_shortEscape_none h
    dsimp only
    split_ifs with hp hs
    · have hprint : ¬ c.toNat < 32 := by omega
      simp only [List.cons_append, List.nil_append, scanChar, if_neg hb, if_neg hprint]
    · simp only [List.cons_append, scanChar, if_true]
      exact scanEscape_u hs
    · have hvalid := toNat_valid c
      have hback : 65536 + (55296 + (c.toNat - 65536) / 1024 - 55296) * 1024 +
          (56320 + (c.toNat - 65536) % 1024 - 56320) = c.toNat := by omega
      rw [List.cons_append, List.cons_append, scanChar, if_pos rfl]
      apply (scanEscape_pair (by omega) (by omega) (by omega)).trans
      rw [hback, Char.ofNat_toNat]

theorem scanString_escaped (ascii : Bool) (cs t : List Char) (n : Nat)
    (hn : (cs.flatMap (escapeChar ascii)).length < n) :
    scanString n (cs.flatMap (escapeChar ascii) ++ quote :: t) = some (cs, t) := by
  induction cs generalizing n with
  | nil =>
    cases n with
    | zero => omega
    | succ n => simp [scanString]
  | cons c cs ih =>
    obtain ⟨a, rest, hc, ha⟩ := escapeChar_head ascii c
    rw [List.flatMap_cons, List.length_append] at hn
    have hpos : 0 < (escapeChar ascii c).length := by simp [hc]
    cases n with
    | zero => omega
    | succ n =>
      have hchar := scanChar_escapeChar ascii c (cs.flatMap (escapeChar ascii) ++ quote :: t)
      rw [List.flatMap_cons, List.append_assoc]
      rw [hc, List.cons_append] at hchar ⊢
      simp only [scanString, if_neg ha, hchar, Option.bind_eq_bind, Option.bind_some,
        ih n (by omega)]

theorem skip_cons {c : Char} (h : isWhitespace c = false) (cs : List Char) :
    skip (c :: cs) = c :: cs := by
  simp [skip, h]

theorem skip_append {ws : List Char} (h : ∀ c ∈ ws, isWhitespace c = true) (cs : List Char) :
    skip (ws ++ cs) = skip cs := by
  induction ws with
  | nil => rfl
  | cons c ws ih =>
    obtain ⟨hc, hws⟩ := List.forall_mem_cons.mp h
    rw [List.cons_append, skip, List.dropWhile_cons_of_pos hc]
    exact ih hws

theorem expect_cons {c c' : Char} (h : isWhitespace c' = false) (cs : List Char) :
    expect c (c' :: cs) = if c' = c then some cs else none := by
  rw [expect, skip_cons h]

theorem scanQuoted_strText (ascii : Bool) (s : String) (t : List Char) :
    scanQuoted (strText ascii s ++ t) = some (s, t) := by
  have hlen : (s.toList.flatMap (escapeChar ascii)).length <
      (s.toList.flatMap (escapeChar ascii) ++ quote :: t).length := by simp
  simp only [scanQuoted, strText, List.cons_append, List.append_assoc, List.nil_append,
    expect_cons (show isWhitespace quote = false from rfl), if_true, Option.bind_eq_bind,
    Option.bind_some, scanString_escaped ascii _ t _ hlen, String.ofList_toList]

/-! ## Reading back a number -/

def Ends (t : List Char) : Prop := ∀ c ∈ t.head?, c = ',' ∨ c = ']' ∨ c = Char.ofNat 125

section

variable {t : List Char}

theorem takeWhile_append {p : Char → Bool} (ht : ∀ c ∈ t.head?, p c = false) (cs : List Char) :
    (cs ++ t).takeWhile p = cs.takeWhile p ∧ (cs ++ t).dropWhile p = cs.dropWhile p ++ t := by
  induction cs with
  | nil =>
    cases t with
    | nil => exact ⟨rfl, rfl⟩
    | cons c t =>
      have hc := ht c rfl
      simp [hc]
  | cons c cs ih => by_cases hc : p c = true <;> simp [hc, ih]

def NoDigit (t : List Char) : Prop := ∀ c ∈ t.head?, c.isDigit = false

theorem Ends.noDigit (ht : Ends t) : NoDigit t := by
  intro c hc
  rcases ht c hc with rfl | rfl | rfl <;> rfl

theorem scanWhole_append (ht : NoDigit t) {cs r : List Char} {whole : List Char}
    (h : scanWhole cs = some (whole, r)) : scanWhole (cs ++ t) = some (whole, r ++ t) := by
  cases cs with
  | nil => cases h
  | cons c cs =>
    obtain ⟨htake, hdrop⟩ := takeWhile_append ht cs
    simp only [scanWhole, List.cons_append, htake, hdrop] at h ⊢
    split_ifs at h ⊢ <;> cases h <;> rfl

theorem scanSigned_append (ht : NoDigit t) {cs r : List Char} {whole : List Char}
    (h : scanSigned cs = some (whole, r)) : scanSigned (cs ++ t) = some (whole, r ++ t) := by
  unfold scanSigned at h
  split at h
  next cs =>
    obtain ⟨⟨whole, r⟩, hw, heq⟩ := Option.map_eq_some_iff.mp h
    cases heq
    simp only [List.cons_append, scanSigned, scanWhole_append ht hw, Option.map_some]
  next hne =>
    have happend := scanWhole_append ht h
    cases cs with
    | nil => cases h
    | cons c cs =>
      unfold scanSigned
      split
      next heq =>
        obtain ⟨rfl, -⟩ := List.cons.inj heq
        exact absurd rfl (hne cs)
      next => exact happend

variable (ht : Ends t)
include ht

theorem scanFraction_append (cs : List Char) :
    scanFraction (cs ++ t) = ((scanFraction cs).1, (scanFraction cs).2 ++ t) := by
  cases cs with
  | nil =>
    unfold scanFraction
    cases t with
    | nil => rfl
    | cons c t => rcases ht c rfl with rfl | rfl | rfl <;> rfl
  | cons c cs =>
    by_cases hc : c = '.'
    · subst hc
      obtain ⟨htake, hdrop⟩ := takeWhile_append ht.noDigit cs
      simp only [List.cons_append, scanFraction, htake, hdrop]
      split_ifs <;> rfl
    · have hskip : ∀ cs, scanFraction (c :: cs) = ([], c :: cs) := by
        intro cs
        unfold scanFraction
        split
        next heq => exact absurd (List.cons.inj heq).1 hc
        next => rfl
      rw [List.cons_append, hskip, hskip]
      rfl

theorem scanSign_append (cs : List Char) :
    scanSign (cs ++ t) = ((scanSign cs).1, (scanSign cs).2 ++ t) := by
  cases cs with
  | nil =>
    cases t with
    | nil => rfl
    | cons c t => rcases ht c rfl with rfl | rfl | rfl <;> rfl
  | cons c cs =>
    simp only [List.cons_append, scanSign]
    split_ifs <;> rfl

theorem scanExponent_append (cs : List Char) :
    scanExponent (cs ++ t) = ((scanExponent cs).1, (scanExponent cs).2 ++ t) := by
  cases cs with
  | nil =>
    cases t with
    | nil => rfl
    | cons c t => rcases ht c rfl with rfl | rfl | rfl <;> rfl
  | cons e cs =>
    obtain ⟨htake, hdrop⟩ := takeWhile_append ht.noDigit (scanSign cs).2
    simp only [List.cons_append, scanExponent, scanSign_append ht, htake, hdrop]
    split_ifs <;> rfl

theorem scanNumeral_append {cs : List Char} {numeral : List Char × Bool} {r : List Char}
    (h : scanNumeral cs = some (numeral, r)) : scanNumeral (cs ++ t) = some (numeral, r ++ t) := by
  unfold scanNumeral at h ⊢
  obtain ⟨⟨whole, cs'⟩, hw, h⟩ := Option.bind_eq_some_iff.mp h
  simp only [scanSigned_append ht.noDigit hw, Option.bind_eq_bind, Option.bind_some,
    scanFraction_append ht, scanExponent_append ht]
  simp only [Option.some.injEq, Prod.mk.injEq] at h ⊢
  obtain ⟨rfl, rfl⟩ := h
  exact ⟨rfl, rfl⟩

end

theorem natText_head {n : Nat} (hn : n ≠ 0) :
    ∃ c cs, natText n = c :: cs ∧ c ≠ '0' ∧ c.isDigit = true ∧ ∀ d ∈ cs, d.isDigit = true := by
  have hdigits := natText_digits n
  have hne : Nat.digits 10 n ≠ [] := Nat.digits_ne_nil_iff_ne_zero.mpr hn
  have hlast : (Nat.digits 10 n).getLast hne ≠ 0 := Nat.getLast_digit_ne_zero 10 hn
  have hsplit : (Nat.digits 10 n).getLast hne :: (Nat.digits 10 n).dropLast.reverse =
      (Nat.digits 10 n).reverse := by
    simpa using congrArg List.reverse (List.dropLast_append_getLast hne)
  have htext : natText n = Nat.digitChar ((Nat.digits 10 n).getLast hne) ::
      ((Nat.digits 10 n).dropLast.reverse.map Nat.digitChar) := by
    rw [natText, if_neg hn, ← hsplit, List.map_cons]
  rw [htext] at hdigits
  obtain ⟨hdigit, hdigits⟩ := List.forall_mem_cons.mp hdigits
  refine ⟨_, _, htext, fun hzero => hlast ?_, hdigit, hdigits⟩
  have hlt := Nat.digits_lt_base (show 1 < 10 by omega) (List.getLast_mem hne)
  exact digitChar_inj (by omega) (by omega) hzero

theorem scanWhole_natText (n : Nat) : scanWhole (natText n) = some (natText n, []) := by
  rcases eq_or_ne n 0 with rfl | hn
  · rfl
  · obtain ⟨c, cs, hc, hzero, hdigit, hcs⟩ := natText_head hn
    rw [hc]
    simp only [scanWhole, if_neg hzero, if_pos hdigit, List.takeWhile_eq_self_iff.mpr hcs,
      List.dropWhile_eq_nil_iff.mpr hcs]

theorem scanSigned_intText (n : Int) : scanSigned (intText n) = some (intText n, []) := by
  rcases intText_cases n with ⟨m, rfl, hm⟩ | ⟨m, rfl, hm⟩ <;> rw [hm]
  · unfold scanSigned
    split
    next heq => exact absurd heq (natText_ne_neg m _)
    next => exact scanWhole_natText m
  · simp only [scanSigned, scanWhole_natText, Option.map_some]

theorem scanNumeral_intText (n : Int) :
    scanNumeral (intText n) = some ((intText n, false), []) := by
  simp [scanNumeral, scanSigned_intText, scanFraction, scanExponent]

theorem readInt_intText (n : Int) : readInt (intText n) = n := by
  rcases intText_cases n with ⟨m, rfl, hm⟩ | ⟨m, rfl, hm⟩ <;> rw [hm]
  · unfold readInt
    split
    next heq => exact absurd heq (natText_ne_neg m _)
    next => rw [readNat_natText]; rfl
  · simp only [readInt, readNat_natText]
    rfl

/-- The text of a finite float is a number with a fraction or an exponent, and `float` reads it
back. -/
structure FloatReading (repr : PyFloat → List Char) (floatOf : List Char → PyFloat) : Prop where
  numeral : ∀ x, x.isFinite = true → scanNumeral (repr x) = some ((repr x, true), [])
  floatOf : ∀ x, x.isFinite = true → floatOf (repr x) = x

/-! ## Reading back a value -/

/-- A value of JSON: the keys of each object in it are different, as those of a dictionary are, and
its floats are finite. -/
inductive Distinct : Json → Prop
  | null : Distinct .null
  | bool (b : Bool) : Distinct (.bool b)
  | int (n : Int) : Distinct (.int n)
  | float (x : PyFloat) (h : x.isFinite = true) : Distinct (.float x)
  | str (s : String) : Distinct (.str s)
  | arr {items : List Json} (h : ∀ j ∈ items, Distinct j) : Distinct (.arr items)
  | obj {fields : Object} (hkeys : (fields.map (·.1)).Nodup) (h : ∀ f ∈ fields, Distinct f.2) :
    Distinct (.obj fields)

theorem dictOf_eq {fields : Object} (h : (fields.map (·.1)).Nodup) : dictOf fields = fields := by
  have hfold : ∀ dict fields : Object, ((dict ++ fields).map (·.1)).Nodup →
      fields.foldl (fun dict field =>
        if dict.any (·.1 = field.1) then dict.map fun f => if f.1 = field.1 then field else f
        else dict ++ [field]) dict = dict ++ fields := by
    intro dict fields
    induction fields generalizing dict with
    | nil => simp
    | cons field fields ih =>
      intro hnodup
      have hnew : ¬ dict.any (·.1 = field.1) = true := by
        intro hany
        obtain ⟨f, hf, hkey⟩ := List.any_eq_true.mp hany
        rw [List.map_append, List.map_cons] at hnodup
        have hdisjoint := List.disjoint_of_nodup_append hnodup (List.mem_map_of_mem hf)
        exact hdisjoint (by simp [of_decide_eq_true hkey])
      rw [List.foldl_cons, if_neg hnew, ih _ (by simpa using hnodup)]
      simp
  exact hfold [] fields h

structure Style.Spaced (st : Style) : Prop where
  item : ∃ ws, (∀ c ∈ ws, isWhitespace c = true) ∧ st.item = ',' :: ws
  key : ∃ ws, (∀ c ∈ ws, isWhitespace c = true) ∧ st.key = ':' :: ws

theorem canonical_spaced : Style.canonical.Spaced := ⟨⟨[], nofun, rfl⟩, ⟨[], nofun, rfl⟩⟩

section

variable {repr : PyFloat → List Char} {floatOf : List Char → PyFloat} {st : Style}

/-- The value is read back, whatever stands behind it. -/
def ReadsBack (repr : PyFloat → List Char) (floatOf : List Char → PyFloat) (st : Style)
    (j : Json) : Prop :=
  ∀ n t, Ends t → (text repr st j).length ≤ n →
    scanValue floatOf n (text repr st j ++ t) = some (j, t)

theorem skip_text (st : Style) (hr : FloatText repr) (j : Json) (t : List Char) :
    skip (text repr st j ++ t) = text repr st j ++ t := by
  obtain ⟨c, rest, hc, hk⟩ := text_kind st hr j
  rw [hc, List.cons_append]
  refine skip_cons ?_ _
  by_contra hws
  simp only [isWhitespace, Bool.or_eq_true, decide_eq_true_eq, Bool.not_eq_false] at hws
  rcases hws with ((rfl | rfl) | rfl) | rfl
  all_goals cases hk

theorem text_length_pos (st : Style) (hr : FloatText repr) (j : Json) :
    0 < (text repr st j).length := by
  obtain ⟨c, rest, hc, -⟩ := text_kind st hr j
  simp [hc]

theorem ends_close {c : Char} (hc : c = ',' ∨ c = ']' ∨ c = Char.ofNat 125) (t : List Char) :
    Ends (c :: t) := by
  intro c' hc'
  cases hc'
  exact hc

theorem itemsText_cons {ws : List Char} (hitem : st.item = ',' :: ws) (j : Json)
    (items : List Json) (t : List Char) :
    itemsText repr st (j :: items) ++ ']' :: t =
      text repr st j ++ if items = [] then ']' :: t
        else ',' :: (ws ++ (itemsText repr st items ++ ']' :: t)) := by
  cases items <;> simp [itemsText, hitem]

theorem length_itemsText_cons (repr : PyFloat → List Char) {ws : List Char}
    (hitem : st.item = ',' :: ws) (j : Json)
    (items : List Json) : (text repr st j).length + (itemsText repr st items).length ≤
      (itemsText repr st (j :: items)).length := by
  cases items
  · simp [itemsText]
  · simp [itemsText, hitem]
    omega

theorem scanItems_itemsText (hr : FloatText repr) (hs : st.Spaced) {items : List Json}
    (hne : items ≠ []) (hi : ∀ j ∈ items, ReadsBack repr floatOf st j) {ws : List Char}
    (hws : ∀ c ∈ ws, isWhitespace c = true) (n : Nat) (t : List Char)
    (hn : (itemsText repr st items).length < n) :
    scanItems floatOf n (ws ++ (itemsText repr st items ++ ']' :: t)) = some (items, t) := by
  induction items generalizing ws n with
  | nil => exact absurd rfl hne
  | cons j items ih =>
    obtain ⟨hj, hi⟩ := List.forall_mem_cons.mp hi
    obtain ⟨ws', hws', hitem⟩ := hs.item
    have hlen := length_itemsText_cons repr hitem j items
    cases n with
    | zero => omega
    | succ n =>
      rw [itemsText_cons hitem, scanItems, skip_append hws, skip_text st hr]
      by_cases hlast : items = []
      · have hvalue := hj n (']' :: t) (ends_close (by simp) t) (by omega)
        rw [if_pos hlast, hvalue]
        simp only [Option.bind_eq_bind, Option.bind_some,
          expect_cons (show isWhitespace ']' = false from rfl)]
        simp [hlast]
      · have hvalue := hj n (',' :: (ws' ++ (itemsText repr st items ++ ']' :: t)))
          (ends_close (by simp) _) (by omega)
        have hpos := text_length_pos st hr j
        rw [if_neg hlast, hvalue]
        simp only [Option.bind_eq_bind, Option.bind_some,
          expect_cons (show isWhitespace ',' = false from rfl), if_true,
          ih hlast hi hws' n (by omega)]

theorem fieldsText_cons {ws wk : List Char} (hitem : st.item = ',' :: ws)
    (hkey : st.key = ':' :: wk) (k : String) (j : Json) (fields : Object) (t : List Char) :
    fieldsText repr st ((k, j) :: fields) ++ Char.ofNat 125 :: t =
      strText st.ascii k ++ ':' :: (wk ++ (text repr st j ++
        if fields = [] then Char.ofNat 125 :: t
        else ',' :: (ws ++ (fieldsText repr st fields ++ Char.ofNat 125 :: t)))) := by
  cases fields <;> simp [fieldsText, hitem, hkey]

theorem length_fieldsText_cons (repr : PyFloat → List Char) {ws : List Char}
    (hitem : st.item = ',' :: ws) (k : String)
    (j : Json) (fields : Object) :
    (text repr st j).length + (fieldsText repr st fields).length ≤
      (fieldsText repr st ((k, j) :: fields)).length := by
  cases fields
  · simp [fieldsText]
    omega
  · simp [fieldsText, hitem]
    omega

theorem scanQuoted_append {ws : List Char} (hws : ∀ c ∈ ws, isWhitespace c = true)
    (ascii : Bool) (s : String) (t : List Char) :
    scanQuoted (ws ++ (strText ascii s ++ t)) = some (s, t) := by
  rw [← scanQuoted_strText ascii s t]
  simp only [scanQuoted, expect, skip_append hws]

theorem scanFields_fieldsText (hr : FloatText repr) (hs : st.Spaced) {fields : Object}
    (hne : fields ≠ []) (hf : ∀ f ∈ fields, ReadsBack repr floatOf st f.2) {ws : List Char}
    (hws : ∀ c ∈ ws, isWhitespace c = true) (n : Nat) (t : List Char)
    (hn : (fieldsText repr st fields).length < n) :
    scanFields floatOf n (ws ++ (fieldsText repr st fields ++ Char.ofNat 125 :: t)) =
      some (fields, t) := by
  induction fields generalizing ws n with
  | nil => exact absurd rfl hne
  | cons f fields ih =>
    obtain ⟨k, j⟩ := f
    obtain ⟨hj, hf⟩ := List.forall_mem_cons.mp hf
    obtain ⟨ws', hws', hitem⟩ := hs.item
    obtain ⟨wk, hwk, hkey⟩ := hs.key
    have hlen := length_fieldsText_cons repr hitem k j fields
    have hpos := text_length_pos st hr j
    cases n with
    | zero => omega
    | succ n =>
      rw [fieldsText_cons hitem hkey, scanFields, scanQuoted_append hws]
      simp only [Option.bind_eq_bind, Option.bind_some,
        expect_cons (show isWhitespace ':' = false from rfl), if_true, skip_append hwk,
        skip_text st hr]
      -- A comma follows, or the closing brace.
      by_cases hlast : fields = []
      · have hvalue := hj n (Char.ofNat 125 :: t) (ends_close (by simp) t) (by dsimp only; omega)
        rw [if_pos hlast, hvalue]
        simp only [Option.bind_some,
          expect_cons (show isWhitespace (Char.ofNat 125) = false from rfl)]
        simp [hlast]
      · have hvalue := hj n (',' :: (ws' ++ (fieldsText repr st fields ++ Char.ofNat 125 :: t)))
          (ends_close (by simp) _) (by dsimp only; omega)
        rw [if_neg hlast, hvalue]
        simp only [Option.bind_some, expect_cons (show isWhitespace ',' = false from rfl), if_true,
          ih hlast hf hws' n (by omega)]

theorem scanValue_scalar {c : Char} {cs t : List Char} {j : Json} {n : Nat} (hq : c ≠ quote)
    (hbrace : c ≠ Char.ofNat 123) (hbracket : c ≠ '[')
    (h : scanScalar floatOf (c :: cs) = some (j, t)) :
    scanValue floatOf (n + 1) (c :: cs) = some (j, t) := by
  rw [scanValue, if_neg hq, if_neg hbrace, if_neg hbracket, h]

theorem number_readsBack (hr : FloatText repr) {j : Json} {numeral : List Char × Bool}
    (hnumber : ∀ c ∈ text repr st j, isNumberChar c = true)
    (hscan : scanNumeral (text repr st j) = some (numeral, []))
    (hvalue : numeralValue floatOf numeral = j) : ReadsBack repr floatOf st j := by
  intro n t ht hn
  have hpos := text_length_pos st hr j
  have hscan := scanNumeral_append ht hscan
  generalize text repr st j = cs at hnumber hscan hn hpos
  cases n with
  | zero => omega
  | succ n =>
    cases cs with
    | nil => cases hpos
    | cons c cs =>
      have hc := hnumber c List.mem_cons_self
      have hne : ∀ c', isNumberChar c' = false → c ≠ c' := by
        rintro c' hc' rfl
        exact Bool.false_ne_true (hc'.symm.trans hc)
      apply scanValue_scalar (hne _ rfl) (hne _ rfl) (hne _ rfl)
      unfold scanScalar
      split
      next heq => exact absurd (List.cons.inj heq).1 (hne _ rfl)
      next heq => exact absurd (List.cons.inj heq).1 (hne _ rfl)
      next heq => exact absurd (List.cons.inj heq).1 (hne _ rfl)
      next =>
        have hscan : scanNumeral (c :: cs.append t) = some (numeral, t) := hscan
        rw [hscan, Option.map_some, hvalue]

theorem arr_readsBack (hr : FloatText repr) (hs : st.Spaced) {items : List Json}
    (hi : ∀ j ∈ items, ReadsBack repr floatOf st j) : ReadsBack repr floatOf st (.arr items) := by
  intro n t _ hn
  simp only [text, List.cons_append, List.append_assoc, List.nil_append, List.length_cons,
    List.length_append, List.length_nil] at hn ⊢
  cases n with
  | zero => omega
  | succ n =>
    rw [scanValue, if_neg (by decide), if_neg (by decide), if_pos rfl]
    cases items with
    | nil => simp [itemsText, expect_cons (show isWhitespace ']' = false from rfl)]
    | cons j items =>
      obtain ⟨ws, hws, hitem⟩ := hs.item
      have hopen : expect ']' (itemsText repr st (j :: items) ++ ']' :: t) = none := by
        rw [itemsText_cons hitem, expect, skip_text st hr]
        obtain ⟨c, rest, hc, hk⟩ := text_kind st hr j
        rw [hc, List.cons_append]
        apply if_neg
        rintro rfl
        cases hk
      have hnone : ∀ c ∈ ([] : List Char), isWhitespace c = true := List.forall_mem_nil _
      have hscan := scanItems_itemsText hr hs (List.cons_ne_nil j items) hi hnone n t (by omega)
      rw [List.nil_append] at hscan
      rw [hopen, hscan]
      rfl

theorem obj_readsBack (hr : FloatText repr) (hs : st.Spaced) {fields : Object}
    (hkeys : (fields.map (·.1)).Nodup) (hf : ∀ f ∈ fields, ReadsBack repr floatOf st f.2) :
    ReadsBack repr floatOf st (.obj fields) := by
  intro n t _ hn
  simp only [text, List.cons_append, List.append_assoc, List.nil_append, List.length_cons,
    List.length_append, List.length_nil] at hn ⊢
  cases n with
  | zero => omega
  | succ n =>
    rw [scanValue, if_neg (by decide), if_pos rfl]
    cases fields with
    | nil => simp [fieldsText, expect_cons (show isWhitespace (Char.ofNat 125) = false from rfl)]
    | cons f fields =>
      obtain ⟨k, j⟩ := f
      obtain ⟨ws, hws, hitem⟩ := hs.item
      obtain ⟨wk, hwk, hkey⟩ := hs.key
      have hopen : expect (Char.ofNat 125)
          (fieldsText repr st ((k, j) :: fields) ++ Char.ofNat 125 :: t) = none := by
        rw [fieldsText_cons hitem hkey, strText, List.cons_append, List.cons_append,
          expect_cons rfl, if_neg (by decide)]
      have hnone : ∀ c ∈ ([] : List Char), isWhitespace c = true := List.forall_mem_nil _
      have hscan := scanFields_fieldsText hr hs (List.cons_ne_nil (k, j) fields) hf hnone n t
        (by omega)
      rw [List.nil_append] at hscan
      rw [hopen, hscan]
      simp only [Option.map_some, dictOf_eq hkeys]

theorem text_readsBack (hr : FloatText repr) (hf : FloatReading repr floatOf) (hs : st.Spaced)
    {j : Json} (hj : Distinct j) : ReadsBack repr floatOf st j := by
  induction hj with
  | int n =>
    exact number_readsBack hr (intText_number n) (scanNumeral_intText n)
      (congrArg Json.int (readInt_intText n))
  | float x hx =>
    exact number_readsBack hr (hr.number x hx) (hf.numeral x hx)
      (congrArg Json.float (hf.floatOf x hx))
  | null =>
    intro n t _ hn
    obtain ⟨n, rfl⟩ := Nat.exists_eq_add_of_le' hn
    exact scanValue_scalar (by decide) (by decide) (by decide) rfl
  | bool b =>
    intro n t _ hn
    cases b
    all_goals
      obtain ⟨n, rfl⟩ := Nat.exists_eq_add_of_le' hn
      exact scanValue_scalar (by decide) (by decide) (by decide) rfl
  | str s =>
    intro n t _ hn
    simp only [text, strText, List.cons_append, List.append_assoc, List.nil_append,
      List.length_cons] at hn ⊢
    obtain ⟨n, rfl⟩ := Nat.exists_eq_add_of_le' (Nat.le_of_add_left_le hn)
    rw [scanValue, if_pos rfl, scanString_escaped _ _ _ _ (by simp), Option.map_some,
      String.ofList_toList]
  | arr h ih => exact arr_readsBack hr hs ih
  | obj hkeys h ih => exact obj_readsBack hr hs hkeys ih

theorem loads_text (hr : FloatText repr) (hf : FloatReading repr floatOf) (hs : st.Spaced)
    {j : Json} (hj : Distinct j) : loads floatOf (String.ofList (text repr st j)) = some j := by
  have hskip := skip_text st hr j []
  have hread := text_readsBack hr hf hs hj (text repr st j).length [] nofun le_rfl
  rw [List.append_nil] at hskip hread
  rw [loads, String.toList_ofList, hskip, hread]
  rfl

end

end JsonText
