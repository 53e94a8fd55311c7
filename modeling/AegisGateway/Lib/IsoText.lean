import AegisGateway.Lib.Calendar
import Mathlib.Data.List.Lex
import Mathlib.Tactic.Tauto

/-!
# ISO 8601 texts

What `datetime.isoformat` writes and `datetime.fromisoformat` reads back. The texts of
UTC times stand in the order of the times, with or without a fraction of a second.
-/

namespace Calendar

/-! ## Dates with a time -/

@[ext]
structure DateTime where
  year : Nat
  month : Nat
  day : Nat
  hour : Nat
  minute : Nat
  second : Nat
  microsecond : Nat
  date_valid : ValidDate year month day
  hour_lt : hour < 24
  minute_lt : minute < 60
  second_lt : second < 60
  microsecond_lt : microsecond < 1000000

/-- The microseconds from the midnight of the day with the ordinal 0 on. -/
def DateTime.instant (d : DateTime) : Nat :=
  (((ordinal d.year d.month d.day * 24 + d.hour) * 60 + d.minute) * 60 + d.second) * 1000000 +
    d.microsecond

/-- The first number decides, and `p` where it is the same. -/
def Step (m n : Nat) (p : Prop) : Prop := m < n ∨ m = n ∧ p

theorem step_congr {m n : Nat} {p p' : Prop} (h : m = n → (p ↔ p')) : Step m n p ↔ Step m n p' :=
  or_congr Iff.rfl (and_congr_right h)

def DateTime.Before (d d' : DateTime) : Prop :=
  Step d.year d'.year <| Step d.month d'.month <| Step d.day d'.day <| Step d.hour d'.hour <|
    Step d.minute d'.minute <| Step d.second d'.second <| d.microsecond < d'.microsecond

theorem radix_lt_iff {a b r r' k : Nat} (hr : r < k) (hr' : r' < k) :
    a * k + r < b * k + r' ↔ Step a b (r < r') := by
  unfold Step
  rcases Nat.lt_trichotomy a b with h | rfl | h
  · have hle : (a + 1) * k ≤ b * k := Nat.mul_le_mul_right k h
    rw [Nat.succ_mul] at hle
    exact iff_of_true (by omega) (.inl h)
  · omega
  · have hle : (b + 1) * k ≤ a * k := Nat.mul_le_mul_right k h
    rw [Nat.succ_mul] at hle
    exact iff_of_false (by omega) (by omega)

theorem radix_eq_iff {a b r r' k : Nat} (hr : r < k) (hr' : r' < k) :
    a * k + r = b * k + r' ↔ a = b ∧ r = r' := by
  constructor
  · intro h
    have hle := mt (@radix_lt_iff a b r r' k hr hr').mpr (by omega)
    have hge := mt (@radix_lt_iff b a r' r k hr' hr).mpr (by omega)
    unfold Step at hle hge
    omega
  · rintro ⟨rfl, rfl⟩
    rfl

theorem step_radix {a b r r' k : Nat} (hr : r < k) (hr' : r' < k) (p : Prop) :
    Step (a * k + r) (b * k + r') p ↔ Step a b (Step r r' p) := by
  have hlt := @radix_lt_iff a b r r' k hr hr'
  have heq := @radix_eq_iff a b r r' k hr hr'
  unfold Step at *
  tauto

theorem ordinal_lt_iff {y m d y' m' d' : Nat} (h : ValidDate y m d) (h' : ValidDate y' m' d') :
    ordinal y m d < ordinal y' m' d' ↔ Step y y' (Step m m' (d < d')) := by
  unfold Step
  rcases Nat.lt_trichotomy y y' with hy | rfl | hy
  · exact iff_of_true (ordinal_lt_of_year h h' hy) (.inl hy)
  · rcases Nat.lt_trichotomy m m' with hm | rfl | hm
    · exact iff_of_true (ordinal_lt_of_month h h' hm) (.inr ⟨rfl, .inl hm⟩)
    · simp [ordinal]
    · have hlt := ordinal_lt_of_month h' h hm
      exact iff_of_false (by omega) (by omega)
  · have hlt := ordinal_lt_of_year h' h hy
    exact iff_of_false (by omega) (by omega)

theorem ordinal_eq_iff {y m d y' m' d' : Nat} (h : ValidDate y m d) (h' : ValidDate y' m' d') :
    ordinal y m d = ordinal y' m' d' ↔ y = y' ∧ m = m' ∧ d = d' := by
  constructor
  · intro heq
    have hle := mt (ordinal_lt_iff h h').mpr (by omega)
    have hge := mt (ordinal_lt_iff h' h).mpr (by omega)
    unfold Step at hle hge
    omega
  · rintro ⟨rfl, rfl, rfl⟩
    rfl

theorem step_ordinal {y m d y' m' d' : Nat} (h : ValidDate y m d) (h' : ValidDate y' m' d')
    (p : Prop) : Step (ordinal y m d) (ordinal y' m' d') p ↔
      Step y y' (Step m m' (Step d d' p)) := by
  have hnest : ∀ a b c e f g : Prop, (a ∨ e ∧ (b ∨ f ∧ c)) ∨ (e ∧ f ∧ g) ∧ p ↔
      a ∨ e ∧ (b ∨ f ∧ (c ∨ g ∧ p)) := by
    intros
    tauto
  rw [Step, ordinal_lt_iff h h', ordinal_eq_iff h h']
  exact hnest _ _ _ _ _ _

theorem DateTime.instant_lt_iff (d d' : DateTime) : d.instant < d'.instant ↔ d.Before d' := by
  rw [instant, instant, radix_lt_iff d.microsecond_lt d'.microsecond_lt,
    step_radix d.second_lt d'.second_lt, step_radix d.minute_lt d'.minute_lt,
    step_radix d.hour_lt d'.hour_lt, step_ordinal d.date_valid d'.date_valid, Before]

/-! ## Texts -/

def fixed : Nat → Nat → List Char
  | 0, _ => []
  | w + 1, n => Nat.digitChar (n / 10 ^ w % 10) :: fixed w (n % 10 ^ w)

def fractionText (microsecond : Nat) : List Char :=
  if microsecond = 0 then [] else '.' :: fixed 6 microsecond

def DateTime.text (d : DateTime) : List Char :=
  fixed 4 d.year ++ '-' :: (fixed 2 d.month ++ '-' :: (fixed 2 d.day ++ 'T' ::
    (fixed 2 d.hour ++ ':' :: (fixed 2 d.minute ++ ':' :: (fixed 2 d.second ++
      fractionText d.microsecond)))))

def gapText (gap : Nat) : List Char :=
  fixed 2 (gap / 3600000000) ++ ':' :: (fixed 2 (gap / 60000000 % 60) ++
    if gap % 60000000 = 0 then []
    else ':' :: (fixed 2 (gap / 1000000 % 60) ++ fractionText (gap % 1000000)))

def offsetText : Option Int → List Char
  | none => []
  | some offset => (if offset < 0 then '-' else '+') :: gapText offset.natAbs

/-- A `datetime`: what a clock on the wall shows, and how far that is ahead of UTC. -/
@[ext]
structure Timestamp where
  clock : DateTime
  offset : Option Int
  offset_lt : ∀ o ∈ offset, o.natAbs < 86400000000

def Timestamp.utc (d : DateTime) : Timestamp where
  clock := d
  offset := some 0
  offset_lt := by simp

/-- `datetime.isoformat`. -/
def Timestamp.isoformat (t : Timestamp) : String :=
  String.ofList (t.clock.text ++ offsetText t.offset)

/-! ## The order of texts -/

theorem digitChar_lt_iff {m n : Nat} (hm : m < 10) (hn : n < 10) :
    Nat.digitChar m < Nat.digitChar n ↔ m < n := by
  have hall : ∀ m < 10, ∀ n < 10, Nat.digitChar m < Nat.digitChar n ↔ m < n := by decide
  exact hall m hm n hn

theorem digitChar_eq_iff {m n : Nat} (hm : m < 10) (hn : n < 10) :
    Nat.digitChar m = Nat.digitChar n ↔ m = n := by
  have hall : ∀ m < 10, ∀ n < 10, Nat.digitChar m = Nat.digitChar n ↔ m = n := by decide
  exact hall m hm n hn

theorem fixed_append_lt_iff {w m n : Nat} (hm : m < 10 ^ w) (hn : n < 10 ^ w) (s t : List Char) :
    fixed w m ++ s < fixed w n ++ t ↔ Step m n (s < t) := by
  induction w generalizing m n with
  | zero =>
    obtain rfl : m = 0 := by simpa using hm
    obtain rfl : n = 0 := by simpa using hn
    simp [fixed, Step]
  | succ w ih =>
    have hpos : 0 < 10 ^ w := Nat.pow_pos (by decide)
    have hm' : m / 10 ^ w < 10 := Nat.div_lt_of_lt_mul (by rwa [pow_succ] at hm)
    have hn' : n / 10 ^ w < 10 := Nat.div_lt_of_lt_mul (by rwa [pow_succ] at hn)
    have hmr : m % 10 ^ w < 10 ^ w := Nat.mod_lt _ hpos
    have hnr : n % 10 ^ w < 10 ^ w := Nat.mod_lt _ hpos
    rw [fixed, fixed, List.cons_append, List.cons_append, List.cons_lt_cons_iff,
      Nat.mod_eq_of_lt hm', Nat.mod_eq_of_lt hn', digitChar_lt_iff hm' hn',
      digitChar_eq_iff hm' hn', ih hmr hnr]
    have hradix := @step_radix (m / 10 ^ w) (n / 10 ^ w) _ _ _ hmr hnr (s < t)
    rw [Nat.div_add_mod', Nat.div_add_mod'] at hradix
    exact hradix.symm

theorem cons_lt_iff (c : Char) (s t : List Char) : c :: s < c :: t ↔ s < t :=
  List.cons_lt_cons_self

/-- A time without a fraction stands before all those with one, because a plus sign does
before a point. -/
theorem fraction_lt_iff {m n : Nat} (hm : m < 1000000) (hn : n < 1000000) (s : List Char) :
    fractionText m ++ '+' :: s < fractionText n ++ '+' :: s ↔ m < n := by
  have hplus : ('+' : Char) < '.' ∧ ¬ ('.' : Char) < '+' := by decide
  have hsame : ¬ '+' :: s < '+' :: s := List.lt_irrefl _
  unfold fractionText
  split_ifs with h h' h'
  · simp only [List.nil_append, hsame, false_iff]
    omega
  · simp only [List.nil_append, List.cons_append, List.cons_lt_cons_iff, hplus.1, true_or, true_iff]
    omega
  · have hne : '.' ≠ '+' := by decide
    simp only [List.nil_append, List.cons_append, List.cons_lt_cons_iff, hplus.2, hne, false_and,
      or_self, false_iff]
    omega
  · rw [List.cons_append, List.cons_append, cons_lt_iff, fixed_append_lt_iff hm hn, Step]
    simp only [hsame, and_false, or_false]

theorem DateTime.text_lt_iff (d d' : DateTime) (s : List Char) :
    d.text ++ '+' :: s < d'.text ++ '+' :: s ↔ d.Before d' := by
  have hyear := d.date_valid.year
  have hyear' := d'.date_valid.year
  have hmonth := d.date_valid.month
  have hmonth' := d'.date_valid.month
  have hday : d.day ≤ 31 := d.date_valid.day.2.trans (daysInMonth_le _ _)
  have hday' : d'.day ≤ 31 := d'.date_valid.day.2.trans (daysInMonth_le _ _)
  have hhour := d.hour_lt
  have hhour' := d'.hour_lt
  have hminute := d.minute_lt
  have hminute' := d'.minute_lt
  have hsecond := d.second_lt
  have hsecond' := d'.second_lt
  simp only [text, List.append_assoc, List.cons_append]
  rw [fixed_append_lt_iff (by omega) (by omega), Before]
  apply step_congr
  intro _
  rw [cons_lt_iff, fixed_append_lt_iff (by omega) (by omega)]
  apply step_congr
  intro _
  rw [cons_lt_iff, fixed_append_lt_iff (by omega) (by omega)]
  apply step_congr
  intro _
  rw [cons_lt_iff, fixed_append_lt_iff (by omega) (by omega)]
  apply step_congr
  intro _
  rw [cons_lt_iff, fixed_append_lt_iff (by omega) (by omega)]
  apply step_congr
  intro _
  rw [cons_lt_iff, fixed_append_lt_iff (by omega) (by omega)]
  apply step_congr
  intro _
  exact fraction_lt_iff d.microsecond_lt d'.microsecond_lt s

theorem Timestamp.isoformat_lt_iff (d d' : DateTime) :
    (utc d).isoformat < (utc d').isoformat ↔ d.instant < d'.instant := by
  rw [DateTime.instant_lt_iff, String.lt_iff, isoformat, isoformat, String.toList_ofList,
    String.toList_ofList]
  exact DateTime.text_lt_iff d d' _

/-! ## Times as numbers -/

instance (y m d : Nat) : Decidable (ValidDate y m d) :=
  decidable_of_iff ((1 ≤ y ∧ y ≤ 9999) ∧ (1 ≤ m ∧ m ≤ 12) ∧ 1 ≤ d ∧ d ≤ daysInMonth y m)
    ⟨fun h => ⟨h.1, h.2.1, h.2.2⟩, fun h => ⟨h.year, h.month, h.day⟩⟩

namespace DateTime

/-- `datetime(...)`, which raises for what is no date or no time. -/
def of? (year month day hour minute second microsecond : Nat) : Option DateTime :=
  if h : ValidDate year month day ∧ hour < 24 ∧ minute < 60 ∧ second < 60 ∧
      microsecond < 1000000 then
    some
      { year, month, day, hour, minute, second, microsecond
        date_valid := h.1
        hour_lt := h.2.1
        minute_lt := h.2.2.1
        second_lt := h.2.2.2.1
        microsecond_lt := h.2.2.2.2 }
  else none

theorem of?_self (d : DateTime) :
    of? d.year d.month d.day d.hour d.minute d.second d.microsecond = some d :=
  dif_pos ⟨d.date_valid, d.hour_lt, d.minute_lt, d.second_lt, d.microsecond_lt⟩

def ofInstant (n : Nat) : Option DateTime :=
  let day := n / 86400000000
  let year := yearOf day
  let month := monthOf year (day - daysBeforeYear year)
  of? year month (day - daysBeforeYear year - daysBeforeMonth year month) (n / 3600000000 % 24)
    (n / 60000000 % 60) (n / 1000000 % 60) (n % 1000000)

theorem ofInstant_instant (d : DateTime) : ofInstant d.instant = some d := by
  have hhour := d.hour_lt
  have hminute := d.minute_lt
  have hsecond := d.second_lt
  have hmicrosecond := d.microsecond_lt
  have hday : d.instant / 86400000000 = ordinal d.year d.month d.day := by
    unfold instant
    omega
  have hclock : d.instant / 3600000000 % 24 = d.hour ∧ d.instant / 60000000 % 60 = d.minute ∧
      d.instant / 1000000 % 60 = d.second ∧ d.instant % 1000000 = d.microsecond := by
    unfold instant
    omega
  obtain ⟨hlow, hhigh⟩ := ordinal_bounds d.date_valid
  obtain ⟨hvalid, heq⟩ := exists_date hlow hhigh
  obtain ⟨hyear, hmonth, hdate⟩ := (ordinal_eq_iff hvalid d.date_valid).mp heq
  unfold ofInstant
  dsimp only
  rw [hday, hclock.1, hclock.2.1, hclock.2.2.1, hclock.2.2.2, hdate, hmonth, hyear, of?_self]

def epoch : Nat := 719163 * 86400000000

def micros (d : DateTime) : Int := (d.instant : Int) - epoch

def ofMicros (t : Int) : Option DateTime :=
  if t + epoch < 0 then none else ofInstant (t + epoch).toNat

theorem ofMicros_micros (d : DateTime) : ofMicros d.micros = some d := by
  have hcancel : d.micros + epoch = d.instant := Int.sub_add_cancel _ _
  rw [ofMicros, hcancel, if_neg (by omega), Int.toNat_natCast, ofInstant_instant]

theorem micros_lt_iff (d d' : DateTime) : d.micros < d'.micros ↔ d.instant < d'.instant := by
  unfold micros
  omega

end DateTime

/-! ## Reading a text back -/

def readFixed : Nat → Nat → List Char → Option (Nat × List Char)
  | 0, n, cs => some (n, cs)
  | _ + 1, _, [] => none
  | w + 1, n, c :: cs => if c.isDigit then readFixed w (n * 10 + (c.toNat - 48)) cs else none

def expect (c : Char) : List Char → Option (List Char)
  | [] => none
  | c' :: cs => if c' = c then some cs else none

def readFraction : List Char → Option (Nat × List Char)
  | '.' :: cs => readFixed 6 0 cs
  | cs => some (0, cs)

def readClock (cs : List Char) : Option (DateTime × List Char) := do
  let (year, cs) ← readFixed 4 0 cs
  let cs ← expect '-' cs
  let (month, cs) ← readFixed 2 0 cs
  let cs ← expect '-' cs
  let (day, cs) ← readFixed 2 0 cs
  let cs ← expect 'T' cs
  let (hour, cs) ← readFixed 2 0 cs
  let cs ← expect ':' cs
  let (minute, cs) ← readFixed 2 0 cs
  let cs ← expect ':' cs
  let (second, cs) ← readFixed 2 0 cs
  let (microsecond, cs) ← readFraction cs
  let d ← DateTime.of? year month day hour minute second microsecond
  pure (d, cs)

def readGap (cs : List Char) : Option Nat := do
  let (hours, cs) ← readFixed 2 0 cs
  let cs ← expect ':' cs
  let (minutes, cs) ← readFixed 2 0 cs
  if cs = [] then pure ((hours * 60 + minutes) * 60000000)
  else do
    let cs ← expect ':' cs
    let (seconds, cs) ← readFixed 2 0 cs
    let (microseconds, cs) ← readFraction cs
    if cs = [] then pure (((hours * 60 + minutes) * 60 + seconds) * 1000000 + microseconds)
    else none

def readOffset : List Char → Option (Option Int)
  | [] => some none
  | c :: cs => do
    let gap ← readGap cs
    if c = '+' then pure (some gap) else if c = '-' then pure (some (-gap)) else none

/-- `datetime.fromisoformat`, of the texts that `isoformat` writes. -/
def fromisoformat (text : String) : Option Timestamp := do
  let (clock, cs) ← readClock text.toList
  let offset ← readOffset cs
  if h : ∀ o ∈ offset, o.natAbs < 86400000000 then pure ⟨clock, offset, h⟩ else none

theorem readFixed_fixed {w n : Nat} (hn : n < 10 ^ w) (k : Nat) (cs : List Char) :
    readFixed w k (fixed w n ++ cs) = some (k * 10 ^ w + n, cs) := by
  induction w generalizing n k with
  | zero =>
    obtain rfl : n = 0 := by simpa using hn
    simp [readFixed, fixed]
  | succ w ih =>
    have hdigit : ∀ m < 10, (Nat.digitChar m).isDigit = true ∧ (Nat.digitChar m).toNat - 48 = m := by
      decide
    have hlt : n / 10 ^ w < 10 := Nat.div_lt_of_lt_mul (by rwa [pow_succ] at hn)
    have hsplit := Nat.div_add_mod' n (10 ^ w)
    rw [fixed, List.cons_append, readFixed, Nat.mod_eq_of_lt hlt, (hdigit _ hlt).1,
      (hdigit _ hlt).2, if_pos rfl, ih (Nat.mod_lt _ (Nat.pow_pos (by decide)))]
    congr 2
    rw [Nat.add_mul, Nat.mul_assoc, ← pow_succ', Nat.add_assoc, hsplit]

theorem expect_self (c : Char) (cs : List Char) : expect c (c :: cs) = some cs := if_pos rfl

theorem readFraction_text {n : Nat} (hn : n < 1000000) {cs : List Char} (hcs : cs.head? ≠ some '.') :
    readFraction (fractionText n ++ cs) = some (n, cs) := by
  unfold fractionText
  split_ifs with h
  · subst h
    cases cs with
    | nil => rfl
    | cons c cs =>
      have hne : c ≠ '.' := fun h => hcs (congrArg some h)
      unfold readFraction
      split
      · next h => exact absurd (List.cons.inj h).1 hne
      · rfl
  · rw [List.cons_append, readFraction, readFixed_fixed hn, Nat.zero_mul, Nat.zero_add]

theorem readClock_text (d : DateTime) {cs : List Char} (hcs : cs.head? ≠ some '.') :
    readClock (d.text ++ cs) = some (d, cs) := by
  have hyear := d.date_valid.year
  have hmonth := d.date_valid.month
  have hday : d.day ≤ 31 := d.date_valid.day.2.trans (daysInMonth_le _ _)
  have hhour := d.hour_lt
  have hminute := d.minute_lt
  have hsecond := d.second_lt
  have hfixed : ∀ {n : Nat}, n < 100 → ∀ cs, readFixed 2 0 (fixed 2 n ++ cs) = some (n, cs) := by
    intro n hn cs
    rw [readFixed_fixed hn, Nat.zero_mul, Nat.zero_add]
  have hyears : ∀ cs, readFixed 4 0 (fixed 4 d.year ++ cs) = some (d.year, cs) := by
    intro cs
    rw [readFixed_fixed (by omega), Nat.zero_mul, Nat.zero_add]
  simp only [readClock, DateTime.text, List.append_assoc, List.cons_append, hyears, expect_self,
    hfixed (show d.month < 100 by omega), hfixed (show d.day < 100 by omega),
    hfixed (show d.hour < 100 by omega), hfixed (show d.minute < 100 by omega),
    hfixed (show d.second < 100 by omega), readFraction_text d.microsecond_lt hcs,
    DateTime.of?_self, Option.bind_eq_bind, Option.bind_some, Option.pure_def]

theorem readGap_text {gap : Nat} (h : gap < 86400000000) : readGap (gapText gap) = some gap := by
  have hfixed : ∀ {n : Nat}, n < 100 → ∀ cs, readFixed 2 0 (fixed 2 n ++ cs) = some (n, cs) := by
    intro n hn cs
    rw [readFixed_fixed hn, Nat.zero_mul, Nat.zero_add]
  unfold gapText
  split_ifs with hwhole
  · simp only [readGap, hfixed (show gap / 3600000000 < 100 by omega), expect_self,
      hfixed (show gap / 60000000 % 60 < 100 by omega), Option.bind_eq_bind, Option.bind_some,
      Option.pure_def, if_true]
    congr 1
    omega
  · have hfraction := @readFraction_text (gap % 1000000) (Nat.mod_lt _ (by decide)) [] (by simp)
    rw [List.append_nil] at hfraction
    simp only [readGap, hfixed (show gap / 3600000000 < 100 by omega), expect_self,
      hfixed (show gap / 60000000 % 60 < 100 by omega),
      hfixed (show gap / 1000000 % 60 < 100 by omega), hfraction, Option.bind_eq_bind,
      Option.bind_some, Option.pure_def, if_true, reduceCtorEq, if_false]
    congr 1
    omega

theorem readOffset_text {offset : Option Int} (h : ∀ o ∈ offset, o.natAbs < 86400000000) :
    readOffset (offsetText offset) = some offset := by
  cases offset with
  | none => rfl
  | some o =>
    have hgap := readGap_text (h o rfl)
    simp only [offsetText]
    split_ifs with hneg
    · simp only [readOffset, hgap, Option.bind_eq_bind, Option.bind_some, Option.pure_def]
      rw [if_neg (by decide), if_pos trivial]
      congr 2
      omega
    · simp only [readOffset, hgap, Option.bind_eq_bind, Option.bind_some, Option.pure_def]
      rw [if_pos trivial]
      congr 2
      omega

theorem fromisoformat_isoformat (t : Timestamp) : fromisoformat t.isoformat = some t := by
  have hhead : (offsetText t.offset).head? ≠ some '.' := by
    cases t.offset with
    | none => simp [offsetText]
    | some o =>
      simp only [offsetText]
      split_ifs <;> simp
  simp only [fromisoformat, Timestamp.isoformat, String.toList_ofList, readClock_text t.clock hhead,
    readOffset_text t.offset_lt, Option.bind_eq_bind, Option.bind_some, Option.pure_def]
  exact dif_pos t.offset_lt

end Calendar
