import AegisGateway.Lib.JsonDecoding

/-!
# What a JSON text is made of

With `ensure_ascii` a text holds printable ASCII only: whatever the strings of the value
are, there is neither a control character in it nor any other break of a line.
-/

namespace JsonText

def Printable (c : Char) : Prop := 32 ≤ c.toNat ∧ c.toNat ≤ 126

instance (c : Char) : Decidable (Printable c) := inferInstanceAs (Decidable (_ ∧ _))

/-! ## Characters -/

theorem printable_of_all {cs : List Char} (h : cs.all (fun c => decide (Printable c)) = true) :
    ∀ c ∈ cs, Printable c := fun c hc => of_decide_eq_true (List.all_eq_true.mp h c hc)

theorem hexDigit_printable (n : Nat) : Printable (hexDigit n) := by
  have hlt : n % 16 < 16 := Nat.mod_lt _ (by decide)
  unfold hexDigit
  interval_cases n % 16 <;> decide

theorem hex4_printable (n : Nat) : ∀ c ∈ hex4 n, Printable c := by
  simp [hex4, hexDigit_printable]

theorem shortEscape_printable {c e : Char} (h : shortEscape c = some e) : Printable e := by
  unfold shortEscape at h
  split_ifs at h <;> cases h <;> decide

theorem escapeChar_printable (c : Char) : ∀ e ∈ escapeChar true c, Printable e := by
  unfold escapeChar
  split
  next e h =>
    simp only [List.mem_cons, List.not_mem_nil, or_false, forall_eq_or_imp, forall_eq]
    exact ⟨by decide, shortEscape_printable h⟩
  next h =>
    have hu : ∀ n, ∀ e ∈ backslash :: 'u' :: hex4 n, Printable e := by
      intro n
      simp only [List.forall_mem_cons]
      exact ⟨by decide, by decide, hex4_printable n⟩
    rcases Decidable.em (32 ≤ c.toNat ∧ (c.toNat ≤ 126 ∨ true = false)) with hp | hp
    · rw [if_pos hp, List.forall_mem_singleton]
      exact ⟨hp.1, hp.2.resolve_right (by simp)⟩
    · rw [if_neg hp]
      split_ifs
      · exact hu _
      · exact List.forall_mem_append.mpr ⟨hu _, hu _⟩

theorem strText_printable (s : String) : ∀ c ∈ strText true s, Printable c := by
  intro c hc
  simp only [strText, List.mem_append, List.mem_cons, List.mem_flatMap, List.not_mem_nil,
    or_false] at hc
  rcases hc with (rfl | ⟨c', -, hc⟩) | rfl
  · decide
  · exact escapeChar_printable c' c hc
  · decide

theorem isNumberChar_printable {c : Char} (h : isNumberChar c = true) : Printable c := by
  simp only [isNumberChar, Bool.or_eq_true, decide_eq_true_eq, List.mem_cons, List.not_mem_nil,
    or_false] at h
  rcases h with h | rfl | rfl | rfl | rfl
  · simp only [Char.isDigit, Bool.and_eq_true, decide_eq_true_eq] at h
    exact ⟨le_trans (by decide) h.1, le_trans h.2 (by decide)⟩
  all_goals decide

/-! ## Values -/

section

variable {repr : PyFloat → List Char} {st : Style}

theorem mem_joined {α : Type} {write : α → List Char} {sep : List Char} {as : List α} {c : Char}
    (h : c ∈ joined write sep as) : (∃ a ∈ as, c ∈ write a) ∨ c ∈ sep := by
  induction as with
  | nil => cases h
  | cons a as ih =>
    rw [joined_cons, others] at h
    rcases List.mem_append.mp h with h | h
    · exact .inl ⟨a, List.mem_cons_self, h⟩
    · split_ifs at h
      · cases h
      · rcases List.mem_append.mp h with h | h
        · exact .inr h
        · rcases ih h with h | h
          · obtain ⟨a', ha', hc⟩ := h
            exact .inl ⟨a', List.mem_cons_of_mem _ ha', hc⟩
          · exact .inr h

structure Style.Plain (st : Style) : Prop where
  ascii : st.ascii = true
  item : ∀ c ∈ st.item, Printable c
  key : ∀ c ∈ st.key, Printable c

theorem text_printable (hr : FloatText repr) (hs : st.Plain) {j : Json} (hj : Distinct j) :
    ∀ c ∈ text repr st j, Printable c := by
  induction hj with
  | null =>
    rw [text]
    exact printable_of_all (by decide)
  | bool b =>
    cases b
    all_goals
      rw [text]
      exact printable_of_all (by decide)
  | int n => exact fun c hc => isNumberChar_printable (intText_number n c hc)
  | float x hx => exact fun c hc => isNumberChar_printable (hr.number x hx c hc)
  | str s =>
    rw [text, hs.ascii]
    exact strText_printable s
  | arr h ih =>
    intro c hc
    simp only [text, itemsText_eq, List.mem_append, List.mem_cons, List.not_mem_nil, or_false] at hc
    -- The bracket in front, the items and what stands between them, the bracket behind.
    rcases hc with (rfl | hc) | rfl
    · decide
    · rcases mem_joined hc with ⟨j, hj, hc⟩ | hc
      · exact ih j hj c hc
      · exact hs.item c hc
    · decide
  | obj hkeys h ih =>
    intro c hc
    simp only [text, fieldsText_eq, List.mem_append, List.mem_cons, List.not_mem_nil,
      or_false] at hc
    rcases hc with (rfl | hc) | rfl
    · decide
    · rcases mem_joined hc with ⟨f, hf, hc⟩ | hc
      · rw [fieldText, hs.ascii] at hc
        rcases List.mem_append.mp hc with hc | hc
        · exact strText_printable f.1 c hc
        · rcases List.mem_append.mp hc with hc | hc
          · exact hs.key c hc
          · exact ih f hf c hc
      · exact hs.item c hc
    · decide

end

theorem compact_plain : Style.compact.Plain :=
  ⟨rfl, printable_of_all (by decide), printable_of_all (by decide)⟩

theorem compact_spaced : Style.compact.Spaced := ⟨⟨[], by simp, rfl⟩, ⟨[], by simp, rfl⟩⟩

end JsonText
