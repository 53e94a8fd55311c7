import Mathlib.Data.List.Basic

/-!
# The matches of a pattern

`re.findall` and `re.sub` go through a text from left to right. They take the match that
begins first and go on behind it, so that no match is looked for in what has been matched.
-/

namespace Matches

variable {α β ε : Type}

/-- The reader finds the one match that a text begins with, if there is one: `M s b` says that
`s` matches with the group `b`. -/
structure Recognizes (read : List α → Option (β × List α)) (M : List α → β → Prop) : Prop where
  ne_nil : ∀ {s b}, M s b → s ≠ []
  iff : ∀ {cs b rest}, read cs = some (b, rest) ↔ ∃ s, M s b ∧ cs = s ++ rest

/-- A text cut up at its matches, each the leftmost of those that are left. -/
inductive Leftmost (M : List α → β → Prop) : List α → List (α ⊕ β) → Prop
  | nil : Leftmost M [] []
  | hit {s rest : List α} {b : β} {ps : List (α ⊕ β)} (h : M s b) (hrest : Leftmost M rest ps) :
      Leftmost M (s ++ rest) (.inr b :: ps)
  | char {c : α} {cs : List α} {ps : List (α ⊕ β)} (h : ∀ s b rest, M s b → c :: cs ≠ s ++ rest)
      (hrest : Leftmost M cs ps) : Leftmost M (c :: cs) (.inl c :: ps)

def groups (ps : List (α ⊕ β)) : List β := ps.filterMap Sum.getRight?

def replaced (f : β → List α) (ps : List (α ⊕ β)) : List α := ps.flatMap (Sum.elim ([·]) f)

section

variable (read : List α → Option (β × List α))

/-- `re.findall`. The length of the text is enough fuel. -/
def findall : Nat → List α → List β
  | 0, _ => []
  | _, [] => []
  | n + 1, c :: cs =>
    match read (c :: cs) with
    | some (b, rest) => b :: findall n rest
    | none => findall n cs

/-- `re.sub` with a function, which may raise. -/
def sub (replace : β → Except ε (List α)) : Nat → List α → Except ε (List α)
  | 0, _ => .ok []
  | _, [] => .ok []
  | n + 1, c :: cs =>
    match read (c :: cs) with
    | some (b, rest) => do
      let s ← replace b
      let tail ← sub replace n rest
      pure (s ++ tail)
    | none => do
      let tail ← sub replace n cs
      pure (c :: tail)

end

variable {read : List α → Option (β × List α)} {M : List α → β → Prop} (h : Recognizes read M)

include h

theorem Recognizes.eq_none {c : α} {cs : List α} :
    read (c :: cs) = none ↔ ∀ s b rest, M s b → c :: cs ≠ s ++ rest := by
  constructor
  · intro hnone s b rest hs heq
    rw [h.iff.mpr ⟨s, hs, heq⟩] at hnone
    cases hnone
  · intro hno
    cases hread : read (c :: cs) with
    | none => rfl
    | some found =>
      obtain ⟨b, rest⟩ := found
      obtain ⟨s, hs, heq⟩ := h.iff.mp hread
      exact absurd heq (hno s b rest hs)

theorem Recognizes.length_lt {cs rest : List α} {b : β} (hread : read cs = some (b, rest)) :
    rest.length < cs.length := by
  obtain ⟨s, hs, rfl⟩ := h.iff.mp hread
  rw [List.length_append]
  exact Nat.lt_add_of_pos_left (List.length_pos_iff.mpr (h.ne_nil hs))

/-- What a text begins with decides how it is cut up. -/
theorem Leftmost.hit_iff {cs rest : List α} {b : β} (hread : read cs = some (b, rest))
    {ps : List (α ⊕ β)} : Leftmost M cs ps ↔ ∃ ps', ps = .inr b :: ps' ∧ Leftmost M rest ps' := by
  constructor
  · intro hps
    cases hps with
    | nil =>
      obtain ⟨s, hs, heq⟩ := h.iff.mp hread
      exact absurd (List.append_eq_nil_iff.mp heq.symm).1 (h.ne_nil hs)
    | hit hs hrest =>
      have hsame := (h.iff.mpr ⟨_, hs, rfl⟩).symm.trans hread
      cases hsame
      exact ⟨_, rfl, hrest⟩
    | char hno hrest =>
      obtain ⟨s, hs, heq⟩ := h.iff.mp hread
      exact absurd heq (hno s b rest hs)
  · rintro ⟨ps', rfl, hrest⟩
    obtain ⟨s, hs, rfl⟩ := h.iff.mp hread
    exact .hit hs hrest

theorem Leftmost.char_iff {c : α} {cs : List α} (hread : read (c :: cs) = none)
    {ps : List (α ⊕ β)} :
    Leftmost M (c :: cs) ps ↔ ∃ ps', ps = .inl c :: ps' ∧ Leftmost M cs ps' := by
  have hno := h.eq_none.mp hread
  constructor
  · intro hps
    generalize htext : c :: cs = text at hps
    cases hps with
    | nil => cases htext
    | hit hs hrest => exact absurd htext (hno _ _ _ hs)
    | char _ hrest =>
      cases htext
      exact ⟨_, rfl, hrest⟩
  · rintro ⟨ps', rfl, hrest⟩
    exact .char hno hrest

theorem leftmost_nil_iff {ps : List (α ⊕ β)} : Leftmost M [] ps ↔ ps = [] := by
  constructor
  · intro hps
    generalize htext : ([] : List α) = text at hps
    cases hps with
    | nil => rfl
    | hit hs _ => exact absurd (List.append_eq_nil_iff.mp htext.symm).1 (h.ne_nil hs)
    | char _ _ => cases htext
  · rintro rfl
    exact .nil

/-- Every text is cut up in just one way. -/
theorem existsUnique_leftmost (cs : List α) : ∃! ps, Leftmost M cs ps := by
  induction hn : cs.length using Nat.strongRecOn generalizing cs with
  | ind n ih =>
    cases cs with
    | nil => exact ⟨[], .nil, fun ps hps => (leftmost_nil_iff h).mp hps⟩
    | cons c cs =>
      cases hread : read (c :: cs) with
      | some found =>
        obtain ⟨b, rest⟩ := found
        obtain ⟨ps, hps, hunique⟩ := ih rest.length (hn ▸ h.length_lt hread) rest rfl
        refine ⟨.inr b :: ps, (Leftmost.hit_iff h hread).mpr ⟨ps, rfl, hps⟩, fun ps' hps' => ?_⟩
        obtain ⟨ps'', rfl, hrest⟩ := (Leftmost.hit_iff h hread).mp hps'
        rw [hunique ps'' hrest]
      | none =>
        obtain ⟨ps, hps, hunique⟩ := ih cs.length (by simp [← hn]) cs rfl
        refine ⟨.inl c :: ps, (Leftmost.char_iff h hread).mpr ⟨ps, rfl, hps⟩, fun ps' hps' => ?_⟩
        obtain ⟨ps'', rfl, hrest⟩ := (Leftmost.char_iff h hread).mp hps'
        rw [hunique ps'' hrest]

theorem findall_eq {n : Nat} {cs : List α} {ps : List (α ⊕ β)} (hps : Leftmost M cs ps)
    (hn : cs.length ≤ n) : findall read n cs = groups ps := by
  induction n generalizing cs ps with
  | zero =>
    obtain rfl := List.length_eq_zero_iff.mp (Nat.le_zero.mp hn)
    rw [(leftmost_nil_iff h).mp hps]
    rfl
  | succ n ih =>
    cases cs with
    | nil =>
      rw [(leftmost_nil_iff h).mp hps]
      rfl
    | cons c cs =>
      cases hread : read (c :: cs) with
      | some found =>
        obtain ⟨b, rest⟩ := found
        obtain ⟨ps, rfl, hrest⟩ := (Leftmost.hit_iff h hread).mp hps
        have hlt := h.length_lt hread
        rw [findall, hread]
        exact congrArg (b :: ·) (ih hrest (by omega))
      | none =>
        obtain ⟨ps, rfl, hrest⟩ := (Leftmost.char_iff h hread).mp hps
        have htail := ih hrest (Nat.le_of_succ_le_succ hn)
        rw [findall, hread]
        exact htail

theorem sub_eq {replace : β → Except ε (List α)} {f : β → List α} {n : Nat} {cs : List α}
    {ps : List (α ⊕ β)} (hps : Leftmost M cs ps) (hn : cs.length ≤ n)
    (hf : ∀ b ∈ groups ps, replace b = .ok (f b)) :
    sub read replace n cs = .ok (replaced f ps) := by
  induction n generalizing cs ps with
  | zero =>
    obtain rfl := List.length_eq_zero_iff.mp (Nat.le_zero.mp hn)
    rw [(leftmost_nil_iff h).mp hps]
    rfl
  | succ n ih =>
    cases cs with
    | nil =>
      rw [(leftmost_nil_iff h).mp hps]
      rfl
    | cons c cs =>
      cases hread : read (c :: cs) with
      | some found =>
        obtain ⟨b, rest⟩ := found
        obtain ⟨ps, rfl, hrest⟩ := (Leftmost.hit_iff h hread).mp hps
        have hlt := h.length_lt hread
        obtain ⟨hb, hgroups⟩ := List.forall_mem_cons.mp hf
        simp only [sub, hread, hb, ih hrest (by omega) hgroups]
        rfl
      | none =>
        obtain ⟨ps, rfl, hrest⟩ := (Leftmost.char_iff h hread).mp hps
        simp only [sub, hread, ih hrest (Nat.le_of_succ_le_succ hn) hf]
        rfl

end Matches
