import Mathlib.Data.List.DropRight
import Mathlib.Data.List.Infix

/-!
# Texts up to white space

A text is trimmed at both ends, and each run of white space in it is written as one mark. What
a text contains is still there afterwards.
-/

namespace Words

variable {α : Type} {p : α → Bool} {xs ys zs : List α}

/-! ## Trimming -/

structure Framed (p : α → Bool) (xs : List α) : Prop where
  head : ∀ x ∈ xs.head?, p x = false
  last : ∀ x ∈ xs.getLast?, p x = false

def trim (p : α → Bool) (xs : List α) : List α := (xs.dropWhile p).rdropWhile p

theorem dropWhile_append_of_head (hne : ys ≠ []) (hhead : ∀ y ∈ ys.head?, p y = false) :
    (xs ++ ys).dropWhile p = xs.dropWhile p ++ ys := by
  have hself : ys.dropWhile p = ys := by
    cases ys with
    | nil => exact absurd rfl hne
    | cons y ys => exact List.dropWhile_cons_of_neg (by simp [hhead y rfl])
  rw [List.dropWhile_append, hself]
  split_ifs with hempty
  · rw [List.isEmpty_iff.mp hempty, List.nil_append]
  · rfl

theorem rdropWhile_append_of_last (hne : xs ≠ []) (hlast : ∀ x ∈ xs.getLast?, p x = false) :
    (xs ++ ys).rdropWhile p = xs ++ ys.rdropWhile p := by
  have hhead : ∀ x ∈ xs.reverse.head?, p x = false := by
    rwa [List.head?_reverse]
  unfold List.rdropWhile
  rw [List.reverse_append, dropWhile_append_of_head (by simpa using hne) hhead,
    List.reverse_append, List.reverse_reverse]

theorem trim_append (hne : ys ≠ []) (h : Framed p ys) :
    trim p (xs ++ ys ++ zs) = xs.dropWhile p ++ ys ++ zs.rdropWhile p := by
  have hhead : ∀ y ∈ (ys ++ zs).head?, p y = false := by
    cases ys with
    | nil => exact absurd rfl hne
    | cons y ys => exact h.head
  have hlast : ∀ y ∈ (xs.dropWhile p ++ ys).getLast?, p y = false := by
    rw [List.getLast?_append_of_ne_nil _ hne]
    exact h.last
  rw [trim, List.append_assoc, dropWhile_append_of_head (by simp [hne]) hhead,
    ← List.append_assoc, rdropWhile_append_of_last (by simp [hne]) hlast]

theorem trim_isPrefix (xs : List α) : trim p xs <+: xs.dropWhile p :=
  List.rdropWhile_prefix p (xs.dropWhile p)

theorem trim_isInfix (xs : List α) : trim p xs <:+: xs :=
  (trim_isPrefix xs).isInfix.trans (List.dropWhile_suffix p).isInfix

theorem trim_eq_nil_iff : trim p xs = [] ↔ ∀ x ∈ xs, p x = true := by
  unfold trim
  rw [List.rdropWhile_eq_nil_iff]
  constructor
  · intro h
    rw [← List.dropWhile_eq_nil_iff]
    by_contra hne
    have hmem := List.head_mem hne
    exact absurd (h _ hmem) (by simp [List.head_dropWhile_not p hne])
  · intro h x hx
    exact h x ((List.dropWhile_suffix p).subset hx)

theorem framed_trim (xs : List α) : Framed p (trim p xs) where
  head := by
    intro x hx
    obtain ⟨ys, hys⟩ := trim_isPrefix (p := p) xs
    have hhead : (xs.dropWhile p).head? = some x := by
      rw [← hys, List.head?_append, Option.mem_def.mp hx]
      rfl
    have hnot := List.head?_dropWhile_not p xs
    rw [hhead] at hnot
    simpa using hnot
  last := by
    intro x hx
    have hne : trim p xs ≠ [] := by
      intro hnil
      rw [hnil] at hx
      cases hx
    have hnot := List.rdropWhile_last_not p (xs.dropWhile p) hne
    rw [List.getLast?_eq_some_getLast hne] at hx
    obtain rfl := Option.some.inj hx
    exact Bool.eq_false_iff.mpr hnot

theorem exists_trim (p : α → Bool) (xs : List α) : ∃ front back, xs = front ++ trim p xs ++ back ∧
    (∀ x ∈ front, p x = true) ∧ ∀ x ∈ back, p x = true := by
  refine ⟨xs.takeWhile p, (xs.dropWhile p).rtakeWhile p, ?_, ?_, ?_⟩
  · unfold trim
    rw [List.append_assoc, List.rdropWhile_append_rtakeWhile, List.takeWhile_append_dropWhile]
  · exact fun x hx => List.mem_takeWhile_imp hx
  · exact fun x hx => List.mem_rtakeWhile_imp hx

/-! ## Runs -/

section Collapse

variable [DecidableEq α] {mark : α}

def collapse (p : α → Bool) (mark : α) : List α → List α
  | [] => []
  | x :: xs =>
    if p x then
      if (collapse p mark xs).head? = some mark then collapse p mark xs
      else mark :: collapse p mark xs
    else x :: collapse p mark xs

theorem head?_collapse (h : ∀ x ∈ xs.head?, p x = false) :
    (collapse p mark xs).head? = xs.head? := by
  cases xs with
  | nil => rfl
  | cons x xs => simp [collapse, h x rfl]

theorem collapse_eq_nil_iff : collapse p mark xs = [] ↔ xs = [] := by
  cases xs with
  | nil => simp [collapse]
  | cons x xs =>
    simp only [collapse, reduceCtorEq, iff_false]
    split_ifs with hx hhead
    · intro hnil
      rw [hnil] at hhead
      cases hhead
    · simp
    · simp

variable (hmark : p mark = true)

include hmark

theorem collapse_append_of_head (h : ∀ y ∈ ys.head?, p y = false) :
    collapse p mark (xs ++ ys) = collapse p mark xs ++ collapse p mark ys := by
  have hys : (collapse p mark ys).head? ≠ some mark := by
    rw [head?_collapse h]
    intro hhead
    rw [h mark hhead] at hmark
    cases hmark
  induction xs with
  | nil => rfl
  | cons x xs ih =>
    simp only [List.cons_append, collapse, ih]
    have hsame : (collapse p mark xs ++ collapse p mark ys).head? = some mark ↔
        (collapse p mark xs).head? = some mark := by
      cases collapse p mark xs with
      | nil => simp [hys]
      | cons z zs => simp
    simp only [hsame]
    split_ifs
    · rfl
    · rfl
    · rfl

theorem collapse_concat {x : α} (hx : p x = false) :
    collapse p mark (xs ++ [x]) = collapse p mark xs ++ [x] := by
  rw [collapse_append_of_head hmark (by simpa using hx)]
  simp [collapse, hx]

theorem collapse_append_of_last (h : ∀ x ∈ xs.getLast?, p x = false) :
    collapse p mark (xs ++ ys) = collapse p mark xs ++ collapse p mark ys := by
  induction xs using List.reverseRecOn with
  | nil => rfl
  | append_singleton xs x _ =>
    have hx : p x = false := h x (by simp)
    rw [List.append_assoc, collapse_append_of_head hmark (by simpa using hx),
      collapse_concat hmark hx, List.append_assoc]
    simp [collapse, hx]

theorem framed_collapse (h : Framed p xs) : Framed p (collapse p mark xs) where
  head := by
    rw [head?_collapse h.head]
    exact h.head
  last := by
    induction xs using List.reverseRecOn with
    | nil => exact fun x hx => by cases hx
    | append_singleton xs x _ =>
      have hx : p x = false := h.last x (by simp)
      rw [collapse_concat hmark hx]
      simpa using hx

theorem collapse_space (h : ∀ x ∈ xs, p x = true) : ∀ x ∈ collapse p mark xs, p x = true := by
  induction xs with
  | nil => exact List.forall_mem_nil _
  | cons x xs ih =>
    obtain ⟨hx, hxs⟩ := List.forall_mem_cons.mp h
    unfold collapse
    rw [if_pos hx]
    split_ifs
    · exact ih hxs
    · exact List.forall_mem_cons.mpr ⟨hmark, ih hxs⟩

/-- It makes no difference whether the ends are trimmed first. -/
theorem trim_collapse (xs : List α) :
    trim p (collapse p mark xs) = collapse p mark (trim p xs) := by
  by_cases hnil : trim p xs = []
  · rw [hnil]
    exact trim_eq_nil_iff.mpr (collapse_space hmark (trim_eq_nil_iff.mp hnil))
  · obtain ⟨front, back, hxs, hfront, hback⟩ := exists_trim p xs
    have hframed := framed_trim (p := p) xs
    generalize trim p xs = core at *
    have hlast : ∀ x ∈ (front ++ core).getLast?, p x = false := by
      rw [List.getLast?_append_of_ne_nil _ hnil]
      exact hframed.last
    rw [hxs, collapse_append_of_last hmark hlast, collapse_append_of_head hmark hframed.head,
      trim_append (mt collapse_eq_nil_iff.mp hnil) (framed_collapse hmark hframed),
      List.dropWhile_eq_nil_iff.mpr (collapse_space hmark hfront),
      List.rdropWhile_eq_nil_iff.mpr (collapse_space hmark hback)]
    simp

theorem infix_normal (h : xs <:+: ys) :
    trim p (collapse p mark xs) <:+: trim p (collapse p mark ys) := by
  rw [trim_collapse hmark]
  obtain ⟨front, back, hys⟩ := (trim_isInfix (p := p) xs).trans h
  have hframed := framed_trim (p := p) xs
  generalize trim p xs = core at *
  by_cases hnil : core = []
  · rw [hnil]
    exact List.nil_infix
  · have hlast : ∀ x ∈ (front ++ core).getLast?, p x = false := by
      rw [List.getLast?_append_of_ne_nil _ hnil]
      exact hframed.last
    rw [← hys, collapse_append_of_last hmark hlast, collapse_append_of_head hmark hframed.head,
      trim_append (mt collapse_eq_nil_iff.mp hnil) (framed_collapse hmark hframed)]
    exact ⟨_, _, rfl⟩

end Collapse

end Words
