import Mathlib.Data.List.TakeWhile
import Mathlib.Data.Char

/-!
# The lines of a text

`str.splitlines`: a line ends at one of ten characters, or at a carriage return with the
line feed behind it. The end of the text ends a line that is not empty.
-/

namespace Lines

def isBreak (c : Char) : Bool :=
  (10 ≤ c.toNat && c.toNat ≤ 13) || (28 ≤ c.toNat && c.toNat ≤ 30) || c.toNat = 133 ||
    c.toNat = 8232 || c.toNat = 8233

/-- The lines of a text, behind the beginning `line` of the first one. -/
def splitFrom : List Char → List Char → List (List Char)
  | [], [] => []
  | line, [] => [line]
  | line, '\r' :: '\n' :: cs => line :: splitFrom [] cs
  | line, c :: cs => if isBreak c then line :: splitFrom [] cs else splitFrom (line ++ [c]) cs

def split (cs : List Char) : List (List Char) := splitFrom [] cs

def splitlines (s : String) : List String := (split s.toList).map String.ofList

theorem splitFrom_cons {c : Char} (h : isBreak c = false) (line cs : List Char) :
    splitFrom line (c :: cs) = splitFrom (line ++ [c]) cs := by
  have hne : c ≠ '\r' := by
    rintro rfl
    cases h
  rw [splitFrom, if_neg (by simp [h])]
  exact fun _ h _ => hne h

theorem splitFrom_append {cs : List Char} (h : ∀ c ∈ cs, isBreak c = false) (line rest : List Char) :
    splitFrom line (cs ++ rest) = splitFrom (line ++ cs) rest := by
  induction cs generalizing line with
  | nil => simp
  | cons c cs ih =>
    obtain ⟨hc, hcs⟩ := List.forall_mem_cons.mp h
    rw [List.cons_append, splitFrom_cons hc, ih hcs]
    simp

theorem splitFrom_newline (line cs : List Char) :
    splitFrom line ('\n' :: cs) = line :: splitFrom [] cs := by
  rw [splitFrom, if_pos (by decide)]
  exact fun _ h => absurd h (by decide)

theorem split_line {cs : List Char} (h : ∀ c ∈ cs, isBreak c = false) (rest : List Char) :
    split (cs ++ '\n' :: rest) = cs :: split rest := by
  rw [split, splitFrom_append h, splitFrom_newline, List.nil_append]
  rfl

/-! ## Lines on a wire -/

inductive Eol where
  | feed | carriage | both

def Eol.chars : Eol → List Char
  | .feed => ['\n']
  | .carriage => ['\r']
  | .both => ['\r', '\n']

def wire (eol : Eol) (lines : List (List Char)) : List Char := eol.chars.intercalate lines

/-- The segments of a line, between the breaks in it. -/
def segmentsFrom : List Char → List Char → List (List Char)
  | segment, [] => [segment]
  | segment, c :: cs =>
    if isBreak c then segment :: segmentsFrom [] cs else segmentsFrom (segment ++ [c]) cs

def segments (line : List Char) : List (List Char) := segmentsFrom [] line

def OneLine (line : List Char) : Prop := ∀ c ∈ line, c ≠ '\n' ∧ c ≠ '\r'

theorem segmentsFrom_append {cs : List Char} (h : ∀ c ∈ cs, isBreak c = false)
    (segment rest : List Char) :
    segmentsFrom segment (cs ++ rest) = segmentsFrom (segment ++ cs) rest := by
  induction cs generalizing segment with
  | nil => simp
  | cons c cs ih =>
    obtain ⟨hc, hcs⟩ := List.forall_mem_cons.mp h
    rw [List.cons_append, segmentsFrom, if_neg (by simp [hc]), ih hcs]
    simp

theorem segments_unbroken {line : List Char} (h : ∀ c ∈ line, isBreak c = false) :
    segments line = [line] := by
  have happend := segmentsFrom_append h [] []
  rw [List.append_nil] at happend
  exact happend

theorem mem_segments_break {x y : List Char} {b : Char} (hx : ∀ c ∈ x, isBreak c = false)
    (hb : isBreak b = true) : x ∈ segments (x ++ b :: y) := by
  rw [segments, segmentsFrom_append hx, segmentsFrom, if_pos hb]
  exact List.mem_cons_self

theorem splitFrom_break {c : Char} (hc : isBreak c = true) (hr : c ≠ '\r') (line cs : List Char) :
    splitFrom line (c :: cs) = line :: splitFrom [] cs := by
  rw [splitFrom, if_pos hc]
  exact fun _ h _ => hr h

theorem splitFrom_carriage (line : List Char) {cs : List Char} (h : cs.head? ≠ some '\n') :
    splitFrom line ('\r' :: cs) = line :: splitFrom [] cs := by
  rw [splitFrom, if_pos (by decide)]
  rintro cs' - rfl
  exact h rfl

theorem splitFrom_eol {eol : Eol} (line : List Char) {cs : List Char}
    (h : eol = .carriage → cs.head? ≠ some '\n') :
    splitFrom line (eol.chars ++ cs) = line :: splitFrom [] cs := by
  cases eol with
  | feed => exact splitFrom_newline line cs
  | carriage => exact splitFrom_carriage line (h rfl)
  | both =>
    change splitFrom line ('\r' :: '\n' :: cs) = _
    rw [splitFrom]

theorem splitFrom_line {line : List Char} (hline : OneLine line) {eol : Eol} (segment : List Char)
    {cs : List Char} (h : eol = .carriage → cs.head? ≠ some '\n') :
    splitFrom segment (line ++ (eol.chars ++ cs)) =
      segmentsFrom segment line ++ splitFrom [] cs := by
  induction line generalizing segment with
  | nil => exact splitFrom_eol segment h
  | cons c line ih =>
    obtain ⟨hc, hrest⟩ := List.forall_mem_cons.mp hline
    rw [List.cons_append, segmentsFrom]
    by_cases hb : isBreak c = true
    · rw [splitFrom_break hb hc.2, if_pos hb, ih hrest]
      rfl
    · rw [splitFrom_cons (by simpa using hb), if_neg hb, ih hrest]

theorem splitFrom_last {line : List Char} (hline : OneLine line) (segment : List Char) :
    ∃ t, segmentsFrom segment line = splitFrom segment line ++ t ∧ (t = [] ∨ t = [[]]) := by
  induction line generalizing segment with
  | nil =>
    cases segment with
    | nil => exact ⟨[[]], rfl, .inr rfl⟩
    | cons c segment => exact ⟨[], rfl, .inl rfl⟩
  | cons c line ih =>
    obtain ⟨hc, hrest⟩ := List.forall_mem_cons.mp hline
    rw [segmentsFrom]
    by_cases hb : isBreak c = true
    · obtain ⟨t, hsegments, ht⟩ := ih hrest []
      exact ⟨t, by rw [splitFrom_break hb hc.2, if_pos hb, hsegments]; rfl, ht⟩
    · obtain ⟨t, hsegments, ht⟩ := ih hrest (segment ++ [c])
      exact ⟨t, by rw [splitFrom_cons (by simpa using hb), if_neg hb, hsegments], ht⟩

theorem wire_cons (eol : Eol) (line line' : List Char) (lines : List (List Char)) :
    wire eol (line :: line' :: lines) = line ++ (eol.chars ++ wire eol (line' :: lines)) := by
  rw [wire, List.intercalate_cons_cons, List.append_assoc]
  rfl

theorem wire_head {line : List Char} {lines : List (List Char)} (h : OneLine line) :
    (wire .carriage (line :: lines)).head? ≠ some '\n' := by
  cases line with
  | nil =>
    cases lines with
    | nil => simp [wire, List.intercalate]
    | cons line' lines => simp [wire_cons, Eol.chars]
  | cons c line =>
    have hc := (List.forall_mem_cons.mp h).1.1
    cases lines with
    | nil => simpa [wire, List.intercalate] using hc
    | cons line' lines => simpa [wire_cons] using hc

theorem split_wire {eol : Eol} {lines : List (List Char)} (h : ∀ line ∈ lines, OneLine line) :
    ∃ t, lines.flatMap segments = split (wire eol lines) ++ t ∧ (t = [] ∨ t = [[]]) := by
  induction lines with
  | nil => exact ⟨[], rfl, .inl rfl⟩
  | cons line lines ih =>
    obtain ⟨hline, hlines⟩ := List.forall_mem_cons.mp h
    cases lines with
    | nil =>
      obtain ⟨t, hsegments, ht⟩ := splitFrom_last hline []
      exact ⟨t, by simpa [wire, List.intercalate, split, segments] using hsegments, ht⟩
    | cons line' lines =>
      obtain ⟨t, hsegments, ht⟩ := ih hlines
      have hhead : eol = .carriage → (wire eol (line' :: lines)).head? ≠ some '\n' := by
        rintro rfl
        exact wire_head (List.forall_mem_cons.mp hlines).1
      refine ⟨t, ?_, ht⟩
      have hsplit : split (wire eol (line :: line' :: lines)) =
          segments line ++ split (wire eol (line' :: lines)) := by
        rw [wire_cons, split, splitFrom_line hline [] hhead]
        rfl
      rw [List.flatMap_cons, hsegments, hsplit, List.append_assoc]

end Lines
