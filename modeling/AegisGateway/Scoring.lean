import AegisGateway.Lib.Words
import AegisGateway.Diagnostics
import AegisGateway.Verdict

/-!
# Scores and percentiles

Two texts are compared in their normal form. It is coarser than the text itself, so it never
counts against an answer that is right to the letter. The percentile of the gate and the one of
the live guard are the same sample.
-/

open Coroutine

namespace AegisGateway

/-! ## The normal form -/

theorem strip_eq_trim (isSpace : Char → Bool) (cs : List Char) :
    strip isSpace cs = Words.trim isSpace cs := rfl

theorem squeezeSpaces_eq_collapse (isSpace : Char → Bool) (cs : List Char) :
    squeezeSpaces isSpace cs = Words.collapse isSpace ' ' cs := by
  induction cs with
  | nil => rfl
  | cons c cs ih =>
    unfold squeezeSpaces Words.collapse
    rw [ih]
    split_ifs with hc hhead
    · -- The run goes on: its space is already there.
      obtain ⟨rest, hrest⟩ := List.head?_eq_some_iff.mp hhead
      rw [hrest]
      rfl
    · split
      · next rest hrest =>
        rw [hrest] at hhead
        exact absurd rfl hhead
      · rfl
    · rfl

/-- Folding the case of a text leaves its white space where it is. -/
structure Platform.Folds (P : Platform) : Prop where
  space : P.isSpace ' ' = true
  whitespace : ∀ c, P.isSpace c = true → ∀ d ∈ P.casefold c, P.isSpace d = true
  visible : ∀ c, P.isSpace c = false →
    P.casefold c ≠ [] ∧ ∀ d ∈ P.casefold c, P.isSpace d = false

section

variable {P : Platform}

theorem normalize_eq (value : String) : P.normalize value =
    Words.trim P.isSpace (Words.collapse P.isSpace ' ' (value.toList.flatMap P.casefold)) := by
  rw [Platform.normalize, strip_eq_trim, squeezeSpaces_eq_collapse]

theorem normalize_infix (hspace : P.isSpace ' ' = true) {fragment value : String}
    (h : fragment.toList <:+: value.toList) : P.normalize fragment <:+: P.normalize value := by
  have hfolded : fragment.toList.flatMap P.casefold <:+: value.toList.flatMap P.casefold := by
    obtain ⟨front, back, hvalue⟩ := h
    refine ⟨front.flatMap P.casefold, back.flatMap P.casefold, ?_⟩
    rw [← hvalue, List.flatMap_append, List.flatMap_append]
  rw [normalize_eq, normalize_eq]
  exact Words.infix_normal hspace hfolded

theorem normalize_eq_nil_iff (hP : P.Folds) (value : String) :
    P.normalize value = [] ↔ ∀ c ∈ value.toList, P.isSpace c = true := by
  rw [normalize_eq, Words.trim_collapse hP.space, Words.collapse_eq_nil_iff,
    Words.trim_eq_nil_iff, List.forall_mem_flatMap]
  apply forall₂_congr
  intro c _
  constructor
  · intro hfolded
    by_contra hc
    obtain ⟨hne, hvisible⟩ := hP.visible c (Bool.eq_false_iff.mpr hc)
    obtain ⟨d, hd⟩ := List.exists_mem_of_ne_nil _ hne
    have hspace := hfolded d hd
    rw [hvisible d hd] at hspace
    cases hspace
  · exact hP.whitespace c

/-! ## The score -/

theorem quality_le_one (case : EvaluationCase) (response : GatewayResponse) :
    P.quality case response ≤ 1 := by
  have hshare : ∀ xs : List Bool, (share id xs).getD 0 ≤ 1 := by
    intro xs
    unfold share
    split_ifs with hxs
    · exact zero_le_one
    · refine div_le_one_of_le₀ ?_ (Nat.cast_nonneg _)
      exact_mod_cast List.countP_le_length
  exact hshare _

theorem quality_eq_one_iff {case : EvaluationCase} {response : GatewayResponse} :
    P.quality case response = 1 ↔ P.Meets case response := by
  rw [← quality_full]
  exact ⟨fun h => h.ge, fun h => le_antisymm (quality_le_one case response) h⟩

end

/-- The answer is right to the letter, and can be seen if nothing is asked of it. -/
structure Literal (P : Platform) (case : EvaluationCase) (response : GatewayResponse) : Prop where
  text : ∀ text ∈ case.expectedText, response.text = text
  contains : ∀ fragment ∈ case.expectedContains, fragment.toList <:+: response.text.toList
  visible : case.expectedText = none → case.expectedContains = [] →
    ∃ c ∈ response.text.toList, P.isSpace c = false

/-- An answer that is right to the letter has the full score. The full score says that the answer
is right in its normal form. -/
theorem literal_answer_full {P : Platform} (hP : P.Folds) (case : EvaluationCase)
    (response : GatewayResponse) :
    (Literal P case response → P.quality case response = 1) ∧
    (P.quality case response = 1 →
      (∀ text ∈ case.expectedText, P.normalize response.text = P.normalize text) ∧
      (∀ fragment ∈ case.expectedContains, P.normalize fragment <:+: P.normalize response.text) ∧
      (case.expectedText = none → case.expectedContains = [] →
        ∃ c ∈ response.text.toList, P.isSpace c = false)) := by
  have hseen : P.normalize response.text ≠ [] ↔ ∃ c ∈ response.text.toList, P.isSpace c = false := by
    rw [ne_eq, normalize_eq_nil_iff hP]
    push Not
    simp only [ne_eq, Bool.not_eq_true]
  rw [quality_eq_one_iff, Platform.Meets, hseen]
  refine ⟨fun h => ⟨?_, ?_, h.visible⟩, id⟩
  · intro text htext
    rw [h.text text htext]
  · intro fragment hfragment
    exact normalize_infix hP.space (h.contains fragment hfragment)

theorem not_whitespace_of_letter {c : Char} (hc : 65 ≤ c.toNat) : c.isWhitespace = false := by
  rw [Bool.eq_false_iff]
  intro hspace
  simp only [Char.isWhitespace, Bool.or_eq_true, decide_eq_true_eq] at hspace
  rcases hspace with ((rfl | rfl) | rfl) | rfl <;> revert hc <;> decide

theorem folds_sample : Sample.platform.Folds := by
  have hlower : ∀ c : Char, c.toLower.isWhitespace = c.isWhitespace := by
    intro c
    by_cases hupper : c.val ≥ 'A'.val ∧ c.val ≤ 'Z'.val
    · have hlow : 65 ≤ c.toNat := hupper.1
      have hhigh : c.toNat ≤ 90 := hupper.2
      have hnat : c.toLower.toNat = c.toNat + 32 := by
        unfold Char.toLower
        rw [dif_pos hupper]
        change (c.val + 32).toNat = c.val.toNat + 32
        rw [UInt32.toNat_add]
        change (c.toNat + 32) % 2 ^ 32 = c.toNat + 32
        omega
      rw [not_whitespace_of_letter hlow, not_whitespace_of_letter (hnat ▸ by omega)]
    · unfold Char.toLower
      rw [dif_neg hupper]
  refine ⟨rfl, fun c hc => ?_, fun c hc => ⟨List.cons_ne_nil _ _, ?_⟩⟩
  · exact List.forall_mem_singleton.mpr ((hlower c).trans hc)
  · exact List.forall_mem_singleton.mpr ((hlower c).trans hc)

def greeting : EvaluationCase :=
  { id := "case-1", messages := [⟨.user, "hello", none⟩], expectedContains := [" World "] }

def greeted : GatewayResponse where
  requestId := "request-0001"
  routeId := "primary"
  provider := "openai"
  model := "model-a"
  text := "Hello  World  !"
  usage := { inputTokens := 1, outputTokens := 3, costUsd := 0 }
  ttftMs := 1
  latencyMs := 1
  createdAt := 0

theorem literal_answer_full_greeting : Literal Sample.platform greeting greeted ∧
    Sample.platform.quality greeting greeted = 1 := by
  have hliteral : Literal Sample.platform greeting greeted :=
    ⟨by simp [greeting], by decide +kernel, by simp [greeting]⟩
  exact ⟨hliteral, (literal_answer_full folds_sample greeting greeted).1 hliteral⟩

/-! ## The percentile -/

theorem le_percentileIndex_iff {q : ℚ} {n m : Nat} (hm : 0 < m) :
    q * n ≤ m ↔ percentileIndex q n < m := by
  have hceil : (q * n).ceil ≤ (m : Int) ↔ q * n ≤ m := by
    rw [Rat.ceil_le_iff, Int.cast_natCast]
  rw [← hceil]
  unfold percentileIndex
  omega

/-- Both percentiles are the nearest-rank one. -/
theorem percentile_nearest_rank {samples : List ℚ} (hne : samples ≠ []) {q : ℚ} (hle : q ≤ 1) :
    percentileIndex q samples.length < samples.length ∧
    ∃ v, percentile (samples.insertionSort (· ≤ ·)) q = some v ∧
      evaluationPercentile samples q = some v ∧
      IsLeast {u | u ∈ samples ∧ q * samples.length ≤ samples.countP fun x => decide (x ≤ u)} v ∧
      (q = 99 / 100 → ∀ limit, limit < v ↔
        samples.length / 100 < samples.countP fun x => decide (limit < x)) := by
  have hpos : 0 < samples.length := List.length_pos_iff.mpr hne
  have hlength : (samples.insertionSort (· ≤ ·)).length = samples.length :=
    (List.perm_insertionSort _ _).length_eq
  have hindex : percentileIndex q samples.length < samples.length := by
    rw [← le_percentileIndex_iff hpos]
    exact mul_le_of_le_one_left (Nat.cast_nonneg _) hle
  obtain ⟨v, hv, hleast⟩ := Ranks.isLeast_sorted samples hindex
  refine ⟨hindex, v, ?_, hv, ?_, ?_⟩
  · rw [percentile, hlength]
    exact hv
  · -- Some sample counts at least itself, so the product is compared with a positive number.
    have hset : {u | u ∈ samples ∧ q * samples.length ≤ samples.countP fun x => decide (x ≤ u)} =
        {u | u ∈ samples ∧ percentileIndex q samples.length <
          samples.countP fun x => decide (x ≤ u)} := by
      ext u
      refine and_congr_right fun hu => le_percentileIndex_iff ?_
      exact List.countP_pos_iff.mpr ⟨u, hu, decide_eq_true le_rfl⟩
    rw [hset]
    exact hleast
  · rintro rfl limit
    have hlt := Ranks.lt_sorted_iff samples hindex limit
    rw [hv, (percentileIndex_eq hpos).2] at hlt
    simpa [Nat.succ_le_iff] using hlt

theorem percentile_nearest_rank_ties :
    ∃ v, percentile (([3, 1, 3, 2] : List ℚ).insertionSort (· ≤ ·)) (99 / 100) = some v ∧
      evaluationPercentile [3, 1, 3, 2] (99 / 100) = some v ∧ 2 < v := by
  obtain ⟨-, v, hsorted, hunsorted, -, hlimit⟩ :=
    percentile_nearest_rank (show ([3, 1, 3, 2] : List ℚ) ≠ [] by decide)
      (show (99 / 100 : ℚ) ≤ 1 by norm_num)
  exact ⟨v, hsorted, hunsorted, (hlimit rfl 2).mpr (by decide +kernel)⟩

end AegisGateway
