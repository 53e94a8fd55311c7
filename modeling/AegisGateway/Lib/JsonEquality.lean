import AegisGateway.Lib.JsonDecoding

/-!
# Equal values

Two values are equal if they differ at most in the order in which their dictionaries hold
their keys. They are equal exactly if `json.dumps` writes them alike.
-/

namespace JsonText

mutual

/-- The `==` of Python, except that numbers and truth values of different types differ, and so do
the two zeros. -/
def same : Json → Json → Bool
  | .null, .null => true
  | .bool a, .bool b => a = b
  | .int m, .int n => m = n
  | .float x, .float y => x = y
  | .str s, .str t => s = t
  | .arr items, .arr items' => sameItems items items'
  | .obj fields, .obj fields' => fields.length = fields'.length && sameFields fields fields'
  | _, _ => false

def sameItems : List Json → List Json → Bool
  | [], [] => true
  | j :: items, j' :: items' => same j j' && sameItems items items'
  | _, _ => false

def sameFields : Object → Object → Bool
  | [], _ => true
  | (k, j) :: fields, fields' =>
    (match fields'.lookup k with
      | some j' => same j j'
      | none => false) && sameFields fields fields'

end

instance : Std.Total keyLe := ⟨fun a b => String.le_total a.1 b.1⟩

instance : IsTrans (String × Json) keyLe := ⟨fun _ _ _ h h' => String.le_trans h h'⟩

theorem sameItems_iff {items items' : List Json} :
    sameItems items items' = true ↔ List.Forall₂ (fun j j' => same j j' = true) items items' := by
  induction items generalizing items' with
  | nil => cases items' <;> simp [sameItems]
  | cons j items ih => cases items' <;> simp [sameItems, ih]

theorem sameFields_iff {fields fields' : Object} :
    sameFields fields fields' = true ↔
      ∀ f ∈ fields, ∃ j, fields'.lookup f.1 = some j ∧ same f.2 j = true := by
  induction fields with
  | nil => simp [sameFields]
  | cons f fields ih =>
    obtain ⟨k, j⟩ := f
    rw [sameFields, Bool.and_eq_true, ih, List.forall_mem_cons]
    cases fields'.lookup k <;> simp

theorem sortKeysItems_eq (items : List Json) : sortKeysItems items = items.map sortKeys := by
  induction items with
  | nil => rfl
  | cons j items ih => simp [sortKeysItems, ih]

theorem insertionSort_inj {fields fields' : Object} (hkeys : (fields.map (·.1)).Nodup)
    (hperm : fields.Perm fields') : fields.insertionSort keyLe = fields'.insertionSort keyLe := by
  have hsorted : (fields.insertionSort keyLe).Perm (fields'.insertionSort keyLe) :=
    (List.perm_insertionSort _ _).trans (hperm.trans (List.perm_insertionSort _ _).symm)
  refine List.Perm.eq_of_pairwise (fun f f' hf hf' hle hle' => ?_)
    (List.pairwise_insertionSort keyLe _) (List.pairwise_insertionSort keyLe _) hsorted
  have hmem := (List.mem_insertionSort _).mp hf
  have hmem' := hperm.mem_iff.mpr ((List.mem_insertionSort _).mp hf')
  exact List.inj_on_of_nodup_map hkeys hmem hmem' (String.le_antisymm hle hle')

theorem lookup_of_mem {fields : Object} (hkeys : (fields.map (·.1)).Nodup) {k : String} {j : Json}
    (h : (k, j) ∈ fields) : fields.lookup k = some j := by
  induction fields with
  | nil => cases h
  | cons f fields ih =>
    obtain ⟨hnew, hkeys⟩ := List.nodup_cons.mp hkeys
    rcases List.mem_cons.mp h with rfl | h
    · simp
    · have hne : (k == f.1) = false := by
        rw [beq_eq_false_iff_ne]
        rintro rfl
        exact hnew (List.mem_map_of_mem (f := (·.1)) h)
      rw [List.lookup_cons, hne]
      exact ih hkeys h

theorem mem_of_lookup {fields : Object} {k : String} {j : Json} (h : fields.lookup k = some j) :
    (k, j) ∈ fields := by
  obtain ⟨pre, post, rfl, -⟩ := List.lookup_eq_some_iff.mp h
  simp

theorem sortFields_keys (fields : Object) :
    (sortKeysFields fields).map (·.1) = fields.map (·.1) := by
  rw [sortKeysFields_eq, List.map_map]
  rfl

theorem sortFields_of_sameFields {fields fields' : Object} (hkeys : (fields.map (·.1)).Nodup)
    (hlen : fields.length = fields'.length)
    (h : ∀ f ∈ fields, ∃ j, (f.1, j) ∈ fields' ∧ sortKeys f.2 = sortKeys j) :
    (sortKeysFields fields).insertionSort keyLe = (sortKeysFields fields').insertionSort keyLe := by
  have hnodup : ((sortKeysFields fields).map (·.1)).Nodup := by rwa [sortFields_keys]
  apply insertionSort_inj hnodup
  have hsub : sortKeysFields fields ⊆ sortKeysFields fields' := by
    simp only [sortKeysFields_eq]
    intro f' hf'
    obtain ⟨f, hf, rfl⟩ := List.mem_map.mp hf'
    obtain ⟨j, hj, heq⟩ := h f hf
    rw [heq]
    exact List.mem_map_of_mem (f := fun f => (f.1, sortKeys f.2)) hj
  have hsubperm := (List.Nodup.of_map _ hnodup).subperm hsub
  apply hsubperm.perm_of_length_le
  simp [sortKeysFields_eq, hlen]

theorem forall₂_iff {α β : Type} {R S : α → β → Prop} {as : List α} {bs : List β}
    (h : ∀ a ∈ as, ∀ b ∈ bs, R a b ↔ S a b) : List.Forall₂ R as bs ↔ List.Forall₂ S as bs := by
  induction as generalizing bs with
  | nil => simp
  | cons a as ih =>
    cases bs with
    | nil => simp
    | cons b bs =>
      rw [List.forall₂_cons, List.forall₂_cons, h a List.mem_cons_self b List.mem_cons_self,
        ih fun a ha b hb => h a (List.mem_cons_of_mem _ ha) b (List.mem_cons_of_mem _ hb)]

/-- Equal values are those that sorting the keys makes one. -/
theorem same_iff_sortKeys {j j' : Json} (hj : Distinct j) (hj' : Distinct j') :
    same j j' = true ↔ sortKeys j = sortKeys j' := by
  induction hj generalizing j' with
  | @arr items _ ih =>
    cases hj' with
    | @arr items' h' =>
      have heq : List.Forall₂ (fun j j' => same j j' = true) items items' ↔
          items.map sortKeys = items'.map sortKeys := by
        rw [← List.forall₂_eq_eq_eq, List.forall₂_map_left_iff, List.forall₂_map_right_iff]
        exact forall₂_iff fun j hj j' hj' => ih j hj (h' j' hj')
      rw [same, sameItems_iff, heq, sortKeys, sortKeys, sortKeysItems_eq, sortKeysItems_eq,
        Json.arr.injEq]
    | _ => simp [same, sortKeys]
  | @obj fields hkeys hfields ih =>
    cases hj' with
    | @obj fields' hkeys' hfields' =>
      rw [same, Bool.and_eq_true, decide_eq_true_eq, sameFields_iff]
      constructor
      · rintro ⟨hlen, h⟩
        rw [sortKeys, sortKeys, sortFields_of_sameFields hkeys hlen]
        intro f hf
        obtain ⟨j, hj, hsame⟩ := h f hf
        have hmem := mem_of_lookup hj
        exact ⟨j, hmem, (ih f hf (hfields' _ hmem)).mp hsame⟩
      · intro h
        refine ⟨?_, fun f hf => ?_⟩
        · have hlen := congrArg List.length (Json.obj.inj h)
          simpa [sortKeysFields_eq] using hlen
        · obtain ⟨j, hmem, heq⟩ := field_of_sortKeys_eq h hf
          exact ⟨j, lookup_of_mem hkeys' hmem, (ih f hf (hfields' _ hmem)).mpr heq.symm⟩
    | _ => simp [same, sortKeys]
  | _ => cases j' <;> simp [same, sortKeys]

theorem Distinct.sortKeys {j : Json} (hj : Distinct j) : Distinct (sortKeys j) := by
  induction hj with
  | arr _ ih =>
    rw [JsonText.sortKeys, sortKeysItems_eq]
    exact .arr (List.forall_mem_map.mpr ih)
  | @obj fields hkeys _ ih =>
    have hperm := List.perm_insertionSort keyLe (sortKeysFields fields)
    refine .obj ?_ fun f hf => ?_
    · rw [(hperm.map _).nodup_iff, sortFields_keys]
      exact hkeys
    · rw [hperm.mem_iff, sortKeysFields_eq] at hf
      obtain ⟨f', hf', rfl⟩ := List.mem_map.mp hf
      exact ih f' hf'
  | null => exact .null
  | bool b => exact .bool b
  | int n => exact .int n
  | float x hx => exact .float x hx
  | str s => exact .str s

theorem sortKeys_sortKeys {j : Json} (hj : Distinct j) : sortKeys (sortKeys j) = sortKeys j := by
  induction hj with
  | arr _ ih =>
    simp only [sortKeys, sortKeysItems_eq, List.map_map, Json.arr.injEq]
    exact List.map_congr_left ih
  | @obj fields hkeys _ ih =>
    have hfields : sortKeysFields (sortKeysFields fields) = sortKeysFields fields := by
      simp only [sortKeysFields_eq, List.map_map]
      exact List.map_congr_left fun f hf => Prod.ext rfl (ih f hf)
    have hsort : sortKeysFields ((sortKeysFields fields).insertionSort keyLe) =
        (sortKeysFields fields).insertionSort keyLe := by
      conv_rhs => rw [← hfields]
      rw [sortKeysFields_eq, sortKeysFields_eq (sortKeysFields fields)]
      exact List.map_insertionSort _ _ _ _ fun _ _ _ _ => Iff.rfl
    rw [sortKeys, sortKeys, hsort,
      (List.pairwise_insertionSort keyLe _).insertionSort_eq]
  | _ => rfl

end JsonText
