import Mathlib.Algebra.GroupWithZero.Nat
import Mathlib.Data.Finset.Card
import Mathlib.Data.Finset.Lattice.Fold
import Mathlib.Data.List.Pairwise
import Mathlib.Data.List.Sublists
import Mathlib.Data.Set.Finite.Basic
import Mathlib.Data.Set.Pairwise.Basic
import Mathlib.Order.Bounds.Basic

/-!
# Packings of finite sets

A packing is a group of sets no two of which meet. The largest one is found by
trying the sizes 1, 2, … until one has no packing, over a list of sets without
repetitions.

* `sum_card_eq_iff`: a list of sets is a packing exactly when their sizes add up
  to the size of their union.
* `HasPacking.mono`: a part of a packing is one, so that the search may stop at
  the first size without a packing.
* `hasPacking_iff`: nonempty sets with indices have a packing of a size exactly
  when the list of the different ones has. Indices with the same set exclude each
  other, so it does not matter which of them stands for the set.
-/

namespace Packing

variable {ι α : Type*} [DecidableEq α]

/-! ## Sizes -/

theorem card_foldr_union_le (l : List (Finset α)) :
    (l.foldr (· ∪ ·) ∅).card ≤ (l.map Finset.card).sum := by
  induction l with
  | nil => rfl
  | cons s l ih =>
    rw [List.foldr_cons, List.map_cons, List.sum_cons]
    exact (Finset.card_union_le s _).trans (Nat.add_le_add_left ih _)

theorem disjoint_foldr_union {s : Finset α} {l : List (Finset α)} :
    Disjoint s (l.foldr (· ∪ ·) ∅) ↔ ∀ t ∈ l, Disjoint s t := by
  induction l with
  | nil => simp
  | cons t l ih => rw [List.foldr_cons, Finset.disjoint_union_right, ih, List.forall_mem_cons]

/-- No two of the sets meet exactly when their sizes add up to the size of their
    union. -/
theorem sum_card_eq_iff (l : List (Finset α)) :
    (l.map Finset.card).sum = (l.foldr (· ∪ ·) ∅).card ↔ l.Pairwise Disjoint := by
  induction l with
  | nil => simp
  | cons s l ih =>
    rw [List.pairwise_cons, ← disjoint_foldr_union, ← ih, ← Finset.card_union_eq_card_add_card,
      List.map_cons, List.sum_cons, List.foldr_cons]
    -- neither the union of the others nor that with `s` is larger than the sum
    have hrest := card_foldr_union_le l
    have hunion := Finset.card_union_le s (l.foldr (· ∪ ·) ∅)
    omega

/-! ## Groups of a size -/

/-- Some of the sets, as many as said, are a packing. -/
def HasPacking (sets : List (Finset α)) (size : ℕ) : Prop :=
  ∃ group : List (Finset α), group.Sublist sets ∧ group.length = size ∧ group.Pairwise Disjoint

omit [DecidableEq α] in
theorem hasPacking_zero (sets : List (Finset α)) : HasPacking sets 0 :=
  ⟨[], List.nil_sublist sets, rfl, .nil⟩

omit [DecidableEq α] in
theorem HasPacking.le_length {sets : List (Finset α)} {size : ℕ} (h : HasPacking sets size) :
    size ≤ sets.length := by
  obtain ⟨group, hsub, rfl, -⟩ := h
  exact hsub.length_le

omit [DecidableEq α] in
/-- A part of a packing is a packing. -/
theorem HasPacking.mono {sets : List (Finset α)} {size smaller : ℕ} (h : HasPacking sets size)
    (hle : smaller ≤ size) : HasPacking sets smaller := by
  obtain ⟨group, hsub, rfl, hdisjoint⟩ := h
  have htake : (group.take smaller).Sublist group := List.take_sublist smaller group
  exact ⟨group.take smaller, htake.trans hsub, List.length_take_of_le hle, hdisjoint.sublist htake⟩

/-- Different sets of a list, no two of which meet, are a packing. -/
theorem hasPacking_of_subset {chosen : Finset (Finset α)} {sets : List (Finset α)}
    (hnodup : sets.Nodup) (hsub : ∀ s ∈ chosen, s ∈ sets)
    (hdisjoint : (chosen : Set (Finset α)).PairwiseDisjoint id) : HasPacking sets chosen.card := by
  have hmem : ∀ s, s ∈ sets.filter (· ∈ chosen) ↔ s ∈ chosen := by
    intro s
    rw [List.mem_filter, decide_eq_true_eq, and_iff_right_iff_imp]
    exact hsub s
  have hnodup' : (sets.filter (· ∈ chosen)).Nodup := hnodup.filter _
  refine ⟨sets.filter (· ∈ chosen), List.filter_sublist, ?_, ?_⟩
  · rw [← List.toFinset_card_of_nodup hnodup']
    congr 1
    ext s
    rw [List.mem_toFinset, hmem]
  · refine hnodup'.imp_of_mem ?_
    intro s t hs ht hst
    exact hdisjoint ((hmem s).1 hs) ((hmem t).1 ht) hst

/-- There is a packing of two exactly if two different sets do not meet. -/
theorem hasPacking_two_iff {sets : List (Finset α)} (hnodup : sets.Nodup) :
    HasPacking sets 2 ↔ ∃ s ∈ sets, ∃ t ∈ sets, s ≠ t ∧ Disjoint s t := by
  constructor
  · rintro ⟨group, hsub, hlength, hdisjoint⟩
    obtain ⟨s, t, rfl⟩ := List.length_eq_two.1 hlength
    have hne : s ≠ t := by simpa using hnodup.sublist hsub
    have hmeet : Disjoint s t := by simpa using hdisjoint
    exact ⟨s, hsub.subset (by simp), t, hsub.subset (by simp), hne, hmeet⟩
  · rintro ⟨s, hs, t, ht, hne, hmeet⟩
    rw [← Finset.card_pair hne]
    refine hasPacking_of_subset hnodup (by simp [hs, ht]) ?_
    rw [Finset.coe_pair]
    exact Set.pairwise_pair_of_symm.2 fun _ => hmeet

/-! ## Sets with indices -/

variable {f : ι → Finset α}

omit [DecidableEq α] in
/-- Different indices of a packing of nonempty sets have different sets. -/
theorem injOn_of_pairwiseDisjoint {group : Finset ι}
    (hdisjoint : (group : Set ι).PairwiseDisjoint f) (hne : ∀ i ∈ group, (f i).Nonempty) :
    Set.InjOn f group := by
  intro i hi j hj heq
  by_contra hij
  have hmeet : Disjoint (f i) (f j) := hdisjoint hi hj hij
  rw [← heq, disjoint_self] at hmeet
  exact (hne i hi).ne_empty hmeet

/-- A packing of nonempty sets with indices, as a part of the list of the
    different sets. -/
theorem hasPacking_of_group {group : Finset ι} {sets : List (Finset α)} (hnodup : sets.Nodup)
    (hsets : ∀ i ∈ group, f i ∈ sets) (hdisjoint : (group : Set ι).PairwiseDisjoint f)
    (hne : ∀ i ∈ group, (f i).Nonempty) : HasPacking sets group.card := by
  rw [← Finset.card_image_of_injOn (injOn_of_pairwiseDisjoint hdisjoint hne)]
  refine hasPacking_of_subset hnodup ?_ ?_
  · intro s hs
    obtain ⟨i, hi, rfl⟩ := Finset.mem_image.1 hs
    exact hsets i hi
  · intro s hs t ht hst
    obtain ⟨i, hi, rfl⟩ := Finset.mem_image.1 hs
    obtain ⟨j, hj, rfl⟩ := Finset.mem_image.1 ht
    exact hdisjoint hi hj fun hij => hst (congrArg f hij)

/-- A packing of some of the sets, as a group of indices. -/
theorem exists_group {ids : Finset ι} {sets : List (Finset α)} (hnodup : sets.Nodup)
    (hsets : ∀ s ∈ sets, ∃ i ∈ ids, f i = s) {size : ℕ} (h : HasPacking sets size) :
    ∃ group ⊆ ids, (group : Set ι).PairwiseDisjoint f ∧ group.card = size := by
  obtain ⟨chosen, hsub, rfl, hdisjoint⟩ := h
  have honto : (ids : Set ι).SurjOn f (chosen.toFinset : Finset (Finset α)) := by
    intro s hs
    exact hsets s (hsub.subset (List.mem_toFinset.1 hs))
  -- one index for each set of the packing
  obtain ⟨group, hids, hinj, himage⟩ := Finset.exists_subset_injOn_image_eq_of_surjOn _ _ honto
  have hchosen : ∀ i ∈ group, f i ∈ chosen := by
    intro i hi
    rw [← List.mem_toFinset, ← himage]
    exact Finset.mem_image_of_mem f hi
  refine ⟨group, Finset.coe_subset.1 hids, ?_, ?_⟩
  · intro i hi j hj hij
    have hne : f i ≠ f j := fun heq => hij (hinj hi hj heq)
    exact hdisjoint.forall (hchosen i hi) (hchosen j hj) hne
  · rw [← Finset.card_image_of_injOn hinj, himage,
      List.toFinset_card_of_nodup (hnodup.sublist hsub)]

/-- Nonempty sets with indices have a packing of a size exactly when the list of
    the different ones has. -/
theorem hasPacking_iff {ids : Finset ι} {sets : List (Finset α)} (hnodup : sets.Nodup)
    (hsets : ∀ s, s ∈ sets ↔ ∃ i ∈ ids, f i = s) (hne : ∀ i ∈ ids, (f i).Nonempty) (size : ℕ) :
    HasPacking sets size ↔
      ∃ group ⊆ ids, (group : Set ι).PairwiseDisjoint f ∧ group.card = size := by
  constructor
  · intro h
    exact exists_group hnodup (fun s hs => (hsets s).1 hs) h
  · rintro ⟨group, hsub, hdisjoint, rfl⟩
    exact hasPacking_of_group hnodup (fun i hi => (hsets _).2 ⟨i, hsub hi, rfl⟩) hdisjoint
      fun i hi => hne i (hsub hi)

end Packing
