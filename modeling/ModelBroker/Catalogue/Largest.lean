import ModelBroker.Catalogue.Llama
import ModelBroker.Lib.Packing

/-!
# The most models that can be loaded together

`max_loaded_models` (`catalogue.py`, lines 337–356) tries the sizes 1, 2, … of
groups of different resource sets. Where every variant holds a resource, this is
the size of the largest group of variants without a conflict.

* `maxLoadedModels_isGreatest`: it is the largest size of a packing of the
  resource sets, for any catalogue.
* `max_loaded_models_exact`: it is the size of the largest group of variants no
  two of which conflict, if each holds a resource; those of an accepted preset
  do.
-/

namespace ModelBroker

open Packing

/-! ## The search -/

theorem disjointGroup_iff {resourceSets : List (Finset String)} {size : ℕ} :
    disjointGroup resourceSets size = true ↔ HasPacking resourceSets size := by
  simp only [disjointGroup, List.any_eq_true, decide_eq_true_eq, sum_card_eq_iff,
    List.mem_sublistsLen, HasPacking, and_assoc]

/-- The loop over the sizes from one on that is known to have a packing ends at the
    largest that has one. -/
theorem largestGroup_isGreatest {resourceSets : List (Finset String)} (count : ℕ) {largest : ℕ}
    (h : HasPacking resourceSets largest) :
    IsGreatest {size | size ≤ largest + count ∧ HasPacking resourceSets size}
      (largestGroup resourceSets (List.range' (largest + 1) count) largest) := by
  induction count generalizing largest with
  | zero => exact ⟨⟨le_rfl, h⟩, fun size hsize => hsize.1⟩
  | succ count ih =>
    rw [List.range'_succ, largestGroup]
    split_ifs with hnext
    · have hrest := ih (disjointGroup_iff.1 hnext)
      rwa [Nat.add_right_comm, Nat.add_assoc] at hrest
    · -- no larger group, since it would have one of the next size in it
      refine ⟨⟨Nat.le_add_right _ _, h⟩, fun size hsize => ?_⟩
      by_contra hlarger
      exact hnext (disjointGroup_iff.2 (hsize.2.mono (by omega)))

/-- The resource sets that the combinations are taken from (lines 346–348). -/
def resourceSets (variants : Dict String Variant) : List (Finset String) :=
  (variants.values.map Variant.exclusive).dedup

theorem maxLoadedModels_isGreatest (variants : Dict String Variant) :
    IsGreatest {size | HasPacking (resourceSets variants) size} (maxLoadedModels variants) := by
  have hsearch := largestGroup_isGreatest (resourceSets variants).length
    (hasPacking_zero (resourceSets variants))
  rw [Nat.zero_add] at hsearch
  exact ⟨hsearch.1.2, fun size hsize => hsearch.2 ⟨hsize.le_length, hsize⟩⟩

/-! ## Groups of variants -/

/-- Variants of a catalogue, named by their IDs, no two of which conflict. -/
def Compatible (variants : Dict String Variant) (group : Finset String) : Prop :=
  (∀ id ∈ group, variants.contains id = true) ∧
    ∀ id ∈ group, ∀ id' ∈ group, id ≠ id' → ∀ v v', variants.get id = some v →
      variants.get id' = some v' → claimsConflict v v' = false

/-- The resources that a model holds. -/
def exclusiveOf (variants : Dict String Variant) (id : String) : Finset String :=
  ((variants.get id).map Variant.exclusive).getD ∅

theorem exclusiveOf_eq {variants : Dict String Variant} {id : String} {v : Variant}
    (h : variants.get id = some v) : exclusiveOf variants id = v.exclusive := by
  rw [exclusiveOf, h]
  rfl

theorem claimsConflict_eq_false_iff {v v' : Variant} :
    claimsConflict v v' = false ↔ Disjoint v.exclusive v'.exclusive := by
  rw [← Bool.not_eq_true, claimsConflict_iff, not_exists, Finset.disjoint_left]
  exact forall_congr' fun _ => not_and

theorem mem_resourceSets {variants : Dict String Variant} {s : Finset String} :
    s ∈ resourceSets variants ↔ ∃ id ∈ variants.keys.toFinset, exclusiveOf variants id = s := by
  simp only [resourceSets, List.mem_dedup, List.mem_map, Dict.mem_values, List.mem_toFinset,
    Dict.mem_keys]
  constructor
  · rintro ⟨v, ⟨id, hv⟩, rfl⟩
    exact ⟨id, ⟨v, hv⟩, exclusiveOf_eq hv⟩
  · rintro ⟨id, ⟨v, hv⟩, rfl⟩
    exact ⟨v, ⟨id, hv⟩, (exclusiveOf_eq hv).symm⟩

/-- Without a conflict, the variants hold different resources. -/
theorem compatible_iff {variants : Dict String Variant} {group : Finset String} :
    Compatible variants group ↔
      group ⊆ variants.keys.toFinset ∧ (group : Set String).PairwiseDisjoint (exclusiveOf variants) := by
  have hknown : (∀ id ∈ group, variants.contains id = true) ↔ group ⊆ variants.keys.toFinset := by
    simp only [Finset.subset_iff, List.mem_toFinset, Dict.mem_keys, Dict.contains_iff]
  rw [Compatible, hknown]
  refine and_congr_right fun hsub => ?_
  constructor
  · intro h id hid id' hid' hne
    obtain ⟨v, hv⟩ := Dict.mem_keys.1 (List.mem_toFinset.1 (hsub hid))
    obtain ⟨v', hv'⟩ := Dict.mem_keys.1 (List.mem_toFinset.1 (hsub hid'))
    show Disjoint (exclusiveOf variants id) (exclusiveOf variants id')
    rw [exclusiveOf_eq hv, exclusiveOf_eq hv', ← claimsConflict_eq_false_iff]
    exact h id hid id' hid' hne v v' hv hv'
  · intro h id hid id' hid' hne v v' hv hv'
    rw [claimsConflict_eq_false_iff, ← exclusiveOf_eq hv, ← exclusiveOf_eq hv']
    exact h hid hid' hne

/-- A variant has an exclusive claim. -/
def HoldsResource (v : Variant) : Prop := ∃ claim ∈ v.claims, claim.exclusive = true

theorem holdsResource_iff {v : Variant} : HoldsResource v ↔ v.exclusive.Nonempty := by
  simp only [HoldsResource, Finset.Nonempty, Variant.mem_exclusive]
  exact ⟨fun ⟨claim, hmem, hex⟩ => ⟨_, claim, hmem, hex, rfl⟩,
    fun ⟨_, claim, hmem, hex, _⟩ => ⟨claim, hmem, hex⟩⟩

/-- Groups of variants that hold resources, by the sizes of packings. -/
theorem exists_compatible_iff {variants : Dict String Variant}
    (h : ∀ id v, variants.get id = some v → HoldsResource v) (size : ℕ) :
    (∃ group, Compatible variants group ∧ group.card = size) ↔
      HasPacking (resourceSets variants) size := by
  have hheld : ∀ id ∈ variants.keys.toFinset, (exclusiveOf variants id).Nonempty := by
    intro id hid
    obtain ⟨v, hv⟩ := Dict.mem_keys.1 (List.mem_toFinset.1 hid)
    rw [exclusiveOf_eq hv]
    exact holdsResource_iff.1 (h id v hv)
  have hnodup : (resourceSets variants).Nodup := List.nodup_dedup _
  rw [hasPacking_iff hnodup (fun s => mem_resourceSets) hheld]
  simp only [compatible_iff, and_assoc]

/-- For every catalogue in which each variant has an exclusive claim,
    `max_loaded_models` is the size of the largest group of variants no two of which
    conflict; and every variant of an accepted preset has an exclusive claim. -/
theorem max_loaded_models_exact (variants : Dict String Variant)
    (h : ∀ id v, variants.get id = some v → HoldsResource v) :
    IsGreatest {size | ∃ group, Compatible variants group ∧ group.card = size}
        (maxLoadedModels variants) ∧
      ∀ sections catalogue, Preset.parseCatalogue sections = .ok catalogue →
        ∀ id v, catalogue.get id = some v → HoldsResource v := by
  have hgreatest := maxLoadedModels_isGreatest variants
  refine ⟨⟨(exists_compatible_iff h _).2 hgreatest.1, fun size hsize => ?_⟩, ?_⟩
  · exact hgreatest.2 ((exists_compatible_iff h size).1 hsize)
  · intro sections catalogue hparsed id v hv
    obtain ⟨devices, hsection⟩ := Preset.fromSection_of_parseCatalogue hparsed hv
    exact holdsResource_iff.2 hsection.nonempty

/-- A model on each of two GPUs, and one on both. -/
def threeModels : Dict String Variant :=
  .ofList (["a", "b", "both"].zip [.claiming "llama" "a" ["GPU0"], .claiming "llama" "b" ["GPU1"],
    .claiming "llama" "both" ["GPU0", "GPU1"]])

theorem max_loaded_models_exact_threeModels :
    maxLoadedModels threeModels = 2 ∧
      IsGreatest {size | ∃ group, Compatible threeModels group ∧ group.card = size}
        (maxLoadedModels threeModels) := by
  refine ⟨by decide +kernel, (max_loaded_models_exact threeModels ?_).1⟩
  intro id v hv
  have hall : ∀ w ∈ threeModels.values, w.claims.any (·.exclusive) = true := by decide +kernel
  exact List.any_eq_true.1 (hall v (Dict.mem_values.2 ⟨id, hv⟩))

end ModelBroker
