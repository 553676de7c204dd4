import Mathlib.Algebra.GroupWithZero.Nat
import Mathlib.Data.Finset.Lattice.Fold
import Mathlib.Data.List.Sublists
import ModelBroker.Lib.Dict

/-!
# Variants and the resources they claim

The records of `catalogue.py` (lines 32–57) and the two functions the scheduler
takes its decisions with: `claims_conflict` (lines 359–362) and
`max_loaded_models` (lines 337–356).

* `claimsConflict_iff`, `claimsConflict_comm`: two variants conflict when some
  resource is claimed exclusively by both, whichever is asked first.
* `Catalogue`: a catalogue whose keys are the IDs of its variants, which is
  what the parsers build (`section: variant(section, …)`).
-/

namespace ModelBroker

/-- `ResourceClaim` (lines 32–41). -/
structure ResourceClaim where
  resource : String
  exclusive : Bool
  deriving DecidableEq

/-- `Variant` (lines 44–57). -/
structure Variant where
  id : String
  modelPath : String := ""
  settings : Dict String String := ∅
  claims : List ResourceClaim
  resourceClass : String := ""
  backend : String := "llama"
  env : Dict String String := ∅
  deriving DecidableEq, Inhabited

namespace Variant

/-- The set comprehension `{claim.resource for claim in claims if claim.exclusive}`. -/
def exclusive (variant : Variant) : Finset String :=
  ((variant.claims.filter (·.exclusive)).map (·.resource)).toFinset

theorem mem_exclusive {variant : Variant} {resource : String} :
    resource ∈ variant.exclusive ↔
      ∃ claim ∈ variant.claims, claim.exclusive = true ∧ claim.resource = resource := by
  simp [exclusive, and_assoc]

/-- A variant of a server that claims these resources, all exclusively. -/
def claiming (backend id : String) (resources : List String) : Variant where
  id := id
  claims := resources.map fun resource => ⟨resource, true⟩
  backend := backend

end Variant

/-- `claims_conflict` (lines 359–362). -/
def claimsConflict (first second : Variant) : Bool :=
  second.claims.any fun claim => claim.exclusive && decide (claim.resource ∈ first.exclusive)

theorem claimsConflict_iff {first second : Variant} :
    claimsConflict first second = true ↔
      ∃ resource, resource ∈ first.exclusive ∧ resource ∈ second.exclusive := by
  simp only [claimsConflict, List.any_eq_true, Bool.and_eq_true, decide_eq_true_eq]
  constructor
  · rintro ⟨claim, hmem, hex, hin⟩
    exact ⟨claim.resource, hin, Variant.mem_exclusive.2 ⟨claim, hmem, hex, rfl⟩⟩
  · rintro ⟨resource, hin, hsecond⟩
    obtain ⟨claim, hmem, hex, rfl⟩ := Variant.mem_exclusive.1 hsecond
    exact ⟨claim, hmem, hex, hin⟩

theorem claimsConflict_comm (first second : Variant) :
    claimsConflict first second = claimsConflict second first := by
  rw [Bool.eq_iff_iff, claimsConflict_iff, claimsConflict_iff]
  exact exists_congr fun _ => and_comm

/-! ## `max_loaded_models` -/

/-- Whether some group of `size` resource sets has no overlap: the sum of the
    sizes is the size of the union (lines 350–353). -/
def disjointGroup (resourceSets : List (Finset String)) (size : ℕ) : Bool :=
  (resourceSets.sublistsLen size).any fun combination =>
    decide ((combination.map Finset.card).sum = (combination.foldr (· ∪ ·) ∅).card)

/-- The loop of lines 349–355: `for size in range(…)` with its `break`. -/
def largestGroup (resourceSets : List (Finset String)) : List ℕ → ℕ → ℕ
  | [], largest => largest
  | size :: sizes, largest =>
    if disjointGroup resourceSets size then largestGroup resourceSets sizes size else largest

/-- `max_loaded_models` (lines 337–356). -/
def maxLoadedModels (variants : Dict String Variant) : ℕ :=
  let resourceSets := (variants.values.map Variant.exclusive).dedup
  largestGroup resourceSets (List.range' 1 resourceSets.length) 0

/-! ## Catalogues -/

/-- A catalogue: a mapping from IDs to variants whose keys are the variants'
    own IDs. `parse_catalogue`, `parse_service_catalogue` and
    `merge_catalogues` build no other. -/
structure Catalogue where
  variants : Dict String Variant
  keyed : ∀ id variant, variants.get id = some variant → variant.id = id

namespace Catalogue

/-- `catalogue.get(model_id)`. -/
def get (catalogue : Catalogue) (id : String) : Option Variant := catalogue.variants.get id

theorem get_id {catalogue : Catalogue} {id : String} {variant : Variant}
    (h : catalogue.get id = some variant) : variant.id = id :=
  catalogue.keyed id variant h

/-- The catalogue of these variants, in order. -/
def ofVariants (variants : List Variant) (h : (variants.map Variant.id).Nodup) : Catalogue where
  variants := ⟨variants.map fun variant => (variant.id, variant), by simpa [Function.comp_def] using h⟩
  keyed := by
    intro id variant hget
    obtain ⟨variant', -, heq⟩ := List.mem_map.1 (Dict.get_eq_some.1 hget)
    obtain ⟨rfl, rfl⟩ := Prod.mk.inj heq
    rfl

/-- What holds of every variant listed holds of every variant found. -/
theorem of_get_ofVariants (P : Variant → Prop) {variants : List Variant}
    {h : (variants.map Variant.id).Nodup} (hall : ∀ variant ∈ variants, P variant) {id : String}
    {variant : Variant} (hget : (ofVariants variants h).get id = some variant) : P variant := by
  obtain ⟨variant', hmem, heq⟩ := List.mem_map.1 (Dict.get_eq_some.1 hget)
  obtain ⟨-, rfl⟩ := Prod.mk.inj heq
  exact hall _ hmem

/-- The comprehension of `survey` (line 235): the models of one server. -/
def own (catalogue : Catalogue) (backend : String) : Dict String Variant :=
  catalogue.variants.filter fun _ variant => variant.backend = backend

theorem get_own {catalogue : Catalogue} {backend id : String} {variant : Variant} :
    (catalogue.own backend).get id = some variant ↔
      catalogue.get id = some variant ∧ variant.backend = backend := by
  rw [own, Dict.get_filter, Option.filter_eq_some_iff]
  simp [get]

end Catalogue

end ModelBroker
