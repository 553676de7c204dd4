import ModelBroker.Catalogue.Largest
import ModelBroker.Scheduler.Survey
import ModelBroker.Servers.Managed

/-!
# One model of a service at a time

A restart-managed service holds one container, which it tells the broker with
`max_instances=1` (`managed.py`, lines 78–81). Nothing in its preset makes its
models conflict: `router_problems` (`scheduler.py`, lines 134–151) compares that
number with `max_loaded_models`. This finds every two models that could be
loaded together, unless all the models of the service claim nothing
exclusively: their resource sets are one set, and it is empty.

* `exclusive_eq_empty_iff`: which sections claim nothing exclusively.
* `routerProblems_props`: the check finds two different resource sets that do not
  meet.
* `exclusive_eq_empty_of_no_problems`, `no_problems_of_empty`: what it misses are
  models that hold nothing.
* `models_conflict_iff`: when no reported problem means that any two models of
  the service conflict.
-/

namespace ModelBroker

open Packing Python

/-! ## Sections that claim nothing -/

namespace Preset

/-- A section names a device or another resource to hold. -/
def NamesResource (variantId : String) (settings : Options) : Prop :=
  endswith variantId "--cpu" = false ∨ extraResources settings ≠ []

/-- The resources of a section are its exclusive claims. -/
theorem exclusive_serviceClaims {v : Variant} {resources : List String}
    (h : v.claims = serviceClaims resources) : v.exclusive = resources.toFinset := by
  have hexclusive : (resources.map fun resource =>
      (⟨resource, true⟩ : ResourceClaim)).filter (·.exclusive) =
      resources.map fun resource => ⟨resource, true⟩ := by
    simp
  unfold Variant.exclusive
  rw [h, serviceClaims]
  split_ifs
  · rw [hexclusive, List.map_map, Function.comp_def, List.map_id']
  · rw [List.filter_cons_of_neg (by decide), hexclusive, List.map_map, Function.comp_def,
      List.map_id']

/-- An accepted section claims nothing exclusively if it names nothing. -/
theorem exclusive_eq_empty_iff {variantId : String} {settings : Options} {v : Variant}
    (h : serviceVariant variantId settings = .ok v) :
    v.exclusive = ∅ ↔ ¬ NamesResource variantId settings := by
  obtain ⟨-, -, -, names, hconfirmed, hclaims⟩ := serviceVariant_eq_ok h
  obtain ⟨devices, rfl, -, hsuffix, -⟩ := confirmedDevices_ok hconfirmed
  rw [exclusive_serviceClaims hclaims, List.toFinset_eq_empty_iff, NamesResource, not_or,
    Bool.not_eq_false, ← hsuffix.eq_nil_iff, not_not]
  have hlength : ∀ l : List String, l.dedup.insertionSort (· ≤ ·) = [] ↔ l = [] := by
    intro l
    rw [← List.length_eq_zero_iff, List.length_insertionSort, List.length_eq_zero_iff,
      List.dedup_eq_nil]
  rw [exclusiveResources, hlength, List.append_eq_nil_iff, List.map_eq_nil_iff, List.map_eq_nil_iff]

end Preset

/-! ## What the check finds -/

/-- `ManagedService.props` reports no problem exactly if any two different resource
    sets of the models meet. -/
theorem routerProblems_props {variants : Dict String Variant} {name : String} :
    routerProblems ManagedService.props variants name = [] ↔
      ∀ s ∈ resourceSets variants, ∀ t ∈ resourceSets variants, s ≠ t → ¬ Disjoint s t := by
  have hgreatest := maxLoadedModels_isGreatest variants
  have hone : routerProblems ManagedService.props variants name = [] ↔
      maxLoadedModels variants ≤ 1 := by
    simp [routerProblems, ManagedService.props]
  have htwo : maxLoadedModels variants ≤ 1 ↔ ¬ HasPacking (resourceSets variants) 2 := by
    constructor
    · intro hle hpacking
      exact absurd (hgreatest.2 hpacking) (by omega)
    · intro hnone
      by_contra hlarge
      exact hnone (hgreatest.1.mono (by omega))
  have hnodup : (resourceSets variants).Nodup := List.nodup_dedup _
  rw [hone, htwo, hasPacking_two_iff hnodup]
  push Not
  rfl

/-- The check finds nothing among models that hold nothing. -/
theorem no_problems_of_empty {variants : Dict String Variant} {name : String}
    (h : ∀ id v, variants.get id = some v → v.exclusive = ∅) :
    routerProblems ManagedService.props variants name = [] := by
  have hempty : ∀ s ∈ resourceSets variants, s = ∅ := by
    intro s hs
    obtain ⟨id, hid, rfl⟩ := mem_resourceSets.1 hs
    obtain ⟨v, hv⟩ := Dict.mem_keys.1 (List.mem_toFinset.1 hid)
    rw [exclusiveOf_eq hv]
    exact h id v hv
  rw [routerProblems_props]
  intro s hs t ht hne
  exact absurd ((hempty s hs).trans (hempty t ht).symm) hne

/-- If it finds nothing, models that do not conflict hold nothing. -/
theorem exclusive_eq_empty_of_no_problems {variants : Dict String Variant} {name : String}
    (h : routerProblems ManagedService.props variants name = []) {id id' : String} {v v' : Variant}
    (hv : variants.get id = some v) (hv' : variants.get id' = some v')
    (hno : claimsConflict v v' = false) : v.exclusive = ∅ := by
  have hheld : ∀ {id v}, variants.get id = some v → v.exclusive ∈ resourceSets variants := by
    intro id v hv
    exact mem_resourceSets.2 ⟨id, List.mem_toFinset.2 (Dict.mem_keys.2 ⟨v, hv⟩), exclusiveOf_eq hv⟩
  rw [claimsConflict_eq_false_iff] at hno
  -- different sets would meet, so the two are one, which does not meet itself
  have hequal : v.exclusive = v'.exclusive := by
    by_contra hdifferent
    exact routerProblems_props.1 h _ (hheld hv) _ (hheld hv') hdifferent hno
  rw [← hequal, disjoint_self] at hno
  exact hno

/-! ## The models of a service -/

/-- The variants of one server in a catalogue (`survey`, line 235). -/
def ownVariants (catalogue : Dict String Variant) (service : String) : Dict String Variant :=
  catalogue.filter fun _ v => v.backend = service

/-- Any two models of the service conflict. -/
def ModelsConflict (catalogue : Dict String Variant) (service : String) : Prop :=
  ∀ id id' v v', (ownVariants catalogue service).get id = some v →
    (ownVariants catalogue service).get id' = some v' → id ≠ id' → claimsConflict v v' = true

section Accepted

variable {sections : Dict String Preset.Options} {catalogue : Dict String Variant} {service : String}

/-- A model of the service is one of its sections. -/
theorem section_of_own (h : Preset.parseServiceCatalogue sections = .ok catalogue) {id : String}
    {v : Variant} (hv : (ownVariants catalogue service).get id = some v) :
    ∃ s ∈ Preset.serviceSections sections service, s.1 = id ∧
      (v.exclusive = ∅ ↔ ¬ Preset.NamesResource s.1 s.2) := by
  rw [ownVariants, Dict.get_filter, Option.filter_eq_some_iff, decide_eq_true_eq,
    Dict.get_eq_some] at hv
  obtain ⟨s, hs, rfl, hok⟩ := forall₂_mem_right (Preset.parseServiceCatalogue_entries h) hv.1
  obtain ⟨-, hservice, -⟩ := Preset.serviceVariant_eq_ok hok
  refine ⟨s, List.mem_filter.2 ⟨hs, ?_⟩, rfl, Preset.exclusive_eq_empty_iff hok⟩
  rw [hservice, hv.2, decide_eq_true_eq]

/-- A section of the service is one of its models. -/
theorem own_of_section (h : Preset.parseServiceCatalogue sections = .ok catalogue)
    {s : String × Preset.Options} (hs : s ∈ Preset.serviceSections sections service) :
    ∃ v, (ownVariants catalogue service).get s.1 = some v ∧
      (v.exclusive = ∅ ↔ ¬ Preset.NamesResource s.1 s.2) := by
  obtain ⟨hs, hnamed⟩ := List.mem_filter.1 hs
  obtain ⟨entry, hentry, hid, hok⟩ :=
    forall₂_mem_right (Preset.parseServiceCatalogue_entries h).flip hs
  obtain ⟨-, hservice, -⟩ := Preset.serviceVariant_eq_ok hok
  rw [decide_eq_true_eq, hservice] at hnamed
  refine ⟨entry.2, ?_, Preset.exclusive_eq_empty_iff hok⟩
  rw [ownVariants, Dict.get_filter, Option.filter_eq_some_iff, decide_eq_true_eq, hid]
  exact ⟨Dict.get_eq_some.2 hentry, Option.some.inj hnamed⟩

/-- A service has several sections if two of them have different names. -/
theorem one_lt_length_iff :
    1 < (Preset.serviceSections sections service).length ↔
      ∃ s ∈ Preset.serviceSections sections service,
        ∃ t ∈ Preset.serviceSections sections service, s.1 ≠ t.1 := by
  have hnodup : ((Preset.serviceSections sections service).map Prod.fst).Nodup :=
    sections.nodup.sublist (List.filter_sublist.map _)
  rw [← List.length_map Prod.fst, ← List.toFinset_card_of_nodup hnodup, Finset.one_lt_card]
  simp only [List.mem_toFinset, List.mem_map, exists_exists_and_eq_and]

/-- For every accepted service preset and every service: that `router_problems`
    reports nothing means that any two models of the service conflict, exactly if one
    of its sections names a resource or it has one section at most. -/
theorem models_conflict_iff (h : Preset.parseServiceCatalogue sections = .ok catalogue)
    (name : String) :
    (routerProblems ManagedService.props (ownVariants catalogue service) name = [] →
      ModelsConflict catalogue service) ↔
    (∃ s ∈ Preset.serviceSections sections service, Preset.NamesResource s.1 s.2) ∨
      (Preset.serviceSections sections service).length ≤ 1 := by
  constructor
  · intro hconflict
    by_contra hnot
    rw [not_or, not_exists, not_le] at hnot
    obtain ⟨hnothing, hmany⟩ := hnot
    have hempty : ∀ id v, (ownVariants catalogue service).get id = some v → v.exclusive = ∅ := by
      intro id v hv
      obtain ⟨s, hs, -, hexclusive⟩ := section_of_own h hv
      exact hexclusive.2 fun hnames => hnothing s ⟨hs, hnames⟩
    have hall := hconflict (no_problems_of_empty hempty)
    obtain ⟨s, hs, t, ht, hne⟩ := one_lt_length_iff.1 hmany
    obtain ⟨v, hv, -⟩ := own_of_section h hs
    obtain ⟨w, hw, -⟩ := own_of_section h ht
    have hno : claimsConflict v w = false := by
      rw [claimsConflict_eq_false_iff, hempty _ v hv]
      exact Finset.disjoint_empty_left _
    rw [hall s.1 t.1 v w hv hw hne] at hno
    cases hno
  · intro hcondition hnone id id' v v' hv hv' hne
    by_contra hno
    rw [Bool.not_eq_true] at hno
    have hempty := exclusive_eq_empty_of_no_problems hnone hv hv' hno
    rcases hcondition with ⟨s, hs, hnames⟩ | hfew
    · -- the model of that section does not conflict with one that holds nothing
      obtain ⟨w, hw, hexclusive⟩ := own_of_section h hs
      have hapart : claimsConflict w v = false := by
        rw [claimsConflict_eq_false_iff, hempty]
        exact Finset.disjoint_empty_right _
      exact hexclusive.1 (exclusive_eq_empty_of_no_problems hnone hw hv hapart) hnames
    · obtain ⟨s, hs, rfl, -⟩ := section_of_own h hv
      obtain ⟨t, ht, rfl, -⟩ := section_of_own h hv'
      exact absurd (one_lt_length_iff.2 ⟨s, hs, t, ht, hne⟩) (by omega)

end Accepted

/-- The models of an accepted preset. -/
def acceptedModels (sections : Dict String Preset.Options) : Dict String Variant :=
  match Preset.parseServiceCatalogue sections with
  | .ok catalogue => catalogue
  | .error _ => ∅

theorem parse_acceptedModels {sections : Dict String Preset.Options}
    (h : (Preset.parseServiceCatalogue sections).toOption.isSome = true) :
    Preset.parseServiceCatalogue sections = .ok (acceptedModels sections) := by
  obtain ⟨catalogue, hcatalogue⟩ := exists_ok_of_isSome h
  rw [acceptedModels, hcatalogue]

/-- Two models of Strata, which hold a device and RAM. -/
def strataPreset : Dict String Preset.Options :=
  .ofList [
    ("qwen--cuda1", .ofList [("service", "strata"), ("device", "CUDA1"),
      ("exclusive", "RAM:weights"), ("env.STRATA_FAMILY", "qwen")]),
    ("swift--cuda1", .ofList [("service", "strata"), ("device", "CUDA1"),
      ("exclusive", "RAM:weights"), ("env.STRATA_FAMILY", "swift")])]

theorem models_conflict_iff_strata :
    (routerProblems ManagedService.props (ownVariants (acceptedModels strataPreset) "strata")
        "Strata" = [] → ModelsConflict (acceptedModels strataPreset) "strata") ↔
      (∃ s ∈ Preset.serviceSections strataPreset "strata", Preset.NamesResource s.1 s.2) ∨
        (Preset.serviceSections strataPreset "strata").length ≤ 1 :=
  models_conflict_iff (parse_acceptedModels (by decide +kernel)) "Strata"

/-- Two models that run on the CPU and name nothing to hold. -/
def cpuPreset : Dict String Preset.Options :=
  .ofList [
    ("qwen--cpu", .ofList [("service", "strata"), ("device", "none"),
      ("env.STRATA_FAMILY", "qwen")]),
    ("swift--cpu", .ofList [("service", "strata"), ("device", "none"),
      ("env.STRATA_FAMILY", "swift")])]

/-- Nothing is reported about them, and they do not conflict. -/
theorem models_not_conflicting :
    ¬ ∀ sections catalogue service name, Preset.parseServiceCatalogue sections = .ok catalogue →
      routerProblems ManagedService.props (ownVariants catalogue service) name = [] →
        ModelsConflict catalogue service := by
  intro h
  have hparsed := @parse_acceptedModels cpuPreset (by decide +kernel)
  have hmodels : (((ownVariants (acceptedModels cpuPreset) "strata").get "qwen--cpu").bind fun v =>
      ((ownVariants (acceptedModels cpuPreset) "strata").get "swift--cpu").map fun w =>
        claimsConflict v w) = some false := by
    decide +kernel
  obtain ⟨v, hv, hrest⟩ := Option.bind_eq_some_iff.1 hmodels
  obtain ⟨w, hw, hno⟩ := Option.map_eq_some_iff.1 hrest
  have hconflict := h cpuPreset _ "strata" "Strata" hparsed (by decide +kernel) "qwen--cpu"
    "swift--cpu" v w hv hw (by decide)
  rw [hno] at hconflict
  cases hconflict

end ModelBroker
