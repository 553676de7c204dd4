import ModelBroker.Lib.Table
import ModelBroker.Scheduler.Cases

/-!
# The merge of a re-inspection

What `reinspect` (lines 389–417) makes of the records a survey found and those
already tracked.

* `get_mergeLoaded`: which record is stored under an id.
* `mergeLoaded_cases`: it is the one stored before, or a fresh one of the survey.
* `mem_newModels`: `track` is given exactly the fresh ones.
-/

namespace ModelBroker

variable {s : State} {found : Survey} {id : String} {r : Ref} {model : LoadedModel}

/-! ## The adopted records -/

theorem adopt_of_lt (hr : r < s.next) : adopt s found r = s.heap r := by
  unfold adopt
  split
  · rw [if_neg (Nat.not_le.2 hr)]
  · rfl

theorem get_adoptedRefs :
    (adoptedRefs s found).get id = some r ↔
      s.next ≤ r ∧ ∃ model, found.loaded.get id = some model ∧
        found.loaded.entries[r - s.next]? = some (id, model) :=
  Dict.get_number_eq_some

theorem adoptedRefs_lt (h : (adoptedRefs s found).get id = some r) :
    s.next ≤ r ∧ r < s.next + found.loaded.entries.length :=
  ⟨(get_adoptedRefs.1 h).1, Dict.number_lt h⟩

/-- The reference under which a found record is adopted leads to it. -/
theorem adopt_of_ref (h : (adoptedRefs s found).get id = some r)
    (hm : found.loaded.get id = some model) : adopt s found r = model := by
  obtain ⟨hle, model', hm', he⟩ := get_adoptedRefs.1 h
  rw [hm] at hm'
  unfold adopt
  rw [he]
  simp [hle, Option.some.inj hm']

theorem adoptedRefs_isSome :
    (∃ r, (adoptedRefs s found).get id = some r) ↔ ∃ model, found.loaded.get id = some model := by
  have h : ((adoptedRefs s found).get id).isSome = (found.loaded.get id).isSome :=
    Dict.get_number_isSome found.loaded s.next id
  rw [← Option.isSome_iff_exists, ← Option.isSome_iff_exists, h]

/-- Every record above the old ones is one of the survey's. -/
theorem adopt_of_ge (hle : s.next ≤ r) (hlt : r < s.next + found.loaded.entries.length) :
    ∃ id, (adoptedRefs s found).get id = some r := by
  have hidx : r - s.next < found.loaded.entries.length := Nat.sub_lt_left_of_lt_add hle hlt
  have hget := List.getElem?_eq_getElem hidx
  refine ⟨found.loaded.entries[r - s.next].1, get_adoptedRefs.2 ⟨hle, _, ?_, hget⟩⟩
  exact Dict.get_eq_some.2 (List.getElem_mem hidx)

/-! ## The merged dictionary -/

/-- The record the merge keeps under an id that the survey found, if any. -/
def keptFound (s : State) (id : String) : Option Ref :=
  (s.recorded id).filter fun current => (s.heap current).error.isNone

/-- The record the merge keeps under an id that the survey did not find, if any. -/
def keptMissing (s : State) (found : Survey) (id : String) : Option Ref :=
  (s.recorded id).filter fun current =>
    (s.heap current).inProgress || found.unreachable.contains (s.heap current).variant.backend

theorem get_mergeLoaded :
    (mergeLoaded s found).get id =
      match found.loaded.get id with
      | some _ => (keptFound s id).or ((adoptedRefs s found).get id)
      | none => keptMissing s found id := by
  rw [mergeLoaded, Dict.get_addMissing, Dict.get_mapValues, Dict.get_filter]
  cases hm : found.loaded.get id with
  | none =>
    have hnone : (adoptedRefs s found).get id = none := by
      rw [← Option.not_isSome_iff_eq_none, Option.isSome_iff_exists, adoptedRefs_isSome, hm]
      simp
    rw [hnone]
    rfl
  | some model =>
    obtain ⟨r, hr⟩ := adoptedRefs_isSome.2 ⟨model, hm⟩
    rw [hr]
    unfold keptFound
    cases s.recorded id with
    | none => rfl
    | some current =>
      cases herror : (s.heap current).error <;> simp [herror, Option.filter_some]

/-- A merged record was stored under its id before, or is a fresh one. -/
theorem mergeLoaded_cases (h : (mergeLoaded s found).get id = some r) :
    s.recorded id = some r ∨ (adoptedRefs s found).get id = some r := by
  rw [get_mergeLoaded] at h
  split at h
  · rcases Option.or_eq_some_iff.1 h with h | ⟨-, h⟩
    · exact .inl (Option.filter_eq_some_iff.1 h).1
    · exact .inr h
  · exact .inl (Option.filter_eq_some_iff.1 h).1

theorem mem_newModels :
    r ∈ newModels s found ↔ ∃ id, (mergeLoaded s found).get id = some r ∧ s.recorded id ≠ some r := by
  simp [newModels, Dict.get_eq_some]

/-- The models given to `track` are fresh. -/
theorem newModels_fresh (h : r ∈ newModels s found) :
    ∃ id, (mergeLoaded s found).get id = some r ∧ (adoptedRefs s found).get id = some r := by
  obtain ⟨id, hid, hne⟩ := mem_newModels.1 h
  exact ⟨id, hid, (mergeLoaded_cases hid).resolve_left hne⟩

theorem newModels_nodup
    (h : ∀ id id' r, (mergeLoaded s found).get id = some r →
      (mergeLoaded s found).get id' = some r → id = id') : (newModels s found).Nodup := by
  have hvalues := Dict.values_nodup h
  exact hvalues.sublist (List.filter_sublist.map _)

/-! ## The first records -/

/-- What is stored at first are the records of the survey. -/
theorem initial_recorded {now : ℚ} (h : (initial now found).recorded id = some r) :
    ∃ model, found.loaded.get id = some model ∧ (initial now found).heap r = model := by
  obtain ⟨pending, q, -, heq⟩ := initial_cases now found
  rw [heq] at h ⊢
  obtain ⟨model, hm⟩ := adoptedRefs_isSome.1 ⟨r, h⟩
  exact ⟨model, hm, adopt_of_ref h hm⟩

theorem initial_found {now : ℚ} (hm : found.loaded.get id = some model) :
    ∃ r, (initial now found).recorded id = some r ∧ (initial now found).heap r = model := by
  obtain ⟨pending, q, -, heq⟩ := initial_cases now found
  obtain ⟨r, hr⟩ := (@adoptedRefs_isSome (blank now) found id).2 ⟨model, hm⟩
  rw [heq]
  exact ⟨r, hr, adopt_of_ref hr hm⟩

theorem initial_problems (now : ℚ) (found : Survey) :
    (initial now found).view.problems = found.problems := by
  obtain ⟨pending, q, -, heq⟩ := initial_cases now found
  rw [heq]
  rfl

end ModelBroker
