import ModelBroker.Scheduler.Deciding
import ModelBroker.Scheduler.Fitness

/-!
# What a re-inspection keeps

The merge of `reinspect` (lines 399–407) decides by whether the survey found a
model, and by the record's error, `active`, `leaving` and `ready`.

* `reinspect_keeps_iff`: every record in use and every record of a server that
  could not be reached is kept, exactly when no record in use whose load failed
  was found, and no record of which nothing is known but its queued requests is
  missing from what was found.
* `reinspect_replaces_victim`: a model whose load failed with an unknown outcome
  is being unloaded, and the re-inspection replaces its record.
-/

namespace ModelBroker

variable {cfg : Config} {s : State} {found : Survey}

/-- A live task is unloading the model, or will once it has unloaded others. -/
def State.Unloads (s : State) (r : Ref) : Prop :=
  ∃ (i : ℕ) (k : Task), s.tasks[i]? = some k ∧ r ∈ k.toUnload

/-- A live task is loading the model, or waits for its server to load it. -/
def State.Loads (s : State) (r : Ref) : Prop :=
  ∃ (i : ℕ) (k : Task), s.tasks[i]? = some k ∧ k.owns = some r

/-- A request or a task is using the record. -/
def State.InUse (s : State) (r : Ref) : Prop :=
  (s.heap r).active ≠ 0 ∨ (s.heap r).queued ≠ 0 ∨ s.Unloads r ∨ s.Loads r

/-- The record is in use, but the test of line 404 does not see it. -/
def State.OnlyQueued (s : State) (r : Ref) : Prop :=
  (s.heap r).queued ≠ 0 ∧ (s.heap r).inProgress = false

/-- The survey does not meet a record that the merge would take from a request
    or a task. -/
structure Keepable (s : State) (found : Survey) : Prop where
  sound : ∀ (id : String) (r : Ref), s.recorded id = some r → s.InUse r →
    found.loaded.contains id = true → (s.heap r).error = none
  held : ∀ (id : String) (r : Ref), s.recorded id = some r → s.OnlyQueued r →
    (s.heap r).variant.backend ∉ found.unreachable → found.loaded.contains id = true

/-- What the merge stores under an id that the survey found. -/
theorem installed_found (hrefs : Refs cfg s) {id : String} {r : Ref}
    (hr : s.recorded id = some r) (hf : found.loaded.contains id = true) :
    (installed s found).recorded id = some r ↔ (s.heap r).error = none := by
  obtain ⟨model, hm⟩ := Dict.contains_iff.1 hf
  have hget : (installed s found).recorded id =
      (keptFound s id).or ((adoptedRefs s found).get id) := by
    have := @get_mergeLoaded s found id
    rwa [hm] at this
  rw [hget, keptFound, hr, Option.filter_some]
  constructor
  · intro h
    by_contra hne
    rw [if_neg (by simpa using hne), Option.none_or] at h
    -- a record of the survey is a new one
    exact Nat.not_lt.2 (adoptedRefs_lt h).1 (hrefs.keyed id r hr).1
  · intro h
    rw [h]
    rfl

/-- What the merge stores under an id that the survey did not find. -/
theorem installed_missing {id : String} {r : Ref} (hr : s.recorded id = some r)
    (hf : found.loaded.contains id = false) :
    (installed s found).recorded id = some r ↔ (s.heap r).inProgress = true ∨
      (s.heap r).variant.backend ∈ found.unreachable := by
  have hnone : found.loaded.get id = none := by simpa [Dict.contains] using hf
  have hget : (installed s found).recorded id = keptMissing s found id := by
    have := @get_mergeLoaded s found id
    rwa [hnone] at this
  rw [hget, keptMissing, hr, Option.filter_some, ← List.contains_iff_mem, ← Bool.or_eq_true]
  cases (s.heap r).inProgress || found.unreachable.contains (s.heap r).variant.backend <;> simp

/-- The survey finds nothing of a server that it cannot reach. -/
theorem not_found_of_unreachable (hrefs : Refs cfg s) (hf : found.Complete cfg) {id : String}
    {r : Ref} (hr : s.recorded id = some r)
    (hun : (s.heap r).variant.backend ∈ found.unreachable) : found.loaded.contains id = false := by
  by_contra hc
  obtain ⟨model, hm⟩ := Dict.contains_iff.1 (Bool.not_eq_false _ ▸ hc)
  have hknown := hrefs.stored hr
  rw [hf.known id model hm] at hknown
  rw [← Option.some.inj hknown] at hun
  exact hf.reachable id model hm hun

/-- A record in use that the test of line 404 does not see has only queued
    requests. -/
theorem Inv.seen_or_queued (h : Inv cfg s) {r : Ref} (hu : s.InUse r) :
    (s.heap r).inProgress = true ∨ s.OnlyQueued r := by
  rcases hu with hactive | hqueued | ⟨i, k, hk, hr⟩ | ⟨i, k, hk, ho⟩
  · exact .inl (by simp [LoadedModel.inProgress, hactive])
  · cases hp : (s.heap r).inProgress with
    | true => exact .inl rfl
    | false => exact .inr ⟨hqueued, hp⟩
  · have hleaving := (h.victims.leaving i k r hk (Task.victims_of_toUnload hr)).1
    exact .inl (by simp [LoadedModel.inProgress, hleaving])
  · have hready := h.owners.unready i k r hk ho
    exact .inl (by simp [LoadedModel.inProgress, hready])

/-- For every reachable state and every result of `survey`: the merge keeps the
    very record of every model in use, and every record of a server that could
    not be reached, exactly when the survey is `Keepable`. -/
theorem reinspect_keeps_iff (h : (scheduler cfg).Free s) (now : ℚ)
    (answer : String → ServerAnswer) :
    (∀ (id : String) (r : Ref), s.recorded id = some r →
      s.InUse r ∨ (s.heap r).variant.backend ∈ (survey cfg now answer).unreachable →
      (installed s (survey cfg now answer)).recorded id = some r) ↔
    Keepable s (survey cfg now answer) := by
  have hinv := inv h
  have hcomplete := survey_complete cfg now answer
  constructor
  · intro hkeep
    constructor
    · intro id r hr hu hf
      exact (installed_found hinv.refs hr hf).1 (hkeep id r hr (.inl hu))
    · intro id r hr ⟨hqueued, hidle⟩ hreach
      by_contra hf
      have hkept := hkeep id r hr (.inl (.inr (.inl hqueued)))
      rcases (installed_missing hr (by simpa using hf)).1 hkept with hin | hun
      · rw [hidle] at hin; cases hin
      · exact hreach hun
  · intro hk id r hr hu
    by_cases hun : (s.heap r).variant.backend ∈ (survey cfg now answer).unreachable
    · have hf := not_found_of_unreachable hinv.refs hcomplete hr hun
      exact (installed_missing hr hf).2 (.inr hun)
    · have hu := hu.resolve_right hun
      by_cases hf : (survey cfg now answer).loaded.contains id = true
      · exact (installed_found hinv.refs hr hf).2 (hk.sound id r hr hu hf)
      · rcases hinv.seen_or_queued hu with hin | honly
        · exact (installed_missing hr (by simpa using hf)).2 (.inl hin)
        · exact absurd (hk.held id r hr honly hun) hf

/-- The router reports this state of the first model of the shared card. -/
def reporting (value : String) : String → ServerAnswer := fun _ =>
  .ok (⟨0, false, none⟩, ⟨[("a--cuda0", { value := value })], by simp⟩)

/-- A model that a request is using is kept when the router reports it unloaded. -/
theorem reinspect_keeps_admitted :
    ∃ s r, (scheduler sharedCard).Free s ∧ s.InUse r ∧
      (installed s (survey sharedCard 0 (reporting "unloaded"))).recorded "a--cuda0" =
        some r := by
  obtain ⟨s, hs, hP⟩ := reach_run sharedCard (fun _ _ => true) 0 (reporting "loaded")
    [.activity 0 (.ok ⟨false, 0, 0⟩), .arrive "a--cuda0", .resume 1, .resume 1]
    (fun s => s.view.loaded.entries = [("a--cuda0", 0)] && (s.heap 0).active = 1) (by decide)
  simp only [Bool.and_eq_true, decide_eq_true_eq] at hP
  have hrec : ∀ (id : String) (r : Ref), s.recorded id = some r → id = "a--cuda0" ∧ r = 0 := by
    intro id r hr
    have hmem := Dict.get_eq_some.1 hr
    rw [hP.1] at hmem
    simpa using hmem
  have hfound : ∀ id, (survey sharedCard 0 (reporting "unloaded")).loaded.contains id = false :=
    fun id => rfl
  have huse : s.InUse 0 := .inl (by rw [hP.2]; exact Nat.one_ne_zero)
  have hkeep : Keepable s (survey sharedCard 0 (reporting "unloaded")) := by
    constructor
    · intro id r hr _ hf
      rw [hfound] at hf
      cases hf
    · rintro id r hr ⟨-, hidle⟩
      rw [(hrec id r hr).2] at hidle
      simp [LoadedModel.inProgress, hP.2] at hidle
  have hr : s.recorded "a--cuda0" = some 0 := Dict.get_eq_some.2 (by rw [hP.1]; simp)
  exact ⟨s, 0, hs.free, huse,
    (reinspect_keeps_iff hs.free 0 (reporting "unloaded")).2 hkeep _ 0 hr (.inl huse)⟩

/-- The load of a model fails with an unknown outcome while a request for the
    other model of the card waits; that request's swap is unloading the model
    when a re-inspection finds it loaded and replaces its record. -/
theorem reinspect_replaces_victim :
    ∃ s id r, (scheduler sharedCard).Free s ∧ s.recorded id = some r ∧ s.Unloads r ∧
      (installed s (survey sharedCard 0 (reporting "loaded"))).recorded id ≠ some r := by
  obtain ⟨s, hs, hP⟩ := reach_run sharedCard (fun _ _ => true) 0 nothingLoaded
    [.arrive "a--cuda0", .resume 1, .resume 1, .resume 1, .resume 1,
      .arrive "b--cuda0", .resume 2, .resume 2, .resume 2, .resume 2, .resume 2,
      .run 0, .call 0 (.error "timed out"), .taskStates 0 (.error "timed out"), .resume 1,
      .resume 2, .resume 2, .resume 2, .resume 2, .activity 2 (.ok ⟨false, 0, 0⟩), .resume 2,
      .run 1]
    (fun s => s.recorded "a--cuda0" = some 0 && (s.tasks[1]?.any fun k => 0 ∈ k.toUnload) &&
      decide ((installed s (survey sharedCard 0 (reporting "loaded"))).recorded "a--cuda0" ≠
        some 0)) (by decide +kernel)
  simp only [Bool.and_eq_true, decide_eq_true_eq] at hP
  obtain ⟨k, hk, hmem⟩ := (Option.any_eq_true ..).1 hP.1.2
  exact ⟨s, "a--cuda0", 0, hs.free, hP.1.1, ⟨1, k, hk, by simpa using hmem⟩, hP.2⟩

end ModelBroker
