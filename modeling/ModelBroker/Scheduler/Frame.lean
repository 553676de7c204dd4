import ModelBroker.Scheduler.Merge

/-!
# What a step leaves alone

One lemma for each part of the state that invariants speak about: what a step
does to the background tasks (`step_tasks`), to the fields of a record that
exists (`step_variant`, `step_ready`, `step_leaving`, `step_error`) and to the
ids in `loaded` (`step_recorded`). Each says who can change the part and to
what; everything else is unchanged.
-/

namespace ModelBroker

variable {cfg : Config} {s t : State} {a : Act} {r : Ref}

/-! ## Tasks -/

/-- How the background tasks change in one step. -/
inductive TaskStep (cfg : Config) (s : State) (a : Act) (t : State) : Prop
  | same (ht : t.tasks = s.tasks)
  | move {i : ℕ} {k k' : Task} (hk : s.tasks[i]? = some k) (ht : t.tasks = s.tasks.set i k')
      (howns : k'.owns = k.owns ∨ k'.owns = none)
      (hvictims : k'.victims = k.victims ∨ k'.victims = [])
      (hunload : ∀ r ∈ k'.toUnload, r ∈ k.toUnload)
      (hunasked : k'.unasked = k.unasked ∨ k'.unasked = none)
  | track {p : ℕ} {after : Option Variant} {model : Ref} {rest pending : List Ref} {q' : Request}
      (hq : s.requests[p]? = some (.tracking after model rest))
      (hto : TrackTo s.heap after rest pending q')
      (ht : t.tasks = s.tasks ++ pending.map .finishReady)
      (hr : t.requests = s.requests.set p q')
  | install {p : ℕ} {q q' : Request} {variant : Variant} {found : Survey} {pending : List Ref}
      (hq : s.requests[p]? = some q) (hsurvey : Surveys cfg s p a q variant (.inl found))
      (hto : TrackTo (adopt s found) (some variant) (newModels s found) pending q')
      (ht : t = ((installed s found).background (pending.map .finishReady)).goto p q')
  | swap {p : ℕ} {job : Job} {victims : List Ref} (hd : s.decision p = some (job, victims))
      (ht : t = committed s p job victims) (ha : a = .resume p)

theorem owns_swapNext (done rest : List Ref) (model : Ref) :
    (swapNext done rest model).owns = some model := by
  cases rest <;> rfl

theorem victims_swapNext (done rest : List Ref) (model : Ref) :
    (swapNext done rest model).victims = done ++ rest ∨
      (swapNext done rest model).victims = [] := by
  cases rest
  · exact .inr rfl
  · exact .inl rfl

theorem toUnload_swapNext (done rest : List Ref) (model : Ref) :
    (swapNext done rest model).toUnload = rest := by
  cases rest <;> rfl

theorem unasked_swapNext (done rest : List Ref) (model : Ref) :
    (swapNext done rest model).unasked = some model ∨
      (swapNext done rest model).unasked = none := by
  cases rest
  · exact .inr rfl
  · exact .inl rfl

theorem step_tasks (h : Step cfg s a t) : TaskStep cfg s a t := by
  cases h with
  | tick | arrive | silent | enter | join | queue | quit | busy | idle | joined | unjoin
  | release => exact .same rfl
  | install hq hsurvey hto => exact .install hq hsurvey hto rfl
  | baseline hq hto => exact .track hq hto rfl rfl
  | @commit p job look hq hrest hreason hidle =>
    exact .swap (decision_eq_some.2 ⟨look, hq, hrest, hreason, hidle, rfl⟩) rfl rfl
  | task hk h =>
    cases h with
    | start =>
      exact .move hk rfl (.inl (owns_swapNext ..)) (victims_swapNext ..)
        (by rw [toUnload_swapNext]; exact fun _ hr => hr) (unasked_swapNext ..)
    | wait | loaded | awaited =>
      exact .move hk rfl (.inl rfl) (.inr rfl) (by simp [Task.toUnload]) (.inr rfl)
  | @unloaded i done rest victim model r answer hk =>
    refine .move hk rfl (.inl (owns_swapNext ..)) ?_ ?_ (unasked_swapNext ..)
    · have hv := victims_swapNext (done ++ [victim]) rest model
      rwa [List.append_assoc] at hv
    · rw [toUnload_swapNext]
      exact fun _ hr => List.mem_cons_of_mem victim hr
  | crash hk | unloadFailed hk | crashFailed hk | dropped hk | gone hk | unsure hk
  | baselined hk => exact .move hk rfl (.inr rfl) (.inr rfl) (by simp [Task.toUnload]) (.inr rfl)
  | loadFailed hk hfrom =>
    rcases hfrom with ⟨rfl, -⟩ | ⟨rfl, -⟩ <;>
      exact .move hk rfl (.inl rfl) (.inr rfl) (by simp [Task.toUnload]) (.inr rfl)

/-! ## Records -/

@[simp] theorem withBaseline_variant (model : LoadedModel) (answer : Except String ModelActivity) :
    (model.withBaseline answer).variant = model.variant := by
  cases answer <;> rfl

@[simp] theorem withBaseline_ready (model : LoadedModel) (answer : Except String ModelActivity) :
    (model.withBaseline answer).ready = model.ready := by
  cases answer <;> rfl

@[simp] theorem withBaseline_leaving (model : LoadedModel) (answer : Except String ModelActivity) :
    (model.withBaseline answer).leaving = model.leaving := by
  cases answer <;> rfl

@[simp] theorem withBaseline_error (model : LoadedModel) (answer : Except String ModelActivity) :
    (model.withBaseline answer).error = model.error := by
  cases answer <;> rfl

theorem committed_of_lt {p : ℕ} {job : Job} {victims : List Ref} (hr : r < s.next) :
    (committed s p job victims).heap r =
      if r ∈ victims then { s.heap r with leaving := true } else s.heap r := by
  simp [committed, Nat.ne_of_lt hr]

theorem step_next_le (h : Step cfg s a t) : s.next ≤ t.next := by
  cases h <;> first | exact Nat.le_refl _ | exact Nat.le_add_right _ _

/-- A record's variant never changes. -/
theorem step_variant (h : Step cfg s a t) (hr : r < s.next) :
    (t.heap r).variant = (s.heap r).variant := by
  cases h <;> simp only [State.goto_heap, State.edit_heap, State.remove_heap, State.delete_heap,
    State.report_heap, State.setTask_heap, State.background_heap, enter, installed,
    adopt_of_lt hr, committed_of_lt hr] <;> (try split_ifs) <;>
    first | rfl | simp [LoadedModel.settled]

/-- Only the task that owns a record marks it ready, with its last step. -/
theorem step_ready (h : Step cfg s a t) (hr : r < s.next) :
    (t.heap r).ready = (s.heap r).ready ∨
      ((t.heap r).ready = true ∧ ∃ (i : ℕ) (k : Task), s.tasks[i]? = some k ∧ k.owns = some r ∧
        t.tasks = s.tasks.set i .ended) := by
  cases h with
  | @unloadFailed i done rest victim model _ _ hk | @dropped i model _ _ _ hk | @gone i model _ _ _ hk
  | @unsure i model _ _ _ hk | @baselined i model _ _ hk =>
    by_cases hm : r = model
    · subst hm
      exact .inr ⟨by simp [LoadedModel.settled], i, _, hk, rfl, rfl⟩
    · left
      simp [hm]
      try split_ifs <;> rfl
  | tick | arrive | silent | enter | install | baseline | join | queue | quit | busy | idle | commit
  | joined | unjoin | release | task | unloaded | crash | crashFailed | loadFailed =>
    left
    simp only [State.goto_heap, State.edit_heap, State.remove_heap, State.delete_heap,
      State.setTask_heap, State.background_heap, enter, installed, adopt_of_lt hr,
      committed_of_lt hr]
    try split_ifs
    all_goals first | rfl | simp

/-- A record that is ready stays ready. -/
theorem step_ready_mono (h : Step cfg s a t) (hr : r < s.next) (hready : (s.heap r).ready = true) :
    (t.heap r).ready = true := by
  rcases step_ready h hr with heq | ⟨hready', -⟩
  · rw [heq, hready]
  · exact hready'

/-- A decision marks its victims, and a failed swap unmarks its own. -/
theorem step_leaving (h : Step cfg s a t) (hr : r < s.next) :
    (t.heap r).leaving = (s.heap r).leaving ∨
      (∃ p job victims, s.decision p = some (job, victims) ∧ t = committed s p job victims ∧
        r ∈ victims ∧ (t.heap r).leaving = true) ∨
      ((t.heap r).leaving = false ∧ ∃ (i : ℕ) (k k' : Task), s.tasks[i]? = some k ∧
        r ∈ k.victims ∧ t.tasks = s.tasks.set i k' ∧ k'.victims = []) := by
  cases h with
  | @commit p job look hq hrest hreason hidle =>
    by_cases hv : r ∈ look.seen
    · refine .inr (.inl ⟨p, job, look.seen, ?_, rfl, hv, ?_⟩)
      · exact decision_eq_some.2 ⟨look, hq, hrest, hreason, hidle, rfl⟩
      · rw [committed_of_lt hr, if_pos hv]
    · exact .inl (by rw [committed_of_lt hr, if_neg hv])
  | @unloadFailed i done rest victim model _ _ hk | @crashFailed i done rest victim model _ hk =>
    by_cases hv : r ∈ done ++ victim :: rest
    · refine .inr (.inr ⟨?_, i, _, _, hk, hv, rfl, rfl⟩)
      simp [List.mem_append, List.mem_cons] at hv
      simp [hv]
      try split_ifs <;> rfl
    · left
      simp only [State.setTask_heap, State.edit_heap, State.delete_heap, hv, if_false]
      try split_ifs <;> rfl
  | tick | arrive | silent | enter | install | baseline | join | queue | quit | busy | idle
  | joined | unjoin | release | task | unloaded | crash | loadFailed | dropped | gone | unsure
  | baselined =>
    left
    simp only [State.goto_heap, State.edit_heap, State.remove_heap, State.delete_heap,
      State.report_heap, State.setTask_heap, State.background_heap, enter, installed,
      adopt_of_lt hr]
    try split_ifs
    all_goals first | rfl | simp [LoadedModel.settled]

/-- Only the task that owns a record writes its error, and never clears it. -/
theorem step_error (h : Step cfg s a t) (hr : r < s.next) :
    (t.heap r).error = (s.heap r).error ∨
      ((t.heap r).error ≠ none ∧ ∃ (i : ℕ) (k : Task), s.tasks[i]? = some k ∧ k.owns = some r) := by
  cases h with
  | @unloadFailed i done rest victim model _ _ hk =>
    by_cases hm : r = model
    · exact .inr ⟨by simp [hm], i, _, hk, by rw [hm]; rfl⟩
    · left
      simp [hm]
      split_ifs <;> rfl
  | @loadFailed i k model error loader hk hfrom =>
    by_cases hm : r = model
    · refine .inr ⟨by simp [hm], i, k, hk, ?_⟩
      rcases hfrom with ⟨rfl, -⟩ | ⟨rfl, -⟩ <;> rw [hm] <;> rfl
    · exact .inl (by simp [hm])
  | tick | arrive | silent | enter | install | baseline | join | queue | quit | busy | idle | commit
  | joined | unjoin | release | task | unloaded | crash | crashFailed | dropped | gone | unsure
  | baselined =>
    left
    simp only [State.goto_heap, State.edit_heap, State.remove_heap, State.delete_heap,
      State.report_heap, State.setTask_heap, State.background_heap, enter, installed,
      adopt_of_lt hr, committed_of_lt hr]
    try split_ifs
    all_goals first | rfl | simp [LoadedModel.settled]

/-! ## The ids in `loaded` -/

/-- Which records are stored after a step: some of those stored before, those
    and a new one after a decision, or the merged ones. -/
inductive LoadedStep (cfg : Config) (s : State) (a : Act) (t : State) : Prop
  | fewer (hl : ∀ id r, t.recorded id = some r → s.recorded id = some r)
  | commit {p : ℕ} {job : Job} {victims : List Ref} (hd : s.decision p = some (job, victims))
      (ht : t = committed s p job victims)
  | install {p : ℕ} {q q' : Request} {variant : Variant} {found : Survey} {pending : List Ref}
      (hq : s.requests[p]? = some q) (hsurvey : Surveys cfg s p a q variant (.inl found))
      (hto : TrackTo (adopt s found) (some variant) (newModels s found) pending q')
      (ht : t = ((installed s found).background (pending.map .finishReady)).goto p q')

theorem State.recorded_delete (s : State) (id id' : String) :
    (s.delete id).recorded id' = if id' = id then none else s.recorded id' :=
  Dict.get_erase ..

theorem State.recorded_delete_self (s : State) (id : String) : (s.delete id).recorded id = none :=
  (s.recorded_delete id id).trans (if_pos rfl)

theorem step_loaded (h : Step cfg s a t) : LoadedStep cfg s a t := by
  have hdelete : ∀ (id id' : String) (r : Ref), (s.delete id).recorded id' = some r →
      s.recorded id' = some r := by
    intro id id' r hr
    rw [State.recorded_delete] at hr
    split_ifs at hr
    exact hr
  cases h with
  | @commit p job look hq hrest hreason hidle =>
    exact .commit (decision_eq_some.2 ⟨look, hq, hrest, hreason, hidle, rfl⟩) rfl
  | install hq h hto => exact .install hq h hto rfl
  | unloaded | unloadFailed | dropped => exact .fewer (hdelete _)
  | tick | arrive | silent | enter | baseline | join | queue | quit | busy | idle | joined | unjoin
  | release | task | crash | crashFailed | loadFailed | gone | unsure | baselined =>
    exact .fewer fun _ _ hr => hr

end ModelBroker
