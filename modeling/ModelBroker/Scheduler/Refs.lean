import ModelBroker.Scheduler.Frame

/-!
# Records, references and variants

`Refs` says that the state is well formed: every reference leads to a record,
every record is that of a catalogue variant, and `loaded` stores a record under
its variant's id. It holds in every reachable state, whatever happens.

* `refs_step`, `refs`: one step and every run keep it.
-/

namespace ModelBroker

variable {cfg : Config} {s t : State} {a : Act}

/-! ## What a request or a task refers to -/

/-- The records a request refers to. -/
def Request.refs : Request → List Ref
  | tracking _ model rest => model :: rest
  | judging _ look => look.seen ++ look.rest
  | observing _ look model => look.seen ++ model :: look.rest
  | joining model | admitted model => [model]
  | _ => []

/-- The records a task refers to. -/
def Task.refs (k : Task) : List Ref := k.owns.toList ++ k.victims

/-- The variant a request is for. -/
def Request.variant? : Request → Option Variant
  | checkLock variant | surveying variant _ | checked variant => some variant
  | tracking after _ _ => after
  | q => q.job?.map Job.variant

/-- A well-formed state. -/
structure Refs (cfg : Config) (s : State) : Prop where
  keyed : ∀ (id : String) (r : Ref), s.recorded id = some r →
    r < s.next ∧ (s.heap r).variant.id = id
  known : ∀ r < s.next, cfg.catalogue.get (s.heap r).variant.id = some (s.heap r).variant
  request : ∀ (p : ℕ) (q : Request), s.requests[p]? = some q → ∀ r ∈ q.refs, r < s.next
  task : ∀ (i : ℕ) (k : Task), s.tasks[i]? = some k → ∀ r ∈ k.refs, r < s.next
  asked : ∀ (p : ℕ) (q : Request) (variant : Variant), s.requests[p]? = some q →
    q.variant? = some variant → cfg.catalogue.get variant.id = some variant
  sound : ∀ (p : ℕ) (variant : Variant) (i : Inspection),
    s.requests[p]? = some (.surveying variant i) → i.Sound cfg

/-! ## Where a step takes references from -/

theorem TrackTo.refs {heap : Ref → LoadedModel} {after : Option Variant} {models pending : List Ref}
    {q : Request} (h : TrackTo heap after models pending q) :
    (∀ r ∈ q.refs, r ∈ models) ∧ ∀ r ∈ pending, r ∈ models := by
  cases h with
  | done =>
    refine ⟨fun r hr => ?_, fun r hr => hr⟩
    cases after <;> cases hr
  | ask =>
    refine ⟨fun r hr => ?_, fun r hr => List.mem_append_left _ hr⟩
    exact List.mem_append_right _ hr

theorem TrackTo.variant {heap : Ref → LoadedModel} {after : Option Variant}
    {models pending : List Ref} {q : Request} (h : TrackTo heap after models pending q) :
    q.variant? = after := by
  cases h with
  | done => cases after <;> rfl
  | ask => rfl

theorem Silent.refs {p : ℕ} {q q' : Request} (h : Silent cfg s p a q q') {r : Ref}
    (hr : r ∈ q'.refs) : r ∈ q.refs ∨ ∃ id, s.recorded id = some r := by
  cases h with
  | list =>
    have hmem : r ∈ s.view.loaded.values := (List.mem_filter.1 hr).1
    exact .inr (Dict.mem_values.1 hmem)
  | ask hrest =>
    left
    simpa [Request.refs, hrest] using hr
  | unknown | recheck | clean | survey | unfit | noTicket | inOrder | block | again | sleep | wake
  | cancelled => cases hr

/-- The references of requests after a step come from the same request or from
    `loaded`. -/
theorem step_request_refs (h : Step cfg s a t) {p : ℕ} {q : Request}
    (hp : t.requests[p]? = some q) {r : Ref} (hr : r ∈ q.refs) :
    (∃ q₀ : Request, s.requests[p]? = some q₀ ∧ r ∈ q₀.refs) ∨ (∃ id, s.recorded id = some r) ∨
      ∃ id, t.recorded id = some r := by
  have other := @Table.origin Request fun q => r ∈ q.refs
  cases h with
  | arrive =>
    rcases Table.get_push.1 hp with ⟨-, rfl⟩ | hp
    · cases hr
    · exact .inl ⟨q, hp, hr⟩
  | silent h₀ h => exact other h₀ rfl hp hr fun hin => (h.refs hin).imp_right .inl
  | install h₀ _ hto =>
    refine other h₀ rfl hp hr fun hin => .inr (.inr ?_)
    obtain ⟨id, hid, -⟩ := mem_newModels.1 (hto.refs.1 r hin)
    exact ⟨id, hid⟩
  | baseline h₀ hto =>
    exact other h₀ rfl hp hr fun hin => .inl (List.mem_cons_of_mem _ (hto.refs.1 r hin))
  | join h₀ hrec | queue h₀ hrec =>
    refine other h₀ rfl hp hr fun hin => .inr (.inl ?_)
    rw [List.mem_singleton.1 hin]
    exact ⟨_, hrec⟩
  | idle h₀ =>
    refine other h₀ rfl hp hr fun hin => .inl ?_
    unfold judged Look.protect at hin
    split_ifs at hin <;> simpa [Request.refs] using hin
  | @commit _ job _ h₀ =>
    refine other h₀ rfl hp hr fun hin => .inr (.inr ⟨job.variant.id, ?_⟩)
    rw [List.mem_singleton.1 hin]
    exact (Dict.get_insert ..).trans (if_pos rfl)
  | joined h₀ => exact other h₀ rfl hp hr fun hin => .inl hin
  | enter h₀ | quit h₀ | busy h₀ | unjoin h₀ | release h₀ =>
    exact other h₀ rfl hp hr fun hin => by cases hin
  | tick | task | unloaded | crash | unloadFailed | crashFailed | loadFailed | dropped | gone
  | unsure | baselined => exact .inl ⟨q, hp, hr⟩

/-- The references of tasks after a step come from a task, from a request or
    from `loaded`. -/
theorem step_task_refs (h : Step cfg s a t) {i : ℕ} {k : Task} (hi : t.tasks[i]? = some k)
    {r : Ref} (hr : r ∈ k.refs) :
    (∃ (j : ℕ) (k₀ : Task), s.tasks[j]? = some k₀ ∧ r ∈ k₀.refs) ∨
      (∃ (p : ℕ) (q : Request), s.requests[p]? = some q ∧ r ∈ q.refs) ∨
      ∃ id, t.recorded id = some r := by
  have added : ∀ {ks : List Task}, t.tasks = s.tasks ++ ks →
      (s.tasks[i]? = some k) ∨ k ∈ ks := by
    intro ks ht
    rw [ht, List.getElem?_append] at hi
    split_ifs at hi
    · exact .inl hi
    · exact .inr (List.mem_of_getElem? hi)
  have waiter : ∀ {pending : List Ref}, k ∈ pending.map Task.finishReady → r ∈ pending := by
    intro pending hmem
    obtain ⟨r', hr', rfl⟩ := List.mem_map.1 hmem
    rwa [List.mem_singleton.1 hr]
  cases step_tasks h with
  | same ht => exact .inl ⟨i, k, ht ▸ hi, hr⟩
  | @move j k₀ k' hk ht howns hvictims hunload hunasked =>
    rw [ht, Table.get_set hk] at hi
    rcases hi with ⟨rfl, rfl⟩ | ⟨-, hi⟩
    · refine .inl ⟨i, k₀, hk, ?_⟩
      unfold Task.refs at hr ⊢
      rw [List.mem_append] at hr ⊢
      rcases howns with ho | ho <;> rcases hvictims with hv | hv <;> rw [ho, hv] at hr
      · exact hr
      · exact hr.imp_right fun hr => by cases hr
      · exact hr.imp_left fun hr => by cases hr
      · rcases hr with hr | hr <;> cases hr
    · exact .inl ⟨i, k, hi, hr⟩
  | track hq hto ht =>
    rcases added ht with hi | hmem
    · exact .inl ⟨i, k, hi, hr⟩
    · exact .inr (.inl ⟨_, _, hq, List.mem_cons_of_mem _ (hto.refs.2 r (waiter hmem))⟩)
  | install _ _ hto ht =>
    rcases added (by rw [ht]; rfl) with hi | hmem
    · exact .inl ⟨i, k, hi, hr⟩
    · obtain ⟨id, hid, -⟩ := mem_newModels.1 (hto.refs.2 r (waiter hmem))
      exact .inr (.inr ⟨id, by rw [ht]; exact hid⟩)
  | @swap p job victims hd ht =>
    obtain ⟨look, hq, -, -, -, rfl⟩ := decision_eq_some.1 hd
    rcases added (by rw [ht]; rfl) with hi | hmem
    · exact .inl ⟨i, k, hi, hr⟩
    · rw [List.mem_singleton.1 hmem] at hr
      rcases List.mem_cons.1 hr with rfl | hr
      · refine .inr (.inr ⟨job.variant.id, ?_⟩)
        rw [ht]
        exact (Dict.get_insert ..).trans (if_pos rfl)
      · exact .inr (.inl ⟨p, _, hq, List.mem_append_left _ hr⟩)

/-- The variant a request is for was looked up in the catalogue. -/
theorem step_request_variant (h : Step cfg s a t) {p : ℕ} {q : Request} {variant : Variant}
    (hp : t.requests[p]? = some q) (hv : q.variant? = some variant) :
    (∃ q₀ : Request, s.requests[p]? = some q₀ ∧ q₀.variant? = some variant) ∨
      cfg.catalogue.get variant.id = some variant := by
  have other := @Table.origin Request fun q => q.variant? = some variant
  have looked : ∀ {id : String} {v : Variant}, cfg.catalogue.get id = some v →
      cfg.catalogue.get v.id = some v := fun h => by rw [Catalogue.get_id h]; exact h
  have ofJob : ∀ {q₀ : Request} {job : Job}, q₀.job? = some job →
      q₀.variant? = some job.variant := by
    intro q₀ job hj
    cases q₀ <;> cases hj <;> rfl
  have surveyed : ∀ {p₀ : ℕ} {q₀ : Request} {v : Variant} {next : Survey ⊕ Inspection},
      Surveys cfg s p₀ a q₀ v next → q₀.variant? = some v := fun h => by cases h <;> rfl
  cases h with
  | arrive =>
    rcases Table.get_push.1 hp with ⟨-, rfl⟩ | hp
    · cases hv
    · exact .inl ⟨q, hp, hv⟩
  | silent h₀ h =>
    refine other h₀ rfl hp hv fun hin => ?_
    cases h with
    | recheck hid => cases hin; exact .inr (looked hid)
    | survey h => exact .inl ((surveyed h).trans hin)
    | block hjob _ => exact .inl ((ofJob hjob).trans hin)
    | clean | inOrder | list | ask | again | sleep | wake => exact .inl hin
    | unknown | unfit | noTicket | cancelled => cases hin
  | enter h₀ hfrom =>
    refine other h₀ rfl hp hv fun hin => ?_
    obtain rfl := Option.some.inj hin
    rcases hfrom with rfl | ⟨id, rfl, hid⟩
    · exact .inl rfl
    · exact .inr (looked hid)
  | install h₀ hsurvey hto =>
    exact other h₀ rfl hp hv fun hin => .inl ((surveyed hsurvey).trans (hto.variant ▸ hin))
  | baseline h₀ hto => exact other h₀ rfl hp hv fun hin => .inl (hto.variant ▸ hin)
  | busy h₀ | idle h₀ => exact other h₀ rfl hp hv fun hin => .inl hin
  | join h₀ | queue h₀ | quit h₀ | commit h₀ | joined h₀ | unjoin h₀ | release h₀ =>
    exact other h₀ rfl hp hv fun hin => by cases hin
  | tick | task | unloaded | crash | unloadFailed | crashFailed | loadFailed | dropped | gone
  | unsure | baselined => exact .inl ⟨q, hp, hv⟩

/-- A survey in progress is sound. -/
theorem Surveys.sound {p : ℕ} {q : Request} {variant : Variant} {next : Survey ⊕ Inspection}
    (h : Surveys cfg s p a q variant next)
    (hq : ∀ variant i, q = .surveying variant i → i.Sound cfg) :
    Inspection.SoundOr cfg next := by
  cases h with
  | start => exact Inspection.sound_surveyNext (List.nil_append _) (.empty cfg)
  | props => exact Inspection.sound_answerProps (hq _ _ rfl) _
  | states => exact Inspection.sound_answerStates (hq _ _ rfl) _ _

/-- A survey goes on because one of its answers has come. -/
theorem step_surveying (h : Step cfg s a t) {p : ℕ} {variant : Variant} {i : Inspection}
    (hp : t.requests[p]? = some (.surveying variant i)) :
    s.requests[p]? = some (.surveying variant i) ∨
      ∃ q, s.requests[p]? = some q ∧ Surveys cfg s p a q variant (.inr i) := by
  cases h with
  | arrive =>
    rcases Table.get_push.1 hp with ⟨-, heq⟩ | hp
    · cases heq
    · exact .inl hp
  | @silent p₀ _ q₀ q₁ h₀ hsil =>
    rcases (Table.get_set h₀).1 hp with ⟨rfl, heq⟩ | ⟨-, hp⟩
    · cases hsil with
      | survey hs => cases heq; exact .inr ⟨q₀, h₀, hs⟩
      | unknown | recheck | clean | unfit | noTicket | inOrder | block | list | ask | again | sleep
      | wake | cancelled => cases heq
    · exact .inl hp
  | install h₀ _ hto | @baseline _ after _ _ _ _ _ h₀ hto =>
    rcases (Table.get_set h₀).1 hp with ⟨-, heq⟩ | ⟨-, hp⟩
    · rcases hto.shape with rfl | ⟨model, rest, rfl⟩
      · first | cases heq | (cases after <;> cases heq)
      · cases heq
    · exact .inl hp
  | enter h₀ | join h₀ | queue h₀ | quit h₀ | busy h₀ | idle h₀ | commit h₀ | joined h₀ | unjoin h₀
  | release h₀ =>
    rcases (Table.get_set h₀).1 hp with ⟨-, heq⟩ | ⟨-, hp⟩
    · cases heq
    · exact .inl hp
  | tick | task | unloaded | crash | unloadFailed | crashFailed | loadFailed | dropped | gone
  | unsure | baselined => exact .inl hp

/-! ## The invariant -/

/-- Records with one id have one variant. -/
theorem Refs.variant_eq (h : Refs cfg s) {r r' : Ref} (hr : r < s.next) (hr' : r' < s.next)
    (hid : (s.heap r).variant.id = (s.heap r').variant.id) :
    (s.heap r).variant = (s.heap r').variant := by
  have hknown := h.known r hr
  rw [hid, h.known r' hr'] at hknown
  exact (Option.some.inj hknown).symm

theorem Refs.recorded_inj (h : Refs cfg s) {id id' : String} {r : Ref}
    (hr : s.recorded id = some r) (hr' : s.recorded id' = some r) : id = id' := by
  rw [← (h.keyed id r hr).2, ← (h.keyed id' r hr').2]

/-- A stored record is one of the catalogue model. -/
theorem Refs.stored (h : Refs cfg s) {id : String} {r : Ref} (hr : s.recorded id = some r) :
    cfg.catalogue.get id = some (s.heap r).variant := by
  obtain ⟨hlt, hid⟩ := h.keyed id r hr
  rw [← h.known r hlt, hid]

/-- A survey that ends is complete. -/
theorem Refs.complete (h : Refs cfg s) {p : ℕ} {q : Request} {variant : Variant} {found : Survey}
    (hq : s.requests[p]? = some q) (hs : Surveys cfg s p a q variant (.inl found)) :
    found.Complete cfg :=
  hs.sound fun variant i heq => h.sound p variant i (heq ▸ hq)

theorem keyed_installed {found : Survey} (h : Refs cfg s) (hf : found.Complete cfg) {id : String}
    {r : Ref} (hr : (mergeLoaded s found).get id = some r) :
    r < (installed s found).next ∧ ((installed s found).heap r).variant.id = id := by
  rcases mergeLoaded_cases hr with hr | hr
  · obtain ⟨hlt, hid⟩ := h.keyed id r hr
    exact ⟨Nat.lt_add_right _ hlt, by rw [installed_heap, adopt_of_lt hlt, hid]⟩
  · obtain ⟨model, hm⟩ := adoptedRefs_isSome.1 ⟨r, hr⟩
    refine ⟨(adoptedRefs_lt hr).2, ?_⟩
    rw [installed_heap, adopt_of_ref hr hm]
    exact Catalogue.get_id (hf.known id model hm)

/-- No model is given to `track` twice. -/
theorem newModels_nodup_of {found : Survey} (h : Refs cfg s) (hf : found.Complete cfg) :
    (newModels s found).Nodup :=
  newModels_nodup fun id id' r hr hr' => by
    rw [← (keyed_installed h hf hr).2, ← (keyed_installed h hf hr').2]

theorem known_installed {found : Survey} (h : Refs cfg s) (hf : found.Complete cfg) {r : Ref}
    (hr : r < (installed s found).next) :
    cfg.catalogue.get ((installed s found).heap r).variant.id =
      some ((installed s found).heap r).variant := by
  rcases Nat.lt_or_ge r s.next with hlt | hge
  · rw [installed_heap, adopt_of_lt hlt]
    exact h.known r hlt
  · obtain ⟨id, hid⟩ := adopt_of_ge hge hr
    obtain ⟨model, hm⟩ := adoptedRefs_isSome.1 ⟨r, hid⟩
    have hknown := hf.known id model hm
    rw [installed_heap, adopt_of_ref hid hm, Catalogue.get_id hknown]
    exact hknown

/-- The records stored after a step are keyed by their variants. -/
theorem Refs.keyed_step (h : Refs cfg s) (hstep : Step cfg s a t) (id : String) (r : Ref)
    (hr : t.recorded id = some r) : r < t.next ∧ (t.heap r).variant.id = id := by
  cases step_loaded hstep with
  | fewer hl =>
    obtain ⟨hlt, hid⟩ := h.keyed id r (hl id r hr)
    exact ⟨Nat.lt_of_lt_of_le hlt (step_next_le hstep), by rw [step_variant hstep hlt, hid]⟩
  | @commit p job victims hd ht =>
    have hr' : (if id = job.variant.id then some s.next else s.recorded id) = some r := by
      rw [ht] at hr
      exact (Dict.get_insert ..).symm.trans hr
    split_ifs at hr' with hid
    · obtain rfl := Option.some.inj hr'
      rw [ht, hid]
      exact ⟨Nat.lt_succ_self _, by simp [committed, newModel]⟩
    · obtain ⟨hlt, hvar⟩ := h.keyed id r hr'
      exact ⟨Nat.lt_of_lt_of_le hlt (step_next_le hstep), by rw [step_variant hstep hlt, hvar]⟩
  | install hq hs hto ht =>
    rw [ht] at hr ⊢
    exact keyed_installed h (h.complete hq hs) hr

theorem Refs.known_step (h : Refs cfg s) (hstep : Step cfg s a t) (r : Ref) (hr : r < t.next) :
    cfg.catalogue.get (t.heap r).variant.id = some (t.heap r).variant := by
  have old : r < s.next → cfg.catalogue.get (t.heap r).variant.id = some (t.heap r).variant := by
    intro hlt
    rw [step_variant hstep hlt]
    exact h.known r hlt
  cases hstep with
  | install hq hs hto => exact known_installed h (h.complete hq hs) hr
  | @commit p job look hq =>
    rcases Nat.lt_succ_iff_lt_or_eq.1 hr with hlt | rfl
    · exact old hlt
    · have hjob := h.asked p _ job.variant hq rfl
      simpa [committed, newModel] using hjob
  | tick | arrive | silent | enter | baseline | join | queue | quit | busy | idle | joined | unjoin
  | release | task | unloaded | crash | unloadFailed | crashFailed | loadFailed | dropped | gone
  | unsure | baselined => exact old hr

/-- Every step keeps the state well formed. -/
theorem refs_step (h : Refs cfg s) (hstep : Step cfg s a t) : Refs cfg t := by
  have hle := step_next_le hstep
  have hkeyed := h.keyed_step hstep
  have hold : ∀ r, (∃ id, s.recorded id = some r) → r < t.next := fun r ⟨id, hr⟩ =>
    Nat.lt_of_lt_of_le (h.keyed id r hr).1 hle
  refine ⟨hkeyed, h.known_step hstep, ?_, ?_, ?_, ?_⟩
  · intro p q hp r hr
    rcases step_request_refs hstep hp hr with ⟨q₀, hp₀, hr₀⟩ | hr | ⟨id, hr⟩
    · exact Nat.lt_of_lt_of_le (h.request p q₀ hp₀ r hr₀) hle
    · exact hold r hr
    · exact (hkeyed id r hr).1
  · intro i k hi r hr
    rcases step_task_refs hstep hi hr with ⟨j, k₀, hj, hr₀⟩ | ⟨p, q, hp, hr₀⟩ | ⟨id, hr⟩
    · exact Nat.lt_of_lt_of_le (h.task j k₀ hj r hr₀) hle
    · exact Nat.lt_of_lt_of_le (h.request p q hp r hr₀) hle
    · exact (hkeyed id r hr).1
  · intro p q variant hp hv
    rcases step_request_variant hstep hp hv with ⟨q₀, hp₀, hv₀⟩ | hcat
    · exact h.asked p q₀ variant hp₀ hv₀
    · exact hcat
  · intro p variant i hp
    rcases step_surveying hstep hp with hp | ⟨q, hq, hs⟩
    · exact h.sound p variant i hp
    · exact hs.sound fun variant i heq => h.sound p variant i (heq ▸ hq)

/-- The references of the first state are those of the survey's records. -/
theorem initial_lt {now : ℚ} {found : Survey} {id : String} {r : Ref}
    (hr : (adoptedRefs (blank now) found).get id = some r) : r < (initial now found).next := by
  obtain ⟨pending, q, -, heq⟩ := initial_cases now found
  rw [heq]
  exact Nat.lt_of_lt_of_eq (adoptedRefs_lt hr).2 (Nat.zero_add _)

/-- The first background tasks wait for models the servers are loading. -/
theorem initial_tasks {now : ℚ} {found : Survey} {i : ℕ} {k : Task}
    (hi : (initial now found).tasks[i]? = some k) :
    ∃ r id, k = .finishReady r ∧ (initial now found).recorded id = some r := by
  obtain ⟨pending, q, hto, heq⟩ := initial_cases now found
  rw [heq] at hi ⊢
  obtain ⟨r, hr, rfl⟩ := List.mem_map.1 (List.mem_of_getElem? hi)
  obtain ⟨id, hid⟩ := Dict.mem_values.1 (hto.refs.2 r hr)
  exact ⟨r, id, rfl, hid⟩

theorem refs_initial {now : ℚ} {found : Survey} (hf : found.Complete cfg) :
    Refs cfg (initial now found) := by
  have hlt := @initial_lt now found
  obtain ⟨pending, q, hto, heq⟩ := initial_cases now found
  have hvalues : ∀ r ∈ (adoptedRefs (blank now) found).values, r < (initial now found).next := by
    intro r hr
    obtain ⟨id, hid⟩ := Dict.mem_values.1 hr
    exact hlt hid
  have hreq : ∀ (p : ℕ) (q' : Request), (initial now found).requests[p]? = some q' → q' = q := by
    intro p q' hp
    rw [heq] at hp
    cases p with
    | zero => exact (Option.some.inj hp).symm
    | succ p => cases hp
  have hmodel : ∀ (id : String) (r : Ref), (adoptedRefs (blank now) found).get id = some r →
      ∃ model, (initial now found).heap r = model ∧ cfg.catalogue.get id = some model.variant := by
    intro id r hr
    obtain ⟨model, hm⟩ := adoptedRefs_isSome.1 ⟨r, hr⟩
    refine ⟨model, ?_, hf.known id model hm⟩
    rw [heq]
    exact adopt_of_ref hr hm
  refine ⟨?_, ?_, ?_, ?_, ?_, ?_⟩
  · intro id r hr
    have hr' : (adoptedRefs (blank now) found).get id = some r := by rw [heq] at hr; exact hr
    obtain ⟨model, hm, hknown⟩ := hmodel id r hr'
    exact ⟨hlt hr', by rw [hm]; exact Catalogue.get_id hknown⟩
  · intro r hr
    have hr' : r < (blank now).next + found.loaded.entries.length := by
      rw [heq] at hr
      exact Nat.lt_of_lt_of_eq hr (Nat.zero_add _).symm
    obtain ⟨id, hid⟩ := adopt_of_ge (Nat.zero_le r) hr'
    obtain ⟨model, hm, hknown⟩ := hmodel id r hid
    rw [hm, Catalogue.get_id hknown, hknown]
  · intro p q' hp r hr
    rw [hreq p q' hp] at hr
    exact hvalues r (hto.refs.1 r hr)
  · intro i k hi r hr
    have hmem : k ∈ pending.map Task.finishReady := by
      rw [heq] at hi
      exact List.mem_of_getElem? hi
    obtain ⟨r', hr', rfl⟩ := List.mem_map.1 hmem
    rw [List.mem_singleton.1 hr]
    exact hvalues r' (hto.refs.2 r' hr')
  · intro p q' variant hp hv
    rw [hreq p q' hp, hto.variant] at hv
    cases hv
  · intro p variant i hp
    rcases hto.shape with rfl | ⟨model, rest, rfl⟩ <;> cases hreq p _ hp

/-- The state is well formed in every run. -/
theorem refs {ok : State → Act → Prop} (h : (scheduler cfg).Reach ok s) : Refs cfg s := by
  refine invariant_reach ?_ ?_ h
  · intro now found hf
    exact refs_initial hf
  · intro s a t _ hs _ hstep
    exact refs_step hs hstep

end ModelBroker
