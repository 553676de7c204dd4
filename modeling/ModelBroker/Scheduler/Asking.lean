import ModelBroker.Scheduler.Actors
import ModelBroker.Scheduler.Admission
import ModelBroker.Scheduler.Order

/-!
# What requests ask for and are told

A call of `admit(id)` (`scheduler.py`, lines 325–376) goes on being about the model it
names, whatever is in its way.

* `goes`: how a request's own steps take it from one point to the next, and how each
  can end.
* `about_step`: a request that is about an id stays so, and ends with an outcome that
  fits it: an unknown model is not in the catalogue, a failure is that of a load of the
  model, a wait is given a positive time to retry after, and no time can be given only if
  models are protected for ever.
* `swaps_step`: a model is swapped in because a request for it was placed.
-/

namespace ModelBroker

variable {cfg : Config} {s t : State} {a : Act} {p : ℕ}

/-! ## Steps of one request -/

/-- How a request can end. -/
inductive Stops (cfg : Config) (s : State) (a : Act) : Request → Outcome → Prop
  | started {model : Ref} {rest : List Ref} : Stops cfg s a (.tracking none model rest) .started
  | unknown {id : String} (hid : cfg.catalogue.get id = none) :
      Stops cfg s a (.arrived id) (.unknownModel id)
  | unfit {variant : Variant} (hunfit : s.view.problems ≠ []) :
      Stops cfg s a (.checked variant) (.routerUnfit s.view.problems)
  | noTicket {job : Job} (hout : ∀ ticket ∈ s.waiting, ticket.serial ≠ job.ticket.serial) :
      Stops cfg s a (.looping job) .valueError
  | busy {p : ℕ} {job : Job} {placed : Blocked} {retryAfter : ℤ} (ha : a = .resume p)
      (hlasts : placed.untilTime.any (· ≤ (s.now : Seconds)) = false) (hretry : 1 ≤ retryAfter) :
      Stops cfg s a (.blocked job placed) (.resourceBusy placed.reason retryAfter)
  | overflow {job : Job} {placed : Blocked} (huntil : placed.untilTime = some ⊤) :
      Stops cfg s a (.blocked job placed) .overflowError
  | failed {job : Job} {r : Ref} {error : String} (hr : s.recorded job.variant.id = some r)
      (hready : (s.heap r).ready = true) (herror : (s.heap r).error = some error) :
      Stops cfg s a (.looping job) (.loadFailed error)
  | joinFailed {r : Ref} {error : String} (hready : (s.heap r).ready = true)
      (herror : (s.heap r).error = some error) : Stops cfg s a (.joining r) (.loadFailed error)
  | released {p : ℕ} {r : Ref} (ha : a = .resume p) : Stops cfg s a (.admitted r) .released
  | cancelled {p : ℕ} {q : Request} (ha : a = .cancel p) : Stops cfg s a q .cancelled

/-- How a request goes on by a step of its own. -/
inductive Goes (cfg : Config) (s : State) (a : Act) (t : State) : Request → Request → Prop
  | ends {q : Request} {outcome : Outcome} (h : Stops cfg s a q outcome) :
      Goes cfg s a t q (.finished outcome)
  | look {id : String} {variant : Variant} {q' : Request}
      (hid : cfg.catalogue.get id = some variant) (hq' : q'.variant? = some variant) :
      Goes cfg s a t (.arrived id) q'
  | on {q q' : Request} {variant : Variant} (hq : q.variant? = some variant)
      (hq' : q'.variant? = some variant) : Goes cfg s a t q q'
  | start {model model' : Ref} {rest rest' : List Ref} :
      Goes cfg s a t (.tracking none model rest) (.tracking none model' rest')
  | take {q q' : Request} {variant : Variant} {r : Ref} (hq : q.variant? = some variant)
      (hq' : q' = .joining r ∨ q' = .admitted r) (hr : (t.heap r).variant.id = variant.id) :
      Goes cfg s a t q q'
  | enter {r : Ref} : Goes cfg s a t (.joining r) (.admitted r)

section Own

/-- `track` for a request of `admit`. -/
theorem track_goes {q : Request} {s' : State} {variant : Variant} (models : List Ref)
    (hq : s'.requests[p]? = some q) (hv : q.variant? = some variant) :
    ∃ q', (track s' p (some variant) models).requests[p]? = some q' ∧
      Goes cfg s a (track s' p (some variant) models) q q' := by
  obtain ⟨pending, q', hto, heq⟩ := track_cases s' p (some variant) models
  refine ⟨q', ?_, .on hv hto.variant⟩
  rw [heq]
  exact Table.get_set_self hq

theorem surveyed_goes {q : Request} {variant : Variant} {next : Survey ⊕ Inspection}
    (hq : s.requests[p]? = some q) (hv : q.variant? = some variant) :
    ∃ q', (surveyed s p variant next).requests[p]? = some q' ∧
      Goes cfg s a (surveyed s p variant next) q q' := by
  cases next with
  | inl found =>
    exact @track_goes _ _ _ _ _ (installed s found) _ (newModels s found) hq hv
  | inr i => exact ⟨_, Table.get_set_self hq, .on hv rfl⟩

/-- A record that a job finds is one of its model. -/
theorem join_goes {job : Job} {r : Ref} (hrefs : Refs cfg s)
    (hq : s.requests[p]? = some (.looping job)) (hr : s.recorded job.variant.id = some r) :
    ∃ q', (join (s.remove job.ticket) p r).requests[p]? = some q' ∧
      Goes cfg s a (join (s.remove job.ticket) p r) (.looping job) q' := by
  have hid := (hrefs.keyed _ _ hr).2
  unfold join
  simp only [State.remove_heap]
  split_ifs with hready
  · split
    · next error herror => exact ⟨_, Table.get_set_self hq, .ends (.failed hr hready herror)⟩
    · exact ⟨_, Table.get_set_self hq, .take rfl (.inr rfl) (by simpa using hid)⟩
  · exact ⟨_, Table.get_set_self hq, .take rfl (.inl rfl) (by simpa using hid)⟩

theorem loopHead_goes {job : Job} (hrefs : Refs cfg s)
    (hq : s.requests[p]? = some (.looping job)) :
    ∃ q', (loopHead s p job).requests[p]? = some q' ∧
      Goes cfg s a (loopHead s p job) (.looping job) q' := by
  unfold loopHead
  split
  · next r hr => exact join_goes hrefs hq (Option.filter_eq_some_iff.1 hr).1
  · split
    · next hnone =>
      have hout := List.findIdx?_eq_none_iff.1 hnone
      exact ⟨_, Table.get_set_self hq, .ends (.noTicket (by simpa using hout))⟩
    · split_ifs <;> exact ⟨_, Table.get_set_self hq, .on rfl rfl⟩

theorem place_goes {job : Job} (hq : s.requests[p]? = some (.placeLock job)) :
    ∃ q', (place s p job).requests[p]? = some q' ∧ Goes cfg s a (place s p job) (.placeLock job) q' := by
  unfold place
  split
  · split_ifs <;> exact ⟨_, Table.get_set_self hq, .on rfl rfl⟩
  · exact ⟨_, Table.get_set_self hq, .on rfl rfl⟩

theorem judge_goes {job : Job} {look : Look} (hq : s.requests[p]? = some (.judging job look)) :
    ∃ q', (judge s p job look).requests[p]? = some q' ∧
      Goes cfg s a (judge s p job look) (.judging job look) q' := by
  unfold judge
  split
  · split_ifs
    · exact ⟨_, Table.get_set_self hq, .on rfl rfl⟩
    · exact ⟨_, Table.get_set_self hq, .on rfl rfl⟩
    · rw [commit_eq]
      refine ⟨_, Table.get_set_self hq, @Goes.take _ _ _ _ _ _ job.variant _ rfl (.inl rfl) ?_⟩
      simp [committed, newModel]
  · dsimp only
    split_ifs <;> exact ⟨_, Table.get_set_self hq, .on rfl rfl⟩

theorem afterBlocked_goes {job : Job} {placed : Blocked}
    (hq : s.requests[p]? = some (.blocked job placed)) :
    ∃ q', (afterBlocked cfg s p job placed).requests[p]? = some q' ∧
      Goes cfg s (.resume p) (afterBlocked cfg s p job placed) (.blocked job placed) q' := by
  unfold afterBlocked
  dsimp only
  split_ifs with hgone hlate hever
  · exact ⟨_, Table.get_set_self hq, .on rfl rfl⟩
  · have huntil := (Option.filter_eq_some_iff.1 hever).1
    exact ⟨_, Table.get_set_self hq, .ends (.overflow huntil)⟩
  · exact ⟨_, Table.get_set_self hq, .ends (.busy rfl (by simpa using hgone) (le_max_left ..))⟩
  · exact ⟨_, Table.get_set_self hq, .on rfl rfl⟩

theorem joined_goes {r : Ref} (hq : s.requests[p]? = some (.joining r))
    (hready : (s.heap r).ready = true) :
    ∃ q', (joined s p r).requests[p]? = some q' ∧ Goes cfg s a (joined s p r) (.joining r) q' := by
  unfold joined
  simp only [State.edit_heap, List.mem_singleton, if_true]
  split
  · next error herror => exact ⟨_, Table.get_set_self hq, .ends (.joinFailed hready herror)⟩
  · exact ⟨_, Table.get_set_self hq, .enter⟩

theorem resume_goes (hrefs : Refs cfg s) {q : Request} (hq : s.requests[p]? = some q)
    (h : resume cfg s p q = some t) :
    ∃ q', t.requests[p]? = some q' ∧ Goes cfg s (.resume p) t q q' := by
  cases q with
  | arrived id =>
    simp only [resume] at h
    split at h
    · next hid => cases h; exact ⟨_, Table.get_set_self hq, .ends (.unknown hid)⟩
    · next variant hid =>
      split_ifs at h <;> cases h <;> exact ⟨_, Table.get_set_self hq, .look hid rfl⟩
  | checkLock variant =>
    simp only [resume] at h
    split_ifs at h <;> cases h
    · exact ⟨_, Table.get_set_self hq, .on rfl rfl⟩
    · exact surveyed_goes hq rfl
  | checked variant =>
    simp only [resume] at h
    split_ifs at h with hfit <;> cases h
    · exact ⟨_, Table.get_set_self hq, .on rfl rfl⟩
    · exact ⟨_, Table.get_set_self hq, .ends (.unfit hfit)⟩
  | looping job => cases h; exact loopHead_goes hrefs hq
  | placeLock job =>
    simp only [resume] at h
    split_ifs at h
    cases h
    exact place_goes hq
  | judging job look => cases h; exact judge_goes hq
  | blocked job placed => cases h; exact afterBlocked_goes hq
  | waiting job wake => cases h; exact ⟨_, Table.get_set_self hq, .on rfl rfl⟩
  | joining model =>
    simp only [resume] at h
    split_ifs at h with hready
    cases h
    exact joined_goes hq hready
  | admitted model => cases h; exact ⟨_, Table.get_set_self hq, .ends (.released rfl)⟩
  | surveying | tracking | observing | finished => cases h

theorem cancel_goes {q : Request} (hq : s.requests[p]? = some q) (h : cancel s p q = some t) :
    ∃ q', t.requests[p]? = some q' ∧ Goes cfg s (.cancel p) t q q' := by
  refine ⟨_, ?_, .ends (.cancelled rfl)⟩
  rw [cancel_requests h]
  exact Table.get_set_self hq

theorem observe_goes {job : Job} {look : Look} {model : Ref} (answer : Except String ModelActivity)
    (hq : s.requests[p]? = some (.observing job look model)) :
    ∃ q', (observe cfg s p job look model answer).requests[p]? = some q' ∧
      Goes cfg s a (observe cfg s p job look model answer) (.observing job look model) q' := by
  unfold observe
  split
  · exact ⟨_, Table.get_set_self hq, .on rfl rfl⟩
  · dsimp only
    split_ifs <;> exact ⟨_, Table.get_set_self hq, .on rfl rfl⟩

/-- What a request's own step does to it. -/
theorem goes (hrefs : Refs cfg s) (h : step cfg s a = some t) (ha : a.request? = some p)
    {q : Request} (hq : s.requests[p]? = some q) :
    ∃ q', t.requests[p]? = some q' ∧ Goes cfg s a t q q' := by
  cases a with
  | resume p' =>
    cases ha
    simp only [step, hq, Option.bind_some] at h
    exact resume_goes hrefs hq h
  | cancel p' =>
    cases ha
    simp only [step, hq, Option.bind_some] at h
    exact cancel_goes hq h
  | props p' answer =>
    cases ha
    simp only [step, hq] at h
    split at h
    · next heq =>
      cases heq
      split_ifs at h
      cases h
      exact surveyed_goes hq rfl
    · cases h
  | states p' answer =>
    cases ha
    simp only [step, hq] at h
    split at h
    · next heq =>
      cases heq
      obtain ⟨props, -, rfl⟩ := Option.map_eq_some_iff.1 h
      exact surveyed_goes hq rfl
    · cases h
  | activity p' answer =>
    cases ha
    simp only [step, hq] at h
    split at h
    · next after model rest heq =>
      cases heq
      cases h
      cases after with
      | some variant =>
        exact @track_goes _ _ _ _ _ (s.edit [model] fun m => m.withBaseline answer) _ rest hq rfl
      | none =>
        obtain ⟨pending, q', hto, heq⟩ :=
          track_cases (s.edit [model] fun m => m.withBaseline answer) p none rest
        refine ⟨q', by rw [heq]; exact Table.get_set_self hq, ?_⟩
        cases hto with
        | done => exact .ends .started
        | ask => exact .start
    · next heq => cases heq; cases h; exact observe_goes answer hq
    · cases h
  | tick | arrive | run | call | taskStates | taskActivity => cases ha

end Own

/-- The request of `start()` is at no other point. -/
theorem isStart_cases {q : Request} (h : q.isStart = true) :
    ∃ model rest, q = .tracking none model rest := by
  cases q with
  | tracking after model rest =>
    cases after with
    | none => exact ⟨model, rest, rfl⟩
    | some variant => cases h
  | arrived | checkLock | surveying | checked | looping | placeLock | judging | observing | blocked
  | waiting | joining | admitted | finished => cases h

/-- A request of `start()` was one before. -/
theorem Goes.isStart {q q' : Request} (h : Goes cfg s a t q q') (hq' : q'.isStart = true) :
    q.isStart = true := by
  obtain ⟨model, rest, rfl⟩ := isStart_cases hq'
  cases h with
  | start => rfl
  | look hid hv | on hq hv => cases hv
  | take hv heq => rcases heq with heq | heq <;> cases heq

/-- A request that has ended has ended. -/
theorem finished_kept {outcome : Outcome} (h : step cfg s a = some t)
    (hp : s.requests[p]? = some (.finished outcome)) : t.requests[p]? = some (.finished outcome) := by
  by_cases hown : a.request? = some p
  · cases a with
    | resume p' => cases hown; simp [step, hp, resume] at h
    | cancel p' => cases hown; simp [step, hp, cancel] at h
    | props p' | states p' | activity p' =>
      cases hown
      simp [step, hp] at h
    | tick | arrive | run | call | taskStates | taskActivity => cases hown
  · exact step_others h hown hp

/-- Only an arrival adds a request. -/
theorem requests_length (h : Step cfg s a t) :
    t.requests.length = s.requests.length ∨
      ∃ id, a = .arrive id ∧ t.requests = s.requests ++ [.arrived id] := by
  cases h with
  | arrive => exact .inr ⟨_, rfl, rfl⟩
  | tick | task | unloaded | crash | unloadFailed | crashFailed | loadFailed | dropped | gone
  | unsure | baselined => exact .inl rfl
  | silent | enter | install | baseline | join | queue | quit | busy | idle | commit | joined
  | unjoin | release => exact .inl (List.length_set ..)

theorem requests_length_eq (h : step cfg s a = some t)
    (hnew : ∀ id, a ≠ .arrive id) : t.requests.length = s.requests.length := by
  rcases requests_length (step_cases h) with heq | ⟨id, heq, -⟩
  · exact heq
  · exact absurd heq (hnew id)

/-- There is always the request of `start()`. -/
theorem requests_pos (h : (scheduler cfg).Free s) : 0 < s.requests.length := by
  refine h.invariant (I := fun s => 0 < s.requests.length) ?_ ?_
  · rintro s ⟨earlier, now, answer, -, rfl⟩
    obtain ⟨pending, q, -, heq⟩ := initial_cases now (survey cfg earlier answer)
    simp [heq, booted, blank]
  · intro s a t _ hpos _ hstep
    rcases requests_length (step_cases hstep) with heq | ⟨id, -, heq⟩
    · exact Nat.lt_of_lt_of_eq hpos heq.symm
    · rw [heq, List.length_append]
      exact Nat.lt_add_right _ hpos

/-- The first request is that of `start()`. -/
theorem first_start (h : (scheduler cfg).Free s) {q : Request} (hq : s.requests[0]? = some q) :
    q.isStart = true ∨ ∃ outcome, q = .finished outcome := by
  revert q
  refine h.invariant (I := fun s => ∀ {q : Request}, s.requests[0]? = some q →
    q.isStart = true ∨ ∃ outcome, q = .finished outcome) ?_ ?_
  · rintro s ⟨earlier, now, answer, -, rfl⟩ q hq
    rcases (initial_requests hq).2 with rfl | ⟨model, rest, rfl⟩
    · exact .inr ⟨_, rfl⟩
    · exact .inl rfl
  · intro s a t hs hfirst _ hstep q' hq'
    cases hq : s.requests[0]? with
    | none =>
      rw [List.getElem?_eq_none_iff, Nat.le_zero] at hq
      exact absurd hq (Nat.pos_iff_ne_zero.1 (requests_pos hs))
    | some q =>
      rcases hfirst hq with hstart | ⟨outcome, rfl⟩
      · by_cases ha : a.request? = some 0
        · obtain ⟨q₁, hq₁, hgoes⟩ := goes (inv hs).refs hstep ha hq
          obtain rfl : q₁ = q' := by rw [hq'] at hq₁; exact (Option.some.inj hq₁).symm
          obtain ⟨model, rest, rfl⟩ := isStart_cases hstart
          cases hgoes with
          | ends => exact .inr ⟨_, rfl⟩
          | start => exact .inl rfl
          | on hv | take hv => cases hv
        · rw [step_others hstep ha hq] at hq'
          exact .inl (Option.some.inj hq' ▸ hstart)
      · rw [finished_kept hstep hq] at hq'
        exact .inr ⟨outcome, (Option.some.inj hq').symm⟩

/-- A scheduler that has started goes on so. -/
theorem started_kept (hrefs : Refs cfg s) (h : step cfg s a = some t) (hs : s.started = true) :
    t.started = true := by
  simp only [State.started, List.all_eq_true, Bool.not_eq_true'] at hs ⊢
  intro q' hmem
  obtain ⟨p, hq'⟩ := List.mem_iff_getElem?.1 hmem
  rw [Bool.eq_false_iff]
  intro hstart
  cases hq : s.requests[p]? with
  | none =>
    rcases requests_length (step_cases h) with hlength | ⟨id, -, hrequests⟩
    · have hlt := Table.lt_length hq'
      rw [hlength] at hlt
      exact absurd hlt (Nat.not_lt.2 (List.getElem?_eq_none_iff.1 hq))
    · rw [hrequests] at hq'
      rcases Table.get_push.1 hq' with ⟨-, rfl⟩ | hq'
      · cases hstart
      · rw [hq] at hq'
        cases hq'
  | some q =>
    have hbefore := hs q (List.mem_of_getElem? hq)
    by_cases ha : a.request? = some p
    · obtain ⟨q₁, hq₁, hgoes⟩ := goes hrefs h ha hq
      obtain rfl : q₁ = q' := Option.some.inj (hq₁.symm.trans hq')
      rw [hgoes.isStart hstart] at hbefore
      cases hbefore
    · rw [step_others h ha hq] at hq'
      obtain rfl := Option.some.inj hq'
      rw [hstart] at hbefore
      cases hbefore

/-! ## Windows without end -/

/-- The request has found a protection window that never ends. -/
def Request.endless : Request → Bool
  | .judging _ look | .observing _ look _ => look.untilTime = ⊤
  | .blocked _ placed => placed.untilTime = some ⊤
  | _ => false

theorem Request.job_of_endless {q : Request} (h : q.endless = true) : ∃ job, q.job? = some job := by
  cases q <;> first | exact ⟨_, rfl⟩ | cases h

/-- A silent step finds no such window. -/
theorem Silent.endless {q q' : Request} (h : Silent cfg s p a q q') (hend : q'.endless = true) :
    q.endless = true := by
  cases h with
  | block _ hplaced =>
    obtain ⟨job, look, rfl, hlook⟩ := hplaced.ends (of_decide_eq_true hend)
    exact decide_eq_true hlook
  | list => simp [Request.endless] at hend
  | ask => exact hend
  | unknown | recheck | clean | survey | unfit | noTicket | inOrder | again | sleep | wake
  | cancelled => cases hend

/-- A window without end has been found before, or models are protected for ever. -/
theorem step_endless (h : Step cfg s a t) {q : Request} (hp : t.requests[p]? = some q)
    (hend : q.endless = true) :
    (∃ q₀, s.requests[p]? = some q₀ ∧ q₀.endless = true) ∨ cfg.protectSeconds = ⊤ := by
  obtain ⟨job, hj⟩ := Request.job_of_endless hend
  cases step_job h hp hj with
  | same hp => exact .inl ⟨q, hp, hend⟩
  | head => cases hend
  | silent h₀ hsil => exact .inl ⟨_, h₀, hsil.endless hend⟩
  | busy h₀ hplaced =>
    obtain ⟨job, look, heq, -⟩ := hplaced.ends (of_decide_eq_true hend)
    cases heq
  | idle h₀ _ _ heq =>
    subst heq
    unfold judged Look.protect at hend
    split_ifs at hend
    · exact .inr (by simpa [Request.endless] using hend)
    · exact .inl ⟨_, h₀, hend⟩

/-- If a request has found a window without end, then models are protected for ever. -/
def Bounded (cfg : Config) (s : State) : Prop :=
  ∀ (p : ℕ) (q : Request), s.requests[p]? = some q → q.endless = true → cfg.protectSeconds = ⊤

theorem bounded_step (hs : Bounded cfg s) (h : Step cfg s a t) : Bounded cfg t := by
  intro p q hq hend
  rcases step_endless h hq hend with ⟨q₀, hq₀, hend₀⟩ | htop
  · exact hs p q₀ hq₀ hend₀
  · exact htop

/-- In every run a window without end is found only if models are protected for ever. -/
theorem bounded (h : (scheduler cfg).Free s) : Bounded cfg s := by
  refine h.invariant (I := Bounded cfg) ?_ ?_
  · rintro s ⟨earlier, now, answer, -, rfl⟩ p q hq hend
    rcases (initial_requests hq).2 with rfl | ⟨model, rest, rfl⟩ <;> cases hend
  · intro s a t _ hs _ hstep
    exact bounded_step hs (step_cases hstep)

/-! ## What a request is about -/

/-- The outcome fits a request for this id. -/
def Outcome.Fits (cfg : Config) (heap : Ref → LoadedModel) (next : Ref) (id : String) :
    Outcome → Prop
  | .unknownModel asked => asked = id ∧ cfg.catalogue.get id = none
  | .routerUnfit problems => (cfg.catalogue.get id).isSome ∧ problems ≠ []
  | .resourceBusy _ retryAfter => (cfg.catalogue.get id).isSome ∧ 1 ≤ retryAfter
  | .loadFailed error => (cfg.catalogue.get id).isSome ∧ ∃ r < next, (heap r).variant.id = id ∧
      (heap r).ready = true ∧ (heap r).error = some error
  | .released => (cfg.catalogue.get id).isSome
  | .cancelled => True
  | .overflowError => (cfg.catalogue.get id).isSome ∧ cfg.protectSeconds = ⊤
  | .started | .valueError => False

/-- The request is about the model of this id. -/
def Request.About (cfg : Config) (s : State) (id : String) (q : Request) : Prop :=
  match q with
  | .arrived asked => asked = id
  | .joining r | .admitted r => (s.heap r).variant.id = id
  | .finished outcome => outcome.Fits cfg s.heap s.next id
  | q => ∃ variant, q.variant? = some variant ∧ variant.id = id

theorem Request.about_iff {id : String} {q : Request} {variant : Variant}
    (hq : q.variant? = some variant) : q.About cfg s id ↔ variant.id = id := by
  have hany : (∃ v, q.variant? = some v ∧ v.id = id) ↔ variant.id = id := by simp [hq]
  cases q with
  | arrived | joining | admitted | finished => cases hq
  | checkLock | surveying | tracking | checked | looping | placeLock | judging | observing | blocked
  | waiting => exact hany

/-- What a failed load leaves behind stays. -/
theorem Outcome.Fits.step {id : String} {outcome : Outcome} (hinv : Inv cfg s)
    (hstep : Step cfg s a t) (h : outcome.Fits cfg s.heap s.next id) :
    outcome.Fits cfg t.heap t.next id := by
  cases outcome with
  | loadFailed error =>
    obtain ⟨hknown, r, hr, hid, hready, herror⟩ := h
    refine ⟨hknown, r, Nat.lt_of_lt_of_le hr (step_next_le hstep), ?_, ?_, ?_⟩
    · rw [step_variant hstep hr, hid]
    · exact step_ready_mono hstep hr hready
    · rw [hinv.error_of_ready hstep hr hready, herror]
  | started | released | unknownModel | routerUnfit | resourceBusy | cancelled | valueError
  | overflowError => exact h

/-- A request of another's step. -/
theorem Request.About.frame {id : String} {q : Request} (hinv : Inv cfg s)
    (hq : s.requests[p]? = some q) (hstep : Step cfg s a t) (h : q.About cfg s id) :
    q.About cfg t id := by
  cases q with
  | joining r | admitted r =>
    have hr : r < s.next := hinv.refs.request p _ hq r (List.mem_singleton_self r)
    show (t.heap r).variant.id = id
    rw [step_variant hstep hr]
    exact h
  | finished outcome => exact Outcome.Fits.step hinv hstep h
  | arrived | checkLock | surveying | tracking | checked | looping | placeLock | judging | observing
  | blocked | waiting => exact h

/-- An end fits what the request is about. -/
theorem Stops.fits {id : String} {q : Request} {outcome : Outcome} (hinv : Inv cfg s)
    (hqueue : Queue s) (hbounded : Bounded cfg s) (hq : s.requests[p]? = some q)
    (h : q.About cfg s id) (hends : Stops cfg s a q outcome) :
    outcome.Fits cfg s.heap s.next id := by
  have known : ∀ {variant : Variant}, q.variant? = some variant →
      variant.id = id ∧ (cfg.catalogue.get id).isSome := by
    intro variant hv
    have hid := (Request.about_iff hv).1 h
    refine ⟨hid, ?_⟩
    rw [← hid, hinv.refs.asked p q variant hq hv]
    rfl
  have stored : ∀ {r : Ref}, r < s.next → (s.heap r).variant.id = id →
      (cfg.catalogue.get id).isSome := by
    intro r hr hid
    rw [← hid, hinv.refs.known r hr]
    rfl
  cases hends with
  | started =>
    obtain ⟨variant, hv, -⟩ := h
    cases hv
  | unknown hid => exact ⟨h, h ▸ hid⟩
  | unfit hunfit => exact ⟨(known rfl).2, hunfit⟩
  | @noTicket job hout => exact absurd rfl (hout _ (hqueue.queued p _ job hq rfl))
  | busy _ _ hretry => exact ⟨(known rfl).2, hretry⟩
  | overflow huntil => exact ⟨(known rfl).2, hbounded p _ hq (decide_eq_true huntil)⟩
  | @failed job r error hr hready herror =>
    obtain ⟨hid, hknown⟩ := known rfl
    obtain ⟨hlt, hvariant⟩ := hinv.refs.keyed _ _ hr
    exact ⟨hknown, r, hlt, hvariant.trans hid, hready, herror⟩
  | @joinFailed r error hready herror =>
    have hlt := hinv.refs.joining_lt hq
    exact ⟨stored hlt h, r, hlt, h, hready, herror⟩
  | @released _ r => exact stored (hinv.refs.admitted_lt hq) h
  | cancelled => trivial

/-- A request goes on being about its id, in its own steps and in those of others. -/
theorem about_step {id : String} {q : Request} (hinv : Inv cfg s) (hqueue : Queue s)
    (hbounded : Bounded cfg s) (h : step cfg s a = some t) (hq : s.requests[p]? = some q)
    (habout : q.About cfg s id) :
    ∃ q', t.requests[p]? = some q' ∧ q'.About cfg t id := by
  have hstep := step_cases h
  by_cases ha : a.request? = some p
  · obtain ⟨q', hq', hgoes⟩ := goes hinv.refs h ha hq
    refine ⟨q', hq', ?_⟩
    cases hgoes with
    | ends hends => exact (hends.fits hinv hqueue hbounded hq habout).step hinv hstep
    | look hid hv =>
      obtain rfl : _ = id := habout
      exact (Request.about_iff hv).2 (Catalogue.get_id hid)
    | on hv hv' => exact (Request.about_iff hv').2 ((Request.about_iff hv).1 habout)
    | start =>
      obtain ⟨variant, hv, -⟩ := habout
      cases hv
    | take hv hq' hr =>
      have hid := (Request.about_iff hv).1 habout
      rcases hq' with rfl | rfl <;> exact hr.trans hid
    | @enter r =>
      show (t.heap r).variant.id = id
      rw [step_variant hstep (hinv.refs.joining_lt hq)]
      exact habout
  · exact ⟨q, step_others h ha hq, habout.frame hinv hq hstep⟩

/-! ## What is swapped in -/

/-- The model a swap has still to load, or is loading. -/
def Task.swaps : Task → Option Ref
  | .swapReady _ model | .swapUnload _ _ _ model | .swapLoad model => some model
  | _ => none

/-- A swap is owned by its task. -/
theorem Task.owns_of_swaps {k : Task} {r : Ref} (h : k.swaps = some r) : k.owns = some r := by
  cases k with
  | swapReady | swapUnload | swapLoad => exact h
  | finishReady | finishWait | loadQuery | loadBaseline | ended | crashed => cases h

theorem swaps_swapNext (done rest : List Ref) (model : Ref) :
    (swapNext done rest model).swaps = some model := by
  cases rest <;> rfl

/-- A swap goes on, or comes from a decision for its model. -/
theorem swaps_step (h : Step cfg s a t) {i : ℕ} {k : Task} {r : Ref} (hi : t.tasks[i]? = some k)
    (hk : k.swaps = some r) :
    (∃ (i' : ℕ) (k' : Task), s.tasks[i']? = some k' ∧ k'.swaps = some r) ∨
      ∃ p job victims, s.decision p = some (job, victims) ∧ t = committed s p job victims ∧
        r = s.next := by
  have moved : ∀ {j : ℕ} {k₀ k' : Task}, s.tasks[j]? = some k₀ → t.tasks = s.tasks.set j k' →
      (k'.swaps = some r → k₀.swaps = some r) →
      ∃ (i' : ℕ) (k' : Task), s.tasks[i']? = some k' ∧ k'.swaps = some r := by
    intro j k₀ k' hj ht himp
    rw [ht] at hi
    rcases (Table.get_set hj).1 hi with ⟨-, rfl⟩ | ⟨-, hi⟩
    · exact ⟨j, k₀, hj, himp hk⟩
    · exact ⟨i, k, hi, hk⟩
  have waiters : ∀ {pending : List Ref}, t.tasks = s.tasks ++ pending.map .finishReady →
      ∃ (i' : ℕ) (k' : Task), s.tasks[i']? = some k' ∧ k'.swaps = some r := by
    intro pending ht
    rw [ht] at hi
    rcases Table.get_append.1 hi with hi | ⟨n, -, hn⟩
    · exact ⟨i, k, hi, hk⟩
    · obtain ⟨m, -, rfl⟩ := List.mem_map.1 (List.mem_of_getElem? hn)
      cases hk
  cases h with
  | tick | arrive | silent | enter | join | queue | quit | busy | idle | joined | unjoin | release =>
    exact .inl ⟨i, k, hi, hk⟩
  | install | baseline => exact .inl (waiters rfl)
  | @commit p job look hq hrest hreason hidle =>
    rcases Table.get_push.1 hi with ⟨-, rfl⟩ | hi
    · refine .inr ⟨p, job, look.seen, ?_, rfl, (Option.some.inj hk).symm⟩
      exact decision_eq_some.2 ⟨look, hq, hrest, hreason, hidle, rfl⟩
    · exact .inl ⟨i, k, hi, hk⟩
  | task hj h =>
    cases h with
    | start => exact .inl (moved hj rfl fun hs => (swaps_swapNext ..).symm.trans hs)
    | wait | loaded | awaited => exact .inl (moved hj rfl nofun)
  | unloaded hj => exact .inl (moved hj rfl fun hs => (swaps_swapNext ..).symm.trans hs)
  | crash hj | unloadFailed hj | crashFailed hj | loadFailed hj | dropped hj | gone hj | unsure hj
  | baselined hj => exact .inl (moved hj rfl nofun)

end ModelBroker
