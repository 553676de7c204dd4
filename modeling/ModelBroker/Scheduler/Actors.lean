import ModelBroker.Scheduler.Tracking

/-!
# Who moves in a step

An action is about one request, about one background task, or about nobody.

* `step_others`, `task_others`: the other requests and tasks stay where they are.
* `task_origin`: where a task comes from.
* `task_moves`: what a task does with its own action.
* `owned_kept`: nobody else writes the `error` and `ready` of a model that a task
  owns.
-/

namespace ModelBroker

variable {cfg : Config} {s t : State} {a : Act} {p : ℕ}

/-- The request that an action is about. -/
def Act.request? : Act → Option ℕ
  | resume p | props p _ | states p _ | activity p _ | cancel p => some p
  | _ => none

/-- The background task that an action is about. -/
def Act.task? : Act → Option ℕ
  | run i | call i _ | taskStates i _ | taskActivity i _ => some i
  | _ => none

/-! ## Requests -/

theorem join_requests (s : State) (p : ℕ) (r : Ref) :
    ∃ q, (join s p r).requests = s.requests.set p q := by
  unfold join
  split_ifs
  · split <;> exact ⟨_, rfl⟩
  · exact ⟨_, rfl⟩

theorem track_requests (s : State) (p : ℕ) (after : Option Variant) (models : List Ref) :
    ∃ q, (track s p after models).requests = s.requests.set p q := by
  obtain ⟨pending, q, -, heq⟩ := track_cases s p after models
  exact ⟨q, by rw [heq]; rfl⟩

theorem surveyed_requests (s : State) (p : ℕ) (variant : Variant) (next : Survey ⊕ Inspection) :
    ∃ q, (surveyed s p variant next).requests = s.requests.set p q := by
  cases next with
  | inl found => exact track_requests (installed s found) p (some variant) (newModels s found)
  | inr i => exact ⟨_, rfl⟩

theorem resume_requests {q : Request} (h : resume cfg s p q = some t) :
    ∃ q', t.requests = s.requests.set p q' := by
  cases q with
  | arrived id =>
    simp only [resume] at h
    split at h
    · cases h; exact ⟨_, rfl⟩
    · split_ifs at h <;> cases h <;> exact ⟨_, rfl⟩
  | checkLock variant =>
    simp only [resume] at h
    split_ifs at h <;> cases h
    · exact ⟨_, rfl⟩
    · exact surveyed_requests ..
  | checked variant =>
    simp only [resume] at h
    split_ifs at h <;> cases h <;> exact ⟨_, rfl⟩
  | looping job =>
    cases h
    unfold loopHead
    split
    · exact join_requests (s.remove job.ticket) p _
    · split
      · exact ⟨_, rfl⟩
      · split_ifs <;> exact ⟨_, rfl⟩
  | placeLock job =>
    simp only [resume] at h
    split_ifs at h
    cases h
    unfold place
    split
    · split_ifs <;> exact ⟨_, rfl⟩
    · exact ⟨_, rfl⟩
  | judging job look =>
    cases h
    unfold judge
    split
    · split_ifs
      · exact ⟨_, rfl⟩
      · exact ⟨_, rfl⟩
      · rw [commit_eq]
        exact ⟨_, rfl⟩
    · dsimp only
      split_ifs <;> exact ⟨_, rfl⟩
  | blocked job placed =>
    cases h
    unfold afterBlocked
    dsimp only
    split_ifs <;> exact ⟨_, rfl⟩
  | waiting job wake => cases h; exact ⟨_, rfl⟩
  | joining model =>
    simp only [resume] at h
    split_ifs at h
    cases h
    unfold joined
    dsimp only
    split <;> exact ⟨_, rfl⟩
  | admitted model => cases h; exact ⟨_, rfl⟩
  | surveying | tracking | observing | finished => cases h

/-- A request that is cancelled where it is suspended has ended. -/
theorem cancel_requests {q : Request} (h : cancel s p q = some t) :
    t.requests = s.requests.set p (.finished .cancelled) := by
  cases q with
  | tracking after model rest => cases after <;> cases h; rfl
  | arrived | checkLock | surveying | placeLock | observing | waiting | joining | admitted =>
    cases h; rfl
  | checked | looping | judging | blocked | finished => cases h

/-- The background tasks move no request. -/
theorem task_requests (h : step cfg s a = some t) {i : ℕ} (ha : a.task? = some i) :
    t.requests = s.requests := by
  cases a with
  | run i =>
    simp only [step] at h
    split at h <;> cases h <;> rfl
  | call i answer =>
    simp only [step] at h
    split at h <;> cases h
    · unfold unloaded
      split <;> rfl
    · unfold unloadFailed
      dsimp only
      split <;> rfl
    all_goals rfl
  | taskStates i answer =>
    simp only [step] at h
    split at h <;> cases h
    unfold queried
    dsimp only
    split_ifs <;> rfl
  | taskActivity i answer =>
    simp only [step] at h
    split at h <;> cases h
    rfl
  | tick | arrive | resume | props | states | activity | cancel => cases ha

/-- What a step does to the other requests: nothing. -/
theorem step_others (h : step cfg s a = some t) (ha : a.request? ≠ some p) {q : Request}
    (hq : s.requests[p]? = some q) : t.requests[p]? = some q := by
  have moved : ∀ {p' : ℕ}, a.request? = some p' → (∃ q', t.requests = s.requests.set p' q') →
      t.requests[p]? = some q := by
    rintro p' ha' ⟨q', ht⟩
    have hne : p' ≠ p := fun heq => ha (heq ▸ ha')
    rw [ht, List.getElem?_set_ne hne, hq]
  cases a with
  | tick seconds =>
    simp only [step] at h
    split_ifs at h
    cases h
    exact hq
  | arrive id =>
    simp only [step] at h
    split_ifs at h
    cases h
    exact Table.get_of_append hq
  | resume p' =>
    obtain ⟨q', -, hres⟩ := Option.bind_eq_some_iff.1 h
    exact moved rfl (resume_requests hres)
  | cancel p' =>
    obtain ⟨q', -, hres⟩ := Option.bind_eq_some_iff.1 h
    refine moved rfl ?_
    cases q' with
    | tracking after model rest => cases after <;> cases hres; exact ⟨_, rfl⟩
    | arrived | checkLock | surveying | placeLock | observing | waiting | joining | admitted =>
      cases hres; exact ⟨_, rfl⟩
    | checked | looping | judging | blocked | finished => cases hres
  | props p' answer =>
    simp only [step] at h
    split at h
    · split_ifs at h
      cases h
      exact moved rfl (surveyed_requests ..)
    · cases h
  | states p' answer =>
    simp only [step] at h
    split at h
    · obtain ⟨props, -, rfl⟩ := Option.map_eq_some_iff.1 h
      exact moved rfl (surveyed_requests ..)
    · cases h
  | activity p' answer =>
    simp only [step] at h
    split at h
    · cases h
      exact moved rfl (track_requests (s.edit _ _) ..)
    · cases h
      refine moved rfl ?_
      unfold observe
      split
      · exact ⟨_, rfl⟩
      · dsimp only
        split_ifs <;> exact ⟨_, rfl⟩
    · cases h
  | run | call | taskStates | taskActivity => rw [task_requests h rfl, hq]

/-! ## Tasks -/

/-- What a step does to the other tasks: nothing. -/
theorem task_others (h : Step cfg s a t) {i : ℕ} {k : Task} (ha : a.task? ≠ some i)
    (hk : s.tasks[i]? = some k) : t.tasks[i]? = some k := by
  have moved : ∀ {j : ℕ} {k₀ k' : Task}, s.tasks[j]? = some k₀ → a.task? = some j →
      (s.tasks.set j k')[i]? = some k := by
    intro j k₀ k' hj haj
    exact (Table.get_set hj).2 (.inr ⟨fun heq => ha (heq ▸ haj), hk⟩)
  cases h with
  | tick | arrive | silent | enter | join | queue | quit | busy | idle | joined | unjoin
  | release => exact hk
  | install | baseline | commit => exact Table.get_of_append hk
  | task hj h =>
    cases h with
    | start | wait | loaded | awaited => exact moved hj rfl
  | unloaded hj | crash hj | unloadFailed hj | crashFailed hj | loadFailed hj | dropped hj | gone hj
  | unsure hj | baselined hj => exact moved hj rfl

/-- Where a task comes from: it was there, it made the step itself, or it is new. -/
theorem task_origin (h : Step cfg s a t) {i : ℕ} {k : Task} (hi : t.tasks[i]? = some k) :
    s.tasks[i]? = some k ∨ a.task? = some i ∨
      (∃ victims m, k = .swapReady victims m) ∨ ∃ m, k = .finishReady m := by
  have moved : ∀ {j : ℕ} {k₀ k' : Task}, s.tasks[j]? = some k₀ → t.tasks = s.tasks.set j k' →
      j = i ∨ s.tasks[i]? = some k := by
    intro j k₀ k' hj ht
    rw [ht] at hi
    exact ((Table.get_set hj).1 hi).imp (fun h => h.1.symm) And.right
  have waiters : ∀ {pending : List Ref}, t.tasks = s.tasks ++ pending.map .finishReady →
      s.tasks[i]? = some k ∨ ∃ m, k = .finishReady m := by
    intro pending ht
    rw [ht] at hi
    rcases Table.get_append.1 hi with hi | ⟨n, -, hn⟩
    · exact .inl hi
    · obtain ⟨m, -, rfl⟩ := List.mem_map.1 (List.mem_of_getElem? hn)
      exact .inr ⟨m, rfl⟩
  cases h with
  | tick | arrive | silent | enter | join | queue | quit | busy | idle | joined | unjoin | release =>
    exact .inl hi
  | install | baseline => exact (waiters rfl).imp_right fun hm => .inr (.inr hm)
  | commit =>
    rcases Table.get_push.1 hi with ⟨-, rfl⟩ | hi
    · exact .inr (.inr (.inl ⟨_, _, rfl⟩))
    · exact .inl hi
  | task hj h =>
    cases h with
    | start | wait | loaded | awaited =>
      exact (moved hj rfl).elim (fun h => .inr (.inl (congrArg some h))) .inl
  | unloaded hj | crash hj | unloadFailed hj | crashFailed hj | loadFailed hj | dropped hj | gone hj
  | unsure hj | baselined hj =>
    exact (moved hj rfl).elim (fun h => .inr (.inl (congrArg some h))) .inl

/-- What a task does with an action that is its own. -/
inductive TaskMoves (s : State) (i : ℕ) : Task → Act → State → Prop
  | start {victims : List Ref} {model : Ref} :
      TaskMoves s i (.swapReady victims model) (.run i) (s.setTask i (swapNext [] victims model))
  | unloaded {done rest : List Ref} {victim model : Ref} {answer : Unit} :
      TaskMoves s i (.swapUnload done victim rest model) (.call i (.ok answer))
        (unloaded s i done victim rest model)
  | unloadFailed {done rest : List Ref} {victim model : Ref} {error : String} :
      TaskMoves s i (.swapUnload done victim rest model) (.call i (.error error))
        (unloadFailed s i (done ++ victim :: rest) model error)
  | loaded {model : Ref} {answer : Unit} :
      TaskMoves s i (.swapLoad model) (.call i (.ok answer)) (s.setTask i (.loadBaseline model .swap))
  | loadFailed {model : Ref} {error : String} :
      TaskMoves s i (.swapLoad model) (.call i (.error error)) (loadFailed s i model error .swap)
  | wait {model : Ref} : TaskMoves s i (.finishReady model) (.run i) (s.setTask i (.finishWait model))
  | awaited {model : Ref} {answer : Unit} :
      TaskMoves s i (.finishWait model) (.call i (.ok answer))
        (s.setTask i (.loadBaseline model .finishLoad))
  | waitFailed {model : Ref} {error : String} :
      TaskMoves s i (.finishWait model) (.call i (.error error))
        (loadFailed s i model error .finishLoad)
  | queried {model : Ref} {error : String} {loader : Loader}
      {answer : Except String (Dict String ModelState)} :
      TaskMoves s i (.loadQuery model error loader) (.taskStates i answer)
        (queried s i model error loader answer)
  | baselined {model : Ref} {loader : Loader} {answer : Except String ModelActivity} :
      TaskMoves s i (.loadBaseline model loader) (.taskActivity i answer)
        (settle (s.edit [model] fun m => m.withBaseline answer) i model loader)

theorem task_moves (h : step cfg s a = some t) {i : ℕ} (ha : a.task? = some i) :
    ∃ k, s.tasks[i]? = some k ∧ TaskMoves s i k a t := by
  cases a with
  | run j =>
    obtain rfl : j = i := Option.some.inj ha
    simp only [step] at h
    split at h
    · next hk => cases h; exact ⟨_, hk, .start⟩
    · next hk => cases h; exact ⟨_, hk, .wait⟩
    · cases h
  | call j answer =>
    obtain rfl : j = i := Option.some.inj ha
    simp only [step] at h
    split at h
    · next hk => cases h; exact ⟨_, hk, .unloaded⟩
    · next hk => cases h; exact ⟨_, hk, .unloadFailed⟩
    · next hk => cases h; exact ⟨_, hk, .loaded⟩
    · next hk => cases h; exact ⟨_, hk, .loadFailed⟩
    · next hk => cases h; exact ⟨_, hk, .awaited⟩
    · next hk => cases h; exact ⟨_, hk, .waitFailed⟩
    · cases h
  | taskStates j answer =>
    obtain rfl : j = i := Option.some.inj ha
    simp only [step] at h
    split at h
    · next hk => cases h; exact ⟨_, hk, .queried⟩
    · cases h
  | taskActivity j answer =>
    obtain rfl : j = i := Option.some.inj ha
    simp only [step] at h
    split at h
    · next hk => cases h; exact ⟨_, hk, .baselined⟩
    · cases h
  | tick | arrive | resume | props | states | activity | cancel => cases ha

/-- Where a task is after an unload returned. -/
theorem unloaded_get {i : ℕ} {k k' : Task} {done rest : List Ref} {victim model : Ref}
    (hk : s.tasks[i]? = some k) (h : (unloaded s i done victim rest model).tasks[i]? = some k') :
    k' = .crashed ∨ k' = swapNext (done ++ [victim]) rest model := by
  unfold unloaded at h
  split at h
  · exact .inl (Option.some.inj (h.symm.trans (Table.get_set_self hk)))
  · exact .inr (Option.some.inj (h.symm.trans (Table.get_set_self hk)))

/-- Where a task is after an unload failed. -/
theorem unloadFailed_get {i : ℕ} {k k' : Task} {victims : List Ref} {model : Ref} {error : String}
    (hk : s.tasks[i]? = some k) (h : (unloadFailed s i victims model error).tasks[i]? = some k') :
    k' = .crashed ∨ k' = .ended := by
  unfold unloadFailed at h
  dsimp only at h
  split at h
  · exact .inl (Option.some.inj (h.symm.trans (Table.get_set_self hk)))
  · exact .inr (Option.some.inj (h.symm.trans (Table.get_set_self hk)))

/-- After its query `load_failed` ends. -/
theorem queried_get {i : ℕ} {k k' : Task} {model : Ref} {error : String} {loader : Loader}
    {answer : Except String (Dict String ModelState)} (hk : s.tasks[i]? = some k)
    (h : (queried s i model error loader answer).tasks[i]? = some k') : k' = .ended := by
  unfold queried settle at h
  dsimp only at h
  split_ifs at h <;> exact Option.some.inj (h.symm.trans (Table.get_set_self hk))

/-- A model that a task owns is marked ready, and given an error, by that task. -/
theorem owned_kept (hown : Owners s) (h : Step cfg s a t) {i : ℕ} {k : Task} {m : Ref}
    (ha : a.task? ≠ some i) (hk : s.tasks[i]? = some k) (ho : k.owns = some m) (hm : m < s.next) :
    (t.heap m).error = (s.heap m).error ∧ (t.heap m).ready = (s.heap m).ready := by
  -- a task that writes its own model writes another one
  have other : ∀ {j : ℕ} {k' : Task} {m' : Ref}, s.tasks[j]? = some k' → k'.owns = some m' →
      a.task? = some j → m ≠ m' := by
    rintro j k' m' hj ho' haj rfl
    exact ha (hown.unique i j k k' m hk hj ho ho' ▸ haj)
  cases h with
  | @unloadFailed j done rest victim model _ _ hj =>
    have hne := other hj rfl rfl
    simp only [State.setTask_heap, State.edit_heap, State.delete_heap, List.mem_singleton, hne,
      if_false]
    split_ifs <;> exact ⟨rfl, rfl⟩
  | @loadFailed j k' model _ _ hj hfrom =>
    have hne : m ≠ model := by
      refine other hj ?_ rfl
      rcases hfrom with ⟨rfl, -⟩ | ⟨rfl, -⟩ <;> rfl
    simp [hne]
  | dropped hj | gone hj | unsure hj | baselined hj =>
    have hne := other hj rfl rfl
    simp [hne]
  | tick | arrive | silent | enter | install | baseline | join | queue | quit | busy | idle | commit
  | joined | unjoin | release | task | unloaded | crash | crashFailed =>
    simp only [State.goto_heap, State.edit_heap, State.remove_heap, State.delete_heap,
      State.setTask_heap, State.background_heap, enter, installed, adopt_of_lt hm,
      committed_of_lt hm]
    try split_ifs
    all_goals first | exact ⟨rfl, rfl⟩ | simp

end ModelBroker
