import ModelBroker.Scheduler.Swap

/-!
# Requests for one model share its load

Any number of requests for a model that is not loaded may pass through `place`,
find its record in `loaded` or wait in `join` (`scheduler.py`, lines 355–362 and
419–466). A ledger next to the scheduler counts the calls of `load` for each
model since a record of it was added, and keeps how each record's load ended and
with what each waiting request left `join`.

* `load_shared`: in every run without a re-inspection, `load` is called at most
  once while a record is in `loaded`; no second record or swap is made for the
  model meanwhile; and all requests that leave `join` after waiting for a record
  end as its load did.
-/

namespace ModelBroker

variable {cfg : Config} {s t : State} {a : Act} {p i : ℕ} {m r : Ref}

/-! ## The ledger -/

/-- The calls of `load` for each model since a record of it was last added; how
    the load behind each record ended, with its error; and the requests that left
    `join` after waiting, with the record and the error they were given. -/
structure Ledger where
  loads : String → ℕ
  outcome : Ref → Option (Option String)
  ends : List (ℕ × Ref × Option String)

/-- The model of which a decision adds a record (line 463). -/
def State.adds (s : State) : Act → Option String
  | .resume p => (s.decision p).map fun d => d.1.variant.id
  | _ => none

/-- The model whose `load` a task calls in this step (line 495). -/
def State.calls (s : State) (a : Act) (t : State) : Option Ref :=
  a.task?.bind fun i =>
    match t.tasks[i]? with
    | some (.swapLoad model) => if s.tasks[i]?.any Task.awaitsLoad then none else some model
    | _ => none

/-- The record whose load ends in this step: an unload before it failed, or
    `load` or `wait_for_state` returned or raised. -/
def State.settles (s : State) : Act → Option (Ref × Option String)
  | .call i answer =>
    match s.tasks[i]?, answer with
    | some (.swapUnload _ _ _ model), .error error => some (model, some error)
    | some (.swapLoad model), .ok _ | some (.finishWait model), .ok _ => some (model, none)
    | some (.swapLoad model), .error error | some (.finishWait model), .error error =>
      some (model, some error)
    | _, _ => none
  | _ => none

/-- The request that leaves `join` after waiting, with its record and what it is
    given: an admission, or `LoadFailed` with an error. -/
def State.leaves (s : State) (a : Act) (t : State) : Option (ℕ × Ref × Option String) :=
  match a with
  | .resume p =>
    match s.requests[p]?, t.requests[p]? with
    | some (.joining model), some (.admitted _) => some (p, model, none)
    | some (.joining model), some (.finished (.loadFailed error)) => some (p, model, some error)
    | _, _ => none
  | _ => none

/-- What a step adds to the ledger. -/
def Ledger.note (w : Ledger) (s : State) (a : Act) (t : State) : Ledger where
  loads id :=
    if s.adds a = some id then 0
    else if (s.calls a t).any fun model => (s.heap model).variant.id = id then w.loads id + 1
    else w.loads id
  outcome r := ((s.settles a).bind fun e => if e.1 = r then some e.2 else none) <|> w.outcome r
  ends := (s.leaves a t).toList ++ w.ends

/-- The ledger as an environment. -/
def noting : Env State Act Ledger Empty := .history fun s a t w => w.note s a t

/-- The scheduler with an empty ledger. -/
def ledgered (cfg : Config) : System (State × Ledger) (Act ⊕ Empty) :=
  (scheduler cfg).under noting fun _ w => w = ⟨fun _ => 0, fun _ => none, []⟩

/-- Nobody starts a re-inspection. -/
def unsurveyed (x : State × Ledger) : Act ⊕ Empty → Bool
  | .inl a => uninspected x.1 a
  | .inr _ => true

/-! ## What the ledger knows -/

/-- A record that is not ready has no error yet, unless its failed load is being
    looked into. -/
def Unfailed (s : State) : Prop :=
  ∀ r < s.next, (s.heap r).ready = false → (s.heap r).error = none ∨
    ∃ (i : ℕ) (error : String) (loader : Loader),
      s.tasks[i]? = some (.loadQuery r error loader) ∧ (s.heap r).error = some error

/-- The record whose load has ended, with its error, for a task that has not yet
    marked it ready. -/
def Task.ending : Task → Option (Ref × Option String)
  | loadBaseline model _ => some (model, none)
  | loadQuery model error _ => some (model, some error)
  | _ => none

/-- The ledger agrees with the records. -/
structure Shared (s : State) (w : Ledger) : Prop where
  unfailed : Unfailed s
  asked : ∀ (i : ℕ) (k : Task) (m : Ref), s.tasks[i]? = some k → k.unasked = some m →
    w.loads (s.heap m).variant.id = 0
  once : ∀ (id : String) (r : Ref), s.recorded id = some r → w.loads id ≤ 1
  ending : ∀ (i : ℕ) (k : Task) (m : Ref) (error : Option String), s.tasks[i]? = some k →
    k.ending = some (m, error) → w.outcome m = some error
  waits : ∀ (p : ℕ) (r : Ref), s.requests[p]? = some (.joining r) → (s.heap r).ready = true →
    w.outcome r = some (s.heap r).error
  ends : ∀ (p : ℕ) (r : Ref) (error : Option String), (p, r, error) ∈ w.ends → r < s.next ∧
    (s.heap r).ready = true ∧ (s.heap r).error = error ∧ w.outcome r = some error

/-! ## Calls of `load` -/

/-- A call of `load` is made by a swap that has not made it before. -/
theorem calls_eq_some (hstep : step cfg s a = some t) (h : s.calls a t = some m) :
    ∃ (i : ℕ) (k : Task), a.task? = some i ∧ s.tasks[i]? = some k ∧ k.unasked = some m ∧
      t.tasks[i]? = some (.swapLoad m) := by
  unfold State.calls at h
  obtain ⟨i, ha, h⟩ := Option.bind_eq_some_iff.1 h
  split at h
  · next model ht =>
    split_ifs at h with hs
    obtain rfl := Option.some.inj h
    obtain ⟨k, hk, hmoves⟩ := task_moves hstep ha
    refine ⟨i, k, ha, hk, ?_, ht⟩
    rw [hk] at hs
    -- the task as its step leaves it
    have moved : ∀ {k' : Task}, t.tasks = s.tasks.set i k' → k' = .swapLoad model := by
      intro k' htasks
      rw [htasks, Table.get_set_self hk] at ht
      exact Option.some.inj ht
    cases hmoves with
    | @start victims m' =>
      have hnext := moved rfl
      cases victims with
      | nil => cases hnext; rfl
      | cons => cases hnext
    | @unloaded done rest victim m' =>
      rcases unloaded_get hk ht with hnext | hnext
      · cases hnext
      · cases rest with
        | nil => cases hnext; rfl
        | cons => cases hnext
    | unloadFailed => rcases unloadFailed_get hk ht with hnext | hnext <;> cases hnext
    | queried => cases queried_get hk ht
    | loaded | loadFailed => exact absurd rfl hs
    | wait | awaited | waitFailed | baselined =>
      have hnext := moved rfl
      cases hnext
  · cases h

/-- Only the calls of `load` for a model and its decisions change its count. -/
theorem note_loads {w : Ledger} {id : String} (hadds : s.adds a ≠ some id)
    (hcalls : ∀ m, s.calls a t = some m → (s.heap m).variant.id ≠ id) :
    (w.note s a t).loads id = w.loads id := by
  unfold Ledger.note
  dsimp only
  rw [if_neg hadds, if_neg]
  intro hany
  obtain ⟨m, hm, hid⟩ := (Option.any_eq_true ..).1 hany
  exact hcalls m hm (of_decide_eq_true hid)

/-- The first call of `load` after a decision is counted as one. -/
theorem note_loads_le {w : Ledger} {id : String}
    (hcalls : ∀ m, s.calls a t = some m → (s.heap m).variant.id = id → w.loads id = 0)
    (hw : w.loads id ≤ 1) : (w.note s a t).loads id ≤ 1 := by
  unfold Ledger.note
  dsimp only
  split_ifs with hadds hany
  · exact Nat.zero_le 1
  · obtain ⟨m, hm, hid⟩ := (Option.any_eq_true ..).1 hany
    rw [hcalls m hm (of_decide_eq_true hid)]
  · exact hw

/-! ## How loads end -/

/-- Only the task that owns a record ends its load. -/
theorem settles_owned {error : Option String} (h : s.settles a = some (r, error)) :
    ∃ (i : ℕ) (k : Task), a.task? = some i ∧ s.tasks[i]? = some k ∧ k.owns = some r := by
  cases a with
  | call i answer =>
    unfold State.settles at h
    dsimp only at h
    split at h
    · next hk => cases h; exact ⟨i, _, rfl, hk, rfl⟩
    · next hk => cases h; exact ⟨i, _, rfl, hk, rfl⟩
    · next hk => cases h; exact ⟨i, _, rfl, hk, rfl⟩
    · next hk => cases h; exact ⟨i, _, rfl, hk, rfl⟩
    · next hk => cases h; exact ⟨i, _, rfl, hk, rfl⟩
    · cases h
  | _ => cases h

/-- A task learns how its load ended in the step that ends it. -/
theorem settles_of_ending {k k' : Task} {error : Option String} (hk : s.tasks[i]? = some k)
    (h : TaskMoves s i k a t) (hi : t.tasks[i]? = some k') (he : k'.ending = some (r, error)) :
    s.settles a = some (r, error) := by
  have moved : ∀ {k₁ : Task}, t.tasks = s.tasks.set i k₁ → k₁ = k' := by
    intro k₁ ht
    rw [ht, Table.get_set_self hk] at hi
    exact Option.some.inj hi
  cases h with
  | @start victims =>
    obtain rfl := moved rfl
    cases victims <;> cases he
  | @unloaded done rest =>
    rcases unloaded_get hk hi with rfl | rfl
    · cases he
    · cases rest <;> cases he
  | unloadFailed => rcases unloadFailed_get hk hi with rfl | rfl <;> cases he
  | queried => cases queried_get hk hi; cases he
  | loaded | awaited | loadFailed | waitFailed =>
    obtain rfl := moved rfl
    cases he
    simp [State.settles, hk]
  | wait | baselined =>
    obtain rfl := moved rfl
    cases he

theorem note_outcome {w : Ledger} {error : Option String} (h : s.settles a = some (r, error)) :
    (w.note s a t).outcome r = some error := by
  simp [Ledger.note, h]

theorem note_outcome_of_ne {w : Ledger} (h : ∀ error, s.settles a ≠ some (r, error)) :
    (w.note s a t).outcome r = w.outcome r := by
  unfold Ledger.note
  dsimp only
  cases hs : s.settles a with
  | none => rfl
  | some e =>
    have hne : e.1 ≠ r := by
      rintro rfl
      exact h e.2 hs
    simp [hne]

/-- How the load behind a ready record ended does not change. -/
theorem note_outcome_of_ready {w : Ledger} (hown : Owners s) (hready : (s.heap r).ready = true) :
    (w.note s a t).outcome r = w.outcome r := by
  refine note_outcome_of_ne fun error he => ?_
  obtain ⟨i, k, -, hk, ho⟩ := settles_owned he
  rw [hown.unready i k r hk ho] at hready
  cases hready

/-- Nobody else ends the load of a record that a task owns. -/
theorem note_outcome_of_owned {w : Ledger} (hown : Owners s) {k : Task}
    (ha : a.task? ≠ some i) (hk : s.tasks[i]? = some k) (ho : k.owns = some r) :
    (w.note s a t).outcome r = w.outcome r := by
  refine note_outcome_of_ne fun error he => ?_
  obtain ⟨j, k', haj, hk', ho'⟩ := settles_owned he
  exact ha (hown.unique j i k' k r hk' hk ho' ho ▸ haj)

/-! ## Steps -/

/-- An error is written with `ready`, or by the `load_failed` that then asks the
    server. -/
theorem error_of_unready (h : Step cfg s a t) (hr : r < s.next)
    (hready : (t.heap r).ready = false) :
    (t.heap r).error = (s.heap r).error ∨ ∃ (i : ℕ) (error : String) (loader : Loader),
      t.tasks[i]? = some (.loadQuery r error loader) ∧ (t.heap r).error = some error := by
  cases h with
  | @unloadFailed i done rest victim model _ _ hk =>
    have hm : r ≠ model := by
      rintro rfl
      simp at hready
    left
    simp only [State.setTask_heap, State.edit_heap, State.delete_heap, List.mem_singleton, hm,
      if_false]
    split_ifs <;> rfl
  | @loadFailed i k model error loader hk hfrom =>
    by_cases hm : r = model
    · subst hm
      exact .inr ⟨i, error, loader, Table.get_set_self hk, by simp⟩
    · exact .inl (by simp [hm])
  | tick | arrive | silent | enter | install | baseline | join | queue | quit | busy | idle | commit
  | joined | unjoin | release | task | unloaded | crash | crashFailed | dropped | gone | unsure
  | baselined =>
    left
    simp only [State.goto_heap, State.edit_heap, State.remove_heap, State.delete_heap,
      State.report_heap, State.setTask_heap, State.background_heap, enter, installed,
      adopt_of_lt hr, committed_of_lt hr]
    try split_ifs
    all_goals first | rfl | simp [LoadedModel.settled]

/-- The `load_failed` of a model ends with its record ready. -/
theorem queried_heap {error : String} {loader : Loader}
    {answer : Except String (Dict String ModelState)} :
    (queried s i m error loader answer).heap m = (s.heap m).settled s.now loader := by
  unfold queried settle
  dsimp only
  split_ifs <;> simp

theorem unfailed_step (h : Unfailed s) (hstep : step cfg s a = some t) (hno : NoInstall cfg s a) :
    Unfailed t := by
  intro r hr hready
  have hcases := step_cases hstep
  rcases Nat.lt_or_ge r s.next with hlt | hge
  · have hready₀ : (s.heap r).ready = false := by
      by_contra htrue
      rw [step_ready_mono hcases hlt (by simpa using htrue)] at hready
      cases hready
    rcases error_of_unready hcases hlt hready with hsame | hquery
    · rw [hsame]
      refine (h r hlt hready₀).imp_right fun ⟨i, error, loader, hi, herror⟩ => ?_
      by_cases ha : a.task? = some i
      · obtain ⟨k, hk, hmoves⟩ := task_moves hstep ha
        obtain rfl := Option.some.inj (hk.symm.trans hi)
        cases hmoves
        rw [queried_heap] at hready
        cases hready
      · exact ⟨i, error, loader, task_others hcases ha hi, herror⟩
    · exact .inr hquery
  · obtain ⟨p, job, victims, -, rfl, rfl⟩ := hno.new_record hcases hge hr
    exact .inl (by simp [committed, newModel])

/-! ## The ledger agrees with the records -/

/-- The error of a record whose failed load is being looked into. -/
theorem Shared.query_error {w : Ledger} (h : Shared s w) (hinv : Inv cfg s) (hf : FailedLoads s)
    {error : String} {loader : Loader} (hi : s.tasks[i]? = some (.loadQuery m error loader)) :
    (s.heap m).error = some error := by
  have hready := hinv.owners.unready i _ m hi rfl
  rcases h.unfailed m (hinv.refs.owned_lt hi rfl) hready with hnone | ⟨j, error', loader', hj, herror⟩
  · exact absurd hnone (hf i m error loader hi)
  · obtain rfl := hinv.owners.unique i j _ _ m hi hj rfl rfl
    cases hi.symm.trans hj
    exact herror

/-- A record whose load has returned has no error. -/
theorem Shared.baseline_error {w : Ledger} (h : Shared s w) (hinv : Inv cfg s) {loader : Loader}
    (hi : s.tasks[i]? = some (.loadBaseline m loader)) : (s.heap m).error = none := by
  have hready := hinv.owners.unready i _ m hi rfl
  rcases h.unfailed m (hinv.refs.owned_lt hi rfl) hready with hnone | ⟨j, error', loader', hj, -⟩
  · exact hnone
  · obtain rfl := hinv.owners.unique i j _ _ m hi hj rfl rfl
    cases hi.symm.trans hj

/-- When a record becomes ready, the ledger knows how its load ended. -/
theorem Shared.outcome_of_ended {w : Ledger} (h : Shared s w) (hinv : Inv cfg s)
    (hf : FailedLoads s) (hstep : step cfg s a = some t) (hr : r < s.next)
    (hbefore : (s.heap r).ready = false) (hafter : (t.heap r).ready = true) :
    (w.note s a t).outcome r = some (t.heap r).error := by
  have hcases := step_cases hstep
  rcases step_ready hcases hr with hsame | ⟨-, i, k, hk, ho, ht⟩
  · rw [hsame, hbefore] at hafter
    cases hafter
  have ha : a.task? = some i := by
    by_contra hne
    have hi := task_others hcases hne hk
    rw [ht, Table.get_set_self hk] at hi
    rw [← Option.some.inj hi] at ho
    cases ho
  obtain ⟨k', hk', hmoves⟩ := task_moves hstep ha
  obtain rfl := Option.some.inj (hk'.symm.trans hk)
  cases hmoves with
  | start | wait | loaded | awaited =>
    cases ho
    rw [State.setTask_heap, hbefore] at hafter
    cases hafter
  | @unloaded done rest victim =>
    cases ho
    have hsame : (unloaded s i done victim rest r).heap = s.heap := by
      unfold unloaded
      split <;> rfl
    rw [hsame, hbefore] at hafter
    cases hafter
  | @unloadFailed done rest victim model error =>
    cases ho
    rw [note_outcome (show s.settles _ = some (r, some error) by simp [State.settles, hk])]
    unfold unloadFailed at hafter ⊢
    dsimp only at hafter ⊢
    split at hafter
    · next hrec =>
      have hkept : ((s.edit (done ++ victim :: rest) fun m => { m with leaving := false }).heap
          r).ready = (s.heap r).ready := by
        rw [State.edit_heap]
        split_ifs <;> rfl
      rw [State.setTask_heap, hkept, hbefore] at hafter
      cases hafter
    · simp
  | loadFailed | waitFailed =>
    cases ho
    simp [loadFailed, hbefore] at hafter
  | queried =>
    cases ho
    rw [note_outcome_of_ne (fun _ he => by cases he), h.ending i _ r _ hk rfl, queried_heap,
      LoadedModel.settled, h.query_error hinv hf hk]
  | baselined =>
    cases ho
    rw [note_outcome_of_ne (fun _ he => by cases he), h.ending i _ r _ hk rfl]
    have herror := h.baseline_error hinv hk
    simp [settle, LoadedModel.settled, herror]

/-- A step keeps or removes what is stored, except that a decision adds a record. -/
theorem recorded_or_adds (hstep : Step cfg s a t) (hno : NoInstall cfg s a) {id : String}
    (hr : t.recorded id = some r) : s.recorded id = some r ∨ s.adds a = some id := by
  have hdelete : ∀ id', (s.delete id').recorded id = some r → s.recorded id = some r := by
    intro id' hr
    rw [State.recorded_delete] at hr
    split_ifs at hr
    exact hr
  cases hstep with
  | @commit p job look hq hrest hreason hidle =>
    rw [recorded_committed] at hr
    split_ifs at hr with hid
    · have hd := decision_eq_some.2 ⟨look, hq, hrest, hreason, hidle, rfl⟩
      exact .inr (by rw [State.adds, hd, hid]; rfl)
    · exact .inl hr
  | install hq hs => exact absurd hs (hno _ _ _ _ hq)
  | unloaded | unloadFailed | dropped => exact .inl (hdelete _ hr)
  | tick | arrive | silent | enter | baseline | join | queue | quit | busy | idle | joined | unjoin
  | release | task | crash | crashFailed | loadFailed | gone | unsure | baselined => exact .inl hr

/-- A decision adds a record where there is none. -/
theorem Inv.absent_of_adds (hinv : Inv cfg s) {id : String} (h : s.adds a = some id) :
    s.recorded id = none := by
  cases a with
  | resume p =>
    obtain ⟨⟨job, victims⟩, hd, rfl⟩ := Option.map_eq_some_iff.1 h
    exact (hinv.deciding.decision hd).1.absent
  | _ => cases h

/-- Two live tasks are not about the same model. -/
theorem Stored.one_task (hinv : Inv cfg s) (h : Stored s) {i j : ℕ} {k k' : Task} {m m' : Ref}
    (hi : s.tasks[i]? = some k) (hj : s.tasks[j]? = some k') (ho : k.owns = some m)
    (ho' : k'.owns = some m') (hid : (s.heap m).variant.id = (s.heap m').variant.id) :
    m = m' ∧ i = j := by
  have hm := h.model i k m hi ho
  rw [hid, h.model j k' m' hj ho'] at hm
  obtain rfl := Option.some.inj hm
  exact ⟨rfl, hinv.owners.unique i j k k' _ hi hj ho ho'⟩

theorem asked_step {w : Ledger} (h : Shared s w) (hinv : Inv cfg s) (hs : Stored s)
    (hstep : step cfg s a = some t) (i : ℕ) (k : Task) (m : Ref) (hi : t.tasks[i]? = some k)
    (hun : k.unasked = some m) : (w.note s a t).loads (t.heap m).variant.id = 0 := by
  have hcases := step_cases hstep
  rcases step_unasked hcases hi hun with ⟨k₀, hk₀, hun₀⟩ | ⟨rfl, p, job, victims, hd, rfl, rfl⟩
  · have ho₀ := Task.owns_of_unasked hun₀
    rw [step_variant hcases (hinv.refs.owned_lt hk₀ ho₀)]
    rw [note_loads ?_ ?_]
    · exact h.asked i k₀ m hk₀ hun₀
    · intro hadds
      have habsent := hinv.absent_of_adds hadds
      rw [hs.model i k₀ m hk₀ ho₀] at habsent
      cases habsent
    · intro m' hcall hid
      obtain ⟨j, k', -, hk', hun', ht⟩ := calls_eq_some hstep hcall
      obtain ⟨-, rfl⟩ := hs.one_task hinv hk' hk₀ (Task.owns_of_unasked hun') ho₀ hid
      rw [ht] at hi
      rw [← Option.some.inj hi] at hun
      cases hun
  · have hadds : s.adds (.resume p) = some job.variant.id := by rw [State.adds, hd]; rfl
    have hvariant : ((committed s p job victims).heap s.next).variant = job.variant := by
      simp [committed, newModel]
    rw [hvariant]
    exact if_pos hadds

theorem once_step {w : Ledger} (h : Shared s w)
    (hstep : step cfg s a = some t) (hno : NoInstall cfg s a) (id : String) (r : Ref)
    (hr : t.recorded id = some r) : (w.note s a t).loads id ≤ 1 := by
  rcases recorded_or_adds (step_cases hstep) hno hr with hr₀ | hadds
  · refine note_loads_le (fun m hcall hid => ?_) (h.once id r hr₀)
    obtain ⟨i, k, -, hk, hun, -⟩ := calls_eq_some hstep hcall
    rw [← hid]
    exact h.asked i k m hk hun
  · unfold Ledger.note
    dsimp only
    rw [if_pos hadds]
    exact Nat.zero_le 1

theorem ending_step {w : Ledger} (h : Shared s w) (hinv : Inv cfg s)
    (hstep : step cfg s a = some t) (i : ℕ) (k : Task) (m : Ref) (error : Option String)
    (hi : t.tasks[i]? = some k) (he : k.ending = some (m, error)) :
    (w.note s a t).outcome m = some error := by
  by_cases ha : a.task? = some i
  · obtain ⟨k₀, hk₀, hmoves⟩ := task_moves hstep ha
    exact note_outcome (settles_of_ending hk₀ hmoves hi he)
  · have ho : k.owns = some m := by
      cases k <;> cases he <;> rfl
    rcases task_origin (step_cases hstep) hi with hk | htask | ⟨victims, m', rfl⟩ | ⟨m', rfl⟩
    · rw [note_outcome_of_owned hinv.owners ha hk ho]
      exact h.ending i k m error hk he
    · exact absurd htask ha
    · cases he
    · cases he

/-- What the ledger keeps of a ready record holds after the step. -/
theorem ready_step {w : Ledger} (hinv : Inv cfg s) (hstep : Step cfg s a t) (hr : r < s.next)
    (hready : (s.heap r).ready = true) : (t.heap r).ready = true ∧
      (t.heap r).error = (s.heap r).error ∧ (w.note s a t).outcome r = w.outcome r :=
  ⟨step_ready_mono hstep hr hready, hinv.error_of_ready hstep hr hready,
    note_outcome_of_ready hinv.owners hready⟩

/-- A request waits only for a record that was not ready when it came. -/
theorem unready_of_joining (hstep : Step cfg s a t) (hp : t.requests[p]? = some (.joining r)) :
    s.requests[p]? = some (.joining r) ∨ (t.heap r).ready = false := by
  cases hstep with
  | arrive =>
    rcases Table.get_push.1 hp with ⟨-, heq⟩ | hp
    · cases heq
    · exact .inl hp
  | silent h₀ hsil =>
    rcases (Table.get_set h₀).1 hp with ⟨-, heq⟩ | ⟨-, hp⟩
    · cases hsil <;> cases heq
    · exact .inl hp
  | queue h₀ _ _ hready =>
    rcases (Table.get_set h₀).1 hp with ⟨-, heq⟩ | ⟨-, hp⟩
    · cases heq
      exact .inr (by simp [hready])
    · exact .inl hp
  | commit h₀ =>
    rcases (Table.get_set h₀).1 hp with ⟨-, heq⟩ | ⟨-, hp⟩
    · cases heq
      exact .inr (by simp [committed, newModel])
    · exact .inl hp
  | install h₀ _ hto | baseline h₀ hto =>
    rcases (Table.get_set h₀).1 hp with ⟨-, heq⟩ | ⟨-, hp⟩
    · have hidle := (hto.idle r).2
      rw [← heq] at hidle
      simp [Request.joins] at hidle
    · exact .inl hp
  | enter h₀ | join h₀ | quit h₀ | busy h₀ | idle h₀ | joined h₀ | unjoin h₀ | release h₀ =>
    rcases (Table.get_set h₀).1 hp with ⟨-, heq⟩ | ⟨-, hp⟩
    · cases heq
    · exact .inl hp
  | tick | task | unloaded | crash | unloadFailed | crashFailed | loadFailed | dropped | gone
  | unsure | baselined => exact .inl hp

theorem waits_step {w : Ledger} (h : Shared s w) (hinv : Inv cfg s) (hf : FailedLoads s)
    (hstep : step cfg s a = some t) (p : ℕ) (r : Ref) (hp : t.requests[p]? = some (.joining r))
    (hready : (t.heap r).ready = true) : (w.note s a t).outcome r = some (t.heap r).error := by
  rcases unready_of_joining (step_cases hstep) hp with hp₀ | hunready
  · have hr := hinv.refs.joining_lt hp₀
    cases hbefore : (s.heap r).ready with
    | false => exact h.outcome_of_ended hinv hf hstep hr hbefore hready
    | true =>
      obtain ⟨-, herror, houtcome⟩ := ready_step hinv (step_cases hstep) hr hbefore
      rw [houtcome, herror]
      exact h.waits p r hp₀ hbefore
  · rw [hunready] at hready
    cases hready

/-- Who leaves `join` is given the error of a ready record, or admitted if there
    is none. -/
theorem leaves_resume (hp : s.requests[p]? = some (.joining r))
    (hstep : step cfg s (.resume p) = some t) :
    (s.heap r).ready = true ∧ s.leaves (.resume p) t = some (p, r, (s.heap r).error) := by
  simp only [step, hp, Option.bind_some, resume] at hstep
  split_ifs at hstep with hready
  refine ⟨hready, ?_⟩
  cases hstep
  cases herror : (s.heap r).error with
  | none =>
    have hnext : (joined s p r).requests[p]? = some (.admitted r) := by
      simp only [joined, State.edit_heap, List.mem_singleton, if_true, herror]
      exact Table.get_set_self hp
    simp [State.leaves, hp, hnext]
  | some error =>
    have hnext : (joined s p r).requests[p]? = some (.finished (.loadFailed error)) := by
      simp only [joined, State.edit_heap, List.mem_singleton, if_true, herror]
      exact Table.get_set_self hp
    simp [State.leaves, hp, hnext]

/-- Who leaves `join` waited for a ready record. -/
theorem leaves_eq_some {q : ℕ} {error : Option String} (hstep : step cfg s a = some t)
    (h : s.leaves a t = some (q, r, error)) : s.requests[q]? = some (.joining r) ∧
      (s.heap r).ready = true ∧ (s.heap r).error = error := by
  cases a with
  | resume p =>
    have hjoining : ∃ r', s.requests[p]? = some (.joining r') := by
      unfold State.leaves at h
      dsimp only at h
      split at h
      · exact ⟨_, by assumption⟩
      · exact ⟨_, by assumption⟩
      · cases h
    obtain ⟨r', hp⟩ := hjoining
    obtain ⟨hready, hleaves⟩ := leaves_resume hp hstep
    cases h.symm.trans hleaves
    exact ⟨hp, hready, rfl⟩
  | _ => cases h

theorem ends_step {w : Ledger} (h : Shared s w) (hinv : Inv cfg s)
    (hstep : step cfg s a = some t) (p : ℕ) (r : Ref) (error : Option String)
    (he : (p, r, error) ∈ (w.note s a t).ends) : r < t.next ∧ (t.heap r).ready = true ∧
      (t.heap r).error = error ∧ (w.note s a t).outcome r = some error := by
  have hcases := step_cases hstep
  have known : r < s.next ∧ (s.heap r).ready = true ∧ (s.heap r).error = error ∧
      w.outcome r = some error := by
    rcases List.mem_append.1 he with hnew | hold
    · obtain ⟨hp, hready, herror⟩ := leaves_eq_some hstep (Option.mem_toList.1 hnew)
      refine ⟨hinv.refs.joining_lt hp, hready, herror, ?_⟩
      rw [← herror]
      exact h.waits p r hp hready
    · exact h.ends p r error hold
  obtain ⟨hr, hready, herror, houtcome⟩ := known
  obtain ⟨hready', herror', houtcome'⟩ := ready_step (w := w) hinv hcases hr hready
  refine ⟨Nat.lt_of_lt_of_le hr (step_next_le hcases), hready', ?_, ?_⟩
  · rw [herror', herror]
  · rw [houtcome', houtcome]

/-! ## In every run without a re-inspection -/

theorem ledgered_free {x : State × Ledger}
    (hx : (ledgered cfg).Reach (fun x c => unsurveyed x c = true) x) :
    (scheduler cfg).Reach (fun s a => uninspected s a = true) x.1 :=
  hx.program fun _ _ h => h

theorem shared_initial {now : ℚ} {found : Survey} (hf : found.Complete cfg) :
    Shared (initial now found) ⟨fun _ => 0, fun _ => none, []⟩ where
  unfailed _ hr _ := .inl (initial_fresh hf hr).error
  asked _ _ _ _ _ := rfl
  once _ _ _ := Nat.zero_le 1
  ending i k m error hi he := by
    obtain ⟨r, id, rfl, -⟩ := initial_tasks hi
    cases he
  waits p r hp _ := by
    rcases (initial_requests hp).2 with heq | ⟨model, rest, heq⟩ <;> cases heq
  ends _ _ _ he := absurd he List.not_mem_nil

theorem shared {x : State × Ledger}
    (hx : (ledgered cfg).Reach (fun x c => unsurveyed x c = true) x) : Shared x.1 x.2 := by
  induction hx with
  | @init x h =>
    obtain ⟨⟨earlier, now, answer, -, hx⟩, hlog⟩ := h
    rw [hx, hlog]
    exact shared_initial (survey_complete cfg earlier answer)
  | @step x y c hx hok hy ih =>
    cases c with
    | inr c => exact c.elim
    | inl a =>
      obtain ⟨hstep, hlog⟩ := System.under_inl.1 hy
      have hstep : step cfg x.1 a = some y.1 := hstep
      have hlog : y.2 = x.2.note x.1 a y.1 := hlog
      have hs := ledgered_free hx
      obtain ⟨hun, hstored⟩ := stored (fun _ _ h => h) hs
      have hinv := inv hs
      have hno : NoInstall cfg x.1 a := fun p q variant found hq => hun.not_surveys hok hq
      rw [hlog]
      exact {
        unfailed := unfailed_step ih.unfailed hstep hno
        asked := asked_step ih hinv hstored hstep
        once := once_step ih hstep hno
        ending := ending_step ih hinv hstep
        waits := waits_step ih hinv (failed_loads hs) hstep
        ends := ends_step ih hinv hstep }

/-- Requests for one model share its load. In every run without a re-inspection:
    while a record is stored, `load` has been called for its model at most once
    since the record was added; no two live swaps or `finish_load`s are about the
    same model; a record is only added for a model that has none, and a step never
    puts another record in its place; a request that waits for a record leaves
    `join` by being cancelled or as the record's load ended, and can leave once
    the record is ready; so every two of them that are not cancelled end alike. -/
theorem load_shared {x : State × Ledger}
    (hx : (ledgered cfg).Reach (fun x c => unsurveyed x c = true) x) :
    (∀ id r, x.1.recorded id = some r → x.2.loads id ≤ 1) ∧
    (∀ (i j : ℕ) (k k' : Task) (m m' : Ref), x.1.tasks[i]? = some k → x.1.tasks[j]? = some k' →
      k.owns = some m → k'.owns = some m' →
      (x.1.heap m).variant.id = (x.1.heap m').variant.id → i = j) ∧
    (∀ a t, uninspected x.1 a = true → step cfg x.1 a = some t →
      (∀ id, x.1.adds a = some id → x.1.recorded id = none) ∧
      (∀ id r r', x.1.recorded id = some r → t.recorded id = some r' → r' = r) ∧
      (∀ (p : ℕ) (r : Ref), x.1.requests[p]? = some (.joining r) →
        t.requests[p]? = some (.joining r) ∨ a = .cancel p ∨
          ∃ error, x.1.leaves a t = some (p, r, error) ∧ x.2.outcome r = some error)) ∧
    (∀ (p : ℕ) (r : Ref), x.1.requests[p]? = some (.joining r) → (x.1.heap r).ready = true →
      ∃ t, step cfg x.1 (.resume p) = some t) ∧
    (∀ (p : ℕ) (r : Ref) (error : Option String), (p, r, error) ∈ x.2.ends →
      x.2.outcome r = some error) := by
  have hs := ledgered_free hx
  obtain ⟨hun, hstored⟩ := stored (fun _ _ h => h) hs
  have hinv := inv hs
  have hshared := shared hx
  refine ⟨hshared.once, ?_, ?_, ?_, fun p r error he => (hshared.ends p r error he).2.2.2⟩
  · intro i j k k' m m' hi hj ho ho' hid
    exact (hstored.one_task hinv hi hj ho ho' hid).2
  · intro a t hok hstep
    have hno : NoInstall cfg x.1 a := fun p q variant found hq => hun.not_surveys hok hq
    refine ⟨fun id => hinv.absent_of_adds, ?_, ?_⟩
    · intro id r r' hr hr'
      rcases recorded_or_adds (step_cases hstep) hno hr' with hr₀ | hadds
      · exact Option.some.inj (hr₀.symm.trans hr)
      · rw [hinv.absent_of_adds hadds] at hr
        cases hr
    · intro p r hp
      by_cases ha : a.request? = some p
      · cases a with
        | cancel p' => cases ha; exact .inr (.inl rfl)
        | resume p' =>
          cases ha
          obtain ⟨hready, hleaves⟩ := leaves_resume hp hstep
          exact .inr (.inr ⟨_, hleaves, hshared.waits p r hp hready⟩)
        | props p' | states p' | activity p' => cases ha; simp [step, hp] at hstep
        | tick | arrive | run | call | taskStates | taskActivity => cases ha
      · exact .inl (step_others hstep ha hp)
  · intro p r hp hready
    exact ⟨joined x.1 p r, by simp [step, hp, resume, hready]⟩

/-- Two requests for c--cuda01 wait for one load, which times out; the router does
    not say that it is unloaded, so its record stays. -/
def sharedFailure : List Act :=
  [.arrive "c--cuda01", .resume 1, .resume 1, .resume 1, .resume 1, .arrive "c--cuda01",
    .resume 2, .resume 2, .run 0, .call 0 (.error "timed out"),
    .taskStates 0 (.error "refused"), .resume 1, .resume 2]

theorem load_shared_pairedCards :
    ∃ x, (ledgered pairedCards).Reach (fun x c => unsurveyed x c = true) x ∧
      x.1.recorded "c--cuda01" = some 0 ∧ x.2.loads "c--cuda01" ≤ 1 ∧
      x.2.ends = [(2, 0, some "timed out"), (1, 0, some "timed out")] ∧
      x.2.outcome 0 = some (some "timed out") := by
  have h0 : (ledgered pairedCards).init
      (initial 0 (survey pairedCards 0 nothingLoaded), ⟨fun _ => 0, fun _ => none, []⟩) :=
    ⟨⟨0, 0, nothingLoaded, le_refl 0, rfl⟩, rfl⟩
  obtain ⟨x, hx, hP⟩ := @System.exists_reach _ _ _ unsurveyed _ h0 (sharedFailure.map Sum.inl)
    (fun x => x.1.recorded "c--cuda01" = some 0 &&
      x.2.ends = [(2, 0, some "timed out"), (1, 0, some "timed out")]) (by decide +kernel)
  simp only [Bool.and_eq_true, decide_eq_true_eq] at hP
  obtain ⟨hr, hends⟩ := hP
  obtain ⟨honce, -, -, -, hout⟩ := load_shared hx
  exact ⟨x, hx, hr, honce _ 0 hr, hends, hout 1 0 _ (by simp [hends])⟩

end ModelBroker
