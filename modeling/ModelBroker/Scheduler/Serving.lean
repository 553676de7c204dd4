import ModelBroker.Scheduler.Finishing
import ModelBroker.Scheduler.Sharing

/-!
# What swaps and waiting requests can count on

Two invariants that re-inspections do not break, and what follows from the first.

* `unasked`: in every run, a swap that has not asked its server to load finds its
  model in `loaded`, whatever is unloaded, dropped or merged meanwhile. So a
  failed unload never ends in a `KeyError` (line 488).
* `failed_unload_settles`: so a failed unload ends its swap, in every run.
* `serves`: in every run in which no swap dies and no `track` is cancelled early,
  a model that a request waits for is ready, has a task, or will have one.
-/

namespace ModelBroker

variable {cfg : Config} {s t : State} {a : Act} {r : Ref}

/-! ## The models of swaps -/

/-- What holds of the models whose servers have not been asked to load them. -/
structure Unasked (s : State) : Prop where
  recorded : ∀ (i : ℕ) (k : Task) (m : Ref), s.tasks[i]? = some k → k.unasked = some m →
    s.recorded (s.heap m).variant.id = some m
  sound : ∀ (i : ℕ) (k : Task) (m : Ref), s.tasks[i]? = some k → k.unasked = some m →
    (s.heap m).error = none
  apart : ∀ (i j : ℕ) (k k' : Task) (m m' : Ref), s.tasks[i]? = some k → s.tasks[j]? = some k' →
    k.unasked = some m → k'.unasked = some m' → m ≠ m' →
    claimsConflict (s.heap m).variant (s.heap m').variant = false
  other : ∀ (i : ℕ) (k : Task) (r m : Ref), s.tasks[i]? = some k → r ∈ k.toUnload →
    k.unasked = some m → (s.heap r).variant.id ≠ (s.heap m).variant.id

theorem Refs.unasked_lt (h : Refs cfg s) {i : ℕ} {k : Task} {m : Ref} (hi : s.tasks[i]? = some k)
    (hun : k.unasked = some m) : m < s.next :=
  h.owned_lt hi (Task.owns_of_unasked hun)

/-- Where the swap of an unasked model comes from: it was so, or has been decided. -/
theorem unasked_origin (hinv : Inv cfg s) (hstep : Step cfg s a t) {i : ℕ} {k : Task} {m : Ref}
    (hi : t.tasks[i]? = some k) (hun : k.unasked = some m) :
    (m < s.next ∧ ∃ k₀, s.tasks[i]? = some k₀ ∧ k₀.unasked = some m) ∨
      (m = s.next ∧ ∃ p job victims, s.decision p = some (job, victims) ∧
        t = committed s p job victims) := by
  rcases step_unasked hstep hi hun with ⟨k₀, hk₀, hun₀⟩ | ⟨rfl, p, job, victims, hd, ht, -⟩
  · exact .inl ⟨hinv.refs.unasked_lt hk₀ hun₀, k₀, hk₀, hun₀⟩
  · exact .inr ⟨rfl, p, job, victims, hd, ht⟩

/-- No other swap unloads a model of this id. -/
theorem Unasked.not_unloading (hinv : Inv cfg s) (hclash : Clashing s) (h : Unasked s) {i j : ℕ}
    {k : Task} {m victim model : Ref} {done rest : List Ref} (hi : s.tasks[i]? = some k)
    (hun : k.unasked = some m) (hj : s.tasks[j]? = some (.swapUnload done victim rest model)) :
    (s.heap victim).variant.id ≠ (s.heap m).variant.id := by
  intro hid
  have hmem : victim ∈ (Task.swapUnload done victim rest model).toUnload := List.mem_cons_self
  by_cases hm : m = model
  · subst hm
    exact h.other j _ victim m hj hmem rfl hid
  · have hconf := hclash j _ victim model hj hmem rfl
    rw [hinv.refs.variant_eq (hinv.refs.victim_lt hj (Task.victims_of_toUnload hmem))
      (hinv.refs.unasked_lt hi hun) hid, h.apart i j k _ m model hi hj hun rfl hm] at hconf
    cases hconf

theorem Unasked.recorded_step (hinv : Inv cfg s) (hclash : Clashing s) (h : Unasked s)
    (hstep : Step cfg s a t) (i : ℕ) (k : Task) (m : Ref) (hi : t.tasks[i]? = some k)
    (hun : k.unasked = some m) : t.recorded (t.heap m).variant.id = some m := by
  rcases unasked_origin hinv hstep hi hun with ⟨hlt, k₀, hk₀, hun₀⟩ | ⟨rfl, p, job, victims, -, rfl⟩
  · have hrec := h.recorded i k₀ m hk₀ hun₀
    have hown := Task.owns_of_unasked hun₀
    have hready := hinv.owners.unready i k₀ m hk₀ hown
    rw [step_variant hstep hlt]
    -- a record of the same id that is deleted is another one
    have deleted : ∀ {id : String}, t.recorded = (s.delete id).recorded →
        id ≠ (s.heap m).variant.id → t.recorded (s.heap m).variant.id = some m := by
      intro id ht hne
      rw [ht, State.recorded_delete, if_neg (Ne.symm hne)]
      exact hrec
    -- the task that ends is not this one
    have ended : ∀ {j : ℕ} {k₁ : Task} {model : Ref}, s.tasks[j]? = some k₁ →
        k₁.owns = some model → t.tasks = s.tasks.set j .ended →
        s.recorded (s.heap model).variant.id = some model →
        (s.heap model).variant.id ≠ (s.heap m).variant.id := by
      intro j k₁ model hk₁ ho ht hmodel hid
      rw [hid, hrec] at hmodel
      obtain rfl := Option.some.inj hmodel
      obtain rfl := hinv.owners.unique i j k₀ k₁ m hk₀ hk₁ hown ho
      rw [ht, Table.get_set_self hk₁] at hi
      cases hi
      cases hun
    cases hstep with
    | unloaded hk => exact deleted rfl (h.not_unloading hinv hclash hk₀ hun₀ hk)
    | unloadFailed hk => exact deleted rfl (ended hk rfl rfl (h.recorded _ _ _ hk rfl))
    | dropped hk _ hr => exact deleted rfl (ended hk rfl rfl hr)
    | @commit p job look hq hrest hreason hidle =>
      have hd := decision_eq_some.2 ⟨look, hq, hrest, hreason, hidle, rfl⟩
      rw [recorded_committed, if_neg]
      · exact hrec
      · intro hid
        have habsent := (hinv.deciding.decision hd).1.absent
        rw [← hid, hrec] at habsent
        cases habsent
    | @install _ _ _ _ _ found _ =>
      show (installed s found).recorded _ = some m
      cases hf : found.loaded.contains (s.heap m).variant.id with
      | true => exact (installed_found hinv.refs hrec hf).2 (h.sound i k₀ m hk₀ hun₀)
      | false =>
        exact (installed_missing hrec hf).2 (.inl (by simp [LoadedModel.inProgress, hready]))
    | tick | arrive | silent | enter | baseline | join | queue | quit | busy | idle | joined | unjoin
    | release | task | crash | crashFailed | loadFailed | gone | unsure | baselined => exact hrec
  · rw [recorded_committed]
    simp [committed, newModel]

theorem Unasked.sound_step (hinv : Inv cfg s) (h : Unasked s) (hstep : Step cfg s a t) (i : ℕ)
    (k : Task) (m : Ref) (hi : t.tasks[i]? = some k) (hun : k.unasked = some m) :
    (t.heap m).error = none := by
  have hinv' := inv_step hinv hstep
  rcases unasked_origin hinv hstep hi hun with ⟨hlt, k₀, hk₀, hun₀⟩ | ⟨rfl, p, job, victims, -, rfl⟩
  · have hown := Task.owns_of_unasked hun
    rcases error_of_unready hstep hlt (hinv'.owners.unready i k m hi hown) with hsame |
      ⟨j, error, loader, hj, -⟩
    · rw [hsame]
      exact h.sound i k₀ m hk₀ hun₀
    · -- the task that queries its server would be this one
      obtain rfl := hinv'.owners.unique i j k _ m hi hj hown rfl
      rw [hj] at hi
      cases hi
      cases hun
  · simp [committed, newModel]

/-- A model that is decided on conflicts with no unasked one: that one is not
    ready, so `busy` would have blocked on it. -/
theorem Unasked.decided_apart (hinv : Inv cfg s) (h : Unasked s) {i p : ℕ} {k : Task} {m : Ref}
    {job : Job} {victims : List Ref} (hi : s.tasks[i]? = some k) (hun : k.unasked = some m)
    (hd : s.decision p = some (job, victims)) :
    claimsConflict (s.heap m).variant job.variant = false := by
  by_contra hconf
  have hdec := (hinv.deciding.decision hd).1
  have hmem := hdec.complete _ m (h.recorded i k m hi hun) (by simpa using hconf)
  have hready := hdec.ready m (by simpa using hmem)
  rw [hinv.owners.unready i k m hi (Task.owns_of_unasked hun)] at hready
  cases hready

theorem Unasked.apart_step (hinv : Inv cfg s) (h : Unasked s) (hstep : Step cfg s a t) (i j : ℕ)
    (k k' : Task) (m m' : Ref) (hi : t.tasks[i]? = some k) (hj : t.tasks[j]? = some k')
    (hun : k.unasked = some m) (hun' : k'.unasked = some m') (hne : m ≠ m') :
    claimsConflict (t.heap m).variant (t.heap m').variant = false := by
  have new : ∀ {p : ℕ} {job : Job} {victims : List Ref}, t = committed s p job victims →
      (t.heap s.next).variant = job.variant := by
    rintro p job victims rfl
    simp [committed, newModel]
  rcases unasked_origin hinv hstep hi hun with ⟨hlt, k₀, hk₀, hun₀⟩ | ⟨rfl, p, job, victims, hd, ht⟩ <;>
    rcases unasked_origin hinv hstep hj hun' with ⟨hlt', k₁, hk₁, hun₁⟩ |
      ⟨rfl, p', job', victims', hd', ht'⟩
  · rw [step_variant hstep hlt, step_variant hstep hlt']
    exact h.apart i j k₀ k₁ m m' hk₀ hk₁ hun₀ hun₁ hne
  · rw [new ht', step_variant hstep hlt]
    exact h.decided_apart hinv hk₀ hun₀ hd'
  · rw [new ht, step_variant hstep hlt', claimsConflict_comm]
    exact h.decided_apart hinv hk₁ hun₁ hd
  · exact absurd rfl hne

theorem Unasked.other_step (hinv : Inv cfg s) (h : Unasked s) (hstep : Step cfg s a t) (i : ℕ)
    (k : Task) (r m : Ref) (hi : t.tasks[i]? = some k) (hr : r ∈ k.toUnload)
    (hun : k.unasked = some m) : (t.heap r).variant.id ≠ (t.heap m).variant.id := by
  rcases step_toUnload hstep hi hr with ⟨k₀, hk₀, hr₀, -⟩ | ⟨-, hown, p, job, hd, rfl, -⟩
  · rcases unasked_origin hinv hstep hi hun with ⟨hlt, k₁, hk₁, hun₁⟩ | ⟨rfl, p, job, victims, -, rfl⟩
    · obtain rfl : k₀ = k₁ := Option.some.inj (hk₀.symm.trans hk₁)
      rw [step_variant hstep (hinv.refs.victim_lt hk₀ (Task.victims_of_toUnload hr₀)),
        step_variant hstep hlt]
      exact h.other i k₀ r m hk₀ hr₀ hun₁
    · -- the new task is not an old one
      have hlt := (refs_step hinv.refs hstep).unasked_lt hi hun
      rcases Table.get_push.1 hi with ⟨rfl, -⟩ | hi₀
      · exact absurd (Table.lt_length hk₀) (Nat.lt_irrefl _)
      · exact absurd (hinv.refs.unasked_lt hi₀ hun) (Nat.lt_irrefl _)
  · have hv := Task.victims_of_toUnload hr
    have hother := (hinv.deciding.decision hd).1.other r (List.mem_append_left _ hv)
    obtain rfl : m = s.next := Option.some.inj ((Task.owns_of_unasked hun).symm.trans hown)
    rw [step_variant hstep (hinv.refs.decided_lt hd hv)]
    simpa [committed, newModel] using hother

theorem unasked_step (hinv : Inv cfg s) (hclash : Clashing s) (h : Unasked s)
    (hstep : Step cfg s a t) : Unasked t where
  recorded := h.recorded_step hinv hclash hstep
  sound := h.sound_step hinv hstep
  apart := h.apart_step hinv hstep
  other := h.other_step hinv hstep

/-- In every run. -/
theorem unasked {ok : State → Act → Prop} (h : (scheduler cfg).Reach ok s) : Unasked s := by
  refine invariant_reach ?_ ?_ h
  · intro now found _
    have none : ∀ {i : ℕ} {k : Task} {m : Ref}, (initial now found).tasks[i]? = some k →
        k.unasked ≠ some m := by
      intro i k m hi hun
      obtain ⟨r, id, rfl, -⟩ := initial_tasks hi
      cases hun
    refine ⟨fun i k m hi hun => ?_, fun i k m hi hun => ?_, fun i j k k' m m' hi _ hun => ?_,
      fun i k r m hi _ hun => ?_⟩ <;> exact absurd hun (none hi)
  · intro s a t hs hunasked _ hstep
    exact unasked_step (inv hs) (clashing hs) hunasked hstep

/-- In every run, whatever was cancelled, merged or dropped meanwhile, a failed unload
    ends its swap: the model that was to be loaded leaves `loaded`, is marked ready
    and has the error, so that its requests are refused, and no victim is leaving.
    What else is in `loaded` stays there. -/
theorem failed_unload_settles (h : (scheduler cfg).Free s) {i : ℕ} {done rest : List Ref}
    {victim model : Ref} (hi : s.tasks[i]? = some (.swapUnload done victim rest model))
    (error : String) :
    ∃ t, step cfg s (.call i (.error error)) = some t ∧ t.tasks[i]? = some .ended ∧
      (∀ id, t.recorded id = if id = (s.heap model).variant.id then none else s.recorded id) ∧
      (∀ r ∈ done ++ victim :: rest, (t.heap r).leaving = false) ∧
      ∀ p, s.requests[p]? = some (.joining model) →
        ∃ u, step cfg t (.resume p) = some u ∧
          u.requests[p]? = some (.finished (.loadFailed error)) := by
  have hrec := (unasked h).recorded i _ model hi rfl
  refine ⟨_, by simp only [step, hi]; rfl, ?_⟩
  simp only [unloadFailed, hrec]
  refine ⟨Table.get_set_self hi, fun id => State.recorded_delete .., fun r hr => ?_,
    fun p hp => ?_⟩
  · simp only [State.setTask_heap, State.edit_heap, State.delete_heap]
    rw [if_pos hr]
    split_ifs <;> rfl
  · refine ⟨_, by simp [step, hp, resume]; rfl, ?_⟩
    simp [joined, Table.get_set_self hp]

/-- The unload of the model of a shared card fails while a request waits for the other. -/
theorem failed_unload_settles_sharedCard :
    ∃ s t, (scheduler sharedCard).Free s ∧ s.requests[1]? = some (.joining 1) ∧
      step sharedCard s (.call 0 (.error "timed out")) = some t ∧
      t.recorded "a--cuda0" = some 0 ∧ (t.heap 0).leaving = false ∧
      t.recorded "b--cuda0" = none := by
  obtain ⟨s, hs, hP⟩ := reach_run sharedCard (fun _ _ => true) 0 (reporting "loaded")
    [.activity 0 (.ok idle), .tick 100, .arrive "b--cuda0", .resume 1, .resume 1, .resume 1,
      .resume 1, .activity 1 (.ok idle), .resume 1, .run 0]
    (fun s => decide (s.recorded "a--cuda0" = some 0) &&
      s.requests[1]?.any (Request.joins 1) && decide ((s.heap 1).variant.id = "b--cuda0") &&
      decide (s.tasks[0]? = some (Task.swapUnload [] 0 [] 1))) (by decide +kernel)
  simp only [Bool.and_eq_true, decide_eq_true_eq] at hP
  obtain ⟨⟨⟨ha, hjoins⟩, hid⟩, hi⟩ := hP
  obtain ⟨q, hq, hjoins⟩ := (Option.any_eq_true ..).1 hjoins
  obtain rfl := Request.joins_iff.1 hjoins
  obtain ⟨t, ht, -, hrec, hleaving, -⟩ := failed_unload_settles hs.free hi "timed out"
  refine ⟨s, t, hs.free, hq, ht, ?_, hleaving 0 (by simp), ?_⟩
  · rw [hrec, hid, if_neg (by decide), ha]
  · rw [hrec, hid, if_pos rfl]

/-! ## The models that requests wait for -/

/-- A model that a request waits for is ready, or has a task, or will have it. -/
def Served (s : State) : Prop :=
  ∀ (p : ℕ) (r : Ref), s.requests[p]? = some (.joining r) → (s.heap r).ready = false →
    s.Loads r ∨ Untracked s r

theorem served_step (hinv : Inv cfg s) (hatt : Attended t) (h : Served s)
    (hok : finishing s a = true) (hstep : Step cfg s a t) : Served t := by
  obtain ⟨hkeeps, hlives⟩ := finishing_iff.1 hok
  intro p r hp hready
  rcases step_joining hstep hp with hp₀ | ⟨⟨id, hid⟩, -, hview, -⟩ | ⟨job, victims, -, rfl, rfl⟩
  · have hready₀ : (s.heap r).ready = false := by
      by_contra hne
      rw [step_ready_mono hstep (hinv.refs.joining_lt hp₀) (by simpa using hne)] at hready
      cases hready
    rcases h p r hp₀ hready₀ with ⟨i, k, hi, ho⟩ | hun
    · rcases owner_forward hstep hlives hi ho with ⟨k', hi', ho'⟩ | htrue
      · exact .inl ⟨i, k', hi', ho'⟩
      · rw [hready] at htrue; cases htrue
    · rcases untracked_forward hstep hkeeps hun with hun' | hawaited | htrue
      · exact .inr hun'
      · exact .inl hawaited.loads
      · rw [hready] at htrue; cases htrue
  · refine hatt.unready id r ?_ hready
    unfold State.recorded
    rw [hview]
    exact hid
  · refine hatt.unready job.variant.id s.next ?_ hready
    rw [recorded_committed, if_pos rfl]

theorem serves (h : (scheduler cfg).Reach (fun s a => finishing s a = true) s) : Served s := by
  refine h.invariant ?_ ?_
  · rintro s ⟨earlier, now, answer, -, rfl⟩ p r hp
    rcases (initial_requests hp).2 with heq | ⟨model, rest, heq⟩ <;> cases heq
  · intro s a t hs hserved hok hstep
    exact served_step (inv hs) (attended (.step hs hok hstep)) hserved hok (step_cases hstep)

end ModelBroker
