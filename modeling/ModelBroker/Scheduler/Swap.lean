import ModelBroker.Scheduler.Actors
import ModelBroker.Scheduler.Admission

/-!
# The books after a swap

`swap` (`scheduler.py`, lines 476–504) unloads its victims one after the other,
loads its model, and on a failure asks for the model's state or gives the rest
of the victims back. What it leaves in `loaded` is determined by what its calls
of the backends returned, which `swapping` writes down.

* `swap_books`: from a decision whose victims are all in `loaded`, in every run
  without a re-inspection, the swap never dies, leaves the books as its calls say
  when it ends, and alters no record but its own.
* `swap_crashed`: the list of conflicting models is made before `busy` awaits. A
  model whose load fails meanwhile is ready, idle and no longer in `loaded`, and
  becomes a victim; `del self.loaded[…]` then ends the swap with its model never
  ready.
-/

namespace ModelBroker

variable {cfg : Config} {s t : State} {a : Act} {p i : ℕ} {m : Ref} {victims : List Ref}

/-! ## The calls of a swap -/

/-- A call of a backend that returned or raised, and the call of `load`. -/
inductive SwapEvent
  | unloaded
  | unloadFailed (error : String)
  | loads
  | loaded
  | loadFailed (error : String)
  | listed (answer : Except String (Dict String ModelState))
  | baseline (answer : Except String ModelActivity)

/-- What the call that task `i` awaits returns in this step. -/
def State.swapAnswer (s : State) (i : ℕ) : Act → List SwapEvent
  | .call j answer =>
    if j = i then
      match s.tasks[i]?, answer with
      | some (.swapUnload _ _ _ _), .ok _ => [.unloaded]
      | some (.swapUnload _ _ _ _), .error error => [.unloadFailed error]
      | some (.swapLoad _), .ok _ => [.loaded]
      | some (.swapLoad _), .error error => [.loadFailed error]
      | _, _ => []
    else []
  | .taskStates j answer => if j = i then [.listed answer] else []
  | .taskActivity j answer => if j = i then [.baseline answer] else []
  | _ => []

/-- The task awaits `load`. -/
def Task.awaitsLoad : Task → Bool
  | swapLoad _ => true
  | _ => false

/-- Task `i` calls `load` in this step. -/
def State.swapCall (s : State) (i : ℕ) (t : State) : List SwapEvent :=
  if t.tasks[i]?.any Task.awaitsLoad && !s.tasks[i]?.any Task.awaitsLoad then [.loads] else []

/-- The events of task `i`. -/
def swapping (i : ℕ) : Env State Act (List SwapEvent) Empty :=
  .history fun s a t log => log ++ s.swapAnswer i a ++ s.swapCall i t

/-- The runs from a decision on, with the events of its swap. -/
def swapRun (cfg : Config) (s : State) (p : ℕ) (job : Job) (victims : List Ref) :
    System (State × List SwapEvent) (Act ⊕ Empty) :=
  ((scheduler cfg).startingIn fun u => u = committed s p job victims).under
    (swapping s.tasks.length) fun _ log => log = []

/-- Nobody starts a re-inspection. -/
def undisturbed (x : State × List SwapEvent) : Act ⊕ Empty → Bool
  | .inl a => uninspected x.1 a
  | .inr _ => true

/-! ## How far a swap is -/

/-- The models a task will take out of `loaded`. -/
def Task.works (k : Task) : List Ref := k.owns.toList ++ k.toUnload

/-- The victims unloaded and those left, after these events. -/
inductive Stage (victims : List Ref) (m : Ref) :
    Task → List Ref → List Ref → List SwapEvent → Prop
  | ready : Stage victims m (.swapReady victims m) [] victims []
  | unloading {done rest : List Ref} {v : Ref} (h : victims = done ++ v :: rest) :
      Stage victims m (.swapUnload done v rest m) done (v :: rest)
        (List.replicate done.length .unloaded)
  | loading : Stage victims m (.swapLoad m) victims []
      (List.replicate victims.length .unloaded ++ [.loads])
  | querying {error : String} : Stage victims m (.loadQuery m error .swap) victims []
      (List.replicate victims.length .unloaded ++ [.loads, .loadFailed error])
  | baseline : Stage victims m (.loadBaseline m .swap) victims []
      (List.replicate victims.length .unloaded ++ [.loads, .loaded])

/-- The error that `load_failed` has written. -/
def Task.failed : Task → Option String
  | loadQuery _ error _ => some error
  | _ => none

/-- No background task but `i` takes the model, or one of these victims, out of
    `loaded`. -/
def Apart (s : State) (i : ℕ) (m : Ref) (left : List Ref) : Prop :=
  ∀ (j : ℕ) (k : Task), s.tasks[j]? = some k → j ≠ i → ∀ r ∈ k.works,
    (s.heap r).variant.id ≠ (s.heap m).variant.id ∧
      ∀ v ∈ left, (s.heap r).variant.id ≠ (s.heap v).variant.id

/-- The books while task `i` swaps. -/
structure Swaps (s : State) (i : ℕ) (m : Ref) (victims : List Ref) (k : Task)
    (done left : List Ref) (log : List SwapEvent) : Prop where
  task : s.tasks[i]? = some k
  stage : Stage victims m k done left log
  model : s.recorded (s.heap m).variant.id = some m
  error : (s.heap m).error = k.failed
  lt : ∀ v ∈ victims, v < s.next
  conflict : ∀ v ∈ victims, claimsConflict (s.heap v).variant (s.heap m).variant = true
  gone : ∀ v ∈ done, s.recorded (s.heap v).variant.id = none
  kept : ∀ v ∈ left, s.recorded (s.heap v).variant.id = some v
  apart : Apart s i m left

/-- The books when a swap ends in a step from `s` to `t`, as its events say. -/
inductive Books (victims : List Ref) (m : Ref) (s t : State) : List SwapEvent → Prop
  | unloadFailed {done rest : List Ref} {v : Ref} {error : String}
      (hsplit : victims = done ++ v :: rest)
      (hdone : ∀ u ∈ done, t.recorded (t.heap u).variant.id = none)
      (hrest : ∀ u ∈ v :: rest, t.recorded (t.heap u).variant.id = some u ∧
        (t.heap u).leaving = false)
      (hmodel : t.recorded (t.heap m).variant.id = none)
      (herror : (t.heap m).error = some error) :
      Books victims m s t (List.replicate done.length .unloaded ++ [.unloadFailed error])
  | loadFailed {error : String} {answer : Except String (Dict String ModelState)}
      (hgone : ∀ u ∈ victims, t.recorded (t.heap u).variant.id = none)
      (hmodel : t.recorded (t.heap m).variant.id =
        if confirmsUnloaded (t.heap m).variant.id answer then none else some m)
      (herror : (t.heap m).error = some error)
      (hproblems : t.view.problems = s.view.problems ++
        if confirmsUnloaded (t.heap m).variant.id answer then []
        else [unconfirmed (t.heap m).variant.id error]) :
      Books victims m s t (List.replicate victims.length .unloaded ++
        [.loads, .loadFailed error, .listed answer])
  | loaded {answer : Except String ModelActivity}
      (hgone : ∀ u ∈ victims, t.recorded (t.heap u).variant.id = none)
      (hmodel : t.recorded (t.heap m).variant.id = some m)
      (herror : (t.heap m).error = none) :
      Books victims m s t (List.replicate victims.length .unloaded ++
        [.loads, .loaded, .baseline answer])

theorem Stage.owns {k : Task} {done left : List Ref} {log : List SwapEvent}
    (h : Stage victims m k done left log) : k.owns = some m := by
  cases h <;> rfl

theorem Stage.toUnload {k : Task} {done left : List Ref} {log : List SwapEvent}
    (h : Stage victims m k done left log) : k.toUnload = left := by
  cases h <;> rfl

theorem Stage.split {k : Task} {done left : List Ref} {log : List SwapEvent}
    (h : Stage victims m k done left log) : victims = done ++ left := by
  cases h with
  | ready => rfl
  | unloading hsplit => exact hsplit
  | loading | querying | baseline => exact (List.append_nil _).symm

/-! ## Steps of the others -/

/-- Nobody is inside `reinspect`, or tracks the models it has found. -/
structure Calm (s : State) : Prop where
  outside : Uninspected s
  untracked : ∀ (p : ℕ) (after : Option Variant) (model : Ref) (rest : List Ref),
    s.requests[p]? ≠ some (.tracking after model rest)

theorem Calm.noInstall (h : Calm s) (hok : uninspected s a = true) : NoInstall cfg s a :=
  fun _ _ _ _ hq => h.outside.not_surveys hok hq

theorem Calm.step (h : Calm s) (hok : uninspected s a = true)
    (hstep : Step cfg s a t) : Calm t := by
  refine ⟨uninspected_step h.outside hok hstep, fun p after model rest hp => ?_⟩
  rcases step_tracking hstep hp with hp₀ | ⟨model₀, rest₀, pending, hp₀, -⟩ |
    ⟨q, variant, found, pending, hq, -, hs, -⟩
  · exact h.untracked p after model rest hp₀
  · exact h.untracked p after model₀ rest₀ hp₀
  · exact h.noInstall hok p q variant found hq hs

/-- At a decision the lock is held by `place`, so nobody re-inspects. -/
theorem calm_committed (hlock : Locking s) {job : Job} (hd : s.decision p = some (job, victims)) :
    Calm (committed s p job victims) := by
  obtain ⟨look, hq, -⟩ := decision_eq_some.1 hd
  have holds : ∀ (p' : ℕ) (q : Request), (committed s p job victims).requests[p']? = some q →
      q.holdsLock = false := by
    intro p' q hp'
    rcases (Table.get_set hq).1 hp' with ⟨-, rfl⟩ | ⟨hne, hp'⟩
    · rfl
    · rcases hq' : q.holdsLock with _ | _
      · rfl
      · exact absurd (hlock p' p q _ hp' hq hq' rfl) hne
  refine ⟨fun p' q hp' => ?_, fun p' after model rest hp' => ?_⟩
  · have hfalse := holds p' q hp'
    cases q with
    | tracking after => cases hfalse
    | surveying => cases hfalse
    | arrived | checkLock | checked | looping | placeLock | judging | observing | blocked | waiting
    | joining | admitted | finished => rfl
  · cases holds p' _ hp'

/-- The models that a task works on exist. -/
theorem Refs.works_lt (h : Refs cfg s) {j : ℕ} {k : Task} (hj : s.tasks[j]? = some k) {r : Ref}
    (hr : r ∈ k.works) : r < s.next := by
  rcases List.mem_append.1 hr with ho | hv
  · exact h.owned_lt hj (Option.mem_toList.1 ho)
  · exact h.victim_lt hj (Task.victims_of_toUnload hv)

/-- A decision for another model leaves this swap's models alone. -/
theorem Swaps.not_chosen {k : Task} {done left : List Ref} {log : List SwapEvent}
    (hinv : Inv cfg s) (h : Swaps s i m victims k done left log) {job' : Job}
    {victims' : List Ref} (hd : s.decision p = some (job', victims')) :
    (s.heap m).variant.id ≠ job'.variant.id ∧
      (∀ v ∈ victims, (s.heap v).variant.id ≠ job'.variant.id) ∧
      ∀ r ∈ victims', (s.heap r).variant.id ≠ (s.heap m).variant.id ∧
        ∀ v ∈ left, (s.heap r).variant.id ≠ (s.heap v).variant.id := by
  obtain ⟨hdec, hidle⟩ := hinv.deciding.decision hd
  have howns := h.stage.owns
  have hunready := hinv.owners.unready i k m h.task howns
  have hready : ∀ r ∈ victims' ++ [], (s.heap r).ready = true := by simpa using hdec.ready
  refine ⟨fun heq => ?_, fun v hv heq => ?_, fun r hr => ⟨fun heq => ?_, fun v hv heq => ?_⟩⟩
  · have hrec := h.model
    rw [heq, hdec.absent] at hrec
    cases hrec
  · -- the model conflicts with its victims, so the decision would have found it
    obtain ⟨look, hq, -⟩ := decision_eq_some.1 hd
    have hvariant : (s.heap v).variant = job'.variant := by
      have hknown := hinv.refs.known v (h.lt v hv)
      rw [heq, hinv.refs.asked p _ job'.variant hq rfl] at hknown
      exact (Option.some.inj hknown).symm
    have hconf := h.conflict v hv
    rw [claimsConflict_comm, hvariant] at hconf
    rw [hready m (hdec.complete _ m h.model hconf)] at hunready
    cases hunready
  · have hmem : r ∈ victims' ++ [] := List.mem_append_left _ hr
    obtain rfl := hdec.own r hmem m (heq ▸ h.model)
    rw [hready m hmem] at hunready
    cases hunready
  · have hmem : r ∈ victims' ++ [] := List.mem_append_left _ hr
    obtain rfl := hdec.own r hmem v (heq ▸ h.kept v hv)
    have hleaving := (hinv.victims.leaving i k v h.task
      (Task.victims_of_toUnload (h.stage.toUnload ▸ hv))).1
    rw [(inUse_eq_false.1 (hidle v hr)).2.2] at hleaving
    cases hleaving

theorem Swaps.lt_model {k : Task} {done left : List Ref} {log : List SwapEvent} (hinv : Inv cfg s)
    (h : Swaps s i m victims k done left log) : m < s.next :=
  hinv.refs.owned_lt h.task h.stage.owns

theorem Swaps.mem_left {k : Task} {done left : List Ref} {log : List SwapEvent}
    (h : Swaps s i m victims k done left log) {v : Ref} (hv : v ∈ left) : v ∈ victims := by
  rw [h.stage.split]
  exact List.mem_append_right _ hv

theorem Swaps.mem_done {k : Task} {done left : List Ref} {log : List SwapEvent}
    (h : Swaps s i m victims k done left log) {v : Ref} (hv : v ∈ done) : v ∈ victims := by
  rw [h.stage.split]
  exact List.mem_append_left _ hv

/-- The other tasks stay away from the models of the swap. -/
theorem Swaps.apart_step {k : Task} {done left : List Ref} {log : List SwapEvent}
    (hinv : Inv cfg s) (hcalm : Calm s) (h : Swaps s i m victims k done left log)
    (hok : uninspected s a = true) (hstep : Step cfg s a t) : Apart t i m left := by
  have variant : ∀ r < s.next, (t.heap r).variant = (s.heap r).variant := fun r hr =>
    step_variant hstep hr
  have hleft : ∀ v ∈ left, v < s.next := fun v hv => h.lt v (h.mem_left hv)
  -- a task that was there works on the models it worked on
  have old : ∀ {j : ℕ} {k' : Task} {r : Ref}, s.tasks[j]? = some k' → j ≠ i → r ∈ k'.works →
      (t.heap r).variant.id ≠ (t.heap m).variant.id ∧
        ∀ v ∈ left, (t.heap r).variant.id ≠ (t.heap v).variant.id := by
    intro j k' r hj hne hr
    rw [variant r (hinv.refs.works_lt hj hr), variant m (h.lt_model hinv)]
    refine ⟨(h.apart j k' hj hne r hr).1, fun v hv => ?_⟩
    rw [variant v (hleft v hv)]
    exact (h.apart j k' hj hne r hr).2 v hv
  intro j k' hj hne r hr
  cases step_tasks hstep with
  | same ht => exact old (ht ▸ hj) hne hr
  | @move j₀ k₀ k₁ hk ht howns _ hunload =>
    rw [ht, Table.get_set hk] at hj
    rcases hj with ⟨rfl, rfl⟩ | ⟨-, hj⟩
    · refine old hk hne ?_
      rcases List.mem_append.1 hr with ho | hv
      · rcases howns with heq | hnone
        · exact List.mem_append_left _ (heq ▸ ho)
        · rw [hnone] at ho; cases ho
      · exact List.mem_append_right _ (hunload r hv)
    · exact old hj hne hr
  | track hq => exact (hcalm.untracked _ _ _ _ hq).elim
  | install hq hs => exact absurd hs (hcalm.noInstall hok _ _ _ _ hq)
  | @swap p' job' victims' hd ht =>
    obtain ⟨hmodel, hvictims, hchosen⟩ := h.not_chosen hinv hd
    have htasks : t.tasks = s.tasks ++ [.swapReady victims' s.next] := by rw [ht]; rfl
    rw [htasks] at hj
    rcases Table.get_push.1 hj with ⟨-, rfl⟩ | hj
    · rcases List.mem_cons.1 (show r ∈ s.next :: victims' from hr) with rfl | hr
      · have hnew : (t.heap s.next).variant = job'.variant := by
          rw [ht]
          simp [committed, newModel]
        rw [hnew, variant m (h.lt_model hinv)]
        refine ⟨hmodel.symm, fun v hv => ?_⟩
        rw [variant v (hleft v hv)]
        exact (hvictims v (h.mem_left hv)).symm
      · rw [variant r (hinv.refs.decided_lt hd hr), variant m (h.lt_model hinv)]
        refine ⟨(hchosen r hr).1, fun v hv => ?_⟩
        rw [variant v (hleft v hv)]
        exact (hchosen r hr).2 v hv
    · exact old hj hne hr

/-- A step that is not the swap's own leaves its books as they are. -/
theorem Swaps.other {k : Task} {done left : List Ref} {log : List SwapEvent}
    (hinv : Inv cfg s) (hcalm : Calm s) (h : Swaps s i m victims k done left log)
    (hok : uninspected s a = true) (ha : a.task? ≠ some i) (hstep : Step cfg s a t) :
    Swaps t i m victims k done left log := by
  have variant : ∀ r < s.next, (t.heap r).variant = (s.heap r).variant := fun r hr =>
    step_variant hstep hr
  have htask := task_others hstep ha h.task
  have hm := h.lt_model hinv
  have howns := h.stage.owns
  -- the models of this swap are nobody else's
  have stays : ∀ r, s.recorded (s.heap r).variant.id = some r → (r = m ∨ r ∈ left) →
      t.recorded (s.heap r).variant.id = some r := by
    intro r hr hmem
    have clash : ∀ {j : ℕ} {k' : Task} {r' : Ref}, s.tasks[j]? = some k' → j ≠ i → r' ∈ k'.works →
        (s.heap r').variant.id ≠ (s.heap r).variant.id := by
      intro j k' r' hj hne hr'
      rcases hmem with rfl | hmem
      · exact (h.apart j k' hj hne r' hr').1
      · exact (h.apart j k' hj hne r' hr').2 r hmem
    rcases step_kept hinv.deciding hstep hr with hkept | ⟨victim, ⟨j, done', rest', model', answer, hj,
      rfl, -⟩, hid⟩ | ⟨model', ⟨j, k', hj, ho, ht, -⟩, hid⟩ | ⟨p', q, variant', found, hq, hs⟩
    · exact hkept
    · refine absurd hid (clash hj (fun heq => ha (heq ▸ rfl)) ?_)
      exact List.mem_append_right _ List.mem_cons_self
    · have hworks : model' ∈ k'.works :=
        List.mem_append_left _ (by rw [ho]; exact List.mem_singleton_self _)
      refine absurd hid (clash hj ?_ hworks)
      rintro rfl
      rw [ht, Table.get_set_self hj] at htask
      obtain rfl := Option.some.inj htask
      cases howns
    · exact absurd hs (hcalm.noInstall hok p' q variant' found hq)
  refine ⟨htask, h.stage, ?_, ?_, ?_, ?_, ?_, ?_, h.apart_step hinv hcalm hok hstep⟩
  · rw [variant m hm]
    exact stays m h.model (.inl rfl)
  · rw [(owned_kept hinv.owners hstep ha h.task howns hm).1]
    exact h.error
  · exact fun v hv => Nat.lt_of_lt_of_le (h.lt v hv) (step_next_le hstep)
  · intro v hv
    rw [variant v (h.lt v hv), variant m hm]
    exact h.conflict v hv
  · intro v hv
    rw [variant v (h.lt v (h.mem_done hv))]
    cases step_loaded hstep with
    | fewer hl =>
      rcases hrec : t.recorded (s.heap v).variant.id with _ | r
      · rfl
      · have hold := hl _ r hrec
        rw [h.gone v hv] at hold
        cases hold
    | commit hd ht =>
      rw [ht, recorded_committed, if_neg ((h.not_chosen hinv hd).2.1 v (h.mem_done hv))]
      exact h.gone v hv
    | install hq hs => exact absurd hs (hcalm.noInstall hok _ _ _ _ hq)
  · intro v hv
    rw [variant v (h.lt v (h.mem_left hv))]
    exact stays v (h.kept v hv) (.inr hv)

/-! ## Steps of the swap -/

theorem swapCall_eq {k k' : Task} (hs : s.tasks[i]? = some k) (ht : t.tasks[i]? = some k') :
    s.swapCall i t = if k'.awaitsLoad && !k.awaitsLoad then [.loads] else [] := by
  unfold State.swapCall
  rw [hs, ht]
  rfl

/-- The models left are different ones, and not the new model. -/
theorem Swaps.distinct {k : Task} {done left : List Ref} {log : List SwapEvent}
    (hinv : Inv cfg s) (h : Swaps s i m victims k done left log) :
    (∀ v ∈ left, (s.heap m).variant.id ≠ (s.heap v).variant.id) ∧ m ∉ left ∧
      ∀ v ∈ left, ∀ w ∈ left, (s.heap w).variant.id = (s.heap v).variant.id → w = v := by
  have hunready := hinv.owners.unready i k m h.task h.stage.owns
  have hready : ∀ v ∈ left, (s.heap v).ready = true := fun v hv =>
    (hinv.victims.leaving i k v h.task (Task.victims_of_toUnload (h.stage.toUnload ▸ hv))).2
  have hnot : m ∉ left := by
    intro hm
    rw [hready m hm] at hunready
    cases hunready
  refine ⟨fun v hv heq => ?_, hnot, fun v hv w hw heq => ?_⟩
  · have hrec := h.kept v hv
    rw [← heq, h.model] at hrec
    exact hnot (Option.some.inj hrec ▸ hv)
  · have hrec := h.kept w hw
    rw [heq, h.kept v hv] at hrec
    exact (Option.some.inj hrec).symm

/-- The other tasks stay away from what is left. -/
theorem Apart.set {left left' : List Ref} {k : Task} (h : Apart s i m left)
    (ht : t.tasks = s.tasks.set i k) (hvariant : ∀ r, (t.heap r).variant = (s.heap r).variant)
    (hleft : ∀ v ∈ left', v ∈ left) : Apart t i m left' := by
  intro j k' hj hne r hr
  rw [ht, List.getElem?_set_ne hne.symm] at hj
  rw [hvariant r, hvariant m]
  refine ⟨(h j k' hj hne r hr).1, fun v hv => ?_⟩
  rw [hvariant v]
  exact (h j k' hj hne r hr).2 v (hleft v hv)

/-- The swap ends in a step from `s` to `t`. -/
structure Ends (s t : State) (i : ℕ) (m : Ref) (victims : List Ref) (log : List SwapEvent) :
    Prop where
  task : t.tasks[i]? = some .ended
  ready : (t.heap m).ready = true
  books : Books victims m s t log

/-- Where the swap is after a step of its own: it goes on, or has ended. -/
def After (s t : State) (i : ℕ) (m : Ref) (victims : List Ref) (log : List SwapEvent) : Prop :=
  (∃ k done left, Swaps t i m victims k done left log) ∨ Ends s t i m victims log

/-- The loop of `swap` at its head. -/
theorem after_swapNext {done rest : List Ref} {k : Task} (hk : s.tasks[i]? = some k)
    (hloading : k.awaitsLoad = false) (ht : t.tasks = s.tasks.set i (swapNext done rest m))
    (hsplit : victims = done ++ rest)
    (hswaps : ∀ log, Stage victims m (swapNext done rest m) done rest log →
      Swaps t i m victims (swapNext done rest m) done rest log) :
    After s t i m victims (List.replicate done.length .unloaded ++ s.swapCall i t) := by
  have htask : t.tasks[i]? = some (swapNext done rest m) := by
    rw [ht]
    exact Table.get_set_self hk
  rw [swapCall_eq hk htask, hloading]
  refine .inl ⟨_, done, rest, hswaps _ ?_⟩
  cases rest with
  | nil =>
    obtain rfl : victims = done := by simpa using hsplit
    exact .loading
  | cons v rest =>
    have hstage := @Stage.unloading victims m done rest v hsplit
    simpa [swapNext, Task.awaitsLoad] using hstage

/-- `unload` returned. -/
theorem Swaps.unloaded {done rest : List Ref} {v : Ref} {log : List SwapEvent} (hinv : Inv cfg s)
    (h : Swaps s i m victims (.swapUnload done v rest m) done (v :: rest) log) :
    After s (unloaded s i done v rest m) i m victims
      (List.replicate (done ++ [v]).length .unloaded ++
        s.swapCall i (unloaded s i done v rest m)) := by
  have ht : ModelBroker.unloaded s i done v rest m =
      (s.delete (s.heap v).variant.id).setTask i (swapNext (done ++ [v]) rest m) := by
    unfold ModelBroker.unloaded
    rw [h.kept v List.mem_cons_self]
  obtain ⟨hmodel, -, hdistinct⟩ := h.distinct hinv
  have hnodup : v ∉ rest := by
    have hall := hinv.victims.nodup i _ h.task
    exact (List.nodup_cons.1 (List.nodup_append.1 hall).2.1).1
  have hsplit : victims = (done ++ [v]) ++ rest := by simpa using h.stage.split
  rw [ht]
  refine after_swapNext h.task rfl rfl hsplit fun log' hstage => ?_
  refine ⟨Table.get_set_self h.task, hstage, ?_, ?_, h.lt, h.conflict, ?_, ?_, ?_⟩
  · exact (State.recorded_delete ..).trans ((if_neg (hmodel v List.mem_cons_self)).trans h.model)
  · have hfailed : (swapNext (done ++ [v]) rest m).failed = none := by cases rest <;> rfl
    rw [hfailed]
    exact h.error
  · intro u hu
    refine (State.recorded_delete ..).trans ?_
    split_ifs with hid
    · rfl
    · rcases List.mem_append.1 hu with hu | hu
      · exact h.gone u hu
      · exact absurd (by rw [List.mem_singleton.1 hu]; rfl) hid
  · intro w hw
    refine (State.recorded_delete ..).trans ((if_neg fun hid => ?_).trans
      (h.kept w (List.mem_cons_of_mem _ hw)))
    obtain rfl := hdistinct v List.mem_cons_self w (List.mem_cons_of_mem _ hw) hid
    exact hnodup hw
  · exact h.apart.set rfl (fun _ => rfl) fun w hw => List.mem_cons_of_mem _ hw

/-- `unload` failed: the rest of the victims are given back. -/
theorem Swaps.unloadFailed {done rest : List Ref} {v : Ref} {log : List SwapEvent} {error : String}
    (hinv : Inv cfg s)
    (h : Swaps s i m victims (.swapUnload done v rest m) done (v :: rest) log) :
    Ends s (unloadFailed s i (done ++ v :: rest) m error) i m victims
      (List.replicate done.length .unloaded ++ [.unloadFailed error]) := by
  obtain ⟨hmodel, hnot, -⟩ := h.distinct hinv
  have ht : ModelBroker.unloadFailed s i (done ++ v :: rest) m error =
      (((s.edit (done ++ v :: rest) fun m' => { m' with leaving := false }).delete
        (s.heap m).variant.id).edit [m] fun m' =>
          { m' with error := some error, ready := true }).setTask i .ended := by
    unfold ModelBroker.unloadFailed
    dsimp only
    rw [h.model]
  have hvariant : ∀ r, ((ModelBroker.unloadFailed s i (done ++ v :: rest) m error).heap r).variant =
      (s.heap r).variant := by
    intro r
    rw [ht]
    simp only [State.setTask_heap, State.edit_heap, State.delete_heap]
    split_ifs <;> rfl
  have hrec : ∀ id, (ModelBroker.unloadFailed s i (done ++ v :: rest) m error).recorded id =
      if id = (s.heap m).variant.id then none else s.recorded id := by
    intro id
    rw [ht]
    exact State.recorded_delete ..
  refine ⟨?_, ?_, .unloadFailed h.stage.split ?_ ?_ ?_ ?_⟩
  · rw [ht]
    exact Table.get_set_self h.task
  · rw [ht]
    simp
  · intro u hu
    rw [hvariant, hrec]
    split_ifs
    · rfl
    · exact h.gone u hu
  · intro u hu
    rw [hvariant, hrec, if_neg fun heq => hmodel u hu heq.symm]
    refine ⟨h.kept u hu, ?_⟩
    have hne : u ≠ m := fun heq => hnot (heq ▸ hu)
    rw [ht]
    simp only [State.setTask_heap, State.edit_heap, State.delete_heap, List.mem_singleton, hne,
      if_false, List.mem_append_right done hu, if_true]
  · rw [hvariant, hrec, if_pos rfl]
  · rw [ht]
    simp

/-- A step that changes the model only, and not what is stored. -/
theorem Swaps.edit {k k' : Task} {done left done' left' : List Ref} {log log' : List SwapEvent}
    {f : LoadedModel → LoadedModel} (h : Swaps s i m victims k done left log)
    (hf : ∀ model, (f model).variant = model.variant)
    (herror : (f (s.heap m)).error = k'.failed)
    (hstage : Stage victims m k' done' left' log') (hdone : ∀ v ∈ done', v ∈ done)
    (hleft : ∀ v ∈ left', v ∈ left) :
    Swaps ((s.edit [m] f).setTask i k') i m victims k' done' left' log' := by
  have hvariant : ∀ r, (((s.edit [m] f).setTask i k').heap r).variant = (s.heap r).variant := by
    intro r
    simp only [State.setTask_heap, State.edit_heap]
    split_ifs
    · exact hf _
    · rfl
  refine ⟨Table.get_set_self h.task, hstage, ?_, ?_, h.lt, ?_, ?_, ?_,
    h.apart.set rfl hvariant hleft⟩
  · rw [hvariant]
    exact h.model
  · simpa using herror
  · intro v hv
    rw [hvariant, hvariant]
    exact h.conflict v hv
  · intro v hv
    rw [hvariant]
    exact h.gone v (hdone v hv)
  · intro v hv
    rw [hvariant]
    exact h.kept v (hleft v hv)

/-- The answer after a failed load. -/
theorem Swaps.queried {error : String} {log : List SwapEvent}
    {answer : Except String (Dict String ModelState)}
    (h : Swaps s i m victims (.loadQuery m error .swap) victims [] log) :
    Ends s (queried s i m error .swap answer) i m victims
      (List.replicate victims.length .unloaded ++ [.loads, .loadFailed error, .listed answer]) := by
  have hvariant : ∀ r, ((ModelBroker.queried s i m error .swap answer).heap r).variant =
      (s.heap r).variant := by
    intro r
    unfold ModelBroker.queried settle
    dsimp only
    split_ifs <;>
      simp only [State.setTask_heap, State.edit_heap, State.delete_heap, State.report_heap] <;>
      split_ifs <;> rfl
  have hrec : ∀ id, (ModelBroker.queried s i m error .swap answer).recorded id =
      if confirmsUnloaded (s.heap m).variant.id answer = true ∧ id = (s.heap m).variant.id then none
      else s.recorded id := by
    intro id
    unfold ModelBroker.queried settle
    dsimp only
    rw [if_pos h.model]
    cases confirmsUnloaded (s.heap m).variant.id answer with
    | false => rfl
    | true =>
      simp only [if_true, true_and]
      exact State.recorded_delete ..
  have hself : (ModelBroker.queried s i m error .swap answer).heap m =
      (s.heap m).settled s.now .swap := by
    unfold ModelBroker.queried settle
    dsimp only
    split_ifs <;> simp
  refine ⟨?_, by rw [hself]; rfl, .loadFailed ?_ ?_ ?_ ?_⟩
  · unfold ModelBroker.queried settle
    dsimp only
    split_ifs <;> exact Table.get_set_self h.task
  · intro u hu
    rw [hvariant, hrec]
    split_ifs
    · rfl
    · exact h.gone u hu
  · rw [hvariant, hrec, h.model]
    simp
  · rw [hself]
    exact h.error
  · rw [hvariant]
    unfold ModelBroker.queried settle
    dsimp only
    cases confirmsUnloaded (s.heap m).variant.id answer with
    | true => simp [h.model]
    | false => simp [unconfirmed]

/-- The baseline after a load. -/
theorem Swaps.baselined {log : List SwapEvent} {answer : Except String ModelActivity}
    (h : Swaps s i m victims (.loadBaseline m .swap) victims [] log) :
    Ends s (settle (s.edit [m] fun model => model.withBaseline answer) i m .swap) i m victims
      (List.replicate victims.length .unloaded ++ [.loads, .loaded, .baseline answer]) := by
  have hsettle : settle (s.edit [m] fun model => model.withBaseline answer) i m .swap =
      (s.edit [m] fun model => (model.withBaseline answer).settled s.now .swap).setTask i
        .ended := by
    unfold settle
    rw [State.edit_edit]
    rfl
  have hvariant : ∀ r, ((settle (s.edit [m] fun model => model.withBaseline answer) i m
      .swap).heap r).variant = (s.heap r).variant := by
    intro r
    rw [hsettle]
    simp only [State.setTask_heap, State.edit_heap]
    split_ifs
    · simp [LoadedModel.settled]
    · rfl
  refine ⟨by rw [hsettle]; exact Table.get_set_self h.task, ?_, .loaded ?_ ?_ ?_⟩
  · rw [hsettle]
    simp [LoadedModel.settled]
  · intro u hu
    rw [hvariant]
    exact h.gone u hu
  · rw [hvariant]
    exact h.model
  · rw [hsettle]
    have herror : (s.heap m).error = none := h.error
    simp [LoadedModel.settled, herror]

/-- The end of a swap is no call of `load`. -/
theorem Ends.after {log log' : List SwapEvent} (h : Ends s t i m victims log)
    (hk : ∃ k, s.tasks[i]? = some k) (hlog : log' = log) :
    After s t i m victims (log' ++ s.swapCall i t) := by
  obtain ⟨k, hk⟩ := hk
  rw [swapCall_eq hk h.task, hlog]
  exact .inr (by simpa [Task.awaitsLoad] using h)

/-- A step that goes on without a call of `load`. -/
theorem Swaps.after {k k' : Task} {done left : List Ref} {log log' : List SwapEvent}
    (h : Swaps t i m victims k' done left log) (hk : s.tasks[i]? = some k)
    (hloading : k'.awaitsLoad = false) (hlog : log' = log) :
    After s t i m victims (log' ++ s.swapCall i t) := by
  rw [swapCall_eq hk h.task, hlog, hloading]
  exact .inl ⟨k', done, left, by simpa using h⟩

/-- The swap after a step of its own. -/
theorem Swaps.own {k : Task} {done left : List Ref} {log : List SwapEvent} (hinv : Inv cfg s)
    (h : Swaps s i m victims k done left log) (ha : a.task? = some i)
    (hstep : step cfg s a = some t) :
    After s t i m victims (log ++ s.swapAnswer i a ++ s.swapCall i t) := by
  obtain ⟨k', hk', hmoves⟩ := task_moves hstep ha
  obtain rfl := Option.some.inj (h.task.symm.trans hk')
  cases id h.stage with
  | ready =>
    cases hmoves
    refine after_swapNext (t := s.setTask i (swapNext [] victims m)) h.task rfl rfl rfl
      fun log' hstage => ?_
    refine ⟨Table.get_set_self h.task, hstage, h.model, ?_, h.lt, h.conflict, h.gone, h.kept,
      h.apart.set rfl (fun _ => rfl) fun _ hv => hv⟩
    have hfailed : (swapNext [] victims m).failed = none := by cases victims <;> rfl
    rw [hfailed]
    exact h.error
  | @unloading _ rest v hsplit =>
    cases hmoves with
    | unloaded =>
      have hafter := h.unloaded hinv
      rw [List.length_append, List.length_singleton, List.replicate_succ'] at hafter
      simpa [State.swapAnswer, h.task] using hafter
    | @unloadFailed _ _ _ _ error =>
      exact (h.unloadFailed hinv).after ⟨_, h.task⟩ (by simp [State.swapAnswer, h.task])
  | loading =>
    cases hmoves with
    | loaded =>
      have hnext := @Swaps.edit s i m victims _ (.loadBaseline m .swap) victims [] victims [] _ _ id h
        (fun _ => rfl) h.error .baseline (fun _ hv => hv) fun _ hv => hv
      have hid : s.edit [m] id = s := by simp [State.edit]
      rw [hid] at hnext
      exact hnext.after h.task rfl (by simp [State.swapAnswer, h.task])
    | @loadFailed _ error =>
      have hnext := @Swaps.edit s i m victims _ (.loadQuery m error .swap) victims [] victims [] _ _
        (fun model => { model with error := some error }) h (fun _ => rfl) rfl .querying
        (fun _ hv => hv) fun _ hv => hv
      exact hnext.after h.task rfl (by simp [State.swapAnswer, h.task])
  | querying =>
    cases hmoves
    exact h.queried.after ⟨_, h.task⟩ (by simp [State.swapAnswer])
  | baseline =>
    cases hmoves
    exact h.baselined.after ⟨_, h.task⟩ (by simp [State.swapAnswer])

/-- A swap alters no record but its own. -/
theorem Swaps.frame {k : Task} {done left : List Ref} {log : List SwapEvent}
    (h : Swaps s i m victims k done left log) (ha : a.task? = some i)
    (hstep : step cfg s a = some t) :
    (∀ r, r ≠ m → r ∉ victims → t.heap r = s.heap r) ∧
      ∀ id, id ≠ (s.heap m).variant.id → (∀ v ∈ victims, id ≠ (s.heap v).variant.id) →
        t.recorded id = s.recorded id := by
  obtain ⟨k', hk', hmoves⟩ := task_moves hstep ha
  obtain rfl := Option.some.inj (h.task.symm.trans hk')
  cases id h.stage with
  | ready =>
    cases hmoves
    exact ⟨fun _ _ _ => rfl, fun _ _ _ => rfl⟩
  | @unloading _ rest v hsplit =>
    have hv : v ∈ victims := h.mem_left List.mem_cons_self
    cases hmoves with
    | unloaded =>
      unfold ModelBroker.unloaded
      rw [h.kept v List.mem_cons_self]
      refine ⟨fun _ _ _ => rfl, fun id _ hid => ?_⟩
      exact (State.recorded_delete ..).trans (if_neg (hid v hv))
    | unloadFailed =>
      unfold ModelBroker.unloadFailed
      dsimp only
      rw [h.model]
      refine ⟨fun r hr hrv => ?_, fun id hid _ => ?_⟩
      · rw [hsplit] at hrv
        simp only [State.setTask_heap, State.edit_heap, State.delete_heap, List.mem_singleton, hr,
          hrv, if_false]
      · exact (State.recorded_delete ..).trans (if_neg hid)
  | loading =>
    cases hmoves with
    | loaded => exact ⟨fun _ _ _ => rfl, fun _ _ _ => rfl⟩
    | loadFailed => exact ⟨fun r hr _ => by simp [loadFailed, hr], fun _ _ _ => rfl⟩
  | querying =>
    cases hmoves
    unfold ModelBroker.queried settle
    dsimp only
    split_ifs
    · refine ⟨fun r hr _ => by simp [hr], fun id hid _ => ?_⟩
      exact (State.recorded_delete ..).trans (if_neg hid)
    · exact ⟨fun r hr _ => by simp [hr], fun _ _ _ => rfl⟩
    · exact ⟨fun r hr _ => by simp [hr], fun _ _ _ => rfl⟩
  | baseline =>
    cases hmoves
    exact ⟨fun r hr _ => by simp [settle, hr], fun _ _ _ => rfl⟩

/-! ## From the decision to the end -/

/-- What a decision finds in `loaded`: its victims are there, and no other task
    in progress is about a model with the id of one of them or of the new model. -/
structure Clean (s : State) (job : Job) (victims : List Ref) : Prop where
  present : ∀ v ∈ victims, s.recorded (s.heap v).variant.id = some v
  apart : ∀ (j : ℕ) (k : Task), s.tasks[j]? = some k → ∀ r ∈ k.works,
    (s.heap r).variant.id ≠ job.variant.id ∧
      ∀ v ∈ victims, (s.heap r).variant.id ≠ (s.heap v).variant.id

/-- If nobody has ever re-inspected, only the victims have to be looked at. -/
theorem Stored.clean (hinv : Inv cfg s) (h : Stored s) {job : Job}
    (hd : s.decision p = some (job, victims))
    (hpresent : ∀ v ∈ victims, s.recorded (s.heap v).variant.id = some v) :
    Clean s job victims := by
  obtain ⟨hdec, hidle⟩ := hinv.deciding.decision hd
  refine ⟨hpresent, fun j k hj r hr => ?_⟩
  rcases List.mem_append.1 hr with ho | hr
  · have ho : k.owns = some r := Option.mem_toList.1 ho
    have hrec := h.model j k r hj ho
    refine ⟨fun heq => ?_, fun v hv heq => ?_⟩
    · rw [heq, hdec.absent] at hrec
      cases hrec
    · rw [heq, hpresent v hv] at hrec
      obtain rfl := Option.some.inj hrec
      have hready := hdec.ready v hv
      rw [hinv.owners.unready j k v hj ho] at hready
      cases hready
  · refine ⟨h.not_victim hinv hj hr hd, fun v hv heq => ?_⟩
    obtain rfl := h.victim j k r v hj hr (heq ▸ hpresent v hv)
    have hleaving := (hinv.victims.leaving j k v hj (Task.victims_of_toUnload hr)).1
    rw [(inUse_eq_false.1 (hidle v hv)).2.2] at hleaving
    cases hleaving

/-- The books when the swap begins. -/
theorem swaps_committed (hinv : Inv cfg s) {job : Job} (hd : s.decision p = some (job, victims))
    (hclean : Clean s job victims) :
    Swaps (committed s p job victims) s.tasks.length s.next victims (.swapReady victims s.next) []
      victims [] := by
  obtain ⟨hdec, -⟩ := hinv.deciding.decision hd
  have hlt : ∀ v ∈ victims, v < s.next := fun v hv => hinv.refs.decided_lt hd hv
  have hmodel : ((committed s p job victims).heap s.next).variant = job.variant := by
    simp [committed, newModel]
  have hold : ∀ r < s.next,
      ((committed s p job victims).heap r).variant = (s.heap r).variant := by
    intro r hr
    rw [committed_of_lt hr]
    split_ifs <;> rfl
  refine ⟨by simp [committed], .ready, ?_, by simp [committed, newModel, Task.failed],
    ?_, ?_, ?_, ?_, ?_⟩
  · rw [hmodel, recorded_committed, if_pos rfl]
  · exact fun v hv => Nat.lt_succ_of_lt (hlt v hv)
  · intro v hv
    rw [hold v (hlt v hv), hmodel]
    exact hdec.conflict v (List.mem_append_left _ hv)
  · exact fun v hv => absurd hv List.not_mem_nil
  · intro v hv
    rw [hold v (hlt v hv), recorded_committed, if_neg (hdec.other v (List.mem_append_left _ hv))]
    exact hclean.present v hv
  · intro j k hj hne r hr
    have hj : s.tasks[j]? = some k := by
      rcases Table.get_push.1 hj with ⟨rfl, -⟩ | hj
      · exact absurd rfl hne
      · exact hj
    rw [hold r (hinv.refs.works_lt hj hr), hmodel]
    refine ⟨(hclean.apart j k hj r hr).1, fun v hv => ?_⟩
    rw [hold v (hlt v hv)]
    exact (hclean.apart j k hj r hr).2 v hv

/-- A step that is not the swap's own is no event of it. -/
theorem no_event {k : Task} (hk : s.tasks[i]? = some k) (ha : a.task? ≠ some i)
    (hstep : Step cfg s a t) : s.swapAnswer i a = [] ∧ s.swapCall i t = [] := by
  constructor
  · cases a with
    | call j answer | taskStates j answer | taskActivity j answer =>
      have hne : j ≠ i := fun heq => ha (congrArg some heq)
      simp [State.swapAnswer, hne]
    | tick | arrive | resume | props | states | activity | cancel | run => rfl
  · rw [swapCall_eq hk (task_others hstep ha hk)]
    simp

/-- A run from a decision on is a run of the scheduler. -/
theorem swapRun_free (hs : (scheduler cfg).Free s) {job : Job}
    (hd : s.decision p = some (job, victims)) {x : State × List SwapEvent}
    (hx : (swapRun cfg s p job victims).Reach (fun x c => undisturbed x c = true) x) :
    (scheduler cfg).Free x.1 := by
  have hrun : ((scheduler cfg).startingIn fun u => u = committed s p job victims).Free x.1 :=
    hx.program fun _ _ _ => trivial
  refine hrun.of_startingIn fun u hu => ?_
  have hstep : (scheduler cfg).step s (.resume p) = some (committed s p job victims) :=
    step_decision hd
  rw [hu]
  exact .step hs trivial hstep

/-- The swap is in progress with its books in order, or has ended. -/
theorem swap_progress (hs : (scheduler cfg).Free s) {job : Job}
    (hd : s.decision p = some (job, victims)) (hclean : Clean s job victims)
    {x : State × List SwapEvent}
    (hx : (swapRun cfg s p job victims).Reach (fun x c => undisturbed x c = true) x) :
    Calm x.1 ∧ ((∃ k done left,
        Swaps x.1 s.tasks.length s.next victims k done left x.2) ∨
      x.1.tasks[s.tasks.length]? = some .ended) := by
  induction hx with
  | init h =>
    obtain ⟨hx, hlog⟩ := h
    rw [show _ = committed s p job victims from hx, hlog]
    exact ⟨calm_committed (inv hs).locking hd,
      .inl ⟨_, _, _, swaps_committed (inv hs) hd hclean⟩⟩
  | @step x y c hx hok hy ih =>
    cases c with
    | inr c => exact c.elim
    | inl a =>
      obtain ⟨hstep, hlog⟩ := System.under_inl.1 hy
      have hstep : step cfg x.1 a = some y.1 := hstep
      have hok : uninspected x.1 a = true := hok
      have hlog : y.2 = x.2 ++ x.1.swapAnswer s.tasks.length a ++
          x.1.swapCall s.tasks.length y.1 := hlog
      have hinv := inv (swapRun_free hs hd hx)
      obtain ⟨hcalm, hswap⟩ := ih
      refine ⟨hcalm.step hok (step_cases hstep), ?_⟩
      rw [hlog]
      by_cases ha : a.task? = some s.tasks.length
      · rcases hswap with ⟨k, done, left, hswap⟩ | hended
        · exact (hswap.own hinv ha hstep).imp_right Ends.task
        · obtain ⟨k, hk, hmoves⟩ := task_moves hstep ha
          obtain rfl := Option.some.inj (hended.symm.trans hk)
          cases hmoves
      · rcases hswap with ⟨k, done, left, hswap⟩ | hended
        · obtain ⟨hanswer, hcall⟩ := no_event hswap.task ha (step_cases hstep)
          rw [hanswer, hcall, List.append_nil, List.append_nil]
          exact .inl ⟨k, done, left, hswap.other hinv hcalm hok ha (step_cases hstep)⟩
        · exact .inr (task_others (step_cases hstep) ha hended)

/-- Whoever waits for the model, now or later, fails with this error. -/
def FailsWith (cfg : Config) (t : State) (m : Ref) (error : String) : Prop :=
  ∀ u, ((scheduler cfg).startingIn fun u => u = t).Free u → ∀ q : ℕ,
    u.requests[q]? = some (.joining m) → ∃ v, step cfg u (.resume q) = some v ∧
      v.requests[q]? = some (.finished (.loadFailed error))

/-- A model that is ready keeps its error. -/
theorem failsWith (ht : (scheduler cfg).Free t) (hm : m < t.next)
    (hready : (t.heap m).ready = true) {error : String} (herror : (t.heap m).error = some error) :
    FailsWith cfg t m error := by
  intro u hu
  have hkept : (scheduler cfg).Free u ∧ m < u.next ∧ (u.heap m).ready = true ∧
      (u.heap m).error = some error := by
    induction hu with
    | init h => rw [h]; exact ⟨ht, hm, hready, herror⟩
    | @step u v a hu _ hstep ih =>
      obtain ⟨hfree, hlt, hready, herror⟩ := ih
      have hcases := step_cases hstep
      refine ⟨.step hfree trivial hstep, Nat.lt_of_lt_of_le hlt (step_next_le hcases),
        step_ready_mono hcases hlt hready, ?_⟩
      rw [(inv hfree).error_of_ready hcases hlt hready]
      exact herror
  obtain ⟨-, -, hready, herror⟩ := hkept
  intro q hq
  refine ⟨joined u q m, by simp [step, hq, resume, hready], ?_⟩
  unfold joined
  simp only [State.edit_heap, List.mem_singleton, if_true, herror]
  exact Table.get_set_self hq

/-- A swap keeps the books. From a decision whose victims are all in `loaded`, in
    every run without a re-inspection: the swap does not die; when it ends, its
    model is ready, `loaded`, the marks of its victims and `view.problems` are as
    its calls of the backends say, and whoever waits for a model that failed gets
    its error; and no step of the swap changes a record, or what is stored, of any
    other model. -/
theorem swap_books (hs : (scheduler cfg).Free s) {job : Job}
    (hd : s.decision p = some (job, victims)) (hclean : Clean s job victims)
    {x : State × List SwapEvent}
    (hx : (swapRun cfg s p job victims).Reach (fun x c => undisturbed x c = true) x)
    (hok : undisturbed x (.inl a) = true) (hstep : step cfg x.1 a = some t) :
    t.tasks[s.tasks.length]? ≠ some .crashed ∧
    (x.1.tasks[s.tasks.length]? ≠ some .ended → t.tasks[s.tasks.length]? = some .ended →
      (t.heap s.next).ready = true ∧
      Books victims s.next x.1 t (x.2 ++ x.1.swapAnswer s.tasks.length a ++
        x.1.swapCall s.tasks.length t) ∧
      ∀ error, (t.heap s.next).error = some error → FailsWith cfg t s.next error) ∧
    (a.task? = some s.tasks.length →
      (∀ r, r ≠ s.next → r ∉ victims → t.heap r = x.1.heap r) ∧
      ∀ id, id ≠ (x.1.heap s.next).variant.id →
        (∀ v ∈ victims, id ≠ (x.1.heap v).variant.id) → t.recorded id = x.1.recorded id) := by
  have hfree := swapRun_free hs hd hx
  obtain ⟨-, hswap⟩ := swap_progress hs hd hclean hx
  have hnext : (swapRun cfg s p job victims).Reach (fun x c => undisturbed x c = true)
      (t, x.2 ++ x.1.swapAnswer s.tasks.length a ++ x.1.swapCall s.tasks.length t) :=
    hx.react hok hstep
  have hfree' : (scheduler cfg).Free t := .step hfree trivial hstep
  obtain ⟨-, hswap'⟩ := swap_progress hs hd hclean hnext
  refine ⟨fun hcrashed => ?_, fun halive hended => ?_, fun ha => ?_⟩
  · rcases hswap' with ⟨k, done, left, hswap'⟩ | hended
    · obtain rfl := Option.some.inj (hcrashed.symm.trans hswap'.task)
      cases hswap'.stage
    · rw [hended] at hcrashed
      cases hcrashed
  · obtain ⟨k, done, left, hswap⟩ := hswap.resolve_right halive
    have ha : a.task? = some s.tasks.length := by
      by_contra hne
      have hsame := task_others (step_cases hstep) hne hswap.task
      obtain rfl := Option.some.inj (hsame.symm.trans hended)
      cases hswap.stage
    rcases hswap.own (inv hfree) ha hstep with ⟨k', done', left', hlive⟩ | hends
    · obtain rfl := Option.some.inj (hended.symm.trans hlive.task)
      cases hlive.stage
    · have hlt := Nat.lt_of_lt_of_le (hswap.lt_model (inv hfree)) (step_next_le (step_cases hstep))
      exact ⟨hends.ready, hends.books, fun error herror =>
        failsWith hfree' hlt hends.ready herror⟩
  · rcases hswap with ⟨k, done, left, hswap⟩ | hended
    · exact hswap.frame ha hstep
    · obtain ⟨k, hk, hmoves⟩ := task_moves hstep ha
      obtain rfl := Option.some.inj (hended.symm.trans hk)
      cases hmoves

/-- One router and five models, three of which can be loaded together. -/
def fiveCards : Config :=
  .ofVariants oneRouter
    [.claiming "llama" "x--cuda2" ["GPU2"], .claiming "llama" "c--cuda03" ["GPU0", "GPU3"],
      .claiming "llama" "d--cuda14" ["GPU1", "GPU4"],
      .claiming "llama" "n--cuda01" ["GPU0", "GPU1"],
      .claiming "llama" "m--cuda234" ["GPU2", "GPU3", "GPU4"]] (by decide) (by decide) 0 30

/-- The router reports the first three models. -/
def threeLoaded : String → ServerAnswer := fun _ =>
  .ok (⟨0, false, none⟩,
    ⟨[("x--cuda2", { value := "loaded" }), ("c--cuda03", { value := "loaded" }),
      ("d--cuda14", { value := "loaded" })], by decide⟩)

/-- A request for n--cuda01 has c--cuda03 unloaded, and fails to unload d--cuda14.
    Meanwhile a request for m--cuda234 observes x--cuda2, and then the other two. -/
def staleVictim : List Act :=
  [.activity 0 (.ok idle), .activity 0 (.ok idle), .activity 0 (.ok idle),
    .arrive "n--cuda01", .resume 1, .resume 1, .resume 1, .resume 1, .activity 1 (.ok idle),
    .resume 1, .activity 1 (.ok idle), .resume 1, .run 0,
    .arrive "m--cuda234", .resume 2, .resume 2, .resume 2, .resume 2, .call 0 (.ok ()),
    .call 0 (.error "timed out"), .activity 2 (.ok idle), .resume 2, .activity 2 (.ok idle),
    .resume 2, .activity 2 (.ok idle)]

/-- Every answer of the backends is a success, and yet the swap dies: c--cuda03,
    unloaded before, is among its victims. Its model is never ready. -/
theorem swap_crashed :
    ∃ s p job victims x, (scheduler fiveCards).Reach (fun s a => uninspected s a = true) s ∧
      s.decision p = some (job, victims) ∧
      (swapRun fiveCards s p job victims).Reach (fun x c => undisturbed x c = true) x ∧
      x.1.tasks[s.tasks.length]? = some .crashed ∧ (x.1.heap s.next).ready = false := by
  obtain ⟨s, hs, hP⟩ := reach_run fiveCards uninspected 0 threeLoaded staleVictim
    (fun s => (s.decision 2).any fun d =>
      ((swapRun fiveCards s 2 d.1 d.2).run undisturbed (committed s 2 d.1 d.2, [])
          ([.run 1, .call 1 (.ok ()), .call 1 (.ok ())].map .inl)).any fun x =>
        x.1.tasks[s.tasks.length]? = some .crashed && !(x.1.heap s.next).ready)
    (by decide +kernel)
  obtain ⟨⟨job, victims⟩, hd, hP⟩ := (Option.any_eq_true ..).1 hP
  obtain ⟨x, hrun, hP⟩ := (Option.any_eq_true ..).1 hP
  simp only [Bool.and_eq_true, decide_eq_true_eq, Bool.not_eq_true'] at hP
  have h0 : (swapRun fiveCards s 2 job victims).init (committed s 2 job victims, []) := ⟨rfl, rfl⟩
  exact ⟨s, 2, job, victims, x, hs, hd, System.Reach.run (.init h0) hrun, hP⟩

/-- The first of two victims is unloaded, the second is not. -/
theorem swap_books_pairedCards :
    ∃ s p job victims x a t, (scheduler pairedCards).Free s ∧ s.decision p = some (job, victims) ∧
      Clean s job victims ∧
      (swapRun pairedCards s p job victims).Reach (fun x c => undisturbed x c = true) x ∧
      step pairedCards x.1 a = some t ∧ t.tasks[s.tasks.length]? = some .ended ∧
      (t.heap s.next).ready = true ∧ (t.heap s.next).error = some "timed out" ∧
      FailsWith pairedCards t s.next "timed out" := by
  obtain ⟨s, hs, hP⟩ := reach_run pairedCards uninspected 0 bothLoaded
    [.activity 0 (.ok idle), .activity 0 (.ok idle), .tick 20,
      .arrive "c--cuda01", .resume 1, .resume 1, .resume 1,
      .resume 1, .activity 1 (.ok idle), .resume 1, .activity 1 (.ok idle)]
    (fun s => (s.decision 1).any fun d =>
      (d.2.all fun v => s.recorded (s.heap v).variant.id = some v) &&
      ((swapRun pairedCards s 1 d.1 d.2).run undisturbed (committed s 1 d.1 d.2, [])
          ([.run 0, .call 0 (.ok ())].map .inl)).any fun x =>
        !(x.1.tasks[s.tasks.length]? = some .ended) && uninspected x.1 (.call 0 (.error "timed out")) &&
          (step pairedCards x.1 (.call 0 (.error "timed out"))).any fun t =>
            t.tasks[s.tasks.length]? = some .ended && (t.heap s.next).error = some "timed out")
    (by decide +kernel)
  obtain ⟨⟨job, victims⟩, hd, hP⟩ := (Option.any_eq_true ..).1 hP
  obtain ⟨hpresent, hP⟩ := Bool.and_eq_true_iff.1 hP
  obtain ⟨x, hrun, hP⟩ := (Option.any_eq_true ..).1 hP
  obtain ⟨hP, hstep⟩ := Bool.and_eq_true_iff.1 hP
  obtain ⟨t, hstep, hP'⟩ := (Option.any_eq_true ..).1 hstep
  simp only [Bool.and_eq_true, decide_eq_true_eq, Bool.not_eq_true', decide_eq_false_iff_not] at hP hP'
  have h0 : (swapRun pairedCards s 1 job victims).init (committed s 1 job victims, []) := ⟨rfl, rfl⟩
  have hstored := (stored (fun _ _ h => h) hs).2
  have hclean : Clean s job victims := hstored.clean (inv hs) hd (by simpa using hpresent)
  have hx := System.Reach.run (.init h0) hrun
  obtain ⟨-, hended, -⟩ := swap_books hs.free hd hclean hx hP.2 hstep
  obtain ⟨hready, -, hfails⟩ := hended hP.1 hP'.1
  exact ⟨s, 1, job, victims, x, _, t, hs.free, hd, hclean, hx, hstep, hP'.1, hready, hP'.2,
    hfails _ hP'.2⟩

end ModelBroker
