import ModelBroker.Scheduler.Keeping
import ModelBroker.Scheduler.Protection
import ModelBroker.Scheduler.Tracking

/-!
# No model is left stuck

A record in `loaded` that is not ready has a background task that will mark it
ready, and one that is leaving has a swap that will remove it or clear
`leaving`, unless one of two things has happened: a client's cancellation ended
a `track` early (lines 309–318), or a swap died of a `KeyError`.

* `owner_forward`, `victim_forward`: what becomes of a record's task in a step.
* `nothing_stuck`: in every run without those two.
* `cancelled_track_stuck`: a request is cancelled while its re-inspection records
  a baseline, and the model after it never gets its `finish_load`.
-/

namespace ModelBroker

variable {cfg : Config} {s t : State} {a : Act} {r : Ref}

/-- No swap dies, and no `track` is cancelled early. -/
def finishing (s : State) (a : Act) : Bool := !s.abandons a && !s.crashes a

/-! ## What becomes of a task -/

/-- The task that owns a record goes on owning it, or marks it ready. -/
theorem owner_forward (h : Step cfg s a t) (hok : s.crashes a = false) {i : ℕ} {k : Task}
    (hi : s.tasks[i]? = some k) (ho : k.owns = some r) :
    (∃ k', t.tasks[i]? = some k' ∧ k'.owns = some r) ∨ (t.heap r).ready = true := by
  have forward := @Table.forward Task fun k => k.owns = some r
  have appended : ∀ {ks : List Task}, t.tasks = s.tasks ++ ks →
      (∃ k', t.tasks[i]? = some k' ∧ k'.owns = some r) ∨ (t.heap r).ready = true := fun ht =>
    .inl ⟨k, ht ▸ Table.get_of_append hi, ho⟩
  cases h with
  | install | baseline | commit => exact appended rfl
  | task hk hsil =>
    refine forward hk rfl hi ho fun hown => .inl ?_
    cases hsil with
    | start => exact (owns_swapNext ..).trans hown
    | wait | loaded | awaited => exact hown
  | unloaded hk => exact forward hk rfl hi ho fun hown => .inl ((owns_swapNext ..).trans hown)
  | crash hk hr | crashFailed hk hr => simp [State.crashes, hk, hr] at hok
  | loadFailed hk hfrom =>
    refine forward hk rfl hi ho fun hown => .inl ?_
    rcases hfrom with ⟨rfl, -⟩ | ⟨rfl, -⟩ <;> exact hown
  | unloadFailed hk | dropped hk | gone hk | unsure hk | baselined hk =>
    refine forward hk rfl hi ho fun hown => .inr ?_
    obtain rfl := Option.some.inj hown
    simp [LoadedModel.settled]
  | tick | arrive | silent | enter | join | queue | quit | busy | idle | joined | unjoin | release =>
    exact .inl ⟨k, hi, ho⟩

/-- The swap of `model` gives up: an unload has failed, and this victim is not
    unloaded. -/
def GivesUp (s : State) (a : Act) (t : State) (r model : Ref) : Prop :=
  ∃ (i : ℕ) (done rest : List Ref) (victim : Ref) (error : String),
    s.tasks[i]? = some (.swapUnload done victim rest model) ∧ a = .call i (.error error) ∧
      r ∈ victim :: rest ∧ (t.heap r).leaving = false ∧
      t.recorded (s.heap model).variant.id = none

/-- The swap that is to unload a victim goes on to do so, has unloaded it, or
    has given up. -/
theorem victim_forward (h : Step cfg s a t) (hok : s.crashes a = false) {i : ℕ} {k : Task}
    {m : Ref} (hi : s.tasks[i]? = some k) (hr : r ∈ k.toUnload) (ho : k.owns = some m) :
    (∃ k', t.tasks[i]? = some k' ∧ r ∈ k'.toUnload ∧ k'.owns = some m) ∨
      t.recorded (s.heap r).variant.id = none ∨ GivesUp s a t r m := by
  have forward := @Table.forward Task fun k => r ∈ k.toUnload ∧ k.owns = some m
  have appended : ∀ {ks : List Task}, t.tasks = s.tasks ++ ks →
      (∃ k', t.tasks[i]? = some k' ∧ r ∈ k'.toUnload ∧ k'.owns = some m) ∨
        t.recorded (s.heap r).variant.id = none ∨ GivesUp s a t r m := fun ht =>
    .inl ⟨k, ht ▸ Table.get_of_append hi, hr, ho⟩
  cases h with
  | install | baseline | commit => exact appended rfl
  | task hk hsil =>
    refine forward hk rfl hi ⟨hr, ho⟩ fun hmem => .inl ?_
    cases hsil with
    | start => rw [toUnload_swapNext, owns_swapNext]; exact hmem
    | wait | loaded | awaited => exact hmem
  | @unloaded _ done rest victim _ _ _ hk =>
    refine forward hk rfl hi ⟨hr, ho⟩ fun hmem => ?_
    rw [toUnload_swapNext, owns_swapNext]
    rcases List.mem_cons.1 hmem.1 with rfl | hlater
    · refine .inr (.inl ?_)
      exact s.recorded_delete_self _
    · exact .inl ⟨hlater, hmem.2⟩
  | crash hk hr | crashFailed hk hr => simp [State.crashes, hk, hr] at hok
  | @unloadFailed j done rest victim model _ error hk =>
    refine forward hk rfl hi ⟨hr, ho⟩ fun hmem => .inr (.inr ?_)
    obtain rfl := Option.some.inj hmem.2
    refine ⟨j, done, rest, victim, error, hk, rfl, hmem.1, ?_, ?_⟩
    · have hvictim := Task.victims_of_toUnload hmem.1
      simp only [Task.victims] at hvictim
      simp only [State.setTask_heap, State.edit_heap, State.delete_heap, hvictim, if_true]
      split_ifs <;> rfl
    · exact s.recorded_delete_self _
  | loadFailed hk hfrom =>
    refine forward hk rfl hi ⟨hr, ho⟩ fun hmem => ?_
    rcases hfrom with ⟨rfl, -⟩ | ⟨rfl, -⟩ <;> cases hmem.1
  | dropped hk | gone hk | unsure hk | baselined hk =>
    exact forward hk rfl hi ⟨hr, ho⟩ fun hmem => by cases hmem.1
  | tick | arrive | silent | enter | join | queue | quit | busy | idle | joined | unjoin | release =>
    exact .inl ⟨k, hi, hr, ho⟩

/-- The request's `track` has still to look after this model. -/
def Request.awaits (r : Ref) (q : Request) : Prop :=
  ∃ after model rest, q = .tracking after model rest ∧ r ∈ rest

theorem untracked_iff :
    Untracked s r ↔
      (∃ (p : ℕ) (q : Request), s.requests[p]? = some q ∧ q.awaits r) ∧
        (s.heap r).ready = false := by
  constructor
  · rintro ⟨p, after, model, rest, hp, hr, hready⟩
    exact ⟨⟨p, _, hp, after, model, rest, rfl, hr⟩, hready⟩
  · rintro ⟨⟨p, q, hp, after, model, rest, rfl, hr⟩, hready⟩
    exact ⟨p, after, model, rest, hp, hr, hready⟩

/-- The model's `finish_load` has been started and has not run yet. -/
def State.Awaited (s : State) (r : Ref) : Prop := ∃ i : ℕ, s.tasks[i]? = some (.finishReady r)

theorem State.Awaited.loads (h : s.Awaited r) : s.Loads r := by
  obtain ⟨i, hi⟩ := h
  exact ⟨i, _, hi, rfl⟩

/-- The tasks that are started include this model's `finish_load`. -/
theorem awaited_of_pending {tasks : List Task} {pending : List Ref}
    (ht : t.tasks = tasks ++ pending.map .finishReady) (hr : r ∈ pending) : t.Awaited r := by
  obtain ⟨n, hn⟩ := List.mem_iff_getElem?.1 hr
  refine ⟨tasks.length + n, ?_⟩
  rw [ht]
  exact Table.get_append.2 (.inr ⟨n, rfl, by rw [List.getElem?_map, hn]; rfl⟩)

/-- What `track` makes of the models it is given: those not ready get their
    `finish_load`, or come later. -/
theorem TrackTo.covers {heap : Ref → LoadedModel} {after : Option Variant}
    {models pending : List Ref} {q : Request} (h : TrackTo heap after models pending q)
    (hr : r ∈ models) (hready : (heap r).ready = false) : r ∈ pending ∨ q.awaits r := by
  cases h with
  | done => exact .inl hr
  | @ask pending rest model _ hmodel =>
    rcases List.mem_append.1 hr with hr | hr
    · exact .inl hr
    · rcases List.mem_cons.1 hr with rfl | hr
      · rw [hready] at hmodel; cases hmodel
      · exact .inr ⟨after, model, rest, rfl, hr⟩

/-- A model that `track` has still to give a `finish_load` stays so, or gets it,
    or is ready. -/
theorem untracked_forward (h : Step cfg s a t) (hok : s.abandons a = false) (hr : Untracked s r) :
    Untracked t r ∨ t.Awaited r ∨ (t.heap r).ready = true := by
  obtain ⟨⟨p, q, hp, hawaits⟩, hready⟩ := untracked_iff.1 hr
  have forward := @Table.forward Request (Request.awaits r) (t.Awaited r)
  have key : (∃ q', t.requests[p]? = some q' ∧ q'.awaits r) ∨ t.Awaited r := by
    cases h with
    | arrive => exact .inl ⟨q, Table.get_of_append hp, hawaits⟩
    | silent h₀ hsil =>
      refine forward h₀ rfl hp hawaits ?_
      rintro ⟨after, model, rest, rfl, hmem⟩
      cases hsil with
      | survey hs => cases hs
      | block hjob _ => cases hjob
      | cancelled =>
        have hall : ∀ r ∈ rest, (s.heap r).ready = true := by
          simpa [State.abandons, h₀] using hok
        rw [hall r hmem] at hready
        cases hready
    | install h₀ hs =>
      refine forward h₀ rfl hp hawaits ?_
      rintro ⟨after, model, rest, rfl, -⟩
      cases hs
    | baseline h₀ hto =>
      refine forward h₀ rfl hp hawaits ?_
      rintro ⟨after, model, rest, heq, hmem⟩
      cases heq
      exact (hto.covers hmem hready).symm.imp_right (awaited_of_pending rfl)
    | enter h₀ hfrom =>
      refine forward h₀ rfl hp hawaits ?_
      rintro ⟨after, model, rest, rfl, -⟩
      rcases hfrom with heq | ⟨id, heq, -⟩ <;> cases heq
    | quit h₀ hjob =>
      refine forward h₀ rfl hp hawaits ?_
      rintro ⟨after, model, rest, rfl, -⟩
      cases hjob
    | join h₀ | queue h₀ | busy h₀ | idle h₀ | commit h₀ | joined h₀ | unjoin h₀ | release h₀ =>
      refine forward h₀ rfl hp hawaits ?_
      rintro ⟨after, model, rest, heq, -⟩
      cases heq
    | tick | task | unloaded | crash | unloadFailed | crashFailed | loadFailed | dropped | gone
    | unsure | baselined => exact .inl ⟨q, hp, hawaits⟩
  rcases key with ⟨q', hq', hawaits'⟩ | hawaited
  · cases hready' : (t.heap r).ready with
    | true => exact .inr (.inr rfl)
    | false => exact .inl (untracked_iff.2 ⟨⟨p, q', hq', hawaits'⟩, hready'⟩)
  · exact .inr (.inl hawaited)

/-! ## Every record has its task -/

/-- A record in `loaded` that is not ready, or leaving, has a task, or will have
    it. -/
structure Attended (s : State) : Prop where
  unready : ∀ (id : String) (r : Ref), s.recorded id = some r → (s.heap r).ready = false →
    s.Loads r ∨ Untracked s r
  leaving : ∀ (id : String) (r : Ref), s.recorded id = some r → (s.heap r).leaving = true →
    s.Unloads r

theorem finishing_iff : finishing s a = true ↔ s.abandons a = false ∧ s.crashes a = false := by
  simp [finishing]

/-- The task of a swap that has just been decided. -/
theorem get_swap_committed (s : State) (p : ℕ) (job : Job) (victims : List Ref) :
    (committed s p job victims).tasks[s.tasks.length]? = some (.swapReady victims s.next) :=
  Table.get_push.2 (.inl ⟨rfl, rfl⟩)

theorem Attended.unready_step (hinv : Inv cfg s) (h : Attended s) (hok : finishing s a = true)
    (hstep : Step cfg s a t) (id : String) (r : Ref) (hr : t.recorded id = some r)
    (hready : (t.heap r).ready = false) : t.Loads r ∨ Untracked t r := by
  obtain ⟨hkeeps, hlives⟩ := finishing_iff.1 hok
  have old : s.recorded id = some r → t.Loads r ∨ Untracked t r := by
    intro hs
    have hready₀ : (s.heap r).ready = false := by
      by_contra hne
      rw [step_ready_mono hstep (hinv.refs.keyed id r hs).1 (by simpa using hne)] at hready
      cases hready
    rcases h.unready id r hs hready₀ with ⟨i, k, hi, ho⟩ | hun
    · rcases owner_forward hstep hlives hi ho with ⟨k', hi', ho'⟩ | htrue
      · exact .inl ⟨i, k', hi', ho'⟩
      · rw [hready] at htrue; cases htrue
    · rcases untracked_forward hstep hkeeps hun with hun' | hawaited | htrue
      · exact .inr hun'
      · exact .inl hawaited.loads
      · rw [hready] at htrue; cases htrue
  cases step_loaded hstep with
  | fewer hl => exact old (hl id r hr)
  | @commit p job victims hd ht =>
    rw [ht, recorded_committed] at hr
    split_ifs at hr with hid
    · obtain rfl := Option.some.inj hr
      exact .inl ⟨_, _, by rw [ht]; exact get_swap_committed .., rfl⟩
    · exact old hr
  | @install p q q' variant found pending hq hs hto ht =>
    by_cases hold : s.recorded id = some r
    · exact old hold
    · have hmerged : (mergeLoaded s found).get id = some r := by rw [ht] at hr; exact hr
      rw [ht] at hready
      rcases hto.covers (mem_newModels.2 ⟨id, hmerged, hold⟩) hready with hmem | hawaits
      · exact .inl (awaited_of_pending (by rw [ht]; rfl) hmem).loads
      · refine .inr (untracked_iff.2 ⟨⟨p, q', ?_, hawaits⟩, by rw [ht]; exact hready⟩)
        rw [ht]
        exact Table.get_set_self hq

theorem Attended.leaving_step (hinv : Inv cfg s) (h : Attended s) (hok : finishing s a = true)
    (hstep : Step cfg s a t) (id : String) (r : Ref) (hr : t.recorded id = some r)
    (hleaving : (t.heap r).leaving = true) : t.Unloads r := by
  obtain ⟨-, hlives⟩ := finishing_iff.1 hok
  have old : s.recorded id = some r → t.Unloads r := by
    intro hs
    obtain ⟨hlt, hvar⟩ := hinv.refs.keyed id r hs
    rcases step_leaving hstep hlt with hsame | ⟨p, job, victims, hd, ht, hmem, -⟩ | ⟨hfalse, -⟩
    · obtain ⟨i, k, hi, hunload⟩ := h.leaving id r hs (hsame ▸ hleaving)
      obtain ⟨m, ho⟩ := Task.owns_of_toUnload hunload
      rcases victim_forward hstep hlives hi hunload ho with ⟨k', hi', hr', -⟩ | hgone |
        ⟨-, -, -, -, -, -, -, -, hfalse, -⟩
      · exact ⟨i, k', hi', hr'⟩
      · rw [hvar, hr] at hgone; cases hgone
      · rw [hleaving] at hfalse; cases hfalse
    · exact ⟨_, .swapReady victims s.next, by rw [ht]; exact get_swap_committed .., hmem⟩
    · rw [hleaving] at hfalse; cases hfalse
  cases step_loaded hstep with
  | fewer hl => exact old (hl id r hr)
  | @commit p job victims hd ht =>
    rw [ht, recorded_committed] at hr
    split_ifs at hr with hid
    · obtain rfl := Option.some.inj hr
      rw [ht] at hleaving
      simp [committed, newModel] at hleaving
    · exact old hr
  | @install p q q' variant found pending hq hs hto ht =>
    by_cases hold : s.recorded id = some r
    · exact old hold
    · have hmerged : (mergeLoaded s found).get id = some r := by rw [ht] at hr; exact hr
      have hnew := (mergeLoaded_cases hmerged).resolve_left hold
      obtain ⟨model, hm⟩ := adoptedRefs_isSome.1 ⟨r, hnew⟩
      have hheap : t.heap r = model := by rw [ht]; exact adopt_of_ref hnew hm
      rw [hheap, ((hinv.refs.complete hq hs).fresh id model hm).leaving] at hleaving
      cases hleaving

/-- At first every model still loading has its `finish_load`, or will have it. -/
theorem attended_initial {now : ℚ} {found : Survey} (hf : found.Complete cfg) :
    Attended (initial now found) := by
  obtain ⟨pending, q, hto, heq⟩ := initial_cases now found
  have hvalues : ∀ id r, (initial now found).recorded id = some r →
      (adoptedRefs (blank now) found).get id = some r := by
    intro id r hr
    rw [heq] at hr
    exact hr
  constructor
  · intro id r hr hready
    have hmem := Dict.mem_values.2 ⟨id, hvalues id r hr⟩
    rw [heq] at hready ⊢
    rcases hto.covers hmem hready with hpending | hawaits
    · exact .inl (awaited_of_pending rfl hpending).loads
    · exact .inr (untracked_iff.2 ⟨⟨0, q, rfl, hawaits⟩, hready⟩)
  · intro id r hr hleaving
    obtain ⟨model, hm, hheap⟩ := initial_recorded hr
    rw [hheap, (hf.fresh id model hm).leaving] at hleaving
    cases hleaving

theorem attended (h : (scheduler cfg).Reach (fun s a => finishing s a = true) s) : Attended s := by
  refine invariant_reach ?_ ?_ h
  · intro now found hf
    exact attended_initial hf
  · intro s a t hs hatt hok hstep
    exact ⟨hatt.unready_step (inv hs) hok hstep, hatt.leaving_step (inv hs) hok hstep⟩

/-! ## Nothing is stuck -/

/-- The task owns the record: it will mark it ready. -/
def State.OwnedBy (s : State) (i : ℕ) (r : Ref) : Prop :=
  ∃ k, s.tasks[i]? = some k ∧ k.owns = some r

/-- The task is a swap that is to unload the record. -/
def State.UnloadedBy (s : State) (i : ℕ) (r : Ref) : Prop :=
  ∃ k, s.tasks[i]? = some k ∧ r ∈ k.toUnload

/-- Once `start()` is over and nobody is inside `reinspect`, no model is left
    over for `track`. -/
theorem not_untracked (hstarted : s.started = true) (hquiet : Uninspected s) : ¬ Untracked s r := by
  rintro ⟨p, after, model, rest, hp, -⟩
  cases after with
  | none =>
    have hall := List.all_eq_true.1 hstarted _ (List.mem_of_getElem? hp)
    cases hall
  | some variant => cases hquiet p _ hp

/-- After `start()` and outside re-inspections, in every run in which no swap
    dies and no `track` is cancelled early: a record in `loaded` that is not
    ready is owned by exactly one task, which marks it ready when it ends; a
    record that is leaving is a victim of exactly one live swap, which removes it
    or clears `leaving` when it ends; so once every task has ended no record is
    leaving or not ready. -/
theorem nothing_stuck (h : (scheduler cfg).Reach (fun s a => finishing s a = true) s)
    (hstarted : s.started = true) (hquiet : Uninspected s) :
    (∀ id r, s.recorded id = some r → (s.heap r).ready = false → ∃! i, s.OwnedBy i r) ∧
    (∀ id r, s.recorded id = some r → (s.heap r).leaving = true → ∃! i, s.UnloadedBy i r) ∧
    (∀ a t, finishing s a = true → step cfg s a = some t →
      (∀ i r, s.OwnedBy i r → t.OwnedBy i r ∨ (t.heap r).ready = true) ∧
      ∀ i id r, s.recorded id = some r → s.UnloadedBy i r →
        t.UnloadedBy i r ∨ t.recorded id ≠ some r ∨ (t.heap r).leaving = false) ∧
    ((∀ (i : ℕ) (k : Task), s.tasks[i]? = some k → k = .ended ∨ k = .crashed) →
      ∀ id r, s.recorded id = some r → (s.heap r).ready = true ∧ (s.heap r).leaving = false) := by
  have hinv := inv h
  have hatt := attended h
  have owner : ∀ id r, s.recorded id = some r → (s.heap r).ready = false → s.Loads r :=
    fun id r hr hready => (hatt.unready id r hr hready).resolve_right
      (not_untracked hstarted hquiet)
  refine ⟨?_, ?_, ?_, ?_⟩
  · intro id r hr hready
    obtain ⟨i, k, hi, ho⟩ := owner id r hr hready
    refine ⟨i, ⟨k, hi, ho⟩, ?_⟩
    rintro j ⟨k', hj, ho'⟩
    exact hinv.owners.unique j i k' k r hj hi ho' ho
  · intro id r hr hleaving
    obtain ⟨i, k, hi, hmem⟩ := hatt.leaving id r hr hleaving
    refine ⟨i, ⟨k, hi, hmem⟩, ?_⟩
    rintro j ⟨k', hj, hmem'⟩
    exact hinv.victims.unique j i k' k r hj hi (Task.victims_of_toUnload hmem')
      (Task.victims_of_toUnload hmem)
  · intro a t hok hstep
    have hstep := step_cases hstep
    have hlives := (finishing_iff.1 hok).2
    constructor
    · rintro i r ⟨k, hi, ho⟩
      exact owner_forward hstep hlives hi ho
    · rintro i id r hr ⟨k, hi, hmem⟩
      obtain ⟨m, ho⟩ := Task.owns_of_toUnload hmem
      rcases victim_forward hstep hlives hi hmem ho with ⟨k', hi', hmem', -⟩ | hgone |
        ⟨-, -, -, -, -, -, -, -, hfalse, -⟩
      · exact .inl ⟨k', hi', hmem'⟩
      · refine .inr (.inl ?_)
        rw [← (hinv.refs.keyed id r hr).2, hgone]
        exact fun heq => by cases heq
      · exact .inr (.inr hfalse)
  · intro hended id r hr
    constructor
    · by_contra hne
      obtain ⟨i, k, hi, ho⟩ := owner id r hr (by simpa using hne)
      rcases hended i k hi with rfl | rfl <;> cases ho
    · by_contra hne
      obtain ⟨i, k, hi, hmem⟩ := hatt.leaving id r hr (by simpa using hne)
      rcases hended i k hi with rfl | rfl <;> cases hmem

/-- The router answers that it has the model of the first card loaded and is
    loading that of the second. -/
def oneLoading : Dict String ModelState :=
  ⟨[("a--cuda0", { value := "loaded" }), ("b--cuda1", { value := "loading" })], by decide⟩

/-- The router is started after the broker; a request has it inspected. -/
def lateRouter : List Act :=
  [.arrive "a--cuda0", .resume 1, .resume 1, .props 1 (.ok ⟨0, false, none⟩),
    .states 1 (.ok oneLoading)]

/-- No server can be reached. -/
def unreachable : String → ServerAnswer := fun _ => .error "connection refused"

/-- The re-inspection ends, and the model that is loading has its task. -/
theorem nothing_stuck_lateRouter :
    ∃ s, (scheduler pairedCards).Reach (fun s a => finishing s a = true) s ∧
      s.recorded "b--cuda1" = some 1 ∧ (s.heap 1).ready = false ∧ ∃! i, s.OwnedBy i 1 := by
  obtain ⟨s, hs, hP⟩ := reach_run pairedCards finishing 0 unreachable
    (lateRouter ++ [.activity 1 (.ok idle)])
    (fun s => s.started && s.requests.all (fun q => !q.reinspecting) &&
      (s.recorded "b--cuda1" = some 1 && !(s.heap 1).ready)) (by decide +kernel)
  simp only [Bool.and_eq_true, decide_eq_true_eq, Bool.not_eq_true', List.all_eq_true] at hP
  obtain ⟨⟨hstarted, hquiet⟩, hr, hready⟩ := hP
  have hquiet' : Uninspected s := fun p q hp => hquiet q (List.mem_of_getElem? hp)
  exact ⟨s, hs, hr, hready, (nothing_stuck hs hstarted hquiet').1 _ 1 hr hready⟩

/-- The client disconnects while its re-inspection records the baseline of the
    first model. The second model is not ready, and there is no task at all. -/
theorem cancelled_track_stuck :
    ∃ s, (scheduler pairedCards).Free s ∧ s.started = true ∧ Uninspected s ∧ s.tasks = [] ∧
      s.recorded "b--cuda1" = some 1 ∧ (s.heap 1).ready = false := by
  obtain ⟨s, hs, hP⟩ := reach_run pairedCards (fun _ _ => true) 0 unreachable
    (lateRouter ++ [.cancel 1])
    (fun s => s.started && s.requests.all (fun q => !q.reinspecting) && s.tasks = [] &&
      (s.recorded "b--cuda1" = some 1 && !(s.heap 1).ready)) (by decide +kernel)
  simp only [Bool.and_eq_true, decide_eq_true_eq, Bool.not_eq_true', List.all_eq_true] at hP
  obtain ⟨⟨⟨hstarted, hquiet⟩, htasks⟩, hr, hready⟩ := hP
  exact ⟨s, hs.free, hstarted, fun p q hp => hquiet q (List.mem_of_getElem? hp), htasks, hr, hready⟩

end ModelBroker
