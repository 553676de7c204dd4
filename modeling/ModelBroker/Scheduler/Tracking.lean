import ModelBroker.Scheduler.Conditions
import ModelBroker.Scheduler.Deciding

/-!
# Runs without a re-inspection

While no re-inspection takes place, only decisions add records to `loaded`, and
only the task that works on a model takes its record out.

* `step_kept`: how a record can leave `loaded`, in any run.
* `Stored`: the model of a live task is in `loaded`, and what is stored under
  the id of a victim is the victim.
* `stored`: this holds in every run without a re-inspection.
-/

namespace ModelBroker

variable {cfg : Config} {s t : State} {a : Act}

/-! ## Nobody re-inspects -/

/-- The condition of a run in which no re-inspection takes place. -/
def uninspected (s : State) (a : Act) : Bool := !s.reinspects a

/-- The request is inside `reinspect`. -/
def Request.reinspecting : Request → Bool
  | surveying _ _ | tracking (some _) _ _ => true
  | _ => false

/-- No request is inside `reinspect`. -/
def Uninspected (s : State) : Prop :=
  ∀ (p : ℕ) (q : Request), s.requests[p]? = some q → q.reinspecting = false

theorem Uninspected.not_surveys (h : Uninspected s) (hok : uninspected s a = true) {p : ℕ}
    {q : Request} {variant : Variant} {next : Survey ⊕ Inspection}
    (hq : s.requests[p]? = some q) : ¬ Surveys cfg s p a q variant next := by
  intro hs
  cases hs with
  | start hfree hunfit => simp [uninspected, State.reinspects, hq, hfree, hunfit] at hok
  | props | states => cases h p _ hq

theorem TrackTo.reinspecting {heap : Ref → LoadedModel} {models pending : List Ref} {q : Request}
    (h : TrackTo heap none models pending q) : q.reinspecting = false := by
  rcases h.shape with rfl | ⟨model, rest, rfl⟩
  · rfl
  · rfl

theorem uninspected_step (h : Uninspected s) (hok : uninspected s a = true)
    (hstep : Step cfg s a t) : Uninspected t := by
  intro p q hp
  have other : ∀ {p₀ : ℕ} {q₀ q₁ : Request}, s.requests[p₀]? = some q₀ →
      t.requests = s.requests.set p₀ q₁ → q₁.reinspecting = false → q.reinspecting = false := by
    intro p₀ q₀ q₁ h₀ ht hnew
    exact Table.forall_set h₀ h hnew p q (ht ▸ hp)
  cases hstep with
  | arrive =>
    rcases Table.get_push.1 hp with ⟨-, rfl⟩ | hp
    · rfl
    · exact h p q hp
  | silent h₀ hsil =>
    refine other h₀ rfl ?_
    cases hsil with
    | survey hs => exact absurd hs (h.not_surveys hok h₀)
    | unknown | recheck | clean | unfit | noTicket | inOrder | block | list | ask | again | sleep
    | wake | cancelled => rfl
  | install h₀ hs => exact absurd hs (h.not_surveys hok h₀)
  | @baseline _ after _ _ _ _ _ h₀ hto =>
    cases after with
    | none => exact other h₀ rfl hto.reinspecting
    | some variant => cases h _ _ h₀
  | enter h₀ | join h₀ | queue h₀ | quit h₀ | busy h₀ | idle h₀ | commit h₀ | joined h₀ | unjoin h₀
  | release h₀ => exact other h₀ rfl rfl
  | tick | task | unloaded | crash | unloadFailed | crashFailed | loadFailed | dropped | gone
  | unsure | baselined => exact h p q hp

theorem uninspected_initial (now : ℚ) (found : Survey) : Uninspected (initial now found) := by
  intro p q hp
  rcases (initial_requests hp).2 with rfl | ⟨model, rest, rfl⟩ <;> rfl

/-! ## How a record leaves `loaded` -/

/-- The task no longer owns its model, having marked it ready and failed. -/
def Fails (s : State) (a : Act) (t : State) (r : Ref) : Prop :=
  ∃ (i : ℕ) (k : Task), s.tasks[i]? = some k ∧ k.owns = some r ∧ t.tasks = s.tasks.set i .ended ∧
    (((t.heap r).error ≠ none ∧ k.unasked = some r) ∨
      ∃ error loader answer, k = .loadQuery r error loader ∧ a = .taskStates i answer ∧
        confirmsUnloaded (s.heap r).variant.id answer = true)

/-- The server has confirmed that a victim is unloaded. -/
def Unloaded (s : State) (a : Act) (t : State) (r : Ref) : Prop :=
  ∃ (i : ℕ) (done rest : List Ref) (model : Ref) (answer : Unit),
    s.tasks[i]? = some (.swapUnload done r rest model) ∧ a = .call i (.ok answer) ∧
      t.tasks = s.tasks.set i (swapNext (done ++ [r]) rest model)

theorem step_kept (hdec : Deciding s) (h : Step cfg s a t) {id : String} {r : Ref}
    (hr : s.recorded id = some r) :
    t.recorded id = some r ∨ (∃ victim, Unloaded s a t victim ∧ (s.heap victim).variant.id = id) ∨
      (∃ model, Fails s a t model ∧ (s.heap model).variant.id = id) ∨
      ∃ p q variant found, s.requests[p]? = some q ∧ Surveys cfg s p a q variant (.inl found) := by
  have deleted : ∀ {id' : String}, t.recorded id = (s.delete id').recorded id →
      t.recorded id = some r ∨ id' = id := by
    intro id' ht
    rw [ht, State.recorded_delete]
    split_ifs with hid
    · exact .inr hid.symm
    · exact .inl hr
  cases h with
  | @commit p job look hq hrest hreason hidle =>
    have hd : s.decision p = some (job, look.seen) :=
      decision_eq_some.2 ⟨look, hq, hrest, hreason, hidle, rfl⟩
    have habsent := (hdec.decision hd).1.absent
    have hne : id ≠ job.variant.id := by
      rintro rfl
      rw [habsent] at hr
      cases hr
    exact .inl ((Dict.get_insert ..).trans ((if_neg hne).trans hr))
  | @install p _ q _ variant found _ hq hs => exact .inr (.inr (.inr ⟨p, q, variant, found, hq, hs⟩))
  | @unloaded i done rest victim model _ answer hk =>
    exact (deleted rfl).imp_right fun hid =>
      .inl ⟨victim, ⟨i, done, rest, model, answer, hk, rfl, rfl⟩, hid⟩
  | @unloadFailed i done rest victim model _ _ hk =>
    refine (deleted rfl).imp_right fun hid => .inr (.inl ⟨model, ⟨i, _, hk, rfl, rfl, ?_⟩, hid⟩)
    exact .inl ⟨by simp, rfl⟩
  | @dropped i model error loader answer hk hc =>
    refine (deleted rfl).imp_right fun hid => .inr (.inl ⟨model, ⟨i, _, hk, rfl, rfl, ?_⟩, hid⟩)
    exact .inr ⟨error, loader, answer, rfl, rfl, hc⟩
  | tick | arrive | silent | enter | baseline | join | queue | quit | busy | idle | joined | unjoin
  | release | task | crash | crashFailed | loadFailed | gone | unsure | baselined => exact .inl hr

/-! ## What tasks and `loaded` know of each other -/

/-- A live swap's model conflicts with the victims it has still to unload. -/
def Clashing (s : State) : Prop :=
  ∀ (i : ℕ) (k : Task) (r m : Ref), s.tasks[i]? = some k → r ∈ k.toUnload → k.owns = some m →
    claimsConflict (s.heap r).variant (s.heap m).variant = true

/-- What holds between the live tasks and `loaded` when nobody re-inspects. -/
structure Stored (s : State) : Prop where
  model : ∀ (i : ℕ) (k : Task) (r : Ref), s.tasks[i]? = some k → k.owns = some r →
    s.recorded (s.heap r).variant.id = some r
  tracked : ∀ r, Untracked s r → s.recorded (s.heap r).variant.id = some r
  victim : ∀ (i : ℕ) (k : Task) (r r' : Ref), s.tasks[i]? = some k → r ∈ k.toUnload →
    s.recorded (s.heap r).variant.id = some r' → r' = r
  conflict : ∀ (i : ℕ) (k : Task) (r m : Ref), s.tasks[i]? = some k → r ∈ k.toUnload →
    k.owns = some m → claimsConflict (s.heap r).variant (s.heap m).variant = true

/-- No re-inspection merges its survey in this step. -/
def NoInstall (cfg : Config) (s : State) (a : Act) : Prop :=
  ∀ (p : ℕ) (q : Request) (variant : Variant) (found : Survey), s.requests[p]? = some q →
    ¬ Surveys cfg s p a q variant (.inl found)

/-- A record that is not ready, or not leaving, stays in `loaded`, unless its own
    task ends. -/
theorem Stored.kept (hinv : Inv cfg s) (h : Stored s) (hstep : Step cfg s a t)
    (hno : NoInstall cfg s a) {r : Ref} (hr : s.recorded (s.heap r).variant.id = some r)
    (hstays : (s.heap r).ready = false ∨ (s.heap r).leaving = false) :
    t.recorded (s.heap r).variant.id = some r ∨ Fails s a t r := by
  rcases step_kept hinv.deciding hstep hr with hkept | ⟨victim, ⟨i, done, rest, model, -, hk, -⟩, hid⟩ |
    ⟨model, hfails, hid⟩ | ⟨p, q, variant, found, hq, hs⟩
  · exact .inl hkept
  · -- the victim of a swap is ready and leaving
    have hmem : victim ∈ (Task.swapUnload done victim rest model).toUnload := List.mem_cons_self
    obtain rfl := h.victim i _ victim r hk hmem (hid ▸ hr)
    obtain ⟨hleaving, hready⟩ := hinv.victims.leaving i _ r hk (Task.victims_of_toUnload hmem)
    rw [hleaving, hready] at hstays
    rcases hstays with hstays | hstays <;> cases hstays
  · obtain ⟨i, k, hk, ho, -⟩ := id hfails
    have hm := h.model i k model hk ho
    rw [hid, hr] at hm
    rw [Option.some.inj hm]
    exact .inr hfails
  · exact absurd hs (hno p q variant found hq)

/-- After its task has failed, nobody owns a model. -/
theorem Fails.not_owned (hinv : Inv cfg s) (hstep : Step cfg s a t) {r : Ref} (h : Fails s a t r)
    {j : ℕ} {k : Task} (hj : t.tasks[j]? = some k) : k.owns ≠ some r := by
  obtain ⟨i, k₀, hk₀, ho₀, ht, -⟩ := h
  intro ho
  rcases step_owner hinv.refs hinv.owners hstep hj ho with ⟨k₁, hk₁, ho₁⟩ |
    ⟨n, -, hhanded | ⟨hge, -⟩, -⟩
  · obtain rfl := hinv.owners.unique i j k₀ k₁ r hk₀ hk₁ ho₀ ho₁
    rw [ht, Table.get_set_self hk₀] at hj
    rw [← Option.some.inj hj] at ho
    cases ho
  · exact hinv.owners.not_untracked hk₀ ho₀ hhanded.untracked
  · exact absurd (hinv.refs.owned_lt hk₀ ho₀) (Nat.not_lt.2 hge)

/-- Without an install, the only new record is that of a decision. -/
theorem NoInstall.new_record (hno : NoInstall cfg s a) (hstep : Step cfg s a t) {r : Ref}
    (hr : s.next ≤ r) (hlt : r < t.next) :
    ∃ p job victims, s.decision p = some (job, victims) ∧ t = committed s p job victims ∧
      r = s.next := by
  cases hstep with
  | @commit p job look hq hrest hreason hidle =>
    exact ⟨p, job, look.seen, decision_eq_some.2 ⟨look, hq, hrest, hreason, hidle, rfl⟩, rfl,
      Nat.le_antisymm (Nat.le_of_lt_succ hlt) hr⟩
  | install hq hs => exact absurd hs (hno _ _ _ _ hq)
  | tick | arrive | silent | enter | baseline | join | queue | quit | busy | idle | joined | unjoin
  | release | task | unloaded | crash | unloadFailed | crashFailed | loadFailed | dropped | gone
  | unsure | baselined => exact absurd hlt (Nat.not_lt.2 hr)

theorem recorded_committed (s : State) (p : ℕ) (job : Job) (victims : List Ref) (id : String) :
    (committed s p job victims).recorded id =
      if id = job.variant.id then some s.next else s.recorded id :=
  Dict.get_insert ..

/-- A model that `track` has still to give a `finish_load` was so before. -/
theorem NoInstall.untracked (hno : NoInstall cfg s a) (hrefs : Refs cfg s)
    (hstep : Step cfg s a t) {r : Ref} (h : Untracked t r) : Untracked s r := by
  obtain ⟨p, after, model, rest, hp, hr, hready⟩ := h
  have before : ∀ {model₀ : Ref} {rest₀ : List Ref},
      s.requests[p]? = some (.tracking after model₀ rest₀) → r ∈ rest₀ → Untracked s r := by
    intro model₀ rest₀ hp₀ hr₀
    refine ⟨p, after, model₀, rest₀, hp₀, hr₀, ?_⟩
    by_contra hne
    have hlt := hrefs.request p _ hp₀ r (List.mem_cons_of_mem _ hr₀)
    rw [step_ready_mono hstep hlt (by simpa using hne)] at hready
    cases hready
  rcases step_tracking hstep hp with hp₀ | ⟨model₀, rest₀, pending, hp₀, rfl, -⟩ |
    ⟨q, variant, found, pending, hq, -, hs, -⟩
  · exact before hp₀ hr
  · exact before hp₀ (List.mem_append_right _ (List.mem_cons_of_mem _ hr))
  · exact absurd hs (hno p q variant found hq)

/-- The victims of a decision are records. -/
theorem Refs.decided_lt (h : Refs cfg s) {p : ℕ} {job : Job} {victims : List Ref}
    (hd : s.decision p = some (job, victims)) {r : Ref} (hr : r ∈ victims) : r < s.next := by
  obtain ⟨look, hq, -, -, -, rfl⟩ := decision_eq_some.1 hd
  exact h.request p _ hq r (List.mem_append_left _ hr)

theorem clashing_step (hinv : Inv cfg s) (h : Clashing s) (hstep : Step cfg s a t) : Clashing t := by
  intro i k r m hi hr ho
  rcases step_toUnload hstep hi hr with ⟨k₀, hk₀, hr₀, ho₀⟩ | ⟨-, hm, p, job, hd, rfl, -⟩
  · rw [step_variant hstep (hinv.refs.victim_lt hk₀ (Task.victims_of_toUnload hr₀)),
      step_variant hstep (hinv.refs.owned_lt hk₀ (ho₀.trans ho))]
    exact h i k₀ r m hk₀ hr₀ (ho₀.trans ho)
  · obtain rfl : m = s.next := Option.some.inj (ho.symm.trans hm)
    have hv := Task.victims_of_toUnload hr
    have hconf := (hinv.deciding.decision hd).1.conflict r (List.mem_append_left _ hv)
    rw [step_variant hstep (hinv.refs.decided_lt hd hv)]
    simpa [committed, newModel] using hconf

theorem Stored.model_step (hinv : Inv cfg s) (h : Stored s) (hstep : Step cfg s a t)
    (hno : NoInstall cfg s a) (i : ℕ) (k : Task) (r : Ref) (hi : t.tasks[i]? = some k)
    (ho : k.owns = some r) : t.recorded (t.heap r).variant.id = some r := by
  rcases step_owner hinv.refs hinv.owners hstep hi ho with ⟨k₀, hk₀, ho₀⟩ |
    ⟨n, -, hhanded | ⟨hge, -⟩, -⟩
  · rw [step_variant hstep (hinv.refs.owned_lt hk₀ ho₀)]
    refine (h.kept hinv hstep hno (h.model i k₀ r hk₀ ho₀) ?_).resolve_right fun hfails =>
      hfails.not_owned hinv hstep hi ho
    exact .inl (hinv.owners.unready i k₀ r hk₀ ho₀)
  · have hun := hhanded.untracked
    rw [step_variant hstep (hinv.refs.untracked_lt hun)]
    refine (h.kept hinv hstep hno (h.tracked r hun) ?_).resolve_right fun hfails =>
      hfails.not_owned hinv hstep hi ho
    obtain ⟨-, -, -, -, -, -, hready⟩ := hun
    exact .inl hready
  · have hlt := (refs_step hinv.refs hstep).owned_lt hi ho
    obtain ⟨p, job, victims, -, rfl, rfl⟩ := hno.new_record hstep hge hlt
    rw [recorded_committed]
    simp [committed, newModel]

theorem Stored.tracked_step (hinv : Inv cfg s) (h : Stored s) (hstep : Step cfg s a t)
    (hno : NoInstall cfg s a) (r : Ref) (hr : Untracked t r) :
    t.recorded (t.heap r).variant.id = some r := by
  have hun := hno.untracked hinv.refs hstep hr
  rw [step_variant hstep (hinv.refs.untracked_lt hun)]
  refine (h.kept hinv hstep hno (h.tracked r hun) ?_).resolve_right fun hfails => ?_
  · obtain ⟨-, -, -, -, -, -, hready⟩ := hun
    exact .inl hready
  · obtain ⟨i, k, hk, ho, -⟩ := hfails
    exact hinv.owners.not_untracked hk ho hun

/-- A decision is never for the variant of a victim of a live swap, because the
    model of that swap conflicts with it and is not ready. -/
theorem Stored.not_victim (hinv : Inv cfg s) (h : Stored s) {i : ℕ} {k : Task} {r : Ref}
    (hi : s.tasks[i]? = some k) (hr : r ∈ k.toUnload) {p : ℕ} {job : Job} {victims : List Ref}
    (hd : s.decision p = some (job, victims)) : (s.heap r).variant.id ≠ job.variant.id := by
  intro heq
  obtain ⟨look, hq, -⟩ := decision_eq_some.1 hd
  have hvariant : (s.heap r).variant = job.variant := by
    have hknown := hinv.refs.known r (hinv.refs.victim_lt hi (Task.victims_of_toUnload hr))
    rw [heq, hinv.refs.asked p _ job.variant hq rfl] at hknown
    exact (Option.some.inj hknown).symm
  obtain ⟨m, ho⟩ := Task.owns_of_toUnload hr
  have hconf := h.conflict i k r m hi hr ho
  rw [claimsConflict_comm, hvariant] at hconf
  have hdec := (hinv.deciding.decision hd).1
  have hmem := hdec.complete _ m (h.model i k m hi ho) hconf
  have hready := hdec.ready m (by simpa using hmem)
  rw [hinv.owners.unready i k m hi ho] at hready
  cases hready

theorem Stored.victim_step (hinv : Inv cfg s) (h : Stored s) (hstep : Step cfg s a t)
    (hno : NoInstall cfg s a) (i : ℕ) (k : Task) (r r' : Ref) (hi : t.tasks[i]? = some k)
    (hr : r ∈ k.toUnload) (hr' : t.recorded (t.heap r).variant.id = some r') : r' = r := by
  rcases step_toUnload hstep hi hr with ⟨k₀, hk₀, hr₀, -⟩ | ⟨-, -, p, job, hd, rfl, -⟩
  · rw [step_variant hstep (hinv.refs.victim_lt hk₀ (Task.victims_of_toUnload hr₀))] at hr'
    cases step_loaded hstep with
    | fewer hl => exact h.victim i k₀ r r' hk₀ hr₀ (hl _ _ hr')
    | commit hd ht =>
      rw [ht, recorded_committed, if_neg (h.not_victim hinv hk₀ hr₀ hd)] at hr'
      exact h.victim i k₀ r r' hk₀ hr₀ hr'
    | install hq hs => exact absurd hs (hno _ _ _ _ hq)
  · have hv := Task.victims_of_toUnload hr
    have hdec := (hinv.deciding.decision hd).1
    have hmem : r ∈ k.victims ++ [] := List.mem_append_left _ hv
    rw [step_variant hstep (hinv.refs.decided_lt hd hv), recorded_committed,
      if_neg (hdec.other r hmem)] at hr'
    exact hdec.own r hmem r' hr'

theorem stored_step (hinv : Inv cfg s) (h : Stored s) (hstep : Step cfg s a t)
    (hno : NoInstall cfg s a) : Stored t where
  model := h.model_step hinv hstep hno
  tracked := h.tracked_step hinv hstep hno
  victim := h.victim_step hinv hstep hno
  conflict := clashing_step hinv h.conflict hstep

/-- The victims that live swaps have still to unload are in `loaded`. -/
def Present (s : State) : Prop :=
  ∀ (i : ℕ) (k : Task) (r : Ref), s.tasks[i]? = some k → r ∈ k.toUnload →
    s.recorded (s.heap r).variant.id = some r

/-- Only its own swap takes a victim out of `loaded`, when it is unloaded. -/
theorem present_step (hinv : Inv cfg s) (hs : Stored s) (h : Present s) (hstep : Step cfg s a t)
    (hno : NoInstall cfg s a) (hdec : ∀ p job victims, s.decision p = some (job, victims) →
      t = committed s p job victims → ∀ r ∈ victims, s.recorded (s.heap r).variant.id = some r) :
    Present t := by
  intro i k r hi hr
  rcases step_toUnload hstep hi hr with ⟨k₀, hk₀, hr₀, -⟩ | ⟨-, -, p, job, hd, ht, -⟩
  · have hv₀ := Task.victims_of_toUnload hr₀
    have hrec := h i k₀ r hk₀ hr₀
    rw [step_variant hstep (hinv.refs.victim_lt hk₀ hv₀)]
    rcases step_kept hinv.deciding hstep hrec with hkept | ⟨victim, ⟨j, done, rest, model, answer, hj,
      -, ht⟩, hid⟩ | ⟨model, ⟨j, k₁, hj, ho, -⟩, hid⟩ | ⟨p, q, variant, found, hq, hinst⟩
    · exact hkept
    · -- its own swap has unloaded it, and has only the others left
      have hmem : victim ∈ (Task.swapUnload done victim rest model).toUnload := List.mem_cons_self
      have hvictim := h j _ victim hj hmem
      rw [hid, hrec] at hvictim
      obtain rfl := Option.some.inj hvictim
      obtain rfl := hinv.victims.unique i j k₀ _ r hk₀ hj hv₀ (Task.victims_of_toUnload hmem)
      rw [ht, Table.get_set_self hj] at hi
      obtain rfl := Option.some.inj hi
      rw [toUnload_swapNext] at hr
      have hnodup := hinv.victims.nodup i _ hj
      exact absurd hr (List.nodup_cons.1 (List.nodup_append.1 hnodup).2.1).1
    · have hm := hs.model j k₁ model hj ho
      rw [hid, hrec] at hm
      obtain rfl := Option.some.inj hm
      have hready := (hinv.victims.leaving i k₀ r hk₀ hv₀).2
      rw [hinv.owners.unready j k₁ r hj ho] at hready
      cases hready
    · exact absurd hinst (hno p q variant found hq)
  · have hv := Task.victims_of_toUnload hr
    have hother := (hinv.deciding.decision hd).1.other r (List.mem_append_left _ hv)
    rw [step_variant hstep (hinv.refs.decided_lt hd hv), ht, recorded_committed, if_neg hother]
    exact hdec p job _ hd ht r hv

/-- While the victims and models of swaps are in `loaded`, no swap dies. -/
theorem Stored.not_crashes (h : Stored s) (hpresent : Present s) : s.crashes a = false := by
  unfold State.crashes
  split
  · next i answer =>
    split
    · next done victim rest model _ hk =>
      rw [hpresent i _ victim hk List.mem_cons_self]
      rfl
    · next done victim rest model _ hk =>
      rw [h.model i _ model hk rfl]
      rfl
    · rfl
  · rfl

theorem clashing_initial (now : ℚ) (found : Survey) : Clashing (initial now found) := by
  intro i k r m hi hr
  obtain ⟨r₀, id, rfl, -⟩ := initial_tasks hi
  cases hr

/-- In every run, re-inspections or not. -/
theorem clashing {ok : State → Act → Prop} (h : (scheduler cfg).Reach ok s) : Clashing s := by
  refine invariant_reach ?_ ?_ h
  · intro now found _
    exact clashing_initial now found
  · intro s a t hs hclash _ hstep
    exact clashing_step (inv hs) hclash hstep

theorem stored_initial {now : ℚ} {found : Survey} (hf : found.Complete cfg) :
    Stored (initial now found) := by
  have hkeyed : ∀ id r, (initial now found).recorded id = some r →
      (initial now found).recorded ((initial now found).heap r).variant.id = some r := by
    intro id r hr
    rw [((refs_initial hf).keyed id r hr).2]
    exact hr
  refine ⟨?_, ?_, ?_, ?_⟩
  · intro i k r hi ho
    obtain ⟨r', id, rfl, hid⟩ := initial_tasks hi
    obtain rfl : r' = r := Option.some.inj ho
    exact hkeyed id r' hid
  · rintro r ⟨p, after, model, rest, hp, hr, -⟩
    obtain ⟨pending, q, hto, heq⟩ := initial_cases now found
    have hq : q = .tracking after model rest := by
      obtain ⟨rfl, -⟩ := initial_requests hp
      rw [heq] at hp
      exact Option.some.inj hp
    have hmem := hto.refs.1 r (by rw [hq]; exact List.mem_cons_of_mem _ hr)
    obtain ⟨id, hid⟩ := Dict.mem_values.1 hmem
    exact hkeyed id r (by rw [heq]; exact hid)
  · intro i k r r' hi hr
    obtain ⟨r₀, id, rfl, -⟩ := initial_tasks hi
    cases hr
  · exact clashing_initial now found

/-- In a run without a re-inspection nobody is inside `reinspect`, and tasks and
    `loaded` agree. -/
theorem stored {ok : State → Act → Prop} (hok : ∀ s a, ok s a → uninspected s a = true)
    (h : (scheduler cfg).Reach ok s) : Uninspected s ∧ Stored s := by
  refine invariant_reach (I := fun s => Uninspected s ∧ Stored s) ?_ ?_ h
  · intro now found hf
    exact ⟨uninspected_initial now found, stored_initial hf⟩
  · rintro s a t hs ⟨hun, hstored⟩ ha hstep
    have hno : NoInstall cfg s a := fun p q variant found hq => hun.not_surveys (hok s a ha) hq
    exact ⟨uninspected_step hun (hok s a ha) hstep, stored_step (inv hs) hstored hstep hno⟩

end ModelBroker
