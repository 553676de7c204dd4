import ModelBroker.Scheduler.Conditions
import ModelBroker.Scheduler.Deciding

/-!
# The idle protection window

`busy` judges the window of every conflicting model once, one after the other,
and awaits an observation for each (lines 563–590). The check that `place` makes
at the end is about `active`, `queued` and `leaving` only.

* `step_lastActivity`: who writes a record's `last_activity`.
* `decided_protected`: when no admission to a model ends after `busy` has judged
  it, every victim's window is over at the moment of decision.
* `decided_unprotected`: a short request uses the first of two victims while the
  second is observed.
-/

namespace ModelBroker

variable {cfg : Config} {s t : State} {a : Act}

/-! ## Who writes `last_activity` -/

theorem step_lastActivity (h : Step cfg s a t) {r : Ref} (hr : r < s.next) :
    (t.heap r).lastActivity = (s.heap r).lastActivity ∨
      (s.releases a = some r ∧ (t.heap r).lastActivity = s.now) ∨
      (∃ (p : ℕ) (job : Job) (look : Look) (activity : ModelActivity),
        s.requests[p]? = some (.observing job look r) ∧ a = .activity p (.ok activity) ∧
        t.heap r = (s.heap r).observed s.now activity) ∨
      ∃ (i : ℕ) (k : Task), s.tasks[i]? = some k ∧ k.owns = some r := by
  cases h with
  | @release p _ r' _ hq ha =>
    by_cases hm : r = r'
    · subst hm
      refine .inr (.inl ⟨?_, by simp⟩)
      rcases ha with rfl | rfl <;> simp [State.releases, hq]
    · exact .inl (by simp [hm])
  | @busy p job look model activity _ hq | @idle p job look model activity hq =>
    by_cases hm : r = model
    · subst hm
      exact .inr (.inr (.inl ⟨p, job, look, activity, hq, rfl, by simp⟩))
    · exact .inl (by simp [hm])
  | @dropped i model _ _ _ hk | @gone i model _ _ _ hk | @unsure i model _ _ _ hk
  | @baselined i model _ _ hk =>
    by_cases hm : r = model
    · subst hm
      exact .inr (.inr (.inr ⟨i, _, hk, rfl⟩))
    · exact .inl (by simp [hm])
  | @baseline _ _ model _ _ _ answer =>
    left
    by_cases hm : r = model <;> cases answer <;> simp [hm, LoadedModel.withBaseline]
  | tick | arrive | silent | enter | install | join | queue | quit | commit | joined | unjoin | task
  | unloaded | crash | unloadFailed | crashFailed | loadFailed =>
    left
    simp only [State.goto_heap, State.edit_heap, State.remove_heap, State.delete_heap,
      State.setTask_heap, State.background_heap, enter, installed, adopt_of_lt hr,
      committed_of_lt hr]
    try split_ifs
    all_goals rfl

/-- The clock does not go back. -/
theorem step_now (h : Step cfg s a t) : s.now ≤ t.now := by
  cases h with
  | tick hd => exact le_add_of_nonneg_right hd
  | arrive | silent | enter | install | baseline | join | queue | quit | busy | idle | commit | joined
  | unjoin | release | task | unloaded | crash | unloadFailed | crashFailed | loadFailed | dropped
  | gone | unsure | baselined => exact le_refl _

theorem step_now_seconds (h : Step cfg s a t) : (s.now : Seconds) ≤ t.now :=
  WithTop.coe_le_coe.2 (step_now h)

/-! ## What `busy` has found so far -/

namespace Request

/-- The local variables of `busy` that its verdict depends on: the models
    judged, `until` and `reason`. -/
def verdict? : Request → Option (List Ref × Seconds × String)
  | judging _ look | observing _ look _ => some (look.seen, look.untilTime, look.reason)
  | _ => none

/-- The models whose window `busy` has judged. -/
def judgedModels (q : Request) : List Ref := (q.verdict?.map Prod.fst).getD []

theorem judgedModels_of_verdict {q : Request} {seen : List Ref} {untilTime : Seconds} {reason : String}
    (h : q.verdict? = some (seen, untilTime, reason)) : q.judgedModels = seen := by
  simp [judgedModels, h]

theorem not_placeLock_of_verdict {q : Request} {v : List Ref × Seconds × String}
    (h : q.verdict? = some v) (job : Job) : q ≠ .placeLock job := by
  rintro rfl
  cases h

/-- The models judged are among those found ready. -/
theorem decides_of_verdict {q : Request} {seen : List Ref} {untilTime : Seconds} {reason : String}
    (h : q.verdict? = some (seen, untilTime, reason)) :
    ∃ job more rest, q.decides? = some (job, seen ++ more, rest) ∧
      ∀ job look r, q = .observing job look r → r ∈ more := by
  cases q with
  | judging job look =>
    cases h
    exact ⟨job, [], look.rest, by simp [decides?], fun _ _ _ heq => by cases heq⟩
  | observing job look model =>
    cases h
    refine ⟨job, [model], look.rest, rfl, fun _ _ _ heq => ?_⟩
    cases heq
    exact List.mem_singleton_self _
  | arrived | checkLock | surveying | tracking | checked | looping | placeLock | blocked | waiting
  | joining | admitted | finished => cases h

end Request

/-- How a request comes to its verdict. -/
theorem step_verdict (h : Step cfg s a t) {p : ℕ} {q : Request} {seen : List Ref} {untilTime : Seconds}
    {reason : String} (hp : t.requests[p]? = some q)
    (hv : q.verdict? = some (seen, untilTime, reason)) :
    (∃ q₀ : Request, s.requests[p]? = some q₀ ∧ q₀.verdict? = some (seen, untilTime, reason)) ∨
      (seen = [] ∧ untilTime = s.now ∧ a = .resume p ∧
        ∃ job, s.requests[p]? = some (.placeLock job)) ∨
      ∃ (job : Job) (look : Look) (model : Ref) (activity : ModelActivity),
        s.requests[p]? = some (.observing job look model) ∧
        a = .activity p (.ok activity) ∧ activity.working = false ∧
        q = .judging job (judged cfg look model ((s.heap model).observed s.now activity)) ∧
        t = (s.edit [model] fun m => m.observed s.now activity).goto p q := by
  obtain ⟨job, more, rest, hd, -⟩ := Request.decides_of_verdict hv
  cases step_job h hp (Request.job_of_decides hd) with
  | same hp => exact .inl ⟨q, hp, hv⟩
  | head | busy => cases hv
  | idle h₀ ha hwork heq ht => exact .inr (.inr ⟨_, _, _, _, h₀, ha, hwork, heq, ht⟩)
  | silent h₀ hsil =>
    cases hsil with
    | @list job => cases hv; exact .inr (.inl ⟨rfl, rfl, rfl, job, h₀⟩)
    | ask => exact .inl ⟨_, h₀, hv⟩
    | unknown | recheck | clean | survey | unfit | noTicket | inOrder | block | again | sleep
    | wake | cancelled => cases hv

/-- A model that leaves `reason` empty is not protected any longer. -/
theorem judged_reason {look : Look} {r : Ref} {model : LoadedModel}
    (h : (judged cfg look r model).reason = "") :
    look.reason = "" ∧ (judged cfg look r model).untilTime = look.untilTime ∧
      model.lastActivity + cfg.protectSeconds ≤ look.untilTime := by
  unfold judged Look.protect at h ⊢
  split_ifs at h ⊢ with hlt
  · simp at h
  · exact ⟨h, rfl, not_lt.1 hlt⟩

theorem judged_seen (look : Look) (r : Ref) (model : LoadedModel) :
    (judged cfg look r model).seen = look.seen ++ [r] := by
  unfold judged Look.protect
  split_ifs <;> rfl

theorem judged_rest (look : Look) (r : Ref) (model : LoadedModel) :
    (judged cfg look r model).rest = look.rest := by
  unfold judged Look.protect
  split_ifs <;> rfl

/-! ## The window at the moment of decision -/

/-- No admission to a model ends after `busy` has judged the model, while the
    decision is still open. -/
def releasesUnjudged (s : State) (a : Act) : Bool :=
  (s.releases a).all fun r => s.requests.all fun q => !q.judgedModels.contains r

/-- While `busy` has no reason to wait, the windows of the models it has judged
    were over when it started. -/
def WindowsOver (cfg : Config) (s : State) : Prop :=
  ∀ (p : ℕ) (q : Request) (seen : List Ref) (untilTime : Seconds), s.requests[p]? = some q →
    q.verdict? = some (seen, untilTime, "") →
    untilTime ≤ s.now ∧ ∀ r ∈ seen, (s.heap r).lastActivity + cfg.protectSeconds ≤ untilTime

/-- A model judged by a decision in progress keeps its `last_activity`. -/
theorem judged_lastActivity (hinv : Inv cfg s) (hok : releasesUnjudged s a = true)
    (hstep : Step cfg s a t) {p : ℕ} {q : Request} {seen : List Ref} {untilTime : Seconds}
    {reason : String} (hq : s.requests[p]? = some q)
    (hv : q.verdict? = some (seen, untilTime, reason)) {r : Ref} (hr : r ∈ seen) :
    (t.heap r).lastActivity = (s.heap r).lastActivity := by
  obtain ⟨job, more, rest, hd, hmore⟩ := Request.decides_of_verdict hv
  have hdec := hinv.deciding p q job (seen ++ more) rest hq hd
  have hasked : r ∈ seen ++ more := List.mem_append_left _ hr
  have hlt : r < s.next := by
    refine hinv.refs.request p q hq r ?_
    rw [Request.refs_of_decides hd]
    exact List.mem_append_left _ hasked
  rcases step_lastActivity hstep hlt with hsame | ⟨hrel, -⟩ |
    ⟨p', job', look, activity, hp', -, -⟩ | ⟨i, k, hk, ho⟩
  · exact hsame
  · have hall : ∀ q ∈ s.requests, r ∉ q.judgedModels := by
      simpa [releasesUnjudged, hrel] using hok
    have hnot := hall q (List.mem_of_getElem? hq)
    rw [Request.judgedModels_of_verdict hv] at hnot
    exact absurd hr hnot
  · -- only the request that decides observes, and it observes no model twice
    obtain rfl := hinv.locking p p' q _ hq hp' (Request.holdsLock_of_decides hd) rfl
    obtain rfl := Option.some.inj (hq.symm.trans hp')
    have hnd := (List.nodup_append.1 hdec.nodup).1
    exact absurd (hmore job' look r rfl) fun hmem => (List.nodup_append.1 hnd).2.2 r hr r hmem rfl
  · have hready := hinv.owners.unready i k r hk ho
    rw [hdec.ready r hasked] at hready
    cases hready

theorem windowsOver_step (hinv : Inv cfg s) (h : WindowsOver cfg s)
    (hok : releasesUnjudged s a = true) (hstep : Step cfg s a t) : WindowsOver cfg t := by
  intro p q seen untilTime hp hv
  rcases step_verdict hstep hp hv with ⟨q₀, hp₀, hv₀⟩ | ⟨rfl, rfl, -⟩ |
    ⟨job, look, model, activity, hp₀, -, -, rfl, ht⟩
  · obtain ⟨hnow, hover⟩ := h p q₀ seen untilTime hp₀ hv₀
    refine ⟨le_trans hnow (step_now_seconds hstep), fun r hr => ?_⟩
    rw [judged_lastActivity hinv hok hstep hp₀ hv₀ hr]
    exact hover r hr
  · exact ⟨step_now_seconds hstep, fun r hr => by cases hr⟩
  · obtain ⟨rfl, rfl, hreason⟩ : (judged cfg look model _).seen = seen ∧
        (judged cfg look model _).untilTime = untilTime ∧
        (judged cfg look model _).reason = "" := by simpa [Request.verdict?] using hv
    obtain ⟨hreason₀, huntil, hmodel⟩ := judged_reason hreason
    have hv₀ : (Request.observing job look model).verdict? =
        some (look.seen, look.untilTime, "") := by rw [← hreason₀]; rfl
    obtain ⟨hnow, hover⟩ := h p _ look.seen look.untilTime hp₀ hv₀
    rw [huntil, judged_seen]
    refine ⟨le_trans hnow (step_now_seconds hstep), fun r hr => ?_⟩
    rcases List.mem_append.1 hr with hr | hr
    · rw [judged_lastActivity hinv hok hstep hp₀ hv₀ hr]
      exact hover r hr
    · rw [List.mem_singleton.1 hr, ht]
      simpa using hmodel

/-- When `place` marks its victims leaving, each victim's `last_activity` plus
    `protect_seconds` is at or before the clock, in every run in which no
    admission to a model ends after `busy` has judged it. -/
theorem decided_protected {p : ℕ} {job : Job} {victims : List Ref}
    (h : (scheduler cfg).Reach (fun s a => releasesUnjudged s a = true) s)
    (hd : s.decision p = some (job, victims)) :
    ∀ r ∈ victims, (s.heap r).lastActivity + cfg.protectSeconds ≤ s.now := by
  have hover : WindowsOver cfg s := by
    refine invariant_reach ?_ ?_ h
    · intro now found _ p q seen untilTime hp hv
      rcases (initial_requests hp).2 with rfl | ⟨model, rest, rfl⟩ <;> cases hv
    · intro s a t hs hover hok hstep
      exact windowsOver_step (inv hs) hover hok hstep
  obtain ⟨look, hq, -, hreason, -, rfl⟩ := decision_eq_some.1 hd
  have hv : (Request.judging job look).verdict? = some (look.seen, look.untilTime, "") := by
    rw [← hreason]; rfl
  obtain ⟨hnow, hall⟩ := hover p _ look.seen look.untilTime hq hv
  exact fun r hr => le_trans (hall r hr) hnow

/-- One llama.cpp router, a model for each of two cards and one that needs both.
    A model is protected for ten seconds. -/
def pairedCards : Config :=
  .ofVariants oneRouter
    [.claiming "llama" "a--cuda0" ["GPU0"], .claiming "llama" "b--cuda1" ["GPU1"],
      .claiming "llama" "c--cuda01" ["GPU0", "GPU1"]] (by decide) (by decide) 10 30

/-- The router reports that the models of the single cards are loaded. -/
def bothLoaded : String → ServerAnswer := fun _ =>
  .ok (⟨0, false, none⟩,
    ⟨[("a--cuda0", { value := "loaded" }), ("b--cuda1", { value := "loaded" })], by decide⟩)

/-- What an idle model reports. -/
def idle : ModelActivity := ⟨false, 0, 0⟩

/-- Two models are idle for twenty seconds and are chosen as victims. -/
theorem decided_protected_pairedCards :
    ∃ s p job victims, (scheduler pairedCards).Reach (fun s a => releasesUnjudged s a = true) s ∧
      s.decision p = some (job, victims) ∧ victims = [0, 1] ∧
      ∀ r ∈ victims, (s.heap r).lastActivity + pairedCards.protectSeconds ≤ s.now := by
  obtain ⟨s, hs, hP⟩ := reach_run pairedCards releasesUnjudged 0 bothLoaded
    [.activity 0 (.ok idle), .activity 0 (.ok idle), .tick 20,
      .arrive "c--cuda01", .resume 1, .resume 1, .resume 1,
      .resume 1, .activity 1 (.ok idle), .resume 1, .activity 1 (.ok idle)]
    (fun s => (s.decision 1).any fun d => d.2 = [0, 1]) (by decide +kernel)
  obtain ⟨⟨job, victims⟩, hd, hvictims⟩ := (Option.any_eq_true ..).1 hP
  exact ⟨s, 1, job, victims, hs, hd, by simpa using hvictims, decided_protected hs hd⟩

/-- While the second of two victims is observed, a request is admitted to the
    first and released. Both are unloaded at once. -/
theorem decided_unprotected :
    ∃ s p job victims, (scheduler pairedCards).Free s ∧ s.decision p = some (job, victims) ∧
      ∃ r ∈ victims, s.now < (s.heap r).lastActivity + pairedCards.protectSeconds := by
  obtain ⟨s, hs, hP⟩ := reach_run pairedCards (fun _ _ => true) 0 bothLoaded
    [.activity 0 (.ok idle), .activity 0 (.ok idle), .tick 20,
      .arrive "c--cuda01", .resume 1, .resume 1, .resume 1,
      .resume 1, .activity 1 (.ok idle), .resume 1,
      .arrive "a--cuda0", .resume 2, .resume 2, .tick 1, .resume 2, .activity 1 (.ok idle)]
    (fun s => (s.decision 1).any fun d => d.2.any fun r =>
      decide (s.now < (s.heap r).lastActivity + pairedCards.protectSeconds)) (by decide +kernel)
  obtain ⟨⟨job, victims⟩, hd, hvictims⟩ := (Option.any_eq_true ..).1 hP
  obtain ⟨r, hr, hlate⟩ := List.any_eq_true.1 hvictims
  exact ⟨s, 1, job, victims, hs.free, hd, r, hr, by simpa using hlate⟩

end ModelBroker
