import ModelBroker.Scheduler.Admission

/-!
# Work that the broker proxied

`busy` takes a changed decode count for work that bypassed the broker and counts
it as activity now (lines 574–579). The requests the broker has proxied since the
count was last recorded change it too.

The environment `metering` counts the decode calls of each model, which only
admitted requests cause, and keeps when an admission to a record last ended and
when a request's `busy` began.

* `released_unprotected`: when the count is the one last recorded whenever `busy`
  observes a model that was used, a model released long before is not protected.
* `released_protected`: one proxied request, released ninety-five seconds before,
  has its model protected for another ten.
-/

namespace ModelBroker

variable {cfg : Config} {s t : State} {a : Act}

/-! ## The environment -/

/-- The decode counters of the models, when an admission to each record last
    ended, and when each request's `busy` last began. -/
structure Meter where
  decoded : String → ℤ
  released : Ref → Option ℚ
  began : ℕ → ℚ

/-- The request has asked for the lock of `place`, and its `busy` begins now. -/
def State.begins (s : State) : Act → Option ℕ
  | .resume p =>
    match s.requests[p]? with
    | some (.placeLock _) => some p
    | _ => none
  | _ => none

/-- A decode call of a model takes place only while a request is admitted to it. -/
def metering : Env State Act Meter Ref where
  react s a _ w :=
    { w with
      released := match s.releases a with
        | some r => Function.update w.released r (some s.now)
        | none => w.released
      began := match s.begins a with
        | some p => Function.update w.began p s.now
        | none => w.began }
  move s w r :=
    if s.requests.any (Request.admittedTo r) then
      let id := (s.heap r).variant.id
      some { w with decoded := Function.update w.decoded id (w.decoded id + 1) }
    else none

/-- The scheduler with its decode counters. -/
def metered (cfg : Config) : System (State × Meter) (Act ⊕ Ref) :=
  (scheduler cfg).under metering fun _ w => w.released = fun _ => none

/-- The model whose activity an action of the scheduler reads. -/
def State.reads (s : State) : Act → Option (Ref × ModelActivity)
  | .activity p (.ok activity) =>
    match s.requests[p]? with
    | some (.tracking _ model _) | some (.observing _ _ model) => some (model, activity)
    | _ => none
  | .taskActivity i (.ok activity) =>
    match s.tasks[i]? with
    | some (.loadBaseline model _) => some (model, activity)
    | _ => none
  | _ => none

/-- Servers report their counters. -/
def truthful (x : State × Meter) : Act ⊕ Ref → Bool
  | .inl a => (x.1.reads a).all fun (model, activity) =>
      activity.decodeCalls = x.2.decoded (x.1.heap model).variant.id
  | .inr _ => true

/-- When `busy` observes a model to which an admission has ended, its counter is
    the count last recorded. -/
def unmoved (x : State × Meter) : Act ⊕ Ref → Bool
  | .inl (.activity p (.ok _)) =>
    match x.1.requests[p]? with
    | some (.observing _ _ model) => (x.2.released model).isNone ||
        (x.1.heap model).decodeCalls = some (x.2.decoded (x.1.heap model).variant.id)
    | _ => true
  | _ => true

/-- The last admission to the record ended at least `protect_seconds` before the
    request's `busy` began. -/
def releasedBefore (cfg : Config) (x : State × Meter) (p : ℕ) (model : Ref) : Bool :=
  (x.2.released model).any fun (time : ℚ) =>
    (time : Seconds) + cfg.protectSeconds ≤ (x.2.began p : Seconds)

/-! ## What is known of a released record -/

theorem releases_eq_some {r : Ref} (h : s.releases a = some r) :
    ∃ p, s.requests[p]? = some (.admitted r) ∧ (a = .resume p ∨ a = .cancel p) := by
  unfold State.releases at h
  split at h
  · next p =>
    split at h
    · next hp => cases h; exact ⟨p, hp, .inl rfl⟩
    · cases h
  · next p =>
    split at h
    · next hp => cases h; exact ⟨p, hp, .inr rfl⟩
    · cases h
  · cases h

/-- A release writes the time to the record. -/
theorem step_release (h : step cfg s a = some t) {r : Ref} (hr : s.releases a = some r) :
    (∃ p : ℕ, s.requests[p]? = some (.admitted r)) ∧ (t.heap r).lastActivity = s.now := by
  obtain ⟨p, hp, rfl | rfl⟩ := releases_eq_some hr
  · have ht : some (release s p r .released) = some t := by rw [← h]; simp [step, hp, resume]
    obtain rfl := Option.some.inj ht
    exact ⟨⟨p, hp⟩, by simp [release]⟩
  · have ht : some (release s p r .cancelled) = some t := by rw [← h]; simp [step, hp, cancel]
    obtain rfl := Option.some.inj ht
    exact ⟨⟨p, hp⟩, by simp [release]⟩

/-- `until` only grows. -/
theorem le_judged_untilTime (look : Look) (r : Ref) (model : LoadedModel) :
    look.untilTime ≤ (judged cfg look r model).untilTime := by
  unfold judged Look.protect
  split_ifs with hlt
  · exact le_of_lt hlt
  · exact le_refl _

/-- What the environment knows of the scheduler. -/
structure Metered (s : State) (w : Meter) : Prop where
  released : ∀ (r : Ref) (time : ℚ), w.released r = some time →
    r < s.next ∧ (s.heap r).ready = true ∧ (s.heap r).lastActivity = time
  began : ∀ (p : ℕ) (q : Request) (seen : List Ref) (untilTime : Seconds) (reason : String),
    s.requests[p]? = some q → q.verdict? = some (seen, untilTime, reason) →
      (w.began p : Seconds) ≤ untilTime

/-- An observation that finds the count last recorded keeps `last_activity`. -/
theorem observed_lastActivity {model : LoadedModel} {now : ℚ} {activity : ModelActivity}
    (h : model.decodeCalls = some activity.decodeCalls) :
    (model.observed now activity).lastActivity = model.lastActivity := by
  simp [LoadedModel.observed, h]

/-- What `busy` observes of a model that was used is the count last recorded. -/
theorem unmoved_count {w : Meter} {p : ℕ} {job : Job} {look : Look} {model : Ref}
    {activity : ModelActivity} {time : ℚ} (hp : s.requests[p]? = some (.observing job look model))
    (htrue : truthful (s, w) (.inl (.activity p (.ok activity))) = true)
    (hok : unmoved (s, w) (.inl (.activity p (.ok activity))) = true)
    (hreleased : w.released model = some time) :
    (s.heap model).decodeCalls = some activity.decodeCalls := by
  have hcount : activity.decodeCalls = w.decoded (s.heap model).variant.id := by
    simpa [truthful, State.reads, hp] using htrue
  rw [hcount]
  simpa [unmoved, hp, hreleased] using hok

theorem Metered.released_step {w : Meter} (hinv : Inv cfg s) (hsound : AdmittedSound s)
    (h : Metered s w) (hstep : step cfg s a = some t) (htrue : truthful (s, w) (.inl a) = true)
    (hok : unmoved (s, w) (.inl a) = true) (r : Ref) (time : ℚ)
    (hr : (metering.react s a t w).released r = some time) :
    r < t.next ∧ (t.heap r).ready = true ∧ (t.heap r).lastActivity = time := by
  have hcases := step_cases hstep
  -- a record released before, when this step releases another one, or none
  have old : w.released r = some time → s.releases a ≠ some r →
      r < t.next ∧ (t.heap r).ready = true ∧ (t.heap r).lastActivity = time := by
    intro hold hne
    obtain ⟨hlt, hready, htime⟩ := h.released r time hold
    refine ⟨Nat.lt_of_lt_of_le hlt (step_next_le hcases), step_ready_mono hcases hlt hready, ?_⟩
    rcases step_lastActivity hcases hlt with hsame | ⟨hrel, -⟩ |
      ⟨p, job, look, activity, hp, rfl, hobs⟩ | ⟨i, k, hk, ho⟩
    · rw [hsame, htime]
    · exact absurd hrel hne
    · rw [hobs, observed_lastActivity (unmoved_count hp htrue hok hold), htime]
    · rw [hinv.owners.unready i k r hk ho] at hready
      cases hready
  cases hrel : s.releases a with
  | none =>
    simp only [metering, hrel] at hr
    exact old hr (by rw [hrel]; exact fun heq => by cases heq)
  | some r₀ =>
    simp only [metering, hrel, Function.update_apply] at hr
    split_ifs at hr with heq
    · subst heq
      obtain ⟨⟨p, hp⟩, htime⟩ := step_release hstep hrel
      have hlt := hinv.refs.admitted_lt hp
      rw [← Option.some.inj hr]
      exact ⟨Nat.lt_of_lt_of_le hlt (step_next_le hcases),
        step_ready_mono hcases hlt (hsound p r hp).1, htime⟩
    · exact old hr (by rw [hrel]; exact fun hsome => heq (Option.some.inj hsome).symm)

theorem Metered.began_step {w : Meter} (h : Metered s w) (hstep : Step cfg s a t) (p : ℕ)
    (q : Request) (seen : List Ref) (untilTime : Seconds) (reason : String)
    (hp : t.requests[p]? = some q) (hv : q.verdict? = some (seen, untilTime, reason)) :
    ((metering.react s a t w).began p : Seconds) ≤ untilTime := by
  -- a request that has a verdict is past its lock
  have past : ∀ {q₀ : Request} {v : List Ref × Seconds × String}, s.requests[p]? = some q₀ →
      q₀.verdict? = some v → (metering.react s a t w).began p = w.began p := by
    intro q₀ v hp₀ hv₀
    simp only [metering]
    cases hbegins : s.begins a with
    | none => rfl
    | some p' =>
      have hne : p ≠ p' := by
        rintro rfl
        unfold State.begins at hbegins
        split at hbegins
        · split at hbegins
          · next job hjob =>
            cases hbegins
            rw [hjob] at hp₀
            exact absurd (Option.some.inj hp₀).symm (Request.not_placeLock_of_verdict hv₀ job)
          · cases hbegins
        · cases hbegins
      exact Function.update_of_ne hne _ _
  rcases step_verdict hstep hp hv with ⟨q₀, hp₀, hv₀⟩ | ⟨-, rfl, rfl, job, hp₀⟩ |
    ⟨job, look, model, activity, hp₀, -, -, rfl, -⟩
  · rw [past hp₀ hv₀]
    exact h.began p q₀ seen untilTime reason hp₀ hv₀
  · simp [metering, State.begins, hp₀]
  · rw [past hp₀ rfl]
    have huntil : (judged cfg look model ((s.heap model).observed s.now activity)).untilTime =
        untilTime := congrArg (fun v => v.2.1) (Option.some.inj hv)
    rw [← huntil]
    exact le_trans (h.began p _ look.seen look.untilTime look.reason hp₀ rfl)
      (le_judged_untilTime ..)

theorem metered_inv {x : State × Meter}
    (h : (metered cfg).Reach (fun x a => (truthful x a && unmoved x a) = true) x) :
    Metered x.1 x.2 := by
  refine System.Reach.environment ?_ ?_ ?_ h
  · rintro s w ⟨earlier, now, answer, -, rfl⟩ hw
    refine ⟨?_, ?_⟩
    · intro r time hr
      rw [hw] at hr
      cases hr
    · intro p q seen untilTime reason hp hv
      rcases (initial_requests hp).2 with rfl | ⟨model, rest, rfl⟩ <;> cases hv
  · intro s w a t hx hm hok hstep
    obtain ⟨htrue, hunmoved⟩ := Bool.and_eq_true_iff.1 hok
    have hs : (scheduler cfg).Free s := hx.program fun _ _ _ => trivial
    exact ⟨hm.released_step (inv hs) (admitted_sound hs) hstep htrue hunmoved,
      hm.began_step (step_cases hstep)⟩
  · intro s w r w' _ hm _ hmove
    simp only [metering] at hmove
    split_ifs at hmove
    cases hmove
    exact ⟨hm.released, hm.began⟩

/-- An idle observation puts the model among those judged. -/
theorem step_idle {p : ℕ} {job : Job} {look : Look} {model : Ref} {activity : ModelActivity}
    (hp : s.requests[p]? = some (.observing job look model)) (hidle : activity.working = false) :
    ∃ t, step cfg s (.activity p (.ok activity)) = some t ∧
      t.requests[p]? = some (.judging job
        (judged cfg look model ((s.heap model).observed s.now activity))) := by
  refine ⟨observe cfg s p job look model (.ok activity), by simp [step, hp], ?_⟩
  rw [observe_idle cfg s p job look model hidle]
  exact Table.get_set_self hp

/-- In every run in which `busy` finds the count last recorded whenever it
    observes a model that was used: an idle model whose last admission ended at
    least `protect_seconds` before `busy` began does not make `busy` wait. -/
theorem released_unprotected {x : State × Meter} {p : ℕ} {job : Job} {look : Look} {model : Ref}
    {activity : ModelActivity}
    (h : (metered cfg).Reach (fun x a => (truthful x a && unmoved x a) = true) x)
    (hp : x.1.requests[p]? = some (.observing job look model))
    (hok : (truthful x (.inl (.activity p (.ok activity))) &&
      unmoved x (.inl (.activity p (.ok activity)))) = true)
    (hidle : activity.working = false) (hreleased : releasedBefore cfg x p model = true) :
    ∃ t, step cfg x.1 (.activity p (.ok activity)) = some t ∧
      t.requests[p]? = some (.judging job { look with seen := look.seen ++ [model] }) := by
  obtain ⟨hr, hbegan⟩ := metered_inv h
  obtain ⟨time, htime, hbefore⟩ := (Option.any_eq_true ..).1 hreleased
  obtain ⟨htrue, hunmoved⟩ := Bool.and_eq_true_iff.1 hok
  obtain ⟨-, -, hlast⟩ := hr model time htime
  have hcount := unmoved_count hp htrue hunmoved htime
  have hover : ¬ look.untilTime <
      ((x.1.heap model).observed x.1.now activity).lastActivity + cfg.protectSeconds := by
    rw [observed_lastActivity hcount, hlast, not_lt]
    exact le_trans (of_decide_eq_true hbefore)
      (hbegan p _ look.seen look.untilTime look.reason hp rfl)
  have hjudged : judged cfg look model ((x.1.heap model).observed x.1.now activity) =
      { look with seen := look.seen ++ [model] } := by
    unfold judged Look.protect
    exact if_neg hover
  rw [← hjudged]
  exact step_idle hp hidle

/-- The request awaits an observation of this model. -/
def Request.observes (model : Ref) : Request → Bool
  | observing _ _ r => r = model
  | _ => false

theorem Request.of_observes {q : Request} {model : Ref} (h : q.observes model = true) :
    ∃ job look, q = .observing job look model := by
  cases q with
  | observing job look r =>
    obtain rfl : r = model := of_decide_eq_true h
    exact ⟨job, look, rfl⟩
  | arrived | checkLock | surveying | tracking | checked | looping | placeLock | judging | blocked
  | waiting | joining | admitted | finished => cases h

/-- The model of the first card serves a request until time 5, which makes this
    many decode calls. At time 100 a request for both cards begins to judge it. -/
def servedOnce (decodeCalls : ℕ) : List (Act ⊕ Ref) :=
  [.inl (.activity 0 (.ok idle)), .inl (.activity 0 (.ok idle)),
    .inl (.arrive "a--cuda0"), .inl (.resume 1), .inl (.resume 1)] ++
  List.replicate decodeCalls (.inr 0) ++
  [.inl (.tick 5), .inl (.resume 1), .inl (.tick 95), .inl (.arrive "c--cuda01"),
    .inl (.resume 2), .inl (.resume 2), .inl (.resume 2), .inl (.resume 2)]

/-- Nothing was counted or released yet. -/
def unused : Meter := ⟨fun _ => 0, fun _ => none, fun _ => 0⟩

/-- The request made no decode call, and its model is not protected. -/
theorem released_unprotected_pairedCards :
    ∃ x job look t, (metered pairedCards).Reach
        (fun x a => (truthful x a && unmoved x a) = true) x ∧
      x.1.requests[2]? = some (.observing job look 0) ∧
      step pairedCards x.1 (.activity 2 (.ok idle)) = some t ∧
      t.requests[2]? = some (.judging job { look with seen := look.seen ++ [0] }) := by
  have h0 : (metered pairedCards).init (initial 0 (survey pairedCards 0 bothLoaded), unused) :=
    ⟨⟨0, 0, bothLoaded, le_refl 0, rfl⟩, rfl⟩
  obtain ⟨x, hx, hP⟩ := @System.exists_reach _ _ _ (fun x a => truthful x a && unmoved x a) _ h0
    (servedOnce 0)
    (fun x => x.1.requests[2]?.any (Request.observes 0) && releasedBefore pairedCards x 2 0 &&
      (truthful x (.inl (.activity 2 (.ok idle))) && unmoved x (.inl (.activity 2 (.ok idle)))))
    (by decide +kernel)
  obtain ⟨hP, hok⟩ := Bool.and_eq_true_iff.1 hP
  obtain ⟨hobs, hreleased⟩ := Bool.and_eq_true_iff.1 hP
  obtain ⟨q, hq, hobs⟩ := (Option.any_eq_true ..).1 hobs
  obtain ⟨job, look, rfl⟩ := Request.of_observes hobs
  obtain ⟨t, ht, hafter⟩ := released_unprotected hx hq hok rfl hreleased
  exact ⟨x, job, look, t, hx, hq, ht, hafter⟩

/-- The request made five decode calls, all of them through the broker. Its
    model is idle and was released ninety-five seconds before, with a window of
    ten; and `busy` waits because it "was used recently". -/
theorem released_protected :
    ∃ x job look t look', (metered pairedCards).Reach (fun x a => truthful x a = true) x ∧
      x.1.requests[2]? = some (.observing job look 0) ∧
      (x.1.heap 0).active = 0 ∧ (x.1.heap 0).queued = 0 ∧ (x.1.heap 0).decodeCalls = some 0 ∧
      releasedBefore pairedCards x 2 0 = true ∧
      truthful x (.inl (.activity 2 (.ok ⟨false, 0, 5⟩))) = true ∧
      step pairedCards x.1 (.activity 2 (.ok ⟨false, 0, 5⟩)) = some t ∧
      t.requests[2]? = some (.judging job look') ∧ look.reason = "" ∧
      look'.reason = "'a--cuda0' was used recently" := by
  have h0 : (metered pairedCards).init (initial 0 (survey pairedCards 0 bothLoaded), unused) :=
    ⟨⟨0, 0, bothLoaded, le_refl 0, rfl⟩, rfl⟩
  obtain ⟨x, hx, hP⟩ := @System.exists_reach _ _ _ truthful _ h0 (servedOnce 5)
    (fun x => x.1.requests[2]?.any (Request.observes 0) &&
      ((x.1.heap 0).active = 0 && (x.1.heap 0).queued = 0 && (x.1.heap 0).decodeCalls = some 0) &&
      releasedBefore pairedCards x 2 0 && truthful x (.inl (.activity 2 (.ok ⟨false, 0, 5⟩))) &&
      x.1.requests[2]?.any (fun q => q.verdict?.any fun v => v.2.2 = "") &&
      (step pairedCards x.1 (.activity 2 (.ok ⟨false, 0, 5⟩))).any fun t =>
        t.requests[2]?.any fun q => q.verdict?.any fun v =>
          v.2.2 = "'a--cuda0' was used recently")
    (by decide +kernel)
  simp only [Bool.and_eq_true, decide_eq_true_eq] at hP
  obtain ⟨⟨⟨⟨⟨hobs, ⟨hactive, hqueued⟩, hcount⟩, hreleased⟩, htrue⟩, hbefore⟩, hafter⟩ := hP
  obtain ⟨q, hq, hobs⟩ := (Option.any_eq_true ..).1 hobs
  obtain ⟨job, look, rfl⟩ := Request.of_observes hobs
  obtain ⟨t, ht, hjudging⟩ := @step_idle pairedCards x.1 2 job look 0 ⟨false, 0, 5⟩ hq rfl
  rw [hq] at hbefore
  rw [ht, Option.any_some, hjudging] at hafter
  exact ⟨x, job, look, t, _, hx, hq, hactive, hqueued, hcount, hreleased, htrue, ht, hjudging,
    by simpa [Request.verdict?] using hbefore, by simpa [Request.verdict?] using hafter⟩

end ModelBroker
