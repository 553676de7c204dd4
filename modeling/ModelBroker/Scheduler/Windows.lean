import ModelBroker.Scheduler.Protection

/-!
# The end of the protection window

What `busy` (`scheduler.py`, lines 559–591) returns when every conflicting model
is ready and idle, and nothing but the clock interrupts it: the request goes to
the next model, time passes, the server answers, and so on.

* `run_observations`: the loop records every observation, and keeps the latest
  end of a window that is not over when it starts.
* `blocked_retry`: the `Retry-After` made of that end does not come before it.
* `busy_until_exact`: what a call records and returns, what a second one returns, and
  what a request finds that comes back as told.
-/

namespace ModelBroker

variable {cfg : Config} {s : State} {p : ℕ} {job : Job}

/-! ## A call of `busy` -/

/-- What happens at one `await` of `busy`: time passes, and the server answers. -/
structure Observation where
  delay : ℚ
  activity : ModelActivity

/-- The clock goes on, and the model is not processing and not deferring. -/
def Observation.quiet (seen : Observation) : Bool := decide (0 ≤ seen.delay) && !seen.activity.working

/-- The steps of a call of `busy`, up to its last line. -/
def observations (p : ℕ) (answers : List Observation) : List Act :=
  answers.flatMap fun seen => [.resume p, .tick seen.delay, .activity p (.ok seen.activity)]

/-- What `busy` returns at its end (line 591). -/
def Look.result (look : Look) : Option Blocked :=
  if look.reason ≠ "" then some ⟨look.reason, some look.untilTime⟩ else none

/-- A call of `busy` by request `p` that nothing interrupts: the state at its end
    and what it returns. -/
def busy (cfg : Config) (s : State) (p : ℕ) (answers : List Observation) :
    Option (State × Option Blocked) :=
  ((scheduler cfg).run (fun _ _ => true) s (observations p answers)).bind fun t =>
    match t.requests[p]? with
    | some (.judging _ look) => if look.rest.isEmpty then some (t, look.result) else none
    | _ => none

/-- The end of a record's protection window. -/
def windowEnd (cfg : Config) (s : State) (r : Ref) : Seconds :=
  (s.heap r).lastActivity + cfg.protectSeconds

/-- A model that `busy` observes: nobody uses it or waits for it. -/
def LoadedModel.free (model : LoadedModel) : Bool :=
  !model.leaving && model.ready && model.active = 0 && model.queued = 0

/-- When the answer about the model at this index comes. -/
def answeredAt (start : ℚ) (answers : List Observation) (i : ℕ) : ℚ :=
  start + ((answers.take (i + 1)).map (·.delay)).sum

/-! ## The loop -/

/-- The state after one observation. -/
def observed (cfg : Config) (s : State) (p : ℕ) (job : Job) (look : Look) (r : Ref)
    (rest : List Ref) (seen : Observation) : State :=
  ({ s with now := s.now + seen.delay }.edit [r] fun m =>
      m.observed (s.now + seen.delay) seen.activity).goto p
    (.judging job (judged cfg { look with rest := rest } r
      ((s.heap r).observed (s.now + seen.delay) seen.activity)))

/-- The next model is free, and its server is asked. -/
theorem step_ask {look : Look} {r : Ref} {rest : List Ref}
    (hp : s.requests[p]? = some (.judging job look)) (hrest : look.rest = r :: rest)
    (hfree : (s.heap r).free = true) :
    step cfg s (.resume p) = some (s.goto p (.observing job { look with rest := rest } r)) := by
  simp only [LoadedModel.free, Bool.and_eq_true, Bool.not_eq_true', decide_eq_true_eq] at hfree
  obtain ⟨⟨⟨hleaving, hready⟩, hactive⟩, hqueued⟩ := hfree
  simp [step, hp, resume, judge, hrest, hleaving, hready, hactive, hqueued]

/-- Time has passed, and the server answers. -/
theorem step_observed {q : Request} {look : Look} {r : Ref} {rest : List Ref} {seen : Observation}
    (hp : s.requests[p]? = some q) (hwork : seen.activity.working = false) :
    step cfg { s.goto p (.observing job { look with rest := rest } r) with
        now := s.now + seen.delay } (.activity p (.ok seen.activity)) =
      some (observed cfg s p job look r rest seen) := by
  have hp' := @Table.get_set_self _ _ _ _ (Request.observing job { look with rest := rest } r) hp
  simp only [step, State.goto_requests, hp', observe, hwork, Option.some.injEq]
  simp [observed, judged, State.goto, State.edit]

/-- One round of the loop. -/
theorem run_observation {look : Look} {r : Ref} {rest : List Ref} {seen : Observation}
    (hp : s.requests[p]? = some (.judging job look)) (hrest : look.rest = r :: rest)
    (hfree : (s.heap r).free = true) (hquiet : seen.quiet = true) (acts : List Act) :
    (scheduler cfg).run (fun _ _ => true) s
        (.resume p :: .tick seen.delay :: .activity p (.ok seen.activity) :: acts) =
      (scheduler cfg).run (fun _ _ => true) (observed cfg s p job look r rest seen) acts := by
  simp only [Observation.quiet, Bool.and_eq_true, decide_eq_true_eq, Bool.not_eq_true'] at hquiet
  obtain ⟨hdelay, hwork⟩ := hquiet
  have htick : step cfg (s.goto p (.observing job { look with rest := rest } r))
      (.tick seen.delay) = some
        { s.goto p (.observing job { look with rest := rest } r) with now := s.now + seen.delay } :=
    if_pos hdelay
  rw [System.run_cons rfl (step_ask hp hrest hfree), System.run_cons rfl htick,
    System.run_cons rfl (step_observed hp hwork)]

/-- The record of a refusal is not empty. -/
theorem used_recently_ne (id : String) : Python.repr id ++ " was used recently" ≠ "" := by
  intro h
  have hlen := congrArg String.length h
  simp at hlen

/-- What one more window does to `until` and `reason`. -/
theorem judged_cases (cfg : Config) (look : Look) (r : Ref) (model : LoadedModel) :
    (model.lastActivity + cfg.protectSeconds ≤ look.untilTime ∧
      (judged cfg look r model).untilTime = look.untilTime ∧
      (judged cfg look r model).reason = look.reason) ∨
    (look.untilTime < model.lastActivity + cfg.protectSeconds ∧
      (judged cfg look r model).untilTime = model.lastActivity + cfg.protectSeconds ∧
      (judged cfg look r model).reason ≠ "") := by
  unfold judged Look.protect
  split_ifs with hlt
  · exact .inr ⟨hlt, rfl, used_recently_ne _⟩
  · exact .inl ⟨not_lt.1 hlt, rfl, rfl⟩

/-- A look at the end of the loop, given the one at its start: it has the latest
    end of a window of these models that is later than `until` was. -/
structure Latest (cfg : Config) (t : State) (conflicts : List Ref) (look look' : Look) :
    Prop where
  above : ∀ r ∈ conflicts, windowEnd cfg t r ≤ look'.untilTime
  found : (look'.untilTime = look.untilTime ∧ look'.reason = look.reason) ∨
    (look.untilTime < look'.untilTime ∧ look'.reason ≠ "" ∧
      ∃ r ∈ conflicts, windowEnd cfg t r = look'.untilTime)

theorem Latest.le {t : State} {conflicts : List Ref} {look look' : Look}
    (h : Latest cfg t conflicts look look') : look.untilTime ≤ look'.untilTime := by
  rcases h.found with ⟨heq, -⟩ | ⟨hlt, -⟩
  · exact le_of_eq heq.symm
  · exact le_of_lt hlt

/-- One more model at the head of the loop. -/
theorem Latest.cons {t : State} {r : Ref} {rest : List Ref} {look look' : Look}
    {model : LoadedModel}
    (h : Latest cfg t rest (judged cfg { look with rest := rest } r model) look')
    (hend : windowEnd cfg t r = model.lastActivity + cfg.protectSeconds) :
    Latest cfg t (r :: rest) look look' := by
  have hle := h.le
  rcases judged_cases cfg { look with rest := rest } r model with
    ⟨hover, huntil, hreason⟩ | ⟨hlt, huntil, hreason⟩
  · rw [huntil] at hle
    refine ⟨List.forall_mem_cons.2 ⟨hend ▸ hover.trans hle, h.above⟩, ?_⟩
    rcases h.found with ⟨heq, heq'⟩ | ⟨hlater, hne, r', hr', hend'⟩
    · exact .inl ⟨heq.trans huntil, heq'.trans hreason⟩
    · exact .inr ⟨huntil ▸ hlater, hne, r', List.mem_cons_of_mem _ hr', hend'⟩
  · rw [huntil] at hle
    refine ⟨List.forall_mem_cons.2 ⟨hend ▸ hle, h.above⟩, .inr ?_⟩
    rcases h.found with ⟨heq, heq'⟩ | ⟨hlater, hne, r', hr', hend'⟩
    · refine ⟨?_, heq' ▸ hreason, r, List.mem_cons_self, ?_⟩
      · rw [heq, huntil]; exact hlt
      · rw [heq, huntil]; exact hend
    · exact ⟨lt_of_lt_of_le hlt hle, hne, r', List.mem_cons_of_mem _ hr', hend'⟩

/-- The loop of `busy`. -/
theorem run_observations : ∀ (conflicts : List Ref) (answers : List Observation) (s : State)
    (look : Look), s.requests[p]? = some (.judging job look) → look.rest = conflicts →
    conflicts.Nodup → (∀ r ∈ conflicts, (s.heap r).free = true) →
    answers.length = conflicts.length → (∀ seen ∈ answers, seen.quiet = true) →
    ∃ t look', (scheduler cfg).run (fun _ _ => true) s (observations p answers) = some t ∧
      t.requests[p]? = some (.judging job look') ∧ look'.rest = [] ∧ s.now ≤ t.now ∧
      (∀ r, r ∉ conflicts → t.heap r = s.heap r) ∧
      (∀ (i : ℕ) (r : Ref) (seen : Observation), conflicts[i]? = some r → answers[i]? = some seen →
        t.heap r = (s.heap r).observed (answeredAt s.now answers i) seen.activity) ∧
      Latest cfg t conflicts look look' := by
  intro conflicts
  induction conflicts with
  | nil =>
    intro answers s look hp hrest _ _ hlen _
    obtain rfl := List.length_eq_zero_iff.1 hlen
    exact ⟨s, look, rfl, hp, hrest, le_refl _, fun _ _ => rfl,
      fun _ _ _ hr => absurd hr (by simp),
      ⟨fun _ hr => absurd hr List.not_mem_nil, .inl ⟨rfl, rfl⟩⟩⟩
  | cons r rest ih =>
    intro answers s look hp hrest hnd hfree hlen hquiet
    cases answers with
    | nil => cases hlen
    | cons seen answers =>
      obtain ⟨hr, hnd⟩ := List.nodup_cons.1 hnd
      obtain ⟨hfirst, hfree⟩ := List.forall_mem_cons.1 hfree
      obtain ⟨hseen, hquiet⟩ := List.forall_mem_cons.1 hquiet
      have hround := @run_observation cfg s p job look r rest seen hp hrest hfirst hseen
        (observations p answers)
      have hother : ∀ r', r' ≠ r → (observed cfg s p job look r rest seen).heap r' = s.heap r' :=
        fun r' hne => by simp [observed, hne]
      have hself : (observed cfg s p job look r rest seen).heap r =
          (s.heap r).observed (s.now + seen.delay) seen.activity := by simp [observed]
      have hne : ∀ r' ∈ rest, r' ≠ r := fun r' hmem heq => hr (heq ▸ hmem)
      obtain ⟨t, look', hrun, hq, hrest', hnow, hsame, hseens, hlatest⟩ :=
        ih answers (observed cfg s p job look r rest seen) _ (Table.get_set_self hp)
          (judged_rest _ _ _) hnd (fun r' hmem => by rw [hother r' (hne r' hmem)]; exact hfree r' hmem)
          (by simpa using hlen) hquiet
      have hdelay : 0 ≤ seen.delay := by
        simp only [Observation.quiet, Bool.and_eq_true, decide_eq_true_eq] at hseen
        exact hseen.1
      have hheap : t.heap r = (s.heap r).observed (s.now + seen.delay) seen.activity :=
        (hsame r hr).trans hself
      refine ⟨t, look', hround.trans hrun, hq, hrest', ?_, ?_, ?_, ?_⟩
      · exact (le_add_of_nonneg_right hdelay).trans hnow
      · intro r' hr'
        obtain ⟨hne', hnot⟩ := not_or.1 (mt List.mem_cons.2 hr')
        exact (hsame r' hnot).trans (hother r' hne')
      · intro i r' seen' hr' hseen'
        cases i with
        | zero =>
          obtain rfl := Option.some.inj hr'
          obtain rfl := Option.some.inj hseen'
          simpa [answeredAt] using hheap
        | succ i =>
          have hmem : r' ∈ rest := List.mem_of_getElem? hr'
          rw [hseens i r' seen' hr' hseen', hother r' (hne r' hmem)]
          simp [answeredAt, observed, add_assoc]
      · have hend : windowEnd cfg t r =
            ((s.heap r).observed (s.now + seen.delay) seen.activity).lastActivity +
              cfg.protectSeconds := by rw [windowEnd, hheap]
        exact hlatest.cons hend

/-! ## What a call returns -/

/-- Request `p` starts a call of `busy` on these models, none of which is in use,
    and their servers answer that they are idle. -/
structure Calls (s : State) (p : ℕ) (job : Job) (conflicts : List Ref)
    (answers : List Observation) : Prop where
  judging : s.requests[p]? = some (.judging job { rest := conflicts, untilTime := s.now })
  nodup : conflicts.Nodup
  free : ∀ r ∈ conflicts, (s.heap r).free = true
  length : answers.length = conflicts.length
  quiet : ∀ seen ∈ answers, seen.quiet = true

/-- The latest end of the windows of these models. -/
def LatestEnd (cfg : Config) (t : State) (conflicts : List Ref) (untilTime : Seconds) : Prop :=
  (∃ r ∈ conflicts, windowEnd cfg t r = untilTime) ∧
    ∀ r ∈ conflicts, windowEnd cfg t r ≤ untilTime

/-- What a call that starts at this time returns: `None` when every window is
    over by then, and otherwise the latest end. -/
structure Exact (cfg : Config) (t : State) (conflicts : List Ref) (start : ℚ)
    (returned : Option Blocked) : Prop where
  elapsed : returned = none ↔ ∀ r ∈ conflicts, windowEnd cfg t r ≤ start
  latest : ∀ placed, returned = some placed → ∃ untilTime, placed.untilTime = some untilTime ∧
    start < untilTime ∧ LatestEnd cfg t conflicts untilTime

theorem busy_returns {conflicts : List Ref} {answers : List Observation}
    (h : Calls s p job conflicts answers) :
    ∃ t returned, busy cfg s p answers = some (t, returned) ∧ s.now ≤ t.now ∧
      (∀ r, r ∉ conflicts → t.heap r = s.heap r) ∧
      (∀ (i : ℕ) (r : Ref) (seen : Observation), conflicts[i]? = some r → answers[i]? = some seen →
        t.heap r = (s.heap r).observed (answeredAt s.now answers i) seen.activity) ∧
      Exact cfg t conflicts s.now returned := by
  obtain ⟨t, look, hrun, hq, hrest, hnow, hsame, hseen, hlatest⟩ :=
    @run_observations cfg p job conflicts answers s _ h.judging rfl h.nodup h.free h.length h.quiet
  refine ⟨t, look.result, ?_, hnow, hsame, hseen, ?_⟩
  · simp [busy, hrun, hq, hrest]
  · unfold Look.result
    rcases hlatest.found with ⟨huntil, hreason⟩ | ⟨hlt, hreason, hfound⟩
    · have hnone : look.reason = "" := hreason
      rw [if_neg (not_not.2 hnone)]
      refine ⟨iff_of_true rfl fun r hr => ?_, fun placed heq => by cases heq⟩
      rw [← show look.untilTime = s.now from huntil]
      exact hlatest.above r hr
    · rw [if_pos hreason]
      constructor
      · refine iff_of_false (by simp) fun hover => ?_
        obtain ⟨r, hr, hend⟩ := hfound
        exact absurd (hend ▸ hover r hr) (not_le.2 hlt)
      · rintro placed heq
        cases heq
        exact ⟨look.untilTime, rfl, hlt, hfound, hlatest.above⟩

/-- The number of seconds that a refused request is told to wait does not end
    before the time it was blocked until. -/
theorem blocked_retry {u v : State} {q : ℕ} {placed : Blocked} {untilTime : Seconds}
    {reason : String} {retry : ℤ} (hq : u.requests[q]? = some (.blocked job placed))
    (hstep : step cfg u (.resume q) = some v)
    (hv : v.requests[q]? = some (.finished (.resourceBusy reason retry)))
    (huntil : placed.untilTime = some untilTime) (hne : untilTime ≠ 0) :
    untilTime ≤ (u.now + retry : ℚ) := by
  have hknown : placed.untilTime.filter (· ≠ 0) = some untilTime := by simp [huntil, hne]
  simp only [step, hq, Option.bind_some, resume, Option.some.injEq] at hstep
  rw [← hstep] at hv
  unfold afterBlocked at hv
  have hself : ∀ q' : Request, (u.requests.set q q')[q]? = some q' := fun _ => Table.get_set_self hq
  dsimp only at hv
  split_ifs at hv with hgone hlate hever
  · have heq := Option.some.inj ((hself _).symm.trans hv)
    cases heq
  · have heq := Option.some.inj ((hself _).symm.trans hv)
    cases heq
  · rw [hknown] at hv hever
    obtain ⟨time, rfl⟩ := WithTop.ne_top_iff_exists.1 fun heq => hever (congrArg some heq)
    have heq := Option.some.inj ((hself _).symm.trans hv)
    simp only [Option.map_some, Option.getD_some, WithTop.untopD_coe, Request.finished.injEq,
      Outcome.resourceBusy.injEq] at heq
    have hceil : time - u.now ≤ (⌈time - u.now⌉ : ℚ) := Int.le_ceil _
    have hmax : ((⌈time - u.now⌉ : ℤ) : ℚ) ≤ (retry : ℚ) := by
      rw [← heq.2]
      exact_mod_cast le_max_right _ _
    refine WithTop.coe_le_coe.2 ?_
    linarith
  · have heq := Option.some.inj ((hself _).symm.trans hv)
    cases heq

/-- What an observation leaves in a record: the count that the server reports, and as the
    time of the last activity that of the answer, if the count is not the one known. -/
structure Records (before after : LoadedModel) (time : ℚ) (activity : ModelActivity) : Prop where
  counts : after.decodeCalls = some activity.decodeCalls
  worked : before.decodeCalls ≠ some activity.decodeCalls → after.lastActivity = time
  rested : before.decodeCalls = some activity.decodeCalls →
    after.lastActivity = before.lastActivity
  others : after = { before with
    lastActivity := after.lastActivity, decodeCalls := after.decodeCalls }

theorem records_observed (model : LoadedModel) (time : ℚ) (activity : ModelActivity) :
    Records model (model.observed time activity) time activity :=
  ⟨rfl, fun hne => if_pos hne, fun heq => if_neg (not_not.2 heq), rfl⟩

/-- A second call, when no record has changed since the first one and the servers report
    the counts that they reported to it. -/
structure CallsAgain (t s₂ : State) (p₂ : ℕ) (job₂ : Job) (conflicts : List Ref)
    (answers answers₂ : List Observation) : Prop extends Calls s₂ p₂ job₂ conflicts answers₂ where
  later : t.now ≤ s₂.now
  unchanged : ∀ r ∈ conflicts, s₂.heap r = t.heap r
  counts : answers₂.map (·.activity.decodeCalls) = answers.map (·.activity.decodeCalls)

/-- What is observed again has the same window. -/
theorem CallsAgain.windowEnd {t t₂ s₂ : State} {p₂ : ℕ} {job₂ : Job} {conflicts : List Ref}
    {answers answers₂ : List Observation}
    (h : CallsAgain t s₂ p₂ job₂ conflicts answers answers₂)
    (hseen : ∀ (i : ℕ) (r : Ref) (seen : Observation), conflicts[i]? = some r →
      answers[i]? = some seen → (t.heap r).decodeCalls = some seen.activity.decodeCalls)
    (hseen₂ : ∀ (i : ℕ) (r : Ref) (seen : Observation), conflicts[i]? = some r →
      answers₂[i]? = some seen →
        t₂.heap r = (s₂.heap r).observed (answeredAt s₂.now answers₂ i) seen.activity) :
    ∀ r ∈ conflicts, windowEnd cfg t₂ r = windowEnd cfg t r := by
  intro r hr
  obtain ⟨i, hi⟩ := List.mem_iff_getElem?.1 hr
  have hlt : i < answers₂.length := h.length ▸ Table.lt_length hi
  have hi₂ := List.getElem?_eq_getElem hlt
  -- the counts of the first call stand in the records
  have hsame : answers[i]?.map (·.activity.decodeCalls) =
      some answers₂[i].activity.decodeCalls := by
    rw [← List.getElem?_map, ← h.counts, List.getElem?_map, hi₂]
    rfl
  obtain ⟨seen, hi₁, hcount⟩ := Option.map_eq_some_iff.1 hsame
  have hknown := hseen i r seen hi hi₁
  rw [hcount] at hknown
  rw [ModelBroker.windowEnd, ModelBroker.windowEnd, hseen₂ i r _ hi hi₂, h.unchanged r hr]
  simp [LoadedModel.observed, hknown]

/-- The reported end of the protection window is exact. A call of `busy` on models
    that are free and observed idle records what it observes, and returns `None`
    exactly when every window, after the observations, is over at its start, and
    otherwise the latest end; a second call with nothing changed returns `None` from
    that time on and the same end before; and a request that was refused with that end
    and comes back after the seconds it was told is not blocked by it. -/
theorem busy_until_exact {conflicts : List Ref} {answers : List Observation}
    (hnow : 0 ≤ s.now) (h : Calls s p job conflicts answers) :
    ∃ t returned, busy cfg s p answers = some (t, returned) ∧
      (∀ r, r ∉ conflicts → t.heap r = s.heap r) ∧
      (∀ (i : ℕ) (r : Ref) (seen : Observation), conflicts[i]? = some r → answers[i]? = some seen →
        Records (s.heap r) (t.heap r) (answeredAt s.now answers i) seen.activity) ∧
      (returned = none ↔ ∀ r ∈ conflicts, windowEnd cfg t r ≤ s.now) ∧
      (∀ placed, returned = some placed → ∃ untilTime, placed.untilTime = some untilTime ∧
        LatestEnd cfg t conflicts untilTime) ∧
      ∀ s₂ p₂ job₂ answers₂, CallsAgain t s₂ p₂ job₂ conflicts answers answers₂ →
        ∃ t₂ returned₂, busy cfg s₂ p₂ answers₂ = some (t₂, returned₂) ∧
          (returned = none → returned₂ = none) ∧
          ∀ placed untilTime, returned = some placed → placed.untilTime = some untilTime →
            (untilTime ≤ s₂.now → returned₂ = none) ∧
            (s₂.now < untilTime →
              ∃ placed₂, returned₂ = some placed₂ ∧ placed₂.untilTime = some untilTime) ∧
            ∀ u v q job' reason retry, u.requests[q]? = some (.blocked job' placed) →
              step cfg u (.resume q) = some v →
              v.requests[q]? = some (.finished (.resourceBusy reason retry)) →
              u.now + retry ≤ s₂.now → returned₂ = none := by
  obtain ⟨t, returned, hbusy, hlater, hothers, hseen, hexact⟩ :=
    @busy_returns cfg s p job conflicts answers h
  have hrecords : ∀ (i : ℕ) (r : Ref) (seen : Observation), conflicts[i]? = some r →
      answers[i]? = some seen →
        Records (s.heap r) (t.heap r) (answeredAt s.now answers i) seen.activity := by
    intro i r seen hr hi
    rw [hseen i r seen hr hi]
    exact records_observed ..
  refine ⟨t, returned, hbusy, hothers, hrecords, hexact.elapsed, ?_, ?_⟩
  · intro placed heq
    obtain ⟨untilTime, huntil, -, hlatest⟩ := hexact.latest placed heq
    exact ⟨untilTime, huntil, hlatest⟩
  · intro s₂ p₂ job₂ answers₂ hagain
    obtain ⟨t₂, returned₂, hbusy₂, -, -, hseen₂, hexact₂⟩ :=
      @busy_returns cfg s₂ p₂ job₂ conflicts answers₂ hagain.toCalls
    have hsame := @CallsAgain.windowEnd cfg t t₂ s₂ p₂ job₂ conflicts answers answers₂ hagain
      (fun i r seen hr hi => (hrecords i r seen hr hi).counts) hseen₂
    have hover : returned₂ = none ↔ ∀ r ∈ conflicts, windowEnd cfg t r ≤ s₂.now := by
      rw [hexact₂.elapsed]
      exact forall₂_congr fun r hr => by rw [hsame r hr]
    have hlate : (s.now : Seconds) ≤ s₂.now := WithTop.coe_le_coe.2 (hlater.trans hagain.later)
    refine ⟨t₂, returned₂, hbusy₂, fun hnone => hover.2 fun r hr => ?_, ?_⟩
    · exact (hexact.elapsed.1 hnone r hr).trans hlate
    · intro placed untilTime heq huntil
      obtain ⟨untilTime', huntil', hlt, ⟨r, hr, hend⟩, hlatest⟩ := hexact.latest placed heq
      obtain rfl := Option.some.inj (huntil'.symm.trans huntil)
      have free : untilTime' ≤ s₂.now → returned₂ = none := fun hle =>
        hover.2 fun r hr => (hlatest r hr).trans hle
      refine ⟨free, fun hbefore => ?_, ?_⟩
      · cases hret : returned₂ with
        | none => exact absurd (hend ▸ hover.1 hret r hr) (not_le.2 hbefore)
        | some placed₂ =>
          obtain ⟨untilTime₂, huntil₂, -, ⟨r₂, hr₂, hend₂⟩, hlatest₂⟩ := hexact₂.latest placed₂ hret
          have hle₁ : untilTime₂ ≤ untilTime' := by
            rw [← hend₂, hsame r₂ hr₂]
            exact hlatest r₂ hr₂
          have hle₂ : untilTime' ≤ untilTime₂ := by
            rw [← hend, ← hsame r hr]
            exact hlatest₂ r hr
          exact ⟨placed₂, rfl, by rw [huntil₂, le_antisymm hle₁ hle₂]⟩
      · intro u v q job' reason retry hq hstep hv hback
        have hne : untilTime' ≠ 0 := by
          rintro rfl
          exact absurd (WithTop.coe_le_coe.2 hnow) (not_le.2 hlt)
        exact free ((blocked_retry hq hstep hv huntil hne).trans (WithTop.coe_le_coe.2 hback))

/-- The request has its conflicts listed: two free models. -/
def lists (s : State) : Bool :=
  (match (s.requests[1]? : Option Request) with
    | some (.judging _ look) => look.seen.isEmpty && look.rest = [0, 1] &&
        look.untilTime = s.now && look.reason = ""
    | _ => false) && (s.heap 0).free && (s.heap 1).free && 0 ≤ s.now

theorem calls_of_lists {s : State} (h : lists s = true) :
    0 ≤ s.now ∧ ∃ job, Calls s 1 job [0, 1] [⟨1, idle⟩, ⟨0, idle⟩] := by
  simp only [lists, Bool.and_eq_true, decide_eq_true_eq] at h
  obtain ⟨⟨⟨hq, hfirst⟩, hsecond⟩, hnow⟩ := h
  split at hq
  · next job look heq =>
    obtain ⟨seen, rest, untilTime, reason⟩ := look
    simp only [Bool.and_eq_true, decide_eq_true_eq, List.isEmpty_iff] at hq
    obtain ⟨⟨⟨rfl, rfl⟩, rfl⟩, rfl⟩ := hq
    exact ⟨hnow, job, heq, by decide, by simp [hfirst, hsecond], rfl, by decide⟩
  · cases hq

/-- A second call of `busy` by this request. -/
def lookAgain : List Act := [.resume 1, .resume 1, .tick 6, .resume 1, .resume 1, .resume 1]

/-- Three seconds after the start, `busy` observes two models in one second. The request
    is blocked, and looks again six seconds later. -/
theorem busy_until_exact_pairedCards :
    ∃ s t s₂ t₂ job placed, (scheduler pairedCards).Free s ∧
      Calls s 1 job [0, 1] [⟨1, idle⟩, ⟨0, idle⟩] ∧
      busy pairedCards s 1 [⟨1, idle⟩, ⟨0, idle⟩] = some (t, some placed) ∧
      placed.untilTime = some 10 ∧
      Records (s.heap 0) (t.heap 0) (answeredAt s.now [⟨1, idle⟩, ⟨0, idle⟩] 0) idle ∧
      (scheduler pairedCards).run (fun _ _ => true) t lookAgain = some s₂ ∧ s₂.now = 10 ∧
      busy pairedCards s₂ 1 [⟨1, idle⟩, ⟨0, idle⟩] = some (t₂, none) := by
  obtain ⟨s, hs, hP⟩ := reach_run pairedCards (fun _ _ => true) 0 bothLoaded
    [.activity 0 (.ok idle), .activity 0 (.ok idle), .tick 3, .arrive "c--cuda01", .resume 1,
      .resume 1, .resume 1]
    (fun s => lists s && (busy pairedCards s 1 [⟨1, idle⟩, ⟨0, idle⟩]).any fun x =>
      (x.2.bind Blocked.untilTime) = some 10 &&
      ((scheduler pairedCards).run (fun _ _ => true) x.1 lookAgain).any fun s₂ =>
        lists s₂ && s₂.now = 10 && x.1.now ≤ s₂.now && s₂.heap 0 = x.1.heap 0 &&
          s₂.heap 1 = x.1.heap 1) (by decide +kernel)
  simp only [Bool.and_eq_true, Option.any_eq_true, decide_eq_true_eq] at hP
  obtain ⟨hlists, ⟨t, returned⟩, hbusy, huntil, s₂, hrun, ⟨⟨⟨hlists₂, hnow₂⟩, hlater⟩, hfirst⟩,
    hsecond⟩ := hP
  obtain ⟨placed, rfl, huntil⟩ := Option.bind_eq_some_iff.1 huntil
  obtain ⟨hnow, job, hcalls⟩ := calls_of_lists hlists
  obtain ⟨-, job₂, hcalls₂⟩ := calls_of_lists hlists₂
  obtain ⟨t', returned', hbusy', -, hrecords, -, -, hagain⟩ := busy_until_exact hnow hcalls
  obtain ⟨rfl, rfl⟩ := Prod.mk.inj (Option.some.inj (hbusy.symm.trans hbusy'))
  have hunchanged : ∀ r ∈ [0, 1], s₂.heap r = t.heap r := by simp [hfirst, hsecond]
  obtain ⟨t₂, returned₂, hbusy₂, -, hreturns⟩ :=
    hagain s₂ 1 job₂ _ ⟨hcalls₂, hlater, hunchanged, rfl⟩
  have hnone := (hreturns placed 10 rfl huntil).1 (by rw [hnow₂]; exact le_refl _)
  rw [hnone] at hbusy₂
  exact ⟨s, t, s₂, t₂, job, placed, hs.free, hcalls, hbusy, huntil, hrecords 0 0 _ rfl rfl, hrun,
    hnow₂, hbusy₂⟩

end ModelBroker
