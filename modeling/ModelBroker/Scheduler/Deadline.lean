import ModelBroker.Scheduler.Actors
import ModelBroker.Scheduler.Fitness
import ModelBroker.Scheduler.Windows

/-!
# The end of the maximum wait

A request whose deadline has passed may still be in the loop of `acquire`
(`scheduler.py`, lines 355–377). The test of the deadline is on line 369; the
`continue` of line 365 comes before it, and is taken whenever the obstacle that
`place` reports has ended by the time the clock is read.

The counter `attempting` counts the calls of `place` that each request begins at
or after its deadline.

* `late_attempt_last`: in every run in which no expired request takes that
  `continue` without a record to join, and none is blocked by a protection window
  without end, it begins at most one such call, and ends placed in a record,
  refused or cancelled.
* `late_attempts_unbounded`: a conflicting model that is used from outside makes
  an expired request take it again and again.
-/

namespace ModelBroker

variable {cfg : Config} {s t : State} {a : Act} {p : ℕ}

/-! ## Runs without invented suspensions -/

namespace Request

/-- The request is where the source does not suspend. -/
def running : Request → Bool
  | checked _ | looping _ | judging _ _ | blocked _ _ => true
  | _ => false

end Request

/-- A coroutine that does not suspend goes on before anything else happens. Time
    may pass meanwhile. -/
def prompt (s : State) : Act → Bool
  | .tick _ => true
  | .resume p => s.requests.zipIdx.all fun e => !e.1.running || decide (e.2 = p)
  | _ => s.requests.all fun q => !q.running

theorem prompt_iff : prompt s a = true ↔ ∀ (p : ℕ) (q : Request), s.requests[p]? = some q →
    q.running = true → a = .resume p ∨ ∃ seconds, a = .tick seconds := by
  have still : (s.requests.all fun q => !q.running) = true ↔
      ∀ (p : ℕ) (q : Request), s.requests[p]? = some q → q.running = true → False := by
    simp only [List.all_eq_true, Bool.not_eq_true', List.mem_iff_getElem?]
    constructor
    · intro h p q hq hrun
      rw [h q ⟨p, hq⟩] at hrun
      cases hrun
    · rintro h q ⟨p, hq⟩
      exact Bool.eq_false_iff.2 (h p q hq)
  cases a with
  | tick seconds => simp [prompt]
  | resume p' =>
    simp only [prompt, List.all_eq_true, Prod.forall, List.mem_zipIdx_iff_getElem?,
      Bool.or_eq_true, Bool.not_eq_true', decide_eq_true_eq, Act.resume.injEq, reduceCtorEq,
      exists_false, or_false]
    constructor
    · intro h p q hq hrun
      exact ((h q p hq).resolve_left (by simp [hrun])).symm
    · intro h q p hq
      rcases hrun : q.running with _ | _
      · exact .inl rfl
      · exact .inr (h p q hq hrun).symm
  | arrive | props | states | activity | cancel | run | call | taskStates | taskActivity =>
    simpa [prompt] using still

/-! ## Attempts -/

/-- The record that `acquire` joins at the head of its loop (lines 356–357). -/
def State.joinable (s : State) (id : String) : Option Ref :=
  (s.recorded id).filter fun r => !(s.heap r).leaving

/-- The request that calls `place` at or after its deadline. -/
def State.attempts (s : State) : Act → Option ℕ
  | .resume p =>
    match s.requests[p]? with
    | some (.looping job) =>
      if job.deadline ≤ s.now ∧ s.joinable job.variant.id = none then some p else none
    | _ => none
  | _ => none

/-- The count of these calls for each request. -/
def attempting : Env State Act (ℕ → ℕ) Empty :=
  .history fun s a _ count p => if s.attempts a = some p then count p + 1 else count p

/-- The scheduler with the count. -/
def timed (cfg : Config) : System (State × (ℕ → ℕ)) (Act ⊕ Empty) :=
  (scheduler cfg).under attempting fun _ count => count = fun _ => 0

/-- An expired request takes the `continue` of line 365, and there is no record
    for it to join: the obstacle it was told of has ended by itself. -/
def State.retriesLate (s : State) : Act → Bool
  | .resume p =>
    match s.requests[p]? with
    | some (.blocked job placed) =>
      decide (job.deadline ≤ s.now) && placed.untilTime.any (· ≤ (s.now : Seconds)) &&
        (s.joinable job.variant.id).isNone
    | _ => false
  | _ => false

/-- An expired request is blocked until `inf`, which needs `protect_seconds` to
    be `inf`: `math.ceil` raises for the `Retry-After` of line 371. -/
def State.unending (s : State) : Act → Bool
  | .resume p =>
    match s.requests[p]? with
    | some (.blocked job placed) =>
      decide (job.deadline ≤ s.now) && decide (placed.untilTime = some ⊤)
    | _ => false
  | _ => false

/-- The run is one of the source, without such a retry and such an obstacle. -/
def patient (x : State × (ℕ → ℕ)) : Act ⊕ Empty → Bool
  | .inl a => prompt x.1 a && !x.1.retriesLate a && !x.1.unending a
  | .inr _ => true

/-! ## An expired request -/

namespace Request

/-- The request is placed in a record, or has ended after it was, was refused
    with `ResourceBusy` or was cancelled. -/
def resolved : Request → Bool
  | joining _ | admitted _ => true
  | finished .released | finished (.resourceBusy _ _) | finished (.loadFailed _)
  | finished .cancelled => true
  | _ => false

/-- What is left of a call of `place`: the lock, two steps for each conflicting
    model, and the way back to the head of the loop. -/
def left : Request → ℕ × ℕ
  | placeLock _ => (1, 0)
  | observing _ look _ => (0, 2 * look.rest.length + 4)
  | judging _ look => (0, 2 * look.rest.length + 3)
  | blocked _ _ => (0, 2)
  | looping _ => (0, 1)
  | _ => (0, 0)

end Request

/-- Where a request is once it has begun a call of `place` after its deadline. -/
inductive Settling (s : State) : Request → Prop
  | placing {job : Job} (hlate : job.deadline ≤ s.now) : Settling s (.placeLock job)
  | judging {job : Job} {look : Look} (hlate : job.deadline ≤ s.now) :
      Settling s (.judging job look)
  | observing {job : Job} {look : Look} {r : Ref} (hlate : job.deadline ≤ s.now) :
      Settling s (.observing job look r)
  | blocked {job : Job} {placed : Blocked} (hlate : job.deadline ≤ s.now) :
      Settling s (.blocked job placed)
  | joins {job : Job} {r : Ref} (hr : s.joinable job.variant.id = some r) :
      Settling s (.looping job)
  | resolved {q : Request} (h : q.resolved = true) : Settling s q

/-- One step less. -/
def Closer (q q' : Request) : Prop :=
  q'.resolved = true ∨ Prod.Lex (· < ·) (· < ·) q'.left q.left

/-- A `Blocked` is near the end of a call. -/
theorem closer_blocked {job : Job} {placed : Blocked} {q : Request}
    (hleft : 2 < q.left.2 ∨ 0 < q.left.1) : Closer q (.blocked job placed) := by
  refine .inr ((Prod.lex_def).2 ?_)
  rcases Nat.eq_zero_or_pos q.left.1 with hzero | hpos
  · exact .inr ⟨hzero.symm, hleft.resolve_right (by rw [hzero]; exact Nat.lt_irrefl 0)⟩
  · exact .inl hpos

/-- The request is at `q'` now, closer to its end than at `q`. -/
def Settles (s : State) (p : ℕ) (q : Request) (t : State) : Prop :=
  ∃ q', t.requests = s.requests.set p q' ∧ Settling t q' ∧ Closer q q'

theorem settles_place {job : Job} (hlate : job.deadline ≤ s.now) :
    Settles s p (.placeLock job) (place s p job) := by
  unfold place
  split
  · split_ifs
    · exact ⟨_, rfl, .blocked hlate, closer_blocked (.inr Nat.one_pos)⟩
    · exact ⟨_, rfl, .blocked hlate, closer_blocked (.inr Nat.one_pos)⟩
  · exact ⟨_, rfl, .judging hlate, .inr (.left _ _ Nat.one_pos)⟩

theorem settles_judge {job : Job} {look : Look} (hlate : job.deadline ≤ s.now) :
    Settles s p (.judging job look) (judge s p job look) := by
  have hleft : 2 < (Request.judging job look).left.2 := Nat.lt_add_left _ (by decide)
  unfold judge
  split
  · split_ifs
    · exact ⟨_, rfl, .blocked hlate, closer_blocked (.inl hleft)⟩
    · exact ⟨_, rfl, .blocked hlate, closer_blocked (.inl hleft)⟩
    · rw [commit_eq]
      exact ⟨_, rfl, .resolved rfl, .inl rfl⟩
  · next r rest hrest =>
    dsimp only
    split_ifs
    · exact ⟨_, rfl, .blocked hlate, closer_blocked (.inl hleft)⟩
    · exact ⟨_, rfl, .blocked hlate, closer_blocked (.inl hleft)⟩
    · refine ⟨_, rfl, .observing hlate, .inr (.right _ ?_)⟩
      simp [hrest]
      omega

theorem settles_afterBlocked {job : Job} {placed : Blocked} (hlate : job.deadline ≤ s.now)
    (hq : s.requests[p]? = some (.blocked job placed))
    (hok : s.retriesLate (.resume p) = false) (hends : s.unending (.resume p) = false) :
    Settles s p (.blocked job placed) (afterBlocked cfg s p job placed) := by
  simp only [State.retriesLate, hq, hlate, decide_true, Bool.true_and, Bool.and_eq_false_iff,
    Option.isNone_eq_false_iff, Option.isSome_iff_exists] at hok
  simp only [State.unending, hq, hlate, decide_true, Bool.true_and, decide_eq_false_iff_not]
    at hends
  unfold afterBlocked
  dsimp only
  split_ifs with hover hinf
  · obtain ⟨r, hr⟩ := hok.resolve_left (by simp [hover])
    exact ⟨_, rfl, .joins hr, .inr (.right _ (by decide))⟩
  · exact absurd (Option.eq_some_of_filter_eq_some hinf) hends
  · exact ⟨_, rfl, .resolved rfl, .inl rfl⟩

theorem settles_loopHead {job : Job} {r : Ref} (hr : s.joinable job.variant.id = some r) :
    Settles s p (.looping job) (loopHead s p job) := by
  unfold State.joinable at hr
  unfold loopHead
  rw [hr]
  dsimp only
  unfold join
  split_ifs
  · split
    · exact ⟨_, rfl, .resolved rfl, .inl rfl⟩
    · exact ⟨_, rfl, .resolved rfl, .inl rfl⟩
  · exact ⟨_, rfl, .resolved rfl, .inl rfl⟩

/-- The request goes on. -/
theorem Settling.resume {q : Request} (h : Settling s q) (hq : s.requests[p]? = some q)
    (hok : s.retriesLate (.resume p) = false) (hends : s.unending (.resume p) = false)
    (ht : resume cfg s p q = some t) : Settles s p q t := by
  cases h with
  | placing hlate =>
    simp only [ModelBroker.resume] at ht
    split_ifs at ht
    cases ht
    exact settles_place hlate
  | judging hlate => cases ht; exact settles_judge hlate
  | blocked hlate => cases ht; exact settles_afterBlocked hlate hq hok hends
  | joins hr => cases ht; exact settles_loopHead hr
  | observing => cases ht
  | resolved h =>
    cases q with
    | joining r =>
      simp only [ModelBroker.resume] at ht
      split_ifs at ht
      cases ht
      unfold joined
      dsimp only
      split <;> exact ⟨_, rfl, .resolved rfl, .inl rfl⟩
    | admitted r => cases ht; exact ⟨_, rfl, .resolved rfl, .inl rfl⟩
    | finished => cases ht
    | arrived | checkLock | surveying | tracking | checked | looping | placeLock | judging
    | observing | blocked | waiting => cases h

/-- The server answers the request. -/
theorem settles_observe {job : Job} {look : Look} {r : Ref} (hlate : job.deadline ≤ s.now)
    (answer : Except String ModelActivity) :
    Settles s p (.observing job look r) (observe cfg s p job look r answer) := by
  have hblocked : ∀ placed, Closer (.observing job look r) (.blocked job placed) :=
    fun _ => .inr (.right _ (Nat.lt_add_left _ (by decide)))
  cases answer with
  | error error => exact ⟨_, rfl, .blocked hlate, hblocked _⟩
  | ok activity =>
    cases hwork : activity.working with
    | true =>
      simp only [observe, hwork, if_true]
      exact ⟨_, rfl, .blocked hlate, hblocked _⟩
    | false =>
      rw [observe_idle cfg s p job look r hwork]
      refine ⟨_, rfl, .judging hlate, .inr (.right _ ?_)⟩
      rw [judged_rest]
      omega

/-- A step of an expired request brings it closer to its end. -/
theorem Settling.own {q : Request} (h : Settling s q) (hq : s.requests[p]? = some q)
    (ha : a.request? = some p) (hok : s.retriesLate a = false) (hends : s.unending a = false)
    (hstep : step cfg s a = some t) :
    ∃ q', t.requests[p]? = some q' ∧ Settling t q' ∧ Closer q q' := by
  have set : Settles s p q t → ∃ q', t.requests[p]? = some q' ∧ Settling t q' ∧ Closer q q' := by
    rintro ⟨q', ht, hq'⟩
    exact ⟨q', by rw [ht]; exact Table.get_set_self hq, hq'⟩
  cases a with
  | resume p' =>
    obtain rfl : p' = p := Option.some.inj ha
    rw [step, hq, Option.bind_some] at hstep
    exact set (h.resume hq hok hends hstep)
  | cancel p' =>
    obtain rfl : p' = p := Option.some.inj ha
    rw [step, hq, Option.bind_some] at hstep
    exact set ⟨_, cancel_requests hstep, .resolved rfl, .inl rfl⟩
  | activity p' answer =>
    obtain rfl : p' = p := Option.some.inj ha
    simp only [step, hq] at hstep
    cases h with
    | observing hlate => cases hstep; exact set (settles_observe hlate answer)
    | placing | judging | blocked | joins => cases hstep
    | resolved h => cases q <;> first | (cases hstep; done) | cases h
  | props p' answer | states p' answer =>
    obtain rfl : p' = p := Option.some.inj ha
    simp only [step, hq] at hstep
    cases h with
    | observing | placing | judging | blocked | joins => cases hstep
    | resolved h => cases q <;> first | cases hstep | cases h
  | tick | arrive | run | call | taskStates | taskActivity => cases ha

/-- The request stays where it is in a step that is not its own. -/
theorem Settling.other {q : Request} (h : Settling s q) (hq : s.requests[p]? = some q)
    (ha : a.request? ≠ some p) (hok : prompt s a = true) (hstep : step cfg s a = some t) :
    t.requests[p]? = some q ∧ Settling t q := by
  have hnow := step_now_seconds (step_cases hstep)
  refine ⟨step_others hstep ha hq, ?_⟩
  cases h with
  | placing hlate => exact .placing (hlate.trans hnow)
  | judging hlate => exact .judging (hlate.trans hnow)
  | observing hlate => exact .observing (hlate.trans hnow)
  | blocked hlate => exact .blocked (hlate.trans hnow)
  | resolved h => exact .resolved h
  | joins hr =>
    rcases prompt_iff.1 hok _ _ hq rfl with rfl | ⟨seconds, rfl⟩
    · exact absurd rfl ha
    · simp only [step] at hstep
      split_ifs at hstep
      cases hstep
      exact .joins hr

/-- The call that an expired request begins at the head of its loop. -/
theorem Settling.begin {job : Job} (hqueue : Queue s) (hq : s.requests[p]? = some (.looping job))
    (hlate : job.deadline ≤ s.now) (hnone : s.joinable job.variant.id = none)
    (hstep : step cfg s (.resume p) = some t) :
    ∃ q', t.requests[p]? = some q' ∧ Settling t q' := by
  rw [step, hq, Option.bind_some] at hstep
  cases hstep
  unfold State.joinable at hnone
  unfold loopHead
  rw [hnone]
  dsimp only
  split
  · next hout =>
    have hmem := hqueue.queued p _ job hq rfl
    have hother := List.findIdx?_eq_none_iff.1 hout _ hmem
    simp at hother
  · split_ifs
    · exact ⟨_, Table.get_set_self hq, .blocked hlate⟩
    · exact ⟨_, Table.get_set_self hq, .placing hlate⟩

theorem attempts_eq_some (h : s.attempts a = some p) :
    a = .resume p ∧ ∃ job, s.requests[p]? = some (.looping job) ∧ job.deadline ≤ s.now ∧
      s.joinable job.variant.id = none := by
  unfold State.attempts at h
  split at h
  · split at h
    · next job hq =>
      split_ifs at h with hlate
      cases h
      exact ⟨rfl, job, hq, hlate⟩
    · cases h
  · cases h

/-- What the count says of a request. -/
def Attempted (s : State) (count : ℕ → ℕ) : Prop :=
  ∀ p, count p = 0 ∨ count p = 1 ∧ ∃ q, s.requests[p]? = some q ∧ Settling s q

theorem attempted_step {count : ℕ → ℕ} (hqueue : Queue s) (h : Attempted s count)
    (hprompt : prompt s a = true) (hok : s.retriesLate a = false) (hends : s.unending a = false)
    (hstep : step cfg s a = some t) : Attempted t (attempting.react s a t count) := by
  intro p
  have hreact : attempting.react s a t count p =
      if s.attempts a = some p then count p + 1 else count p := rfl
  rw [hreact]
  by_cases ha : s.attempts a = some p
  · obtain ⟨rfl, job, hq, hlate, hnone⟩ := attempts_eq_some ha
    have hzero : count p = 0 := by
      refine (h p).resolve_right ?_
      rintro ⟨-, q, hq', hset⟩
      obtain rfl := Option.some.inj (hq.symm.trans hq')
      cases hset with
      | joins hr => rw [hnone] at hr; cases hr
      | resolved h => cases h
    rw [if_pos ha, hzero]
    exact .inr ⟨rfl, Settling.begin hqueue hq hlate hnone hstep⟩
  · rw [if_neg ha]
    refine (h p).imp_right fun ⟨hone, q, hq, hset⟩ => ⟨hone, ?_⟩
    by_cases hown : a.request? = some p
    · obtain ⟨q', hq', hset', -⟩ := hset.own hq hown hok hends hstep
      exact ⟨q', hq', hset'⟩
    · exact ⟨q, hset.other hq hown hprompt hstep⟩

/-- The maximum wait ends the wait: an expired request begins at most one more
    call of `place`. From then on it is in that call, on the way from it to a
    record that it joins, placed, refused or cancelled; each step of its own
    brings it closer to its end, and no other step moves it. -/
theorem late_attempt_last {x : State × (ℕ → ℕ)}
    (h : (timed cfg).Reach (fun x c => patient x c = true) x) (p : ℕ) :
    x.2 p ≤ 1 ∧ (x.2 p = 1 → ∃ q, x.1.requests[p]? = some q ∧ Settling x.1 q ∧
      ∀ (a : Act) (t : State), patient x (.inl a) = true → step cfg x.1 a = some t →
        (a.request? = some p → ∃ q', t.requests[p]? = some q' ∧ Settling t q' ∧ Closer q q') ∧
        (a.request? ≠ some p → t.requests[p]? = some q)) := by
  have split : ∀ {x : State × (ℕ → ℕ)} {a : Act}, patient x (.inl a) = true →
      prompt x.1 a = true ∧ x.1.retriesLate a = false ∧ x.1.unending a = false := by
    intro x a hok
    simpa [patient, and_assoc] using hok
  have hcount : Attempted x.1 x.2 := by
    refine h.environment (I := Attempted) ?_ ?_ ?_
    · rintro s count - rfl p
      exact .inl rfl
    · intro s count a t hs hI hok hstep
      obtain ⟨hprompt, hlate, hends⟩ := split hok
      have hfree : (scheduler cfg).Free s := hs.program fun _ _ _ => trivial
      exact attempted_step (ordered hfree).toQueue hI hprompt hlate hends hstep
    · intro s count b
      exact b.elim
  refine ⟨?_, fun hone => ?_⟩
  · rcases hcount p with hzero | ⟨hone, -⟩ <;> omega
  · obtain ⟨-, q, hq, hset⟩ := (hcount p).resolve_left (by omega)
    refine ⟨q, hq, hset, fun a t hok hstep => ?_⟩
    obtain ⟨hprompt, hlate, hends⟩ := split hok
    exact ⟨fun hown => hset.own hq hown hlate hends hstep,
      fun hother => (hset.other hq hother hprompt hstep).1⟩

/-- The router reports that the first model of the card is loaded. -/
def firstLoaded : String → ServerAnswer := fun _ =>
  .ok (⟨0, false, none⟩, ⟨[("a--cuda0", { value := "loaded" })], by decide⟩)

/-- The router does not answer, and an expired request is refused after its next
    call of `place`. -/
theorem late_attempt_last_sharedCard :
    ∃ x, (timed sharedCard).Reach (fun x c => patient x c = true) x ∧ x.2 1 = 1 ∧
      ∃ q, x.1.requests[1]? = some q ∧ q.resolved = true ∧ Settling x.1 q := by
  have h0 : (timed sharedCard).init (initial 0 (survey sharedCard 0 firstLoaded), fun _ => 0) :=
    ⟨⟨0, 0, firstLoaded, le_refl 0, rfl⟩, rfl⟩
  obtain ⟨x, hx, hP⟩ := @System.exists_reach _ _ _ patient _ h0
    ([.activity 0 (.ok ⟨false, 0, 0⟩), .arrive "b--cuda0", .resume 1, .resume 1, .resume 1,
      .resume 1, .activity 1 (.error "timed out"), .resume 1, .tick 30, .resume 1, .resume 1,
      .resume 1, .resume 1, .activity 1 (.error "timed out"), .resume 1].map .inl)
    (fun x => x.2 1 = 1 && x.1.requests[1]?.any Request.resolved) (by decide +kernel)
  simp only [Bool.and_eq_true, decide_eq_true_eq, Option.any_eq_true] at hP
  obtain ⟨hone, q, hq, hres⟩ := hP
  obtain ⟨q', hq', hset, -⟩ := (late_attempt_last hx 1).2 hone
  obtain rfl := Option.some.inj (hq.symm.trans hq')
  exact ⟨x, hx, hone, q, hq, hres, hset⟩

/-! ## The wait that does not end -/

/-- The run is one of the source. -/
def sourced (x : State × (ℕ → ℕ)) : Act ⊕ Empty → Bool
  | .inl a => prompt x.1 a
  | .inr _ => true

/-- The job of a request for the second model of the card that arrives at time 0. -/
def lateJob : Job :=
  ⟨⟨0, .claiming "llama" "b--cuda0" ["GPU0"]⟩, 0 + sharedCard.maxWaitSeconds⟩

/-- The request is expired and at the head of its loop. The first model of the
    card is loaded and idle, with this decode count. -/
structure Spinning (s : State) (decodeCalls : ℤ) : Prop where
  late : lateJob.deadline ≤ s.now
  requests : s.requests = [.finished .started, .looping lateJob]
  waiting : s.waiting = [lateJob.ticket]
  loaded : s.view.loaded.entries = [("a--cuda0", 0)]
  variant : (s.heap 0).variant = .claiming "llama" "a--cuda0" ["GPU0"]
  free : (s.heap 0).active = 0 ∧ (s.heap 0).queued = 0 ∧ (s.heap 0).ready = true ∧
    (s.heap 0).leaving = false
  decodeCalls : (s.heap 0).decodeCalls = some decodeCalls

/-- The state when the server has answered one second later, with this count,
    and the request is at the head of its loop again. -/
def spun (s : State) (decodeCalls : ℤ) : State :=
  ({ s with now := s.now + 1 }.edit [0] fun m =>
    m.observed (s.now + 1) ⟨false, 0, decodeCalls⟩).goto 1 (.looping lateJob)

/-- What `busy` has found then. -/
def spunLook (s : State) (decodeCalls : ℤ) : Look :=
  judged sharedCard { rest := [], untilTime := s.now } 0
    ((s.heap 0).observed (s.now + 1) ⟨false, 0, decodeCalls⟩)

variable {decodeCalls : ℤ}

/-- The model worked, so that its window, of no length, ends when it is observed. -/
theorem Spinning.look (h : Spinning s decodeCalls) :
    (spunLook s (decodeCalls + 1)).untilTime = s.now + 1 ∧
      (spunLook s (decodeCalls + 1)).reason ≠ "" ∧ (spunLook s (decodeCalls + 1)).rest = [] := by
  have hactivity : ((s.heap 0).observed (s.now + 1) ⟨false, 0, decodeCalls + 1⟩).lastActivity =
      s.now + 1 := by simp [LoadedModel.observed, h.decodeCalls]
  have hprotect : sharedCard.protectSeconds = 0 := rfl
  have hlater : (s.now : Seconds) < (s.now + 1 : ℚ) := WithTop.coe_lt_coe.2 (lt_add_one _)
  refine ⟨?_, ?_, judged_rest ..⟩
  all_goals
    unfold spunLook
    rcases judged_cases sharedCard { rest := [], untilTime := s.now } 0
      ((s.heap 0).observed (s.now + 1) ⟨false, 0, decodeCalls + 1⟩) with ⟨hle, -⟩ | ⟨-, huntil, hreason⟩
    · rw [hactivity, hprotect, add_zero] at hle
      exact absurd hle (not_le.2 hlater)
    · first | exact hreason | rw [huntil, hactivity, hprotect, add_zero]; rfl

theorem Spinning.next (h : Spinning s decodeCalls) :
    Spinning (spun s (decodeCalls + 1)) (decodeCalls + 1) := by
  refine ⟨?_, ?_, h.waiting, h.loaded, ?_, ?_, ?_⟩
  · exact h.late.trans (WithTop.coe_le_coe.2 (by simp [spun]))
  · simp [spun, h.requests]
  · simp [spun, LoadedModel.observed, h.variant]
  · simpa [spun, LoadedModel.observed] using h.free
  · simp [spun, LoadedModel.observed]

/-- A request that moves twice. -/
theorem goto_goto (s : State) (p : ℕ) (q q' : Request) : (s.goto p q).goto p q' = s.goto p q' := by
  simp [State.goto]

/-- The second of two requests goes on, or is suspended. -/
theorem prompt_second {q : Request} (hr : s.requests = [.finished .started, q])
    (ha : q.running = false ∨ a = .resume 1) : prompt s a = true := by
  refine prompt_iff.2 fun p q' hq' hrun => ?_
  rw [hr] at hq'
  rcases p with _ | _ | p <;> simp at hq' <;> rw [← hq'] at hrun
  · cases hrun
  · exact .inl (ha.resolve_left (by simp [hrun]))

/-- A step of the run that begins no call. -/
theorem sourced_step {count : ℕ → ℕ} {q : Request}
    (hs : (timed sharedCard).Reach (fun x c => sourced x c = true) (s, count))
    (hr : s.requests = [.finished .started, q]) (hq : ∀ job, q ≠ .looping job)
    (ha : q.running = false ∨ a = .resume 1) (hstep : step sharedCard s a = some t) :
    (timed sharedCard).Reach (fun x c => sourced x c = true) (t, count) := by
  have hnone : s.attempts a = none := by
    cases hatt : s.attempts a with
    | none => rfl
    | some p =>
      obtain ⟨-, job, hp, -⟩ := attempts_eq_some hatt
      rw [hr] at hp
      rcases p with _ | _ | p <;> simp at hp
      exact absurd hp (hq job)
  have hcount : attempting.react s a t count = count := by
    funext p
    show (if s.attempts a = some p then count p + 1 else count p) = count p
    rw [hnone, if_neg (by simp)]
  have hnext := hs.react (a := a) (t := t) (prompt_second hr ha) hstep
  rwa [hcount] at hnext

/-- Every state of a round, with the request at `q`. -/
theorem Spinning.requests_goto (h : Spinning s decodeCalls) (q : Request) :
    (s.goto 1 q).requests = [.finished .started, q] := by
  simp [h.requests]

theorem Spinning.not_recorded (h : Spinning s decodeCalls) : s.recorded "b--cuda0" = none := by
  simp [State.recorded, Dict.get, h.loaded]

theorem Spinning.not_joinable (h : Spinning s decodeCalls) :
    s.joinable lateJob.variant.id = none := by
  rw [State.joinable, show lateJob.variant.id = "b--cuda0" from rfl, h.not_recorded]
  rfl

/-- The call of `place` begins. -/
theorem Spinning.calls (h : Spinning s decodeCalls) :
    step sharedCard s (.resume 1) = some (s.goto 1 (.placeLock lateJob)) := by
  have hjoin := h.not_joinable
  have hhead : loopHead s 1 lateJob = s.goto 1 (.placeLock lateJob) := by
    unfold State.joinable at hjoin
    unfold loopHead
    rw [hjoin, h.waiting]
    rfl
  simp [step, h.requests, resume, hhead]

theorem Spinning.attempts (h : Spinning s decodeCalls) : s.attempts (.resume 1) = some 1 := by
  simp only [State.attempts, h.requests, List.getElem?_cons_succ, List.getElem?_cons_zero]
  exact if_pos ⟨h.late, h.not_joinable⟩

/-- It has the lock and finds the first model. -/
theorem Spinning.lists (h : Spinning s decodeCalls) :
    step sharedCard (s.goto 1 (.placeLock lateJob)) (.resume 1) =
      some (s.goto 1 (.judging lateJob { rest := [0], untilTime := s.now })) := by
  have hlock : (s.goto 1 (.placeLock lateJob)).lockFree = true := by
    rw [State.lockFree, h.requests_goto]
    rfl
  have hvalues : s.view.loaded.values = [0] := by simp [Dict.values, h.loaded]
  have hconflict : claimsConflict (s.heap 0).variant lateJob.variant = true := by
    rw [h.variant]
    decide
  have hplace : place (s.goto 1 (.placeLock lateJob)) 1 lateJob =
      s.goto 1 (.judging lateJob { rest := [0], untilTime := s.now }) := by
    unfold place
    rw [show lateJob.variant.id = "b--cuda0" from rfl,
      show (s.goto 1 (.placeLock lateJob)).recorded "b--cuda0" = none from h.not_recorded]
    simp [hvalues, hconflict, goto_goto]
  rw [step, h.requests_goto]
  simp [resume, hlock, hplace]

/-- The window has ended when the request looks at the clock. -/
theorem Spinning.returns (h : Spinning s decodeCalls) :
    ∃ placed : Blocked,
      step sharedCard
        ((spun s (decodeCalls + 1)).goto 1 (.judging lateJob (spunLook s (decodeCalls + 1))))
        (.resume 1) = some ((spun s (decodeCalls + 1)).goto 1 (.blocked lateJob placed)) ∧
      step sharedCard ((spun s (decodeCalls + 1)).goto 1 (.blocked lateJob placed)) (.resume 1) =
        some (spun s (decodeCalls + 1)) := by
  obtain ⟨huntil, hreason, hrest⟩ := h.look
  refine ⟨⟨(spunLook s (decodeCalls + 1)).reason, some (s.now + 1)⟩, ?_, ?_⟩
  · rw [step, h.next.requests_goto]
    simp [resume, judge, hrest, hreason, huntil, goto_goto]
  · rw [step, h.next.requests_goto]
    simp [resume, afterBlocked, goto_goto, spun]

/-- One round: the request calls `place`, the model has just worked, and the
    request starts again. -/
theorem Spinning.round {count : ℕ → ℕ} (h : Spinning s decodeCalls)
    (hs : (timed sharedCard).Reach (fun x c => sourced x c = true) (s, count)) :
    ∃ count' : ℕ → ℕ, count' 1 = count 1 + 1 ∧
      (timed sharedCard).Reach (fun x c => sourced x c = true)
        (spun s (decodeCalls + 1), count') := by
  have hr := h.requests_goto
  have hfree : (s.heap 0).free = true := by simp [LoadedModel.free, h.free]
  have hone : attempting.react s (.resume 1) (s.goto 1 (.placeLock lateJob)) count 1 =
      count 1 + 1 := if_pos h.attempts
  have h₁ := hs.react (prompt_second h.requests (.inr rfl)) h.calls
  have h₂ := sourced_step h₁ (hr _) (fun _ => by simp) (.inl rfl) h.lists
  -- the server is asked, and answers a second later that it has worked
  have hask := @step_ask sharedCard (s.goto 1 (.judging lateJob { rest := [0], untilTime := s.now }))
    1 lateJob _ 0 [] (by rw [hr]; rfl) rfl hfree
  rw [goto_goto] at hask
  have h₃ := sourced_step h₂ (hr _) (fun _ => by simp) (.inr rfl) hask
  have htick : step sharedCard (s.goto 1 (.observing lateJob { rest := [], untilTime := s.now } 0))
      (.tick 1) = some
        { s.goto 1 (.observing lateJob { rest := [], untilTime := s.now } 0) with
          now := s.now + 1 } := rfl
  have h₄ := sourced_step h₃ (hr _) (fun _ => by simp) (.inl rfl) htick
  have hanswer := @step_observed sharedCard s 1 lateJob _ { rest := [0], untilTime := s.now } 0 []
    ⟨1, ⟨false, 0, decodeCalls + 1⟩⟩ (by rw [h.requests]; rfl) rfl
  have h₅ := sourced_step h₄ (hr _) (fun _ => by simp) (.inl rfl) hanswer
  have hjudging : observed sharedCard s 1 lateJob { rest := [0], untilTime := s.now } 0 []
      ⟨1, ⟨false, 0, decodeCalls + 1⟩⟩ =
        (spun s (decodeCalls + 1)).goto 1 (.judging lateJob (spunLook s (decodeCalls + 1))) := by
    rw [spun, goto_goto]
    rfl
  rw [hjudging] at h₅
  obtain ⟨placed, hblock, hback⟩ := h.returns
  have h₆ := sourced_step h₅ (h.next.requests_goto _) (fun _ => by simp) (.inr rfl) hblock
  exact ⟨_, hone, sourced_step h₆ (h.next.requests_goto _) (fun _ => by simp) (.inr rfl) hback⟩

/-- The first model is loaded, and thirty seconds pass before the request looks
    for a record. -/
theorem spinning_first : ∃ x, (timed sharedCard).Reach (fun x c => sourced x c = true) x ∧
    Spinning x.1 0 ∧ x.2 1 = 0 := by
  have h0 : (timed sharedCard).init (initial 0 (survey sharedCard 0 firstLoaded), fun _ => 0) :=
    ⟨⟨0, 0, firstLoaded, le_refl 0, rfl⟩, rfl⟩
  obtain ⟨x, hrun, hcount, hspin⟩ : ∃ x, (timed sharedCard).run sourced
      (initial 0 (survey sharedCard 0 firstLoaded), fun _ => 0)
      ([.activity 0 (.ok ⟨false, 0, 0⟩), .arrive "b--cuda0", .resume 1, .tick 30].map .inl) =
        some x ∧ x.2 1 = 0 ∧ Spinning x.1 0 :=
    ⟨_, rfl, by decide +kernel,
      by decide +kernel, rfl, rfl, rfl, rfl, ⟨rfl, rfl, rfl, rfl⟩, rfl⟩
  exact ⟨x, System.Reach.run (.init h0) hrun, hspin, hcount⟩

/-- An expired request makes any number of calls. -/
theorem spinning_reached (n : ℕ) : ∃ (s : State) (count : ℕ → ℕ) (decodeCalls : ℤ),
    (timed sharedCard).Reach (fun x c => sourced x c = true) (s, count) ∧
      Spinning s decodeCalls ∧ count 1 = n := by
  induction n with
  | zero =>
    obtain ⟨x, hx, hspin, hcount⟩ := spinning_first
    exact ⟨x.1, x.2, 0, hx, hspin, hcount⟩
  | succ n ih =>
    obtain ⟨s, count, decodeCalls, hs, hspin, hcount⟩ := ih
    obtain ⟨count', hone, ht⟩ := hspin.round hs
    exact ⟨_, count', _, ht, hspin.next, by rw [hone, hcount]⟩

/-- No number bounds the calls of `place` that a request begins after its
    deadline: a window of no length, for a model that is used again whenever it
    is observed, has always just ended. -/
theorem late_attempts_unbounded :
    ¬ ∃ bound, ∀ x, (timed sharedCard).Reach (fun x c => sourced x c = true) x →
      ∀ p, x.2 p ≤ bound := by
  rintro ⟨bound, hbound⟩
  obtain ⟨s, count, -, hs, -, hcount⟩ := spinning_reached (bound + 1)
  have hle := hbound _ hs 1
  simp only [hcount] at hle
  omega

end ModelBroker
