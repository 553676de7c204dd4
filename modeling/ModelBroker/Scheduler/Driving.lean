import ModelBroker.Lib.Turns
import ModelBroker.Scheduler.Actors
import ModelBroker.Scheduler.Serving

/-!
# Driving the event loop

Whoever drives the event loop chooses which request or task goes on next and how
long to wait; the servers choose their answers. A run is driven without a new
request or a cancellation.

* `tasks_end`: the background tasks can be brought to their end.
* `leads_resume`, `leads_survey`, `leads_track`, `leads_observe`, `leads_clock`: what
  a turn of a request, or of the clock, leads to.
-/

namespace ModelBroker

/-! ## Turns -/

/-- Whose turn it is: the clock's, for so many seconds, or that of a request or of a
    background task. -/
inductive Turn
  | clock (seconds : ℚ)
  | request (p : ℕ)
  | task (i : ℕ)

/-- The turn of an action. New requests and cancellations have none. -/
def Act.turn? : Act → Option Turn
  | tick seconds => some (.clock seconds)
  | resume p | props p _ | states p _ | activity p _ => some (.request p)
  | run i | call i _ | taskStates i _ | taskActivity i _ => some (.task i)
  | arrive _ | cancel _ => none

variable {cfg : Config} {s t : State} {a : Act} {p i : ℕ} {Q : State → Prop}

/-- A state of a run in which no swap dies and no `track` is cancelled early. -/
abbrev Finishing (cfg : Config) (s : State) : Prop :=
  (scheduler cfg).Reach (fun s a => finishing s a = true) s

/-- Choosing turns well leads to the goal. -/
abbrev Leads (cfg : Config) (Q : State → Prop) (s : State) : Prop :=
  (scheduler cfg).Forces Act.turn? (fun s a => finishing s a = true) Q s

theorem Act.task_of_turn (ha : a.turn? = some (.task i)) : a.task? = some i := by
  cases a <;> simp_all [Act.turn?, Act.task?]

/-- A request's own turn kills no swap and cancels nothing. -/
theorem finishing_of_request (ha : a.turn? = some (.request p)) : finishing s a = true := by
  cases a <;> first | rfl | simp [Act.turn?] at ha

/-- Tasks other than a swap's unload do not die. -/
theorem finishing_run (i : ℕ) : finishing s (.run i) = true := rfl

theorem finishing_taskStates (i : ℕ) (answer : Except String (Dict String ModelState)) :
    finishing s (.taskStates i answer) = true := rfl

theorem finishing_taskActivity (i : ℕ) (answer : Except String ModelActivity) :
    finishing s (.taskActivity i answer) = true := rfl

theorem finishing_call {k : Task} {answer : Except String Unit} (hi : s.tasks[i]? = some k)
    (hk : ∀ done victim rest model, k ≠ .swapUnload done victim rest model) :
    finishing s (.call i answer) = true := by
  refine finishing_iff.2 ⟨rfl, ?_⟩
  cases k with
  | swapUnload done victim rest model => exact absurd rfl (hk done victim rest model)
  | swapReady | swapLoad | finishReady | finishWait | loadQuery | loadBaseline | ended | crashed =>
    simp [State.crashes, hi]

/-! ## Tasks -/

/-- What a task has still to do, at most. -/
def Task.weight : Task → ℕ
  | swapReady victims _ => victims.length + 4
  | swapUnload _ _ rest _ => rest.length + 4
  | finishReady _ => 3
  | swapLoad _ | finishWait _ => 2
  | loadQuery _ _ _ | loadBaseline _ _ => 1
  | ended | crashed => 0

/-- The task has ended. -/
def Task.dead (k : Task) : Prop := k = .ended ∨ k = .crashed

theorem weight_swapNext (done rest : List Ref) (model : Ref) :
    (swapNext done rest model).weight ≤ rest.length + 3 := by
  cases rest <;> simp [swapNext, Task.weight]

/-- Every task has ended. -/
def TasksDead (s : State) : Prop := ∀ (i : ℕ) (k : Task), s.tasks[i]? = some k → k.dead

/-- A live task can go on, without dying. -/
theorem task_can (h : Finishing cfg s) {k : Task} (hi : s.tasks[i]? = some k) (hk : ¬ k.dead) :
    ∃ a t, a.turn? = some (.task i) ∧ finishing s a = true ∧ step cfg s a = some t := by
  cases k with
  | swapReady | finishReady => exact ⟨.run i, _, rfl, finishing_run i, by simp only [step, hi]; rfl⟩
  | swapUnload done victim rest model =>
    -- its model is in `loaded`, so it can at least give up
    refine ⟨.call i (.error ""), _, rfl, ?_, by simp only [step, hi]; rfl⟩
    have hrec := (unasked h).recorded i _ model hi rfl
    rw [finishing_iff]
    exact ⟨rfl, by simp [State.crashes, hi, hrec]⟩
  | swapLoad | finishWait =>
    refine ⟨.call i (.ok ()), _, rfl, finishing_call hi (by simp), by simp only [step, hi]; rfl⟩
  | loadQuery =>
    exact ⟨.taskStates i (.error ""), _, rfl, finishing_taskStates i _, by simp only [step, hi]; rfl⟩
  | loadBaseline =>
    exact ⟨.taskActivity i (.error ""), _, rfl, finishing_taskActivity i _,
      by simp only [step, hi]; rfl⟩
  | ended => exact absurd (.inl rfl) hk
  | crashed => exact absurd (.inr rfl) hk

/-- A task's own step leaves it with less to do. -/
theorem task_lighter (hstep : step cfg s a = some t) (ha : a.task? = some i) :
    ∃ k k', s.tasks[i]? = some k ∧ t.tasks = s.tasks.set i k' ∧ k'.weight < k.weight := by
  obtain ⟨k, hk, hmoves⟩ := task_moves hstep ha
  cases hmoves with
  | @start victims model =>
    refine ⟨_, _, hk, rfl, ?_⟩
    exact Nat.lt_succ_of_le (weight_swapNext [] victims model)
  | @unloaded done rest victim model answer =>
    unfold unloaded
    split
    · exact ⟨_, _, hk, rfl, by simp [Task.weight]⟩
    · refine ⟨_, _, hk, rfl, ?_⟩
      exact Nat.lt_succ_of_le (weight_swapNext (done ++ [victim]) rest model)
  | unloadFailed =>
    unfold unloadFailed
    dsimp only
    split <;> exact ⟨_, _, hk, rfl, by simp [Task.weight]⟩
  | queried =>
    unfold queried
    dsimp only
    split_ifs <;> exact ⟨_, _, hk, rfl, by simp [Task.weight]⟩
  | loaded | loadFailed | wait | awaited | waitFailed | baselined =>
    exact ⟨_, _, hk, rfl, by simp [Task.weight]⟩

/-- What all tasks have still to do. -/
def State.work (s : State) : ℕ := (s.tasks.map Task.weight).sum

theorem work_lt {k k' : Task} (hi : s.tasks[i]? = some k) (ht : t.tasks = s.tasks.set i k')
    (hlt : k'.weight < k.weight) : t.work < s.work := by
  unfold State.work
  rw [ht, List.map_set]
  exact Table.sum_set_lt (by rw [List.getElem?_map, hi]; rfl) hlt

/-- The clock stands still unless it is its turn. -/
theorem now_eq (h : Step cfg s a t) (ha : ∀ seconds, a ≠ .tick seconds) : t.now = s.now := by
  cases h with
  | tick => exact absurd rfl (ha _)
  | arrive | silent | enter | install | baseline | join | queue | quit | busy | idle | commit
  | joined | unjoin | release | task | unloaded | crash | unloadFailed | crashFailed | loadFailed
  | dropped | gone | unsure | baselined => rfl

/-- The background tasks can be brought to their end, with the requests where they
    are. -/
theorem tasks_end (h : Finishing cfg s) :
    Leads cfg (fun t => Finishing cfg t ∧ TasksDead t ∧ t.requests = s.requests ∧ t.now = s.now)
      s := by
  refine System.Forces.of_measure State.work (P := fun t => Finishing cfg t ∧
    t.requests = s.requests ∧ t.now = s.now) ?_ ⟨h, rfl, rfl⟩
  rintro u ⟨hu, hreq, hnow⟩
  by_cases hdead : TasksDead u
  · exact .goal (.inl ⟨hu, hdead, hreq, hnow⟩)
  · simp only [TasksDead, not_forall] at hdead
    obtain ⟨i, k, hi, hk⟩ := hdead
    refine .take (.task i) (task_can hu hi hk) fun a v ha hok hstep => .goal (.inr ⟨⟨?_, ?_, ?_⟩, ?_⟩)
    · exact .step hu hok hstep
    · rw [task_requests hstep (Act.task_of_turn ha), hreq]
    · rw [now_eq (step_cases hstep) (by rintro seconds rfl; simp [Act.turn?] at ha), hnow]
    · obtain ⟨k, k', hk, ht, hlt⟩ := task_lighter hstep (Act.task_of_turn ha)
      exact work_lt hk ht hlt

/-! ## One request on its own -/

/-- Request `p` has gone on alone to a point with `R`. -/
structure Went (cfg : Config) (p : ℕ) (R : State → Request → Prop) (s t : State) : Prop where
  finishing : Finishing cfg t
  now : t.now = s.now
  moved : ∃ q, t.requests = s.requests.set p q ∧ R t q

/-- No other request holds the lock. -/
def OthersFree (p : ℕ) (s : State) : Prop :=
  ∀ (p' : ℕ) (q : Request), p' ≠ p → s.requests[p']? = some q → q.holdsLock = false

variable {R R' : State → Request → Prop} {q q' : Request}

theorem Went.trans {u : State} (h : Went cfg p R s t) (h' : Went cfg p R' t u) :
    Went cfg p R' s u := by
  obtain ⟨q, ht, -⟩ := h.moved
  obtain ⟨q', hu, hR⟩ := h'.moved
  exact ⟨h'.finishing, h'.now.trans h.now, q', by rw [hu, ht, List.set_set], hR⟩

theorem Went.get (h : Went cfg p R s t) (hq : s.requests[p]? = some q) :
    ∃ q', t.requests[p]? = some q' ∧ R t q' := by
  obtain ⟨q', ht, hR⟩ := h.moved
  exact ⟨q', ht ▸ Table.get_set_self hq, hR⟩

theorem OthersFree.went (hfree : OthersFree p s) (hq : s.requests[p]? = some q)
    (h : Went cfg p R s t) : OthersFree p t := by
  obtain ⟨q', ht, -⟩ := h.moved
  intro p' q'' hne hp'
  rw [ht, Table.get_set hq] at hp'
  rcases hp' with ⟨rfl, -⟩ | ⟨-, hp'⟩
  · exact absurd rfl hne
  · exact hfree p' q'' hne hp'

theorem OthersFree.lockFree (hfree : OthersFree p s) (hq : s.requests[p]? = some q)
    (hlock : q.holdsLock = false) : s.lockFree = true := by
  refine List.all_eq_true.2 fun q' hmem => ?_
  obtain ⟨p', hp'⟩ := List.mem_iff_getElem?.1 hmem
  by_cases hp : p' = p
  · subst hp
    obtain rfl := Option.some.inj (hq.symm.trans hp')
    simp [hlock]
  · simp [hfree p' q' hp hp']

theorem othersFree_of_lockFree (h : s.lockFree = true) : OthersFree p s :=
  fun _ _ _ hp' => not_holds_of_lockFree h hp'

theorem othersFree_of_holds (hlock : Locking s) (hq : s.requests[p]? = some q)
    (hheld : q.holdsLock = true) : OthersFree p s := by
  intro p' q' hne hp'
  by_contra hnot
  exact hne (hlock p' p q' q hp' hq (by simpa using hnot) hheld)

/-- The request awaits the answer of a server. -/
def Request.asks : Request → Bool
  | surveying _ _ | tracking _ _ _ | observing _ _ _ => true
  | _ => false

/-- A request that asks nothing has only one way to go on. -/
theorem resume_of_turn (hq : s.requests[p]? = some q) (hasks : q.asks = false)
    (ha : a.turn? = some (.request p)) (h : step cfg s a = some t) :
    resume cfg s p q = some t := by
  have none : ∀ {q' : Request}, s.requests[p]? = some q' → q'.asks = true → False := by
    intro q' hq' htrue
    obtain rfl := Option.some.inj (hq.symm.trans hq')
    rw [hasks] at htrue
    cases htrue
  cases a with
  | resume p' =>
    obtain rfl : p' = p := by simpa [Act.turn?] using ha
    simpa [step, hq] using h
  | props p' answer | states p' answer =>
    obtain rfl : p' = p := by simpa [Act.turn?] using ha
    simp only [step] at h
    split at h
    · next hq' => exact (none hq' rfl).elim
    · cases h
  | activity p' answer =>
    obtain rfl : p' = p := by simpa [Act.turn?] using ha
    simp only [step] at h
    split at h
    · next hq' => exact (none hq' rfl).elim
    · next hq' => exact (none hq' rfl).elim
    · cases h
  | tick | arrive | cancel | run | call | taskStates | taskActivity => simp [Act.turn?] at ha

/-- It is the request's turn. -/
theorem leads_request (h : Finishing cfg s)
    (hcan : ∃ a t, a.turn? = some (.request p) ∧ step cfg s a = some t)
    (hnext : ∀ a t, a.turn? = some (.request p) → step cfg s a = some t → Finishing cfg t →
      Leads cfg Q t) : Leads cfg Q s := by
  obtain ⟨a, t, ha, ht⟩ := hcan
  refine .take (.request p) ⟨a, t, ha, finishing_of_request ha, ht⟩ fun a t ha hok ht => ?_
  exact hnext a t ha ht (.step h hok ht)

/-- The request goes on by itself. -/
theorem leads_resume (h : Finishing cfg s) (hq : s.requests[p]? = some q) (hasks : q.asks = false)
    (hgoes : resume cfg s p q = some t) (hnext : Finishing cfg t → Leads cfg Q t) :
    Leads cfg Q s := by
  refine leads_request (p := p) h ⟨.resume p, t, rfl, by simpa [step, hq] using hgoes⟩
    fun a t' ha ht' hreach => ?_
  have hgoes' := resume_of_turn hq hasks ha ht'
  rw [hgoes] at hgoes'
  obtain rfl := Option.some.inj hgoes'
  exact hnext hreach

/-- Time passes. -/
theorem leads_clock (h : Finishing cfg s) (seconds : ℚ) (hpos : 0 ≤ seconds)
    (hnext : Finishing cfg { s with now := s.now + seconds } →
      Leads cfg Q { s with now := s.now + seconds }) : Leads cfg Q s := by
  have hstep : step cfg s (.tick seconds) = some { s with now := s.now + seconds } := by
    simp only [step, hpos, if_true]
  refine .take (.clock seconds) ⟨.tick seconds, _, rfl, rfl, hstep⟩ fun a t ha hok ht => ?_
  cases a with
  | tick seconds' =>
    obtain rfl : seconds' = seconds := by simpa [Act.turn?] using ha
    obtain rfl := Option.some.inj (hstep.symm.trans ht)
    exact hnext (.step h hok hstep)
  | arrive | resume | props | states | activity | cancel | run | call | taskStates | taskActivity =>
    simp [Act.turn?] at ha

/-- The servers that are still to be read, and whether this one has answered once. -/
def Inspection.left (i : Inspection) : ℕ := 2 * i.rest.length + if i.props.isNone then 1 else 0

theorem left_surveyNext {now : ℚ} {found : Survey} {rest : List (String × String)} {i : Inspection}
    (h : surveyNext now found rest = .inr i) : i.left < 2 * rest.length := by
  cases rest with
  | nil => cases h
  | cons server rest =>
    cases h
    simp [Inspection.left]
    omega

/-- The server's answer brings the survey nearer to its end. -/
theorem leads_survey {variant : Variant} {i : Inspection} (h : Finishing cfg s)
    (hq : s.requests[p]? = some (.surveying variant i))
    (hnext : ∀ next, (∀ i', next = .inr i' → i'.left < i.left) →
      Finishing cfg (surveyed s p variant next) → Leads cfg Q (surveyed s p variant next)) :
    Leads cfg Q s := by
  refine leads_request (p := p) h ?_ fun a t ha ht hreach => ?_
  · cases hprops : i.props with
    | none => exact ⟨.props p (.error ""), _, rfl, by simp only [step, hq, hprops]; rfl⟩
    | some props => exact ⟨.states p (.error ""), _, rfl, by simp only [step, hq, hprops]; rfl⟩
  · cases a with
    | resume p' =>
      obtain rfl : p' = p := by simpa [Act.turn?] using ha
      simp [step, hq, resume] at ht
    | props p' answer =>
      obtain rfl : p' = p := by simpa [Act.turn?] using ha
      simp only [step, hq] at ht
      split_ifs at ht with hprops
      obtain rfl := Option.some.inj ht
      refine hnext _ (fun i' hi' => ?_) hreach
      cases answer with
      | error error =>
        have hlt := left_surveyNext hi'
        simp only [Inspection.left, hprops, if_true]
        simp only [Inspection.left] at hlt
        omega
      | ok props =>
        cases hi'
        simp [Inspection.left, hprops]
    | states p' answer =>
      obtain rfl : p' = p := by simpa [Act.turn?] using ha
      simp only [step, hq, Option.map_eq_some_iff] at ht
      obtain ⟨props, hprops, rfl⟩ := ht
      refine hnext _ (fun i' hi' => ?_) hreach
      have hlt : i'.left < 2 * i.rest.length := by
        cases answer <;> exact left_surveyNext hi'
      simp only [Inspection.left, hprops]
      simp only [Inspection.left] at hlt
      simpa using hlt
    | activity p' answer =>
      obtain rfl : p' = p := by simpa [Act.turn?] using ha
      simp [step, hq] at ht
    | tick | arrive | cancel | run | call | taskStates | taskActivity => simp [Act.turn?] at ha

/-- The server answers with its activity. -/
theorem leads_activity (h : Finishing cfg s) {next : Except String ModelActivity → State}
    (hall : ∀ a, a.turn? = some (.request p) → ∀ t, step cfg s a = some t →
      ∃ answer, a = .activity p answer ∧ t = next answer)
    (hcan : step cfg s (.activity p (.error "")) = some (next (.error "")))
    (hnext : ∀ answer, Finishing cfg (next answer) → Leads cfg Q (next answer)) : Leads cfg Q s := by
  refine leads_request (p := p) h ⟨_, _, rfl, hcan⟩ fun a t ha ht hreach => ?_
  obtain ⟨answer, -, rfl⟩ := hall a ha t ht
  exact hnext answer hreach

theorem leads_track {after : Option Variant} {model : Ref} {rest : List Ref} (h : Finishing cfg s)
    (hq : s.requests[p]? = some (.tracking after model rest))
    (hnext : ∀ answer,
      Finishing cfg (track (s.edit [model] fun m => m.withBaseline answer) p after rest) →
      Leads cfg Q (track (s.edit [model] fun m => m.withBaseline answer) p after rest)) :
    Leads cfg Q s := by
  refine leads_activity (p := p) h (fun a ha t ht => ?_) (by simp only [step, hq]) hnext
  cases a with
  | activity p' answer =>
    obtain rfl : p' = p := by simpa [Act.turn?] using ha
    simp only [step, hq] at ht
    exact ⟨answer, rfl, (Option.some.inj ht).symm⟩
  | resume p' | props p' | states p' =>
    obtain rfl : p' = p := by simpa [Act.turn?] using ha
    simp [step, hq, resume] at ht
  | tick | arrive | cancel | run | call | taskStates | taskActivity => simp [Act.turn?] at ha

theorem leads_observe {job : Job} {look : Look} {model : Ref} (h : Finishing cfg s)
    (hq : s.requests[p]? = some (.observing job look model))
    (hnext : ∀ answer, Finishing cfg (observe cfg s p job look model answer) →
      Leads cfg Q (observe cfg s p job look model answer)) : Leads cfg Q s := by
  refine leads_activity (p := p) h (fun a ha t ht => ?_) (by simp only [step, hq]) hnext
  cases a with
  | activity p' answer =>
    obtain rfl : p' = p := by simpa [Act.turn?] using ha
    simp only [step, hq] at ht
    exact ⟨answer, rfl, (Option.some.inj ht).symm⟩
  | resume p' | props p' | states p' =>
    obtain rfl : p' = p := by simpa [Act.turn?] using ha
    simp [step, hq, resume] at ht
  | tick | arrive | cancel | run | call | taskStates | taskActivity => simp [Act.turn?] at ha

end ModelBroker
