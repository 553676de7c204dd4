import ModelBroker.Scheduler.Admission

/-!
# What a decision has observed

The scheduler keeps no record of the observations behind a decision. A log of
`place`'s steps is put next to its state (`System.under`), so that a statement
can speak of "the decision that chose this victim".

* `logged_inv`: the victims of a live swap were all observed idle by the call of
  `place` that chose them.
* `running_uninterrupted`: in a run without a re-inspection an admitted
  request's record stays as it is, and a model that is being unloaded is unused
  and was observed idle.
-/

namespace ModelBroker

variable {cfg : Config} {s t : State} {a : Act}

/-! ## The log -/

/-- What happens in `place`. -/
inductive Event
  | began (p : ℕ)
  | observed (p : ℕ) (model : Ref) (activity : ModelActivity)
  | decided (p : ℕ) (victims : List Ref) (model : Ref)

/-- The events of a step: `place` has its lock, an observation succeeds, or the
    decision is committed. -/
def State.events (s : State) : Act → List Event
  | .resume p =>
    match s.requests[p]?, s.decision p with
    | some (.placeLock _), _ => [.began p]
    | _, some (_, victims) => [.decided p victims s.next]
    | _, none => []
  | .activity p (.ok activity) =>
    match s.requests[p]? with
    | some (.observing _ _ model) => [.observed p model activity]
    | _ => []
  | _ => []

/-- The log, which every step extends by its events. -/
def logging : Env State Act (List Event) Empty :=
  .history fun s a _ log => log ++ s.events a

/-- The scheduler with an empty log. -/
def logged (cfg : Config) : System (State × List Event) (Act ⊕ Empty) :=
  (scheduler cfg).under logging fun _ log => log = []

/-- These models were observed idle. -/
def IdleIn (events : List Event) (p : ℕ) (models : List Ref) : Prop :=
  ∀ r ∈ models, ∃ activity : ModelActivity,
    Event.observed p r activity ∈ events ∧ activity.processing = false ∧ activity.deferred = 0

/-- The last call of `place` by this request has observed these models idle. -/
def SawIdle (log : List Event) (p : ℕ) (models : List Ref) : Prop :=
  ∃ before since, log = before ++ .began p :: since ∧ Event.began p ∉ since ∧
    IdleIn since p models

/-- One call of `place` observed these victims idle and then chose them. -/
def Chosen (log : List Event) (victims : List Ref) (model : Ref) : Prop :=
  ∃ (p : ℕ) (before since later : List Event),
    log = before ++ .began p :: since ++ .decided p victims model :: later ∧
      Event.began p ∉ since ∧ IdleIn since p victims

theorem working_eq_false {activity : ModelActivity} :
    activity.working = false ↔ activity.processing = false ∧ activity.deferred = 0 := by
  simp [ModelActivity.working]

theorem SawIdle.extend {log : List Event} {p : ℕ} {models : List Ref} (h : SawIdle log p models)
    {events : List Event} (hnew : Event.began p ∉ events) : SawIdle (log ++ events) p models := by
  obtain ⟨before, since, rfl, hsince, hidle⟩ := h
  refine ⟨before, since ++ events, by simp, ?_, ?_⟩
  · rw [List.mem_append]
    exact fun hmem => hmem.elim hsince hnew
  · intro r hr
    obtain ⟨activity, hmem, hact⟩ := hidle r hr
    exact ⟨activity, List.mem_append_left _ hmem, hact⟩

theorem Chosen.extend {log : List Event} {victims : List Ref} {model : Ref}
    (h : Chosen log victims model) (events : List Event) :
    Chosen (log ++ events) victims model := by
  obtain ⟨p, before, since, later, rfl, hsince, hidle⟩ := h
  exact ⟨p, before, since, later ++ events, by simp, hsince, hidle⟩

/-- A decision follows the observations of its call of `place`. -/
theorem SawIdle.choose {log : List Event} {p : ℕ} {victims : List Ref} (h : SawIdle log p victims)
    (model : Ref) : Chosen (log ++ [.decided p victims model]) victims model := by
  obtain ⟨before, since, rfl, hsince, hidle⟩ := h
  exact ⟨p, before, since, [], by simp, hsince, hidle⟩

/-- A call of `place` begins only when the request asks for the lock. -/
theorem not_began {p : ℕ} {q : Request} (hq : s.requests[p]? = some q)
    (h : ∀ job, q ≠ .placeLock job) : Event.began p ∉ s.events a := by
  unfold State.events
  split
  · next p' =>
    split
    · next job hp' =>
      intro hmem
      obtain rfl : p = p' := by simpa using hmem
      exact h job (Option.some.inj (hq.symm.trans hp'))
    · simp
    · simp
  · split <;> simp
  · simp

/-! ## What the log shows -/

/-- The log accounts for the verdicts of requests and the victims of swaps. -/
structure Logged (s : State) (log : List Event) : Prop where
  judged : ∀ (p : ℕ) (q : Request) (seen : List Ref) (untilTime : Seconds) (reason : String),
    s.requests[p]? = some q → q.verdict? = some (seen, untilTime, reason) → SawIdle log p seen
  chosen : ∀ (i : ℕ) (k : Task) (model : Ref), s.tasks[i]? = some k → k.owns = some model →
    k.victims ≠ [] → Chosen log k.victims model

theorem logged_step {log : List Event} (h : Logged s log) (hstep : Step cfg s a t) :
    Logged t (log ++ s.events a) := by
  constructor
  · intro p q seen untilTime reason hp hv
    rcases step_verdict hstep hp hv with ⟨q₀, hp₀, hv₀⟩ | ⟨rfl, -, rfl, job, hp₀⟩ |
      ⟨job, look, model, activity, hp₀, rfl, hwork, rfl, -⟩
    · exact (h.judged p q₀ seen untilTime reason hp₀ hv₀).extend
        (not_began hp₀ (Request.not_placeLock_of_verdict hv₀))
    · have hevents : s.events (.resume p) = [.began p] := by simp [State.events, hp₀]
      rw [hevents]
      exact ⟨log, [], rfl, by simp, fun r hr => by cases hr⟩
    · have hevents : s.events (.activity p (.ok activity)) = [.observed p model activity] := by
        simp [State.events, hp₀]
      obtain ⟨rfl, -⟩ := Prod.mk.inj (Option.some.inj hv)
      obtain ⟨before, since, rfl, hsince, hidle⟩ :=
        h.judged p _ look.seen look.untilTime look.reason hp₀ rfl
      rw [hevents, judged_seen]
      refine ⟨before, since ++ [.observed p model activity], by simp, by simpa using hsince, ?_⟩
      intro r hr
      rcases List.mem_append.1 hr with hr | hr
      · obtain ⟨seenActivity, hmem, hact⟩ := hidle r hr
        exact ⟨seenActivity, List.mem_append_left _ hmem, hact⟩
      · obtain rfl := List.mem_singleton.1 hr
        exact ⟨activity, by simp, working_eq_false.1 hwork⟩
  · intro i k model hi ho hne
    rcases step_victims hstep hi with hnil | ⟨k₀, hk₀, heq, ho₀⟩ | ⟨-, hm, p, job, hd, -, rfl⟩
    · exact absurd hnil hne
    · rw [← heq] at hne ⊢
      exact (h.chosen i k₀ model hk₀ (ho₀.trans ho) hne).extend _
    · obtain ⟨look, hq, -, hreason, -, heq⟩ := decision_eq_some.1 hd
      have hevents : s.events (.resume p) = [.decided p k.victims s.next] := by
        simp [State.events, hq, hd]
      obtain rfl : model = s.next := Option.some.inj (ho.symm.trans hm)
      rw [hevents]
      refine SawIdle.choose ?_ _
      rw [heq]
      exact h.judged p _ look.seen look.untilTime look.reason hq rfl

/-- In every run the log accounts for the victims of swaps. -/
theorem logged_inv {ok : State × List Event → Act ⊕ Empty → Prop} {x : State × List Event}
    (h : (logged cfg).Reach ok x) : Logged x.1 x.2 := by
  refine System.Reach.environment ?_ ?_ ?_ h
  · rintro s log ⟨earlier, now, answer, -, rfl⟩ rfl
    refine ⟨?_, ?_⟩
    · intro p q seen untilTime reason hp hv
      rcases (initial_requests hp).2 with rfl | ⟨model, rest, rfl⟩ <;> cases hv
    · intro i k model hi _ hne
      obtain ⟨r, id, rfl, -⟩ := initial_tasks hi
      exact absurd rfl hne
  · intro s log a t _ hs _ hstep
    exact logged_step hs (step_cases hstep)
  · intro s log b
    exact b.elim

/-- The condition of a run without a re-inspection, for the logged system. -/
def uninspectedLogged (x : State × List Event) (a : Act ⊕ Empty) : Bool :=
  a.elim (uninspected x.1) Empty.elim

/-- In a run without a re-inspection: while a request is admitted to a record,
    that record stays in `loaded` under its id, ready, without an error and not
    leaving; and while an unload is outstanding, its victim has no active or
    queued request, nobody is admitted to it, and the decision that chose it
    observed it neither processing nor with deferred requests. -/
theorem running_uninterrupted {x : State × List Event}
    (h : (logged cfg).Reach (fun x a => uninspectedLogged x a = true) x) :
    (∀ (p : ℕ) (r : Ref), x.1.requests[p]? = some (.admitted r) →
      x.1.recorded (x.1.heap r).variant.id = some r ∧ (x.1.heap r).ready = true ∧
        (x.1.heap r).error = none ∧ (x.1.heap r).leaving = false) ∧
    ∀ (i : ℕ) (done rest : List Ref) (victim model : Ref),
      x.1.tasks[i]? = some (.swapUnload done victim rest model) →
      (x.1.heap victim).active = 0 ∧ (x.1.heap victim).queued = 0 ∧
        (∀ a t, step cfg x.1 a = some t → ∀ p : ℕ, t.requests[p]? ≠ some (.admitted victim)) ∧
        victim ∈ done ++ victim :: rest ∧ Chosen x.2 (done ++ victim :: rest) model := by
  have hreach : (scheduler cfg).Reach (fun s a => uninspected s a = true) x.1 :=
    h.program fun _ _ hok => hok
  have hinv := inv hreach
  constructor
  · intro p r hp
    obtain ⟨hready, herror⟩ := admitted_sound hreach p r hp
    obtain ⟨hrec, hleaving⟩ := (flow (fun _ _ hok => hok) hreach).admitted p r hp
    exact ⟨hrec, hready, herror, hleaving⟩
  · intro i done rest victim model hi
    have hmem : victim ∈ (Task.swapUnload done victim rest model).victims := by simp [Task.victims]
    obtain ⟨hactive, hqueued⟩ := quiet hreach i _ victim hi hmem
    refine ⟨hactive, hqueued, ?_, hmem, (logged_inv h).chosen i _ model hi rfl (by simp [Task.victims])⟩
    intro a t hstep p
    have hlt := hinv.refs.victim_lt hi hmem
    have hunused := ((counted hreach).unused hlt).1 ⟨hactive, hqueued⟩
    exact (unused_step (step_cases hstep) hlt (hinv.victims.leaving i _ victim hi hmem).1 hunused p).1

/-- A request for both cards has the models of the single cards unloaded; the
    first unload is outstanding. -/
theorem running_uninterrupted_pairedCards :
    ∃ x, (logged pairedCards).Reach (fun x a => uninspectedLogged x a = true) x ∧
      x.1.tasks[0]? = some (.swapUnload [] 0 [1] 2) ∧
      (x.1.heap 0).active = 0 ∧ Chosen x.2 [0, 1] 2 := by
  have h0 : (logged pairedCards).init (initial 0 (survey pairedCards 0 bothLoaded), []) :=
    ⟨⟨0, 0, bothLoaded, le_refl 0, rfl⟩, rfl⟩
  obtain ⟨x, hx, hP⟩ := @System.exists_reach _ _ _ uninspectedLogged _ h0
    ([.activity 0 (.ok idle), .activity 0 (.ok idle), .tick 20,
      .arrive "c--cuda01", .resume 1, .resume 1, .resume 1, .resume 1, .activity 1 (.ok idle),
      .resume 1, .activity 1 (.ok idle), .resume 1, .run 0].map Sum.inl)
    (fun x => x.1.tasks[0]? = some (.swapUnload [] 0 [1] 2)) (by decide +kernel)
  have hk := of_decide_eq_true hP
  obtain ⟨hactive, -, -, -, hchosen⟩ := (running_uninterrupted hx).2 0 [] [1] 0 2 hk
  exact ⟨x, hx, hk, hactive, hchosen⟩

end ModelBroker
