import ModelBroker.Scheduler.Conditions
import ModelBroker.Scheduler.Order

/-!
# Decisions and problems

`check_router` refuses a request while the view has problems. A request that is
past it waits in `acquire` for as long as `max_wait_seconds`, and `place` does
not look at the problems again.

* `decided_fit`: when problems are found only while no ticket waits, no decision
  is committed while the view has problems.
* `decided_unfit`: a request that waits while a load fails with an unknown
  outcome is placed with the problem still there.
-/

namespace ModelBroker

variable {cfg : Config} {s t : State} {a : Act}

/-- Problems are found only while no ticket waits. -/
def foundUnwaited (cfg : Config) (s : State) (a : Act) : Bool :=
  !s.findsProblems cfg a || s.waiting.isEmpty

/-- A problem that is new after a step was found by it. -/
theorem step_problems (h : Step cfg s a t) :
    t.view.problems = s.view.problems ∨ t.view.problems = [] ∨ s.findsProblems cfg a = true := by
  cases h with
  | @install p _ q q' variant found pending hq hs =>
    by_cases hp : found.problems = []
    · exact .inr (.inl hp)
    · refine .inr (.inr ?_)
      unfold State.findsProblems
      rw [Bool.or_eq_true, hs.concludes hq]
      exact .inr (by simpa using hp)
  | unsure hk hc =>
    refine .inr (.inr ?_)
    simp [State.findsProblems, hk, hc]
  | tick | arrive | silent | enter | baseline | join | queue | quit | busy | idle | commit | joined
  | unjoin | release | task | unloaded | crash | unloadFailed | crashFailed | loadFailed | dropped
  | gone | baselined => exact .inl rfl

/-- A ticket is only created while the view has no problems. -/
theorem step_waiting (h : Step cfg s a t) (ht : t.waiting ≠ []) :
    s.waiting ≠ [] ∨ (s.view.problems = [] ∧ t.view = s.view) := by
  have other : t.waiting = s.waiting → s.waiting ≠ [] := fun heq => heq ▸ ht
  have fewer : ∀ {serial : ℕ},
      t.waiting = s.waiting.filter (fun other => other.serial ≠ serial) → s.waiting ≠ [] := by
    intro serial hw hnil
    rw [hw, hnil] at ht
    exact ht rfl
  cases h with
  | enter hq hfrom hfit => exact .inr ⟨hfit, rfl⟩
  | join | queue | quit | commit => exact .inl (fewer rfl)
  | tick | arrive | silent | install | baseline | busy | idle | joined | unjoin | release | task
  | unloaded | crash | unloadFailed | crashFailed | loadFailed | dropped | gone | unsure
  | baselined => exact .inl (other rfl)

/-- While a ticket waits, the view has no problems. -/
def WaitsFit (s : State) : Prop := s.waiting ≠ [] → s.view.problems = []

theorem waitsFit_step (h : WaitsFit s) (hok : foundUnwaited cfg s a = true)
    (hstep : Step cfg s a t) : WaitsFit t := by
  intro ht
  rcases step_waiting hstep ht with hs | ⟨hfit, hview⟩
  · rcases step_problems hstep with hsame | hnone | hfound
    · rw [hsame, h hs]
    · exact hnone
    · have hempty : s.waiting = [] := by simpa [foundUnwaited, hfound] using hok
      exact absurd hempty hs
  · rw [hview, hfit]

/-- At the moment `place` commits a decision the view has no problems, in every
    run in which problems are found only while no ticket waits. -/
theorem decided_fit {p : ℕ} {job : Job} {victims : List Ref}
    (h : (scheduler cfg).Reach (fun s a => foundUnwaited cfg s a = true) s)
    (hd : s.decision p = some (job, victims)) : s.view.problems = [] := by
  have hfit : WaitsFit s := by
    refine invariant_reach ?_ ?_ h
    · intro now found _ hwait
      exact absurd (initial_waiting now found) hwait
    · intro s a t _ hs hok hstep
      exact waitsFit_step hs hok hstep
  obtain ⟨look, hq, -⟩ := decision_eq_some.1 hd
  have hmem := (ordered h).queued p _ job hq rfl
  exact hfit (List.ne_nil_of_mem hmem)

/-- One llama.cpp router and two models for the same card. -/
def sharedCard : Config :=
  .ofVariants oneRouter
    [.claiming "llama" "a--cuda0" ["GPU0"], .claiming "llama" "b--cuda0" ["GPU0"]] (by decide)
    (by decide) 0 30

/-- A request is placed on an empty router, which has no problems. -/
theorem decided_fit_sharedCard :
    ∃ s p job victims, (scheduler sharedCard).Reach
        (fun s a => foundUnwaited sharedCard s a = true) s ∧
      s.decision p = some (job, victims) ∧ s.view.problems = [] := by
  obtain ⟨s, hs, hP⟩ := reach_run sharedCard (foundUnwaited sharedCard) 0 nothingLoaded
    [.arrive "a--cuda0", .resume 1, .resume 1, .resume 1]
    (fun s => (s.decision 1).isSome) (by decide)
  obtain ⟨⟨job, victims⟩, hd⟩ := Option.isSome_iff_exists.1 hP
  exact ⟨s, 1, job, victims, hs, hd, decided_fit hs hd⟩

/-- A load fails with an unknown outcome while a request for the other model of
    the card waits. That request is then placed although the view has the
    problem. -/
theorem decided_unfit :
    ∃ s p job victims, (scheduler sharedCard).Free s ∧ s.decision p = some (job, victims) ∧
      s.view.problems ≠ [] := by
  obtain ⟨s, hs, hP⟩ := reach_run sharedCard (fun _ _ => true) 0 nothingLoaded
    [.arrive "a--cuda0", .resume 1, .resume 1, .resume 1, .resume 1,
      .arrive "b--cuda0", .resume 2, .resume 2, .resume 2, .resume 2, .resume 2,
      .run 0, .call 0 (.error "timed out"), .taskStates 0 (.error "timed out"), .resume 1,
      .resume 2, .resume 2, .resume 2, .resume 2, .activity 2 (.ok ⟨false, 0, 0⟩)]
    (fun s => (s.decision 2).isSome && !s.view.problems.isEmpty) (by decide +kernel)
  rw [Bool.and_eq_true] at hP
  obtain ⟨⟨job, victims⟩, hd⟩ := Option.isSome_iff_exists.1 hP.1
  exact ⟨s, 2, job, victims, hs.free, hd, by simpa using hP.2⟩

end ModelBroker
