import ModelBroker.Scheduler.Cases

/-!
# Conditions on runs

What an action is about to do in a state, as a test on the two. A statement
about the runs in which something does not happen takes the negation of such a
test as the condition of `System.Reach`.

* `State.reinspects`, `State.concludes`: a re-inspection starts, or its survey
  ends and is merged.
* `State.findsProblems`: `view.problems` receives a problem.
* `State.crashes`: a swap dies of the `KeyError` of `del self.loaded[…]`.
* `State.releases`: an admission to a model ends.
* `State.abandons`: a client's cancellation ends a `track` that has not reached
  every model that is still loading.
-/

namespace ModelBroker

namespace State

/-- `check_router` starts a re-inspection (lines 383–385). -/
def reinspects (s : State) : Act → Bool
  | .resume p =>
    match s.requests[p]? with
    | some (.checkLock _) => s.lockFree && !s.view.problems.isEmpty
    | _ => false
  | _ => false

/-- The survey that the action completes, which `reinspect` then merges. -/
def concludes (cfg : Config) (s : State) : Act → Option Survey
  | .resume p =>
    match s.requests[p]? with
    | some (.checkLock _) =>
      if s.lockFree && !s.view.problems.isEmpty then
        (surveyNext s.now {} cfg.adapters.entries).getLeft?
      else none
    | _ => none
  | .props p answer =>
    match s.requests[p]? with
    | some (.surveying _ i) => if i.props.isNone then (i.answerProps answer).getLeft? else none
    | _ => none
  | .states p answer =>
    match s.requests[p]? with
    | some (.surveying _ i) =>
      i.props.bind fun props => (i.answerStates cfg.catalogue props answer).getLeft?
    | _ => none
  | _ => none

/-- A load has failed and the server does not confirm that the model is
    unloaded, or a survey ends with problems. -/
def findsProblems (cfg : Config) (s : State) (a : Act) : Bool :=
  (match a with
    | .taskStates i answer =>
      match s.tasks[i]? with
      | some (.loadQuery model _ _) => !confirmsUnloaded (s.heap model).variant.id answer
      | _ => false
    | _ => false) ||
  (s.concludes cfg a).any fun found => !found.problems.isEmpty

/-- An unload returns for a victim that is no longer in `loaded`, or fails when
    the model to be loaded is not (lines 481 and 488). -/
def crashes (s : State) : Act → Bool
  | .call i answer =>
    match s.tasks[i]?, answer with
    | some (.swapUnload _ victim _ _), .ok _ => (s.recorded (s.heap victim).variant.id).isNone
    | some (.swapUnload _ _ _ model), .error _ => (s.recorded (s.heap model).variant.id).isNone
    | _, _ => false
  | _ => false

/-- The model to which an admission ends (lines 339–343). -/
def releases (s : State) : Act → Option Ref
  | .resume p | .cancel p =>
    match s.requests[p]? with
    | some (.admitted r) => some r
    | _ => none
  | _ => none

/-- A request is cancelled inside `track`, before every model still loading has
    its `finish_load` (lines 312–318). -/
def abandons (s : State) : Act → Bool
  | .cancel p =>
    match s.requests[p]? with
    | some (.tracking _ _ rest) => rest.any fun r => !(s.heap r).ready
    | _ => false
  | _ => false

end State

variable {cfg : Config} {s t : State} {a : Act}

theorem Surveys.concludes {p : ℕ} {q : Request} {variant : Variant} {found : Survey}
    (hq : s.requests[p]? = some q) (h : Surveys cfg s p a q variant (.inl found)) :
    s.concludes cfg a = some found := by
  generalize hnext : (Sum.inl found : Survey ⊕ Inspection) = next at h
  cases h with
  | start hfree hunfit => simp [State.concludes, hq, hfree, hunfit, ← hnext]
  | props hi => simp [State.concludes, hq, hi, ← hnext]
  | states hi => simp [State.concludes, hq, hi, ← hnext]

/-- The survey that an action completes is that of a request. -/
theorem surveys_of_concludes {found : Survey} (h : s.concludes cfg a = some found) :
    ∃ p q variant, s.requests[p]? = some q ∧ Surveys cfg s p a q variant (.inl found) := by
  have left : ∀ {next : Survey ⊕ Inspection}, next.getLeft? = some found → next = .inl found :=
    fun {next} hnext => by
      cases next with
      | inl found' => rw [Option.some.inj hnext]
      | inr i => cases hnext
  unfold State.concludes at h
  split at h
  · split at h
    · next p _ variant hp =>
      split_ifs at h with hre
      simp only [Bool.and_eq_true, Bool.not_eq_true', List.isEmpty_eq_false_iff] at hre
      exact ⟨p, _, variant, hp, left h ▸ .start hre.1 hre.2⟩
    · cases h
  · split at h
    · next p answer _ variant i hp =>
      split_ifs at h with hi
      exact ⟨p, _, variant, hp, left h ▸ .props (by simpa using hi)⟩
    · cases h
  · split at h
    · next p answer _ variant i hp =>
      obtain ⟨props, hi, hnext⟩ := Option.bind_eq_some_iff.1 h
      exact ⟨p, _, variant, hp, left hnext ▸ .states hi⟩
    · cases h
  · cases h

theorem reinspects_iff : s.reinspects a = true ↔
    ∃ p variant, a = .resume p ∧ s.requests[p]? = some (.checkLock variant) ∧
      s.lockFree = true ∧ s.view.problems ≠ [] := by
  unfold State.reinspects
  constructor
  · intro h
    split at h
    · split at h
      · next p _ variant hp =>
        simp only [Bool.and_eq_true, Bool.not_eq_true', List.isEmpty_eq_false_iff] at h
        exact ⟨p, variant, rfl, hp, h.1, h.2⟩
      · cases h
    · cases h
  · rintro ⟨p, variant, rfl, hp, hfree, hunfit⟩
    simp [hp, hfree, hunfit]

end ModelBroker
