import ModelBroker.Servers.Answers

/-!
# The adapter of the llama.cpp router

`LlamaAdapter` (`llama.py`, lines 99–207) as far as loads and unloads go. A call
sends one request and then reads `GET /models`, once or until its model is where
it should be. The answers come from outside, and a call that has not got all the
reports it needs has no outcome yet.

Results, for every answer to the request and every sequence of reports:
* `load_returns_iff`, `unload_returns_iff`: when a call returns.
* `unload_succeeds_iff`: `unload` returns whenever it reads that the model is
  unloaded, exactly if no report that it polls for shows the model as unloaded and
  failed. The flag of a failed load ends its polling early, although the refused
  request disregards it.
-/

namespace ModelBroker

open Python

/-- `LlamaAdapter` (lines 99–127), without its HTTP client. `__post_init__` admits no
    other timeouts. -/
structure LlamaAdapter where
  name : String := "router"
  stateTimeoutSeconds : Double
  positive : stateTimeoutSeconds.isPositive = true

/-- What comes of a request: a response with its status and text, or an
    `httpx.HTTPError`. -/
inductive Posted where
  | answered (statusCode : ℕ) (text : String)
  | failed (error : String)

/-- `response.is_error`. -/
def isErrorStatus (statusCode : ℕ) : Bool := 400 ≤ statusCode && statusCode ≤ 599

/-- The router accepts the request. -/
def Posted.accepted : Posted → Bool
  | answered statusCode _ => !isErrorStatus statusCode
  | failed _ => false

/-- A report: what `get_json("/models")` returns or raises, when it was read, and when
    the loop of `wait_for_state` looks at the clock after it. -/
structure Report where
  document : Except Raised Json
  readAt : ℚ
  checkedAt : ℚ

/-- `model_states` (lines 151–152). -/
def Report.states (report : Report) : Except Raised (Dict String ModelState) :=
  report.document >>= parseModelStates

/-- The report shows a model in a state. -/
def Report.Shows (report : Report) (modelId : String) (state : ModelState) : Prop :=
  ∃ states, report.states = .ok states ∧ states.get modelId = some state

/-- It shows a model in one state. -/
theorem Report.Shows.unique {report : Report} {modelId : String} {state state' : ModelState}
    (h : report.Shows modelId state) (h' : report.Shows modelId state') : state = state' := by
  obtain ⟨states, hstates, hget⟩ := h
  obtain ⟨states', hstates', hget'⟩ := h'
  cases hstates.symm.trans hstates'
  exact Option.some.inj (hget.symm.trans hget')

namespace LlamaAdapter

/-- `model_state` (lines 154–158). -/
def modelState (a : LlamaAdapter) (modelId : String) (report : Report) : Except Raised ModelState := do
  let states ← report.states
  match states.get modelId with
  | some state => .ok state
  | none => .error (.llamaError (a.name ++ " does not list model " ++ Python.repr modelId))

/-- The deadline of `wait_for_state` (line 193); an infinite timeout has none. -/
def deadline (a : LlamaAdapter) (start : ℚ) : Option ℚ :=
  match a.stateTimeoutSeconds with
  | .finite seconds => some (start + seconds)
  | _ => none

/-- One round of `wait_for_state` (lines 195–207): it returns, raises, or sleeps and
    polls again. -/
def pollState (a : LlamaAdapter) (modelId expected : String) (start : ℚ) (report : Report) :
    Option (Except Raised Unit) :=
  match a.modelState modelId report with
  | .error e => some (.error e)
  | .ok state =>
    if state.failed then
      some (.error (.llamaError (a.name ++ " model " ++ Python.repr modelId ++
        " failed to load (exit code " ++ (state.exitCode.map toString).getD "None" ++ ")")))
    else if state.value = expected then some (.ok ())
    else if (a.deadline start).any (· ≤ report.checkedAt) then
      some (.error (.llamaError (a.name ++ " model " ++ Python.repr modelId ++
        " did not become " ++ Python.repr expected ++ " within " ++
        a.stateTimeoutSeconds.formatG ++ "s; last state was " ++ Python.repr state.value)))
    else none

/-- `wait_for_state` (lines 191–207): the first round that ends it. -/
def waitForState (a : LlamaAdapter) (modelId expected : String) (start : ℚ)
    (reports : List Report) : Option (Except Raised Unit) :=
  reports.findSome? (a.pollState modelId expected start)

/-- The error of a request that was not sent or answered (line 164). -/
def postFailed (a : LlamaAdapter) (action error : String) : Raised :=
  .llamaError (a.name ++ " POST /models/" ++ action ++ " failed: " ++ error)

/-- The error of a refused request (lines 170–172 and 185–188). -/
def refused (a : LlamaAdapter) (action modelId : String) (statusCode : ℕ) (text : String) : Raised :=
  .llamaError (a.name ++ " refused to " ++ action ++ " " ++ Python.repr modelId ++ ": " ++
    toString statusCode ++ " " ++ text)

/-- `load` (lines 166–173). -/
def load (a : LlamaAdapter) (modelId : String) (posted : Posted) (start : ℚ)
    (reports : List Report) : Option (Except Raised Unit) :=
  match posted with
  | .failed error => some (.error (a.postFailed "load" error))
  | .answered statusCode text =>
    if isErrorStatus statusCode then some (.error (a.refused "load" modelId statusCode text))
    else a.waitForState modelId "loaded" start reports

/-- What `unload` makes of the report after a refused request (lines 183–188). -/
def afterRefusal (a : LlamaAdapter) (modelId : String) (statusCode : ℕ) (text : String)
    (report : Report) : Except Raised Unit := do
  let state ← a.modelState modelId report
  if state.value = "unloaded" then .ok ()
  else .error (a.refused "unload" modelId statusCode text)

/-- `unload` (lines 175–189). -/
def unload (a : LlamaAdapter) (modelId : String) (posted : Posted) (start : ℚ)
    (reports : List Report) : Option (Except Raised Unit) :=
  match posted with
  | .failed error => some (.error (a.postFailed "unload" error))
  | .answered statusCode text =>
    if isErrorStatus statusCode then reports.head?.map (a.afterRefusal modelId statusCode text)
    else a.waitForState modelId "unloaded" start reports

/-! ## Rounds -/

theorem modelState_eq_ok {a : LlamaAdapter} {modelId : String} {report : Report}
    {state : ModelState} : a.modelState modelId report = .ok state ↔ report.Shows modelId state := by
  unfold modelState Report.Shows
  rw [except_bind_ok]
  refine exists_congr fun states => and_congr_right fun _ => ?_
  cases states.get modelId with
  | none => exact ⟨nofun, nofun⟩
  | some found =>
    exact ⟨fun h => congrArg some (Except.ok.inj h), fun h => congrArg _ (Option.some.inj h)⟩

/-- A report that lets the loop go on: the model has not failed and is not yet where
    it should be, and there is time left. -/
def Pending (a : LlamaAdapter) (modelId expected : String) (start : ℚ) (report : Report) : Prop :=
  ∃ state, report.Shows modelId state ∧ state.failed = false ∧ state.value ≠ expected ∧
    (a.deadline start).any (· ≤ report.checkedAt) = false

/-- A report that the loop returns on. -/
def Arrived (modelId expected : String) (report : Report) : Prop :=
  ∃ state, report.Shows modelId state ∧ state.failed = false ∧ state.value = expected

/-- The two outcomes of a round that are not errors, by the state that the report shows. -/
theorem pollState_cases (a : LlamaAdapter) (modelId expected : String) (start : ℚ)
    (report : Report) :
    (a.pollState modelId expected start report = none ↔ a.Pending modelId expected start report) ∧
      (a.pollState modelId expected start report = some (.ok ()) ↔
        Arrived modelId expected report) := by
  unfold pollState Pending Arrived
  cases hstate : a.modelState modelId report with
  | error e =>
    have hnone : ∀ state, ¬ report.Shows modelId state := by
      intro state hshows
      rw [modelState_eq_ok.2 hshows] at hstate
      cases hstate
    simp [hnone]
  | ok state =>
    have hshows : ∀ other, report.Shows modelId other ↔ other = state := by
      intro other
      rw [← modelState_eq_ok (a := a), hstate, Except.ok.injEq, eq_comm]
    simp only [hshows, exists_eq_left]
    split_ifs with hfailed hvalue htime <;> simp_all

/-- The first `k` reports let the loop go on. -/
theorem waitForState_eq_none {a : LlamaAdapter} {modelId expected : String} {start : ℚ}
    {reports : ℕ → Report} {k : ℕ} :
    a.waitForState modelId expected start ((List.range k).map reports) = none ↔
      ∀ j < k, a.Pending modelId expected start (reports j) := by
  simp [waitForState, (pollState_cases a modelId expected start _).1]

/-- One more report. -/
theorem waitForState_succ (a : LlamaAdapter) (modelId expected : String) (start : ℚ)
    (reports : ℕ → Report) (k : ℕ) :
    a.waitForState modelId expected start ((List.range (k + 1)).map reports) =
      (a.waitForState modelId expected start ((List.range k).map reports)).or
        (a.pollState modelId expected start (reports k)) := by
  rw [waitForState, List.range_succ, List.map_append, List.findSome?_append]
  cases h : a.pollState modelId expected start (reports k) <;> simp [waitForState, h]

/-- The loop returns on the first report that does not let it go on. -/
theorem waitForState_eq_ok {a : LlamaAdapter} {modelId expected : String} {start : ℚ}
    {reports : ℕ → Report} {k : ℕ} :
    a.waitForState modelId expected start ((List.range k).map reports) = some (.ok ()) ↔
      ∃ i < k, (∀ j < i, a.Pending modelId expected start (reports j)) ∧
        Arrived modelId expected (reports i) := by
  induction k with
  | zero => simp [waitForState]
  | succ k ih =>
    rw [waitForState_succ, Option.or_eq_some_iff, ih, waitForState_eq_none,
      (pollState_cases a modelId expected start (reports k)).2]
    constructor
    · rintro (⟨i, hi, h⟩ | h)
      · exact ⟨i, by omega, h⟩
      · exact ⟨k, by omega, h⟩
    · rintro ⟨i, hi, h⟩
      rcases Nat.lt_succ_iff_lt_or_eq.1 hi with hlt | rfl
      · exact .inl ⟨i, hlt, h⟩
      · exact .inr h

/-- When `load` returns: no report before the first that shows the model as loaded has
    it as failed. -/
theorem load_returns_iff {a : LlamaAdapter} {modelId : String} {posted : Posted} {start : ℚ}
    {reports : ℕ → Report} :
    (∃ k, a.load modelId posted start ((List.range k).map reports) = some (.ok ())) ↔
      posted.accepted = true ∧ ∃ k, (∀ j < k, a.Pending modelId "loaded" start (reports j)) ∧
        Arrived modelId "loaded" (reports k) := by
  cases posted with
  | failed error => simp [load, Posted.accepted]
  | answered statusCode text =>
    cases herror : isErrorStatus statusCode with
    | true => simp [load, Posted.accepted, herror]
    | false =>
      simp only [load, Posted.accepted, herror, Bool.false_eq_true, if_false, waitForState_eq_ok]
      exact ⟨fun ⟨_, i, _, h⟩ => ⟨rfl, i, h⟩, fun ⟨_, i, h⟩ => ⟨i + 1, i, by omega, h⟩⟩

/-! ## Unloading -/

section Unload

variable (a : LlamaAdapter) (modelId : String) (posted : Posted) (start : ℚ) (reports : ℕ → Report)

/-- `unload` reads a report: those before it have not ended the call. -/
def Reads (k : ℕ) : Prop := a.unload modelId posted start ((List.range k).map reports) = none

/-- `unload` returns normally. -/
def Returns : Prop :=
  ∃ k, a.unload modelId posted start ((List.range k).map reports) = some (.ok ())

/-- A report is read no later than the deadline. A refused request has none. -/
def InTime (k : ℕ) : Prop :=
  posted.accepted = true → (a.deadline start).all ((reports k).readAt ≤ ·) = true

/-- A report shows the model as unloaded. -/
def ShowsUnloaded (report : Report) : Prop :=
  ∃ state, report.Shows modelId state ∧ state.value = "unloaded"

variable {a modelId posted start reports}

theorem Arrived.showsUnloaded {report : Report} (h : Arrived modelId "unloaded" report) :
    ShowsUnloaded modelId report := by
  obtain ⟨state, hshows, -, hvalue⟩ := h
  exact ⟨state, hshows, hvalue⟩

/-- The loop goes on only while the model is not unloaded. -/
theorem Pending.not_showsUnloaded {report : Report}
    (h : a.Pending modelId "unloaded" start report) : ¬ ShowsUnloaded modelId report := by
  rintro ⟨state, hshows, hvalue⟩
  obtain ⟨pending, hpending, -, hnot, -⟩ := h
  rw [hpending.unique hshows] at hnot
  exact hnot hvalue

/-- So it takes the first report that shows the model as unloaded. -/
theorem first_unloaded {k k' : ℕ} (h : ∀ j < k, a.Pending modelId "unloaded" start (reports j))
    (h' : ∀ j < k', a.Pending modelId "unloaded" start (reports j))
    (hk : ShowsUnloaded modelId (reports k)) (hk' : ShowsUnloaded modelId (reports k')) : k = k' := by
  rcases Nat.lt_trichotomy k k' with hlt | heq | hlt
  · exact absurd hk (h' k hlt).not_showsUnloaded
  · exact heq
  · exact absurd hk' (h k' hlt).not_showsUnloaded

theorem afterRefusal_eq_ok {statusCode : ℕ} {text : String} {report : Report} :
    a.afterRefusal modelId statusCode text report = .ok () ↔ ShowsUnloaded modelId report := by
  unfold afterRefusal ShowsUnloaded
  rw [except_bind_ok]
  refine exists_congr fun state => ?_
  rw [modelState_eq_ok]
  refine and_congr_right fun _ => ?_
  split_ifs with h <;> simp [h]

/-- After an accepted request, `unload` is `wait_for_state`. -/
theorem unload_accepted (h : posted.accepted = true) (received : List Report) :
    a.unload modelId posted start received = a.waitForState modelId "unloaded" start received := by
  cases posted with
  | failed error => cases h
  | answered statusCode text =>
    rw [Posted.accepted, Bool.not_eq_true'] at h
    simp [unload, h]

theorem reads_accepted (h : posted.accepted = true) (k : ℕ) :
    a.Reads modelId posted start reports k ↔
      ∀ j < k, a.Pending modelId "unloaded" start (reports j) := by
  rw [Reads, unload_accepted h, waitForState_eq_none]

/-- When `unload` returns. After an accepted request it takes the first report that
    is not pending, after a refused one the first report. -/
theorem unload_returns_iff :
    a.Returns modelId posted start reports ↔
      match posted with
      | .failed _ => False
      | .answered statusCode _ =>
        if isErrorStatus statusCode then ShowsUnloaded modelId (reports 0)
        else ∃ k, (∀ j < k, a.Pending modelId "unloaded" start (reports j)) ∧
          Arrived modelId "unloaded" (reports k) := by
  cases posted with
  | failed error => simp [Returns, unload]
  | answered statusCode text =>
    dsimp only
    split_ifs with herror
    · rw [← @afterRefusal_eq_ok a modelId statusCode text]
      constructor
      · rintro ⟨k, h⟩
        cases k with
        | zero => simp [unload, herror] at h
        | succ k => simpa [unload, herror, List.range_succ_eq_map] using h
      · intro h
        exact ⟨1, by simp [unload, herror, h]⟩
    · have haccepted : (Posted.answered statusCode text).accepted = true := by
        simp [Posted.accepted, herror]
      simp only [Returns, unload_accepted haccepted, waitForState_eq_ok]
      exact ⟨fun ⟨_, i, _, h⟩ => ⟨i, h⟩, fun ⟨i, h⟩ => ⟨i + 1, i, by omega, h⟩⟩

/-- A refused request is followed by one report. -/
theorem reads_refused (h : posted.accepted = false) {k : ℕ}
    (hreads : a.Reads modelId posted start reports k) :
    k = 0 ∧ (ShowsUnloaded modelId (reports 0) → a.Returns modelId posted start reports) := by
  cases posted with
  | failed error => cases hreads
  | answered statusCode text =>
    rw [Posted.accepted, Bool.not_eq_false'] at h
    refine ⟨?_, fun hunloaded => ?_⟩
    · cases k with
      | zero => rfl
      | succ k => simp [Reads, unload, h, List.range_succ_eq_map] at hreads
    · rw [unload_returns_iff]
      simpa [h] using hunloaded

/-- It returns only after it has read that the model is unloaded. -/
theorem showsUnloaded_of_returns (h : a.Returns modelId posted start reports) :
    ∃ k, a.Reads modelId posted start reports k ∧ ShowsUnloaded modelId (reports k) := by
  have hcases := unload_returns_iff.1 h
  cases hposted : posted with
  | failed error => simp [hposted] at hcases
  | answered statusCode text =>
    simp only [hposted] at hcases
    split_ifs at hcases with herror
    · exact ⟨0, by simp [Reads, unload, herror], hcases⟩
    · obtain ⟨k, hpending, harrived⟩ := hcases
      have haccepted : (Posted.answered statusCode text).accepted = true := by
        simp [Posted.accepted, herror]
      exact ⟨k, (reads_accepted haccepted k).2 hpending, harrived.showsUnloaded⟩

variable (a modelId posted start reports)

/-- No report that is polled for in time shows the model as unloaded and failed. -/
def NoneFailed : Prop :=
  posted.accepted = true → ∀ k, (∀ j < k, a.Pending modelId "unloaded" start (reports j)) →
    a.InTime posted start reports k →
    ∀ state, (reports k).Shows modelId state → state.value = "unloaded" → state.failed = false

/-- For every answer and every sequence of reports: `unload` returns whenever it reads
    in time that the model is unloaded, and only then, exactly if no report that is
    polled for shows it as unloaded and failed. -/
theorem unload_succeeds_iff :
    ((∀ k, a.Reads modelId posted start reports k → a.InTime posted start reports k →
        ShowsUnloaded modelId (reports k) → a.Returns modelId posted start reports) ∧
      (a.Returns modelId posted start reports →
        ∃ k, a.Reads modelId posted start reports k ∧ ShowsUnloaded modelId (reports k))) ↔
    a.NoneFailed modelId posted start reports := by
  rw [and_iff_left showsUnloaded_of_returns]
  constructor
  · intro hreturns haccepted k hpending htime state hshows hvalue
    by_contra hfailed
    have hreads := (reads_accepted haccepted k).2 hpending
    obtain ⟨i, hi⟩ := hreturns k hreads htime ⟨state, hshows, hvalue⟩
    rw [unload_accepted haccepted, waitForState_eq_ok] at hi
    obtain ⟨k', -, hpending', state', hshows', hnot, hvalue'⟩ := hi
    obtain rfl := first_unloaded hpending hpending' ⟨state, hshows, hvalue⟩ ⟨state', hshows', hvalue'⟩
    rw [hshows.unique hshows'] at hfailed
    exact hfailed hnot
  · intro hnone k hreads htime hunloaded
    cases haccepted : posted.accepted with
    | false =>
      obtain ⟨rfl, hreturns⟩ := reads_refused haccepted hreads
      exact hreturns hunloaded
    | true =>
      obtain ⟨state, hshows, hvalue⟩ := hunloaded
      have hpending := (reads_accepted haccepted k).1 hreads
      have harrived : Arrived modelId "unloaded" (reports k) :=
        ⟨state, hshows, hnone haccepted k hpending htime state hshows hvalue, hvalue⟩
      exact ⟨k + 1, by
        rw [unload_accepted haccepted, waitForState_eq_ok]
        exact ⟨k, by omega, hpending, harrived⟩⟩

end Unload

/-- The default adapter. -/
def standard : LlamaAdapter := ⟨"router", .finite 60, by decide⟩

/-- The worker of model `m` has exited with code 1 while it was unloaded. -/
def workerFailed : Report where
  document := .ok (.obj [("data", .arr [.obj [("id", .str "m"), ("status",
    .obj [("value", .str "unloaded"), ("failed", .bool true), ("exit_code", .int 1)])]])])
  readAt := 1
  checkedAt := 1

theorem workerFailed_shows : workerFailed.Shows "m" ⟨"unloaded", true, some 1⟩ :=
  ⟨.ofList [("m", ⟨"unloaded", true, some 1⟩)], by rfl, by rfl⟩

/-- The router accepts to unload `m` and reports it as unloaded, which ends the call
    with the error of a failed load. -/
theorem unload_fails_on_exit_code :
    ¬ ∀ (a : LlamaAdapter) (modelId : String) (posted : Posted) (start : ℚ) (reports : ℕ → Report),
      (∀ k, a.Reads modelId posted start reports k → a.InTime posted start reports k →
        ShowsUnloaded modelId (reports k) → a.Returns modelId posted start reports) ∧
      (a.Returns modelId posted start reports →
        ∃ k, a.Reads modelId posted start reports k ∧ ShowsUnloaded modelId (reports k)) := by
  intro h
  have hreturns := (h standard "m" (.answered 200 "") 0 fun _ => workerFailed).1 0 rfl
    (fun _ => by decide +kernel) ⟨_, workerFailed_shows, rfl⟩
  obtain ⟨k, -, state, hshows, hnot, -⟩ := unload_returns_iff.1 hreturns
  rw [hshows.unique workerFailed_shows] at hnot
  cases hnot

end LlamaAdapter

end ModelBroker
