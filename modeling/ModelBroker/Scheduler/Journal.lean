import ModelBroker.Scheduler.Asking
import ModelBroker.Scheduler.Counts
import ModelBroker.Scheduler.Fitness
import Mathlib.Algebra.BigOperators.Group.Finset.Piecewise

/-!
# The scheduler's log

The events that `scheduler.py` emits (`events.py`, lines 131–260), each with the request
whose `RequestContext` it carries: a background task inherits the context of the request
that has started it. The log is the one at level `DEBUG`, for which `emit` (lines 58–60)
drops nothing. The durations are left out.

* `admissions_told`: the log tells of every call of `admit` what it has waited for and how
  it has gone so far, and leaves as many admissions open as are held.
-/

namespace ModelBroker

/-! ## Events -/

namespace Log

inductive Event
  | modelAdopted (model state : String)
  | routerProblemsFound (problems : List String)
  | routerProblemsCleared (routerBuild : Option String)
  | requestAdmitted (model : String)
  | requestWaiting (model reason : String)
  | requestRefused (model cause detail : String)
  | requestFinished (model : String)
  | swapStarted (model : String) (unloading : List String)
  | modelUnloaded (model : String)
  | modelUnloadFailed (model error : String)
  | modelLoaded (model : String)
  | modelLoadFailed (model error : String) (released : Bool)
  | modelObserved (model : String) (activity : ModelActivity) (recentlyActive : Bool)
  | modelUnobservable (model error : String)
  | baselineRecorded (model : String) (decodeCalls : Option ℤ)
  deriving DecidableEq

/-- An event with the number of the request in whose context it was emitted. That of
    `start()` has none, and is 0 here. -/
structure Line where
  cause : ℕ
  event : Event
  deriving DecidableEq

/-- The log. Beside it stand the model that each request names, the variable `reported` of
    its `acquire` (line 353), and the request in whose context each background task runs. -/
structure Journal where
  lines : List Line := []
  asked : List String := []
  reported : ℕ → String := fun _ => ""
  causes : List ℕ := []

end Log

open Log

variable (cfg : Config)

/-- The events of `track` (lines 312–317) up to its first `await`. -/
def trackLog (heap : Ref → LoadedModel) : List Ref → List Log.Event
  | [] => []
  | model :: rest =>
    if (heap model).ready then [.modelAdopted (heap model).variant.id "loaded"]
    else .modelAdopted (heap model).variant.id "loading" :: trackLog heap rest

/-- The events of `reinspect` (lines 413–417) after its survey. -/
def installLog (s : State) (found : Survey) : List Log.Event :=
  (if found.problems = [] then .routerProblemsCleared (Python.orElse found.build s.view.build)
    else .routerProblemsFound found.problems) :: trackLog (adopt s found) (newModels s found)

/-- The event of `record_baseline` (line 557). -/
def baselineLog (model : LoadedModel) (answer : Except String ModelActivity) : Log.Event :=
  .baselineRecorded model.variant.id (model.withBaseline answer).decodeCalls

/-- The event of `busy` after an observation (lines 572–584). -/
def observeLog (model : LoadedModel) : Except String ModelActivity → Log.Event
  | .error error => .modelUnobservable model.variant.id error
  | .ok activity =>
    .modelObserved model.variant.id activity (model.decodeCalls ≠ some activity.decodeCalls)

/-- The events of `load_failed` (lines 536–545) after its `await`. -/
def queriedLog (s : State) (model : Ref) (error : String)
    (answer : Except String (Dict String ModelState)) : List Log.Event :=
  let id := (s.heap model).variant.id
  let released := confirmsUnloaded id answer
  .modelLoadFailed id error released ::
    if released then []
    else [.routerProblemsFound (s.view.problems ++ [unconfirmed id error])]

/-- What a request's step emits inside `acquire`, or in `start()`. -/
def requestLog (s : State) (p : ℕ) (a : Act) : List Log.Event :=
  (s.concludes cfg a).elim [] (installLog s) ++
  match s.requests[p]?, a with
  | some (.judging _ _), .resume _ =>
    (s.decision p).elim [] fun d =>
      [.swapStarted d.1.variant.id (d.2.map fun r => (s.heap r).variant.id)]
  | some (.tracking _ model rest), .activity _ answer =>
    baselineLog (s.heap model) answer :: trackLog s.heap rest
  | some (.observing _ _ model), .activity _ answer => [observeLog (s.heap model) answer]
  | _, _ => []

/-- What a background task's step emits. -/
def taskLog (s : State) (i : ℕ) (a : Act) : List Log.Event :=
  match s.tasks[i]?, a with
  | some (.swapUnload _ victim _ _), .call _ (.ok _) =>
    let id := (s.heap victim).variant.id
    if (s.recorded id).isSome then [.modelUnloaded id] else []
  | some (.swapUnload _ victim _ _), .call _ (.error error) =>
    [.modelUnloadFailed (s.heap victim).variant.id error]
  | some (.swapLoad model), .call _ (.ok _) | some (.finishWait model), .call _ (.ok _) =>
    [.modelLoaded (s.heap model).variant.id]
  | some (.loadQuery model error _), .taskStates _ answer => queriedLog s model error answer
  | some (.loadBaseline model _), .taskActivity _ answer => [baselineLog (s.heap model) answer]
  | _, _ => []

/-- `snake_case(type(error).__name__)` and `str(error)` of a `SchedulerError`. -/
def Outcome.refusal? : Outcome → Option (String × String)
  | .unknownModel id => some ("unknown_model", id)
  | .routerUnfit problems => some ("router_unfit", String.intercalate "; " problems)
  | .resourceBusy reason _ => some ("resource_busy", reason)
  | .loadFailed error => some ("load_failed", error)
  | .started | .released | .cancelled | .valueError | .overflowError => none

/-- What `admit(id)` (lines 325–343) emits when its request goes from `q` to `q'`. -/
def admitLog (id : String) (q q' : Request) : List Log.Event :=
  match q, q' with
  | .admitted _, .finished _ => [.requestFinished id]
  | _, .admitted _ => [.requestAdmitted id]
  | _, .finished outcome => (outcome.refusal?.map fun r => .requestRefused id r.1 r.2).toList
  | _, _ => []

/-- The reason of a blocked request that does not look again at once (line 365). -/
def State.reports (s : State) (p : ℕ) : Act → Option String
  | .resume _ =>
    match s.requests[p]? with
    | some (.blocked _ placed) =>
      if placed.untilTime.any (· ≤ (s.now : Seconds)) then none else some placed.reason
    | _ => none
  | _ => none

/-- What `acquire(id)` emits when the reason changes (lines 366–368). -/
def waitLog (id reported reason : String) : List Log.Event :=
  if reason ≠ reported then [.requestWaiting id reason] else []

/-- The log after a step from `s` to `t`. -/
def Log.Journal.note (s : State) (a : Act) (t : State) (j : Journal) : Journal :=
  match a with
  | .tick _ => j
  | .arrive id => { j with asked := j.asked ++ [id] }
  | .resume p | .cancel p | .props p _ | .states p _ | .activity p _ =>
    let id := j.asked[p]?.getD ""
    let reason := (s.reports p a).getD (j.reported p)
    let admission := waitLog id (j.reported p) reason ++
      admitLog id (s.requests[p]?.getD (.arrived "")) (t.requests[p]?.getD (.arrived ""))
    { j with
      lines := j.lines ++ (requestLog cfg s p a ++ admission).map (Line.mk p)
      reported := Function.update j.reported p reason
      causes := j.causes ++ List.replicate (t.tasks.length - s.tasks.length) p }
  | .run i | .call i _ | .taskStates i _ | .taskActivity i _ =>
    { j with lines := j.lines ++ (taskLog s i a).map (Line.mk (j.causes[i]?.getD 0)) }

/-- The log at the first `await` of `start()`. -/
def Log.Journal.opening (now : ℚ) (found : Survey) : Journal where
  lines := (trackLog (booted now found).heap (booted now found).view.loaded.values).map (Line.mk 0)
  asked := [""]
  causes := List.replicate (initial now found).tasks.length 0

/-- The scheduler with its log. -/
def journalled : System (State × Journal) (Act ⊕ Empty) :=
  (scheduler cfg).under (.history (Journal.note cfg)) fun s j =>
    ∃ now found, s = initial now found ∧ j = .opening now found

variable {cfg} {s t : State} {a : Act} {p i : ℕ} {id : String} {q q' : Request} {j : Journal}

/-! ## What a step adds -/

theorem note_arrive : j.note cfg s (.arrive id) t = { j with asked := j.asked ++ [id] } := rfl

theorem note_request (ha : a.request? = some p) (hp : j.asked[p]? = some id)
    (hq : s.requests[p]? = some q) (hq' : t.requests[p]? = some q') :
    j.note cfg s a t = { j with
      lines := j.lines ++ (requestLog cfg s p a ++ (waitLog id (j.reported p)
        ((s.reports p a).getD (j.reported p)) ++ admitLog id q q')).map (Line.mk p)
      reported := Function.update j.reported p ((s.reports p a).getD (j.reported p))
      causes := j.causes ++ List.replicate (t.tasks.length - s.tasks.length) p } := by
  cases a with
  | resume | cancel | props | states | activity =>
    cases ha
    simp [Journal.note, hp, hq, hq']
  | tick | arrive | run | call | taskStates | taskActivity => cases ha

theorem note_task (ha : a.task? = some i) (hi : j.causes[i]? = some p) :
    j.note cfg s a t = { j with lines := j.lines ++ (taskLog s i a).map (Line.mk p) } := by
  cases a with
  | run | call | taskStates | taskActivity =>
    cases ha
    simp [Journal.note, hi]
  | tick | arrive | resume | cancel | props | states | activity => cases ha

/-- Whose action it is. -/
theorem Act.actor (a : Act) : (∃ seconds, a = .tick seconds) ∨ (∃ id, a = .arrive id) ∨
    (∃ p, a.request? = some p) ∨ ∃ i, a.task? = some i := by
  cases a with
  | tick => exact .inl ⟨_, rfl⟩
  | arrive => exact .inr (.inl ⟨_, rfl⟩)
  | resume | cancel | props | states | activity => exact .inr (.inr (.inl ⟨_, rfl⟩))
  | run | call | taskStates | taskActivity => exact .inr (.inr (.inr ⟨_, rfl⟩))

theorem mem_trackLog {heap : Ref → LoadedModel} {models : List Ref} {e : Log.Event}
    (h : e ∈ trackLog heap models) : ∃ r ∈ models, e = .modelAdopted (heap r).variant.id
      (if (heap r).ready then "loaded" else "loading") := by
  induction models with
  | nil => cases h
  | cons r models ih =>
    unfold trackLog at h
    split_ifs at h with hready
    · exact ⟨r, List.mem_cons_self, by rw [List.mem_singleton.1 h, if_pos hready]⟩
    · rcases List.mem_cons.1 h with rfl | h
      · exact ⟨r, List.mem_cons_self, by rw [if_neg hready]⟩
      · obtain ⟨r', hr', heq⟩ := ih h
        exact ⟨r', List.mem_cons_of_mem _ hr', heq⟩

/-- What a request's step can emit inside `acquire`. -/
inductive Emits (s : State) (p : ℕ) (a : Act) : Log.Event → Prop
  | found {problems : List String} : Emits s p a (.routerProblemsFound problems)
  | cleared {build : Option String} : Emits s p a (.routerProblemsCleared build)
  | adopted {m state : String} : Emits s p a (.modelAdopted m state)
  | swap {job : Job} {victims : List Ref} (ha : a = .resume p)
      (hd : s.decision p = some (job, victims)) :
      Emits s p a (.swapStarted job.variant.id (victims.map fun r => (s.heap r).variant.id))
  | baseline {after : Option Variant} {r : Ref} {rest : List Ref}
      {answer : Except String ModelActivity} (hq : s.requests[p]? = some (.tracking after r rest)) :
      Emits s p a (baselineLog (s.heap r) answer)
  | observed {job : Job} {look : Look} {r : Ref} {answer : Except String ModelActivity}
      (hq : s.requests[p]? = some (.observing job look r)) :
      Emits s p a (observeLog (s.heap r) answer)

theorem emits_of_track {heap : Ref → LoadedModel} {models : List Ref} {e : Log.Event}
    (h : e ∈ trackLog heap models) : Emits s p a e := by
  obtain ⟨r, -, rfl⟩ := mem_trackLog h
  exact .adopted

theorem emits (ha : a.request? = some p) {e : Log.Event} (h : e ∈ requestLog cfg s p a) :
    Emits s p a e := by
  unfold requestLog at h
  rw [List.mem_append] at h
  rcases h with h | h
  · cases hfound : s.concludes cfg a with
    | none =>
      rw [hfound] at h
      cases h
    | some found =>
      rw [hfound] at h
      rcases List.mem_cons.1 h with rfl | h
      · split_ifs
        · exact .cleared
        · exact .found
      · exact emits_of_track h
  · split at h
    · next job look p' hq =>
      obtain rfl : p' = p := Option.some.inj ha
      cases hd : s.decision p' with
      | none =>
        rw [hd] at h
        cases h
      | some d =>
        rw [hd] at h
        obtain rfl := List.mem_singleton.1 h
        exact .swap rfl hd
    · next hq =>
      rcases List.mem_cons.1 h with rfl | h
      · exact .baseline hq
      · exact emits_of_track h
    · next hq =>
      obtain rfl := List.mem_singleton.1 h
      exact .observed hq
    · cases h

/-- What a task's step can emit. -/
inductive TaskEmits (s : State) (i : ℕ) : Log.Event → Prop
  | unloaded {done rest : List Ref} {victim model : Ref}
      (hi : s.tasks[i]? = some (.swapUnload done victim rest model)) :
      TaskEmits s i (.modelUnloaded (s.heap victim).variant.id)
  | unloadFailed {done rest : List Ref} {victim model : Ref} {error : String}
      (hi : s.tasks[i]? = some (.swapUnload done victim rest model)) :
      TaskEmits s i (.modelUnloadFailed (s.heap victim).variant.id error)
  | loaded {k : Task} {model : Ref} (hi : s.tasks[i]? = some k)
      (hk : k = .swapLoad model ∨ k = .finishWait model) :
      TaskEmits s i (.modelLoaded (s.heap model).variant.id)
  | failed {model : Ref} {error : String} {loader : Loader} {released : Bool}
      (hi : s.tasks[i]? = some (.loadQuery model error loader)) :
      TaskEmits s i (.modelLoadFailed (s.heap model).variant.id error released)
  | found {problems : List String} : TaskEmits s i (.routerProblemsFound problems)
  | baseline {model : Ref} {loader : Loader} {answer : Except String ModelActivity}
      (hi : s.tasks[i]? = some (.loadBaseline model loader)) :
      TaskEmits s i (baselineLog (s.heap model) answer)

theorem taskEmits {e : Log.Event} (h : e ∈ taskLog s i a) : TaskEmits s i e := by
  unfold taskLog at h
  split at h
  · next hi =>
    dsimp only at h
    split_ifs at h
    · obtain rfl := List.mem_singleton.1 h
      exact .unloaded hi
    · cases h
  · next hi =>
    obtain rfl := List.mem_singleton.1 h
    exact .unloadFailed hi
  · next hi =>
    obtain rfl := List.mem_singleton.1 h
    exact .loaded hi (.inl rfl)
  · next hi =>
    obtain rfl := List.mem_singleton.1 h
    exact .loaded hi (.inr rfl)
  · next hi =>
    rcases List.mem_cons.1 h with rfl | h
    · exact .failed hi
    · split_ifs at h
      · cases h
      · obtain rfl := List.mem_singleton.1 h
        exact .found
  · next hi =>
    obtain rfl := List.mem_singleton.1 h
    exact .baseline hi
  · cases h

/-! ## What the log says of a call of `admit` -/

/-- The event is one of `admit`, or of its call of `acquire`. -/
def Log.Event.admission : Log.Event → Bool
  | .requestAdmitted _ | .requestWaiting _ _ | .requestRefused _ _ _ | .requestFinished _ => true
  | _ => false

/-- The event, if it is one of the call of `admit` by this request. -/
def Log.Line.admission? (p : ℕ) (l : Line) : Option Log.Event :=
  if l.cause = p && l.event.admission then some l.event else none

/-- What the log says of the call of `admit` by a request. -/
def Log.Journal.admissions (j : Journal) (p : ℕ) : List Log.Event :=
  j.lines.filterMap (·.admission? p)

/-- What there is to say of the outcome of a call of `admit(id)` that has come to this point,
    `reported` being the last reason for which it has waited. -/
def Request.Closed (id reported : String) (q : Request) (events : List Log.Event) : Prop :=
  match q with
  | .admitted _ => events = [.requestAdmitted id]
  | .finished .released => events = [.requestAdmitted id, .requestFinished id]
  | .finished .cancelled => events = [] ∨ events = [.requestAdmitted id, .requestFinished id]
  | .finished (.resourceBusy reason _) =>
    events = [.requestRefused id "resource_busy" reason] ∧ reason = reported
  | .finished outcome =>
    events = (outcome.refusal?.map fun r => .requestRefused id r.1 r.2).toList
  | _ => events = []

/-- What there is to say of the call: the reasons for which it has waited, each one another
    than the last, and its outcome. -/
def Request.Told (id reported : String) (q : Request) (events : List Log.Event) : Prop :=
  ∃ reasons outcome, events = reasons.map (.requestWaiting id) ++ outcome ∧
    ("" :: reasons).IsChain (· ≠ ·) ∧ reasons.getLastD "" = reported ∧
    q.Closed id reported outcome

theorem Emits.admission {e : Log.Event} (h : Emits s p a e) : e.admission = false := by
  cases h with
  | found | cleared | adopted | swap | baseline => rfl
  | @observed _ _ _ answer => cases answer <;> rfl

theorem TaskEmits.admission {e : Log.Event} (h : TaskEmits s i e) : e.admission = false := by
  cases h <;> rfl

theorem admitLog_admission {e : Log.Event} (h : e ∈ admitLog id q q') : e.admission = true := by
  unfold admitLog at h
  split at h
  · rw [List.mem_singleton.1 h]
    rfl
  · rw [List.mem_singleton.1 h]
    rfl
  · obtain ⟨r, -, rfl⟩ := Option.map_eq_some_iff.1 (Option.mem_toList.1 h)
    rfl
  · cases h

theorem waitLog_admission {reported reason : String} {e : Log.Event}
    (h : e ∈ waitLog id reported reason) : e.admission = true := by
  unfold waitLog at h
  split_ifs at h
  · rw [List.mem_singleton.1 h]
    rfl
  · cases h

/-- Lines that say nothing of the call. -/
theorem filterMap_admission_eq_nil {c : ℕ} {events : List Log.Event}
    (h : c ≠ p ∨ ∀ e ∈ events, e.admission = false) :
    (events.map (Line.mk c)).filterMap (·.admission? p) = [] := by
  refine List.filterMap_eq_nil_iff.2 fun l hl => if_neg ?_
  obtain ⟨e, he, rfl⟩ := List.mem_map.1 hl
  rcases h with hne | hmute
  · simp [hne]
  · simp [hmute e he]

/-- Lines that say nothing else. -/
theorem filterMap_admission {events : List Log.Event} (h : ∀ e ∈ events, e.admission = true) :
    (events.map (Line.mk p)).filterMap (·.admission? p) = events := by
  rw [List.filterMap_map]
  refine (List.filterMap_congr fun e he => ?_).trans (List.filterMap_some)
  exact if_pos (by simp [h e he])

theorem admissions_request (ha : a.request? = some p) (hp : j.asked[p]? = some id)
    (hq : s.requests[p]? = some q) (hq' : t.requests[p]? = some q') :
    (j.note cfg s a t).admissions p = j.admissions p ++
      (waitLog id (j.reported p) ((s.reports p a).getD (j.reported p)) ++ admitLog id q q') := by
  rw [note_request ha hp hq hq']
  simp only [Journal.admissions, List.map_append, List.filterMap_append]
  rw [filterMap_admission_eq_nil (.inr fun e he => (emits ha he).admission),
    filterMap_admission fun e he => waitLog_admission he,
    filterMap_admission fun e he => admitLog_admission he, List.nil_append]

theorem admissions_other {p' : ℕ} (ha : a.request? = some p') (hne : p' ≠ p)
    (hp : j.asked[p']? = some id) (hq : s.requests[p']? = some q)
    (hq' : t.requests[p']? = some q') : (j.note cfg s a t).admissions p = j.admissions p := by
  rw [note_request ha hp hq hq']
  simp only [Journal.admissions, List.filterMap_append]
  rw [filterMap_admission_eq_nil (.inl hne), List.append_nil]

theorem admissions_task {c : ℕ} (ha : a.task? = some i) (hi : j.causes[i]? = some c) :
    (j.note cfg s a t).admissions p = j.admissions p := by
  rw [note_task ha hi]
  simp only [Journal.admissions, List.filterMap_append]
  rw [filterMap_admission_eq_nil (.inr fun e he => (taskEmits he).admission), List.append_nil]

/-- Of a request that has to be placed no outcome is told. -/
theorem closed_of_variant {reported : String} {events : List Log.Event} {variant : Variant}
    (hv : q.variant? = some variant) : q.Closed id reported events ↔ events = [] := by
  cases q with
  | arrived | joining | admitted | finished => cases hv
  | checkLock | surveying | tracking | checked | looping | placeLock | judging | observing
  | blocked | waiting => exact Iff.rfl

theorem admitLog_of_variant {variant : Variant} (hv : q'.variant? = some variant) :
    admitLog id q q' = [] := by
  cases q' with
  | arrived | joining | admitted | finished => cases hv
  | checkLock | surveying | tracking | checked | looping | placeLock | judging | observing
  | blocked | waiting => cases q <;> rfl

/-- The request is blocked by this obstacle, and is not to look again at once. -/
def State.BlockedBy (s : State) (p : ℕ) (placed : Blocked) : Prop :=
  (∃ job, s.requests[p]? = some (.blocked job placed)) ∧
    placed.untilTime.any (· ≤ (s.now : Seconds)) = false

theorem reports_of_blockedBy {placed : Blocked} (h : s.BlockedBy p placed) :
    s.reports p (.resume p) = some placed.reason := by
  obtain ⟨⟨job, hq⟩, hlasts⟩ := h
  simp [State.reports, hq, hlasts]

/-- Only a blocked request has a reason to report. -/
theorem reports_eq_some {reason : String} (h : s.reports p a = some reason) :
    (∃ p', a = .resume p') ∧ ∃ placed, s.BlockedBy p placed ∧ placed.reason = reason := by
  unfold State.reports at h
  split at h
  · next p' =>
    split at h
    · next job placed hq =>
      split_ifs at h with hgone
      exact ⟨⟨p', rfl⟩, placed, ⟨⟨job, hq⟩, by simpa using hgone⟩, Option.some.inj h⟩
    · cases h
  · cases h

/-- A request that goes on comes to its outcome, which is told. -/
theorem Request.Closed.step {reported : String} {events : List Log.Event}
    (h : q.Closed id reported events) (ha : a.request? = some p) (hq : s.requests[p]? = some q)
    (hlive : ∀ outcome, q ≠ .finished outcome) (hgoes : Goes cfg s a t q q') :
    q'.Closed id ((s.reports p a).getD reported) (events ++ admitLog id q q') := by
  cases hgoes with
  | ends hends =>
    cases hends with
    | started | unknown | unfit | noTicket | overflow | failed | joinFailed =>
      obtain rfl : events = [] := h
      rfl
    | busy ha' hlasts =>
      subst ha'
      cases ha
      obtain rfl : events = [] := h
      exact ⟨rfl, by rw [reports_of_blockedBy ⟨⟨_, hq⟩, hlasts⟩, Option.getD_some]⟩
    | released =>
      obtain rfl : events = [_] := h
      rfl
    | cancelled =>
      cases q with
      | admitted =>
        obtain rfl : events = [_] := h
        exact .inr rfl
      | finished outcome => exact absurd rfl (hlive outcome)
      | arrived | checkLock | surveying | tracking | checked | looping | placeLock | judging
      | observing | blocked | waiting | joining =>
        obtain rfl : events = [] := h
        exact .inl rfl
  | look hid hv =>
    obtain rfl : events = [] := h
    rw [closed_of_variant hv, admitLog_of_variant hv, List.append_nil]
  | on hv hv' =>
    rwa [closed_of_variant hv', admitLog_of_variant hv', List.append_nil, ← closed_of_variant hv]
  | start =>
    obtain rfl : events = [] := h
    rfl
  | take hv heq =>
    obtain rfl : events = [] := (closed_of_variant hv).1 h
    rcases heq with rfl | rfl <;> cases q <;> rfl
  | enter =>
    obtain rfl : events = [] := h
    rfl

/-- One more reason is told if it is another than the last. -/
theorem told_reasons {reported : String} (reason : String) {reasons : List String}
    (hchain : ("" :: reasons).IsChain (· ≠ ·)) (hlast : reasons.getLastD "" = reported) :
    ∃ reasons', reasons.map (Log.Event.requestWaiting id) ++ waitLog id reported reason =
        reasons'.map (.requestWaiting id) ∧
      ("" :: reasons').IsChain (· ≠ ·) ∧ reasons'.getLastD "" = reason := by
  unfold waitLog
  split_ifs with hnew
  · refine ⟨reasons ++ [reason], by simp, ?_, by simp⟩
    rw [← List.cons_append, List.isChain_append]
    refine ⟨hchain, List.isChain_singleton _, ?_⟩
    intro x hx y hy
    rw [List.getLast?_cons, Option.mem_some_iff] at hx
    rw [List.head?_cons, Option.mem_some_iff] at hy
    subst hx hy
    rw [← List.getLastD_eq_getLast?, hlast]
    exact Ne.symm hnew
  · rw [ne_eq, Decidable.not_not] at hnew
    exact ⟨reasons, List.append_nil _, hchain, hlast.trans hnew.symm⟩

/-- A request that goes on goes on being told of. -/
theorem Request.Told.step {reported : String} {events : List Log.Event}
    (h : q.Told id reported events) (ha : a.request? = some p) (hq : s.requests[p]? = some q)
    (hlive : ∀ outcome, q ≠ .finished outcome) (hgoes : Goes cfg s a t q q') :
    q'.Told id ((s.reports p a).getD reported)
      (events ++ (waitLog id reported ((s.reports p a).getD reported) ++ admitLog id q q')) := by
  obtain ⟨reasons, outcome, rfl, hchain, hlast, hclosed⟩ := h
  have hclosed' := hclosed.step ha hq hlive hgoes
  obtain ⟨reasons', heq, hchain', hlast'⟩ :=
    @told_reasons id _ ((s.reports p a).getD reported) _ hchain hlast
  refine ⟨reasons', outcome ++ admitLog id q q', ?_, hchain', hlast', hclosed'⟩
  rw [← heq]
  -- as long as there are reasons to tell, there is no outcome
  cases hreports : s.reports p a with
  | none => simp [waitLog]
  | some reason =>
    obtain ⟨-, placed, ⟨⟨job, hblocked⟩, -⟩, -⟩ := reports_eq_some hreports
    obtain rfl := Option.some.inj (hq.symm.trans hblocked)
    obtain rfl : outcome = [] := hclosed
    simp

theorem Surveys.request {variant : Variant} {next : Survey ⊕ Inspection}
    (h : Surveys cfg s p a q variant next) : a.request? = some p := by
  cases h <;> rfl

/-- Tasks are only added, and by requests. -/
theorem tasks_length (h : Step cfg s a t) : s.tasks.length ≤ t.tasks.length ∧
    (a.request? = none → t.tasks.length = s.tasks.length) := by
  cases h with
  | install _ hs =>
    refine ⟨by simp, fun hnone => ?_⟩
    rw [hs.request] at hnone
    cases hnone
  | baseline | commit => exact ⟨by simp [committed], fun hnone => by cases hnone⟩
  | tick | arrive | silent | enter | join | queue | quit | busy | idle | joined | unjoin
  | release => exact ⟨le_rfl, fun _ => rfl⟩
  | task | unloaded | crash | unloadFailed | crashFailed | loadFailed | dropped | gone | unsure
  | baselined => exact ⟨(List.length_set ..).ge, fun _ => List.length_set ..⟩

/-- Only a request that has not ended goes on. -/
theorem request_live (h : step cfg s a = some t) (ha : a.request? = some p) :
    ∃ q, s.requests[p]? = some q ∧ ∀ outcome, q ≠ .finished outcome := by
  cases hq : s.requests[p]? with
  | none =>
    cases a with
    | resume | cancel | props | states | activity =>
      cases ha
      simp [step, hq] at h
    | tick | arrive | run | call | taskStates | taskActivity => cases ha
  | some q =>
    refine ⟨q, rfl, ?_⟩
    rintro outcome rfl
    cases a with
    | resume | cancel | props | states | activity =>
      cases ha
      simp [step, hq, resume, cancel] at h
    | tick | arrive | run | call | taskStates | taskActivity => cases ha

/-- The log is about the requests and tasks there are, and tells of each call of `admit`
    what there is to say of it. -/
structure Log.Journal.Tells (j : Journal) (s : State) : Prop where
  asked : j.asked.length = s.requests.length
  causes : j.causes.length = s.tasks.length
  known : ∀ l ∈ j.lines, l.cause < s.requests.length
  caused : ∀ c ∈ j.causes, c < s.requests.length
  fresh : ∀ p, s.requests.length ≤ p → j.reported p = ""
  told : ∀ (p : ℕ) (q : Request) (id : String), s.requests[p]? = some q →
    j.asked[p]? = some id → q.Told id (j.reported p) (j.admissions p)

theorem tells_arrive (h : j.Tells s) (hstep : step cfg s (.arrive id) = some t) :
    (j.note cfg s (.arrive id) t).Tells t := by
  simp only [step] at hstep
  split_ifs at hstep
  cases hstep
  have hlt : ∀ {c : ℕ}, c < s.requests.length → c < (s.requests ++ [Request.arrived id]).length :=
    fun hc => by simpa using Nat.lt_succ_of_lt hc
  refine ⟨by simp [note_arrive, h.asked], h.causes, fun l hl => hlt (h.known l hl),
    fun c hc => hlt (h.caused c hc), fun p hp => h.fresh p ?_, fun p q id' hq hp => ?_⟩
  · simp only [List.length_append, List.length_singleton] at hp
    omega
  rcases Table.get_push.1 hq with ⟨rfl, rfl⟩ | hq₀
  · -- the log has no line of the new request
    have hnone : j.admissions s.requests.length = [] := by
      refine List.filterMap_eq_nil_iff.2 fun l hl => if_neg ?_
      have hne := (h.known l hl).ne
      simp [hne]
    exact ⟨[], [], hnone, List.isChain_singleton _, (h.fresh _ le_rfl).symm, rfl⟩
  · rcases Table.get_push.1 hp with ⟨rfl, rfl⟩ | hp
    · exact absurd (Table.lt_length hq₀) h.asked.not_lt
    · exact h.told p q id' hq₀ hp

theorem tells_request (hrefs : Refs cfg s) (h : j.Tells s) (hstep : step cfg s a = some t)
    (ha : a.request? = some p) : (j.note cfg s a t).Tells t := by
  obtain ⟨q, hq, hlive⟩ := request_live hstep ha
  obtain ⟨q', hq', hgoes⟩ := goes hrefs hstep ha hq
  have hlt := Table.lt_length hq
  obtain ⟨id, hid⟩ : ∃ id, j.asked[p]? = some id :=
    ⟨_, List.getElem?_eq_getElem (h.asked ▸ hlt)⟩
  have hlength : t.requests.length = s.requests.length :=
    requests_length_eq hstep fun id heq => by rw [heq] at ha; cases ha
  have hnote : j.note cfg s a t = _ := note_request ha hid hq hq'
  refine ⟨?_, ?_, ?_, ?_, fun p' hp' => ?_, fun p' q₁ id' hq₁ hp' => ?_⟩
  · rw [hnote, hlength]
    exact h.asked
  · have hle := (tasks_length (step_cases hstep)).1
    rw [hnote]
    simp only [List.length_append, List.length_replicate, h.causes]
    omega
  · rw [hnote, hlength]
    intro l hl
    rcases List.mem_append.1 hl with hl | hl
    · exact h.known l hl
    · obtain ⟨e, -, rfl⟩ := List.mem_map.1 hl
      exact hlt
  · rw [hnote, hlength]
    intro c hc
    rcases List.mem_append.1 hc with hc | hc
    · exact h.caused c hc
    · rw [List.eq_of_mem_replicate hc]
      exact hlt
  · rw [hnote]
    rw [hlength] at hp'
    have hne : p' ≠ p := (Nat.lt_of_lt_of_le hlt hp').ne'
    exact (Function.update_of_ne hne ..).trans (h.fresh p' hp')
  · have hasked : j.asked[p']? = some id' := by
      rw [hnote] at hp'
      exact hp'
    have hreported : (j.note cfg s a t).reported =
        Function.update j.reported p ((s.reports p a).getD (j.reported p)) := by rw [hnote]
    by_cases hp : p = p'
    · subst hp
      rw [hq'] at hq₁
      obtain rfl := Option.some.inj hq₁
      rw [admissions_request ha hasked hq hq', hreported, Function.update_self]
      exact (h.told p q id' hq hasked).step ha hq hlive hgoes
    · rw [admissions_other ha hp hid hq hq', hreported, Function.update_of_ne (Ne.symm hp)]
      have hlt' : p' < s.requests.length := hlength ▸ Table.lt_length hq₁
      have hq₀ := List.getElem?_eq_getElem hlt'
      have hsame := step_others hstep (p := p')
        (fun heq => hp (Option.some.inj (ha.symm.trans heq))) hq₀
      rw [hq₁] at hsame
      obtain rfl := Option.some.inj hsame
      exact h.told p' _ id' hq₀ hasked

theorem tells_task (h : j.Tells s) (hstep : step cfg s a = some t) (ha : a.task? = some i) :
    (j.note cfg s a t).Tells t := by
  obtain ⟨k, hk, -⟩ := task_moves hstep ha
  obtain ⟨c, hc⟩ : ∃ c, j.causes[i]? = some c :=
    ⟨_, List.getElem?_eq_getElem (h.causes ▸ Table.lt_length hk)⟩
  have hnote : j.note cfg s a t = _ := note_task ha hc
  have hrequests := task_requests hstep ha
  have hlength := (tasks_length (step_cases hstep)).2 (by cases a <;> first | rfl | cases ha)
  refine ⟨?_, ?_, ?_, ?_, ?_, fun p q id hq hp => ?_⟩
  · rw [hnote, hrequests]
    exact h.asked
  · rw [hnote, hlength]
    exact h.causes
  · rw [hnote, hrequests]
    intro l hl
    rcases List.mem_append.1 hl with hl | hl
    · exact h.known l hl
    · obtain ⟨e, -, rfl⟩ := List.mem_map.1 hl
      exact h.caused c (List.mem_of_getElem? hc)
  · rw [hnote, hrequests]
    exact h.caused
  · rw [hnote, hrequests]
    exact h.fresh
  · have hreported : (j.note cfg s a t).reported = j.reported := by rw [hnote]
    rw [admissions_task ha hc, hreported]
    rw [hnote] at hp
    rw [hrequests] at hq
    exact h.told p q id hq hp

theorem tells_step (hrefs : Refs cfg s) (h : j.Tells s) (hstep : step cfg s a = some t) :
    (j.note cfg s a t).Tells t := by
  rcases a.actor with ⟨seconds, rfl⟩ | ⟨id, rfl⟩ | ⟨p, ha⟩ | ⟨i, ha⟩
  · simp only [step] at hstep
    split_ifs at hstep
    cases hstep
    exact ⟨h.asked, h.causes, h.known, h.caused, h.fresh, h.told⟩
  · exact tells_arrive h hstep
  · exact tells_request hrefs h hstep ha
  · exact tells_task h hstep ha

/-! ## Whoever sleeps has been told of -/

/-- The request has been given an obstacle. -/
def Request.obstructed : Request → Bool
  | .blocked _ _ | .waiting _ _ => true
  | _ => false

/-- A request is blocked for a reason, and goes to sleep when it is not to look again at once. -/
theorem step_obstructed (h : Step cfg s a t) (hp : t.requests[p]? = some q)
    (hob : q.obstructed = true) : s.requests[p]? = some q ∨
      (∃ job placed, q = .blocked job placed ∧ placed.reason ≠ "") ∨
      (a = .resume p ∧ ∃ job placed wake, q = .waiting job wake ∧
        s.requests[p]? = some (.blocked job placed) ∧
        placed.untilTime.any (· ≤ (s.now : Seconds)) = false) := by
  obtain ⟨job, hj⟩ : ∃ job, q.job? = some job := by
    cases q <;> first | exact ⟨_, rfl⟩ | cases hob
  cases step_job h hp hj with
  | same hp => exact .inl hp
  | head => cases hob
  | idle _ _ _ heq =>
    subst heq
    cases hob
  | busy _ hplaced => exact .inr (.inl ⟨_, _, rfl, hplaced.named⟩)
  | silent h₀ hsil =>
    cases hsil with
    | block _ hplaced => exact .inr (.inl ⟨_, _, rfl, hplaced.named⟩)
    | sleep hlasts => exact .inr (.inr ⟨rfl, _, _, _, rfl, h₀, hlasts⟩)
    | unknown | recheck | clean | survey | unfit | noTicket | inOrder | list | ask | again | wake
    | cancelled => cases hob

theorem note_reported : (j.note cfg s a t).reported p =
    if a.request? = some p then (s.reports p a).getD (j.reported p) else j.reported p := by
  cases a with
  | resume p' | cancel p' | props p' | states p' | activity p' =>
    by_cases hp : p' = p
    · subst hp
      simp [Journal.note, Act.request?]
    · simp [Journal.note, Act.request?, hp, Ne.symm hp]
  | tick | arrive | run | call | taskStates | taskActivity => rfl

/-- The reason told last is that of the obstacle met last, of those that last. -/
theorem reported_step :
    (∀ placed, a = .resume p → s.BlockedBy p placed →
      (j.note cfg s a t).reported p = placed.reason) ∧
    ((∀ placed, a = .resume p → ¬ s.BlockedBy p placed) →
      (j.note cfg s a t).reported p = j.reported p) := by
  constructor
  · rintro placed rfl hblocked
    have ha : (Act.resume p).request? = some p := rfl
    rw [note_reported, if_pos ha, reports_of_blockedBy hblocked, Option.getD_some]
  · intro hfree
    rw [note_reported]
    split_ifs with ha
    · cases hreports : s.reports p a with
      | none => rfl
      | some reason =>
        obtain ⟨⟨p', rfl⟩, placed, hblocked, -⟩ := reports_eq_some hreports
        obtain rfl := Option.some.inj ha
        exact absurd hblocked (hfree placed rfl)
    · rfl

/-- Whoever is blocked has a reason, and whoever sleeps has reported one. -/
def Request.Heeded (reported : String) : Request → Prop
  | .blocked _ placed => placed.reason ≠ ""
  | .waiting _ _ => reported ≠ ""
  | _ => True

def Log.Journal.Heeds (j : Journal) (s : State) : Prop :=
  ∀ (p : ℕ) (q : Request), s.requests[p]? = some q → q.Heeded (j.reported p)

theorem heeds_step (h : j.Heeds s) (hstep : Step cfg s a t) : (j.note cfg s a t).Heeds t := by
  intro p q hq
  cases hob : q.obstructed with
  | false => cases q <;> trivial
  | true =>
    rcases step_obstructed hstep hq hob with
      hq₀ | ⟨job, placed, rfl, hnamed⟩ | ⟨rfl, job, placed, wake, rfl, hq₀, hlasts⟩
    · have hheeded := h p q hq₀
      cases q with
      | blocked => exact hheeded
      | waiting job wake =>
        have hnone : s.reports p a = none := by
          cases a <;> first | rfl | simp [State.reports, hq₀]
        simpa [Request.Heeded, note_reported, hnone] using hheeded
      | _ => cases hob
    · exact hnamed
    · have hreports := reports_of_blockedBy ⟨⟨job, hq₀⟩, hlasts⟩
      simpa [Request.Heeded, note_reported, hreports, Act.request?] using h p _ hq₀

/-! ## What the log leaves open -/

/-- How often the log has an event. -/
def Log.Journal.count (j : Journal) (e : Log.Event) : ℕ := j.lines.countP fun l => l.event = e

/-- The request is admitted to a record of this model. -/
def State.serves (s : State) (id : String) : Request → Bool
  | .admitted r => (s.heap r).variant.id = id
  | _ => false

theorem sum_admittedTo (models : Finset Ref) (requests : List Request) :
    ∑ r ∈ models, requests.countP (Request.admittedTo r) = requests.countP fun q =>
      match q with
      | .admitted r => decide (r ∈ models)
      | _ => false := by
  induction requests with
  | nil => simp
  | cons q requests ih =>
    simp only [List.countP_cons, Finset.sum_add_distrib, ih]
    congr 1
    cases q with
    | admitted r => simp [Request.admittedTo]
    | _ => simp [Request.admittedTo]

/-- The counters of a model's records count its admissions. -/
theorem sum_active (hrefs : Refs cfg s) (hcount : Counted s) (id : String) :
    ∑ r ∈ (Finset.range s.next).filter (fun r => (s.heap r).variant.id = id), (s.heap r).active =
      s.requests.countP (s.serves id) := by
  have hsum : ∀ r ∈ (Finset.range s.next).filter (fun r => (s.heap r).variant.id = id),
      (s.heap r).active = s.requests.countP (Request.admittedTo r) :=
    fun r hr => hcount.active r (Finset.mem_range.1 (Finset.mem_filter.1 hr).1)
  rw [Finset.sum_congr rfl hsum, sum_admittedTo]
  refine List.countP_congr fun q hq => ?_
  cases q with
  | admitted r =>
    obtain ⟨p, hp⟩ := List.mem_iff_getElem?.1 hq
    simp [State.serves, hrefs.admitted_lt hp]
  | _ => exact Iff.rfl

theorem serves_of_variant {variant : Variant} (hv : q.variant? = some variant) :
    s.serves id q = false := by
  cases q <;> first | rfl | cases hv

/-- What a step of a request adds to the log. -/
theorem admitLog_count {id' : String} (hgoes : Goes cfg s a t q q')
    (hlive : ∀ outcome, q ≠ .finished outcome)
    (habout : ∀ r, q = .admitted r → (s.heap r).variant.id = id')
    (habout' : ∀ r, q' = .admitted r → (t.heap r).variant.id = id') :
    (admitLog id' q q').countP (· = .requestAdmitted id) + (if s.serves id q then 1 else 0) =
      (admitLog id' q q').countP (· = .requestFinished id) +
        (if t.serves id q' then 1 else 0) := by
  have refused : ∀ (outcome : Outcome) (e : Log.Event),
      e = .requestAdmitted id ∨ e = .requestFinished id →
        (outcome.refusal?.map fun r =>
          Log.Event.requestRefused id' r.1 r.2).toList.countP (· = e) = 0 := by
    rintro outcome e he
    cases outcome.refusal? with
    | none => rfl
    | some r => rcases he with rfl | rfl <;> simp
  have ends : ∀ outcome, (admitLog id' q (.finished outcome)).countP (· = .requestAdmitted id) +
      (if s.serves id q then 1 else 0) =
        (admitLog id' q (.finished outcome)).countP (· = .requestFinished id) := by
    intro outcome
    cases q with
    | admitted r => simp [admitLog, State.serves, habout r rfl]
    | finished outcome => exact absurd rfl (hlive outcome)
    | arrived | checkLock | surveying | tracking | checked | looping | placeLock | judging
    | observing | blocked | waiting | joining =>
      exact (refused outcome _ (.inl rfl)).trans (refused outcome _ (.inr rfl)).symm
  have enters : ∀ r, q' = .admitted r → s.serves id q = false →
      (admitLog id' q q').countP (· = .requestAdmitted id) + (if s.serves id q then 1 else 0) =
        (admitLog id' q q').countP (· = .requestFinished id) +
          (if t.serves id q' then 1 else 0) := by
    rintro r rfl hserves
    have hlog : admitLog id' q (.admitted r) = [.requestAdmitted id'] := by cases q <;> rfl
    rw [hlog, hserves]
    simp [State.serves, habout' r rfl]
  cases hgoes with
  | @ends _ outcome => exact ends outcome
  | look hid hv =>
    rw [admitLog_of_variant hv, serves_of_variant hv]
    rfl
  | on hv hv' =>
    rw [admitLog_of_variant hv', serves_of_variant hv, serves_of_variant hv']
    rfl
  | start => rfl
  | take hv heq =>
    rcases heq with rfl | rfl
    · rw [serves_of_variant hv]
      cases q <;> rfl
    · exact enters _ rfl (serves_of_variant hv)
  | enter => exact enters _ rfl rfl

/-- The log leaves as many admissions open as are held. -/
def Log.Journal.Balanced (j : Journal) (s : State) : Prop :=
  ∀ id, j.count (.requestAdmitted id) =
    j.count (.requestFinished id) + s.requests.countP (s.serves id)

theorem Emits.not_admission {e : Log.Event} (h : Emits s p a e) :
    e ≠ .requestAdmitted id ∧ e ≠ .requestFinished id := by
  have hmute := h.admission
  constructor <;> rintro rfl <;> cases hmute

theorem TaskEmits.not_admission {e : Log.Event} (h : TaskEmits s i e) :
    e ≠ .requestAdmitted id ∧ e ≠ .requestFinished id := by
  have hmute := h.admission
  constructor <;> rintro rfl <;> cases hmute

theorem waitLog_count {reported reason : String} {e : Log.Event}
    (he : e = .requestAdmitted id ∨ e = .requestFinished id) :
    (waitLog id' reported reason).countP (· = e) = 0 := by
  unfold waitLog
  split_ifs
  · rcases he with rfl | rfl <;> simp
  · rfl

theorem countP_lines {c : ℕ} {events : List Log.Event} {e : Log.Event} :
    (events.map (Line.mk c)).countP (fun l => l.event = e) = events.countP (· = e) := by
  rw [List.countP_map]
  rfl

/-- The admissions to a model, whose records keep their variants. -/
theorem countP_serves (hrefs : Refs cfg s) (hstep : Step cfg s a t) (id : String) :
    s.requests.countP (t.serves id) = s.requests.countP (s.serves id) := by
  refine List.countP_congr fun q hq => ?_
  cases q with
  | admitted r =>
    obtain ⟨p, hp⟩ := List.mem_iff_getElem?.1 hq
    simp only [State.serves]
    rw [step_variant hstep (hrefs.admitted_lt hp)]
  | _ => exact Iff.rfl

/-- A step of a request changes nothing in the table but the request. -/
theorem request_set (h : step cfg s a = some t) (ha : a.request? = some p)
    (hq : s.requests[p]? = some q) (hq' : t.requests[p]? = some q') :
    t.requests = s.requests.set p q' := by
  have hlength : t.requests.length = s.requests.length :=
    requests_length_eq h fun id heq => by rw [heq] at ha; cases ha
  refine List.ext_getElem? fun n => ?_
  by_cases hn : n = p
  · subst hn
    rw [hq', Table.get_set_self hq]
  · rw [List.getElem?_set_ne (Ne.symm hn)]
    cases hold : s.requests[n]? with
    | none =>
      rw [List.getElem?_eq_none_iff] at hold ⊢
      omega
    | some q₀ => exact step_others h (fun heq => hn (Option.some.inj (heq.symm.trans ha))) hold

theorem balanced_request (hrefs : Refs cfg s) (h : j.Balanced s) (hstep : step cfg s a = some t)
    (ha : a.request? = some p) {id' : String} (hp : j.asked[p]? = some id')
    (habout : ∀ q r, s.requests[p]? = some q → q = .admitted r → (s.heap r).variant.id = id')
    (habout' : ∀ q r, t.requests[p]? = some q → q = .admitted r → (t.heap r).variant.id = id') :
    (j.note cfg s a t).Balanced t := by
  obtain ⟨q, hq, hlive⟩ := request_live hstep ha
  obtain ⟨q', hq', hgoes⟩ := goes hrefs hstep ha hq
  intro id
  have hlog := @admitLog_count _ _ _ _ id _ _ _ hgoes hlive (habout q · hq) (habout' q' · hq')
  have hset := @Table.countP_set _ (t.serves id) _ _ _ q' hq
  have hmute : ∀ e, (∀ e', Emits s p a e' → e' ≠ e) →
      (requestLog cfg s p a).countP (fun e' => decide (e' = e)) = 0 := fun e hne =>
    List.countP_eq_zero.2 fun e' he' => by simpa using hne e' (emits ha he')
  have hsame : t.serves id q = s.serves id q := by
    cases q with
    | admitted r =>
      simp only [State.serves]
      rw [step_variant (step_cases hstep) (hrefs.admitted_lt hq)]
    | _ => rfl
  have hbalanced := h id
  rw [note_request ha hp hq hq', request_set hstep ha hq hq']
  rw [hsame, countP_serves hrefs (step_cases hstep)] at hset
  simp only [Journal.count, List.countP_append, List.map_append, countP_lines] at hbalanced ⊢
  rw [hmute _ fun e' he' => he'.not_admission.1, hmute _ fun e' he' => he'.not_admission.2,
    waitLog_count (.inl rfl), waitLog_count (.inr rfl)]
  omega

/-- Every request but that of `start()` is about the model it names. -/
def Log.Journal.Abouts (cfg : Config) (j : Journal) (s : State) : Prop :=
  ∀ (p : ℕ) (q : Request) (id : String), p ≠ 0 → s.requests[p]? = some q →
    j.asked[p]? = some id → q.About cfg s id

/-- What the log is in every run. -/
structure Log.Journal.Sound (cfg : Config) (j : Journal) (s : State) : Prop where
  tells : j.Tells s
  abouts : j.Abouts cfg s
  balanced : j.Balanced s
  heeds : j.Heeds s

/-- A request that is admitted is admitted to a record of the model it names. -/
theorem Log.Journal.Abouts.serves (h : j.Abouts cfg s) (hfree : (scheduler cfg).Free s)
    (hp : j.asked[p]? = some id) (q : Request) (r : Ref) (hq : s.requests[p]? = some q)
    (hr : q = .admitted r) : (s.heap r).variant.id = id := by
  by_cases hzero : p = 0
  · subst hzero hr
    rcases first_start hfree hq with hstart | ⟨outcome, heq⟩
    · cases hstart
    · cases heq
  · subst hr
    exact h p _ id hzero hq hp

theorem note_asked (hnew : ∀ id, a ≠ .arrive id) : (j.note cfg s a t).asked = j.asked := by
  cases a <;> first | rfl | exact absurd rfl (hnew _)

theorem sound_arrive (h : j.Sound cfg s) (hstep : step cfg s (.arrive id) = some t) :
    (j.note cfg s (.arrive id) t).Sound cfg t := by
  refine ⟨tells_arrive h.tells hstep, ?_, ?_, heeds_step h.heeds (step_cases hstep)⟩ <;>
    simp only [step] at hstep <;>
    split_ifs at hstep <;> cases hstep
  · intro p q id' hp hq hasked
    rcases Table.get_push.1 hq with ⟨rfl, rfl⟩ | hq₀
    · rcases Table.get_push.1 hasked with ⟨-, rfl⟩ | hasked₀
      · rfl
      · exact absurd (Table.lt_length hasked₀) h.tells.asked.symm.not_lt
    · rcases Table.get_push.1 hasked with ⟨rfl, -⟩ | hasked₀
      · exact absurd (Table.lt_length hq₀) h.tells.asked.not_lt
      · exact h.abouts p q id' hp hq₀ hasked₀
  · intro id'
    rw [note_arrive, List.countP_append]
    exact h.balanced id'

theorem abouts_step (hfree : (scheduler cfg).Free s) (h : j.Abouts cfg s)
    (hstep : step cfg s a = some t) (hnew : ∀ id, a ≠ .arrive id) :
    (j.note cfg s a t).Abouts cfg t := by
  intro p q id hp hq hasked
  have hq₀ := List.getElem?_eq_getElem (requests_length_eq hstep hnew ▸ Table.lt_length hq)
  rw [note_asked hnew] at hasked
  obtain ⟨q', hq', habout⟩ := about_step (inv hfree) (ordered hfree).toQueue
    (bounded hfree) hstep hq₀
    (h p _ id hp hq₀ hasked)
  rw [hq] at hq'
  exact Option.some.inj hq' ▸ habout

theorem sound_step (hfree : (scheduler cfg).Free s) (h : j.Sound cfg s)
    (hstep : step cfg s a = some t) : (j.note cfg s a t).Sound cfg t := by
  have hrefs := (inv hfree).refs
  have htells := tells_step hrefs h.tells hstep
  have hserves := countP_serves hrefs (step_cases hstep)
  have hheeds := heeds_step h.heeds (step_cases hstep)
  rcases a.actor with ⟨seconds, rfl⟩ | ⟨id, rfl⟩ | ⟨p, ha⟩ | ⟨i, ha⟩
  · refine ⟨htells, abouts_step hfree h.abouts hstep (by simp), ?_, hheeds⟩
    simp only [step] at hstep
    split_ifs at hstep
    cases hstep
    exact h.balanced
  · exact sound_arrive h hstep
  · have hnew : ∀ id, a ≠ .arrive id := fun id heq => by rw [heq] at ha; cases ha
    obtain ⟨q, hq, -⟩ := request_live hstep ha
    obtain ⟨id, hid⟩ : ∃ id, j.asked[p]? = some id :=
      ⟨_, List.getElem?_eq_getElem (h.tells.asked ▸ Table.lt_length hq)⟩
    have habouts := abouts_step hfree h.abouts hstep hnew
    refine ⟨htells, habouts, balanced_request hrefs h.balanced hstep ha hid ?_ ?_, hheeds⟩
    · exact h.abouts.serves hfree hid
    · exact habouts.serves (.step hfree trivial hstep) (by rwa [note_asked hnew])
  · have hnew : ∀ id, a ≠ .arrive id := fun id heq => by rw [heq] at ha; cases ha
    refine ⟨htells, abouts_step hfree h.abouts hstep hnew, fun id => ?_, hheeds⟩
    obtain ⟨k, hk, -⟩ := task_moves hstep ha
    obtain ⟨c, hc⟩ : ∃ c, j.causes[i]? = some c :=
      ⟨_, List.getElem?_eq_getElem (h.tells.causes ▸ Table.lt_length hk)⟩
    have hmute : ∀ e, (∀ e', TaskEmits s i e' → e' ≠ e) →
        (taskLog s i a).countP (fun e' => decide (e' = e)) = 0 := fun e hne =>
      List.countP_eq_zero.2 fun e' he' => by simpa using hne e' (taskEmits he')
    rw [note_task ha hc, task_requests hstep ha, hserves]
    simp only [Journal.count, List.countP_append, countP_lines]
    rw [hmute _ fun e' he' => he'.not_admission.1, hmute _ fun e' he' => he'.not_admission.2]
    exact h.balanced id

theorem sound_opening (now : ℚ) (found : Survey) :
    (Journal.opening now found).Sound cfg (initial now found) := by
  have hlength : (initial now found).requests.length = 1 := by
    obtain ⟨pending, q, -, heq⟩ := initial_cases now found
    simp [heq, booted, blank]
  have hmute : ∀ e ∈ trackLog (booted now found).heap (booted now found).view.loaded.values,
      e.admission = false := by
    intro e he
    obtain ⟨r, -, rfl⟩ := mem_trackLog he
    rfl
  have hcount : ∀ e, e.admission = true → (Journal.opening now found).count e = 0 := by
    intro e he
    refine List.countP_eq_zero.2 fun l hl => ?_
    obtain ⟨e', he', rfl⟩ := List.mem_map.1 hl
    rw [decide_eq_true_eq]
    rintro rfl
    rw [hmute _ he'] at he
    cases he
  refine ⟨⟨hlength.symm, List.length_replicate, ?_, ?_, fun _ _ => rfl, ?_⟩, ?_, ?_, ?_⟩
  · intro l hl
    obtain ⟨e, -, rfl⟩ := List.mem_map.1 hl
    exact hlength.symm ▸ Nat.one_pos
  · intro c hc
    rw [List.eq_of_mem_replicate hc, hlength]
    exact Nat.one_pos
  · intro p q id hq hasked
    have hnone : (Journal.opening now found).admissions p = [] :=
      filterMap_admission_eq_nil (.inr hmute)
    refine ⟨[], [], hnone, List.isChain_singleton _, rfl, ?_⟩
    rcases (initial_requests hq).2 with rfl | ⟨model, rest, rfl⟩ <;> rfl
  · intro p q id hp hq
    exact absurd (initial_requests hq).1 hp
  · intro id
    rw [hcount _ rfl, hcount _ rfl, Nat.zero_add]
    refine (Table.countP_eq_zero.2 fun p q hq => ?_).symm
    rcases (initial_requests hq).2 with rfl | ⟨model, rest, rfl⟩ <;> rfl
  · intro p q hq
    rcases (initial_requests hq).2 with rfl | ⟨model, rest, rfl⟩ <;> trivial

theorem sound {x : State × Journal} (h : (journalled cfg).Free x) : x.2.Sound cfg x.1 := by
  refine System.Reach.environment (I := fun s j => j.Sound cfg s) ?_ ?_ ?_ h
  · rintro s j - ⟨now, found, rfl, rfl⟩
    exact sound_opening now found
  · intro s j a t hs hj _ hstep
    exact sound_step (hs.program fun _ _ _ => trivial) hj hstep
  · intro s j b
    cases b

/-- A call that is cancelled is told of only if it is admitted. -/
theorem cancel_told (hstep : step cfg s (.cancel p) = some t) (hq : s.requests[p]? = some q)
    (hp : j.asked[p]? = some id) :
    ∃ events, (j.note cfg s (.cancel p) t).admissions p = j.admissions p ++ events ∧
      ((∃ r, q = .admitted r) → events = [.requestFinished id]) ∧
      ((∀ r, q ≠ .admitted r) → events = []) := by
  have hq' : t.requests[p]? = some (.finished .cancelled) := by
    rw [step, hq, Option.bind_some] at hstep
    rw [cancel_requests hstep, Table.get_set_self hq]
  refine ⟨admitLog id q (.finished .cancelled), ?_, ?_, fun hne => ?_⟩
  · rw [admissions_request rfl hp hq hq']
    simp [State.reports, waitLog]
  · rintro ⟨r, rfl⟩
    rfl
  · cases q with
    | admitted r => exact absurd rfl (hne r)
    | arrived | checkLock | surveying | tracking | checked | looping | placeLock | judging
    | observing | blocked | waiting | joining | finished => rfl

/-- In every run the log, at level `DEBUG`, tells of every call of `admit(id)` how it has
    gone so far, once: each reason for which it waits, when it is another than the last
    (`reported`, which changes with every obstacle that lasts and no other step), and so at
    least one before it sleeps; that it is admitted; that it is admitted and has finished;
    or that it is refused, and why, which for a `ResourceBusy` is the last of those
    reasons. What it says of a refusal is so. Of a cancelled call that was not admitted it
    tells nothing more. And the admissions to a model that the log leaves open are counted
    by the counters `active` of the model's records. -/
theorem admissions_told {x : State × Journal} (h : (journalled cfg).Free x) :
    (∀ (p : ℕ) (q : Request) (id : String), p ≠ 0 → x.1.requests[p]? = some q →
      x.2.asked[p]? = some id →
        q.About cfg x.1 id ∧ q.Told id (x.2.reported p) (x.2.admissions p) ∧
          ∀ job wake, q = .waiting job wake → x.2.reported p ≠ "") ∧
    (∀ (p : ℕ) (a : Act) (t : State), step cfg x.1 a = some t →
      (∀ placed, a = .resume p → x.1.BlockedBy p placed →
        (x.2.note cfg x.1 a t).reported p = placed.reason) ∧
      ((∀ placed, a = .resume p → ¬ x.1.BlockedBy p placed) →
        (x.2.note cfg x.1 a t).reported p = x.2.reported p)) ∧
    (∀ (p : ℕ) (q : Request) (id : String) (t : State), step cfg x.1 (.cancel p) = some t →
      x.1.requests[p]? = some q → x.2.asked[p]? = some id →
        ∃ events, (x.2.note cfg x.1 (.cancel p) t).admissions p = x.2.admissions p ++ events ∧
          ((∃ r, q = .admitted r) → events = [.requestFinished id]) ∧
          ((∀ r, q ≠ .admitted r) → events = [])) ∧
    ∀ id, x.2.count (.requestAdmitted id) = x.2.count (.requestFinished id) +
      ∑ r ∈ (Finset.range x.1.next).filter (fun r => (x.1.heap r).variant.id = id),
        (x.1.heap r).active := by
  have hsound := sound h
  have hfree : (scheduler cfg).Free x.1 := h.program fun _ _ _ => trivial
  refine ⟨?_, fun _ _ _ _ => reported_step, ?_, ?_⟩
  · intro p q id hp hq hasked
    refine ⟨hsound.abouts p q id hp hq hasked, hsound.tells.told p q id hq hasked, ?_⟩
    rintro job wake rfl
    exact hsound.heeds p _ hq
  · intro p q id t hstep hq hasked
    exact cancel_told hstep hq hasked
  · intro id
    rw [sum_active (refs hfree) (counted hfree)]
    exact hsound.balanced id

/-- What the log tells of a request for the second model of a card while the first is being
    loaded. -/
def keptWaiting : List Log.Event :=
  [.requestWaiting "b--cuda0" "'a--cuda0' is loading, working, or has requests waiting",
    .requestRefused "b--cuda0" "resource_busy"
      "'a--cuda0' is loading, working, or has requests waiting"]

/-- A request waits and is refused, while another waits for its model; that one is then
    cancelled. -/
theorem admissions_told_sharedCard : ∃ x q t, (journalled sharedCard).Free x ∧
    x.2.admissions 2 = keptWaiting ∧ x.1.requests[2]? = some q ∧
    q.About sharedCard x.1 "b--cuda0" ∧ q.Told "b--cuda0" (x.2.reported 2) keptWaiting ∧
    step sharedCard x.1 (.cancel 1) = some t ∧
    (x.2.note sharedCard x.1 (.cancel 1) t).admissions 1 = [] ∧
    x.2.count (.requestAdmitted "a--cuda0") = x.2.count (.requestFinished "a--cuda0") +
      ∑ r ∈ (Finset.range x.1.next).filter (fun r => (x.1.heap r).variant.id = "a--cuda0"),
        (x.1.heap r).active := by
  have h0 : (journalled sharedCard).init (initial 0 (survey sharedCard 0 nothingLoaded),
      .opening 0 (survey sharedCard 0 nothingLoaded)) :=
    ⟨⟨0, 0, nothingLoaded, le_refl 0, rfl⟩, 0, _, rfl, rfl⟩
  obtain ⟨x, hx, hP⟩ := @System.exists_reach _ _ _ (fun _ _ => true) _ h0
    [.inl (.arrive "a--cuda0"), .inl (.resume 1), .inl (.resume 1), .inl (.resume 1),
      .inl (.resume 1), .inl (.arrive "b--cuda0"), .inl (.resume 2), .inl (.resume 2),
      .inl (.resume 2), .inl (.resume 2), .inl (.resume 2), .inl (.tick 30), .inl (.resume 2),
      .inl (.resume 2), .inl (.resume 2), .inl (.resume 2), .inl (.resume 2)]
    (fun x => x.2.admissions 2 = keptWaiting && x.2.admissions 1 = [] &&
      x.2.asked = ["", "a--cuda0", "b--cuda0"] && x.1.requests[2]?.isSome &&
      x.1.requests[1]?.any (Request.joins 0) && (step sharedCard x.1 (.cancel 1)).isSome)
    (by decide +kernel)
  simp only [Bool.and_eq_true, decide_eq_true_eq, Option.isSome_iff_exists,
    Option.any_eq_true] at hP
  obtain ⟨⟨⟨⟨⟨htwo, hone⟩, hasked⟩, q, hq⟩, q₁, hq₁, hjoins⟩, t, ht⟩ := hP
  obtain ⟨htold, -, hcancel, hcount⟩ := admissions_told hx.free
  obtain ⟨habout, htells, -⟩ := htold 2 q "b--cuda0" (by simp) hq (by rw [hasked]; rfl)
  obtain ⟨events, hevents, -, hnone⟩ :=
    hcancel 1 q₁ "a--cuda0" t ht hq₁ (by rw [hasked]; rfl)
  rw [hone, hnone (by rintro r rfl; cases hjoins), List.append_nil] at hevents
  exact ⟨x, q, t, hx.free, htwo, hq, habout, htwo ▸ htells, ht, hevents, hcount _⟩

end ModelBroker
