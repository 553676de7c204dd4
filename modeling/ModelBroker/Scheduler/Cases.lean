import ModelBroker.Lib.Table
import ModelBroker.Scheduler.Step

/-!
# What a step can do

`Step cfg s a t` lists every way in which the action `a` takes the scheduler
from `s` to `t`, with the tests the code made on the way and `t` written out.
Steps of a request that only move it are collected in `Silent`, those of a task
in `Task.Silent`.

* `step_cases`: the executable `step` does nothing else. Every invariant is
  proved from it by cases, without unfolding the code again.
* `step_job`: what of this concerns a request that has a job.
* `invariant_reach`: what every `Step` preserves holds in every run.
-/

namespace ModelBroker

/-! ## The parts of a step -/

/-- The answer that is part of the action takes a request's survey to `next`. -/
inductive Surveys (cfg : Config) (s : State) (p : ℕ) :
    Act → Request → Variant → Survey ⊕ Inspection → Prop
  | start {variant : Variant} (hfree : s.lockFree = true) (hunfit : s.view.problems ≠ []) :
      Surveys cfg s p (.resume p) (.checkLock variant) variant
        (surveyNext s.now {} cfg.adapters.entries)
  | props {variant : Variant} {i : Inspection} {answer : Except String RouterProps}
      (hi : i.props = none) :
      Surveys cfg s p (.props p answer) (.surveying variant i) variant (i.answerProps answer)
  | states {variant : Variant} {i : Inspection} {props : RouterProps}
      {answer : Except String (Dict String ModelState)} (hi : i.props = some props) :
      Surveys cfg s p (.states p answer) (.surveying variant i) variant
        (i.answerStates cfg.catalogue props answer)

/-- Where `track` leaves the request when it is done. -/
def trackEnd : Option Variant → Request
  | none => .finished .started
  | some variant => .checked variant

/-- `track` over `models` starts a `finish_load` for each of `pending` and
    leaves the request at `q`. -/
inductive TrackTo (heap : Ref → LoadedModel) (after : Option Variant) :
    List Ref → List Ref → Request → Prop
  | done {pending : List Ref} (hp : ∀ r ∈ pending, (heap r).ready = false) :
      TrackTo heap after pending pending (trackEnd after)
  | ask {pending rest : List Ref} {model : Ref} (hp : ∀ r ∈ pending, (heap r).ready = false)
      (hready : (heap model).ready = true) :
      TrackTo heap after (pending ++ model :: rest) pending (.tracking after model rest)

/-- The models that conflict with a job's. -/
def conflictsOf (s : State) (job : Job) : List Ref :=
  s.view.loaded.values.filter fun r => claimsConflict (s.heap r).variant job.variant

/-- The look with one more model judged idle. -/
def judged (cfg : Config) (look : Look) (r : Ref) (model : LoadedModel) : Look :=
  { look with seen := look.seen ++ [r] }.protect model
    (model.lastActivity + cfg.protectSeconds)

/-- What `place` returns to the request `q` that it does not place: it says why not, and its
    time is without end only if that of the look is. -/
structure Obstacle (q : Request) (placed : Blocked) : Prop where
  named : placed.reason ≠ ""
  ends : placed.untilTime = some ⊤ → ∃ job look, q = .judging job look ∧ look.untilTime = ⊤

/-- The steps that only move a request. -/
inductive Silent (cfg : Config) (s : State) (p : ℕ) : Act → Request → Request → Prop
  | unknown {id : String} (hid : cfg.catalogue.get id = none) :
      Silent cfg s p (.resume p) (.arrived id) (.finished (.unknownModel id))
  | recheck {id : String} {variant : Variant} (hid : cfg.catalogue.get id = some variant)
      (hunfit : s.view.problems ≠ []) :
      Silent cfg s p (.resume p) (.arrived id) (.checkLock variant)
  | clean {variant : Variant} (hfree : s.lockFree = true) (hfit : s.view.problems = []) :
      Silent cfg s p (.resume p) (.checkLock variant) (.checked variant)
  | survey {a : Act} {q : Request} {variant : Variant} {i : Inspection}
      (h : Surveys cfg s p a q variant (.inr i)) : Silent cfg s p a q (.surveying variant i)
  | unfit {variant : Variant} (hunfit : s.view.problems ≠ []) :
      Silent cfg s p (.resume p) (.checked variant) (.finished (.routerUnfit s.view.problems))
  | noTicket {job : Job} (hout : ∀ ticket ∈ s.waiting, ticket.serial ≠ job.ticket.serial) :
      Silent cfg s p (.resume p) (.looping job) (.finished .valueError)
  | inOrder {job : Job} {before after : List Ticket} {ticket : Ticket}
      (hsplit : s.waiting = before ++ ticket :: after)
      (hticket : ticket.serial = job.ticket.serial)
      (hfirst : ∀ other ∈ before, other.variant.id ≠ job.variant.id →
        claimsConflict other.variant job.variant = false) :
      Silent cfg s p (.resume p) (.looping job) (.placeLock job)
  | block {a : Act} {q : Request} {job : Job} {placed : Blocked} (hjob : q.job? = some job)
      (hplaced : Obstacle q placed) : Silent cfg s p a q (.blocked job placed)
  | list {job : Job} (hfree : s.lockFree = true) (hnone : s.recorded job.variant.id = none) :
      Silent cfg s p (.resume p) (.placeLock job)
        (.judging job { rest := conflictsOf s job, untilTime := s.now })
  | ask {job : Job} {look : Look} {r : Ref} {rest : List Ref} (hrest : look.rest = r :: rest)
      (hleaving : (s.heap r).leaving = false) (hactive : (s.heap r).active = 0)
      (hqueued : (s.heap r).queued = 0) (hready : (s.heap r).ready = true) :
      Silent cfg s p (.resume p) (.judging job look) (.observing job { look with rest := rest } r)
  | again {job : Job} {placed : Blocked} :
      Silent cfg s p (.resume p) (.blocked job placed) (.looping job)
  | sleep {job : Job} {placed : Blocked} {wake : Seconds}
      (hlasts : placed.untilTime.any (· ≤ (s.now : Seconds)) = false) :
      Silent cfg s p (.resume p) (.blocked job placed) (.waiting job wake)
  | wake {job : Job} {wake : Seconds} :
      Silent cfg s p (.resume p) (.waiting job wake) (.looping job)
  | cancelled {q : Request} (hq : q.job? = none) (hstart : q.isStart = false)
      (hj : ∀ r, q.joins r = false) (had : ∀ r, q.admittedTo r = false) :
      Silent cfg s p (.cancel p) q (.finished .cancelled)

/-- The steps that only move a task. -/
inductive Task.Silent (i : ℕ) : Act → Task → Task → Prop
  | start {victims : List Ref} {model : Ref} :
      Silent i (.run i) (.swapReady victims model) (swapNext [] victims model)
  | wait {model : Ref} : Silent i (.run i) (.finishReady model) (.finishWait model)
  | loaded {model : Ref} {answer : Unit} :
      Silent i (.call i (.ok answer)) (.swapLoad model) (.loadBaseline model .swap)
  | awaited {model : Ref} {answer : Unit} :
      Silent i (.call i (.ok answer)) (.finishWait model) (.loadBaseline model .finishLoad)

/-- The record of a decision: its request is the first in the queue. -/
def newModel (s : State) (job : Job) : LoadedModel :=
  { variant := job.variant, lastActivity := s.now, queued := 1, ready := false }

/-- The state after a decision, written out. -/
def committed (s : State) (p : ℕ) (job : Job) (victims : List Ref) : State :=
  { s.remove job.ticket with
    heap := fun r =>
      if r = s.next then newModel s job
      else if r ∈ victims then { s.heap r with leaving := true } else s.heap r
    next := s.next + 1
    view := { s.view with loaded := s.view.loaded.insert job.variant.id s.next }
    tasks := s.tasks ++ [.swapReady victims s.next]
    requests := s.requests.set p (.joining s.next) }

/-- The decision `place` commits when the request goes on, if it does: its job
    and the victims (lines 452–466). -/
def State.decision (s : State) (p : ℕ) : Option (Job × List Ref) :=
  match s.requests[p]? with
  | some (.judging job look) =>
    if look.rest.isEmpty && look.reason = "" && !look.seen.any fun r => (s.heap r).inUse then
      some (job, look.seen)
    else none
  | _ => none

/-- The problem `load_failed` reports. -/
def unconfirmed (id error : String) : String :=
  "loading " ++ Python.repr id ++ " failed (" ++ error ++
    "), and the router has not confirmed it is unloaded, so it keeps its resources until " ++
    "the router is checked again"

/-- The state after an install, before its `track`. -/
@[simps] def installed (s : State) (found : Survey) : State :=
  { s with
    heap := adopt s found
    next := s.next + found.loaded.entries.length
    view :=
      { loaded := mergeLoaded s found
        problems := found.problems
        build := Python.orElse found.build s.view.build } }

/-! ## Steps -/

/-- Every step of the scheduler. -/
inductive Step (cfg : Config) (s : State) : Act → State → Prop
  | tick {seconds : ℚ} (h : 0 ≤ seconds) : Step cfg s (.tick seconds) { s with now := s.now + seconds }
  | arrive {id : String} (h : s.started = true) :
      Step cfg s (.arrive id) { s with requests := s.requests ++ [.arrived id] }
  | silent {p : ℕ} {a : Act} {q q' : Request} (hq : s.requests[p]? = some q)
      (h : Silent cfg s p a q q') : Step cfg s a (s.goto p q')
  | enter {p : ℕ} {q : Request} {variant : Variant} (hq : s.requests[p]? = some q)
      (hfrom : q = .checked variant ∨
        ∃ id, q = .arrived id ∧ cfg.catalogue.get id = some variant)
      (hfit : s.view.problems = []) : Step cfg s (.resume p) (enter cfg s p variant)
  | install {p : ℕ} {a : Act} {q q' : Request} {variant : Variant} {found : Survey}
      {pending : List Ref} (hq : s.requests[p]? = some q)
      (h : Surveys cfg s p a q variant (.inl found))
      (htrack : TrackTo (adopt s found) (some variant) (newModels s found) pending q') :
      Step cfg s a (((installed s found).background (pending.map .finishReady)).goto p q')
  | baseline {p : ℕ} {after : Option Variant} {model : Ref} {rest pending : List Ref} {q' : Request}
      {answer : Except String ModelActivity}
      (hq : s.requests[p]? = some (.tracking after model rest))
      (htrack : TrackTo s.heap after rest pending q') :
      Step cfg s (.activity p answer)
        (((s.edit [model] fun m => m.withBaseline answer).background
          (pending.map .finishReady)).goto p q')
  | join {p : ℕ} {job : Job} {r : Ref} (hq : s.requests[p]? = some (.looping job))
      (hr : s.recorded job.variant.id = some r) (hleaving : (s.heap r).leaving = false)
      (hready : (s.heap r).ready = true) (herror : (s.heap r).error = none) :
      Step cfg s (.resume p)
        (((s.remove job.ticket).edit [r] fun m => { m with active := m.active + 1 }).goto p
          (.admitted r))
  | queue {p : ℕ} {job : Job} {r : Ref} (hq : s.requests[p]? = some (.looping job))
      (hr : s.recorded job.variant.id = some r) (hleaving : (s.heap r).leaving = false)
      (hready : (s.heap r).ready = false) :
      Step cfg s (.resume p)
        (((s.remove job.ticket).edit [r] fun m => { m with queued := m.queued + 1 }).goto p
          (.joining r))
  | quit {p : ℕ} {a : Act} {q : Request} {job : Job} {outcome : Outcome}
      (hq : s.requests[p]? = some q) (hjob : q.job? = some job)
      (ha : a = .resume p ∨ a = .cancel p) :
      Step cfg s a ((s.remove job.ticket).goto p (.finished outcome))
  | busy {p : ℕ} {job : Job} {look : Look} {model : Ref} {activity : ModelActivity}
      {placed : Blocked} (hq : s.requests[p]? = some (.observing job look model))
      (hwork : activity.working = true) (hplaced : Obstacle (.observing job look model) placed) :
      Step cfg s (.activity p (.ok activity))
        ((s.edit [model] fun m => m.observed s.now activity).goto p (.blocked job placed))
  | idle {p : ℕ} {job : Job} {look : Look} {model : Ref} {activity : ModelActivity}
      (hq : s.requests[p]? = some (.observing job look model))
      (hwork : activity.working = false) :
      Step cfg s (.activity p (.ok activity))
        ((s.edit [model] fun m => m.observed s.now activity).goto p
          (.judging job (judged cfg look model ((s.heap model).observed s.now activity))))
  | commit {p : ℕ} {job : Job} {look : Look} (hq : s.requests[p]? = some (.judging job look))
      (hrest : look.rest = []) (hreason : look.reason = "")
      (hidle : ∀ r ∈ look.seen, (s.heap r).inUse = false) :
      Step cfg s (.resume p) (committed s p job look.seen)
  | joined {p : ℕ} {r : Ref} (hq : s.requests[p]? = some (.joining r))
      (hready : (s.heap r).ready = true) (herror : (s.heap r).error = none) :
      Step cfg s (.resume p)
        ((s.edit [r] fun m => { m with queued := m.queued - 1, active := m.active + 1 }).goto p
          (.admitted r))
  | unjoin {p : ℕ} {a : Act} {r : Ref} {outcome : Outcome}
      (hq : s.requests[p]? = some (.joining r)) (ha : a = .resume p ∨ a = .cancel p) :
      Step cfg s a
        ((s.edit [r] fun m => { m with queued := m.queued - 1 }).goto p (.finished outcome))
  | release {p : ℕ} {a : Act} {r : Ref} {outcome : Outcome}
      (hq : s.requests[p]? = some (.admitted r)) (ha : a = .resume p ∨ a = .cancel p) :
      Step cfg s a
        ((s.edit [r] fun m => { m with active := m.active - 1, lastActivity := s.now }).goto p
          (.finished outcome))
  | task {i : ℕ} {a : Act} {k k' : Task} (hk : s.tasks[i]? = some k)
      (h : Task.Silent i a k k') : Step cfg s a (s.setTask i k')
  | unloaded {i : ℕ} {done rest : List Ref} {victim model r : Ref} {answer : Unit}
      (hk : s.tasks[i]? = some (.swapUnload done victim rest model))
      (hr : s.recorded (s.heap victim).variant.id = some r) :
      Step cfg s (.call i (.ok answer))
        ((s.delete (s.heap victim).variant.id).setTask i
          (swapNext (done ++ [victim]) rest model))
  | crash {i : ℕ} {done rest : List Ref} {victim model : Ref} {answer : Unit}
      (hk : s.tasks[i]? = some (.swapUnload done victim rest model))
      (hr : s.recorded (s.heap victim).variant.id = none) :
      Step cfg s (.call i (.ok answer)) (s.setTask i .crashed)
  | unloadFailed {i : ℕ} {done rest : List Ref} {victim model r : Ref} {error : String}
      (hk : s.tasks[i]? = some (.swapUnload done victim rest model))
      (hr : s.recorded (s.heap model).variant.id = some r) :
      Step cfg s (.call i (.error error))
        ((((s.edit (done ++ victim :: rest) fun m => { m with leaving := false }).delete
          (s.heap model).variant.id).edit [model] fun m =>
            { m with error := some error, ready := true }).setTask i .ended)
  | crashFailed {i : ℕ} {done rest : List Ref} {victim model : Ref} {error : String}
      (hk : s.tasks[i]? = some (.swapUnload done victim rest model))
      (hr : s.recorded (s.heap model).variant.id = none) :
      Step cfg s (.call i (.error error))
        ((s.edit (done ++ victim :: rest) fun m => { m with leaving := false }).setTask i .crashed)
  | loadFailed {i : ℕ} {k : Task} {model : Ref} {error : String} {loader : Loader}
      (hk : s.tasks[i]? = some k)
      (hfrom : (k = .swapLoad model ∧ loader = .swap) ∨
        (k = .finishWait model ∧ loader = .finishLoad)) :
      Step cfg s (.call i (.error error))
        ((s.edit [model] fun m => { m with error := some error }).setTask i
          (.loadQuery model error loader))
  | dropped {i : ℕ} {model : Ref} {error : String} {loader : Loader}
      {answer : Except String (Dict String ModelState)}
      (hk : s.tasks[i]? = some (.loadQuery model error loader))
      (hc : confirmsUnloaded (s.heap model).variant.id answer = true)
      (hr : s.recorded (s.heap model).variant.id = some model) :
      Step cfg s (.taskStates i answer)
        (((s.delete (s.heap model).variant.id).edit [model] fun m =>
          m.settled s.now loader).setTask i .ended)
  | gone {i : ℕ} {model : Ref} {error : String} {loader : Loader}
      {answer : Except String (Dict String ModelState)}
      (hk : s.tasks[i]? = some (.loadQuery model error loader))
      (hc : confirmsUnloaded (s.heap model).variant.id answer = true)
      (hr : s.recorded (s.heap model).variant.id ≠ some model) :
      Step cfg s (.taskStates i answer)
        ((s.edit [model] fun m => m.settled s.now loader).setTask i .ended)
  | unsure {i : ℕ} {model : Ref} {error : String} {loader : Loader}
      {answer : Except String (Dict String ModelState)}
      (hk : s.tasks[i]? = some (.loadQuery model error loader))
      (hc : confirmsUnloaded (s.heap model).variant.id answer = false) :
      Step cfg s (.taskStates i answer)
        (((s.report (unconfirmed (s.heap model).variant.id error)).edit [model] fun m =>
          m.settled s.now loader).setTask i .ended)
  | baselined {i : ℕ} {model : Ref} {loader : Loader} {answer : Except String ModelActivity}
      (hk : s.tasks[i]? = some (.loadBaseline model loader)) :
      Step cfg s (.taskActivity i answer)
        ((s.edit [model] fun m => (m.withBaseline answer).settled s.now loader).setTask i .ended)

/-! ## The executable step is one of them -/

theorem track_cases (s : State) (p : ℕ) (after : Option Variant) (models : List Ref) :
    ∃ pending q, TrackTo s.heap after models pending q ∧
      track s p after models = (s.background (pending.map .finishReady)).goto p q := by
  induction models generalizing s with
  | nil =>
    refine ⟨[], trackEnd after, .done (by simp), ?_⟩
    cases after <;> simp [track, trackEnd, State.background]
  | cons model rest ih =>
    rw [track]
    split_ifs with hready
    · have hask := @TrackTo.ask s.heap after [] rest model (by simp) hready
      exact ⟨[], _, hask, by simp [State.background]⟩
    · obtain ⟨pending, q, hto, heq⟩ := ih (s.background [.finishReady model])
      have hmodel : (s.heap model).ready = false := by simpa using hready
      refine ⟨model :: pending, q, ?_, by rw [heq]; simp [State.background, State.goto]⟩
      cases hto with
      | done hp => exact .done (List.forall_mem_cons.2 ⟨hmodel, hp⟩)
      | ask hp hr => exact .ask (List.forall_mem_cons.2 ⟨hmodel, hp⟩) hr

theorem TrackTo.congr {heap heap' : Ref → LoadedModel} {after : Option Variant}
    {models pending : List Ref} {q : Request} (h : TrackTo heap after models pending q)
    (hready : ∀ r, (heap' r).ready = (heap r).ready) : TrackTo heap' after models pending q := by
  cases h with
  | done hp => exact .done (by simpa [hready] using hp)
  | ask hp hr => exact .ask (by simpa [hready] using hp) (by rw [hready]; exact hr)

/-- Where `track` leaves the request. -/
theorem TrackTo.shape {heap : Ref → LoadedModel} {after : Option Variant}
    {models pending : List Ref} {q : Request} (h : TrackTo heap after models pending q) :
    q = trackEnd after ∨ ∃ model rest, q = .tracking after model rest := by
  cases h with
  | done => exact .inl rfl
  | ask => exact .inr ⟨_, _, rfl⟩

/-- Where `track` stops to ask for a baseline. -/
theorem TrackTo.asks {heap : Ref → LoadedModel} {after after' : Option Variant}
    {models pending rest : List Ref} {model : Ref}
    (h : TrackTo heap after models pending (.tracking after' model rest)) :
    after = after' ∧ models = pending ++ model :: rest ∧ (heap model).ready = true := by
  generalize hq : Request.tracking after' model rest = q at h
  cases h with
  | done => cases after <;> cases hq
  | ask _ hready => cases hq; exact ⟨rfl, rfl, hready⟩

theorem TrackTo.unready {heap : Ref → LoadedModel} {after : Option Variant}
    {models pending : List Ref} {q : Request} (h : TrackTo heap after models pending q) :
    ∀ r ∈ pending, (heap r).ready = false := by
  cases h with
  | done hp | ask hp => exact hp

/-- The models given a `finish_load` come first. -/
theorem TrackTo.prefix {heap : Ref → LoadedModel} {after : Option Variant}
    {models pending : List Ref} {q : Request} (h : TrackTo heap after models pending q) :
    ∃ later, models = pending ++ later := by
  cases h with
  | done => exact ⟨[], (List.append_nil _).symm⟩
  | ask => exact ⟨_, rfl⟩

theorem initial_cases (now : ℚ) (found : Survey) :
    ∃ pending q, TrackTo (adopt (blank now) found) none (adoptedRefs (blank now) found).values
        pending q ∧
      initial now found =
        ((booted now found).background (pending.map .finishReady)).goto 0 q :=
  track_cases (booted now found) 0 none (booted now found).view.loaded.values

/-- At first there is only the request of `start()`. -/
theorem initial_requests {now : ℚ} {found : Survey} {p : ℕ} {q : Request}
    (hp : (initial now found).requests[p]? = some q) :
    p = 0 ∧ (q = .finished .started ∨ ∃ model rest, q = .tracking none model rest) := by
  obtain ⟨pending, q₀, hto, heq⟩ := initial_cases now found
  rw [heq] at hp
  cases p with
  | zero =>
    obtain rfl : q₀ = q := Option.some.inj hp
    exact ⟨rfl, hto.shape⟩
  | succ p => cases hp

theorem initial_waiting (now : ℚ) (found : Survey) : (initial now found).waiting = [] := by
  obtain ⟨pending, q, -, heq⟩ := initial_cases now found
  rw [heq]
  rfl

section Segments

variable {cfg : Config} {s : State} {p : ℕ} {a : Act} {job : Job}

theorem step_surveyed {q : Request} {variant : Variant} {next : Survey ⊕ Inspection}
    (hq : s.requests[p]? = some q) (h : Surveys cfg s p a q variant next) :
    Step cfg s a (surveyed s p variant next) := by
  cases next with
  | inl found =>
    obtain ⟨pending, q', hto, heq⟩ :=
      track_cases (installed s found) p (some variant) (newModels s found)
    have hs : surveyed s p variant (.inl found) =
        track (installed s found) p (some variant) (newModels s found) := rfl
    rw [hs, heq]
    exact .install hq h hto
  | inr i => exact .silent hq (.survey h)

/-- The executable step of a survey. -/
theorem Surveys.step {q : Request} {variant : Variant} {next : Survey ⊕ Inspection}
    (hq : s.requests[p]? = some q) (h : Surveys cfg s p a q variant next) :
    step cfg s a = some (surveyed s p variant next) := by
  cases h with
  | start hfree hunfit => simp [ModelBroker.step, hq, resume, hfree, hunfit]
  | props hi => simp [ModelBroker.step, hq, hi]
  | states hi => simp [ModelBroker.step, hq, hi]

theorem Obstacle.finite {q : Request} {placed : Blocked} (hnamed : placed.reason ≠ "")
    (hfinite : placed.untilTime ≠ some ⊤) : Obstacle q placed :=
  ⟨hnamed, fun hend => absurd hend hfinite⟩

theorem step_join {r : Ref} (hq : s.requests[p]? = some (.looping job))
    (hr : s.recorded job.variant.id = some r) (hleaving : (s.heap r).leaving = false) :
    Step cfg s (.resume p) (join (s.remove job.ticket) p r) := by
  unfold join
  simp only [State.remove_heap]
  split_ifs with hready
  · split
    · exact .quit hq rfl (.inl rfl)
    · next herror => exact .join hq hr hleaving hready herror
  · exact .queue hq hr hleaving (by simpa using hready)

theorem step_loopHead (hq : s.requests[p]? = some (.looping job)) :
    Step cfg s (.resume p) (loopHead s p job) := by
  unfold loopHead
  split
  · next r hr =>
    obtain ⟨hr, hleaving⟩ := Option.filter_eq_some_iff.1 hr
    exact step_join hq hr (by simpa using hleaving)
  · split
    · next hnone =>
      have hout := List.findIdx?_eq_none_iff.1 hnone
      exact .silent hq (.noTicket (by simpa using hout))
    · next index hsome =>
      obtain ⟨hlt, hserial, -⟩ := List.findIdx?_eq_some_iff_getElem.1 hsome
      split_ifs with hearlier
      · exact .silent hq (.block rfl (.finite (by simp) (by simp)))
      · have hsplit : s.waiting =
            s.waiting.take index ++ s.waiting[index] :: s.waiting.drop (index + 1) := by
          rw [List.getElem_cons_drop, List.take_append_drop]
        refine .silent hq (.inOrder hsplit (by simpa using hserial) ?_)
        · intro other hmem hne
          simp only [List.any_eq_true, not_exists, not_and] at hearlier
          simpa [hne] using hearlier other hmem

theorem step_place (hq : s.requests[p]? = some (.placeLock job)) (hfree : s.lockFree = true) :
    Step cfg s (.resume p) (place s p job) := by
  unfold place
  split
  · split_ifs
    · exact .silent hq (.block rfl (.finite (by simp) (by simp)))
    · exact .silent hq (.block rfl (.finite (by simp) (by simp)))
  · next hnone => exact .silent hq (.list hfree hnone)

theorem commit_eq (s : State) (p : ℕ) (job : Job) (victims : List Ref) :
    commit s p job victims = committed s p job victims := by
  have hheap : ∀ r, (commit s p job victims).heap r = (committed s p job victims).heap r := by
    intro r
    by_cases hr : r = s.next
    · simp [commit, join, committed, newModel, hr]
    · simp [commit, join, committed, hr]
  have hrest : commit s p job victims =
      { committed s p job victims with heap := (commit s p job victims).heap } := by
    simp [commit, join, committed, State.goto, State.edit, State.background, State.remove]
  rw [hrest, funext hheap]

theorem step_judge {look : Look} (hq : s.requests[p]? = some (.judging job look)) :
    Step cfg s (.resume p) (judge s p job look) := by
  unfold judge
  split
  · next hrest =>
    split_ifs with hreason hused
    · refine .silent hq (.block rfl ⟨hreason, fun hend => ⟨job, look, rfl, ?_⟩⟩)
      exact Option.some.inj hend
    · exact .silent hq (.block rfl (.finite (by simp) (by simp)))
    · rw [commit_eq]
      exact .commit hq hrest (by simpa using hreason) (by simpa using hused)
  · next r rest hrest =>
    dsimp only
    split_ifs with hleaving hbusy
    · exact .silent hq (.block rfl (.finite (by simp) (by simp)))
    · exact .silent hq (.block rfl (.finite (by simp) (by simp)))
    · simp only [not_or, Decidable.not_not, Bool.not_eq_false] at hbusy
      exact .silent hq (.ask hrest (by simpa using hleaving) hbusy.1 hbusy.2.1 hbusy.2.2)

theorem step_afterBlocked {placed : Blocked}
    (hq : s.requests[p]? = some (.blocked job placed)) :
    Step cfg s (.resume p) (afterBlocked cfg s p job placed) := by
  unfold afterBlocked
  dsimp only
  split_ifs with hgone
  · exact .silent hq .again
  · exact .quit hq rfl (.inl rfl)
  · exact .quit hq rfl (.inl rfl)
  · exact .silent hq (.sleep (by simpa using hgone))

/-- `busy` after an observation that finds the model idle. -/
theorem observe_idle (cfg : Config) (s : State) (p : ℕ) (job : Job) (look : Look) (model : Ref)
    {activity : ModelActivity} (hidle : activity.working = false) :
    observe cfg s p job look model (.ok activity) =
      (s.edit [model] fun m => m.observed s.now activity).goto p
        (.judging job (judged cfg look model ((s.heap model).observed s.now activity))) := by
  have hself : (s.edit [model] fun m => m.observed s.now activity).heap model =
      (s.heap model).observed s.now activity := by simp
  simp only [observe, hidle, hself]
  rfl

theorem step_observe {look : Look} {model : Ref} (answer : Except String ModelActivity)
    (hq : s.requests[p]? = some (.observing job look model)) :
    Step cfg s (.activity p answer) (observe cfg s p job look model answer) := by
  cases answer with
  | error error => exact .silent hq (.block rfl (.finite (by simp) (by simp)))
  | ok activity =>
    cases hwork : activity.working with
    | true => simpa [observe, hwork] using .busy hq hwork (.finite (by simp) (by simp))
    | false =>
      rw [observe_idle cfg s p job look model hwork]
      exact .idle hq hwork

theorem step_joined {r : Ref} (hq : s.requests[p]? = some (.joining r))
    (hready : (s.heap r).ready = true) : Step cfg s (.resume p) (joined s p r) := by
  unfold joined
  simp only [State.edit_heap, List.mem_singleton, if_true]
  split
  · exact .unjoin hq (.inl rfl)
  · next herror =>
    rw [State.edit_edit]
    exact .joined hq hready herror

theorem step_resume {q : Request} {t : State} (hq : s.requests[p]? = some q)
    (h : resume cfg s p q = some t) : Step cfg s (.resume p) t := by
  cases q with
  | arrived id =>
    simp only [resume] at h
    split at h
    · next hid => cases h; exact .silent hq (.unknown hid)
    · next variant hid =>
      split_ifs at h with hfit <;> cases h
      · exact .enter hq (.inr ⟨id, rfl, hid⟩) hfit
      · exact .silent hq (.recheck hid hfit)
  | checkLock variant =>
    simp only [resume] at h
    split_ifs at h with hfree hfit <;> cases h
    · exact .silent hq (.clean hfree hfit)
    · exact step_surveyed hq (.start hfree hfit)
  | checked variant =>
    simp only [resume] at h
    split_ifs at h with hfit <;> cases h
    · exact .enter hq (.inl rfl) hfit
    · exact .silent hq (.unfit hfit)
  | looping job => cases h; exact step_loopHead hq
  | placeLock job =>
    simp only [resume] at h
    split_ifs at h with hfree
    cases h
    exact step_place hq hfree
  | judging job look => cases h; exact step_judge hq
  | blocked job placed => cases h; exact step_afterBlocked hq
  | waiting job wake => cases h; exact .silent hq .wake
  | joining model =>
    simp only [resume] at h
    split_ifs at h with hready
    cases h
    exact step_joined hq hready
  | admitted model => cases h; exact .release hq (.inl rfl)
  | surveying | tracking | observing | finished => cases h

theorem step_cancel {q : Request} {t : State} (hq : s.requests[p]? = some q)
    (h : cancel s p q = some t) : Step cfg s (.cancel p) t := by
  cases q with
  | arrived | checkLock | surveying =>
    cases h
    exact .silent hq (.cancelled rfl rfl (fun _ => rfl) fun _ => rfl)
  | tracking after model rest =>
    cases after with
    | none => cases h
    | some variant =>
      cases h
      exact .silent hq (.cancelled rfl rfl (fun _ => rfl) fun _ => rfl)
  | placeLock | observing | waiting => cases h; exact .quit hq rfl (.inr rfl)
  | joining model => cases h; exact .unjoin hq (.inr rfl)
  | admitted model => cases h; exact .release hq (.inr rfl)
  | checked | looping | judging | blocked | finished => cases h

theorem step_call {i : ℕ} {answer : Except String Unit} {t : State}
    (h : step cfg s (.call i answer) = some t) : Step cfg s (.call i answer) t := by
  simp only [step] at h
  split at h
  · next done victim rest model _ hk =>
    cases h
    unfold unloaded
    split
    · next hr => exact .crash hk hr
    · next hr => exact .unloaded hk hr
  · next done victim rest model error hk =>
    cases h
    unfold unloadFailed
    dsimp only
    split
    · next hr => exact .crashFailed hk hr
    · next hr => exact .unloadFailed hk hr
  · next hk => cases h; exact .task hk .loaded
  · next hk => cases h; exact .loadFailed hk (.inl ⟨rfl, rfl⟩)
  · next hk => cases h; exact .task hk .awaited
  · next hk => cases h; exact .loadFailed hk (.inr ⟨rfl, rfl⟩)
  · cases h

theorem step_queried {i : ℕ} {model : Ref} {error : String} {loader : Loader}
    {answer : Except String (Dict String ModelState)}
    (hk : s.tasks[i]? = some (.loadQuery model error loader)) :
    Step cfg s (.taskStates i answer) (queried s i model error loader answer) := by
  unfold queried
  dsimp only
  split_ifs with hc hr
  · exact .dropped hk hc hr
  · exact .gone hk hc hr
  · exact .unsure hk (by simpa using hc)

end Segments

/-- The executable step takes the scheduler nowhere else. -/
theorem step_cases {cfg : Config} {s t : State} {a : Act} (h : step cfg s a = some t) :
    Step cfg s a t := by
  cases a with
  | tick seconds =>
    simp only [step] at h
    split_ifs at h with hd
    cases h
    exact .tick hd
  | arrive id =>
    simp only [step] at h
    split_ifs at h with hs
    cases h
    exact .arrive hs
  | resume p =>
    obtain ⟨q, hq, hres⟩ := Option.bind_eq_some_iff.1 h
    exact step_resume hq hres
  | cancel p =>
    obtain ⟨q, hq, hres⟩ := Option.bind_eq_some_iff.1 h
    exact step_cancel hq hres
  | props p answer =>
    simp only [step] at h
    split at h
    · next hq =>
      split_ifs at h with hi
      cases h
      exact step_surveyed hq (.props (by simpa using hi))
    · cases h
  | states p answer =>
    simp only [step] at h
    split at h
    · next hq =>
      obtain ⟨props, hi, rfl⟩ := Option.map_eq_some_iff.1 h
      exact step_surveyed hq (.states hi)
    · cases h
  | activity p answer =>
    simp only [step] at h
    split at h
    · next after model rest hq =>
      cases h
      obtain ⟨pending, q, hto, heq⟩ :=
        track_cases (s.edit [model] fun m => m.withBaseline answer) p after rest
      rw [heq]
      refine .baseline hq (hto.congr fun r => ?_)
      by_cases hr : r = model <;> cases answer <;> simp [hr, LoadedModel.withBaseline]
    · next hq => cases h; exact step_observe answer hq
    · cases h
  | run i =>
    simp only [step] at h
    split at h
    · next hk => cases h; exact .task hk .start
    · next hk => cases h; exact .task hk .wait
    · cases h
  | call i answer => exact step_call h
  | taskStates i answer =>
    simp only [step] at h
    split at h
    · next hk => cases h; exact step_queried hk
    · cases h
  | taskActivity i answer =>
    simp only [step] at h
    split at h
    · next hk =>
      cases h
      unfold settle
      rw [State.edit_edit]
      exact .baselined hk
    · cases h

theorem decision_eq_some {s : State} {p : ℕ} {job : Job} {victims : List Ref} :
    s.decision p = some (job, victims) ↔
      ∃ look, s.requests[p]? = some (.judging job look) ∧ look.rest = [] ∧ look.reason = "" ∧
        (∀ r ∈ look.seen, (s.heap r).inUse = false) ∧ victims = look.seen := by
  unfold State.decision
  constructor
  · intro h
    split at h
    · next job' look hq =>
      split_ifs at h with hc
      obtain ⟨rfl, rfl⟩ := Prod.mk.inj (Option.some.inj h)
      simp only [Bool.and_eq_true, List.isEmpty_iff, decide_eq_true_eq, Bool.not_eq_true',
        List.any_eq_false, Bool.not_eq_true] at hc
      exact ⟨look, hq, hc.1.1, hc.1.2, hc.2, rfl⟩
    · cases h
  · rintro ⟨look, hq, hrest, hreason, hidle, rfl⟩
    rw [hq]
    simpa [hrest, hreason] using hidle

/-- A request with a decision commits it when it goes on. -/
theorem step_decision {cfg : Config} {s : State} {p : ℕ} {job : Job} {victims : List Ref}
    (h : s.decision p = some (job, victims)) :
    step cfg s (.resume p) = some (committed s p job victims) := by
  obtain ⟨look, hq, hrest, hreason, hidle, rfl⟩ := decision_eq_some.1 h
  have hany : (look.seen.any fun r => (s.heap r).inUse) = false := by simpa using hidle
  rw [← commit_eq]
  simp [step, hq, resume, judge, hrest, hreason, hany]

/-! ## Requests with a job -/

theorem TrackTo.job {heap : Ref → LoadedModel} {after : Option Variant} {models pending : List Ref}
    {q : Request} (h : TrackTo heap after models pending q) : q.job? = none := by
  cases h with
  | done => cases after <;> rfl
  | ask => rfl

/-- How a request with a job comes to be where it is after a step. -/
inductive JobStep (cfg : Config) (s : State) (p : ℕ) (a : Act) (t : State) : Request → Prop
  | same {q : Request} (hp : s.requests[p]? = some q) : JobStep cfg s p a t q
  | head {job : Job} : JobStep cfg s p a t (.looping job)
  | silent {q₀ q : Request} (hp : s.requests[p]? = some q₀) (h : Silent cfg s p a q₀ q)
      (ht : t = s.goto p q) : JobStep cfg s p a t q
  | busy {job : Job} {look : Look} {model : Ref} {placed : Blocked}
      (hp : s.requests[p]? = some (.observing job look model))
      (hplaced : Obstacle (.observing job look model) placed) :
      JobStep cfg s p a t (.blocked job placed)
  | idle {job : Job} {look : Look} {model : Ref} {activity : ModelActivity} {q : Request}
      (hp : s.requests[p]? = some (.observing job look model))
      (ha : a = .activity p (.ok activity)) (hwork : activity.working = false)
      (hq : q = .judging job
        (judged cfg look model ((s.heap model).observed s.now activity)))
      (ht : t = (s.edit [model] fun m => m.observed s.now activity).goto p q) :
      JobStep cfg s p a t q

/-- A request that has a job after a step has it from the step, or had it before. -/
theorem step_job {cfg : Config} {s t : State} {a : Act} (h : Step cfg s a t) {p : ℕ} {q : Request}
    {job : Job} (hp : t.requests[p]? = some q) (hj : q.job? = some job) : JobStep cfg s p a t q := by
  have other : ∀ {i : ℕ} {q₀ b : Request}, s.requests[i]? = some q₀ →
      t.requests = s.requests.set i b → b.job? = none → JobStep cfg s p a t q := by
    intro i q₀ b h₀ heq hb
    rw [heq] at hp
    rcases (Table.get_set h₀).1 hp with ⟨-, rfl⟩ | ⟨-, hp⟩
    · rw [hj] at hb
      cases hb
    · exact .same hp
  cases h with
  | arrive =>
    rcases Table.get_push.1 hp with ⟨-, rfl⟩ | hp
    · cases hj
    · exact .same hp
  | silent h₀ h =>
    rcases (Table.get_set h₀).1 hp with ⟨rfl, rfl⟩ | ⟨-, hp⟩
    · exact .silent h₀ h rfl
    · exact .same hp
  | enter h₀ =>
    rcases (Table.get_set h₀).1 hp with ⟨rfl, rfl⟩ | ⟨-, hp⟩
    · exact .head
    · exact .same hp
  | busy h₀ _ hplaced =>
    rcases (Table.get_set h₀).1 hp with ⟨rfl, rfl⟩ | ⟨-, hp⟩
    · exact .busy h₀ hplaced
    · exact .same hp
  | idle h₀ hwork =>
    rcases (Table.get_set h₀).1 hp with ⟨rfl, rfl⟩ | ⟨-, hp⟩
    · exact .idle h₀ rfl hwork rfl rfl
    · exact .same hp
  | install h₀ _ hto | baseline h₀ hto => exact other h₀ rfl hto.job
  | join h₀ | queue h₀ | quit h₀ | commit h₀ | joined h₀ | unjoin h₀ | release h₀ =>
    exact other h₀ rfl rfl
  | tick | task | unloaded | crash | unloadFailed | crashFailed | loadFailed | dropped | gone
  | unsure | baselined => exact .same hp

/-! ## Runs -/

/-- What holds at first, whatever the survey has found, and is preserved by every
    step holds in every run. -/
theorem invariant_reach {cfg : Config} {ok : State → Act → Prop} {I : State → Prop} {s : State}
    (h0 : ∀ now found, found.Complete cfg → I (initial now found))
    (hs : ∀ s a t, (scheduler cfg).Reach ok s → I s → ok s a → Step cfg s a t → I t)
    (h : (scheduler cfg).Reach ok s) : I s := by
  refine h.invariant ?_ ?_
  · rintro s ⟨earlier, now, answer, -, rfl⟩
    exact h0 now _ (survey_complete cfg earlier answer)
  · intro s a t hreach hI hok hstep
    exact hs s a t hreach hI hok (step_cases hstep)

/-- A test that succeeds after the actions succeeds in a reachable state. -/
theorem reach_run (cfg : Config) (ok : State → Act → Bool) (now : ℚ)
    (answer : String → ServerAnswer) (acts : List Act) (P : State → Bool)
    (h : ((scheduler cfg).run ok (initial now (survey cfg now answer)) acts).any P = true) :
    ∃ s, (scheduler cfg).Reach (fun s a => ok s a = true) s ∧ P s = true := by
  have h0 : (scheduler cfg).init (initial now (survey cfg now answer)) :=
    ⟨now, now, answer, le_refl now, rfl⟩
  exact System.exists_reach h0 acts P h

/-- Every server answers, and has nothing loaded. -/
def nothingLoaded : String → ServerAnswer := fun _ => .ok (⟨0, false, none⟩, ∅)

end ModelBroker
