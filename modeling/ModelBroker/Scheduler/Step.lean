import ModelBroker.Lib.Runs
import ModelBroker.Scheduler.State

/-!
# What the scheduler does between two points

Models of the methods of `Scheduler` (`scheduler.py`, lines 291–601), each as the
code it runs from one point to the next, and the labelled system `scheduler`
they make. An answer to a call of a backend is an `Except`: an error is a
`BackendError`, given by its text.
-/

namespace ModelBroker

namespace LoadedModel

/-- `in_progress` of `reinspect` (line 404). -/
def inProgress (model : LoadedModel) : Bool :=
  decide (model.active ≠ 0) || model.leaving || !model.ready

/-- The test of the second check of `place` (line 457). -/
def inUse (model : LoadedModel) : Bool :=
  decide (model.active ≠ 0) || decide (model.queued ≠ 0) || model.leaving

/-- What `busy` records after an observation (lines 575–579). Without a baseline
    the model counts as having worked. -/
def observed (model : LoadedModel) (now : ℚ) (activity : ModelActivity) : LoadedModel :=
  { model with
    lastActivity := if model.decodeCalls ≠ some activity.decodeCalls then now
                    else model.lastActivity
    decodeCalls := some activity.decodeCalls }

/-- What `record_baseline` records (lines 547–557). -/
def withBaseline (model : LoadedModel) : Except String ModelActivity → LoadedModel
  | .ok activity => { model with decodeCalls := some activity.decodeCalls }
  | .error _ => model

/-- The `finally` of `swap` (lines 501–504) or of `finish_load` (lines 516–518). -/
def settled (model : LoadedModel) (now : ℚ) (loader : Loader) : LoadedModel :=
  { model with
    lastActivity := if loader = .swap then now else model.lastActivity
    ready := true }

end LoadedModel

variable (cfg : Config)

/-! ## `track` -/

/-- The loop of `track` (lines 309–318) over the models that are left: every one
    still loading gets a `finish_load`, and the first that is ready is asked
    for its baseline. -/
def track (s : State) (p : ℕ) (after : Option Variant) : List Ref → State
  | [] =>
    match after with
    | none => s.goto p (.finished .started)
    | some variant => s.goto p (.checked variant)
  | model :: rest =>
    if (s.heap model).ready then s.goto p (.tracking after model rest)
    else track (s.background [.finishReady model]) p after rest

/-! ## `reinspect` -/

/-- The adopted records of a survey, each with the reference it is given. -/
def adoptedRefs (s : State) (found : Survey) : Dict String Ref := found.loaded.number s.next

/-- The merged dictionary (lines 399–407). -/
def mergeLoaded (s : State) (found : Survey) : Dict String Ref :=
  ((adoptedRefs s found).mapValues fun id adopted =>
    match s.recorded id with
    | some current => if (s.heap current).error.isNone then current else adopted
    | none => adopted).addMissing
  (s.view.loaded.filter fun _ current =>
    (s.heap current).inProgress ||
      found.unreachable.contains (s.heap current).variant.backend)

/-- The list `new` (lines 408–410). -/
def newModels (s : State) (found : Survey) : List Ref :=
  ((mergeLoaded s found).entries.filter fun e => s.recorded e.1 ≠ some e.2).map Prod.snd

/-- The heap with the records of a survey. -/
def adopt (s : State) (found : Survey) : Ref → LoadedModel := fun r =>
  match found.loaded.entries[r - s.next]? with
  | some entry => if s.next ≤ r then entry.2 else s.heap r
  | none => s.heap r

/-- `reinspect` (lines 389–417) from the end of its survey on. -/
def install (s : State) (p : ℕ) (variant : Variant) (found : Survey) : State :=
  track
    { s with
      heap := adopt s found
      next := s.next + found.loaded.entries.length
      view :=
        { loaded := mergeLoaded s found
          problems := found.problems
          build := Python.orElse found.build s.view.build } }
    p (some variant) (newModels s found)

/-- The survey goes on or ends. -/
def surveyed (s : State) (p : ℕ) (variant : Variant) : Survey ⊕ Inspection → State
  | .inl found => install s p variant found
  | .inr i => s.goto p (.surveying variant i)

/-! ## `acquire` -/

/-- The lines of `acquire` before its loop (lines 350–352). -/
def enter (s : State) (p : ℕ) (variant : Variant) : State :=
  let ticket : Ticket := ⟨s.tickets, variant⟩
  { s with waiting := s.waiting ++ [ticket], tickets := s.tickets + 1 }.goto p
    (.looping ⟨ticket, s.now + cfg.maxWaitSeconds⟩)

/-- `join` (lines 419–430) up to its `await` or its end. -/
def join (s : State) (p : ℕ) (model : Ref) : State :=
  if (s.heap model).ready then
    match (s.heap model).error with
    | some error => s.goto p (.finished (.loadFailed error))
    | none => (s.edit [model] fun m => { m with active := m.active + 1 }).goto p (.admitted model)
  else (s.edit [model] fun m => { m with queued := m.queued + 1 }).goto p (.joining model)

/-- `join` after `ready.wait()` (lines 425–430). -/
def joined (s : State) (p : ℕ) (model : Ref) : State :=
  let s := s.edit [model] fun m => { m with queued := m.queued - 1 }
  match (s.heap model).error with
  | some error => s.goto p (.finished (.loadFailed error))
  | none => (s.edit [model] fun m => { m with active := m.active + 1 }).goto p (.admitted model)

/-- The `finally` of `admit` (lines 339–343). -/
def release (s : State) (p : ℕ) (model : Ref) (outcome : Outcome) : State :=
  (s.edit [model] fun m => { m with active := m.active - 1, lastActivity := s.now }).goto p
    (.finished outcome)

/-- The head of the loop of `acquire` (lines 356–360) and `place` up to its
    lock (lines 438–444). -/
def loopHead (s : State) (p : ℕ) (job : Job) : State :=
  match (s.recorded job.variant.id).filter fun r => !(s.heap r).leaving with
  | some model => join (s.remove job.ticket) p model
  | none =>
    match s.waiting.findIdx? fun other => other.serial = job.ticket.serial with
    | none => s.goto p (.finished .valueError)
    | some index =>
      if (s.waiting.take index).any fun other =>
          other.variant.id ≠ job.variant.id && claimsConflict other.variant job.variant then
        s.goto p (.blocked job ⟨"an earlier request is waiting for the same resources", none⟩)
      else s.goto p (.placeLock job)

/-- The lines of `acquire` after a `Blocked` (lines 363–373). An `until` of zero
    is false in the tests of lines 370 and 372, and an `until` of `inf` has no
    `math.ceil`. -/
def afterBlocked (s : State) (p : ℕ) (job : Job) (placed : Blocked) : State :=
  let known := placed.untilTime.filter (· ≠ 0)
  if placed.untilTime.any (· ≤ (s.now : Seconds)) then s.goto p (.looping job)
  else if job.deadline ≤ s.now then
    if known = some ⊤ then (s.remove job.ticket).goto p (.finished .overflowError)
    else
      let retry := (known.map (·.untopD 0 - s.now)).getD busyRetryAfterSeconds
      (s.remove job.ticket).goto p
        (.finished (.resourceBusy placed.reason (max 1 ⌈retry⌉)))
  else
    let recheck := known.getD (s.now + cfg.pollSeconds : ℚ)
    s.goto p (.waiting job (max (s.now : Seconds) (min recheck job.deadline)))

/-! ## `place` and `busy` -/

/-- `place` once it has the lock (lines 446–451), up to `busy`. -/
def place (s : State) (p : ℕ) (job : Job) : State :=
  match s.recorded job.variant.id with
  | some existing =>
    if (s.heap existing).leaving then
      s.goto p (.blocked job ⟨Python.repr job.variant.id ++ " is being unloaded", none⟩)
    else s.goto p (.blocked job ⟨"loaded by another request", some s.now⟩)
  | none =>
    let conflicts := s.view.loaded.values.filter fun r =>
      claimsConflict (s.heap r).variant job.variant
    s.goto p (.judging job { rest := conflicts, untilTime := s.now })

/-- The decision of `place` (lines 459–466), and the `join` with which `acquire`
    goes on (line 362). -/
def commit (s : State) (p : ℕ) (job : Job) (victims : List Ref) : State :=
  let model := s.next
  let s := (s.remove job.ticket).edit victims fun m => { m with leaving := true }
  let s := { s with
    heap := Function.update s.heap model
      { variant := job.variant, lastActivity := s.now, ready := false }
    next := model + 1
    view := { s.view with loaded := s.view.loaded.insert job.variant.id model } }
  join (s.background [.swapReady victims model]) p model

/-- `busy` at the next model up to its observation (lines 563–572), or `busy`
    after its loop (line 591) and the second check of `place` (lines 452–458). -/
def judge (s : State) (p : ℕ) (job : Job) (look : Look) : State :=
  match look.rest with
  | [] =>
    if look.reason ≠ "" then s.goto p (.blocked job ⟨look.reason, some look.untilTime⟩)
    else if look.seen.any fun r => (s.heap r).inUse then
      s.goto p (.blocked job ⟨"a conflicting model was just used", some s.now⟩)
    else commit s p job look.seen
  | r :: rest =>
    let name := Python.repr (s.heap r).variant.id
    if (s.heap r).leaving then s.goto p (.blocked job ⟨name ++ " is being unloaded", none⟩)
    else if (s.heap r).active ≠ 0 ∨ (s.heap r).queued ≠ 0 ∨ (s.heap r).ready = false then
      s.goto p
        (.blocked job ⟨name ++ " is loading, working, or has requests waiting", none⟩)
    else s.goto p (.observing job { look with rest := rest } r)

/-- The server's name in a message of `busy` (line 586). -/
def serverName (backend : String) : String :=
  if backend = "llama" then "llama.cpp" else (cfg.adapters.get backend).getD ""

/-- `until` and `reason` after one more idle model (lines 588–590). -/
def Look.protect (look : Look) (model : LoadedModel) (protectedUntil : Seconds) : Look :=
  if look.untilTime < protectedUntil then
    { look with
      untilTime := protectedUntil
      reason := Python.repr model.variant.id ++ " was used recently" }
  else look

/-- `busy` after an observation (lines 573–590). -/
def observe (s : State) (p : ℕ) (job : Job) (look : Look) (model : Ref) :
    Except String ModelActivity → State
  | .error error =>
    s.goto p (.blocked job
      ⟨"cannot see whether " ++ Python.repr (s.heap model).variant.id ++ " is idle: " ++ error,
        none⟩)
  | .ok activity =>
    let s := s.edit [model] fun m => m.observed s.now activity
    if activity.working then
      s.goto p (.blocked job
        ⟨Python.repr (s.heap model).variant.id ++ " is working or has requests queued in " ++
          serverName cfg (s.heap model).variant.backend, none⟩)
    else
      s.goto p (.judging job
        ({ look with seen := look.seen ++ [model] }.protect (s.heap model)
          ((s.heap model).lastActivity + cfg.protectSeconds)))

/-! ## What a request does next -/

/-- A request goes on by itself. -/
def resume (s : State) (p : ℕ) : Request → Option State
  | .arrived id =>
    match cfg.catalogue.get id with
    | none => some (s.goto p (.finished (.unknownModel id)))
    | some variant =>
      if s.view.problems = [] then some (enter cfg s p variant)
      else some (s.goto p (.checkLock variant))
  | .checkLock variant =>
    if s.lockFree then
      if s.view.problems = [] then some (s.goto p (.checked variant))
      else some (surveyed s p variant (surveyNext s.now {} cfg.adapters.entries))
    else none
  | .checked variant =>
    if s.view.problems = [] then some (enter cfg s p variant)
    else some (s.goto p (.finished (.routerUnfit s.view.problems)))
  | .looping job => some (loopHead s p job)
  | .placeLock job => if s.lockFree then some (place s p job) else none
  | .judging job look => some (judge s p job look)
  | .blocked job placed => some (afterBlocked cfg s p job placed)
  | .waiting job _ => some (s.goto p (.looping job))
  | .joining model => if (s.heap model).ready then some (joined s p model) else none
  | .admitted model => some (release s p model .released)
  | _ => none

/-- A request is cancelled where it is suspended. -/
def cancel (s : State) (p : ℕ) : Request → Option State
  | .arrived _ | .checkLock _ | .surveying _ _ | .tracking (some _) _ _ =>
    some (s.goto p (.finished .cancelled))
  | .placeLock job | .observing job _ _ | .waiting job _ =>
    some ((s.remove job.ticket).goto p (.finished .cancelled))
  | .joining model =>
    some ((s.edit [model] fun m => { m with queued := m.queued - 1 }).goto p
      (.finished .cancelled))
  | .admitted model => some (release s p model .cancelled)
  | _ => none

/-! ## `swap`, `finish_load` and `load_failed` -/

/-- The loop of `swap` at its head (lines 478–480 and 493–495): unload the next
    victim, or load the model. -/
def swapNext (done rest : List Ref) (model : Ref) : Task :=
  match rest with
  | [] => .swapLoad model
  | victim :: rest => .swapUnload done victim rest model

/-- `swap` after `unload(victim)` returned (lines 481–482). -/
def unloaded (s : State) (t : ℕ) (done : List Ref) (victim : Ref) (rest : List Ref)
    (model : Ref) : State :=
  match s.recorded (s.heap victim).variant.id with
  | none => s.setTask t .crashed
  | some _ =>
    (s.delete (s.heap victim).variant.id).setTask t (swapNext (done ++ [victim]) rest model)

/-- `swap` after an unload failed (lines 483–492). -/
def unloadFailed (s : State) (t : ℕ) (victims : List Ref) (model : Ref) (error : String) : State :=
  let id := (s.heap model).variant.id
  let cleared := s.edit victims fun m => { m with leaving := false }
  match s.recorded id with
  | none => cleared.setTask t .crashed
  | some _ =>
    ((cleared.delete id).edit [model] fun m =>
      { m with error := some error, ready := true }).setTask t .ended

/-- The end of `swap` or `finish_load`, marking its model ready. -/
def settle (s : State) (t : ℕ) (model : Ref) (loader : Loader) : State :=
  (s.edit [model] fun m => m.settled s.now loader).setTask t .ended

/-- `load_failed` (lines 520–545) up to its `await`. -/
def loadFailed (s : State) (t : ℕ) (model : Ref) (error : String) (loader : Loader) : State :=
  (s.edit [model] fun m => { m with error := some error }).setTask t
    (.loadQuery model error loader)

/-- `state is None or state.value == "unloaded"`, or `False` after an error
    (lines 530–535). -/
def confirmsUnloaded (id : String) : Except String (Dict String ModelState) → Bool
  | .error _ => false
  | .ok states => (states.get id).all (·.value = "unloaded")

/-- `load_failed` after its `await` (lines 531–545). -/
def queried (s : State) (t : ℕ) (model : Ref) (error : String) (loader : Loader)
    (answer : Except String (Dict String ModelState)) : State :=
  let id := (s.heap model).variant.id
  if confirmsUnloaded id answer then
    settle (if s.recorded id = some model then s.delete id else s) t model loader
  else
    settle (s.report ("loading " ++ Python.repr id ++ " failed (" ++ error ++
      "), and the router has not confirmed it is unloaded, so it keeps its resources until " ++
      "the router is checked again")) t model loader

/-! ## The labelled system -/

/-- One step of the event loop. -/
def step (s : State) : Act → Option State
  | .tick seconds => if 0 ≤ seconds then some { s with now := s.now + seconds } else none
  | .arrive id =>
    if s.started then some { s with requests := s.requests ++ [.arrived id] } else none
  | .resume p => s.requests[p]?.bind (resume cfg s p)
  | .cancel p => s.requests[p]?.bind (cancel s p)
  | .props p answer =>
    match s.requests[p]? with
    | some (.surveying variant i) =>
      if i.props.isNone then some (surveyed s p variant (i.answerProps answer)) else none
    | _ => none
  | .states p answer =>
    match s.requests[p]? with
    | some (.surveying variant i) =>
      i.props.map fun props =>
        surveyed s p variant (i.answerStates cfg.catalogue props answer)
    | _ => none
  | .activity p answer =>
    match s.requests[p]? with
    | some (.tracking after model rest) =>
      some (track (s.edit [model] fun m => m.withBaseline answer) p after rest)
    | some (.observing job look model) => some (observe cfg s p job look model answer)
    | _ => none
  | .run t =>
    match s.tasks[t]? with
    | some (.swapReady victims model) => some (s.setTask t (swapNext [] victims model))
    | some (.finishReady model) => some (s.setTask t (.finishWait model))
    | _ => none
  | .call t answer =>
    match s.tasks[t]?, answer with
    | some (.swapUnload done victim rest model), .ok _ =>
      some (unloaded s t done victim rest model)
    | some (.swapUnload done victim rest model), .error error =>
      some (unloadFailed s t (done ++ victim :: rest) model error)
    | some (.swapLoad model), .ok _ => some (s.setTask t (.loadBaseline model .swap))
    | some (.swapLoad model), .error error => some (loadFailed s t model error .swap)
    | some (.finishWait model), .ok _ => some (s.setTask t (.loadBaseline model .finishLoad))
    | some (.finishWait model), .error error => some (loadFailed s t model error .finishLoad)
    | _, _ => none
  | .taskStates t answer =>
    match s.tasks[t]? with
    | some (.loadQuery model error loader) => some (queried s t model error loader answer)
    | _ => none
  | .taskActivity t answer =>
    match s.tasks[t]? with
    | some (.loadBaseline model loader) =>
      some (settle (s.edit [model] fun m => m.withBaseline answer) t model loader)
    | _ => none

/-- The event loop before there is a `Scheduler`; the entry is for `start()`. -/
def blank (now : ℚ) : State where
  now := now
  view := ⟨∅, [], none⟩
  heap := fun _ => default
  next := 0
  requests := [.finished .started]

/-- The `Scheduler` made from the view of a survey (`inspect_router`, lines
    250–255). -/
def booted (now : ℚ) (found : Survey) : State :=
  { blank now with
    heap := adopt (blank now) found
    next := found.loaded.entries.length
    view := ⟨adoptedRefs (blank now) found, found.problems, found.build⟩ }

/-- The scheduler at the first `await` of `start()` (lines 299–301). -/
def initial (now : ℚ) (found : Survey) : State :=
  track (booted now found) 0 none (booted now found).view.loaded.values

/-- The scheduler, started from any survey of the servers. The survey may have
    read the clock earlier. -/
def scheduler : System State Act where
  init s := ∃ (earlier now : ℚ) (answer : String → ServerAnswer), earlier ≤ now ∧
    s = initial now (survey cfg earlier answer)
  step := step cfg

end ModelBroker
