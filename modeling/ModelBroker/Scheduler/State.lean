import ModelBroker.Scheduler.Survey
import Mathlib.Logic.Function.Basic
import Mathlib.Tactic.Simps.Basic

/-!
# States of the scheduler

The scheduler is one asyncio event loop. Its state is the `Scheduler` object,
the `LoadedModel` objects, and the point each coroutine has reached: the calls
of `acquire` inside `admit` (`Request`) and the background tasks (`Task`).
A point carries the local variables that are still needed there.

Every `await` that can suspend is a point. So are five places where the code
does not suspend: before a request's first line (`arrived`), after
`check_router` released the lock (`checked`), at the head of the loop of
`acquire` (`looping`), where `busy` judges the next model (`judging`) and where
`place` returns a `Blocked` (`blocked`). A coroutine of the source passes them
at once; letting others run there only adds interleavings.

`self.changed` is left out: a waiting request may look again at any time,
notified or not. So is the lock's queue: whoever waits may get a free lock.
-/

namespace ModelBroker

/-! ## Requests -/

/-- The local variables of `acquire` while its ticket is waiting. -/
structure Job where
  ticket : Ticket
  deadline : Seconds

/-- `ticket.variant`. -/
abbrev Job.variant (job : Job) : Variant := job.ticket.variant

/-- The local variables of `busy` (lines 559–591): the models already judged,
    those still to be judged, `until` and `reason`. -/
structure Look where
  seen : List Ref := []
  rest : List Ref
  untilTime : Seconds
  reason : String := ""

/-- Where a request is. `tracking none` is the `track` of `start()`, which is
    entered in the table of requests as well. -/
inductive Request
  | arrived (id : String)
  | checkLock (variant : Variant)
  | surveying (variant : Variant) (inspection : Inspection)
  | tracking (after : Option Variant) (model : Ref) (rest : List Ref)
  | checked (variant : Variant)
  | looping (job : Job)
  | placeLock (job : Job)
  | judging (job : Job) (look : Look)
  | observing (job : Job) (look : Look) (model : Ref)
  | blocked (job : Job) (placed : Blocked)
  | waiting (job : Job) (wake : Seconds)
  | joining (model : Ref)
  | admitted (model : Ref)
  | finished (outcome : Outcome)

namespace Request

/-- The request is inside `async with self.lock`, or in `start()`, during which
    there are no others. -/
def holdsLock : Request → Bool
  | surveying _ _ | tracking _ _ _ | judging _ _ | observing _ _ _ => true
  | _ => false

/-- The ticket is in `self.waiting` while the request is between its creation
    and its removal. -/
def job? : Request → Option Job
  | looping job | placeLock job | judging job _ | observing job _ _ | blocked job _
  | waiting job _ => some job
  | _ => none

/-- The request is suspended in `join` on this model. -/
def joins (model : Ref) : Request → Bool
  | joining r => r = model
  | _ => false

/-- The request is admitted to this model and not yet released. -/
def admittedTo (model : Ref) : Request → Bool
  | admitted r => r = model
  | _ => false

/-- The request is `start()`, still tracking the first models. -/
def isStart : Request → Bool
  | tracking none _ _ => true
  | _ => false

end Request

/-! ## Background tasks -/

/-- Who calls `load_failed` or `record_baseline`: `swap` or `finish_load`. -/
inductive Loader
  | swap
  | finishLoad
  deriving DecidableEq

/-- Where a background task is. `swapReady` and `finishReady` have not run yet;
    `swapUnload done victim rest model` awaits `unload(victim)`; `loadQuery`
    awaits the `model_states` of `load_failed`; `loadBaseline` awaits the
    `activity` of `record_baseline`. A `crashed` task died of the `KeyError` of
    a `del self.loaded[…]`. -/
inductive Task
  | swapReady (victims : List Ref) (model : Ref)
  | swapUnload (done : List Ref) (victim : Ref) (rest : List Ref) (model : Ref)
  | swapLoad (model : Ref)
  | finishReady (model : Ref)
  | finishWait (model : Ref)
  | loadQuery (model : Ref) (error : String) (loader : Loader)
  | loadBaseline (model : Ref) (loader : Loader)
  | ended
  | crashed
  deriving DecidableEq

namespace Task

/-- The model the task marks ready when it ends, while it is alive. -/
def owns : Task → Option Ref
  | swapReady _ model | swapUnload _ _ _ model | swapLoad model | finishReady model
  | finishWait model | loadQuery model _ _ | loadBaseline model _ => some model
  | ended | crashed => none

/-- The victims a swap has not unloaded yet. -/
def toUnload : Task → List Ref
  | swapReady victims _ => victims
  | swapUnload _ victim rest _ => victim :: rest
  | _ => []

/-- The model of a swap that its server has not been asked to load yet. -/
def unasked : Task → Option Ref
  | swapReady _ model | swapUnload _ _ _ model => some model
  | _ => none

/-- All the victims of a swap that still awaits an unload. -/
def victims : Task → List Ref
  | swapReady victims _ => victims
  | swapUnload done victim rest _ => done ++ victim :: rest
  | _ => []

end Task

/-! ## States -/

/-- The state of the event loop. Records live in `heap`, below `next`. -/
structure State where
  now : ℚ
  view : RouterView
  heap : Ref → LoadedModel
  next : Ref
  waiting : List Ticket := []
  tickets : ℕ := 0
  requests : List Request := []
  tasks : List Task := []

namespace State

/-- `self.loaded.get(id)`. -/
def recorded (s : State) (id : String) : Option Ref := s.view.loaded.get id

/-- `self.lock` can be acquired. -/
def lockFree (s : State) : Bool := s.requests.all fun q => !q.holdsLock

/-- `start()` has completed. -/
def started (s : State) : Bool := s.requests.all fun q => !q.isStart

/-- The request goes on to another point. -/
@[simps] def goto (s : State) (p : ℕ) (q : Request) : State :=
  { s with requests := s.requests.set p q }

/-- Change these records. -/
@[simps] def edit (s : State) (models : List Ref) (f : LoadedModel → LoadedModel) : State :=
  { s with heap := fun r => if r ∈ models then f (s.heap r) else s.heap r }

/-- Two changes of one record are one change. -/
theorem edit_edit (s : State) (r : Ref) (f g : LoadedModel → LoadedModel) :
    (s.edit [r] f).edit [r] g = s.edit [r] fun m => g (f m) := by
  unfold edit
  congr 1
  funext r'
  by_cases hr : r' = r <;> simp [hr]

/-- `self.remove(ticket)` (lines 593–595). -/
@[simps] def remove (s : State) (ticket : Ticket) : State :=
  { s with waiting := s.waiting.filter fun other => other.serial ≠ ticket.serial }

/-- `del self.loaded[id]`, for an id that is present. -/
@[simps] def delete (s : State) (id : String) : State :=
  { s with view := { s.view with loaded := s.view.loaded.erase id } }

/-- `self.view.problems.append(…)`. -/
@[simps] def report (s : State) (problem : String) : State :=
  { s with view := { s.view with problems := s.view.problems ++ [problem] } }

/-- The task goes on to another point. -/
@[simps] def setTask (s : State) (t : ℕ) (k : Task) : State := { s with tasks := s.tasks.set t k }

/-- `self.background(…)` (lines 320–323) for each of these coroutines. -/
@[simps] def background (s : State) (ks : List Task) : State := { s with tasks := s.tasks ++ ks }

end State

/-! ## What can happen next -/

/-- One step: the clock, a new request, a coroutine that goes on, the answer to
    a call of a backend, or the cancellation of a request's task. -/
inductive Act
  | tick (seconds : ℚ)
  | arrive (id : String)
  | resume (p : ℕ)
  | props (p : ℕ) (answer : Except String RouterProps)
  | states (p : ℕ) (answer : Except String (Dict String ModelState))
  | activity (p : ℕ) (answer : Except String ModelActivity)
  | cancel (p : ℕ)
  | run (t : ℕ)
  | call (t : ℕ) (answer : Except String Unit)
  | taskStates (t : ℕ) (answer : Except String (Dict String ModelState))
  | taskActivity (t : ℕ) (answer : Except String ModelActivity)

end ModelBroker
