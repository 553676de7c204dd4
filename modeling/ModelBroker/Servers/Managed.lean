import ModelBroker.Control.Client
import ModelBroker.Lib.Runs

/-!
# Services that change model by restarting

`ManagedService` (`managed.py`, lines 34–176) for one service. Each method is
split at its `await`s: what it decides from a status of the container is a
function, and `Managed.system` makes its calls one after another. The container
changes with the starts and stops, and by itself.
-/

namespace ModelBroker

open Python Control

/-- `ManagedService` (lines 46–64), without what it calls. -/
structure ManagedService where
  name : String
  service : String
  models : Dict String (Dict String String)
  stateTimeoutSeconds : Double

/-- `FAILED_STATES` (line 34). -/
def failedStates : List String := ["exited", "dead", "missing"]

namespace ManagedService

/-- The container has a model's settings (line 74). -/
def hasSettings (status : ServiceStatus) (settings : Dict String String) : Bool :=
  settings.entries.all fun e => status.settings.get e.1 = some e.2

/-- `identify` (lines 71–76). -/
def identify (s : ManagedService) (status : ServiceStatus) : Option String :=
  (s.models.entries.find? fun m => hasSettings status m.2).map Prod.fst

/-- `unrecognised` (lines 66–69). -/
def unrecognised (s : ManagedService) : String := s.service ++ ":unrecognised"

/-- `props` (lines 78–81), when the helper answers. -/
def props : RouterProps := ⟨1, false, none⟩

/-- `read_states` (lines 83–90). `ready` is the answer of the service's own API. -/
def readStates (s : ManagedService) (status : ServiceStatus) (ready : Bool) :
    Dict String ModelState :=
  let states := s.models.mapValues fun _ _ => ({ value := "unloaded" } : ModelState)
  if status.occupying then
    states.insert ((orElse (s.identify status) none).getD s.unrecognised)
      { value := if status.state = "running" && ready then "loaded" else "loading" }
  else states

/-- A model that the service has not. -/
def notListed (s : ManagedService) (modelId : String) : Raised :=
  .backendError (s.name ++ " does not list model " ++ Python.repr modelId)

/-- `{running or 'an unrecognised model'!r}` (lines 112 and 126). -/
def runningText (running : Option String) : String :=
  Python.repr ((orElse running none).getD "an unrecognised model")

/-- What `load` decides from the status (lines 110–116): whether to start the
    container. -/
def loadStatus (s : ManagedService) (modelId : String) (status : ServiceStatus) :
    Except Raised Bool :=
  if status.occupying ∧ s.identify status ≠ some modelId then
    .error (.backendError (s.name ++ " is running " ++ runningText (s.identify status) ++
      "; refusing to replace it with " ++ Python.repr modelId))
  else .ok !status.occupying

/-- What `unload` decides from the status (lines 122–129): whether to stop the
    container. -/
def unloadStatus (s : ManagedService) (modelId : String) (status : ServiceStatus) :
    Except Raised Bool :=
  if status.occupying ∧ s.identify status ≠ some modelId then
    .error (.backendError (s.name ++ " is running " ++ runningText (s.identify status) ++ ", not " ++
      Python.repr modelId ++ "; refusing to stop it"))
  else .ok status.occupying

/-- `mismatch` (lines 157–168). `load` has looked the model up before. -/
def mismatch (s : ManagedService) (modelId : String) (status : ServiceStatus) : String :=
  let settings := (s.models.get modelId).getD ∅
  let differing := (settings.entries.filter fun e => status.settings.get e.1 ≠ some e.2).map
    fun e => e.1 ++ " (wanted " ++ Python.repr e.2 ++ ", found " ++
      ((status.settings.get e.1).map Python.repr).getD "None" ++ ")"
  s.name ++ " is running, but its container does not have model " ++ Python.repr modelId ++
    "'s settings: " ++ String.intercalate ", " differing ++
    ". Is each variable passed through in the Compose file?"

/-- `failure` (lines 170–176). -/
def failure (s : ManagedService) (modelId : String) (status : ServiceStatus) : String :=
  let how :=
    if status.state = "missing" then "has no container"
    else if status.oomKilled then "was killed for want of memory"
    else "exited (" ++ (status.exitCode.map toString).getD "None" ++ ")"
  s.name ++ " model " ++ Python.repr modelId ++ " failed to start: the service " ++ how

/-- One round of `wait_for_state` (lines 140–155): it returns, raises, or sleeps
    and polls again. `expired` is the test of the deadline. -/
def pollState (s : ManagedService) (modelId expected : String) (status : ServiceStatus)
    (ready expired : Bool) : Option (Except Raised Unit) :=
  match (s.readStates status ready).get modelId with
  | none => some (.error (s.notListed modelId))
  | some state =>
    if state.value = expected then some (.ok ())
    else if expected = "loaded" ∧ status.state ∈ failedStates then
      some (.error (.backendError (s.failure modelId status)))
    else if expected = "loaded" ∧ status.occupying ∧ s.identify status ≠ some modelId then
      some (.error (.backendError (s.mismatch modelId status)))
    else if expired then
      some (.error (.backendError (s.name ++ " model " ++ Python.repr modelId ++
        " did not become " ++ Python.repr expected ++ " within " ++ s.stateTimeoutSeconds.formatG ++
        "s; last state was " ++ Python.repr state.value)))
    else none

end ManagedService

/-! ## Calls -/

namespace Managed

/-- A call of the service. -/
inductive Call where
  | load (modelId : String)
  | unload (modelId : String)
  deriving DecidableEq

/-- What a call waits for at the end. -/
def Call.expected : Call → String
  | load _ => "loaded"
  | unload _ => "unloaded"

/-- The model of a call. -/
def Call.modelId : Call → String
  | load modelId | unload modelId => modelId

/-- How a call ended. -/
abbrev Outcome := Except Raised Unit

/-- Where the service is: between calls, with the outcome of the last one, or at an
    `await` of a call. -/
inductive Phase where
  | idle (last : Option (Call × Outcome))
  /-- The status at the beginning (lines 109 and 121). -/
  | asked (call : Call)
  /-- Line 119. -/
  | starting (modelId : String) (settings : Dict String String)
  /-- Line 130. -/
  | stopping (modelId : String)
  /-- The loop of `wait_for_state`. -/
  | waiting (call : Call)

/-- The service and its container. `owner` is the model whose load issued the last
    start. -/
structure State where
  container : ServiceStatus
  owner : Option String
  phase : Phase

/-- A step of the calls or of the container. -/
inductive Action where
  | call (call : Call)
  /-- The answer to a status request: what the container is, whether the API is
      ready, and whether the deadline has passed. -/
  | status (ready expired : Bool)
  /-- The answer to a start, whether it changed the container, and what that is
      then. -/
  | start (changed : Bool) (container : ServiceStatus) (outcome : Outcome)
  | stop (container : ServiceStatus) (outcome : Outcome)
  /-- A request to the helper fails, or the call is given up. -/
  | fail (e : Raised)
  /-- The container changes by itself. -/
  | drift (container : ServiceStatus)

/-- Go on after a request that a call makes, unless it fails. -/
def afterRequest (call : Call) : Outcome → Phase
  | .ok () => .waiting call
  | .error e => .idle (some (call, .error e))

/-- The call whose phase it is. -/
def Phase.call : Phase → Option Call
  | idle _ => none
  | asked call | waiting call => some call
  | starting modelId _ => some (.load modelId)
  | stopping modelId => some (.unload modelId)

/-- A new call (lines 106–109 and 121). -/
def begin (s : ManagedService) : Call → Phase
  | .load modelId =>
    if s.models.contains modelId then .asked (.load modelId)
    else .idle (some (.load modelId, .error (s.notListed modelId)))
  | .unload modelId => .asked (.unload modelId)

/-- What a call does after its first status (lines 110–117 and 122–130). -/
def decide (s : ManagedService) (status : ServiceStatus) : Call → Phase
  | .load modelId =>
    match s.loadStatus modelId status with
    | .ok true => .starting modelId ((s.models.get modelId).getD ∅)
    | .ok false => .waiting (.load modelId)
    | .error e => .idle (some (.load modelId, .error e))
  | .unload modelId =>
    match s.unloadStatus modelId status with
    | .ok true => .stopping modelId
    | .ok false => .waiting (.unload modelId)
    | .error e => .idle (some (.unload modelId, .error e))

/-- A round of the loop of `wait_for_state`. -/
def poll (s : ManagedService) (status : ServiceStatus) (ready expired : Bool) (call : Call) : Phase :=
  match s.pollState call.modelId call.expected status ready expired with
  | some outcome => .idle (some (call, outcome))
  | none => .waiting call

/-- One step. A call begins when the last one has ended. -/
def step (s : ManagedService) (x : State) : Action → Option State
  | .call call =>
    match x.phase with
    | .idle _ => some { x with phase := begin s call }
    | _ => none
  | .status ready expired =>
    match x.phase with
    | .asked call => some { x with phase := decide s x.container call }
    | .waiting call => some { x with phase := poll s x.container ready expired call }
    | _ => none
  | .start changed container outcome =>
    match x.phase with
    | .starting modelId _ =>
      some {
        container
        owner := if changed then some modelId else x.owner
        phase := afterRequest (.load modelId) outcome }
    | _ => none
  | .stop container outcome =>
    match x.phase with
    | .stopping modelId =>
      some { x with container := container, phase := afterRequest (.unload modelId) outcome }
    | _ => none
  | .fail e => x.phase.call.map fun call => { x with phase := .idle (some (call, .error e)) }
  | .drift container => some { x with container := container }

/-- No call has been made, and the container is not running. -/
def Initial (x : State) : Prop :=
  x.container.occupying = false ∧ x.owner = none ∧ x.phase = .idle none

/-- The calls of a service, one after another. -/
def system (s : ManagedService) : System State Action where
  init := Initial
  step := step s

/-! ## The container -/

/-- The container is as it was, or it has stopped. -/
def Kept (old new : ServiceStatus) : Prop :=
  new.occupying = true → old.occupying = true ∧ ∀ name, new.settings.get name = old.settings.get name

/-- The container changes only by the starts and stops, apart from stopping by
    itself, and after a start it has exactly the settings of that start. -/
def Faithful (x : State) : Action → Prop
  | .start changed container outcome =>
    match x.phase with
    | .starting _ settings =>
      if changed then ∀ name, container.settings.get name = settings.get name
      else Kept x.container container ∧ ∃ e, outcome = .error e
    | _ => True
  | .stop container _ => Kept x.container container
  | .drift container => Kept x.container container
  | .call _ | .status .. | .fail _ => True

end Managed

end ModelBroker
