import ModelBroker.Control.Agreement
import ModelBroker.Scheduler.Step
import ModelBroker.Servers.Managed

/-!
# Which containers hold resources

The helper and the broker each divide the states of a container. The helper's
`GONE_STATES` are those in which the processes of a container are gone; the broker's
`occupying` lists those in which it holds its resources, and `read_states`
(`managed.py`, lines 83–90) reports every model as unloaded in all others. Neither
list has the states that Docker may still report (`removing`, or one of a later
version) and the helper's own `unknown`.

Results, for every service, status and answer of its API:
* `readStates_get`: what is reported of each model.
* `agrees_iff`: a container that the helper does not count as gone is reported as
  loading or loaded, exactly if its state is one of those that the docstring of
  `ServiceStatus` lists.
* `exists_reported`: the helper can report any state.
-/

namespace ModelBroker

open Python Control Helper

/-- The helper counts the container as gone, or there is none. -/
def Gone (state : String) : Prop := state ∈ goneStates ∨ state = "missing"

/-- The states in the docstring of `ServiceStatus`. -/
def documentedStates : List String :=
  ["missing", "created", "running", "restarting", "paused", "exited", "dead"]

/-- The documented states are those of the two lists, and `missing`. -/
theorem mem_documentedStates {status : ServiceStatus} :
    status.state ∈ documentedStates ↔ status.occupying = true ∨ Gone status.state := by
  simp only [documentedStates, ServiceStatus.occupying, Gone, goneStates, List.mem_cons,
    List.not_mem_nil, or_false, Bool.or_eq_true, decide_eq_true_eq]
  tauto

/-- Every model of a report is unloaded. -/
def AllUnloaded (states : Dict String ModelState) : Prop :=
  ∀ id state, states.get id = some state → state.value = "unloaded"

namespace ManagedService

/-! ## Reports -/

/-- The model that an occupying container is taken to run (line 87). -/
def running (s : ManagedService) (status : ServiceStatus) : String :=
  (orElse (s.identify status) none).getD s.unrecognised

variable (s : ManagedService) (status : ServiceStatus) (ready : Bool)

/-- What `read_states` reports of a model. -/
theorem readStates_get (id : String) :
    (s.readStates status ready).get id =
      if status.occupying = true ∧ id = s.running status then
        some { value := if status.state = "running" && ready then "loaded" else "loading" }
      else (s.models.get id).map fun _ => { value := "unloaded" } := by
  unfold readStates
  dsimp only
  by_cases hoccupying : status.occupying = true
  · rw [if_pos hoccupying, Dict.get_insert, Dict.get_mapValues]
    simp only [hoccupying, true_and]
    rfl
  · rw [if_neg hoccupying, if_neg fun h => hoccupying h.1, Dict.get_mapValues]

/-- The model that an occupying container runs is loading or loaded. -/
theorem readStates_running {status : ServiceStatus} (h : status.occupying = true) :
    ∃ state, (s.readStates status ready).get (s.running status) = some state ∧
      (state.value = "loading" ∨ state.value = "loaded") := by
  refine ⟨_, (s.readStates_get status ready _).trans (if_pos ⟨h, rfl⟩), ?_⟩
  dsimp only
  split_ifs
  · exact .inr rfl
  · exact .inl rfl

/-- Any other container has every model reported as unloaded. -/
theorem readStates_allUnloaded {status : ServiceStatus} (h : status.occupying = false) :
    AllUnloaded (s.readStates status ready) := by
  intro id state hget
  rw [readStates_get, h, if_neg (by simp), Option.map_eq_some_iff] at hget
  obtain ⟨-, -, rfl⟩ := hget
  rfl

/-! ## Agreement -/

/-- The broker takes a container to hold nothing only if the helper counts it as
    gone: in its reports, in `load_failed` of the scheduler and in `wait_for_state`. -/
structure Agrees : Prop where
  reported : AllUnloaded (s.readStates status ready) → Gone status.state
  held : ¬ Gone status.state → ∃ id state, (s.readStates status ready).get id = some state ∧
    (state.value = "loading" ∨ state.value = "loaded")
  released : ∀ (x : ModelBroker.State) (model : Ref) t error loader,
    (x.heap model).variant.id = s.running status →
    x.recorded (s.running status) = some model →
    (queried x t model error loader (.ok (s.readStates status ready))).recorded
      (s.running status) = none → Gone status.state
  accepted : ∀ expired,
    s.pollState (s.running status) "unloaded" status ready expired = some (.ok ()) →
      Gone status.state

variable {s status ready}

/-- `load_failed` drops a record only when the report confirms it. -/
theorem queried_released {x : ModelBroker.State} {model : Ref} {t : ℕ} {error : String}
    {loader : Loader} {answer : Except String (Dict String ModelState)} {id : String}
    (hid : (x.heap model).variant.id = id) (hrecorded : x.recorded id = some model)
    (hreleased : (queried x t model error loader answer).recorded id = none) :
    confirmsUnloaded id answer = true := by
  subst hid
  unfold queried at hreleased
  dsimp only at hreleased
  split_ifs at hreleased with hconfirmed
  · exact hconfirmed
  · exact absurd (hrecorded.symm.trans hreleased) nofun

/-- A model reported as loading or loaded is not confirmed to be unloaded. -/
theorem not_confirmsUnloaded {states : Dict String ModelState} {id : String} {state : ModelState}
    (hget : states.get id = some state) (hvalue : state.value ≠ "unloaded") :
    confirmsUnloaded id (.ok states) = false := by
  simp [confirmsUnloaded, hget, hvalue]

/-- For every service, status and answer of the API: broker and helper agree about the
    container exactly if its state is a documented one. -/
theorem agrees_iff : s.Agrees status ready ↔ status.state ∈ documentedStates := by
  rw [mem_documentedStates]
  constructor
  · intro h
    by_cases hoccupying : status.occupying = true
    · exact .inl hoccupying
    · exact .inr (h.reported (s.readStates_allUnloaded ready (by simpa using hoccupying)))
  · rintro (hoccupying | hgone)
    · obtain ⟨state, hget, hvalue⟩ := s.readStates_running ready hoccupying
      have hloaded : state.value ≠ "unloaded" := by
        rcases hvalue with hvalue | hvalue <;> rw [hvalue] <;> decide
      refine ⟨fun hall => absurd (hall _ _ hget) hloaded, fun _ => ⟨_, state, hget, hvalue⟩,
        fun x model t error loader hid hrecorded hreleased => ?_, fun expired haccepted => ?_⟩
      · have hconfirmed := queried_released hid hrecorded hreleased
        rw [not_confirmsUnloaded hget hloaded] at hconfirmed
        cases hconfirmed
      · unfold pollState at haccepted
        rw [hget] at haccepted
        dsimp only at haccepted
        rw [if_neg hloaded, if_neg (by simp), if_neg (by simp)] at haccepted
        split_ifs at haccepted
        cases haccepted
    · exact ⟨fun _ => hgone, fun h => absurd hgone h, fun _ _ _ _ _ _ _ _ => hgone,
        fun _ _ => hgone⟩

/-! ## States that the helper reports -/

/-- Docker's report about a container in a state. -/
def inspectedInfo (state : String) : Json := .obj [("State", .obj [("Status", .str state)])]

/-- Whatever state Docker gives, the helper reports it and the broker reads it. -/
theorem exists_reported (service : Service) (state : String) :
    ∃ document status, containerStatus (inspectedInfo state) service = .ok document ∧
      parseStatus document.sortKeys = .ok status ∧ status.state = state := by
  have hinspected : Inspected (inspectedInfo state) state none false [] :=
    ⟨_, _, ∅, ∅, rfl, .inl rfl, .inr ⟨rfl, rfl⟩, .inr ⟨rfl, rfl⟩, .inl rfl, rfl, .inr ⟨rfl, rfl⟩,
      .inr ⟨rfl, rfl⟩⟩
  obtain ⟨health, hstatus⟩ := @containerStatus_of_inspected service _ _ _ _ _ hinspected
  obtain ⟨status, hread, hreported⟩ := parseStatus_statusMembers state none false health
    (allowedVariables service [])
  exact ⟨_, status, hstatus, hread, hreported.state⟩

/-- A service of Compose and the broker's view of it. -/
def strataService : Service :=
  ⟨"strata", "strata", Path.ofText "/srv/compose.yml", Path.ofText "/srv", "media",
    ["STRATA_MODEL"], 30⟩

def strata : ManagedService :=
  ⟨"Strata", "strata", .ofList [("qwen--cuda0", .ofList [("STRATA_MODEL", "qwen")])],
    .finite 3600⟩

/-- A container that is being removed is not gone for the helper, and it has every
    model unloaded for the broker. -/
theorem removing_disagrees :
    ¬ ∀ (service : Service) (info document : Json) (status : ServiceStatus) (s : ManagedService)
      (ready : Bool), containerStatus info service = .ok document →
        parseStatus document.sortKeys = .ok status → s.Agrees status ready := by
  intro h
  obtain ⟨document, status, hstatus, hread, hstate⟩ := exists_reported strataService "removing"
  have hagrees := h strataService _ document status strata false hstatus hread
  have hidle : status.occupying = false := by
    rw [ServiceStatus.occupying, hstate]
    decide
  have hgone := hagrees.reported (strata.readStates_allUnloaded false hidle)
  rw [hstate, Gone] at hgone
  exact absurd hgone (by decide)

end ManagedService

end ModelBroker
