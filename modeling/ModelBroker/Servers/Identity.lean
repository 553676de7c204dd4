import ModelBroker.Catalogue.Services
import ModelBroker.Servers.Managed

/-!
# Which model a container was started for

`ManagedService` knows its container by its settings. `identify` takes the first
model all of whose settings the container has, so it finds the model that the
container was started for exactly if no model listed before it has only settings
that it has too.

* `identified_iff`: this is what it takes, over every run of loads and unloads.
* `identified_correctly`: for the services of an accepted preset.
-/

namespace ModelBroker.Managed

open Python Control

variable {s : ManagedService} {x y : State}

/-! ## Settings -/

/-- Every setting of `d` is one of `e`. -/
def Contained (d e : Dict String String) : Prop :=
  ∀ name value, d.get name = some value → e.get name = some value

/-- No model has only settings that a model listed after it has too. -/
def Distinguished (s : ManagedService) : Prop :=
  s.models.entries.Pairwise fun m m' => ¬ Contained m.2 m'.2

theorem hasSettings_iff {status : ServiceStatus} {settings : Dict String String} :
    ManagedService.hasSettings status settings = true ↔ Contained settings status.settings := by
  unfold ManagedService.hasSettings Contained
  rw [List.all_eq_true]
  constructor
  · intro h name value hget
    simpa using h (name, value) (Dict.get_eq_some.1 hget)
  · intro h e he
    simpa using h e.1 e.2 (Dict.get_eq_some.2 he)

/-- A container with the settings of a model has those of another model exactly if
    these are contained in its own. -/
theorem hasSettings_of_same {status : ServiceStatus} {settings : Dict String String}
    (hstatus : ∀ name, status.settings.get name = settings.get name) {d : Dict String String} :
    ManagedService.hasSettings status d = true ↔ Contained d settings := by
  rw [hasSettings_iff]
  unfold Contained
  simp only [hstatus]

/-- A container with the settings of a model is identified as that model exactly
    if no model before it has only settings of its own. -/
theorem identify_eq_some {m : String} {settings : Dict String String} {status : ServiceStatus}
    (hstatus : ∀ name, status.settings.get name = settings.get name)
    {before after : List (String × Dict String String)}
    (hentries : s.models.entries = before ++ (m, settings) :: after) :
    s.identify status = some m ↔ ∀ m' ∈ before, ¬ Contained m'.2 settings := by
  have hsame : ∀ d : Dict String String, ManagedService.hasSettings status d = true ↔
      Contained d settings := fun d => hasSettings_of_same hstatus
  have hself : ManagedService.hasSettings status settings = true :=
    (hsame settings).2 fun _ _ h => h
  have hhead : ((m, settings) :: after).find? (fun m => ManagedService.hasSettings status m.2) =
      some (m, settings) := List.find?_cons_of_pos hself
  unfold ManagedService.identify
  rw [hentries, List.find?_append, hhead]
  cases hbefore : before.find? fun m => ManagedService.hasSettings status m.2 with
  | none =>
    constructor
    · intro _ m' hm' hcontained
      exact List.find?_eq_none.1 hbefore m' hm' ((hsame m'.2).2 hcontained)
    · intro _
      rfl
  | some e =>
    have he : e ∈ before := List.mem_of_find?_eq_some hbefore
    constructor
    · intro h
      have hname : e.1 = m := Option.some.inj h
      have hnodup := s.models.nodup
      rw [hentries, List.map_append, List.map_cons, List.nodup_append] at hnodup
      exact absurd hname (hnodup.2.2 _ (List.mem_map_of_mem he) _ (List.mem_cons_self ..))
    · intro h
      have hcontained : ManagedService.hasSettings status e.2 = true := by
        simpa using List.find?_some hbefore
      exact absurd ((hsame e.2).1 hcontained) (h e he)

/-- Then every model is identified by its settings. -/
theorem Distinguished.identify (h : Distinguished s) {m : String} {settings : Dict String String}
    (hm : s.models.get m = some settings) {status : ServiceStatus}
    (hstatus : ∀ name, status.settings.get name = settings.get name) :
    s.identify status = some m := by
  obtain ⟨before, after, hentries⟩ := List.append_of_mem (Dict.get_eq_some.1 hm)
  refine (identify_eq_some hstatus hentries).2 fun m' hm' => ?_
  unfold Distinguished at h
  rw [hentries] at h
  exact (List.pairwise_append.1 h).2.2 m' hm' _ (List.mem_cons_self ..)

/-! ## Steps -/

/-- A call begins with a status, of a model of the service if it is a load. -/
theorem begin_cases (s : ManagedService) (call : Call) :
    (begin s call = .asked call ∧ ∀ m, call = .load m → s.models.contains m = true) ∨
      ∃ e, begin s call = .idle (some (call, .error e)) := by
  cases call with
  | load m =>
    unfold begin
    dsimp only
    split_ifs with hm
    · refine .inl ⟨rfl, ?_⟩
      intro m' hm'
      cases hm'
      exact hm
    · exact .inr ⟨_, rfl⟩
  | unload m =>
    refine .inl ⟨rfl, ?_⟩
    intro m' hm'
    cases hm'

/-- What a call does after its first status. -/
theorem decide_cases (s : ManagedService) (status : ServiceStatus) (call : Call) :
    (∃ m, call = .load m ∧ decide s status call = .starting m ((s.models.get m).getD ∅)) ∨
      (∃ m, call = .unload m ∧ decide s status call = .stopping m ∧
        status.occupying = true ∧ s.identify status = some m) ∨
      decide s status call = .waiting call ∨
      ∃ e, decide s status call = .idle (some (call, .error e)) := by
  cases call with
  | load m =>
    unfold decide
    dsimp only
    split
    · exact .inl ⟨m, rfl, rfl⟩
    · exact .inr (.inr (.inl rfl))
    · exact .inr (.inr (.inr ⟨_, rfl⟩))
  | unload m =>
    unfold decide
    dsimp only
    split
    · next hstop =>
      unfold ManagedService.unloadStatus at hstop
      split_ifs at hstop with hrunning
      have hoccupying : status.occupying = true := Except.ok.inj hstop
      refine .inr (.inl ⟨m, rfl, rfl, hoccupying, ?_⟩)
      by_contra hidentify
      exact hrunning ⟨hoccupying, hidentify⟩
    · exact .inr (.inr (.inl rfl))
    · exact .inr (.inr (.inr ⟨_, rfl⟩))

/-- A round of the loop ends the call or does not. -/
theorem poll_cases (s : ManagedService) (status : ServiceStatus) (ready expired : Bool)
    (call : Call) :
    (∃ outcome, s.pollState call.modelId call.expected status ready expired = some outcome ∧
      poll s status ready expired call = .idle (some (call, outcome))) ∨
      poll s status ready expired call = .waiting call := by
  unfold poll
  cases s.pollState call.modelId call.expected status ready expired with
  | some outcome => exact .inl ⟨outcome, rfl, rfl⟩
  | none => exact .inr rfl

theorem afterRequest_cases (call : Call) (outcome : Outcome) :
    afterRequest call outcome = .waiting call ∨
      ∃ e, afterRequest call outcome = .idle (some (call, .error e)) := by
  cases outcome with
  | ok => exact .inl rfl
  | error e => exact .inr ⟨e, rfl⟩

/-- What a step can do while the container changes as it should. -/
inductive Moves (s : ManagedService) (x : State) : State → Prop where
  | begin (call : Call) : Moves s x { x with phase := begin s call }
  | decide (call : Call) (hphase : x.phase = .asked call) :
      Moves s x { x with phase := decide s x.container call }
  | poll (call : Call) (ready expired : Bool) :
      Moves s x { x with phase := poll s x.container ready expired call }
  | started (m : String) (settings : Dict String String) (container : ServiceStatus)
      (outcome : Outcome) (hphase : x.phase = .starting m settings)
      (hsettings : ∀ name, container.settings.get name = settings.get name) :
      Moves s x ⟨container, some m, afterRequest (.load m) outcome⟩
  | kept (call : Call) (container : ServiceStatus) (outcome : Outcome)
      (hkept : Kept x.container container) :
      Moves s x ⟨container, x.owner, afterRequest call outcome⟩
  | drift (container : ServiceStatus) (hkept : Kept x.container container) :
      Moves s x { x with container := container }

theorem Kept.refl (container : ServiceStatus) : Kept container container :=
  fun h => ⟨h, fun _ => rfl⟩

theorem moves_of_step {a : Action} (hok : Faithful x a) (ht : step s x a = some y) :
    Moves s x y := by
  cases a with
  | call call =>
    unfold step at ht
    dsimp only at ht
    split at ht
    · obtain rfl := Option.some.inj ht
      exact .begin call
    · cases ht
  | status ready expired =>
    unfold step at ht
    dsimp only at ht
    split at ht
    · next call hphase =>
      obtain rfl := Option.some.inj ht
      exact .decide call hphase
    · next call hphase =>
      obtain rfl := Option.some.inj ht
      exact .poll call ready expired
    · cases ht
  | start changed container outcome =>
    unfold step at ht
    unfold Faithful at hok
    dsimp only at ht hok
    split at ht
    · next m settings hphase =>
      rw [hphase] at hok
      dsimp only at hok
      obtain rfl := Option.some.inj ht
      cases changed with
      | true => exact .started m settings container outcome hphase (by simpa using hok)
      | false => exact .kept (.load m) container outcome (by simpa using hok.1)
    · cases ht
  | stop container outcome =>
    unfold step at ht
    dsimp only at ht
    split at ht
    · next m hphase =>
      obtain rfl := Option.some.inj ht
      exact .kept (.unload m) container outcome hok
    · cases ht
  | fail e =>
    unfold step at ht
    obtain ⟨call, -, rfl⟩ := Option.map_eq_some_iff.1 ht
    exact .kept call x.container (.error e) (.refl _)
  | drift container =>
    obtain rfl := Option.some.inj ht
    exact .drift container hok

/-! ## Runs -/

/-- What holds of every run: a running container has the settings of its owner, and
    a start is for a model of the service, with its settings. -/
structure Owned (s : ManagedService) (x : State) : Prop where
  running : x.container.occupying = true → ∃ m settings, x.owner = some m ∧
    s.models.get m = some settings ∧ ∀ name, x.container.settings.get name = settings.get name
  starting : ∀ m settings, x.phase = .starting m settings → s.models.get m = some settings
  asked : ∀ m, x.phase = .asked (.load m) → s.models.contains m = true

/-- A container that was kept belongs to its owner still. -/
theorem Owned.kept (h : Owned s x) {container : ServiceStatus} (hkept : Kept x.container container) :
    container.occupying = true → ∃ m settings, x.owner = some m ∧
      s.models.get m = some settings ∧ ∀ name, container.settings.get name = settings.get name := by
  intro hoccupying
  obtain ⟨hold, hsettings⟩ := hkept hoccupying
  obtain ⟨m, settings, howner, hm, hsame⟩ := h.running hold
  exact ⟨m, settings, howner, hm, fun name => (hsettings name).trans (hsame name)⟩

theorem Owned.moves (h : Owned s x) (hmoves : Moves s x y) : Owned s y := by
  cases hmoves with
  | begin call =>
    rcases begin_cases s call with ⟨hbegin, hcall⟩ | ⟨e, hbegin⟩
    · rw [hbegin]
      refine ⟨h.running, nofun, fun m hphase => hcall m ?_⟩
      cases hphase
      rfl
    · rw [hbegin]
      exact ⟨h.running, nofun, nofun⟩
  | decide call hphase =>
    rcases decide_cases s x.container call with ⟨m, rfl, hdecide⟩ | ⟨m, rfl, hdecide, -, -⟩ |
      hdecide | ⟨e, hdecide⟩
    · rw [hdecide]
      refine ⟨h.running, fun m' settings hstarting => ?_, nofun⟩
      cases hstarting
      obtain ⟨settings, hm⟩ := Dict.contains_iff.1 (h.asked m hphase)
      rw [hm]
      rfl
    all_goals
      rw [hdecide]
      exact ⟨h.running, nofun, nofun⟩
  | poll call ready expired =>
    rcases poll_cases s x.container ready expired call with ⟨outcome, -, hpoll⟩ | hpoll
    all_goals
      rw [hpoll]
      exact ⟨h.running, nofun, nofun⟩
  | started m settings container outcome hphase hsettings =>
    have hm := h.starting m settings hphase
    rcases afterRequest_cases (.load m) outcome with hafter | ⟨e, hafter⟩
    all_goals
      rw [hafter]
      exact ⟨fun _ => ⟨m, settings, rfl, hm, hsettings⟩, nofun, nofun⟩
  | kept call container outcome hkept =>
    rcases afterRequest_cases call outcome with hafter | ⟨e, hafter⟩
    all_goals
      rw [hafter]
      exact ⟨h.kept hkept, nofun, nofun⟩
  | drift container hkept => exact ⟨h.kept hkept, h.starting, h.asked⟩

/-- Every run owns its container. -/
theorem owned (h : (system s).Reach Faithful x) : Owned s x := by
  refine h.invariant ?_ ?_
  · rintro x ⟨hstopped, -, hphase⟩
    refine ⟨fun hrunning => ?_, fun m settings h => ?_, fun m h => ?_⟩
    · rw [hstopped] at hrunning
      cases hrunning
    · cases hphase.symm.trans h
    · cases hphase.symm.trans h
  · intro x a y _ hx hok ht
    exact hx.moves (moves_of_step hok ht)

/-! ## Identification -/

/-- The running model is identified correctly: a running container is identified as
    the model it was started for; an unload is about to stop, and a load has
    returned for, no other model's container; and no other model is reported as
    loaded or loading. -/
structure Identified (s : ManagedService) (x : State) : Prop where
  running : x.container.occupying = true →
    ∃ m, x.owner = some m ∧ s.identify x.container = some m
  stopping : ∀ m, x.phase = .stopping m → x.owner = some m
  loaded : ∀ m, x.phase = .idle (some (.load m, .ok ())) → x.owner = some m
  reported : ∀ ready m state, (s.readStates x.container ready).get m = some state →
    state.value ≠ "unloaded" → x.owner = some m

/-- Only the model that is identified is reported as loaded or loading. -/
theorem readStates_identified {status : ServiceStatus} {ready : Bool} {m : String}
    {state : ModelState} (hget : (s.readStates status ready).get m = some state)
    (hvalue : state.value ≠ "unloaded") :
    status.occupying = true ∧ ∀ m', s.identify status = some m' → m' ≠ "" → m = m' := by
  have hunloaded : ∀ state' : ModelState,
      (s.models.mapValues fun _ _ => ({ value := "unloaded" } : ModelState)).get m = some state' →
        state'.value = "unloaded" := by
    intro state' hstate
    rw [Dict.get_mapValues] at hstate
    obtain ⟨-, -, rfl⟩ := Option.map_eq_some_iff.1 hstate
    rfl
  unfold ManagedService.readStates at hget
  dsimp only at hget
  by_cases hoccupying : status.occupying = true
  · refine ⟨hoccupying, fun m' hm' hne => ?_⟩
    by_contra hother
    rw [if_pos hoccupying, Dict.get_insert, hm', orElse, if_neg hne, Option.getD_some,
      if_neg hother] at hget
    exact hvalue (hunloaded state hget)
  · rw [if_neg hoccupying] at hget
    exact absurd (hunloaded state hget) hvalue

/-- A wait ends well when the state it waits for was read. -/
theorem pollState_ok {m expected : String} {status : ServiceStatus} {ready expired : Bool}
    (h : s.pollState m expected status ready expired = some (.ok ())) :
    ∃ state, (s.readStates status ready).get m = some state ∧ state.value = expected := by
  unfold ManagedService.pollState at h
  split at h
  · cases h
  · next state hstate =>
    split_ifs at h with hvalue
    · exact ⟨state, hstate, hvalue⟩
    all_goals cases h

/-- With the container owned, the models distinguished and none without a name. -/
theorem Owned.identified (h : Owned s x) (hs : Distinguished s) (hnames : s.models.get "" = none) :
    (x.container.occupying = true → ∃ m, x.owner = some m ∧ s.identify x.container = some m) ∧
    ∀ ready m state, (s.readStates x.container ready).get m = some state →
      state.value ≠ "unloaded" → x.owner = some m := by
  constructor
  · intro hrunning
    obtain ⟨m, settings, howner, hm, hsame⟩ := h.running hrunning
    exact ⟨m, howner, hs.identify hm hsame⟩
  · intro ready m state hget hvalue
    obtain ⟨hrunning, hidentified⟩ := readStates_identified hget hvalue
    obtain ⟨m', settings, howner, hm', hsame⟩ := h.running hrunning
    have hne : m' ≠ "" := by
      rintro rfl
      rw [hnames] at hm'
      cases hm'
    rw [hidentified m' (hs.identify hm' hsame) hne]
    exact howner

/-- The model whose container a phase is about: the one to stop, or the one that
    was loaded. -/
def Phase.concerns : Phase → Option String
  | .stopping m | .idle (some (.load m, .ok ())) => some m
  | _ => none

theorem concerns_error (call : Call) (e : Raised) :
    (Phase.idle (some (call, .error e))).concerns = none := by
  cases call <;> rfl

theorem Identified.concerns (h : Identified s x) {m : String} (hm : x.phase.concerns = some m) :
    x.owner = some m := by
  unfold Phase.concerns at hm
  split at hm
  · next hphase =>
    obtain rfl := Option.some.inj hm
    exact h.stopping _ hphase
  · next hphase =>
    obtain rfl := Option.some.inj hm
    exact h.loaded _ hphase
  · cases hm

theorem afterRequest_concerns (call : Call) (outcome : Outcome) :
    (afterRequest call outcome).concerns = none := by
  rcases afterRequest_cases call outcome with hafter | ⟨e, hafter⟩
  · rw [hafter]
    rfl
  · rw [hafter, concerns_error]

/-- What a step has to do with the container of a model, if the model was
    identified correctly before. -/
theorem Identified.moves_concerns (h : Identified s x) (hmoves : Moves s x y) {m : String}
    (hm : y.phase.concerns = some m) : y.owner = some m := by
  cases hmoves with
  | begin call =>
    have hnone : (begin s call).concerns = none := by
      rcases begin_cases s call with ⟨hbegin, -⟩ | ⟨e, hbegin⟩
      · rw [hbegin]
        rfl
      · rw [hbegin, concerns_error]
    cases hnone.symm.trans hm
  | decide call _ =>
    dsimp only at hm
    rcases decide_cases s x.container call with ⟨m', rfl, hdecide⟩ |
      ⟨m', rfl, hdecide, hoccupying, hidentify⟩ | hdecide | ⟨e, hdecide⟩
    · rw [hdecide] at hm
      cases hm
    · rw [hdecide] at hm
      obtain rfl := Option.some.inj hm
      obtain ⟨m, howner, hidentified⟩ := h.running hoccupying
      rw [hidentify] at hidentified
      rw [Option.some.inj hidentified]
      exact howner
    · rw [hdecide] at hm
      cases hm
    · rw [hdecide, concerns_error] at hm
      cases hm
  | poll call ready expired =>
    dsimp only at hm
    rcases poll_cases s x.container ready expired call with ⟨outcome, houtcome, hpoll⟩ | hpoll
    · rw [hpoll] at hm
      cases call with
      | unload => cases hm
      | load m' =>
        cases outcome with
        | error e => cases hm
        | ok =>
          obtain rfl := Option.some.inj hm
          obtain ⟨state, hget, hvalue⟩ := pollState_ok houtcome
          have hloaded : state.value ≠ "unloaded" := by
            rw [hvalue]
            show "loaded" ≠ "unloaded"
            decide
          exact h.reported ready m' state hget hloaded
    · rw [hpoll] at hm
      cases hm
  | started m' _ container outcome _ _ =>
    cases (afterRequest_concerns (.load m') outcome).symm.trans hm
  | kept call container outcome _ => cases (afterRequest_concerns call outcome).symm.trans hm
  | drift container _ => exact h.concerns hm

/-- In every run of a service with distinguished models. -/
theorem identified (hs : Distinguished s) (hnames : s.models.get "" = none)
    (h : (system s).Reach Faithful x) : Identified s x := by
  refine h.invariant ?_ ?_
  · intro x hx
    obtain ⟨hrunning, hreported⟩ := (owned (.init hx)).identified hs hnames
    refine ⟨hrunning, fun m hphase => ?_, fun m hphase => ?_, hreported⟩
    · cases hx.2.2.symm.trans hphase
    · cases hx.2.2.symm.trans hphase
  · intro x a y hreach hx hok ht
    obtain ⟨hrunning, hreported⟩ := (owned (.step hreach hok ht)).identified hs hnames
    have hconcerns : ∀ m, y.phase.concerns = some m → y.owner = some m :=
      fun m hm => hx.moves_concerns (moves_of_step hok ht) hm
    refine ⟨hrunning, fun m hphase => ?_, fun m hphase => ?_, hreported⟩
    · exact hconcerns m (by rw [hphase]; rfl)
    · exact hconcerns m (by rw [hphase]; rfl)

/-! ## A model that is not identified -/

/-- A container that does not exist. -/
def missing : ServiceStatus := ⟨"missing", none, false, ∅⟩

/-- After a load on a service without a container, this is running. -/
theorem reach_load {m : String} {settings : Dict String String}
    (hm : s.models.get m = some settings) :
    (system s).Reach Faithful
      ⟨⟨"running", none, false, settings⟩, some m, .waiting (.load m)⟩ := by
  have hinit : (system s).Reach Faithful ⟨missing, none, .idle none⟩ := .init ⟨rfl, rfl, rfl⟩
  have hlisted : s.models.contains m = true := Dict.contains_iff.2 ⟨settings, hm⟩
  have hcall : step s ⟨missing, none, .idle none⟩ (.call (.load m)) =
      some ⟨missing, none, .asked (.load m)⟩ := by
    unfold step begin
    dsimp only
    rw [if_pos hlisted]
  have hstatus : step s ⟨missing, none, .asked (.load m)⟩ (.status false false) =
      some ⟨missing, none, .starting m settings⟩ := by
    have hstart : s.loadStatus m missing = .ok true := rfl
    unfold step decide
    dsimp only
    rw [hstart, hm]
    rfl
  have hasked : (system s).Reach Faithful ⟨missing, none, .asked (.load m)⟩ :=
    .step (a := .call (.load m)) hinit trivial hcall
  have hstarting : (system s).Reach Faithful ⟨missing, none, .starting m settings⟩ :=
    .step (a := .status false false) hasked trivial hstatus
  exact .step (a := .start true ⟨"running", none, false, settings⟩ (.ok ())) hstarting
    (fun _ => rfl) rfl

/-- If a model has only settings that a later one has too, the later one can run
    without being identified. -/
theorem distinguished_of_identified (h : ∀ x, (system s).Reach Faithful x → Identified s x) :
    Distinguished s := by
  refine List.pairwise_iff_getElem.2 fun i j hi hj hij hcontained => ?_
  have hentries : s.models.entries = s.models.entries.take j ++
      s.models.entries[j] :: s.models.entries.drop (j + 1) := by
    rw [← List.drop_eq_getElem_cons hj, List.take_append_drop]
  have hm : s.models.get s.models.entries[j].1 = some s.models.entries[j].2 :=
    Dict.get_eq_some.2 (List.getElem_mem hj)
  obtain ⟨m, howner, hidentify⟩ := (h _ (reach_load hm)).running rfl
  rw [← Option.some.inj howner] at hidentify
  have hmem : s.models.entries[i] ∈ s.models.entries.take j := List.mem_take_iff_getElem.2
    ⟨i, by omega, rfl⟩
  exact (identify_eq_some (fun _ => rfl) hentries).1 hidentify _ hmem hcontained

/-- The running model is identified correctly in every run exactly if the models
    are distinguished. -/
theorem identified_iff (hnames : s.models.get "" = none) :
    (∀ x, (system s).Reach Faithful x → Identified s x) ↔ Distinguished s :=
  ⟨distinguished_of_identified, fun hs _ h => identified hs hnames h⟩

/-! ## Accepted presets -/

/-- Every option with the prefix `env.` of one section is an option of another. -/
def EnvContained (options options' : Preset.Options) : Prop :=
  ∀ name value, options.get (Preset.serviceEnvPrefix ++ name) = some value →
    options'.get (Preset.serviceEnvPrefix ++ name) = some value

theorem contained_sectionEnv (options options' : Preset.Options) :
    Contained (Preset.sectionEnv options) (Preset.sectionEnv options') ↔
      EnvContained options options' := by
  unfold Contained EnvContained
  simp only [Preset.sectionEnv_get]

/-- The models of a service of an accepted preset are distinguished exactly if no
    section has its environment contained in that of a later one. -/
theorem distinguished_iff {sections : Dict String Preset.Options}
    {catalogue : Dict String Variant} (h : Preset.parseServiceCatalogue sections = .ok catalogue)
    {name : String} (hs : s.models = Preset.serviceModels catalogue name) :
    Distinguished s ↔ (Preset.serviceSections sections name).Pairwise fun options options' =>
      ¬ EnvContained options.2 options'.2 := by
  unfold Distinguished
  rw [hs, Preset.serviceModels_entries h, List.pairwise_map]
  simp only [contained_sectionEnv]

/-- No model of an accepted preset has the empty name. -/
theorem serviceModels_empty {sections : Dict String Preset.Options}
    {catalogue : Dict String Variant} (h : Preset.parseServiceCatalogue sections = .ok catalogue)
    (name : String) : (Preset.serviceModels catalogue name).get "" = none := by
  cases hget : (Preset.serviceModels catalogue name).get "" with
  | none => rfl
  | some env =>
    rw [Preset.serviceModels, Dict.get_mapValues, Dict.get_filter] at hget
    obtain ⟨variant, hfilter, -⟩ := Option.map_eq_some_iff.1 hget
    obtain ⟨hvariant, -⟩ := Option.filter_eq_some_iff.1 hfilter
    obtain ⟨settings, -, hok⟩ := Preset.serviceVariant_of_accepted h hvariant
    exact absurd hok Preset.serviceVariant_ne_empty

/-- The managed service of an accepted preset. -/
def serviceOf (catalogue : Dict String Variant) (service label : String) (timeout : Double) :
    ManagedService :=
  ⟨label, service, Preset.serviceModels catalogue service, timeout⟩

/-- The running model of a service is identified correctly in every run of loads
    and unloads exactly if no section of the service has its environment contained
    in that of a later one. -/
theorem identified_correctly {sections : Dict String Preset.Options}
    {catalogue : Dict String Variant} (h : Preset.parseServiceCatalogue sections = .ok catalogue)
    (service label : String) (timeout : Double) :
    (∀ x, (system (serviceOf catalogue service label timeout)).Reach Faithful x →
      Identified (serviceOf catalogue service label timeout) x) ↔
    (Preset.serviceSections sections service).Pairwise fun options options' =>
      ¬ EnvContained options.2 options'.2 := by
  rw [identified_iff (serviceModels_empty h service)]
  exact distinguished_iff h rfl

/-- A section of Strata with these further options. -/
def strataSection (options : List (String × String)) : Preset.Options :=
  .ofList ([("service", "strata"), ("device", "CUDA0")] ++ options)

/-- Two models of Strata, the second with a setting of its own. -/
def strataPreset (plain : List (String × String)) : Dict String Preset.Options :=
  .ofList [
    ("plain--cuda0", strataSection (("env.STRATA_MODEL", "IQ2_XS") :: plain)),
    ("uncensored--cuda0", strataSection [("env.STRATA_MODEL", "IQ2_XS"),
      ("env.STRATA_SPEED_PROJECTION", "/data/refusal.gguf")])]

/-- The preset that gives every setting for both, and the one that does not. -/
def completePreset : Dict String Preset.Options :=
  strataPreset [("env.STRATA_SPEED_PROJECTION", "")]

def incompletePreset : Dict String Preset.Options := strataPreset []

/-- With every setting given, each of the two is identified. -/
theorem identified_complete : ∃ catalogue,
    Preset.parseServiceCatalogue completePreset = .ok catalogue ∧
      ∀ x, (system (serviceOf catalogue "strata" "Strata" (.finite 3600))).Reach Faithful x →
        Identified (serviceOf catalogue "strata" "Strata" (.finite 3600)) x := by
  obtain ⟨catalogue, hcatalogue⟩ :
      ∃ catalogue, Preset.parseServiceCatalogue completePreset = .ok catalogue :=
    exists_ok_of_isSome (by decide +kernel)
  refine ⟨catalogue, hcatalogue,
    (identified_correctly hcatalogue "strata" "Strata" (.finite 3600)).2 ?_⟩
  show List.Pairwise _ [("plain--cuda0", _), ("uncensored--cuda0", _)]
  refine List.pairwise_pair.2 fun hcontained => ?_
  have hprojection := hcontained "STRATA_SPEED_PROJECTION" "" (by decide +kernel)
  exact absurd hprojection (by decide +kernel)

/-- With the setting left out, a container of the second is taken for the first. -/
theorem unidentified : ¬ ∀ (sections : Dict String Preset.Options) (catalogue : Dict String Variant)
    (service label : String) (timeout : Double),
    Preset.parseServiceCatalogue sections = .ok catalogue →
      ∀ x, (system (serviceOf catalogue service label timeout)).Reach Faithful x →
        Identified (serviceOf catalogue service label timeout) x := by
  intro h
  obtain ⟨catalogue, hcatalogue⟩ :
      ∃ catalogue, Preset.parseServiceCatalogue incompletePreset = .ok catalogue :=
    exists_ok_of_isSome (by decide +kernel)
  have hs := distinguished_of_identified
    (h incompletePreset catalogue "strata" "Strata" (.finite 3600) hcatalogue)
  rw [distinguished_iff hcatalogue rfl] at hs
  have hs : List.Pairwise _ [("plain--cuda0", _), ("uncensored--cuda0", _)] := hs
  refine List.pairwise_pair.1 hs fun name value hget => ?_
  have hall : ∀ e ∈ (strataSection [("env.STRATA_MODEL", "IQ2_XS")]).entries,
      (strataSection [("env.STRATA_MODEL", "IQ2_XS"),
        ("env.STRATA_SPEED_PROJECTION", "/data/refusal.gguf")]).get e.1 = some e.2 := by
    decide +kernel
  exact hall _ (Dict.get_eq_some.1 hget)

end ModelBroker.Managed
