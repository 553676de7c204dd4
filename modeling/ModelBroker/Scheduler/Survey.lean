import ModelBroker.Python.Builtins
import ModelBroker.Scheduler.Records

/-!
# Surveying the servers

Models of `router_problems`, `reconcile`, `cross_backend_conflicts` and the loop
body of `survey` (`scheduler.py`, lines 134–247). `survey` awaits two answers of
every server, so the scheduler's model takes it one answer at a time
(`Inspection`); `survey` itself is the same steps on a list of answers.

* `get_reconcile`, `reconcile_problems`: what one server's answer adds.
* `survey_complete`: what every survey satisfies, whatever the servers answer;
  in particular one without problems has no two conflicting records.
* `Inspection.sound_answerProps`, `Inspection.sound_answerStates`: the same for
  a survey taken one answer at a time.
-/

namespace ModelBroker

open Python (orElse pairs)

/-- `KNOWN_STATES` (line 43). -/
def knownStates : List String := ["unloaded", "loading", "loaded", "sleeping"]

/-- `router_problems` (lines 134–151). -/
def routerProblems (props : RouterProps) (catalogue : Dict String Variant) (name : String) :
    List String :=
  let needed := maxLoadedModels catalogue
  (if 0 < props.maxInstances ∧ props.maxInstances < needed then
    [name ++ " models-max is " ++ toString props.maxInstances ++ ", but " ++ toString needed ++
      " models can be loaded together; set --models-max " ++ toString needed ++ " or higher"]
  else []) ++
  (if props.modelsAutoload then
    [name ++ " loads models automatically; start it with --no-models-autoload"]
  else [])

/-! ## `reconcile` -/

/-- The problems one reported state adds (lines 173–182). -/
def stateProblems (catalogue : Dict String Variant) (name id : String) (state : ModelState) :
    List String :=
  if state.value = "unloaded" then []
  else
    (if state.value ∉ knownStates then
      [name ++ " reports " ++ Python.repr id ++ " in unknown state " ++ Python.repr state.value ++
        "; it is taken to hold its resources"]
    else []) ++
    (if state.value = "sleeping" then
      [name ++ " reports " ++ Python.repr id ++ " sleeping; idle sleeping must be off"]
    else []) ++
    (if (catalogue.get id).isNone then
      [name ++ " has " ++ Python.repr id ++ " " ++ state.value ++ ", but the preset lacks it"]
    else [])

/-- The record with which a reported model is adopted, if it is (lines 171–172
    and 180–185). -/
def adopted (catalogue : Dict String Variant) (now : ℚ) (id : String) (state : ModelState) :
    Option LoadedModel :=
  if state.value = "unloaded" then none
  else (catalogue.get id).map fun variant =>
    { variant := variant, lastActivity := now, ready := state.value != "loading" }

/-- The body of the loop over `states.items()` (lines 170–185). -/
def reconcileState (catalogue : Dict String Variant) (now : ℚ) (name : String)
    (acc : Dict String LoadedModel × List String) (entry : String × ModelState) :
    Dict String LoadedModel × List String :=
  (match adopted catalogue now entry.1 entry.2 with
    | some model => acc.1.insert entry.1 model
    | none => acc.1,
   acc.2 ++ stateProblems catalogue name entry.1 entry.2)

/-- The problems of the loop over `combinations(loaded.values(), 2)` (lines 186–191). -/
def conflictProblems (name : String) (loaded : Dict String LoadedModel) : List String :=
  ((pairs loaded.values).filter fun p => claimsConflict p.1.variant p.2.variant).map fun p =>
    name ++ " has conflicting models loaded: " ++ Python.repr p.1.variant.id ++ " and " ++
      Python.repr p.2.variant.id

/-- `reconcile` (lines 154–192). -/
def reconcile (catalogue : Dict String Variant) (states : Dict String ModelState) (now : ℚ)
    (name : String) : Dict String LoadedModel × List String :=
  let (loaded, problems) := states.entries.foldl (reconcileState catalogue now name) (∅, [])
  (loaded, problems ++ conflictProblems name loaded)

/-- The loop, as what it adds to the two accumulators. -/
theorem foldl_reconcileState (catalogue : Dict String Variant) (now : ℚ) (name id : String) :
    ∀ (l : List (String × ModelState)) (hl : (l.map Prod.fst).Nodup)
      (acc : Dict String LoadedModel × List String),
      (l.foldl (reconcileState catalogue now name) acc).1.get id =
          (((⟨l, hl⟩ : Dict String ModelState).get id).bind (adopted catalogue now id)).or
            (acc.1.get id) ∧
        (l.foldl (reconcileState catalogue now name) acc).2 =
          acc.2 ++ l.flatMap fun e => stateProblems catalogue name e.1 e.2 := by
  intro l
  induction l with
  | nil => intro _ acc; simp [Dict.get]
  | cons e l ih =>
    intro hl acc
    have hl' := List.nodup_cons.1 hl
    obtain ⟨ih1, ih2⟩ := ih hl'.2 (reconcileState catalogue now name acc e)
    rw [List.foldl_cons]
    refine ⟨?_, by rw [ih2]; simp [reconcileState]⟩
    rw [ih1, Dict.get_cons]
    by_cases he : e.1 = id
    · have hnone : (⟨l, hl'.2⟩ : Dict String ModelState).get id = none :=
        Dict.get_eq_none.2 (he ▸ hl'.1)
      rw [if_pos he, hnone]
      subst he
      cases ha : adopted catalogue now e.1 e.2 <;> simp [reconcileState, ha]
    · have hne : id ≠ e.1 := fun h => he h.symm
      rw [if_neg he]
      cases ha : adopted catalogue now e.1 e.2 <;> simp [reconcileState, ha, hne]

/-- A model is adopted exactly when it is reported in a state that is not
    `unloaded` and is one of the catalogue given. -/
theorem get_reconcile (catalogue : Dict String Variant) (states : Dict String ModelState) (now : ℚ)
    (name id : String) :
    (reconcile catalogue states now name).1.get id =
      (states.get id).bind (adopted catalogue now id) := by
  have h := (foldl_reconcileState catalogue now name id states.entries states.nodup (∅, [])).1
  simpa [reconcile] using h

theorem reconcile_problems (catalogue : Dict String Variant) (states : Dict String ModelState)
    (now : ℚ) (name : String) :
    (reconcile catalogue states now name).2 =
      (states.entries.flatMap fun e => stateProblems catalogue name e.1 e.2) ++
        conflictProblems name (reconcile catalogue states now name).1 := by
  have h := (foldl_reconcileState catalogue now name "" states.entries states.nodup (∅, [])).2
  simp only [reconcile]
  rw [h]
  rfl

theorem stateProblems_eq_nil {catalogue : Dict String Variant} {name id : String}
    {state : ModelState} (h : stateProblems catalogue name id state = [])
    (hstate : state.value ≠ "unloaded") :
    (∃ variant, catalogue.get id = some variant) ∧
      (state.value = "loading" ∨ state.value = "loaded") := by
  simp only [stateProblems, hstate, if_false, List.append_eq_nil_iff, ite_eq_right_iff,
    List.cons_ne_nil, imp_false, Option.isNone_iff_eq_none] at h
  obtain ⟨⟨hknown, hsleep⟩, hown⟩ := h
  refine ⟨Option.ne_none_iff_exists'.1 hown, ?_⟩
  simp only [not_not, knownStates, List.mem_cons, List.not_mem_nil, or_false] at hknown
  tauto

/-- Two records of a `conflictProblems`-free dictionary never conflict. -/
theorem noConflict_of_conflictProblems {name : String} {loaded : Dict String LoadedModel}
    (h : conflictProblems name loaded = []) {id id' : String} {m m' : LoadedModel}
    (hm : loaded.get id = some m) (hm' : loaded.get id' = some m') (hne : m ≠ m') :
    claimsConflict m.variant m'.variant = false := by
  simp only [conflictProblems, List.map_eq_nil_iff, List.filter_eq_nil_iff] at h
  rcases Python.mem_pairs (Dict.mem_values.2 ⟨id, hm⟩) (Dict.mem_values.2 ⟨id', hm'⟩) hne with hp | hp
  · simpa using h _ hp
  · rw [claimsConflict_comm]; simpa using h _ hp

/-- `cross_backend_conflicts` (lines 195–206). -/
def crossBackendConflicts (loaded : Dict String LoadedModel) : List String :=
  ((pairs loaded.values).filter fun p =>
      p.1.variant.backend != p.2.variant.backend && claimsConflict p.1.variant p.2.variant).map
    fun p => "conflicting models are loaded on different servers: " ++ Python.repr p.1.variant.id ++
      " and " ++ Python.repr p.2.variant.id

theorem noConflict_of_crossBackendConflicts {loaded : Dict String LoadedModel}
    (h : crossBackendConflicts loaded = []) {id id' : String} {m m' : LoadedModel}
    (hm : loaded.get id = some m) (hm' : loaded.get id' = some m')
    (hne : m.variant.backend ≠ m'.variant.backend) :
    claimsConflict m.variant m'.variant = false := by
  simp only [crossBackendConflicts, List.map_eq_nil_iff, List.filter_eq_nil_iff] at h
  have hmm : m ≠ m' := fun he => hne (by rw [he])
  rcases Python.mem_pairs (Dict.mem_values.2 ⟨id, hm⟩) (Dict.mem_values.2 ⟨id', hm'⟩) hmm with hp | hp
  · simpa [hne] using h _ hp
  · rw [claimsConflict_comm]; simpa [hne.symm] using h _ hp

/-! ## `survey` -/

/-- `Survey` (lines 209–220), the accumulators of `survey`. -/
structure Survey where
  loaded : Dict String LoadedModel := ∅
  problems : List String := []
  build : Option String := none
  unreachable : List String := []

namespace Survey

/-- A server could not be read (lines 239–242). -/
def unavailable (found : Survey) (server : String × String) (error : String) : Survey :=
  { found with
    unreachable := found.unreachable ++ [server.1]
    problems := found.problems ++ [server.2 ++ " is unavailable: " ++ error] }

/-- A server has answered both requests (lines 235 and 243–246). -/
def read (found : Survey) (catalogue : Catalogue) (now : ℚ) (server : String × String)
    (props : RouterProps) (states : Dict String ModelState) : Survey :=
  let own := catalogue.own server.1
  let (models, problems) := reconcile own states now server.2
  { found with
    loaded := found.loaded.update models
    problems := found.problems ++ (routerProblems props own server.2 ++ problems)
    build := orElse found.build props.build }

/-- The result of `survey` once every server was read (line 247). -/
def finish (found : Survey) : Survey :=
  { found with problems := found.problems ++ crossBackendConflicts found.loaded }

end Survey

/-- What one server answers to `props` and then `model_states`; the error is
    that of whichever call failed. -/
abbrev ServerAnswer := Except String (RouterProps × Dict String ModelState)

/-- The body of the loop over the adapters (lines 234–246). -/
def surveyServer (cfg : Config) (now : ℚ) (answer : String → ServerAnswer) (found : Survey)
    (server : String × String) : Survey :=
  match answer server.1 with
  | .error error => found.unavailable server error
  | .ok (props, states) => found.read cfg.catalogue now server props states

/-- `survey` (lines 223–247) when the servers give these answers. -/
def survey (cfg : Config) (now : ℚ) (answer : String → ServerAnswer) : Survey :=
  (cfg.adapters.entries.foldl (surveyServer cfg now answer) {}).finish

/-! ## What every survey satisfies -/

/-- A record as `reconcile` makes it: nobody uses it yet. -/
structure LoadedModel.Fresh (model : LoadedModel) : Prop where
  active : model.active = 0
  queued : model.queued = 0
  decodeCalls : model.decodeCalls = none
  error : model.error = none
  leaving : model.leaving = false

theorem adopted_eq_some {catalogue : Dict String Variant} {now : ℚ} {id : String}
    {state : ModelState} {model : LoadedModel} :
    adopted catalogue now id state = some model ↔
      state.value ≠ "unloaded" ∧ catalogue.get id = some model.variant ∧
        model = { variant := model.variant, lastActivity := now,
                  ready := state.value != "loading" } := by
  unfold adopted
  split_ifs with h
  · simp [h]
  · rw [Option.map_eq_some_iff]
    constructor
    · rintro ⟨variant, hv, rfl⟩
      exact ⟨h, hv, rfl⟩
    · rintro ⟨-, hv, hm⟩
      exact ⟨_, hv, hm.symm⟩

theorem adopted_fresh {catalogue : Dict String Variant} {now : ℚ} {id : String}
    {state : ModelState} {model : LoadedModel}
    (h : adopted catalogue now id state = some model) : model.Fresh := by
  obtain ⟨-, -, hm⟩ := adopted_eq_some.1 h
  constructor <;> rw [hm]

namespace Survey

/-- What the records found on `servers` satisfy, whatever the servers answered. -/
structure Sound (cfg : Config) (servers : List String) (found : Survey) : Prop where
  fresh : ∀ id model, found.loaded.get id = some model → model.Fresh
  known : ∀ id model, found.loaded.get id = some model →
    cfg.catalogue.get id = some model.variant
  server : ∀ id model, found.loaded.get id = some model → model.variant.backend ∈ servers
  reachable : ∀ id model, found.loaded.get id = some model →
    model.variant.backend ∉ found.unreachable
  asked : ∀ key ∈ found.unreachable, key ∈ servers
  reported : found.unreachable ≠ [] → found.problems ≠ []
  apart : found.problems = [] → ∀ id id' model model', found.loaded.get id = some model →
    found.loaded.get id' = some model' → id ≠ id' →
    model.variant.backend = model'.variant.backend →
    claimsConflict model.variant model'.variant = false

theorem Sound.empty (cfg : Config) : Sound cfg [] {} := by
  constructor <;> simp

theorem Sound.unavailable {cfg : Config} {servers : List String} {found : Survey}
    (h : found.Sound cfg servers) {server : String × String} (hnew : server.1 ∉ servers)
    (error : String) : (found.unavailable server error).Sound cfg (servers ++ [server.1]) := by
  constructor
  · exact h.fresh
  · exact h.known
  · intro id model hm
    exact List.mem_append_left _ (h.server id model hm)
  · intro id model hm hmem
    rcases List.mem_append.1 hmem with hmem | hmem
    · exact h.reachable id model hm hmem
    · exact hnew (List.mem_singleton.1 hmem ▸ h.server id model hm)
  · intro key hkey
    rcases List.mem_append.1 hkey with hkey | hkey
    · exact List.mem_append_left _ (h.asked key hkey)
    · exact List.mem_append_right _ hkey
  · intro _ hp
    simp [Survey.unavailable] at hp
  · intro hp
    simp [Survey.unavailable] at hp

/-- What `read` adds to the records found. -/
theorem get_read (found : Survey) (catalogue : Catalogue) (now : ℚ) (server : String × String)
    (props : RouterProps) (states : Dict String ModelState) (id : String) :
    (found.read catalogue now server props states).loaded.get id =
      ((states.get id).bind (adopted (catalogue.own server.1) now id)).or
        (found.loaded.get id) := by
  rw [← get_reconcile (catalogue.own server.1) states now server.2 id, ← Dict.get_update]
  rfl

theorem read_problems_eq_nil {found : Survey} {catalogue : Catalogue} {now : ℚ}
    {server : String × String} {props : RouterProps} {states : Dict String ModelState}
    (h : (found.read catalogue now server props states).problems = []) :
    found.problems = [] ∧ routerProblems props (catalogue.own server.1) server.2 = [] ∧
      (reconcile (catalogue.own server.1) states now server.2).2 = [] := by
  simpa [Survey.read] using h

/-- A record found after `read` was found before, or is one of the server read. -/
theorem get_read_cases {found : Survey} {catalogue : Catalogue} {now : ℚ}
    {server : String × String} {props : RouterProps} {states : Dict String ModelState}
    {id : String} {model : LoadedModel}
    (h : (found.read catalogue now server props states).loaded.get id = some model) :
    found.loaded.get id = some model ∨
      ((reconcile (catalogue.own server.1) states now server.2).1.get id = some model ∧
        model.Fresh ∧ catalogue.get id = some model.variant ∧
        model.variant.backend = server.1) := by
  rw [get_read, ← get_reconcile (catalogue.own server.1) states now server.2 id] at h
  rcases Option.or_eq_some_iff.1 h with h | ⟨-, h⟩
  · refine .inr ⟨h, ?_⟩
    rw [get_reconcile] at h
    obtain ⟨state, -, had⟩ := Option.bind_eq_some_iff.1 h
    have hown := Catalogue.get_own.1 (adopted_eq_some.1 had).2.1
    exact ⟨adopted_fresh had, hown.1, hown.2⟩
  · exact .inl h

theorem Sound.read {cfg : Config} {servers : List String} {found : Survey}
    (h : found.Sound cfg servers) {server : String × String} (hnew : server.1 ∉ servers) (now : ℚ)
    (props : RouterProps) (states : Dict String ModelState) :
    (found.read cfg.catalogue now server props states).Sound cfg (servers ++ [server.1]) := by
  constructor
  · intro id model hm
    rcases get_read_cases hm with hm | ⟨-, hf, -⟩
    · exact h.fresh id model hm
    · exact hf
  · intro id model hm
    rcases get_read_cases hm with hm | ⟨-, -, hk, -⟩
    · exact h.known id model hm
    · exact hk
  · intro id model hm
    rcases get_read_cases hm with hm | ⟨-, -, -, hb⟩
    · exact List.mem_append_left _ (h.server id model hm)
    · exact List.mem_append_right _ (hb ▸ List.mem_singleton_self _)
  · intro id model hm hmem
    rcases get_read_cases hm with hm | ⟨-, -, -, hb⟩
    · exact h.reachable id model hm hmem
    · exact hnew (h.asked _ (hb ▸ hmem))
  · intro key hkey
    exact List.mem_append_left _ (h.asked key hkey)
  · intro hu hp
    exact h.reported hu (read_problems_eq_nil hp).1
  · intro hp id id' model model' hm hm' hne hback
    obtain ⟨hp0, -, hprec⟩ := read_problems_eq_nil hp
    rcases get_read_cases hm with hm | ⟨hm, -, hk, hb⟩ <;>
      rcases get_read_cases hm' with hm' | ⟨hm', -, hk', hb'⟩
    · exact h.apart hp0 id id' model model' hm hm' hne hback
    · exact absurd (h.server id model hm) (by rw [hback, hb']; exact hnew)
    · exact absurd (h.server id' model' hm') (by rw [← hback, hb]; exact hnew)
    · rw [reconcile_problems] at hprec
      refine noConflict_of_conflictProblems (List.append_eq_nil_iff.1 hprec).2 hm hm' ?_
      intro heq
      exact hne (by rw [← Catalogue.get_id hk, ← Catalogue.get_id hk', heq])

/-- What a finished survey satisfies. -/
structure Complete (cfg : Config) (found : Survey) : Prop extends
    found.Sound cfg cfg.adapters.keys where
  fit : found.problems = [] → ∀ id id' model model', found.loaded.get id = some model →
    found.loaded.get id' = some model' → id ≠ id' →
    claimsConflict model.variant model'.variant = false

theorem Sound.finish {cfg : Config} {found : Survey} (h : found.Sound cfg cfg.adapters.keys) :
    found.finish.Complete cfg := by
  have hnil : found.finish.problems = [] →
      found.problems = [] ∧ crossBackendConflicts found.loaded = [] := fun hp =>
    List.append_eq_nil_iff.1 hp
  refine ⟨⟨h.fresh, h.known, h.server, h.reachable, h.asked, ?_, ?_⟩, ?_⟩
  · intro hu hp
    exact h.reported hu (hnil hp).1
  · intro hp
    exact h.apart (hnil hp).1
  · intro hp id id' model model' hm hm' hne
    by_cases hback : model.variant.backend = model'.variant.backend
    · exact h.apart (hnil hp).1 id id' model model' hm hm' hne hback
    · exact noConflict_of_crossBackendConflicts (hnil hp).2 hm hm' hback

end Survey

/-- Every survey is sound, whatever the servers answer. -/
theorem survey_complete (cfg : Config) (now : ℚ) (answer : String → ServerAnswer) :
    (survey cfg now answer).Complete cfg := by
  -- the induction is on the servers still to be read, none of which was read before
  have key : ∀ (rest : List (String × String)) (servers : List String) (found : Survey),
      (servers ++ rest.map Prod.fst).Nodup → found.Sound cfg servers →
      (rest.foldl (surveyServer cfg now answer) found).Sound cfg
        (servers ++ rest.map Prod.fst) := by
    intro rest
    induction rest with
    | nil => intro servers found _ h; simpa using h
    | cons server rest ih =>
      intro servers found hnd h
      have hnew : server.1 ∉ servers := by
        intro hmem
        exact (List.nodup_append.1 hnd).2.2 _ hmem _ (by simp) rfl
      have hsplit : servers ++ (server :: rest).map Prod.fst =
          (servers ++ [server.1]) ++ rest.map Prod.fst := by simp
      rw [hsplit] at hnd ⊢
      rw [List.foldl_cons]
      refine ih _ _ hnd ?_
      unfold surveyServer
      split
      · exact h.unavailable hnew _
      · exact h.read hnew _ _ _
  have h := key cfg.adapters.entries [] {} (by simpa using cfg.adapters.nodup) (.empty cfg)
  exact Survey.Sound.finish (by simpa [Dict.keys] using h)

/-! ## A survey taken one answer at a time -/

/-- `survey` between two awaits: what was found so far, the argument `now`, the
    server being read, its settings once it has given them, and the servers
    still to be read. -/
structure Inspection where
  found : Survey
  now : ℚ
  server : String × String
  props : Option RouterProps := none
  rest : List (String × String)

/-- Go on to the next server, or finish. -/
def surveyNext (now : ℚ) (found : Survey) : List (String × String) → Survey ⊕ Inspection
  | [] => .inl found.finish
  | server :: rest => .inr { found := found, now := now, server := server, rest := rest }

namespace Inspection

/-- `adapter.props()` has answered (line 237). -/
def answerProps (i : Inspection) : Except String RouterProps → Survey ⊕ Inspection
  | .error error => surveyNext i.now (i.found.unavailable i.server error) i.rest
  | .ok props => .inr { i with props := some props }

/-- `adapter.model_states()` has answered (line 238). -/
def answerStates (i : Inspection) (catalogue : Catalogue) (props : RouterProps) :
    Except String (Dict String ModelState) → Survey ⊕ Inspection
  | .error error => surveyNext i.now (i.found.unavailable i.server error) i.rest
  | .ok states => surveyNext i.now (i.found.read catalogue i.now i.server props states) i.rest

/-- The servers are read in order, and what was found so far is sound. -/
def Sound (cfg : Config) (i : Inspection) : Prop :=
  ∃ read, read ++ i.server :: i.rest = cfg.adapters.entries ∧
    i.found.Sound cfg (read.map Prod.fst)

/-- Either the survey goes on soundly, or it is complete. -/
def SoundOr (cfg : Config) : Survey ⊕ Inspection → Prop
  | .inl found => found.Complete cfg
  | .inr i => i.Sound cfg

theorem sound_surveyNext {cfg : Config} {now : ℚ} {found : Survey}
    {read rest : List (String × String)} (hsplit : read ++ rest = cfg.adapters.entries)
    (h : found.Sound cfg (read.map Prod.fst)) : SoundOr cfg (surveyNext now found rest) := by
  cases rest with
  | nil =>
    have hall : read.map Prod.fst = cfg.adapters.keys := by rw [Dict.keys, ← hsplit]; simp
    exact Survey.Sound.finish (hall ▸ h)
  | cons server rest => exact ⟨read, hsplit, h⟩

/-- The server being read was not read before. -/
theorem Sound.unread {cfg : Config} {i : Inspection} {read : List (String × String)}
    (hsplit : read ++ i.server :: i.rest = cfg.adapters.entries) :
    i.server.1 ∉ read.map Prod.fst := by
  intro hmem
  have hnd : (read.map Prod.fst ++ (i.server :: i.rest).map Prod.fst).Nodup := by
    rw [← List.map_append, hsplit]
    exact cfg.adapters.nodup
  exact (List.nodup_append.1 hnd).2.2 _ hmem _ (by simp) rfl

theorem Sound.unavailable {cfg : Config} {i : Inspection} (h : i.Sound cfg) (error : String) :
    SoundOr cfg (surveyNext i.now (i.found.unavailable i.server error) i.rest) := by
  obtain ⟨read, hsplit, hf⟩ := h
  have hf' := hf.unavailable (Sound.unread hsplit) error
  have hsplit' : (read ++ [i.server]) ++ i.rest = cfg.adapters.entries := by simpa using hsplit
  exact sound_surveyNext hsplit' (by simpa using hf')

theorem sound_answerProps {cfg : Config} {i : Inspection} (h : i.Sound cfg)
    (answer : Except String RouterProps) : SoundOr cfg (i.answerProps answer) := by
  cases answer with
  | error error => exact h.unavailable error
  | ok props => exact h

theorem sound_answerStates {cfg : Config} {i : Inspection} (h : i.Sound cfg) (props : RouterProps)
    (answer : Except String (Dict String ModelState)) :
    SoundOr cfg (i.answerStates cfg.catalogue props answer) := by
  cases answer with
  | error error => exact h.unavailable error
  | ok states =>
    obtain ⟨read, hsplit, hf⟩ := h
    have hf' := hf.read (Sound.unread hsplit) i.now props states
    have hsplit' : (read ++ [i.server]) ++ i.rest = cfg.adapters.entries := by simpa using hsplit
    exact sound_surveyNext hsplit' (by simpa using hf')

end Inspection

end ModelBroker
