import ModelBroker.Scheduler.Survey

/-!
# What a survey concludes

What the records, the problems and the unreachable servers of `survey`
(`scheduler.py`, lines 223–247) are, given what every server answers.

* `foldl_problems`, `foldl_unreachable`, `get_foldl`: what the loop over the
  servers collects.
* `routerProblems_eq_nil`, `reconcile_problems_eq_nil`,
  `crossBackendConflicts_eq_nil`: when each of the checks finds nothing.
* `survey_sound_complete`: no problems exactly when it is safe to schedule, and
  one record for each model that a reachable server has.
-/

namespace ModelBroker

variable {cfg : Config} {now : ℚ} {answer : String → ServerAnswer}

/-! ## What the loop collects -/

/-- The problems one server adds (lines 239–245). -/
def serverProblems (cfg : Config) (now : ℚ) (answer : String → ServerAnswer)
    (server : String × String) : List String :=
  match answer server.1 with
  | .error error => [server.2 ++ " is unavailable: " ++ error]
  | .ok (props, states) =>
    routerProblems props (cfg.catalogue.own server.1) server.2 ++
      (reconcile (cfg.catalogue.own server.1) states now server.2).2

/-- The record one server adds under an id. -/
def serverModel (cfg : Config) (now : ℚ) (answer : String → ServerAnswer) (id : String)
    (server : String × String) : Option LoadedModel :=
  match answer server.1 with
  | .error _ => none
  | .ok (_, states) => (states.get id).bind (adopted (cfg.catalogue.own server.1) now id)

/-- The server cannot be read. -/
def ServerAnswer.failed : ServerAnswer → Bool
  | .error _ => true
  | .ok _ => false

theorem foldl_problems (rest : List (String × String)) (found : Survey) :
    (rest.foldl (surveyServer cfg now answer) found).problems =
      found.problems ++ rest.flatMap (serverProblems cfg now answer) := by
  induction rest generalizing found with
  | nil => simp
  | cons server rest ih =>
    rw [List.foldl_cons, ih, List.flatMap_cons, ← List.append_assoc]
    congr 1
    unfold surveyServer serverProblems
    cases answer server.1 <;> rfl

theorem foldl_unreachable (rest : List (String × String)) (found : Survey) :
    (rest.foldl (surveyServer cfg now answer) found).unreachable =
      found.unreachable ++ (rest.map Prod.fst).filter fun key => (answer key).failed := by
  induction rest generalizing found with
  | nil => simp
  | cons server rest ih =>
    rw [List.foldl_cons, ih, List.map_cons]
    unfold surveyServer
    split
    · next error heq => simp [Survey.unavailable, heq, ServerAnswer.failed]
    · next props states heq => simp [Survey.read, heq, ServerAnswer.failed]

theorem get_surveyServer (found : Survey) (server : String × String) (id : String) :
    (surveyServer cfg now answer found server).loaded.get id =
      (serverModel cfg now answer id server).or (found.loaded.get id) := by
  unfold surveyServer serverModel
  cases answer server.1 with
  | error error => rfl
  | ok pair => exact Survey.get_read ..

/-- A server adds the model of a variant of its own that it reports. -/
theorem serverModel_eq_some {id : String} {server : String × String} {model : LoadedModel} :
    serverModel cfg now answer id server = some model ↔
      ∃ props states state, answer server.1 = .ok (props, states) ∧ states.get id = some state ∧
        state.value ≠ "unloaded" ∧ cfg.catalogue.get id = some model.variant ∧
        model.variant.backend = server.1 ∧
        model = { variant := model.variant, lastActivity := now,
                  ready := state.value != "loading" } := by
  unfold serverModel
  cases heq : answer server.1 with
  | error error => simp
  | ok pair =>
    obtain ⟨props, states⟩ := pair
    simp only [Option.bind_eq_some_iff, adopted_eq_some, Catalogue.get_own, Except.ok.injEq,
      Prod.mk.injEq]
    constructor
    · rintro ⟨state, hstate, hvalue, ⟨hknown, hback⟩, hmodel⟩
      exact ⟨props, states, state, ⟨rfl, rfl⟩, hstate, hvalue, hknown, hback, hmodel⟩
    · rintro ⟨_, _, state, ⟨rfl, rfl⟩, hstate, hvalue, hknown, hback, hmodel⟩
      exact ⟨state, hstate, hvalue, ⟨hknown, hback⟩, hmodel⟩

/-- Only the server of a variant adds its model. -/
theorem serverModel_server {id : String} {first second : String × String} {m m' : LoadedModel}
    (h : serverModel cfg now answer id first = some m)
    (h' : serverModel cfg now answer id second = some m') : first.1 = second.1 := by
  obtain ⟨-, -, -, -, -, -, hknown, hback, -⟩ := serverModel_eq_some.1 h
  obtain ⟨-, -, -, -, -, -, hknown', hback', -⟩ := serverModel_eq_some.1 h'
  rw [hknown] at hknown'
  rw [← hback, ← hback', Option.some.inj hknown']

/-- A record is found when one of the servers adds it. -/
theorem get_foldl {id : String} {model : LoadedModel} :
    ∀ (rest : List (String × String)) (found : Survey), (rest.map Prod.fst).Nodup →
      found.loaded.get id = none →
      ((rest.foldl (surveyServer cfg now answer) found).loaded.get id = some model ↔
        ∃ server ∈ rest, serverModel cfg now answer id server = some model) := by
  -- once a server has added the model, the servers left add nothing under this id
  have later : ∀ (rest : List (String × String)) (found : Survey),
      (∀ server ∈ rest, serverModel cfg now answer id server = none) →
      (rest.foldl (surveyServer cfg now answer) found).loaded.get id = found.loaded.get id := by
    intro rest
    induction rest with
    | nil => exact fun found _ => rfl
    | cons server rest ih =>
      intro found hnone
      obtain ⟨hserver, hrest⟩ := List.forall_mem_cons.1 hnone
      rw [List.foldl_cons, ih _ hrest, get_surveyServer, hserver]
      rfl
  intro rest
  induction rest with
  | nil =>
    intro found _ hnone
    simp [hnone]
  | cons server rest ih =>
    intro found hnd hnone
    obtain ⟨hserver, hrest⟩ := List.nodup_cons.1 hnd
    rw [List.foldl_cons]
    cases hm : serverModel cfg now answer id server with
    | none =>
      rw [ih _ hrest (by rw [get_surveyServer, hm, hnone]; rfl)]
      simp [hm]
    | some m =>
      have hothers : ∀ other ∈ rest, serverModel cfg now answer id other = none := by
        intro other hother
        by_contra hne
        obtain ⟨m', hm'⟩ := Option.ne_none_iff_exists'.1 hne
        rw [serverModel_server hm hm'] at hserver
        exact hserver (List.mem_map_of_mem hother)
      rw [later rest _ hothers, get_surveyServer, hm, List.exists_mem_cons_iff, hm]
      constructor
      · exact .inl
      · rintro (h | ⟨other, hother, h⟩)
        · exact h
        · rw [hothers other hother] at h
          cases h

/-! ## When a check finds nothing -/

theorem routerProblems_eq_nil {props : RouterProps} {catalogue : Dict String Variant}
    {name : String} :
    routerProblems props catalogue name = [] ↔ props.modelsAutoload = false ∧
      ¬ (0 < props.maxInstances ∧ props.maxInstances < maxLoadedModels catalogue) := by
  simp only [routerProblems, List.append_eq_nil_iff, ite_eq_right_iff, List.cons_ne_nil, imp_false,
    Bool.not_eq_true]
  exact and_comm

theorem stateProblems_eq_nil_iff {catalogue : Dict String Variant} {name id : String}
    {state : ModelState} :
    stateProblems catalogue name id state = [] ↔ (state.value ≠ "unloaded" →
      (∃ variant, catalogue.get id = some variant) ∧
        (state.value = "loading" ∨ state.value = "loaded")) := by
  constructor
  · exact stateProblems_eq_nil
  · intro h
    by_cases hstate : state.value = "unloaded"
    · simp [stateProblems, hstate]
    · obtain ⟨⟨variant, hv⟩, hvalue⟩ := h hstate
      rcases hvalue with hvalue | hvalue <;> simp [stateProblems, hvalue, hv, knownStates]

/-- The records of a dictionary that are under the ids of their variants. -/
def Keyed (loaded : Dict String LoadedModel) : Prop :=
  ∀ id model, loaded.get id = some model → model.variant.id = id

/-- Two records of a dictionary are paired, in one order or the other. -/
theorem pairs_values {loaded : Dict String LoadedModel} (hkeyed : Keyed loaded)
    {P : LoadedModel × LoadedModel → Prop} (hsymm : ∀ m m', P (m, m') → P (m', m)) :
    (∀ p ∈ Python.pairs loaded.values, P p) ↔ ∀ id id' m m', loaded.get id = some m →
      loaded.get id' = some m' → id ≠ id' → P (m, m') := by
  have hnd : loaded.values.Nodup := by
    refine Dict.values_nodup fun k k' v hk hk' => ?_
    rw [← hkeyed k v hk, ← hkeyed k' v hk']
  constructor
  · intro h id id' m m' hm hm' hne
    have hmm : m ≠ m' := by
      rintro rfl
      exact hne (by rw [← hkeyed id m hm, ← hkeyed id' m hm'])
    rcases Python.mem_pairs (Dict.mem_values.2 ⟨id, hm⟩) (Dict.mem_values.2 ⟨id', hm'⟩) hmm with
      hp | hp
    · exact h _ hp
    · exact hsymm _ _ (h _ hp)
  · rintro h ⟨m, m'⟩ hp
    obtain ⟨hm, hm', hne⟩ := Python.of_mem_pairs hnd hp
    obtain ⟨id, hid⟩ := Dict.mem_values.1 hm
    obtain ⟨id', hid'⟩ := Dict.mem_values.1 hm'
    refine h id id' m m' hid hid' ?_
    rintro rfl
    exact hne (Option.some.inj (hid.symm.trans hid'))

theorem conflictProblems_eq_nil {name : String} {loaded : Dict String LoadedModel}
    (hkeyed : Keyed loaded) :
    conflictProblems name loaded = [] ↔ ∀ id id' m m', loaded.get id = some m →
      loaded.get id' = some m' → id ≠ id' → claimsConflict m.variant m'.variant = false := by
  rw [conflictProblems, List.map_eq_nil_iff, List.filter_eq_nil_iff]
  simp only [Bool.not_eq_true]
  refine pairs_values (P := fun p => claimsConflict p.1.variant p.2.variant = false) hkeyed ?_
  intro m m' h
  exact (claimsConflict_comm _ _).trans h

theorem crossBackendConflicts_eq_nil {loaded : Dict String LoadedModel} (hkeyed : Keyed loaded) :
    crossBackendConflicts loaded = [] ↔ ∀ id id' m m', loaded.get id = some m →
      loaded.get id' = some m' → id ≠ id' → m.variant.backend ≠ m'.variant.backend →
      claimsConflict m.variant m'.variant = false := by
  rw [crossBackendConflicts, List.map_eq_nil_iff, List.filter_eq_nil_iff]
  have hpairs := pairs_values (P := fun p => p.1.variant.backend ≠ p.2.variant.backend →
    claimsConflict p.1.variant p.2.variant = false) hkeyed
    (fun m m' h hne => (claimsConflict_comm _ _).trans (h hne.symm))
  rw [← hpairs]
  refine forall₂_congr fun p _ => ?_
  simp

theorem reconcile_keyed {catalogue : Catalogue} {server : String} {states : Dict String ModelState}
    {name : String} : Keyed (reconcile (catalogue.own server) states now name).1 := by
  intro id model hm
  rw [get_reconcile, Option.bind_eq_some_iff] at hm
  obtain ⟨state, -, had⟩ := hm
  exact Catalogue.get_id (Catalogue.get_own.1 (adopted_eq_some.1 had).2.1).1

theorem reconcile_problems_eq_nil {catalogue : Catalogue} {server : String}
    {states : Dict String ModelState} {name : String} :
    (reconcile (catalogue.own server) states now name).2 = [] ↔
      (∀ id state, states.get id = some state → state.value ≠ "unloaded" →
        (∃ variant, catalogue.get id = some variant ∧ variant.backend = server) ∧
          (state.value = "loading" ∨ state.value = "loaded")) ∧
      ∀ id id' m m', (reconcile (catalogue.own server) states now name).1.get id = some m →
        (reconcile (catalogue.own server) states now name).1.get id' = some m' → id ≠ id' →
        claimsConflict m.variant m'.variant = false := by
  rw [reconcile_problems, List.append_eq_nil_iff, List.flatMap_eq_nil_iff,
    conflictProblems_eq_nil reconcile_keyed]
  refine and_congr_left fun _ => ?_
  simp only [Prod.forall, ← Dict.get_eq_some, stateProblems_eq_nil_iff, Catalogue.get_own]

theorem serverProblems_eq_nil {server : String × String} :
    serverProblems cfg now answer server = [] ↔ ∃ props states,
      answer server.1 = .ok (props, states) ∧
      routerProblems props (cfg.catalogue.own server.1) server.2 = [] ∧
      (reconcile (cfg.catalogue.own server.1) states now server.2).2 = [] := by
  unfold serverProblems
  cases answer server.1 with
  | error error => simp
  | ok pair =>
    obtain ⟨props, states⟩ := pair
    rw [List.append_eq_nil_iff]
    constructor
    · exact fun h => ⟨props, states, rfl, h⟩
    · rintro ⟨_, _, heq, h⟩
      cases heq
      exact h

/-! ## The verdict -/

/-- A server has answered, and reports the model in this state, which is not
    `unloaded`. -/
def Reports (answer : String → ServerAnswer) (server id : String) (state : ModelState) : Prop :=
  ∃ props states, answer server = .ok (props, states) ∧ states.get id = some state ∧
    state.value ≠ "unloaded"

/-- What the servers have to answer for the broker to be able to schedule. -/
structure Schedulable (cfg : Config) (answer : String → ServerAnswer) : Prop where
  answered : ∀ server, cfg.adapters.contains server = true →
    ∃ props states, answer server = .ok (props, states)
  settings : ∀ server props states, cfg.adapters.contains server = true →
    answer server = .ok (props, states) → props.modelsAutoload = false ∧
      ¬ (0 < props.maxInstances ∧
        props.maxInstances < maxLoadedModels (cfg.catalogue.own server))
  known : ∀ server id state, cfg.adapters.contains server = true → Reports answer server id state →
    (∃ variant, cfg.catalogue.get id = some variant ∧ variant.backend = server) ∧
      (state.value = "loading" ∨ state.value = "loaded")
  apart : ∀ server server' id id' state state' variant variant',
    cfg.adapters.contains server = true → cfg.adapters.contains server' = true →
    Reports answer server id state → Reports answer server' id' state' →
    cfg.catalogue.get id = some variant → cfg.catalogue.get id' = some variant' → id ≠ id' →
    claimsConflict variant variant' = false

/-- The records a survey finds are those of the models that the reachable
    servers have. -/
theorem get_survey {id : String} {model : LoadedModel} :
    (survey cfg now answer).loaded.get id = some model ↔ ∃ variant state,
      cfg.catalogue.get id = some variant ∧ Reports answer variant.backend id state ∧
        model = { variant := variant, lastActivity := now, ready := state.value != "loading" } := by
  have hget := @get_foldl cfg now answer id model cfg.adapters.entries {} cfg.adapters.nodup rfl
  refine hget.trans ?_
  simp only [serverModel_eq_some]
  constructor
  · rintro ⟨server, -, props, states, state, heq, hstate, hvalue, hknown, hback, hmodel⟩
    exact ⟨model.variant, state, hknown, ⟨props, states, by rw [hback, heq], hstate, hvalue⟩, hmodel⟩
  · rintro ⟨variant, state, hknown, ⟨props, states, heq, hstate, hvalue⟩, rfl⟩
    obtain ⟨name, hname⟩ := Dict.contains_iff.1 (cfg.configured id variant hknown)
    exact ⟨(variant.backend, name), Dict.get_eq_some.1 hname, props, states, state, heq, hstate,
      hvalue, hknown, rfl, rfl⟩

theorem survey_keyed : Keyed (survey cfg now answer).loaded := fun id model hm =>
  Catalogue.get_id ((survey_complete cfg now answer).known id model hm)

theorem survey_problems_eq_nil :
    (survey cfg now answer).problems = [] ↔
      (∀ server ∈ cfg.adapters.entries, serverProblems cfg now answer server = []) ∧
        crossBackendConflicts (survey cfg now answer).loaded = [] := by
  have hproblems : (survey cfg now answer).problems =
      cfg.adapters.entries.flatMap (serverProblems cfg now answer) ++
        crossBackendConflicts (survey cfg now answer).loaded := by
    rw [survey, Survey.finish]
    show _ ++ _ = _
    rw [foldl_problems, List.nil_append]
  rw [hproblems, List.append_eq_nil_iff, List.flatMap_eq_nil_iff]

theorem schedulable_of_survey (h : (survey cfg now answer).problems = []) :
    Schedulable cfg answer := by
  obtain ⟨hservers, -⟩ := survey_problems_eq_nil.1 h
  have hserver : ∀ server, cfg.adapters.contains server = true → ∃ name props states,
      answer server = .ok (props, states) ∧
      routerProblems props (cfg.catalogue.own server) name = [] ∧
      (reconcile (cfg.catalogue.own server) states now name).2 = [] := by
    intro server hserver
    obtain ⟨name, hname⟩ := Dict.contains_iff.1 hserver
    exact ⟨name, serverProblems_eq_nil.1 (hservers _ (Dict.get_eq_some.1 hname))⟩
  have known : ∀ server id state, cfg.adapters.contains server = true →
      Reports answer server id state →
      (∃ variant, cfg.catalogue.get id = some variant ∧ variant.backend = server) ∧
        (state.value = "loading" ∨ state.value = "loaded") := by
    rintro server id state hs ⟨props, states, heq, hstate, hvalue⟩
    obtain ⟨name, props', states', heq', -, hrec⟩ := hserver server hs
    rw [heq] at heq'
    obtain ⟨rfl, rfl⟩ := Prod.mk.inj (Except.ok.inj heq')
    exact (reconcile_problems_eq_nil.1 hrec).1 id state hstate hvalue
  refine ⟨fun server hs => ?_, fun server props states hs heq => ?_, known, ?_⟩
  · obtain ⟨name, props, states, heq, -⟩ := hserver server hs
    exact ⟨props, states, heq⟩
  · obtain ⟨name, props', states', heq', hrouter, -⟩ := hserver server hs
    rw [heq] at heq'
    obtain ⟨rfl, rfl⟩ := Prod.mk.inj (Except.ok.inj heq')
    exact routerProblems_eq_nil.1 hrouter
  · intro server server' id id' state state' variant variant' hs hs' hrep hrep' hv hv' hne
    -- both models are found, and no two records found conflict
    have found : ∀ {server id : String} {state : ModelState} {variant : Variant},
        cfg.adapters.contains server = true → Reports answer server id state →
        cfg.catalogue.get id = some variant → ∃ model,
          (survey cfg now answer).loaded.get id = some model ∧ model.variant = variant := by
      intro server id state variant hs hrep hv
      obtain ⟨⟨variant', hv', rfl⟩, -⟩ := known server id state hs hrep
      obtain rfl := Option.some.inj (hv'.symm.trans hv)
      exact ⟨_, get_survey.2 ⟨variant', state, hv', hrep, rfl⟩, rfl⟩
    obtain ⟨model, hm, rfl⟩ := found hs hrep hv
    obtain ⟨model', hm', rfl⟩ := found hs' hrep' hv'
    exact (survey_complete cfg now answer).fit h id id' model model' hm hm' hne

theorem survey_of_schedulable (h : Schedulable cfg answer) :
    (survey cfg now answer).problems = [] := by
  rw [survey_problems_eq_nil]
  constructor
  · intro server hmem
    have hs : cfg.adapters.contains server.1 = true :=
      Dict.contains_iff.2 ⟨server.2, Dict.get_eq_some.2 hmem⟩
    obtain ⟨props, states, heq⟩ := h.answered server.1 hs
    refine serverProblems_eq_nil.2 ⟨props, states, heq,
      routerProblems_eq_nil.2 (h.settings server.1 props states hs heq),
      reconcile_problems_eq_nil.2 ⟨fun id state hstate hvalue =>
        h.known server.1 id state hs ⟨props, states, heq, hstate, hvalue⟩, ?_⟩⟩
    intro id id' m m' hm hm' hne
    have reported : ∀ {id : String} {m : LoadedModel},
        (reconcile (cfg.catalogue.own server.1) states now server.2).1.get id = some m →
        cfg.catalogue.get id = some m.variant ∧ ∃ state, Reports answer server.1 id state := by
      intro id m hm
      rw [get_reconcile, Option.bind_eq_some_iff] at hm
      obtain ⟨state, hstate, had⟩ := hm
      obtain ⟨hvalue, hown, -⟩ := adopted_eq_some.1 had
      exact ⟨(Catalogue.get_own.1 hown).1, state, props, states, heq, hstate, hvalue⟩
    obtain ⟨hv, state, hrep⟩ := reported hm
    obtain ⟨hv', state', hrep'⟩ := reported hm'
    exact h.apart server.1 server.1 id id' state state' _ _ hs hs hrep hrep' hv hv' hne
  · rw [crossBackendConflicts_eq_nil survey_keyed]
    intro id id' m m' hm hm' hne _
    obtain ⟨variant, state, hv, hrep, rfl⟩ := get_survey.1 hm
    obtain ⟨variant', state', hv', hrep', rfl⟩ := get_survey.1 hm'
    exact h.apart _ _ id id' state state' _ _ (cfg.configured id variant hv)
      (cfg.configured id' variant' hv') hrep hrep' hv hv' hne

/-- A survey has no problems exactly when the broker can schedule. With or
    without problems it finds one record for each model that a reachable server
    has of its own variants, not ready exactly when the model is loading, and
    the servers that could not be read. -/
theorem survey_sound_complete (cfg : Config) (now : ℚ) (answer : String → ServerAnswer) :
    ((survey cfg now answer).problems = [] ↔ Schedulable cfg answer) ∧
    (∀ id model, (survey cfg now answer).loaded.get id = some model ↔ ∃ variant state,
      cfg.catalogue.get id = some variant ∧ Reports answer variant.backend id state ∧
        model = { variant := variant, lastActivity := now, ready := state.value != "loading" }) ∧
    ∀ server, server ∈ (survey cfg now answer).unreachable ↔
      cfg.adapters.contains server = true ∧ ∃ error, answer server = .error error := by
  refine ⟨⟨schedulable_of_survey, survey_of_schedulable⟩, fun id model => get_survey, fun server => ?_⟩
  have hunreachable : (survey cfg now answer).unreachable =
      cfg.adapters.keys.filter fun key => (answer key).failed := by
    rw [survey, Survey.finish]
    show Survey.unreachable _ = _
    rw [foldl_unreachable, List.nil_append]
    rfl
  rw [hunreachable, List.mem_filter, Dict.mem_keys, ← Dict.contains_iff]
  refine and_congr_right fun _ => ?_
  cases answer server <;> simp [ServerAnswer.failed]

end ModelBroker
