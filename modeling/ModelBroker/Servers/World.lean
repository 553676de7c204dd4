import ModelBroker.Scheduler.Conditions
import ModelBroker.Scheduler.Deciding

/-!
# The servers under the scheduler

Models of the servers behind the scheduler's `Backend` objects (`backend.py`,
lines 55–90): which models each has loaded, and the commands it was sent and has
not carried out. A server changes only by carrying out a command: it begins a
load, which then completes or fails, or it drops a model. A command may also be
refused, and one whose sender no longer waits for it stays outstanding.

* `served`: the scheduler and its servers, started from any survey.
* `Survey.Shows`: what a survey shows of the servers it has read.
* `Surveys.shows`: with faithful reports every survey shows what the servers
  had when it read them.
-/

namespace ModelBroker

/-! ## Servers -/

/-- What a server has of a model. -/
inductive Value
  | unloaded
  | loading
  | loaded
  deriving DecidableEq

/-- What the state a server reports for a model, if any, says about it. A model
    in any other state holds its resources (`reconcile`, lines 171–185). -/
def Value.ofState : Option ModelState → Value
  | none => .unloaded
  | some state =>
    if state.value = "unloaded" then .unloaded
    else if state.value = "loading" then .loading
    else .loaded

/-- The two commands of a `Backend`. -/
inductive Op
  | load
  | unload
  deriving DecidableEq

/-- A command that a background task has sent to a server. -/
structure Command where
  task : ℕ
  op : Op
  server : String
  id : String
  deriving DecidableEq

/-- The servers. `readings` is a history variable: what each server had when the
    survey in progress read it. -/
structure World where
  value : String → String → Value
  commands : List Command := []
  readings : String → Option (String → Value) := fun _ => none

/-- What the variant's server has of it. -/
def World.has (w : World) (variant : Variant) : Value := w.value variant.backend variant.id

/-- The server has changed what it has of a model. -/
@[simps] def World.put (w : World) (server id : String) (v : Value) : World :=
  { w with value := fun server' id' =>
      if server' = server ∧ id' = id then v else w.value server' id' }

/-- What the servers do by themselves. -/
inductive Move
  | start (c : Command)
  | complete (server id : String)
  | fail (server id : String)
  | drop (c : Command)
  | refuse (c : Command)

/-- A server begins, completes or fails a load, drops a model, or refuses a
    command. -/
def World.move (w : World) : Move → Option World
  | .start c =>
    if c ∈ w.commands ∧ c.op = .load ∧ w.value c.server c.id = .unloaded then
      some { w.put c.server c.id .loading with commands := w.commands.erase c }
    else none
  | .complete server id =>
    if w.value server id = .loading then some (w.put server id .loaded) else none
  | .fail server id =>
    if w.value server id = .loading then some (w.put server id .unloaded) else none
  | .drop c =>
    if c ∈ w.commands ∧ c.op = .unload then
      some { w.put c.server c.id .unloaded with commands := w.commands.erase c }
    else none
  | .refuse c =>
    if c ∈ w.commands then some { w with commands := w.commands.erase c } else none

/-- The command that a background task sends when it comes to this point. -/
def State.issued (s : State) (i : ℕ) : List Command :=
  match s.tasks[i]? with
  | some (.swapUnload _ victim _ _) =>
    [⟨i, .unload, (s.heap victim).variant.backend, (s.heap victim).variant.id⟩]
  | some (.swapLoad model) =>
    [⟨i, .load, (s.heap model).variant.backend, (s.heap model).variant.id⟩]
  | _ => []

/-- What a step of the scheduler does to the servers: a task sends its command,
    one that has returned normally is over, and a survey reads a server. -/
def World.react (s : State) (a : Act) (t : State) (w : World) : World :=
  match a with
  | .run i => { w with commands := w.commands ++ t.issued i }
  | .call i (.ok _) =>
    { w with commands := (w.commands.filter fun c => c.task ≠ i) ++ t.issued i }
  | .resume _ => if s.reinspects a then { w with readings := fun _ => none } else w
  | .states p (.ok _) =>
    match s.requests[p]? with
    | some (.surveying _ i) =>
      { w with readings := Function.update w.readings i.server.1 (some (w.value i.server.1)) }
    | _ => w
  | _ => w

/-- The servers as the environment of the scheduler. -/
def serving : Env State Act World Move where
  react := World.react
  move _ w m := w.move m

/-- What a server's answer says it has. -/
def ServerAnswer.reading : ServerAnswer → Option (String → Value)
  | .ok (_, states) => some fun id => .ofState (states.get id)
  | .error _ => none

/-- No command is outstanding, and the answers of the servers say what they
    have. A server that cannot be reached may have anything. -/
structure World.Agrees (cfg : Config) (w : World) (answer : String → ServerAnswer) : Prop where
  commands : w.commands = []
  nowhere : ∀ server, cfg.adapters.contains server = false → ∀ id,
    w.value server id = .unloaded
  reported : ∀ server values, cfg.adapters.contains server = true →
    (answer server).reading = some values → w.value server = values

/-- The scheduler has been made from a survey of these servers. -/
def Started (cfg : Config) (s : State) (w : World) : Prop :=
  ∃ earlier now answer, earlier ≤ now ∧ s = initial now (survey cfg earlier answer) ∧
    w.Agrees cfg answer

/-- The scheduler and its servers, started from any survey. -/
def served (cfg : Config) : System (State × World) (Act ⊕ Move) :=
  (scheduler cfg).under serving (Started cfg)

/-- The servers that give these answers; one that cannot be reached has nothing. -/
def World.of (cfg : Config) (answer : String → ServerAnswer) : World where
  value server id :=
    if cfg.adapters.contains server then
      (((answer server).reading).map fun values => values id).getD .unloaded
    else .unloaded

theorem World.of_agrees (cfg : Config) (answer : String → ServerAnswer) :
    (World.of cfg answer).Agrees cfg answer where
  commands := rfl
  nowhere server hnot id := by simp [World.of, hnot]
  reported server values hconf hreading := by
    funext id
    simp [World.of, hconf, hreading]

theorem started_of (cfg : Config) (now : ℚ) (answer : String → ServerAnswer) :
    Started cfg (initial now (survey cfg now answer)) (World.of cfg answer) :=
  ⟨now, now, answer, le_refl now, rfl, World.of_agrees cfg answer⟩

variable {cfg : Config} {s t : State} {a : Act} {w w' : World} {m : Move}

/-! ## What a step does to the servers -/

@[simp] theorem react_value (s : State) (a : Act) (t : State) (w : World) :
    (w.react s a t).value = w.value := by
  unfold World.react
  split <;> (try split) <;> rfl

/-- A step ends some commands, and sends those of the task that has gone on. -/
theorem react_commands (s : State) (a : Act) (t : State) (w : World) :
    (w.react s a t).commands = w.commands ∨
      ∃ i kept, (a = .run i ∨ ∃ answer, a = .call i (.ok answer)) ∧ kept.Sublist w.commands ∧
        (w.react s a t).commands = kept ++ t.issued i := by
  unfold World.react
  split
  · next i => exact .inr ⟨i, w.commands, .inl rfl, List.Sublist.refl _, rfl⟩
  · next i answer => exact .inr ⟨i, _, .inr ⟨answer, rfl⟩, List.filter_sublist, rfl⟩
  · split <;> exact .inl rfl
  · split <;> exact .inl rfl
  · exact .inl rfl

/-- A command to load the model is outstanding. -/
def World.loads (w : World) (id : String) : Bool :=
  w.commands.any fun c => c.op = .load && c.id = id

theorem World.loads_iff {id : String} :
    w.loads id = true ↔ ∃ c ∈ w.commands, c.op = .load ∧ c.id = id := by
  simp [loads]

theorem mem_issued {i : ℕ} {c : Command} (h : c ∈ s.issued i) (hop : c.op = .load) :
    ∃ m, s.tasks[i]? = some (.swapLoad m) ∧ c.server = (s.heap m).variant.backend ∧
      c.id = (s.heap m).variant.id := by
  unfold State.issued at h
  split at h
  · rw [List.mem_singleton.1 h] at hop
    cases hop
  · next m hi =>
    rw [List.mem_singleton.1 h]
    exact ⟨m, hi, rfl, rfl⟩
  · cases h

/-- A swap asks for its model when it has no victims left. -/
theorem unasked_of_issued {i : ℕ} {m : Ref} (hstep : step cfg s a = some t)
    (ha : a = .run i ∨ ∃ answer, a = .call i (.ok answer))
    (hi : t.tasks[i]? = some (.swapLoad m)) :
    ∃ k, s.tasks[i]? = some k ∧ k.unasked = some m := by
  have next : ∀ {done rest : List Ref} {model : Ref}, swapNext done rest model = .swapLoad m →
      model = m := by
    intro done rest model heq
    have ho := owns_swapNext done rest model
    rw [heq] at ho
    exact (Option.some.inj ho).symm
  rcases ha with rfl | ⟨answer, rfl⟩
  · simp only [step] at hstep
    split at hstep
    · next victims model hk =>
      cases hstep
      obtain rfl := next (Option.some.inj ((Table.get_set_self hk).symm.trans hi))
      exact ⟨_, hk, rfl⟩
    · next model hk =>
      cases hstep
      cases Option.some.inj ((Table.get_set_self hk).symm.trans hi)
    · cases hstep
  · cases hk : s.tasks[i]? with
    | none => simp [step, hk] at hstep
    | some k =>
      cases k with
      | swapUnload done victim rest model =>
        simp only [step, hk, Option.some.injEq] at hstep
        subst hstep
        unfold unloaded at hi
        split at hi
        · cases Option.some.inj ((Table.get_set_self hk).symm.trans hi)
        · obtain rfl := next (Option.some.inj ((Table.get_set_self hk).symm.trans hi))
          exact ⟨_, rfl, rfl⟩
      | swapLoad model | finishWait model =>
        simp only [step, hk, Option.some.injEq] at hstep
        subst hstep
        cases Option.some.inj ((Table.get_set_self hk).symm.trans hi)
      | _ => simp [step, hk] at hstep

/-- A load that becomes outstanding is that of a swap that goes on to it. -/
theorem react_loads {id : String} (hrefs : Refs cfg s) (hstep : step cfg s a = some t)
    (h : (w.react s a t).loads id = true) :
    w.loads id = true ∨ ∃ (i : ℕ) (k : Task) (m : Ref), s.tasks[i]? = some k ∧
      k.unasked = some m ∧ t.tasks[i]? = some (.swapLoad m) ∧ (s.heap m).variant.id = id := by
  obtain ⟨c, hc, hop, hid⟩ := World.loads_iff.1 h
  rcases react_commands s a t w with heq | ⟨i, kept, ha, hsub, heq⟩
  · exact .inl (World.loads_iff.2 ⟨c, heq ▸ hc, hop, hid⟩)
  · rw [heq] at hc
    rcases List.mem_append.1 hc with hc | hc
    · exact .inl (World.loads_iff.2 ⟨c, hsub.subset hc, hop, hid⟩)
    · obtain ⟨m, hi, -, hm⟩ := mem_issued hc hop
      obtain ⟨k, hk, hun⟩ := unasked_of_issued hstep ha hi
      refine .inr ⟨i, k, m, hk, hun, hi, ?_⟩
      rw [← step_variant (step_cases hstep) (hrefs.owned_lt hk (Task.owns_of_unasked hun)), ← hm, hid]

/-- What a move of the servers does, with `w'` written out. -/
inductive Moves (w : World) : Move → World → Prop
  | start {c : Command} (hc : c ∈ w.commands) (hop : c.op = .load)
      (hv : w.value c.server c.id = .unloaded) :
      Moves w (.start c) { w.put c.server c.id .loading with commands := w.commands.erase c }
  | complete {server id : String} (hv : w.value server id = .loading) :
      Moves w (.complete server id) (w.put server id .loaded)
  | fail {server id : String} (hv : w.value server id = .loading) :
      Moves w (.fail server id) (w.put server id .unloaded)
  | drop {c : Command} (hc : c ∈ w.commands) (hop : c.op = .unload) :
      Moves w (.drop c) { w.put c.server c.id .unloaded with commands := w.commands.erase c }
  | refuse {c : Command} (hc : c ∈ w.commands) :
      Moves w (.refuse c) { w with commands := w.commands.erase c }

theorem move_cases (h : w.move m = some w') : Moves w m w' := by
  cases m with
  | start c =>
    simp only [World.move, Option.ite_none_right_eq_some, Option.some.injEq] at h
    obtain ⟨⟨hc, hop, hv⟩, rfl⟩ := h
    exact .start hc hop hv
  | complete server id =>
    simp only [World.move, Option.ite_none_right_eq_some, Option.some.injEq] at h
    obtain ⟨hv, rfl⟩ := h
    exact .complete hv
  | fail server id =>
    simp only [World.move, Option.ite_none_right_eq_some, Option.some.injEq] at h
    obtain ⟨hv, rfl⟩ := h
    exact .fail hv
  | drop c =>
    simp only [World.move, Option.ite_none_right_eq_some, Option.some.injEq] at h
    obtain ⟨⟨hc, hop⟩, rfl⟩ := h
    exact .drop hc hop
  | refuse c =>
    simp only [World.move, Option.ite_none_right_eq_some, Option.some.injEq] at h
    obtain ⟨hc, rfl⟩ := h
    exact .refuse hc

/-- A move sends no command. -/
theorem Moves.commands (h : Moves w m w') : w'.commands.Sublist w.commands := by
  cases h with
  | start | drop | refuse => exact List.erase_sublist
  | complete | fail => exact List.Sublist.refl _

theorem Moves.readings (h : Moves w m w') : w'.readings = w.readings := by
  cases h <;> rfl

/-- What becomes of one model of one server in a move. -/
theorem Moves.value (h : Moves w m w') (server id : String) :
    w'.value server id = w.value server id ∨
      (w.value server id = .unloaded ∧ w'.value server id = .loading) ∨
      (w.value server id = .loading ∧ w'.value server id = .loaded) ∨
      (w'.value server id = .unloaded ∧ ((m = .fail server id ∧ w.value server id = .loading) ∨
        ∃ c : Command, m = .drop c ∧ c.server = server ∧ c.id = id)) := by
  have put : ∀ (server' id' : String) (v : Value), (server = server' ∧ id = id') ∨
      (w.put server' id' v).value server id = w.value server id := by
    intro server' id' v
    by_cases hat : server = server' ∧ id = id'
    · exact .inl hat
    · exact .inr (by simp [hat])
  cases h with
  | @start c hc hop hv =>
    rcases put c.server c.id .loading with ⟨rfl, rfl⟩ | hsame
    · exact .inr (.inl ⟨hv, by simp⟩)
    · exact .inl hsame
  | @complete server' id' hv =>
    rcases put server' id' .loaded with ⟨rfl, rfl⟩ | hsame
    · exact .inr (.inr (.inl ⟨hv, by simp⟩))
    · exact .inl hsame
  | @fail server' id' hv =>
    rcases put server' id' .unloaded with ⟨rfl, rfl⟩ | hsame
    · exact .inr (.inr (.inr ⟨by simp, .inl ⟨rfl, hv⟩⟩))
    · exact .inl hsame
  | @drop c hc hop =>
    rcases put c.server c.id .unloaded with ⟨rfl, rfl⟩ | hsame
    · exact .inr (.inr (.inr ⟨by simp, .inr ⟨c, rfl, rfl, rfl⟩⟩))
    · exact .inl hsame
  | refuse => exact .inl rfl

/-! ## What a survey shows -/

/-- What a survey shows of the servers, given what each had when it was read and
    the servers that are not read yet. -/
structure Survey.Shows (cfg : Config) (reading : String → Option (String → Value))
    (pending : List String) (found : Survey) : Prop where
  nodup : pending.Nodup
  listed : ∀ id model, found.loaded.get id = some model →
    model.variant.backend ∉ pending ∧ ∃ values, reading model.variant.backend = some values ∧
      values id ≠ .unloaded ∧ (model.ready = true ↔ values id = .loaded)
  complete : ∀ id variant, cfg.catalogue.get id = some variant → variant.backend ∉ pending →
    variant.backend ∉ found.unreachable → ∃ values, reading variant.backend = some values ∧
      (values id ≠ .unloaded → ∃ model, found.loaded.get id = some model)

variable {reading reading' : String → Option (String → Value)} {pending : List String}
  {found : Survey}

/-- Before a survey has read anything. -/
theorem Survey.Shows.empty (cfg : Config) (reading : String → Option (String → Value)) :
    Survey.Shows cfg reading cfg.adapters.keys {} where
  nodup := cfg.adapters.nodup
  listed _ _ h := by cases h
  complete id variant h hnot := by
    have hconf := cfg.configured id variant h
    exact absurd (Dict.mem_keys.2 (Dict.contains_iff.1 hconf)) hnot

theorem Survey.Shows.unavailable {server : String × String} {error : String}
    (h : found.Shows cfg reading (server.1 :: pending)) :
    (found.unavailable server error).Shows cfg reading pending where
  nodup := (List.nodup_cons.1 h.nodup).2
  listed id model hm := by
    obtain ⟨hnot, hvalues⟩ := h.listed id model hm
    exact ⟨fun hmem => hnot (List.mem_cons_of_mem _ hmem), hvalues⟩
  complete id variant hv hnot hreach := by
    have hparts : variant.backend ∉ found.unreachable ∧ variant.backend ≠ server.1 := by
      simpa [Survey.unavailable] using hreach
    refine h.complete id variant hv ?_ hparts.1
    simp [hparts.2, hnot]

theorem ofState_ne_unloaded {state : Option ModelState} :
    Value.ofState state ≠ .unloaded ↔ ∃ st, state = some st ∧ st.value ≠ "unloaded" := by
  cases state with
  | none => simp [Value.ofState]
  | some st =>
    by_cases h : st.value = "unloaded"
    · simp [Value.ofState, h]
    · simp only [Value.ofState, h, if_false, Option.some.injEq, exists_eq_left', ne_eq,
        not_false_eq_true, iff_true]
      split_ifs <;> simp

theorem ofState_loaded {state : ModelState} (h : state.value ≠ "unloaded") :
    (state.value != "loading") = true ↔ Value.ofState (some state) = .loaded := by
  by_cases hl : state.value = "loading" <;> simp [Value.ofState, h, hl]

/-- A server is read whose report says what it has of its catalogue models. -/
theorem Survey.Shows.read {server : String × String} {values : String → Value} {now : ℚ}
    {props : RouterProps} {states : Dict String ModelState}
    (h : found.Shows cfg reading (server.1 :: pending))
    (hsame : ∀ b, b ∉ server.1 :: pending → reading' b = reading b)
    (hnew : reading' server.1 = some values)
    (htrue : ∀ id variant, cfg.catalogue.get id = some variant → variant.backend = server.1 →
      values id = .ofState (states.get id)) :
    (found.read cfg.catalogue now server props states).Shows cfg reading' pending := by
  obtain ⟨hserver, hnodup⟩ := List.nodup_cons.1 h.nodup
  refine ⟨hnodup, ?_, ?_⟩
  · intro id model hm
    rcases Survey.get_read_cases hm with hold | ⟨hrec, -, hknown, hback⟩
    · obtain ⟨hnot, hvalues⟩ := h.listed id model hold
      rw [hsame _ hnot]
      exact ⟨fun hmem => hnot (List.mem_cons_of_mem _ hmem), hvalues⟩
    · rw [get_reconcile, Option.bind_eq_some_iff] at hrec
      obtain ⟨state, hstate, had⟩ := hrec
      obtain ⟨hvalue, -, hmodel⟩ := adopted_eq_some.1 had
      refine ⟨hback ▸ hserver, values, hback ▸ hnew, ?_, ?_⟩
      · rw [htrue id _ hknown hback]
        exact ofState_ne_unloaded.2 ⟨state, hstate, hvalue⟩
      · rw [htrue id _ hknown hback, hstate, ← ofState_loaded hvalue, hmodel]
  · intro id variant hv hnot hreach
    by_cases hback : variant.backend = server.1
    · refine ⟨values, hback ▸ hnew, fun hne => ?_⟩
      rw [htrue id variant hv hback] at hne
      obtain ⟨state, hstate, hvalue⟩ := ofState_ne_unloaded.1 hne
      have hown := Catalogue.get_own.2 ⟨hv, hback⟩
      rw [Survey.get_read, hstate]
      simp [adopted, hvalue, hown]
    · have hnot' : variant.backend ∉ server.1 :: pending := by simp [hback, hnot]
      obtain ⟨values', hvalues, hfound⟩ := h.complete id variant hv hnot' hreach
      refine ⟨values', (hsame _ hnot').trans hvalues, fun hne => ?_⟩
      obtain ⟨model, hm⟩ := hfound hne
      rw [Survey.get_read, hm]
      cases (states.get id).bind (adopted (cfg.catalogue.own server.1) now id) <;> simp

theorem Survey.Shows.finish (h : found.Shows cfg reading []) : found.finish.Shows cfg reading [] :=
  ⟨h.nodup, h.listed, h.complete⟩

/-- A survey shows what its answers say. -/
theorem survey_shows (cfg : Config) (now : ℚ) (answer : String → ServerAnswer) :
    (survey cfg now answer).Shows cfg (fun server => (answer server).reading) [] := by
  -- the induction is on the servers still to be read
  have key : ∀ (rest : List (String × String)) (found : Survey),
      found.Shows cfg (fun server => (answer server).reading) (rest.map Prod.fst) →
      (rest.foldl (surveyServer cfg now answer) found).Shows cfg
        (fun server => (answer server).reading) [] := by
    intro rest
    induction rest with
    | nil => exact fun found h => h
    | cons server rest ih =>
      intro found h
      rw [List.foldl_cons]
      apply ih
      unfold surveyServer
      split
      · exact h.unavailable
      · next props states heq =>
        refine h.read (fun _ _ => rfl) ?_ (fun _ _ _ _ => rfl)
        rw [heq]
        rfl
  exact (key cfg.adapters.entries {} (.empty cfg _)).finish

/-! ## A survey in progress -/

/-- The reports that a survey takes from a server say what the server has of its
    catalogue models. -/
def faithful (cfg : Config) (x : State × World) : Act → Bool
  | .states p (.ok states) =>
    match x.1.requests[p]? with
    | some (.surveying _ i) =>
      cfg.catalogue.variants.values.all fun variant =>
        variant.backend ≠ i.server.1 ||
          decide (.ofState (states.get variant.id) = x.2.value i.server.1 variant.id)
    | _ => true
  | _ => true

/-- What a survey, finished or not, shows of the servers it has read. -/
def Inspection.Showing (cfg : Config) (reading : String → Option (String → Value)) :
    Survey ⊕ Inspection → Prop
  | .inl found => found.Shows cfg reading []
  | .inr i => i.found.Shows cfg reading ((i.server :: i.rest).map Prod.fst)

theorem Inspection.showing_surveyNext {now : ℚ} {rest : List (String × String)}
    (h : found.Shows cfg reading (rest.map Prod.fst)) :
    Inspection.Showing cfg reading (surveyNext now found rest) := by
  cases rest with
  | nil => exact h.finish
  | cons server rest => exact h

/-- Every survey in progress shows what the servers had when it read them. -/
def Showing (cfg : Config) (s : State) (w : World) : Prop :=
  ∀ (p : ℕ) (variant : Variant) (i : Inspection), s.requests[p]? = some (.surveying variant i) →
    Inspection.Showing cfg w.readings (.inr i)

/-- The survey shows what the server has that it reads in this step. -/
theorem Surveys.shows {p : ℕ} {q : Request} {variant : Variant} {next : Survey ⊕ Inspection}
    (hs : Surveys cfg s p a q variant next) (hq : s.requests[p]? = some q)
    (h : Showing cfg s w) (htrue : faithful cfg (s, w) a = true) :
    Inspection.Showing cfg (w.react s a t).readings next := by
  cases hs with
  | start hfree hunfit =>
    have hstart : s.reinspects (.resume p) = true := by
      simp [State.reinspects, hq, hfree, hunfit]
    simp only [World.react, hstart, if_true]
    exact Inspection.showing_surveyNext (.empty cfg _)
  | @props variant i answer hi =>
    have hshow := h p variant i hq
    cases answer with
    | error error => exact Inspection.showing_surveyNext hshow.unavailable
    | ok props => exact hshow
  | @states variant i props answer hi =>
    have hshow := h p variant i hq
    cases answer with
    | error error => exact Inspection.showing_surveyNext hshow.unavailable
    | ok states =>
      simp only [World.react, hq]
      refine Inspection.showing_surveyNext (hshow.read ?_ (Function.update_self ..) ?_)
      · intro b hb
        refine Function.update_of_ne (fun heq => hb ?_) _ _
        rw [heq]
        exact List.mem_cons_self
      · intro id variant' hv hback
        simp only [faithful, hq, List.all_eq_true] at htrue
        have hmem : variant' ∈ cfg.catalogue.variants.values := Dict.mem_values.2 ⟨id, hv⟩
        have heq := htrue variant' hmem
        simp only [hback, ne_eq, not_true_eq_false, decide_false, Bool.false_or,
          decide_eq_true_eq, Catalogue.get_id hv] at heq
        exact heq.symm

/-- Only an answer of the survey that holds the lock changes the readings. -/
theorem readings_of_surveying (hlock : Locking s) {p : ℕ} {variant : Variant} {i : Inspection}
    (hp : s.requests[p]? = some (.surveying variant i)) :
    (w.react s a t).readings = w.readings ∨ ∃ answer, a = .states p answer := by
  cases a with
  | resume p' =>
    left
    have hno : s.reinspects (.resume p') = false := by
      have hheld : s.lockFree = false := by
        by_contra hfree
        have hnot := not_holds_of_lockFree (by simpa using hfree) hp
        cases hnot
      simp only [State.reinspects, hheld, Bool.false_and]
      split <;> rfl
    simp [World.react, hno]
  | states p' answer =>
    cases answer with
    | error error => exact .inl rfl
    | ok states =>
      cases hp' : s.requests[p']? with
      | none => left; simp [World.react, hp']
      | some q =>
        cases q with
        | surveying variant' i' =>
          obtain rfl := hlock p p' _ _ hp hp' rfl rfl
          exact .inr ⟨_, rfl⟩
        | _ => left; simp [World.react, hp']
  | call i answer => cases answer <;> exact .inl rfl
  | tick | arrive | props | activity | cancel | run | taskStates | taskActivity => exact .inl rfl

/-- After an answer of `model_states` the request is where the survey goes on. -/
theorem surveying_of_states {p : ℕ} {answer : Except String (Dict String ModelState)}
    {variant variant' : Variant} {i i' : Inspection}
    (hstep : step cfg s (.states p answer) = some t)
    (hp : s.requests[p]? = some (.surveying variant i))
    (ht : t.requests[p]? = some (.surveying variant' i')) :
    Surveys cfg s p (.states p answer) (.surveying variant i) variant (.inr i') := by
  simp only [step, hp, Option.map_eq_some_iff] at hstep
  obtain ⟨props, hprops, rfl⟩ := hstep
  have hs := @Surveys.states cfg s p variant i props answer hprops
  cases hnext : i.answerStates cfg.catalogue props answer with
  | inl found =>
    rw [hnext] at ht
    obtain ⟨pending, q, hto, heq⟩ :=
      track_cases (installed s found) p (some variant) (newModels s found)
    have hq : q = .surveying variant' i' := by
      have hsur : surveyed s p variant (.inl found) =
          track (installed s found) p (some variant) (newModels s found) := rfl
      rw [hsur, heq] at ht
      exact Option.some.inj ((Table.get_set_self hp).symm.trans ht)
    rcases hto.shape with rfl | ⟨model, rest, rfl⟩ <;> cases hq
  | inr i₁ =>
    rw [hnext] at ht hs
    have hq := Option.some.inj ((Table.get_set_self hp).symm.trans ht)
    cases hq
    exact hs

/-- What a survey in progress has read is as it was, or has been read now. -/
theorem step_readings (hlock : Locking s) (hstep : step cfg s a = some t) {p : ℕ}
    {variant : Variant} {i : Inspection} (hp : t.requests[p]? = some (.surveying variant i)) :
    (s.requests[p]? = some (.surveying variant i) ∧ (w.react s a t).readings = w.readings) ∨
      ∃ q, s.requests[p]? = some q ∧ Surveys cfg s p a q variant (.inr i) := by
  rcases step_surveying (step_cases hstep) hp with hp₀ | hs
  · rcases @readings_of_surveying s t a w hlock p variant i hp₀ with hsame | ⟨answer, rfl⟩
    · exact .inl ⟨hp₀, hsame⟩
    · exact .inr ⟨_, hp₀, surveying_of_states hstep hp₀ hp⟩
  · exact .inr hs

theorem showing_step (hlock : Locking s) (h : Showing cfg s w) (hstep : step cfg s a = some t)
    (htrue : faithful cfg (s, w) a = true) : Showing cfg t (w.react s a t) := by
  intro p variant i hp
  rcases @step_readings cfg s t a w hlock hstep p variant i hp with ⟨hp₀, hsame⟩ | ⟨q, hq, hs⟩
  · rw [hsame]
    exact h p variant i hp₀
  · exact hs.shows hq h htrue

end ModelBroker
