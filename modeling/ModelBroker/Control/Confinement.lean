import ModelBroker.Control.Agreement

/-!
# What a client of the helper can influence

The helper runs Docker as root for whoever may connect to its socket. Two
accepted requests for the same operation on the same service are compared: given
the same answers by Docker, the commands run for them differ in nothing but the
values of variables that the configuration allows.

* `confined`: a connection whose request is not accepted runs nothing; what
  `parse_request` accepts; the two-run property; and the environment of each
  command.
-/

namespace ModelBroker.Helper

open Python

variable {c : Controller} {parse : String → Except LoadsError Json}

/-! ## Two runs -/

/-- Two commands that differ in nothing but the values of a service's allowed
    variables. -/
structure SameCommand (service : Service) (q q' : Command) : Prop where
  argv : q.argv = q'.argv
  cwd : q.cwd = q'.cwd
  timeout : q.timeout = q'.timeout
  env : ∀ name, q.env.get name ≠ q'.env.get name → name ∈ service.allowedEnv

theorem SameCommand.refl (service : Service) (q : Command) : SameCommand service q q :=
  ⟨rfl, rfl, rfl, fun _ h => absurd rfl h⟩

/-- Variables that a service does not allow are as in the fixed environment. -/
theorem environment_get {service : Service} {settings : Dict String String}
    (h : ∀ e ∈ settings.entries, service.Allows e) {name : String}
    (hname : name ∉ service.allowedEnv) :
    (c.environment settings).get name = (baseEnvironment c.stateDirectory).get name := by
  have hnone : settings.get name = none := by
    rw [Dict.get_eq_none, Dict.mem_keys]
    rintro ⟨value, hvalue⟩
    exact hname (h _ (Dict.get_eq_some.1 hvalue)).1
  rw [Controller.environment, Dict.get_update, hnone, Option.none_or]

theorem alike_andThen {service : Service} {α β : Type} {d d' : Docker α} {f : α → Docker β}
    (h : Dialogue.Alike (SameCommand service) Eq d d') :
    Dialogue.Alike (SameCommand service) Eq (d.andThen f) (d'.andThen f) :=
  h.bind fun _ _ heq => heq ▸ .refl (SameCommand.refl service) _

/-- A Compose command with other settings is the same command. -/
theorem alike_compose {service : Service} {arguments : List String} {timeout : Double}
    {settings settings' : Dict String String} (h : ∀ e ∈ settings.entries, service.Allows e)
    (h' : ∀ e ∈ settings'.entries, service.Allows e) :
    Dialogue.Alike (SameCommand service) Eq (c.compose service arguments timeout settings)
      (c.compose service arguments timeout settings') := by
  refine .ask ⟨rfl, rfl, rfl, fun name hne => ?_⟩ fun answer => .done rfl
  by_contra hname
  exact hne ((environment_get h hname).trans (environment_get h' hname).symm)

/-- What is run for two requests with the same operation and service. -/
theorem alike_handle {request request' : Request} (hop : request.operation = request'.operation)
    (hservice : request.service = request'.service)
    (h : ∀ e ∈ request.settings.entries, request.service.Allows e)
    (h' : ∀ e ∈ request'.settings.entries, request'.service.Allows e) :
    Dialogue.Alike (SameCommand request.service) Eq (c.handle parse request)
      (c.handle parse request') := by
  unfold Controller.handle
  rw [← hop, ← hservice]
  rw [← hservice] at h'
  split_ifs
  · exact .refl (SameCommand.refl _) _
  · unfold Controller.start Controller.withLock
    split_ifs
    · exact alike_andThen (alike_compose h h')
    · exact .done rfl
  · exact .refl (SameCommand.refl _) _

/-! ## Environments -/

/-- The command has the fixed environment. -/
def Fixed (c : Controller) (q : Command) : Prop := q.env = baseEnvironment c.stateDirectory

theorem asks_andThen {P : Command → Prop} {α β : Type} {d : Docker α} {f : α → Docker β}
    (h : d.Asks P) (hf : ∀ a, (f a).Asks P) : (d.andThen f).Asks P :=
  h.bind fun
    | .ok a => hf a
    | .error _ => .done _

theorem asks_run (arguments : List String) (service : Service) (timeout : Double) :
    (c.run arguments service timeout ∅).Asks (Fixed c) :=
  .ask rfl fun _ => .done _

theorem asks_status (service : Service) : (c.status parse service).Asks (Fixed c) := by
  refine asks_andThen (asks_run ..) fun listed => ?_
  split
  · exact .done _
  · exact asks_andThen (asks_run ..) fun _ => .done _
  · exact .done _

theorem asks_stop (service : Service) : (c.stop parse service).Asks (Fixed c) := by
  unfold Controller.stop Controller.withLock
  split_ifs
  · exact asks_andThen (asks_run ..) fun _ => asks_status service
  · exact .done _

/-- The first command of a start has its settings, the others the fixed
    environment. -/
theorem start_environments (service : Service) (settings : Dict String String)
    (answers : ℕ → Answer) :
    (∀ q ∈ ((c.start parse service settings).run answers).1.head?, q.env = c.environment settings) ∧
      ∀ q ∈ ((c.start parse service settings).run answers).1.tail, Fixed c q := by
  unfold Controller.start Controller.withLock
  split_ifs
  · have hrest : ∀ result : Except Failure String,
        (Docker.andThen (.done result) fun _ => c.status parse service).Asks (Fixed c) :=
      fun result => asks_andThen (.done result) fun _ => asks_status service
    refine ⟨fun q hq => ?_, fun q hq => (hrest _).run _ q hq⟩
    cases hq
    rfl
  · constructor <;> intro q hq <;> cases hq

/-! ## Connections -/

/-- A connection on which no request is accepted: the peer is not authorised, or
    the line is too long, is not accepted or cannot be read. -/
def Turned (c : Controller) (parse : String → Except LoadsError Json) (allowedGid : ℤ)
    (connection : Connection) : Prop :=
  peerIsAuthorised connection.credentials allowedGid connection.readStatus = false ∨
    match connection.received with
    | .bytes sent =>
      maxMessageBytes < (readLine (maxMessageBytes + 1) sent).length ∨
        ∀ request, parseRequest parse (readLine (maxMessageBytes + 1) sent) c.config ≠ .ok request
    | .timedOut | .failed => True

/-- A request is carried out exactly if its connection is not turned away. -/
theorem admitRequest_error_iff {allowedGid : ℤ} {connection : Connection} :
    (∀ request, admitRequest c parse allowedGid connection ≠ .ok request) ↔
      Turned c parse allowedGid connection := by
  unfold admitRequest Turned
  cases hpeer : peerIsAuthorised connection.credentials allowedGid connection.readStatus with
  | false => simp
  | true =>
    cases connection.received with
    | timedOut | failed => simp
    | bytes sent =>
      by_cases hlong : maxMessageBytes < (readLine (maxMessageBytes + 1) sent).length <;>
        simp [hlong]

/-- The commands run for a connection. -/
def commands (c : Controller) (parse : String → Except LoadsError Json) (allowedGid : ℤ)
    (connection : Connection) (answers : ℕ → Answer) : List Command :=
  ((serve c parse allowedGid connection).run answers).1

theorem commands_of_turned {allowedGid : ℤ} {connection : Connection}
    (h : Turned c parse allowedGid connection) (answers : ℕ → Answer) :
    commands c parse allowedGid connection answers = [] := by
  unfold commands serve
  cases hadmit : admitRequest c parse allowedGid connection with
  | error e => rfl
  | ok request => exact absurd hadmit (admitRequest_error_iff.2 h request)

theorem commands_of_admitted {allowedGid : ℤ} {connection : Connection} {request : Request}
    (h : admitRequest c parse allowedGid connection = .ok request) (answers : ℕ → Answer) :
    commands c parse allowedGid connection answers =
      ((c.handle parse request).run answers).1 := by
  unfold commands serve
  rw [h]
  dsimp only
  rw [Dialogue.run_bind_done]

theorem allows_of_admitted {allowedGid : ℤ} {connection : Connection} {request : Request}
    (h : admitRequest c parse allowedGid connection = .ok request) :
    ∀ e ∈ request.settings.entries, request.service.Allows e := by
  unfold admitRequest at h
  split_ifs at h
  split at h
  · cases h
  · cases h
  · dsimp only at h
    split_ifs at h
    obtain ⟨-, message, -, -, hvalid⟩ := parseRequest_eq_ok.1 h
    exact hvalid.allows

/-- A client of the helper can influence nothing but allowed variables. A
    connection that is turned away runs no command. `parse_request` accepts exactly
    the lines that decode to a valid object. For two accepted requests with the
    same operation and service and the same answers by Docker, the commands are
    the same but for the values of allowed variables. Only the first command of a
    start has an environment that is not the fixed one, and there the settings
    override it. -/
theorem confined (c : Controller) (parse : String → Except LoadsError Json) (allowedGid : ℤ) :
    (∀ connection, Turned c parse allowedGid connection →
      ∀ answers, commands c parse allowedGid connection answers = []) ∧
    (∀ raw request, parseRequest parse raw c.config = .ok request ↔
      ∃ decoded message, Decodes parse raw decoded ∧ decoded.dict? = some message ∧
        Valid c.config message request) ∧
    (∀ connection connection' request request',
      admitRequest c parse allowedGid connection = .ok request →
      admitRequest c parse allowedGid connection' = .ok request' →
      request.operation = request'.operation → request.service = request'.service →
      ∀ answers, List.Forall₂ (SameCommand request.service)
        (commands c parse allowedGid connection answers)
        (commands c parse allowedGid connection' answers)) ∧
    ∀ connection request, admitRequest c parse allowedGid connection = .ok request →
      ∀ answers,
        (∀ q ∈ (commands c parse allowedGid connection answers).head?, q.env =
          if request.operation = "start" then
            (baseEnvironment c.stateDirectory).update request.settings
          else baseEnvironment c.stateDirectory) ∧
        ∀ q ∈ (commands c parse allowedGid connection answers).tail,
          q.env = baseEnvironment c.stateDirectory := by
  refine ⟨fun connection h answers => commands_of_turned h answers,
    fun raw request => parseRequest_eq_ok, ?_, ?_⟩
  · intro connection connection' request request' h h' hop hservice answers
    rw [commands_of_admitted h, commands_of_admitted h']
    exact ((alike_handle hop hservice (allows_of_admitted h) (allows_of_admitted h')).run answers).1
  · intro connection request h answers
    rw [commands_of_admitted h]
    by_cases hstart : request.operation = "start"
    · have hhandle : c.handle parse request = c.start parse request.service request.settings := by
        simp [Controller.handle, hstart]
      rw [hhandle, if_pos hstart]
      exact start_environments request.service request.settings answers
    · have hfixed : (c.handle parse request).Asks (Fixed c) := by
        unfold Controller.handle
        rw [if_neg hstart]
        split_ifs
        · exact asks_status request.service
        · exact asks_stop request.service
      rw [if_neg hstart]
      exact ⟨fun q hq => hfixed.run answers q (List.mem_of_mem_head? hq),
        fun q hq => hfixed.run answers q (List.mem_of_mem_tail hq)⟩

theorem admitRequest_start {config : Config} {service : Service}
    (hs : config.services.get "strata" = some service)
    (hallowed : service.allowedEnv = ["STRATA_MODEL"]) (stateDirectory : Path) {model : String}
    (hmodel : model ∈ ["a=b", "c"]) :
    admitRequest ⟨config, stateDirectory⟩ parseStart 100 (startConnection model) =
      .ok ⟨"1", "start", service, strataSettings model⟩ := by
  have hbytes : ∀ model ∈ ["a=b", "c"], newline ∉ utf8 (startText model) ∧
      (utf8 (startText model) ++ [newline]).length ≤ maxMessageBytes := by
    decide +kernel
  have hne : startText "c" ++ "\n" ≠ startText "a=b" ++ "\n" := by decide +kernel
  have hparse : parseStart (startText model ++ "\n") = .ok (startMessage model) := by
    unfold parseStart
    rcases List.mem_pair.1 hmodel with rfl | rfl
    · rw [if_pos rfl]
    · rw [if_neg hne, if_pos rfl]
  have hline : utf8 (startText model) ++ [newline] = utf8 (startText model ++ "\n") := by
    rw [utf8_append]
    rfl
  obtain ⟨hbody, hfits⟩ := hbytes model hmodel
  have hsent : (startConnection model).received = .bytes (utf8 (startText model) ++ newline :: []) :=
    rfl
  rw [admitRequest_line rfl hsent hbody hfits, hline]
  exact requests_agree (by decide) (by decide) hs (strataSettings_allowed hallowed hmodel)
    (decodes_utf8 hparse)

/-- Two starts of Strata by `root`, with different models, and a peer that sends
    no credentials. -/
theorem confined_strata : ∃ config service,
    loadConfig strataSections = .ok config ∧ config.services.get "strata" = some service ∧
    ∀ stateDirectory answers,
      List.Forall₂ (SameCommand service)
        (commands ⟨config, stateDirectory⟩ parseStart 100 (startConnection "a=b") answers)
        (commands ⟨config, stateDirectory⟩ parseStart 100 (startConnection "c") answers) ∧
      commands ⟨config, stateDirectory⟩ parseStart 100
        { startConnection "c" with credentials := [] } answers = [] := by
  obtain ⟨config, service, hload, hs, hallowed⟩ := strata_configured
  refine ⟨config, service, hload, hs, fun stateDirectory answers => ?_⟩
  obtain ⟨hturned, -, hsame, -⟩ := confined ⟨config, stateDirectory⟩ parseStart 100
  have hfirst := admitRequest_start hs hallowed stateDirectory (List.mem_pair.2 (.inl rfl))
  have hsecond := admitRequest_start hs hallowed stateDirectory (List.mem_pair.2 (.inr rfl))
  exact ⟨hsame _ _ _ _ hfirst hsecond rfl rfl answers, hturned _ (.inl rfl) answers⟩

end ModelBroker.Helper
