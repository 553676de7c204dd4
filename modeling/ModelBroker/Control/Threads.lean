import ModelBroker.Control.Agreement
import ModelBroker.Lib.Locks

/-!
# The helper's threads

`ControlServer` (`model-broker-service-control.py`, lines 396–447) serves every connection
in a thread of its own; a start or a stop holds the lock of its service
(`Controller.locks`), a status none. What Docker's commands do to a container is given
(`Locks.Rules`), and the containers may also change by themselves.

* `mutations_serial`: each container is as if the starts and stops of its service had
  been served one after the other.
* `start_describes`: the status in the reply to a start is that of the container as the
  start's own `docker compose up` has left it.
* `clients_answered`: no client waits for a lock for ever.
-/

namespace ModelBroker.Helper

open Python

/-! ## Threads -/

/-- What identifies a container: its Compose project and service. -/
def Service.container (service : Service) : String × String :=
  (service.projectName, service.composeService)

/-- The lock of a request (lines 341–371). -/
def Request.lock (request : Request) : Option String :=
  if request.operation = "status" then none else some request.service.name

variable (c : Controller) (parse : String → Except LoadsError Json) (allowedGid : ℤ)

/-- The thread of a connection. -/
def job (connection : Connection) : Locks.Job Command Answer Json (String × String) String where
  lock :=
    match admitRequest c parse allowedGid connection with
    | .error _ => none
    | .ok request => request.lock
  about :=
    match admitRequest c parse allowedGid connection with
    | .error _ => ("", "")
    | .ok request => request.service.container
  program := serve c parse allowedGid connection

variable {υ : Type}

/-- The threads of the helper, with their containers. -/
abbrev Threads (υ : Type) := Locks.State Command Answer Json (String × String) String υ

/-- Docker does what the rules say, and the threads that come serve connections. -/
def serving (E : Locks.Rules Command Answer (String × String) υ) (s : Threads υ)
    (a : Locks.Action Command Answer Json (String × String) String υ) : Prop :=
  Locks.obeyed E s a ∧ ∀ j, a = .spawn j → ∃ connection, j = job c parse allowedGid connection

/-- The subcommands of Docker that read. -/
def Command.inspects (q : Command) : Bool :=
  q.argv.tail.head? = some "ps" || q.argv.tail.head? = some "inspect"

variable {c parse allowedGid} {E : Locks.Rules Command Answer (String × String) υ} {s : Threads υ}
  {world : String × String → υ}

/-! ## What the threads ask -/

theorem inspects_run {arguments : List String} {service : Service} {timeout : Double}
    (h : arguments.head? = some "ps" ∨ arguments.head? = some "inspect") :
    (c.run arguments service timeout ∅).Asks fun q => q.inspects = true := by
  refine .ask ?_ fun _ => .done _
  rcases h with h | h <;> simp [Command.inspects, h]

/-- A status only reads. -/
theorem inspects_status (service : Service) :
    (c.status parse service).Asks fun q => q.inspects = true := by
  have done : ∀ (d : Except Failure Json), (Dialogue.done d : Docker Json).Asks
      fun q => q.inspects = true := fun d => .done d
  refine (inspects_run (.inl rfl)).bind fun listed => ?_
  cases listed with
  | error e => exact done _
  | ok listed =>
    dsimp only
    split
    · exact done _
    · refine (inspects_run (.inr rfl)).bind fun inspected => ?_
      cases inspected with
      | error e => exact done _
      | ok inspected => exact done _
    · exact done _

/-- An admitted request names a configured service. -/
theorem service_of_admitted {sections : Dict String Section}
    (hload : loadConfig sections = .ok c.config) {connection : Connection} {request : Request}
    (h : admitRequest c parse allowedGid connection = .ok request) :
    c.config.services.get request.service.name = some request.service := by
  unfold admitRequest at h
  split_ifs at h
  split at h
  · cases h
  · cases h
  · dsimp only at h
    split_ifs at h
    obtain ⟨-, message, -, -, hvalid⟩ := parseRequest_eq_ok.1 h
    obtain ⟨name, -, hname⟩ := hvalid.service
    have hsound := loadConfig_service hload hname
    rwa [hsound.name]

/-- The lock for a container is the name of the service that is configured for it. -/
def Owns (config : Config) (container : String × String) (name : String) : Prop :=
  ∃ service, config.services.get name = some service ∧ service.container = container

/-- No two services are configured for one container. -/
def Apart (config : Config) : Prop :=
  ∀ name name' service service', config.services.get name = some service →
    config.services.get name' = some service' → service.container = service'.container → name = name'

theorem owns_unique {config : Config} (hapart : Apart config) (container : String × String)
    (name name' : String) (h : Owns config container name) (h' : Owns config container name') :
    name = name' := by
  obtain ⟨service, hget, hcontainer⟩ := h
  obtain ⟨service', hget', hcontainer'⟩ := h'
  exact hapart name name' service service' hget hget' (hcontainer.trans hcontainer'.symm)

/-- Every thread of the helper has the lock of its container, or only reads. -/
theorem job_proper {sections : Dict String Section} (hload : loadConfig sections = .ok c.config)
    (hreads : ∀ k q, Command.inspects q = true → E.Reads k q) (connection : Connection) :
    (job c parse allowedGid connection).Proper E (Owns c.config) := by
  cases hrequest : admitRequest c parse allowedGid connection with
  | error e =>
    refine ⟨fun l hl => ?_, fun _ => ?_⟩
    · simp [job, hrequest] at hl
    · simp only [job, hrequest, serve]
      exact .done _
  | ok request =>
    refine ⟨fun l hl => ?_, fun hnone => ?_⟩
    · simp only [job, hrequest, Request.lock] at hl ⊢
      split_ifs at hl
      cases hl
      exact ⟨request.service, service_of_admitted hload hrequest, rfl⟩
    · simp only [job, hrequest, Request.lock] at hnone ⊢
      split_ifs at hnone with hstatus
      simp only [serve, hrequest, Controller.handle, hstatus, if_true]
      refine .bind ?_ fun result => .done _
      exact (inspects_status request.service).mono fun q hq => hreads _ q hq

/-- The helper's runs are among those of proper threads. -/
theorem allowed_of_serving {sections : Dict String Section}
    (hload : loadConfig sections = .ok c.config)
    (hreads : ∀ k q, Command.inspects q = true → E.Reads k q)
    (h : (Locks.system world).Reach (serving c parse allowedGid E) s) :
    (Locks.system world).Reach (Locks.allowed E (Owns c.config)) s := by
  refine h.mono fun s a hok => ⟨hok.1, ?_⟩
  rintro j rfl
  obtain ⟨connection, rfl⟩ := hok.2 j rfl
  exact job_proper hload hreads connection

/-! ## Two starts at once -/

/-- The helper with the configuration of Strata. -/
def strataController : Controller where
  config := (loadConfig strataSections).toOption.get (by decide +kernel)
  stateDirectory := Path.ofText "/var/lib"

theorem strataController_loaded : loadConfig strataSections = .ok strataController.config :=
  except_toOption_eq_some.1 (Option.some_get _).symm

/-- Its service. -/
def strataService : Service :=
  (strataController.config.services.get "strata").get (by decide +kernel)

theorem strataService_configured :
    strataController.config.services.get "strata" = some strataService :=
  (Option.some_get _).symm

/-- What `docker inspect` prints, decoded. -/
def inspected (model : String) : Json :=
  .arr [.obj [("State", .obj [("Status", .str "running")]),
    ("Config", .obj [("Env", .arr [.str ("STRATA_MODEL=" ++ model)])])]]

/-- A decoder that knows two starts, and what Docker prints for their containers. -/
def parseBoth (text : String) : Except LoadsError Json :=
  if text = startText "a=b" ++ "\n" then .ok (startMessage "a=b")
  else if text = startText "c" ++ "\n" then .ok (startMessage "c")
  else .ok (inspected text)

/-- A Docker that runs containers with the model they are made for. -/
def dockerRun (_ : String × String) (model : Option String) (q : Command) : Answer × Option String :=
  if q.argv.contains "ps" then (.done 0 (if model.isSome then "abc" else "") "", model)
  else if q.argv.contains "inspect" then (.done 0 (model.getD "") "", model)
  else if q.argv.contains "up" then (.done 0 "" "", q.env.get "STRATA_MODEL")
  else (.done 0 "" "", none)

theorem admitRequest_both {model : String} (hmodel : model ∈ ["a=b", "c"]) :
    admitRequest strataController parseBoth 100 (startConnection model) =
      .ok ⟨"1", "start", strataService, strataSettings model⟩ := by
  have hbytes : ∀ model ∈ ["a=b", "c"], newline ∉ utf8 (startText model) ∧
      (utf8 (startText model) ++ [newline]).length ≤ maxMessageBytes := by
    decide +kernel
  have hne : startText "c" ++ "\n" ≠ startText "a=b" ++ "\n" := by decide +kernel
  have hparse : parseBoth (startText model ++ "\n") = .ok (startMessage model) := by
    unfold parseBoth
    rcases List.mem_pair.1 hmodel with rfl | rfl
    · rw [if_pos rfl]
    · rw [if_neg hne, if_pos rfl]
  have hline : utf8 (startText model) ++ [newline] = utf8 (startText model ++ "\n") := by
    rw [utf8_append]
    rfl
  obtain ⟨hbody, hfits⟩ := hbytes model hmodel
  have hsent : (startConnection model).received = .bytes (utf8 (startText model) ++ newline :: []) :=
    rfl
  have hallowed : strataService.allowedEnv = ["STRATA_MODEL"] := by decide +kernel
  rw [admitRequest_line rfl hsent hbody hfits, hline]
  exact requests_agree (by decide) (by decide) strataService_configured
    (strataSettings_allowed hallowed hmodel) (decodes_utf8 hparse)

/-- The commands of a status leave a container as it is. -/
theorem dockerRun_reads (k : String × String) (q : Command) (h : q.inspects = true) :
    (Locks.Rules.ofFunction dockerRun).Reads k q := by
  have hmem : "ps" ∈ q.argv ∨ "inspect" ∈ q.argv := by
    simp only [Command.inspects, Bool.or_eq_true, decide_eq_true_eq] at h
    exact h.imp (fun h => List.mem_of_mem_tail (List.mem_of_mem_head? h))
      fun h => List.mem_of_mem_tail (List.mem_of_mem_head? h)
  have hsame : ∀ v, (dockerRun k v q).2 = v := by
    intro v
    by_cases hps : "ps" ∈ q.argv
    · simp [dockerRun, hps]
    · simp [dockerRun, hps, hmem.resolve_left hps]
  intro v answer w hdoes
  have hw := congrArg Prod.snd (show dockerRun k v q = (answer, w) from hdoes)
  exact hw.symm.trans (hsame v)

theorem strata_apart : Apart strataController.config := by
  have hkeys : strataController.config.services.keys = ["strata"] := by decide +kernel
  have hone : ∀ name service, strataController.config.services.get name = some service →
      name = "strata" := by
    intro name service hget
    have hmem : name ∈ strataController.config.services.keys := Dict.mem_keys.2 ⟨service, hget⟩
    rw [hkeys] at hmem
    exact List.mem_singleton.1 hmem
  intro name name' service service' hget hget' _
  rw [hone name service hget, hone name' service' hget']

/-- Two clients have asked for two models at once. -/
def bothStarted : Threads (Option String) where
  threads := [{ job := job strataController parseBoth 100 (startConnection "a=b") },
    { job := job strataController parseBoth 100 (startConnection "c") }]
  world _ := none

theorem reach_bothStarted : (Locks.system fun _ => none).Reach
    (serving strataController parseBoth 100 (.ofFunction dockerRun)) bothStarted := by
  have hspawn : ∀ (s : Threads (Option String)) (model : String),
      serving strataController parseBoth 100 (.ofFunction dockerRun) s
        (.spawn (job strataController parseBoth 100 (startConnection model))) := by
    refine fun s model => ⟨trivial, ?_⟩
    rintro j ⟨⟩
    exact ⟨startConnection model, rfl⟩
  exact .step (.step (.init rfl) (hspawn _ "a=b") rfl) (hspawn _ "c") rfl

/-- The thread of a start, with its request read. -/
def startJob (model : String) : Locks.Job Command Answer Json (String × String) String where
  lock := some "strata"
  about := strataService.container
  program := (strataController.handle parseBoth ⟨"1", "start", strataService, strataSettings model⟩).bind
    fun result => .done (reply "1" result)

theorem job_both {model : String} (hmodel : model ∈ ["a=b", "c"]) :
    job strataController parseBoth 100 (startConnection model) = startJob model := by
  have hname : strataService.name = "strata" := by decide +kernel
  simp [job, serve, admitRequest_both hmodel, startJob, Request.lock, hname]

/-- The model in the status of a reply. -/
def shownModel (reply : Json) : Option String := do
  let status ← (Json.field (← reply.dict?) "result").dict?
  let settings ← (Json.field status "settings").dict?
  (Json.field settings "STRATA_MODEL").str?

/-- A reply with a status that shows this model. -/
def Shown (thread : Locks.Thread Command Answer Json (String × String) String) (model : String) : Bool :=
  match thread.point with
  | .ended (.obj [("ok", .bool true), ("version", .int 1), ("id", .str "1"), ("result", status)]) =>
    shownModel (accepted "1" status) = some model
  | _ => false

/-- The same with their requests read. -/
def bothJobs : Threads (Option String) where
  threads := [{ job := startJob "a=b" }, { job := startJob "c" }]
  world _ := none

theorem bothStarted_eq : bothStarted = bothJobs := by
  simp [bothStarted, bothJobs, job_both]

theorem bothStarted_advance (is : List ℕ) (P : Threads (Option String) → Bool)
    (h : (is.foldlM (Locks.advance dockerRun) bothJobs).any P = true) :
    ∃ s, (Locks.system fun _ => none).Reach
        (serving strataController parseBoth 100 (.ofFunction dockerRun)) s ∧
      s.threads.map (·.job) = bothStarted.threads.map (·.job) ∧ P s = true := by
  obtain ⟨s, hs, hP⟩ := (Option.any_eq_true ..).1 h
  rw [← bothStarted_eq] at hs
  obtain ⟨hreach, hjobs⟩ := Locks.reach_advance
    (fun s a hobeyed hspawn => ⟨hobeyed, fun j heq => absurd heq (hspawn j)⟩) reach_bothStarted hs
  exact ⟨s, hreach, hjobs, hP⟩

/-! ## One after the other -/

section Serial

variable {sections : Dict String Section} (hload : loadConfig sections = .ok c.config)
  (hapart : Apart c.config) (hreads : ∀ k q, Command.inspects q = true → E.Reads k q)
  (h : (Locks.system world).Reach (serving c parse allowedGid E) s)
include hload hapart hreads h

/-- The helper never mixes up the starts and stops of a service, for any number of
    connections and every order of their commands: each container is as if the starts and
    stops that have ended had been served one after the other, in the order in which they
    ended, and nobody else but the one that is at it now. At most one is at it. -/
theorem mutations_serial (k : String × String) :
    s.Serialised E world k ∧
      ∀ (i j : ℕ) (job job' : Locks.Job Command Answer Json (String × String) String)
        (rest rest' : Dialogue Command Answer Json),
        s.threads[i]? = some ⟨job, .running rest⟩ → s.threads[j]? = some ⟨job', .running rest'⟩ →
        job.changes k = true → job'.changes k = true → i = j := by
  have hallowed := allowed_of_serving hload hreads h
  refine ⟨Locks.serial (owns_unique hapart) hallowed k, ?_⟩
  intro i j job job' rest rest' hi hj hk hk'
  exact Locks.changes_unique (owns_unique hapart) hallowed hi hj hk hk'

end Serial

/-- The first of two starts has ended, the second is at it. -/
theorem mutations_serial_strata : ∃ s : Threads (Option String),
    (Locks.system fun _ => none).Reach
      (serving strataController parseBoth 100 (.ofFunction dockerRun)) s ∧
    (s.threads[0]?.any (Shown · "a=b") && s.threads[1]?.any (·.holds "strata")) = true ∧
    s.Serialised (.ofFunction dockerRun) (fun _ => none) strataService.container := by
  obtain ⟨s, hs, -, hthreads⟩ := bothStarted_advance [0, 0, 0, 0, 0, 1, 1]
    (fun s => s.threads[0]?.any (Shown · "a=b") && s.threads[1]?.any (·.holds "strata"))
    (by decide +kernel)
  exact ⟨s, hs, hthreads,
    (mutations_serial strataController_loaded strata_apart dockerRun_reads hs _).1⟩

/-! ## The reply to a start -/

/-- A command of `run` (lines 287–298). -/
def Controller.command (c : Controller) (arguments : List String) (service : Service)
    (timeout : Double) (settings : Dict String String) : Command where
  argv := c.config.docker.toText :: arguments
  env := c.environment settings
  cwd := service.projectDirectory.toText
  timeout := timeout

/-- The `docker compose up` of a start (lines 346–352). -/
def Controller.up (c : Controller) (request : Request) : Command :=
  let service := request.service
  c.command (["compose", "--file", service.composeFile.toText, "--project-directory",
    service.projectDirectory.toText, "--project-name", service.projectName] ++
    ["up", "--detach", "--no-deps", "--no-build", "--pull", "never", service.composeService])
    service c.config.startTimeoutSeconds request.settings

/-- The commands of `status` show the container `v` in this way. -/
def Shows (c : Controller) (parse : String → Except LoadsError Json)
    (E : Locks.Rules Command Answer (String × String) υ) (service : Service) (v : υ) (status : Json) :
    Prop :=
  ∃ listed err, E.does service.container v
      (c.command (Controller.listing service) service c.config.stopTimeoutSeconds ∅)
      (.done 0 listed err) v ∧
    ((split listed = [] ∧ status = missingStatus) ∨
      ∃ id w inspected err', split listed = [id] ∧ Locks.Drifted E service.container v w ∧
        E.does service.container w
          (c.command ["inspect", id] service c.config.stopTimeoutSeconds ∅)
          (.done 0 inspected err') w ∧
        (firstInspected parse inspected >>= fun info => containerStatus info service) = .ok status)

/-- A command succeeds only with the exit status 0. -/
theorem outcome_ok {arguments : List String} {timeout : Double} {answer : Answer} {out : String}
    (h : Controller.outcome arguments timeout answer = .ok out) : ∃ err, answer = .done 0 out err := by
  cases answer with
  | done returncode stdout stderr =>
    simp only [Controller.outcome] at h
    split_ifs at h with hcode
    cases h
    exact ⟨stderr, by rw [hcode]⟩
  | timedOut | osError | raised => cases h

/-- A command that comes first, if all succeeds. -/
theorem alone_run {arguments : List String} {service : Service} {timeout : Double}
    {settings : Dict String String} {f : String → Docker Json} {k : String × String} {v w : υ}
    {status : Json}
    (h : Locks.Alone E k v ((c.run arguments service timeout settings).andThen f) w
      (.done (.ok status))) :
    ∃ v₁ out err v₂, Locks.Drifted E k v v₁ ∧
      E.does k v₁ (c.command arguments service timeout settings) (.done 0 out err) v₂ ∧
      Locks.Alone E k v₂ (f out) w (.done (.ok status)) := by
  rcases h.of_ask with ⟨heq, -⟩ | ⟨v₁, answer, v₂, hdrift, hdoes, hrest⟩
  · cases heq
  · dsimp only at hrest
    rw [Dialogue.done_bind] at hrest
    cases houtcome : Controller.outcome arguments timeout answer with
    | error e =>
      rw [houtcome] at hrest
      cases hrest.of_done.1
    | ok out =>
      rw [houtcome] at hrest
      obtain ⟨err, rfl⟩ := outcome_ok houtcome
      exact ⟨v₁, out, err, v₂, hdrift, hdoes, hrest⟩

/-- A status shows the container as it finds it. -/
theorem status_shows (hreads : ∀ k q, Command.inspects q = true → E.Reads k q) {service : Service}
    {v w : υ} {status : Json}
    (h : Locks.Alone E service.container v (c.status parse service) w (.done (.ok status))) :
    ∃ v₁, Locks.Drifted E service.container v v₁ ∧ Shows c parse E service v₁ status := by
  obtain ⟨v₁, listed, err, v₂, hdrift, hdoes, hrest⟩ := alone_run h
  obtain rfl := hreads _ (c.command (Controller.listing service) service _ ∅) rfl _ _ _ hdoes
  refine ⟨v₂, hdrift, listed, err, hdoes, ?_⟩
  split at hrest
  · next hnone =>
    cases hrest.of_done.1
    exact .inl ⟨hnone, rfl⟩
  · next id hone =>
    obtain ⟨u, inspected, err', u', hdrift', hdoes', hlast⟩ := alone_run hrest
    obtain rfl := hreads _ (c.command ["inspect", id] service _ ∅) rfl _ _ _ hdoes'
    refine .inr ⟨id, u', inspected, err', hone, hdrift', hdoes', ?_⟩
    have heq := hlast.of_done.1
    injection heq with heq
    exact heq.symm
  · cases hrest.of_done.1

/-- Only a success is replied to with one. -/
theorem reply_eq_accepted {id : String} {result : Except Failure Json} {status : Json}
    (h : reply id result = accepted id status) : result = .ok status := by
  cases result with
  | ok result =>
    simp only [reply, accepted, Json.obj.injEq, List.cons.injEq, Prod.mk.injEq, true_and,
      and_true] at h
    rw [h]
  | error e => cases e <;> simp [reply, refused, accepted] at h

/-- The status in the reply to a start, if no two services are configured for one container
    and `docker ps` and `docker inspect` change nothing: whatever other clients ask for
    meanwhile, the start has found the container as the starts and stops before it had left it, and from
    its `docker compose up` to the commands of its status the container has changed by
    itself at most. -/
theorem start_describes {sections : Dict String Section} (hload : loadConfig sections = .ok c.config)
    (hapart : Apart c.config) (hreads : ∀ k q, Command.inspects q = true → E.Reads k q)
    (h : (Locks.system world).Reach (serving c parse allowedGid E) s) {i : ℕ}
    {connection : Connection} {request : Request} {status : Json}
    (hi : s.threads[i]? =
      some ⟨job c parse allowedGid connection, .ended (accepted request.id status)⟩)
    (hrequest : admitRequest c parse allowedGid connection = .ok request)
    (hstart : request.operation = "start") :
    ∃ before after v w out err made u,
      s.turns request.service.container =
        before ++ ⟨i, job c parse allowedGid connection, accepted request.id status⟩ :: after ∧
      Locks.Serial E request.service.container (world request.service.container) before v ∧
      Locks.Drifted E request.service.container v w ∧
      E.does request.service.container w (c.up request) (.done 0 out err) made ∧
      Locks.Drifted E request.service.container made u ∧
      Shows c parse E request.service u status := by
  have hallowed := allowed_of_serving hload hreads h
  have habout : (job c parse allowedGid connection).about = request.service.container := by
    simp [job, hrequest]
  have hlock : (job c parse allowedGid connection).lock = some request.service.name := by
    simp [job, hrequest, Request.lock, hstart]
  -- the thread had its turn
  have hmem : ⟨i, job c parse allowedGid connection, accepted request.id status⟩ ∈
      s.turns request.service.container := by
    refine List.mem_filter.2 ⟨((Locks.ended_iff hallowed).2 _ _ _).2 hi, ?_⟩
    simp [Locks.Job.changes, hlock, habout]
  obtain ⟨v₀, hserial, -⟩ := Locks.serial (owns_unique hapart) hallowed request.service.container
  obtain ⟨before, after, v, v', hturns, hbefore, halone⟩ := hserial.of_mem hmem
  -- it ran its program alone
  have hprogram : (job c parse allowedGid connection).program =
      (c.handle parse request).bind fun result => .done (reply request.id result) := by
    simp [job, serve, hrequest]
  dsimp only at halone
  rw [hprogram] at halone
  obtain ⟨result, halone, hreply⟩ := halone.of_bind_done
  obtain rfl := reply_eq_accepted hreply.symm
  have hhandle : c.handle parse request = c.start parse request.service request.settings := by
    simp [Controller.handle, hstart]
  have hconfigured : c.config.services.contains request.service.name = true := by
    rw [Dict.contains_iff]
    exact ⟨_, service_of_admitted hload hrequest⟩
  rw [hhandle, Controller.start, Controller.withLock, if_pos hconfigured, Controller.compose] at halone
  obtain ⟨w, out, err, made, hdrift, hdoes, hrest⟩ := alone_run halone
  obtain ⟨u, hdrift', hshows⟩ := status_shows hreads hrest
  exact ⟨before, after, v, w, out, err, made, u, hturns, hbefore, hdrift, hdoes, hdrift', hshows⟩

/-- The second of two starts tells what it has made. -/
theorem start_describes_strata : ∃ (s : Threads (Option String)) (status : Json),
    (Locks.system fun _ => none).Reach
      (serving strataController parseBoth 100 (.ofFunction dockerRun)) s ∧
    s.threads[1]? = some ⟨job strataController parseBoth 100 (startConnection "c"),
      .ended (accepted "1" status)⟩ ∧
    shownModel (accepted "1" status) = some "c" ∧
    ∃ w out err made u, (Locks.Rules.ofFunction dockerRun).does strataService.container w
        (strataController.up ⟨"1", "start", strataService, strataSettings "c"⟩)
        (.done 0 out err) made ∧
      Locks.Drifted (.ofFunction dockerRun) strataService.container made u ∧
      Shows strataController parseBoth (.ofFunction dockerRun) strataService u status := by
  obtain ⟨s, hs, hjobs, hshown⟩ := bothStarted_advance [0, 0, 0, 0, 0, 1, 1, 1, 1, 1]
    (fun s => s.threads[1]?.any (Shown · "c")) (by decide +kernel)
  obtain ⟨⟨j, point⟩, hi, hshown⟩ := (Option.any_eq_true ..).1 hshown
  have hj : j = job strataController parseBoth 100 (startConnection "c") := by
    have hget := congrArg (·[1]?) hjobs
    simpa [List.getElem?_map, hi, bothStarted] using hget
  subst hj
  simp only [Shown] at hshown
  split at hshown
  · next heq status =>
    obtain ⟨-, -, -, w, out, err, made, u, -, -, -, hdoes, hdrift, hshows⟩ :=
      start_describes strataController_loaded strata_apart dockerRun_reads hs hi
        (admitRequest_both (List.mem_pair.2 (.inr rfl))) rfl
    exact ⟨s, status, hs, hi, of_decide_eq_true hshown, w, out, err, made, u, hdoes, hdrift, hshows⟩
  · cases hshown

/-! ## Progress -/

/-- If Docker answers every command, if only with its time limit, then from every state
    of every run choosing threads well brings every connection to its reply, without a new
    connection: no client waits for ever, for a lock or for another client. -/
theorem clients_answered (hanswered : ∀ k v q, ∃ answer w, E.does k v q answer w)
    (h : (Locks.system world).Reach (serving c parse allowedGid E) s) :
    (Locks.system world).Forces Locks.Action.turn? (serving c parse allowedGid E)
      (fun t => (Locks.system world).Reach (serving c parse allowedGid E) t ∧
        ∀ (i : ℕ) (thread : Locks.Thread Command Answer Json (String × String) String),
          t.threads[i]? = some thread → ∃ reply, thread.point = .ended reply) s := by
  refine ((Locks.all_end hanswered).congr fun s a ha => ⟨fun hok => ⟨hok, ?_⟩, fun hok => hok.1⟩).reach h
  rintro j rfl
  exact absurd rfl ha

/-- Two starts at once are both replied to. -/
theorem clients_answered_strata : ∃ t : Threads (Option String),
    (Locks.system fun _ => none).Reach
      (serving strataController parseBoth 100 (.ofFunction dockerRun)) t ∧
    ∀ (i : ℕ) (thread : Locks.Thread Command Answer Json (String × String) String),
      t.threads[i]? = some thread → ∃ reply, thread.point = .ended reply := by
  obtain ⟨t, -, ht⟩ := (clients_answered (E := .ofFunction dockerRun)
    (fun k v q => ⟨(dockerRun k v q).1, (dockerRun k v q).2, rfl⟩) reach_bothStarted).exists_reach
  exact ⟨t, ht⟩

end ModelBroker.Helper
