import ModelBroker.Control.Client
import ModelBroker.Lib.Dialogue
import ModelBroker.Python.Path

/-!
# The service-control helper

`model-broker-service-control.py` (lines 40–447): its configuration, the requests
it accepts, and the Docker commands it runs for them. What `configparser` returns
is given: for each section its options, those of `[DEFAULT]` included. A Docker
command is a question of a `Dialogue`, and its outcome the answer.
-/

namespace ModelBroker.Helper

open Python

/-! ## Records -/

/-- `Service` (lines 75–85). Only membership in `allowed_env` matters. -/
structure Service where
  name : String
  composeService : String
  composeFile : Path
  projectDirectory : Path
  projectName : String
  allowedEnv : List String
  stopGraceSeconds : ℤ

/-- `Config` (lines 88–93). -/
structure Config where
  docker : Path
  services : Dict String Service
  startTimeoutSeconds : Double
  stopTimeoutSeconds : Double

/-- `Request` (lines 96–101). -/
structure Request where
  id : String
  operation : String
  service : Service
  settings : Dict String String

/-- The exceptions of the helper; `other` is any that no `except` clause names. -/
inductive Failure where
  | configError (message : String)
  | requestError (message : String)
  | operationError (message : String)
  | timeoutError
  | other
  deriving DecidableEq

/-! ## Configuration -/

/-- `PROTOCOL_VERSION` (line 41). -/
def protocolVersion : ℤ := 1

/-- `OPERATIONS` (line 44). -/
def operations : List String := ["status", "start", "stop"]

/-- `MAX_MESSAGE_BYTES` (line 42). -/
def maxMessageBytes : ℕ := 16 * 1024

/-- `MAX_VALUE_LENGTH` (line 51). -/
def maxValueLength : ℕ := 512

/-- `SERVICE_NAME.fullmatch(name)` (line 46). -/
def matchesServiceName : String → Bool :=
  matchesName (fun c => isLower c || isNumber c)
    fun c => isLower c || isNumber c || ['_', '.', '-'].contains c

/-- `ENV_NAME.fullmatch(name)` (line 47). -/
def matchesEnvName : String → Bool :=
  matchesName (fun c => isUpper c || c = '_') fun c => isUpper c || isNumber c || c = '_'

/-- `ENV_VALUE.fullmatch(value)` (line 50). -/
def matchesEnvValue (value : String) : Bool :=
  value.toList.all fun c => isUpper c || isLower c || isNumber c ||
    ['_', '.', '/', ':', ',', '@', '%', '+', '=', '-'].contains c

/-- The options of a section. -/
abbrev Section := Dict String String

/-- `positive_number` (lines 107–114); `default` is how `str` writes it. -/
def positiveNumber (name : String) (options : Section) (key default : String) :
    Except Failure Double :=
  match float ((options.get key).getD default) with
  | none => .error (.configError ("[" ++ name ++ "] " ++ key ++ " must be a number"))
  | some value =>
    if value.isPositive then .ok value
    else .error (.configError ("[" ++ name ++ "] " ++ key ++ " must be positive"))

/-- `absolute_path` (lines 117–121). -/
def absolutePath (name : String) (options : Section) (key : String) (fallback : Option String) :
    Except Failure Path :=
  match (options.get key).or fallback with
  | none => .error (.configError ("[" ++ name ++ "] " ++ key ++ " must be an absolute path"))
  | some text =>
    if text ≠ "" ∧ (Path.ofText text).isAbsolute then .ok (Path.ofText text)
    else .error (.configError ("[" ++ name ++ "] " ++ key ++ " must be an absolute path"))

/-- `parse_service` (lines 124–148). -/
def parseService (name : String) (options defaults : Section) : Except Failure Service :=
  if !matchesServiceName name then
    .error (.configError ("service name " ++ Python.repr name ++
      " is not a valid Compose service name"))
  else
    let allowed := split ((options.get "allowed-env").getD "")
    match allowed.find? fun envName => !matchesEnvName envName with
    | some envName =>
      .error (.configError ("[" ++ name ++ "] allowed-env has an invalid name " ++
        Python.repr envName))
    | none =>
      let project := (options.get "project-name").getD ((defaults.get "project-name").getD "")
      if project = "" then .error (.configError ("[" ++ name ++ "] needs a project-name"))
      else do
        let grace ← positiveNumber name options "stop-grace-seconds" "30"
        let composeFile ← absolutePath name options "compose-file" (defaults.get "compose-file")
        let projectDirectory ←
          absolutePath name options "project-directory" (defaults.get "project-directory")
        let stopGraceSeconds ← grace.int.mapError fun _ => Failure.other
        .ok {
          name
          composeService := (options.get "compose-service").getD name
          composeFile
          projectDirectory
          projectName := project
          allowedEnv := allowed
          stopGraceSeconds }

/-- The dictionary of services of `load_config` (lines 162–166). -/
def parseServices (control : Section) : List (String × Section) →
    Except Failure (List (String × Service))
  | [] => .ok []
  | (name, options) :: rest => do
    let service ← parseService name options control
    let services ← parseServices control rest
    .ok ((name, service) :: services)

/-- `load_config` (lines 151–175). -/
def loadConfig (sections : Dict String Section) : Except Failure Config :=
  match sections.get "control" with
  | none => .error (.configError "the configuration needs a [control] section")
  | some control => do
    let services ← parseServices control (sections.entries.filter fun s => s.1 ≠ "control")
    if services = [] then .error (.configError "the configuration lists no services")
    else
      let docker ← absolutePath "control" control "docker" (some "/usr/bin/docker")
      let start ← positiveNumber "control" control "start-timeout-seconds" "180"
      let stop ← positiveNumber "control" control "stop-timeout-seconds" "180"
      .ok ⟨docker, Dict.ofList services, start, stop⟩

/-! ## Requests -/

/-- The body of the loop of `parse_settings` (lines 194–203). -/
def parseSetting (service : Service) (settings : Dict String String) (entry : String × Json) :
    Except Failure (Dict String String) :=
  if !service.allowedEnv.contains entry.1 then
    .error (.requestError ("setting " ++ Python.repr entry.1 ++ " is not allowed for " ++
      service.name))
  else
    match entry.2.str? with
    | some value =>
      if value.length ≤ maxValueLength ∧ matchesEnvValue value then
        .ok (settings.insert entry.1 value)
      else
        .error (.requestError ("setting " ++ entry.1 ++ " has a value that is not permitted"))
    | none =>
      .error (.requestError ("setting " ++ entry.1 ++ " has a value that is not permitted"))

/-- `parse_settings` (lines 190–204). -/
def parseSettings (service : Service) (raw : Json) : Except Failure (Dict String String) :=
  match raw.dict? with
  | some settings => settings.entries.foldlM (parseSetting service) ∅
  | none => .error (.requestError "settings must be an object")

/-- `json.loads(raw.decode("utf-8"))` (lines 208–211), with `parse` for the
    decoder of texts. -/
def decodeRequest (parse : String → Except LoadsError Json) (raw : List UInt8) :
    Except Failure Json :=
  match String.fromUTF8? ⟨raw.toArray⟩ with
  | none => .error (.requestError "request must be UTF-8 JSON")
  | some text =>
    match parse text with
    | .ok document => .ok document
    | .error .json | .error .unicode => .error (.requestError "request must be UTF-8 JSON")
    | .error .tooManyDigits | .error .recursion => .error .other

/-- The keys a request must have, sorted (lines 214–216). -/
def expectedKeys (operation : Json) : List String :=
  if operation.equalsStr "start" then ["id", "request", "service", "settings", "version"]
  else ["id", "request", "service", "version"]

/-- The settings of a request (line 230). -/
def requestSettings (service : Service) (operation : String) (message : Dict String Json) :
    Except Failure (Dict String String) :=
  if operation = "start" then parseSettings service (Json.field message "settings") else .ok ∅

/-- `parse_request` (lines 207–231) from the decoded document on. -/
def parseMessage (config : Config) (decoded : Json) : Except Failure Request :=
  let message := decoded.dict?.getD ∅
  let operation := Json.field message "request"
  let expected := expectedKeys operation
  if !(message.keys.all expected.contains && expected.all message.keys.contains) then
    .error (.requestError ((if operation.truthy then operation.toStr else "request") ++
      " must contain only " ++ Json.repr (.arr (expected.map .str))))
  else if (Json.field message "version").int? ≠ some protocolVersion then
    .error (.requestError "unsupported protocol version")
  else
    match (Json.field message "id").str?.filter (· ≠ "") with
    | none => .error (.requestError "id must be a non-empty string")
    | some id =>
      match operation.str?.filter operations.contains with
      | none => .error (.requestError "request is not permitted")
      | some operation =>
        match (Json.field message "service").str?.bind config.services.get with
        | none => .error (.requestError "service is not controlled by this helper")
        | some service => do
          let settings ← requestSettings service operation message
          .ok ⟨id, operation, service, settings⟩

/-- `parse_request` (lines 207–231). -/
def parseRequest (parse : String → Except LoadsError Json) (raw : List UInt8) (config : Config) :
    Except Failure Request := do
  let decoded ← decodeRequest parse raw
  parseMessage config decoded

/-! ## Docker -/

/-- A command that `subprocess.run` is given (lines 287–298). -/
structure Command where
  argv : List String
  env : Dict String String
  cwd : String
  timeout : Double

/-- What becomes of a command: it ends, its time is up, it cannot be run, or
    `subprocess.run` raises anything else. -/
inductive Answer where
  | done (returncode : ℤ) (stdout stderr : String)
  | timedOut
  | osError (text : String)
  | raised

/-- A program that runs Docker commands. -/
abbrev Docker (α : Type) := Dialogue Command Answer (Except Failure α)

/-- Go on with the result, if no exception was raised. -/
def Docker.andThen {α β : Type} (d : Docker α) (f : α → Docker β) : Docker β :=
  d.bind fun
    | .ok a => f a
    | .error e => .done (.error e)

/-- `Controller` (lines 260–266). -/
structure Controller where
  config : Config
  stateDirectory : Path

/-- `CLEAN_PATH` (line 53). -/
def cleanPath : String := "/usr/local/sbin:/usr/local/bin:/usr/sbin:/usr/bin:/sbin:/bin"

/-- The fixed part of the environment (lines 272–276). -/
def baseEnvironment (stateDirectory : Path) : Dict String String :=
  .ofList [("PATH", cleanPath), ("HOME", stateDirectory.toText),
    ("DOCKER_CONFIG", (stateDirectory.child "docker").toText)]

/-- The last characters of a command's output (line 304). -/
def outputTail (stdout stderr : String) : String :=
  let text := (strip (if stderr ≠ "" then stderr else stdout)).toList
  String.ofList (text.drop (text.length - 2000))

namespace Controller

/-- `environment` (lines 268–277). -/
def environment (c : Controller) (settings : Dict String String) : Dict String String :=
  (baseEnvironment c.stateDirectory).update settings

/-- What `run` makes of an answer (lines 299–306). -/
def outcome (arguments : List String) (timeout : Double) : Answer → Except Failure String
  | .done returncode stdout stderr =>
    if returncode = 0 then .ok stdout
    else
      .error (.operationError ("docker " ++ arguments.headD "" ++ " failed (" ++
        toString returncode ++ "): " ++ outputTail stdout stderr))
  | .timedOut =>
    .error (.operationError ("docker " ++ arguments.headD "" ++ " timed out after " ++
      timeout.formatG ++ "s"))
  | .osError text => .error (.operationError ("cannot run docker: " ++ text))
  | .raised => .error .other

/-- `run` (lines 279–306). -/
def run (c : Controller) (arguments : List String) (service : Service) (timeout : Double)
    (settings : Dict String String) : Docker String :=
  .ask
    { argv := c.config.docker.toText :: arguments
      env := c.environment settings
      cwd := service.projectDirectory.toText
      timeout }
    fun answer => .done (outcome arguments timeout answer)

/-- `compose` (lines 308–321). -/
def compose (c : Controller) (service : Service) (arguments : List String) (timeout : Double)
    (settings : Dict String String) : Docker String :=
  c.run (["compose", "--file", service.composeFile.toText, "--project-directory",
    service.projectDirectory.toText, "--project-name", service.projectName] ++ arguments)
    service timeout settings

end Controller

/-! ## Status -/

/-- `GONE_STATES` (line 58). -/
def goneStates : List String := ["exited", "dead", "created"]

/-- `value.get(…)` of `document or {}`: what is true must be a dictionary. -/
def dictOrEmpty (document : Json) : Except Failure (Dict String Json) :=
  if document.truthy then
    match document.dict? with
    | some d => .ok d
    | none => .error .other
  else .ok ∅

/-- What a loop over `document or []` goes through, all of it `str`. -/
def stringsOrEmpty (document : Json) : Except Failure (List String) :=
  if document.truthy then
    match document with
    | .arr items =>
      match items.mapM Json.str? with
      | some strings => .ok strings
      | none => .error .other
    | .obj members => .ok (Dict.ofList members).keys
    | .str text => .ok (text.toList.map String.singleton)
    | _ => .error .other
  else .ok []

/-- The body of the loop over a container's environment list (lines 378–382). -/
def allowedVariable (service : Service) (environment : Dict String String) (entry : String) :
    Dict String String :=
  let parts := partition '=' entry
  if service.allowedEnv.contains parts.1 then environment.insert parts.1 parts.2 else environment

/-- The allowed variables of a container's environment list (lines 378–382). -/
def allowedVariables (service : Service) (entries : List String) : Dict String String :=
  entries.foldl (allowedVariable service) ∅

/-- `container_status` (lines 374–390). -/
def containerStatus (info : Json) (service : Service) : Except Failure Json :=
  match info.dict? with
  | none => .error .other
  | some info => do
    let state ← dictOrEmpty (Json.field info "State")
    let status := ((state.get "Status").getD (.str "unknown")).toStr
    let settings ← dictOrEmpty (Json.field info "Config")
    let entries ← stringsOrEmpty (Json.field settings "Env")
    let health ← dictOrEmpty (Json.field state "Health")
    .ok (.obj [("state", .str status),
      ("exit_code", if goneStates.contains status then Json.field state "ExitCode" else .null),
      ("oom_killed", .bool ((state.get "OOMKilled").getD (.bool false)).truthy),
      ("health", Json.field health "Status"),
      ("settings", .obj ((allowedVariables service entries).entries.map fun e => (e.1, .str e.2)))])

/-- `json.loads(inspected)[0]` (line 339). -/
def firstInspected (parse : String → Except LoadsError Json) (inspected : String) :
    Except Failure Json :=
  match parse inspected with
  | .ok (.arr (info :: _)) => .ok info
  | _ => .error .other

/-- The result for a service without a container (line 335). -/
def missingStatus : Json :=
  .obj [("state", .str "missing"), ("exit_code", .null), ("oom_killed", .bool false),
    ("settings", .obj [])]

namespace Controller

/-- The arguments of `docker ps` (lines 325–332). -/
def listing (service : Service) : List String :=
  ["ps", "--all", "--quiet", "--no-trunc",
    "--filter", "label=com.docker.compose.project=" ++ service.projectName,
    "--filter", "label=com.docker.compose.service=" ++ service.composeService,
    "--filter", "label=com.docker.compose.oneoff=False"]

/-- `status` (lines 323–339). -/
def status (c : Controller) (parse : String → Except LoadsError Json) (service : Service) :
    Docker Json :=
  (c.run (listing service) service c.config.stopTimeoutSeconds ∅).andThen fun listed =>
    match split listed with
    | [] => .done (.ok missingStatus)
    | [container] =>
      (c.run ["inspect", container] service c.config.stopTimeoutSeconds ∅).andThen fun inspected =>
        .done (firstInspected parse inspected >>= fun info => containerStatus info service)
    | found =>
      .done (.error (.operationError (service.name ++ " has " ++ toString found.length ++
        " containers; expected one")))

/-- `with self.locks[service.name]`: there is a lock for every configured service
    (line 266). -/
def withLock (c : Controller) {α : Type} (service : Service) (d : Docker α) : Docker α :=
  if c.config.services.contains service.name then d else .done (.error .other)

/-- `start` (lines 341–353). -/
def start (c : Controller) (parse : String → Except LoadsError Json) (service : Service)
    (settings : Dict String String) : Docker Json :=
  c.withLock service <|
    (c.compose service ["up", "--detach", "--no-deps", "--no-build", "--pull", "never",
      service.composeService] c.config.startTimeoutSeconds settings).andThen fun _ =>
        c.status parse service

/-- `stop` (lines 355–364). -/
def stop (c : Controller) (parse : String → Except LoadsError Json) (service : Service) :
    Docker Json :=
  c.withLock service <|
    (c.compose service ["stop", "--timeout", toString service.stopGraceSeconds,
      service.composeService] c.config.stopTimeoutSeconds ∅).andThen fun _ =>
        c.status parse service

/-- `handle` (lines 366–371). -/
def handle (c : Controller) (parse : String → Except LoadsError Json) (request : Request) :
    Docker Json :=
  if request.operation = "status" then c.status parse request.service
  else if request.operation = "start" then c.start parse request.service request.settings
  else c.stop parse request.service

end Controller

/-! ## The socket -/

/-- A little-endian signed integer of four bytes. -/
def int32 (bytes : List UInt8) : ℤ :=
  let n : ℕ := bytes.foldr (fun b n => b.toNat + 256 * n) 0
  if n < 2 ^ 31 then n else (n : ℤ) - 2 ^ 32

/-- `peer_is_authorised` (lines 241–254). `readStatus` is the text of
    `/proc/<pid>/status`, if it can be read. -/
def peerIsAuthorised (credentials : List UInt8) (allowedGid : ℤ)
    (readStatus : ℤ → Option String) : Bool :=
  if credentials.length ≠ 12 then false
  else
    let pid := int32 (credentials.take 4)
    let uid := int32 ((credentials.drop 4).take 4)
    let gid := int32 (credentials.drop 8)
    if uid = 0 ∨ gid = allowedGid then true
    else
      match (splitlines ((readStatus pid).getD "")).find? fun line => startswith line "Groups:" with
      | some line => ((split line).drop 1).contains (toString allowedGid)
      | none => false

/-- `rfile.readline(limit)` of the bytes a client sends. -/
def readLine : ℕ → List UInt8 → List UInt8
  | 0, _ => []
  | _, [] => []
  | limit + 1, b :: rest => if b = newline then [b] else b :: readLine limit rest

/-- What becomes of reading the request: bytes until the client stops, the time
    limit of the connection, or another error. -/
inductive Received where
  | bytes (sent : List UInt8)
  | timedOut
  | failed

/-- A connection: the peer's credentials, what can be read about its process, and
    what it sends. -/
structure Connection where
  credentials : List UInt8
  readStatus : ℤ → Option String
  received : Received

/-- The envelope of a result (lines 429–434). -/
def accepted (id : String) (result : Json) : Json :=
  .obj [("ok", .bool true), ("version", .int protocolVersion), ("id", .str id), ("result", result)]

/-- The reply to a failure (lines 435–442). -/
def refused : Failure → Json
  | .requestError message | .operationError message =>
    .obj [("ok", .bool false), ("error", .str message)]
  | .timeoutError => .obj [("ok", .bool false), ("error", .str "request timed out")]
  | .configError _ | .other => .obj [("ok", .bool false), ("error", .str "internal error")]

/-- The reply to a request that was carried out, or failed (lines 429–442). -/
def reply (id : String) : Except Failure Json → Json
  | .ok result => accepted id result
  | .error e => refused e

/-- The request of a connection, if there is one to carry out (lines 413–422). -/
def admitRequest (c : Controller) (parse : String → Except LoadsError Json) (allowedGid : ℤ)
    (connection : Connection) : Except Failure Request :=
  if !peerIsAuthorised connection.credentials allowedGid connection.readStatus then
    .error (.requestError "connecting peer is not authorised")
  else
    match connection.received with
    | .timedOut => .error .timeoutError
    | .failed => .error .other
    | .bytes sent =>
      let raw := readLine (maxMessageBytes + 1) sent
      if maxMessageBytes < raw.length then
        .error (.requestError "request exceeds maximum size")
      else parseRequest parse raw c.config

/-- `ControlHandler.handle` (lines 411–442) up to the writing of its reply. -/
def serve (c : Controller) (parse : String → Except LoadsError Json) (allowedGid : ℤ)
    (connection : Connection) : Dialogue Command Answer Json :=
  match admitRequest c parse allowedGid connection with
  | .error e => .done (refused e)
  | .ok request => (c.handle parse request).bind fun result => .done (reply request.id result)

/-- The line a reply is written as (line 443). -/
def replyLine (dumps : Json → List UInt8) (reply : Json) : List UInt8 :=
  dumps reply.sortKeys ++ [newline]

end ModelBroker.Helper
